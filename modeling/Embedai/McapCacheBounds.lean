import Embedai.McapCacheSteps

namespace Embedai.McapCache

open TransitionSystems

def State.Busy (s : State) (e : String) : Prop :=
  ∃ t c, s.calls t = some c ∧ c.episodeId = e ∧ c.stage.InFlight

def State.inFlight (s : State) : List ℕ := (List.range s.nextCall).filter (fun t => s.lock? t ≠ none)

theorem State.Busy.addCall {s : State} {e : String} (hs : s.FreshCalls) (h : s.Busy e) (c : Call) :
    (s.addCall c).Busy e := by
  obtain ⟨t, d, ht, hd⟩ := h
  refine ⟨t, d, ?_, hd⟩
  have := hs.lt ht
  rw [addCall_calls, if_neg (by omega)]
  exact ht

theorem busy_addCall (s : State) {c : Call} (hc : c.stage.InFlight) : (s.addCall c).Busy c.episodeId :=
  ⟨s.nextCall, c, by rw [addCall_calls, if_pos rfl], rfl, hc⟩

theorem State.Busy.setCall {s : State} {t : ℕ} {e f sp : String} {stage stage' : Stage} (h : s.Busy f)
    (ht : s.calls t = some ⟨e, sp, stage⟩) (hc : stage'.InFlight ∨ f ≠ e) :
    (s.setCall t ⟨e, sp, stage'⟩).Busy f := by
  obtain ⟨u, d, hu, hd, hfl⟩ := h
  by_cases hut : u = t
  · subst hut
    have he : d = ⟨e, sp, stage⟩ := Option.some.inj (hu.symm.trans ht)
    subst he
    rcases hc with hc | hc
    · exact ⟨u, ⟨e, sp, stage'⟩, by rw [setCall_calls, if_pos rfl], hd, hc⟩
    · exact absurd hd.symm hc
  · exact ⟨u, d, by rw [setCall_calls, if_neg hut, hu], hd, hfl⟩

structure Bounded (cfg : Config) (s : State) : Prop where
  fresh : s.FreshCalls
  size : s.cache.length ≤ cfg.maxSize
  covered : ∀ e lock, s.episodeLocks.get? e = some lock → (∃ entry, s.cache.get? e = some entry) ∨ s.Busy e

theorem bounded_initial (cfg : Config) : Bounded cfg initial :=
  ⟨fun _ _ => rfl, Nat.zero_le _, fun _ _ h => by cases h⟩

theorem covered_awaitLock {cfg : Config} {s : State} (hs : Bounded cfg s) (e sp : String) :
    Bounded cfg (awaitLock s e sp) := by
  refine ⟨hs.fresh.awaitLock e sp, ?_, ?_⟩
  all_goals obtain ⟨lock, locks, n, he, -, hother, -⟩ := awaitLock_eq s e sp
  all_goals rw [he]
  · exact hs.size
  · intro f l hf
    by_cases hfe : f = e
    · exact Or.inr (hfe ▸ busy_addCall s (c := ⟨e, sp, .acquiring lock⟩) (by simp [Stage.InFlight, Stage.lock?]))
    · rcases hs.covered f l ((hother f hfe).symm.trans hf) with hc | hb
      · exact Or.inl hc
      · exact Or.inr (State.Busy.addCall hs.fresh hb _)

theorem bounded_setCall {cfg : Config} {s : State} {t : ℕ} {e sp : String} {stage stage' : Stage}
    (hs : Bounded cfg s) (ht : s.calls t = some ⟨e, sp, stage⟩)
    (hc : stage'.InFlight ∨ (∃ entry, s.cache.get? e = some entry) ∨ s.episodeLocks.get? e = none) :
    Bounded cfg (s.setCall t ⟨e, sp, stage'⟩) := by
  refine ⟨hs.fresh.setCall ht _, hs.size, ?_⟩
  intro f lock hf
  rcases hs.covered f lock hf with hcache | hb
  · exact Or.inl hcache
  · by_cases hfe : f = e
    · subst hfe
      rcases hc with hc | hc | hc
      · exact Or.inr (hb.setCall ht (Or.inl hc))
      · exact Or.inl hc
      · have hf' : s.episodeLocks.get? f = some lock := hf
        rw [hc] at hf'
        cases hf'
    · exact Or.inr (hb.setCall ht (Or.inr hfe))

theorem bounded_popAll {cfg : Config} {s : State} (hs : Bounded cfg s) (l : List (String × Entry)) :
    Bounded cfg (popAll s l) := by
  obtain ⟨hcalls, hnext, -⟩ := popAll_calls s l
  refine ⟨?_, (popAll_length s l).trans hs.size, ?_⟩
  · intro t ht
    rw [hcalls]
    exact hs.fresh t (hnext ▸ ht)
  · intro e lock he
    rw [popAll_locks] at he
    split_ifs at he with hl
    rcases hs.covered e lock he with ⟨entry, hc⟩ | ⟨t, c, ht, hb⟩
    · exact Or.inl ⟨entry, by rw [popAll_cache, if_neg hl, hc]⟩
    · exact Or.inr ⟨t, c, by rw [hcalls, ht], hb⟩

theorem bounded_touch {cfg : Config} {s : State} (hs : Bounded cfg s) {e : String} {entry : Entry}
    (hc : s.cache.get? e = some entry) (path : String) (now : ℚ) : Bounded cfg (touch s e path now) := by
  refine ⟨hs.fresh, (touch_length hc path now).trans_le hs.size, ?_⟩
  intro f lock hf
  rcases hs.covered f lock hf with ⟨entry', hf'⟩ | hb
  · by_cases hfe : f = e
    · exact Or.inl ⟨⟨path, now⟩, by rw [touch_cache, if_pos hfe]⟩
    · exact Or.inl ⟨entry', by rw [touch_cache, if_neg hfe, hf']⟩
  · exact Or.inr hb

theorem bounded_forgetStale {cfg : Config} {s : State} (hs : Bounded cfg s) (e : String) :
    Bounded cfg (forgetStale s e) := by
  refine ⟨hs.fresh, (OrderedDict.length_erase_le _ _).trans hs.size, ?_⟩
  intro f lock hf
  simp only [forgetStale, OrderedDict.get?_erase] at hf ⊢
  split_ifs at hf with hfe
  rw [if_neg hfe]
  exact hs.covered f lock hf

theorem bounded_dropLock {cfg : Config} {s : State} (hs : Bounded cfg s) (e : String) :
    Bounded cfg { s with episodeLocks := s.episodeLocks.erase e } := by
  refine ⟨hs.fresh, hs.size, ?_⟩
  intro f lock hf
  simp only [OrderedDict.get?_erase] at hf
  split_ifs at hf with hfe
  exact hs.covered f lock hf

theorem bounded_step {cfg : Config} (hm : 1 ≤ cfg.maxSize) {s s' : State} {a : Action}
    (hs : Bounded cfg s) (h : Step cfg s a s') : Bounded cfg s' := by
  have hfresh := freshCalls_step hs.fresh h
  cases h with
  | hit hc hd =>
    have ht := fun path now => bounded_touch hs hc path now
    exact ⟨hfresh, (ht _ _).size,
      fun f lock hf => ((ht _ _).covered f lock hf).imp_right (State.Busy.addCall (ht _ _).fresh · _)⟩
  | stale hc hd => exact covered_awaitLock (bounded_forgetStale hs _) _ _
  | miss hc => exact covered_awaitLock hs _ _
  | acquire ht hg => exact bounded_setCall hs ht (Or.inl (by simp [Stage.InFlight, Stage.lock?]))
  | @found t e sp lock now entry ht hc hd =>
    refine bounded_setCall (bounded_touch hs hc _ _) ht (Or.inr (Or.inl ⟨⟨entry.path, now⟩, ?_⟩))
    rw [touch_cache, if_pos rfl]
  | @start t e sp lock now ht hc =>
    have hset : Bounded cfg (s.setCall t ⟨e, sp, .downloading lock⟩) :=
      bounded_setCall hs ht (Or.inl (by simp [Stage.InFlight, Stage.lock?]))
    exact ⟨hset.fresh, hset.size, hset.covered⟩
  | writes ht => exact ⟨hs.fresh, hs.size, hs.covered⟩
  | @succeeds t e sp lock ht =>
    have hset : Bounded cfg (s.setCall t ⟨e, sp, .downloaded lock⟩) :=
      bounded_setCall hs ht (Or.inl (by simp [Stage.InFlight, Stage.lock?]))
    exact ⟨hset.fresh, hset.size, hset.covered⟩
  | @fails t e sp lock ht =>
    have hset : Bounded cfg (s.setCall t ⟨e, sp, .failed lock⟩) :=
      bounded_setCall hs ht (Or.inl (by simp [Stage.InFlight, Stage.lock?]))
    exact ⟨hset.fresh, hset.size, hset.covered⟩
  | @dropLock t e sp lock ht =>
    refine bounded_setCall (bounded_dropLock hs e) ht (Or.inr (Or.inr ?_))
    simp only [OrderedDict.get?_erase, ↓reduceIte]
  | storeFull ht hfull =>
    have := evict_length hm s
    omega
  | @store t e sp lock now ht hroom =>
    rw [evict_eq] at hroom
    simp only [evict_eq]
    have hp := bounded_popAll hs (evicted cfg s)
    have ht' : (popAll s (evicted cfg s)).calls t = some ⟨e, sp, .downloaded lock⟩ := by
      rw [(popAll_calls s (evicted cfg s)).1, ht]
    refine ⟨hp.fresh.setCall ht' _, (OrderedDict.length_set_le _ _ _).trans hroom, ?_⟩
    intro f l hf
    by_cases hfe : f = e
    · exact Or.inl ⟨⟨cfg.tmpPath e, now⟩, by rw [OrderedDict.get?_set, if_pos hfe]⟩
    · rcases hp.covered f l hf with ⟨entry, hc⟩ | hb
      · exact Or.inl ⟨entry, by rw [OrderedDict.get?_set, if_neg hfe, hc]⟩
      · exact Or.inr (hb.setCall ht' (Or.inr hfe))
  | cleanup => exact bounded_popAll hs _
  | clear => exact ⟨hs.fresh, Nat.zero_le _, fun e lock he => by cases he⟩
  | unlink => exact ⟨hs.fresh, hs.size, hs.covered⟩

theorem bounded_run {cfg : Config} (hm : 1 ≤ cfg.maxSize) {actions : List Action} {s : State}
    (h : run (next cfg) initial actions = some s) : Bounded cfg s :=
  invariant_run (Bounded cfg) (fun _ _ _ hs hn => bounded_step hm hs (step_of_next hn))
    (bounded_initial cfg) h

theorem locks_length {cfg : Config} {s : State} (hs : Bounded cfg s) :
    s.episodeLocks.length ≤ s.cache.length + s.inFlight.length := by
  let owner (t : ℕ) : String := ((s.calls t).map Call.episodeId).getD ""
  have hsub : s.episodeLocks.keys ⊆ s.cache.keys ++ s.inFlight.map owner := by
    intro e he
    obtain ⟨lock, hl⟩ := OrderedDict.mem_keys.mp he
    rcases hs.covered e lock hl with hc | ⟨t, c, ht, hce, hb⟩
    · exact List.mem_append_left _ (OrderedDict.mem_keys.mpr hc)
    · refine List.mem_append_right _ (List.mem_map.mpr ⟨t, ?_, by simp [owner, ht, hce]⟩)
      refine List.mem_filter.mpr ⟨List.mem_range.mpr (hs.fresh.lt ht), ?_⟩
      simpa [State.lock?, ht, Stage.InFlight] using hb
  have hle := (s.episodeLocks.nodup.subperm hsub).length_le
  simpa only [OrderedDict.keys, List.length_map, List.length_append, OrderedDict.length] using hle

theorem cache_bounds (cfg : Config) (hm : 1 ≤ cfg.maxSize) (actions : List Action) (s : State)
    (h : run (next cfg) initial actions = some s) :
    s.cache.length ≤ cfg.maxSize ∧ (∀ e ∈ s.episodeLocks.keys, e ∈ s.cache.keys ∨ s.Busy e) ∧
      s.episodeLocks.length ≤ cfg.maxSize + s.inFlight.length := by
  have hs := bounded_run hm h
  refine ⟨hs.size, ?_, (locks_length hs).trans (Nat.add_le_add_right hs.size _)⟩
  intro e he
  obtain ⟨lock, hl⟩ := OrderedDict.mem_keys.mp he
  exact (hs.covered e lock hl).imp_left OrderedDict.mem_keys.mpr

def oneOfTwoStored : List Action :=
  [.getOrDownload "ep-1" "storage/ep1.mcap" 0, .acquire 0, .doubleCheck 0 0,
    .getOrDownload "ep-2" "storage/ep2.mcap" 1, .downloadSucceeds 0, .store 0 2]

theorem cache_bounds_oneOfTwoStored :
    (run (next serviceConfig) initial oneOfTwoStored).isSome ∧
      ∀ s, run (next serviceConfig) initial oneOfTwoStored = some s →
        s.cache.length ≤ 5 ∧ (∀ e ∈ s.episodeLocks.keys, e ∈ s.cache.keys ∨ s.Busy e) ∧
          s.episodeLocks.length ≤ 5 + s.inFlight.length :=
  ⟨by decide, cache_bounds serviceConfig (by decide) oneOfTwoStored⟩

end Embedai.McapCache
