import Embedai.McapCacheFiles

namespace Embedai.McapCache

open TransitionSystems

def EntriesOnDisk (s : State) : Prop := ∀ e entry, s.cache.get? e = some entry → entry.path ∈ s.disk

def Returns (s s' : State) (path : String) : Prop :=
  ∃ t c, s'.calls t = some c ∧ c.stage = .returned path ∧ s.calls t ≠ some c

def ReturnsFiles (cfg : Config) (s : State) (a : Action) : Prop :=
  ∀ s', next cfg s a = some s' → ∀ path, Returns s s' path → path ∈ s'.disk

def Stage.isDownloaded : Stage → Bool
  | .downloaded _ => true
  | _ => false

def FailsUncached (s : State) : Action → Prop
  | .downloadFails t => ∀ c ∈ s.calls t, c.episodeId ∉ s.cache.keys
  | _ => True

instance (s : State) : (a : Action) → Decidable (FailsUncached s a)
  | .downloadFails _ => inferInstanceAs (Decidable (∀ c ∈ _, _))
  | .getOrDownload _ _ _ | .acquire _ | .doubleCheck _ _ | .downloadWrites _ | .downloadSucceeds _ | .dropLock _
  | .store _ _ | .cleanupExpired _ | .clear | .unlinkOutside _ => isTrue trivial

def KeepsFiles (cfg : Config) (s : State) (a : Action) : Prop :=
  (∀ e ∈ unlinked cfg s a, ∀ t < s.nextCall, ∀ c ∈ s.calls t, c.episodeId = e → c.stage.isDownloaded = false) ∧
    FailsUncached s a

instance (cfg : Config) (s : State) (a : Action) : Decidable (KeepsFiles cfg s a) :=
  inferInstanceAs (Decidable ((∀ e ∈ unlinked cfg s a, ∀ t < s.nextCall, ∀ c ∈ s.calls t,
    c.episodeId = e → c.stage.isDownloaded = false) ∧ FailsUncached s a))

structure CacheFiles (cfg : Config) (ids : List String) (s : State) : Prop where
  fresh : s.FreshCalls
  named : Named cfg ids s
  entry : ∀ e entry, s.cache.get? e = some entry → cfg.tmpPath e ∈ s.disk
  downloaded : ∀ t c, s.calls t = some c → c.stage.isDownloaded → cfg.tmpPath c.episodeId ∈ s.disk

theorem entry_step {cfg : Config} {s s' : State} {a : Action} (h : Step cfg s a s') {e : String} {entry : Entry}
    (he : s'.cache.get? e = some entry) :
    (∃ old, s.cache.get? e = some old) ∧ (e ∉ unlinked cfg s a ∨ ∃ t, a = .downloadFails t) ∨
      ∃ t c, s.calls t = some c ∧ c.stage.isDownloaded ∧ c.episodeId = e := by
  have hpop : ∀ l, (popAll s l).cache.get? e = some entry →
      (∃ old, s.cache.get? e = some old) ∧ e ∉ l.map Prod.fst := by
    intro l hl
    rw [popAll_cache] at hl
    split_ifs at hl with hel
    exact ⟨⟨entry, hl⟩, hel⟩
  have htouch : ∀ f (old : Entry) now, s.cache.get? f = some old →
      (touch s f old.path now).cache.get? e = some entry → ∃ old, s.cache.get? e = some old := by
    intro f old now hf ht
    rw [touch_cache] at ht
    split_ifs at ht with hef
    · exact ⟨old, hef ▸ hf⟩
    · exact ⟨entry, ht⟩
  cases h with
  | hit hc hd => exact Or.inl ⟨htouch _ _ _ hc he, Or.inl (by simp [unlinked])⟩
  | @stale f sp now old hc hd =>
    obtain ⟨lock, locks, n, heq, -⟩ := awaitLock_eq (forgetStale s f) f sp
    rw [heq] at he
    have he' : (s.cache.erase f).get? e = some entry := he
    rw [OrderedDict.get?_erase] at he'
    split_ifs at he'
    exact Or.inl ⟨⟨entry, he'⟩, Or.inl (by simp [unlinked])⟩
  | miss hc =>
    obtain ⟨lock, locks, n, heq, -⟩ := awaitLock_eq s _ _
    rw [heq] at he
    exact Or.inl ⟨⟨entry, he⟩, Or.inl (by simp [unlinked])⟩
  | acquire ht hg => exact Or.inl ⟨⟨entry, he⟩, Or.inl (by simp [unlinked])⟩
  | found ht hc hd => exact Or.inl ⟨htouch _ _ _ hc he, Or.inl (by simp [unlinked])⟩
  | start ht hc => exact Or.inl ⟨⟨entry, he⟩, Or.inl (by simp [unlinked])⟩
  | writes ht => exact Or.inl ⟨⟨entry, he⟩, Or.inl (by simp [unlinked])⟩
  | succeeds ht => exact Or.inl ⟨⟨entry, he⟩, Or.inl (by simp [unlinked])⟩
  | @fails t f sp lock ht => exact Or.inl ⟨⟨entry, he⟩, Or.inr ⟨t, rfl⟩⟩
  | dropLock ht => exact Or.inl ⟨⟨entry, he⟩, Or.inl (by simp [unlinked])⟩
  | storeFull ht hm =>
    rw [evict_eq] at he
    obtain ⟨hold, hn⟩ := hpop _ he
    exact Or.inl ⟨hold, Or.inl hn⟩
  | @store t f sp lock now ht hm =>
    simp only [evict_eq, OrderedDict.get?_set] at he
    split_ifs at he with hef
    · exact Or.inr ⟨t, _, ht, rfl, hef.symm⟩
    · obtain ⟨hold, hn⟩ := hpop _ he
      exact Or.inl ⟨hold, Or.inl hn⟩
  | cleanup =>
    obtain ⟨hold, hn⟩ := hpop _ he
    exact Or.inl ⟨hold, Or.inl hn⟩
  | clear => cases he
  | unlink => exact Or.inl ⟨⟨entry, he⟩, Or.inl (by simp [unlinked])⟩

theorem downloaded_step {cfg : Config} {s s' : State} {a : Action} (h : Step cfg s a s') {t : ℕ} {c : Call}
    (ht : s'.calls t = some c) (hc : c.stage.isDownloaded) :
    s.calls t = some c ∨ cfg.tmpPath c.episodeId ∈ s'.disk := by
  have hset : ∀ {s : State} {u : ℕ} {d : Call}, d.stage.isDownloaded = false →
      (s.setCall u d).calls t = some c → s.calls t = some c := by
    intro s u d hd hu
    rw [setCall_calls] at hu
    split_ifs at hu
    · cases hu
      rw [hd] at hc
      cases hc
    · exact hu
  have hadd : ∀ {s : State} {d : Call}, d.stage.isDownloaded = false →
      (s.addCall d).calls t = some c → s.calls t = some c := by
    intro s d hd hu
    rw [addCall_calls] at hu
    split_ifs at hu
    · cases hu
      rw [hd] at hc
      cases hc
    · exact hu
  cases h with
  | hit hc hd => exact Or.inl (hadd rfl ht)
  | @stale f sp now old hc hd =>
    obtain ⟨lock, locks, n, heq, -⟩ := awaitLock_eq (forgetStale s f) f sp
    rw [heq] at ht
    exact Or.inl (hadd (s := forgetStale s f) rfl ht)
  | miss hc =>
    obtain ⟨lock, locks, n, heq, -⟩ := awaitLock_eq s _ _
    rw [heq] at ht
    exact Or.inl (hadd rfl ht)
  | acquire hu hg => exact Or.inl (hset rfl ht)
  | found hu hc hd => exact Or.inl (hset rfl ht)
  | start hu hc => exact Or.inl (hset rfl ht)
  | writes hu => exact Or.inl ht
  | @succeeds u f sp lock hu =>
    simp only [setCall_calls] at ht
    split_ifs at ht
    · cases ht
      exact Or.inr (Finset.mem_insert_self _ _)
    · exact Or.inl ht
  | fails hu => exact Or.inl (hset rfl ht)
  | dropLock hu => exact Or.inl (hset rfl ht)
  | storeFull hu hm =>
    rw [evict_eq] at ht
    rw [← (popAll_calls s (evicted cfg s)).1]
    exact Or.inl (hset rfl ht)
  | store hu hm =>
    simp only [evict_eq] at ht
    rw [← (popAll_calls s (evicted cfg s)).1]
    exact Or.inl (hset rfl ht)
  | cleanup =>
    rw [← (popAll_calls s (expired cfg s _)).1]
    exact Or.inl ht
  | clear => exact Or.inl ht
  | unlink => exact Or.inl ht

theorem returns_step {cfg : Config} {s s' : State} {a : Action} (h : Step cfg s a s') {path : String}
    (hr : Returns s s' path) :
    path ∈ s'.disk ∨ ∃ t c, s.calls t = some c ∧ c.stage.isDownloaded ∧ path = cfg.tmpPath c.episodeId := by
  obtain ⟨t, c, ht, hc, hnew⟩ := hr
  have hset : ∀ {s : State} {u : ℕ} {d : Call}, (∀ path, d.stage ≠ .returned path) →
      (s.setCall u d).calls t = some c → s.calls t = some c := by
    intro s u d hd hu
    rw [setCall_calls] at hu
    split_ifs at hu
    · cases hu
      exact absurd hc (hd path)
    · exact hu
  have hadd : ∀ {s : State} {d : Call}, (∀ path, d.stage ≠ .returned path) →
      (s.addCall d).calls t = some c → s.calls t = some c := by
    intro s d hd hu
    rw [addCall_calls] at hu
    split_ifs at hu
    · cases hu
      exact absurd hc (hd path)
    · exact hu
  cases h with
  | hit hc' hd =>
    rw [addCall_calls] at ht
    split_ifs at ht
    · cases ht
      cases hc
      exact Or.inl hd
    · exact absurd ht hnew
  | @stale f sp now old hc' hd =>
    obtain ⟨lock, locks, n, heq, -⟩ := awaitLock_eq (forgetStale s f) f sp
    rw [heq] at ht
    exact absurd (hadd (s := forgetStale s f) (fun _ h => by cases h) ht) hnew
  | miss hc' =>
    obtain ⟨lock, locks, n, heq, -⟩ := awaitLock_eq s _ _
    rw [heq] at ht
    exact absurd (hadd (fun _ h => by cases h) ht) hnew
  | acquire hu hg => exact absurd (hset (fun _ h => by cases h) ht) hnew
  | found hu hc' hd =>
    rw [setCall_calls] at ht
    split_ifs at ht
    · cases ht
      cases hc
      exact Or.inl hd
    · exact absurd ht hnew
  | start hu hc' => exact absurd (hset (fun _ h => by cases h) ht) hnew
  | writes hu => exact absurd ht hnew
  | succeeds hu => exact absurd (hset (fun _ h => by cases h) ht) hnew
  | fails hu => exact absurd (hset (fun _ h => by cases h) ht) hnew
  | dropLock hu => exact absurd (hset (fun _ h => by cases h) ht) hnew
  | storeFull hu hm =>
    rw [evict_eq] at ht
    have hold := hset (fun _ h => by cases h) ht
    rw [(popAll_calls s (evicted cfg s)).1] at hold
    exact absurd hold hnew
  | @store u f sp lock now hu hm =>
    simp only [evict_eq, setCall_calls, (popAll_calls s (evicted cfg s)).1] at ht
    split_ifs at ht
    · cases ht
      cases hc
      exact Or.inr ⟨u, _, hu, rfl, rfl⟩
    · exact absurd ht hnew
  | cleanup =>
    rw [(popAll_calls s (expired cfg s _)).1] at ht
    exact absurd ht hnew
  | clear => exact absurd ht hnew
  | unlink => exact absurd ht hnew

theorem downloaded_keeps {cfg : Config} {ids : List String} {s s' : State} {a : Action} (hs : CacheFiles cfg ids s)
    (hids : DistinctNames cfg ids) (ha : ∀ path, a ≠ .unlinkOutside path) (hk : KeepsFiles cfg s a)
    (h : Step cfg s a s') {t : ℕ} {c : Call} (ht : s.calls t = some c) (hc : c.stage.isDownloaded) :
    cfg.tmpPath c.episodeId ∈ s'.disk := by
  apply disk_step hs.named hids ha h (hs.named.call t c ht).1 (hs.downloaded t c ht hc)
  intro hu
  rw [hk.1 _ hu t (hs.fresh.lt ht) c ht rfl] at hc
  cases hc

theorem cacheFiles_step {cfg : Config} {ids : List String} {s s' : State} {a : Action} (hs : CacheFiles cfg ids s)
    (hids : DistinctNames cfg ids) (hreq : ∀ e ∈ requested [a], e ∈ ids) (ha : ∀ path, a ≠ .unlinkOutside path)
    (hk : KeepsFiles cfg s a) (h : Step cfg s a s') : CacheFiles cfg ids s' := by
  refine ⟨freshCalls_step hs.fresh h, named_step hs.named hreq h, ?_, ?_⟩
  · intro e entry he
    rcases entry_step h he with ⟨⟨old, hold⟩, hun⟩ | ⟨t, c, ht, hc, rfl⟩
    · apply disk_step hs.named hids ha h (hs.named.entry e old hold).1 (hs.entry e old hold)
      rcases hun with hun | ⟨t, rfl⟩
      · exact hun
      · intro hu
        simp only [unlinked, Option.mem_toList, Option.map_eq_some_iff] at hu
        obtain ⟨c, ht, rfl⟩ := hu
        exact hk.2 c ht (OrderedDict.mem_keys.mpr ⟨old, hold⟩)
    · exact downloaded_keeps hs hids ha hk h ht hc
  · intro t c ht hc
    rcases downloaded_step h ht hc with ht | hd
    · exact downloaded_keeps hs hids ha hk h ht hc
    · exact hd

theorem cacheFiles_initial (cfg : Config) (ids : List String) : CacheFiles cfg ids initial :=
  ⟨fun _ _ => rfl, ⟨fun _ _ h => (by cases h), fun _ _ h => (by cases h)⟩, fun _ _ h => (by cases h),
    fun _ _ h => (by cases h)⟩

theorem returnsFiles_of_cacheFiles {cfg : Config} {ids : List String} {s : State} {a : Action}
    (hs : CacheFiles cfg ids s) (hids : DistinctNames cfg ids) (ha : ∀ path, a ≠ .unlinkOutside path)
    (hk : KeepsFiles cfg s a) : ReturnsFiles cfg s a := by
  intro s' hn path hr
  rcases returns_step (step_of_next hn) hr with hd | ⟨t, c, ht, hc, rfl⟩
  · exact hd
  · exact downloaded_keeps hs hids ha hk (step_of_next hn) ht hc

def failureAfterStore : List Action :=
  [.getOrDownload "ep-1" "storage/ep1.mcap" 0, .acquire 0, .doubleCheck 0 0,
    .getOrDownload "ep-1" "storage/ep1.mcap" 1, .downloadFails 0, .dropLock 0,
    .acquire 1, .doubleCheck 1 2,
    .getOrDownload "ep-1" "storage/ep1.mcap" 3, .acquire 2, .doubleCheck 2 3,
    .downloadSucceeds 1, .store 1 4, .downloadFails 2]

theorem entry_without_file :
    ¬ ∀ (cfg : Config) (actions : List Action) (s : State), 1 ≤ cfg.maxSize →
      (∀ a ∈ actions, ∀ path, a ≠ .unlinkOutside path) → run (next cfg) initial actions = some s →
      EntriesOnDisk s ∧ Along (next cfg) (ReturnsFiles cfg) initial actions := by
  intro h
  have hrun : (run (next serviceConfig) initial failureAfterStore).any
      (fun s => s.cache.items.any (fun p => p.2.path ∉ s.disk)) = true := by decide +kernel
  obtain ⟨s, hs, hany⟩ := (Option.any_eq_true _ _).mp hrun
  obtain ⟨p, hp, hd⟩ := List.any_eq_true.mp hany
  have hdisk := (h serviceConfig failureAfterStore s (by decide) (by simp [failureAfterStore]) hs).1
  exact absurd (hdisk p.1 p.2 (OrderedDict.mem_items.mp hp)) (by simpa using hd)

theorem coherent_of_keepsFiles (cfg : Config) (actions : List Action) (s : State)
    (ha : ∀ a ∈ actions, ∀ path, a ≠ .unlinkOutside path) (hids : DistinctNames cfg (requested actions))
    (hk : Along (next cfg) (KeepsFiles cfg) initial actions) (h : run (next cfg) initial actions = some s) :
    EntriesOnDisk s ∧ Along (next cfg) (ReturnsFiles cfg) initial actions := by
  have hactions : Along (next cfg) (fun _ a => (∀ path, a ≠ .unlinkOutside path) ∧
      ∀ e ∈ requested [a], e ∈ requested actions) initial actions :=
    along_of_mem (fun a h => ⟨ha a h, requested_subset h⟩)
  have hok := hactions.and hk
  have hstep : ∀ s a t, CacheFiles cfg (requested actions) s →
      (((∀ path, a ≠ .unlinkOutside path) ∧ ∀ e ∈ requested [a], e ∈ requested actions) ∧ KeepsFiles cfg s a) →
      next cfg s a = some t → CacheFiles cfg (requested actions) t :=
    fun s a t hs hok hn => cacheFiles_step hs hids hok.1.2 hok.1.1 hok.2 (step_of_next hn)
  have hs := invariant_along _ hstep (cacheFiles_initial cfg _) hok h
  refine ⟨fun e entry he => ?_, ?_⟩
  · rw [(hs.named.entry e entry he).2]
    exact hs.entry e entry he
  · exact along_of_invariant _ hstep (fun s a hs hok => returnsFiles_of_cacheFiles hs hids hok.1.1 hok.2)
      (cacheFiles_initial cfg _) hok

def evictAndFail : List Action :=
  [.getOrDownload "ep-1" "storage/ep1.mcap" 0, .acquire 0, .doubleCheck 0 0, .downloadSucceeds 0, .store 0 1,
    .getOrDownload "ep-2" "storage/ep2.mcap" 2, .acquire 1, .doubleCheck 1 2, .downloadSucceeds 1, .store 1 3,
    .getOrDownload "ep-3" "storage/ep3.mcap" 4, .acquire 2, .doubleCheck 2 4, .downloadWrites 2,
    .downloadFails 2, .dropLock 2, .getOrDownload "ep-2" "storage/ep2.mcap" 5]

theorem coherent_evictAndFail :
    (run (next { serviceConfig with maxSize := 1 }) initial evictAndFail).isSome ∧
      ∀ s, run (next { serviceConfig with maxSize := 1 }) initial evictAndFail = some s →
        EntriesOnDisk s ∧ Along (next { serviceConfig with maxSize := 1 })
          (ReturnsFiles { serviceConfig with maxSize := 1 }) initial evictAndFail :=
  ⟨by decide +kernel, fun s => coherent_of_keepsFiles { serviceConfig with maxSize := 1 } evictAndFail s
    (by simp [evictAndFail]) (by decide +kernel) (by decide +kernel)⟩

end Embedai.McapCache
