import Embedai.McapCacheFiles

namespace Embedai.McapCache

def Stage.isDownloading : Stage → Bool
  | .downloading _ => true
  | _ => false

def State.Downloading (s : State) (e : String) : Prop :=
  ∃ j < s.nextCall, ∃ d ∈ s.calls j, d.episodeId = e ∧ d.stage.isDownloading = true

instance (s : State) (e : String) : Decidable (s.Downloading e) :=
  inferInstanceAs (Decidable (∃ j < s.nextCall, ∃ d ∈ s.calls j, d.episodeId = e ∧ d.stage.isDownloading = true))

def Action.Ends (a : Action) (t : ℕ) : Prop := a = .downloadSucceeds t ∨ a = .downloadFails t

variable {cfg : Config} {s s' : State} {a : Action}

section Calls

structure Advances (a : Action) (t : ℕ) (c c' : Call) : Prop where
  episodeId : c'.episodeId = c.episodeId
  storagePath : c'.storagePath = c.storagePath
  downloading : c.stage.isDownloading = true → c'.stage.isDownloading = true ∨ a.Ends t

theorem Advances.refl (a : Action) (t : ℕ) (c : Call) : Advances a t c c := ⟨rfl, rfl, .inl⟩

theorem advances_setCall {t : ℕ} {e sp : String} {stage stage' : Stage} (ht : s.calls t = some ⟨e, sp, stage⟩)
    (hstage : stage.isDownloading = true → stage'.isDownloading = true ∨ a.Ends t) {u : ℕ} {c : Call}
    (hu : s.calls u = some c) : ∃ c', (s.setCall t ⟨e, sp, stage'⟩).calls u = some c' ∧ Advances a u c c' := by
  rw [setCall_calls]
  split_ifs with hut
  · subst hut
    rw [ht, Option.some.injEq] at hu
    subst hu
    exact ⟨_, rfl, rfl, rfl, hstage⟩
  · exact ⟨c, hu, .refl a u c⟩

theorem advances_addCall (hs : s.FreshCalls) {c₀ : Call} {u : ℕ} {c : Call} (hu : s.calls u = some c) :
    ∃ c', (s.addCall c₀).calls u = some c' ∧ Advances a u c c' := by
  rw [addCall_calls, if_neg (hs.lt hu).ne]
  exact ⟨c, hu, .refl a u c⟩

theorem advances_awaitLock (hs : s.FreshCalls) (e sp : String) {u : ℕ} {c : Call} (hu : s.calls u = some c) :
    ∃ c', (awaitLock s e sp).calls u = some c' ∧ Advances a u c c' := by
  obtain ⟨lock, locks, n, heq, -⟩ := awaitLock_eq s e sp
  rw [heq]
  exact advances_addCall hs hu

theorem advances_step (hs : s.FreshCalls) (h : Step cfg s a s') {u : ℕ} {c : Call} (hu : s.calls u = some c) :
    ∃ c', s'.calls u = some c' ∧ Advances a u c c' := by
  cases h with
  | hit hc hd => exact advances_addCall (s := touch s _ _ _) hs hu
  | stale hc hd => exact advances_awaitLock (s := forgetStale s _) hs _ _ hu
  | miss hc => exact advances_awaitLock hs _ _ hu
  | acquire ht hg => exact advances_setCall ht (fun h => by cases h) hu
  | found ht hc hd => exact advances_setCall (s := touch s _ _ _) ht (fun h => by cases h) hu
  | start ht hc => exact advances_setCall ht (fun h => by cases h) hu
  | writes ht => exact ⟨c, hu, .refl _ u c⟩
  | succeeds ht => exact advances_setCall ht (fun _ => .inr (.inl rfl)) hu
  | fails ht => exact advances_setCall (s := removeFile s _) ht (fun _ => .inr (.inr rfl)) hu
  | dropLock ht => exact advances_setCall ht (fun h => by cases h) hu
  | storeFull ht hm =>
    rw [evict_eq]
    rw [← (popAll_calls s (evicted cfg s)).1] at ht hu
    exact advances_setCall ht (fun h => by cases h) hu
  | store ht hm =>
    simp only [evict_eq]
    rw [← (popAll_calls s (evicted cfg s)).1] at ht hu
    exact advances_setCall ht (fun h => by cases h) hu
  | cleanup =>
    rw [← (popAll_calls s (expired cfg s _)).1] at hu
    exact ⟨c, hu, .refl _ u c⟩
  | clear => exact ⟨c, hu, .refl _ u c⟩
  | unlink => exact ⟨c, hu, .refl _ u c⟩

theorem call_origin (h : Step cfg s a s') {u : ℕ} {c : Call} (hu : s'.calls u = some c) :
    (∃ c₀, s.calls u = some c₀) ∨ u = s.nextCall ∧ ∃ now, a = .getOrDownload c.episodeId c.storagePath now := by
  have hset {s : State} {t : ℕ} {c₁ c₂ : Call} (ht : s.calls t = some c₁) (hu : (s.setCall t c₂).calls u = some c) :
      ∃ c₀, s.calls u = some c₀ := by
    rw [setCall_calls] at hu
    split_ifs at hu with hut
    · exact ⟨c₁, hut ▸ ht⟩
    · exact ⟨c, hu⟩
  have hadd {s : State} {c₁ : Call} (hu : (s.addCall c₁).calls u = some c) :
      (∃ c₀, s.calls u = some c₀) ∨ u = s.nextCall ∧ c = c₁ := by
    rw [addCall_calls] at hu
    split_ifs at hu with hut
    · cases hu
      exact .inr ⟨hut, rfl⟩
    · exact .inl ⟨c, hu⟩
  have hawait {s : State} {e sp : String} (hu : (awaitLock s e sp).calls u = some c) :
      (∃ c₀, s.calls u = some c₀) ∨ u = s.nextCall ∧ c.episodeId = e ∧ c.storagePath = sp := by
    obtain ⟨lock, locks, n, heq, -⟩ := awaitLock_eq s e sp
    rw [heq] at hu
    exact (hadd hu).imp_right fun ⟨hut, hc⟩ => ⟨hut, by rw [hc], by rw [hc]⟩
  cases h with
  | hit hc hd =>
    refine (hadd (s := touch s _ _ _) hu).imp_right ?_
    rintro ⟨hut, rfl⟩
    exact ⟨hut, _, rfl⟩
  | stale hc hd =>
    refine (hawait (s := forgetStale s _) hu).imp_right ?_
    rintro ⟨hut, rfl, rfl⟩
    exact ⟨hut, _, rfl⟩
  | miss hc =>
    refine (hawait hu).imp_right ?_
    rintro ⟨hut, rfl, rfl⟩
    exact ⟨hut, _, rfl⟩
  | acquire ht hg => exact .inl (hset ht hu)
  | found ht hc hd => exact .inl (hset (s := touch s _ _ _) ht hu)
  | start ht hc => exact .inl (hset ht hu)
  | writes ht => exact .inl ⟨c, hu⟩
  | succeeds ht => exact .inl (hset ht hu)
  | fails ht => exact .inl (hset (s := removeFile s _) ht hu)
  | dropLock ht => exact .inl (hset ht hu)
  | storeFull ht hm =>
    rw [evict_eq] at hu
    rw [← (popAll_calls s (evicted cfg s)).1] at ht
    rw [← (popAll_calls s (evicted cfg s)).1]
    exact .inl (hset ht hu)
  | store ht hm =>
    simp only [evict_eq] at hu
    rw [← (popAll_calls s (evicted cfg s)).1] at ht
    rw [← (popAll_calls s (evicted cfg s)).1]
    exact .inl (hset ht hu)
  | cleanup =>
    rw [← (popAll_calls s (expired cfg s _)).1]
    exact .inl ⟨c, hu⟩
  | clear => exact .inl ⟨c, hu⟩
  | unlink => exact .inl ⟨c, hu⟩

theorem call_getOrDownload {e sp : String} {now : ℚ} (h : Step cfg s (.getOrDownload e sp now) s') :
    ∃ stage, s'.calls s.nextCall = some ⟨e, sp, stage⟩ := by
  have hadd (s : State) (c : Call) : (s.addCall c).calls s.nextCall = some c := by
    rw [addCall_calls, if_pos rfl]
  have hawait (s : State) : ∃ stage, (awaitLock s e sp).calls s.nextCall = some ⟨e, sp, stage⟩ := by
    obtain ⟨lock, locks, n, heq, -⟩ := awaitLock_eq s e sp
    exact ⟨_, by rw [heq]; exact hadd s _⟩
  cases h with
  | hit hc hd => exact ⟨_, hadd (touch s _ _ _) _⟩
  | stale hc hd => exact hawait (forgetStale s _)
  | miss hc => exact hawait s

end Calls

section Disk

theorem disk_origin (h : Step cfg s a s') {path : String} (hpath : path ∈ s'.disk) :
    path ∈ s.disk ∨ ∃ t c, s.calls t = some c ∧ path = cfg.tmpPath c.episodeId ∧
      (a = .downloadWrites t ∨ a = .downloadSucceeds t) := by
  have hpop {l : List (String × Entry)} (hpath : path ∈ (popAll s l).disk) : path ∈ s.disk :=
    ((popAll_disk s l path).mp hpath).1
  have hawait {s : State} {e sp : String} (hpath : path ∈ (awaitLock s e sp).disk) : path ∈ s.disk := by
    obtain ⟨lock, locks, n, heq, -⟩ := awaitLock_eq s e sp
    rw [heq] at hpath
    exact hpath
  cases h with
  | hit hc hd => exact .inl hpath
  | stale hc hd => exact .inl (hawait (s := forgetStale s _) hpath)
  | miss hc => exact .inl (hawait hpath)
  | acquire ht hg => exact .inl hpath
  | found ht hc hd => exact .inl hpath
  | start ht hc => exact .inl hpath
  | writes ht =>
    rcases Finset.mem_insert.mp hpath with rfl | hpath
    · exact .inr ⟨_, _, ht, rfl, .inl rfl⟩
    · exact .inl hpath
  | succeeds ht =>
    rcases Finset.mem_insert.mp hpath with rfl | hpath
    · exact .inr ⟨_, _, ht, rfl, .inr rfl⟩
    · exact .inl hpath
  | fails ht => exact .inl (Finset.mem_of_mem_erase hpath)
  | dropLock ht => exact .inl hpath
  | storeFull ht hm =>
    rw [evict_eq] at hpath
    exact .inl (hpop hpath)
  | store ht hm =>
    simp only [evict_eq] at hpath
    exact .inl (hpop hpath)
  | cleanup => exact .inl (hpop hpath)
  | clear => exact .inl ((foldl_erase _ _ _).mp hpath).1
  | unlink => exact .inl (Finset.mem_of_mem_erase hpath)

theorem downloading_of_writes (h : Step cfg s a s') {t : ℕ} (ha : a = .downloadWrites t ∨ a = .downloadSucceeds t)
    {c : Call} (hc : s.calls t = some c) : c.stage.isDownloading = true := by
  rcases ha with rfl | rfl
  · cases h with
    | writes ht =>
      rw [ht, Option.some.injEq] at hc
      rw [← hc]
      rfl
  · cases h with
    | succeeds ht =>
      rw [ht, Option.some.injEq] at hc
      rw [← hc]
      rfl

theorem not_mem_disk_of_fails {t : ℕ} {c : Call} (h : Step cfg s (.downloadFails t) s') (hc : s.calls t = some c) :
    cfg.tmpPath c.episodeId ∉ s'.disk := by
  cases h with
  | fails ht =>
    rw [ht, Option.some.injEq] at hc
    subst hc
    exact Finset.notMem_erase _ _

end Disk

end Embedai.McapCache
