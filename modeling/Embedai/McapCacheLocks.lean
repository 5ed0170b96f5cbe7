import Embedai.McapCacheSteps

namespace Embedai.McapCache

open TransitionSystems

def OneDownload (s : State) : Prop :=
  ∀ t u c d lock lock', s.calls t = some c → s.calls u = some d →
    c.stage = .downloading lock → d.stage = .downloading lock' → c.episodeId = d.episodeId → t = u

def Stage.pending? : Stage → Option LockId
  | .acquiring lock => some lock
  | .checking lock => some lock
  | .downloading lock => some lock
  | _ => none

def droppedLocks (cfg : Config) (s : State) : Action → List String
  | .getOrDownload e _ _ =>
    match s.cache.get? e with
    | some entry => if entry.path ∈ s.disk then [] else [e]
    | none => []
  | .dropLock t => ((s.calls t).map Call.episodeId).toList
  | .store _ _ => (evicted cfg s).map Prod.fst
  | .cleanupExpired now => (expired cfg s now).map Prod.fst
  | .clear => s.episodeLocks.keys
  | _ => []

def KeepsLocks (cfg : Config) (s : State) (a : Action) : Prop :=
  ∀ e ∈ droppedLocks cfg s a, ∀ t < s.nextCall, ∀ c ∈ s.calls t, c.episodeId = e → c.stage.pending? = none

instance (cfg : Config) (s : State) (a : Action) : Decidable (KeepsLocks cfg s a) :=
  inferInstanceAs (Decidable (∀ e ∈ _, ∀ t < s.nextCall, ∀ c ∈ s.calls t,
    c.episodeId = e → c.stage.pending? = none))

def Tabled (s : State) : Prop :=
  ∀ t c lock, s.calls t = some c → c.stage.pending? = some lock →
    s.episodeLocks.get? c.episodeId = some lock

def Exclusive (s : State) : Prop :=
  ∀ t u lock, s.held? t = some lock → s.held? u = some lock → t = u

theorem held?_eq_some {s : State} {t : ℕ} {lock : LockId} :
    s.held? t = some lock ↔ ∃ c, s.calls t = some c ∧ c.stage.held? = some lock := by
  simp only [State.held?, Option.bind_eq_some_iff]

theorem oneDownload_of_tabled {s : State} (ht : Tabled s) (he : Exclusive s) : OneDownload s := by
  intro t u c d lock lock' hc hd hcs hds hid
  have hcl := ht t c lock hc (by rw [hcs, Stage.pending?])
  have hdl := ht u d lock' hd (by rw [hds, Stage.pending?])
  have hl : lock = lock' := by
    rw [hid, hdl, Option.some.injEq] at hcl
    exact hcl.symm
  subst hl
  exact he t u lock (held?_eq_some.mpr ⟨c, hc, by rw [hcs, Stage.held?, Stage.lock?]; simp⟩)
    (held?_eq_some.mpr ⟨d, hd, by rw [hds, Stage.held?, Stage.lock?]; simp⟩)

theorem Tabled.setCall {s : State} {t : ℕ} {e sp : String} {stage stage' : Stage} (hs : Tabled s)
    (ht : s.calls t = some ⟨e, sp, stage⟩)
    (hl : ∀ lock, stage'.pending? = some lock → stage.pending? = some lock) :
    Tabled (s.setCall t ⟨e, sp, stage'⟩) := by
  intro u c lock hu hc
  rw [setCall_calls] at hu
  split_ifs at hu with hut
  · cases hu
    exact hs t ⟨e, sp, stage⟩ lock ht (hl lock hc)
  · exact hs u c lock hu hc

theorem Tabled.addCall {s : State} (hs : Tabled s) {c : Call} (hc : c.stage.pending? = none) :
    Tabled (s.addCall c) := by
  intro u d lock hu hd
  rw [addCall_calls] at hu
  split_ifs at hu with hut
  · cases hu
    rw [hc] at hd
    cases hd
  · exact hs u d lock hu hd

theorem Tabled.awaitLock {s : State} (hs : Tabled s) (e sp : String) : Tabled (awaitLock s e sp) := by
  obtain ⟨lock, locks, n, he, hself, hother, hold⟩ := awaitLock_eq s e sp
  rw [he]
  intro u d l hu hd
  have hu' : (s.addCall ⟨e, sp, .acquiring lock⟩).calls u = some d := hu
  rw [addCall_calls] at hu'
  split_ifs at hu' with hut
  · cases hu'
    cases hd
    exact hself
  · have htab := hs u d l hu' hd
    by_cases hde : d.episodeId = e
    · rw [hde] at htab ⊢
      exact hold l htab ▸ hself
    · exact (hother _ hde).trans htab

theorem Tabled.drop {s t : State} (hs : Tabled s) (hf : s.FreshCalls) (gone : List String)
    (hk : ∀ e ∈ gone, ∀ u < s.nextCall, ∀ c ∈ s.calls u, c.episodeId = e → c.stage.pending? = none)
    (hcalls : t.calls = s.calls)
    (hlocks : ∀ e, e ∉ gone → t.episodeLocks.get? e = s.episodeLocks.get? e) : Tabled t := by
  intro u c lock hu hcl
  rw [hcalls] at hu
  rw [hlocks c.episodeId]
  · exact hs u c lock hu hcl
  · intro hg
    rw [hk c.episodeId hg u (hf.lt hu) c hu rfl] at hcl
    cases hcl

theorem Tabled.popAll {s : State} (hs : Tabled s) (hf : s.FreshCalls) {l : List (String × Entry)}
    (hk : ∀ e ∈ l.map Prod.fst, ∀ t < s.nextCall, ∀ c ∈ s.calls t, c.episodeId = e → c.stage.pending? = none) :
    Tabled (popAll s l) := by
  apply hs.drop hf _ hk (popAll_calls s l).1
  intro e he
  rw [popAll_locks, if_neg he]

theorem tabled_step {cfg : Config} {s s' : State} {a : Action} (hs : Tabled s) (hf : s.FreshCalls)
    (hk : KeepsLocks cfg s a) (h : Step cfg s a s') : Tabled s' := by
  cases h with
  | hit hc hd => exact Tabled.addCall (s := touch s _ _ _) hs rfl
  | @stale e sp now entry hc hd =>
    apply Tabled.awaitLock
    refine hs.drop (t := forgetStale s e) hf [e] ?_ rfl ?_
    · simpa only [KeepsLocks, droppedLocks, hc, hd, if_false] using hk
    · intro f hf
      change (s.episodeLocks.erase e).get? f = _
      rw [OrderedDict.get?_erase, if_neg (by simpa using hf)]
  | miss hc => exact hs.awaitLock _ _
  | acquire ht hg => exact hs.setCall ht (fun lock hl => hl)
  | found ht hc hd => exact Tabled.setCall (s := touch s _ _ _) hs ht (fun lock hl => by cases hl)
  | start ht hc => exact hs.setCall ht (fun lock hl => hl)
  | writes ht => exact hs
  | succeeds ht => exact hs.setCall ht (fun lock hl => by cases hl)
  | fails ht => exact Tabled.setCall (s := removeFile s _) hs ht (fun lock hl => by cases hl)
  | @dropLock t e sp lock ht =>
    have hset : Tabled (s.setCall t ⟨e, sp, .raised⟩) := hs.setCall ht (fun lock hl => by cases hl)
    refine hset.drop (hf.setCall ht _) [e] ?_ rfl ?_
    · intro f hfe u hu c hc hcf
      rw [setCall_calls] at hc
      split_ifs at hc with hut
      · cases hc
        rfl
      · exact hk f (by rw [droppedLocks, ht]; exact hfe) u hu c hc hcf
    · intro f hf
      rw [OrderedDict.get?_erase, if_neg (by simpa using hf)]
      rfl
  | storeFull ht hm =>
    rw [evict_eq]
    exact (hs.popAll hf hk).setCall ((popAll_calls s _).1 ▸ ht) (fun lock hl => by cases hl)
  | store ht hm =>
    simp only [evict_eq]
    exact (hs.popAll hf hk).setCall ((popAll_calls s _).1 ▸ ht) (fun lock hl => by cases hl)
  | cleanup => exact hs.popAll hf hk
  | clear =>
    refine hs.drop (t := clear s) hf s.episodeLocks.keys hk rfl ?_
    intro f hf
    exact (OrderedDict.get?_eq_none.mpr hf).symm
  | unlink => exact hs

theorem Exclusive.mono {s s' : State} (hs : Exclusive s)
    (h : ∀ u lock, s'.held? u = some lock → s.held? u = some lock) : Exclusive s' :=
  fun t u lock ht hu => hs t u lock (h t lock ht) (h u lock hu)

theorem Exclusive.setCall {s : State} {t : ℕ} {e sp : String} {stage stage' : Stage} (hs : Exclusive s)
    (ht : s.calls t = some ⟨e, sp, stage⟩) (hl : ∀ lock, stage'.held? = some lock → stage.held? = some lock) :
    Exclusive (s.setCall t ⟨e, sp, stage'⟩) := by
  apply hs.mono
  intro u lock hu
  obtain ⟨c, hc, hcl⟩ := held?_eq_some.mp hu
  rw [setCall_calls] at hc
  split_ifs at hc with hut
  · cases hc
    exact held?_eq_some.mpr ⟨_, hut ▸ ht, hl lock hcl⟩
  · exact held?_eq_some.mpr ⟨c, hc, hcl⟩

theorem Exclusive.addCall {s : State} (hs : Exclusive s) {c : Call} (hc : c.stage.held? = none) :
    Exclusive (s.addCall c) := by
  apply hs.mono
  intro u lock hu
  obtain ⟨d, hd, hdl⟩ := held?_eq_some.mp hu
  rw [addCall_calls] at hd
  split_ifs at hd with hut
  · cases hd
    rw [hc] at hdl
    cases hdl
  · exact held?_eq_some.mpr ⟨d, hd, hdl⟩

theorem Exclusive.awaitLock {s : State} (hs : Exclusive s) (e sp : String) : Exclusive (awaitLock s e sp) := by
  obtain ⟨lock, locks, n, he, -⟩ := awaitLock_eq s e sp
  rw [he]
  exact hs.addCall (c := ⟨e, sp, .acquiring lock⟩) rfl

theorem Exclusive.popAll {s : State} (hs : Exclusive s) (l : List (String × Entry)) : Exclusive (popAll s l) :=
  hs.mono (fun u lock hu => by simpa only [State.held?, (popAll_calls s l).1] using hu)

theorem exclusive_acquire {s : State} (hs : Exclusive s) (hf : s.FreshCalls) {t : ℕ} {e sp : String}
    {lock : LockId} (hg : s.Grants lock t) : Exclusive (s.setCall t ⟨e, sp, .checking lock⟩) := by
  have hfree : ∀ u, s.held? u ≠ some lock := by
    intro u hu
    obtain ⟨c, hc, -⟩ := held?_eq_some.mp hu
    exact hg.1 u (hf.lt hc) hu
  have hheld : ∀ u l, (s.setCall t ⟨e, sp, .checking lock⟩).held? u = some l →
      u = t ∧ l = lock ∨ u ≠ t ∧ s.held? u = some l := by
    intro u l hu
    obtain ⟨c, hc, hcl⟩ := held?_eq_some.mp hu
    rw [setCall_calls] at hc
    split_ifs at hc with hut
    · cases hc
      exact Or.inl ⟨hut, (Option.some.inj hcl).symm⟩
    · exact Or.inr ⟨hut, held?_eq_some.mpr ⟨c, hc, hcl⟩⟩
  intro u v l hu hv
  rcases hheld u l hu with ⟨hut, hl⟩ | ⟨-, hu'⟩ <;> rcases hheld v l hv with ⟨hvt, hl'⟩ | ⟨-, hv'⟩
  · rw [hut, hvt]
  · exact absurd (hl ▸ hv') (hfree v)
  · exact absurd (hl' ▸ hu') (hfree u)
  · exact hs u v l hu' hv'

theorem exclusive_step {cfg : Config} {s s' : State} {a : Action} (hs : Exclusive s) (hf : s.FreshCalls)
    (h : Step cfg s a s') : Exclusive s' := by
  cases h with
  | hit hc hd => exact Exclusive.addCall (s := touch s _ _ _) hs rfl
  | stale hc hd => exact Exclusive.awaitLock (s := forgetStale s _) hs _ _
  | miss hc => exact hs.awaitLock _ _
  | acquire ht hg => exact exclusive_acquire hs hf hg
  | found ht hc hd => exact Exclusive.setCall (s := touch s _ _ _) hs ht (fun lock hl => by cases hl)
  | start ht hc => exact hs.setCall ht (fun lock hl => hl)
  | writes ht => exact hs
  | succeeds ht => exact hs.setCall ht (fun lock hl => hl)
  | fails ht => exact Exclusive.setCall (s := removeFile s _) hs ht (fun lock hl => hl)
  | dropLock ht => exact hs.setCall ht (fun lock hl => by cases hl)
  | storeFull ht hm =>
    rw [evict_eq]
    exact (hs.popAll _).setCall ((popAll_calls s _).1 ▸ ht) (fun lock hl => by cases hl)
  | store ht hm =>
    simp only [evict_eq]
    exact (hs.popAll _).setCall ((popAll_calls s _).1 ▸ ht) (fun lock hl => by cases hl)
  | cleanup => exact hs.popAll _
  | clear => exact hs
  | unlink => exact hs

structure LockDiscipline (s : State) : Prop where
  fresh : s.FreshCalls
  tabled : Tabled s
  exclusive : Exclusive s

theorem lockDiscipline_initial : LockDiscipline initial :=
  ⟨fun _ _ => rfl, fun _ _ _ h => (by cases h), fun _ _ _ h => (by cases h)⟩

theorem lockDiscipline_run {cfg : Config} {actions : List Action} {s : State}
    (hk : Along (next cfg) (KeepsLocks cfg) initial actions) (h : run (next cfg) initial actions = some s) :
    LockDiscipline s :=
  invariant_along LockDiscipline
    (fun _ _ _ hs hk hn =>
      ⟨freshCalls_step hs.fresh (step_of_next hn), tabled_step hs.tabled hs.fresh hk (step_of_next hn),
        exclusive_step hs.exclusive hs.fresh (step_of_next hn)⟩)
    lockDiscipline_initial hk h

def failureRace : List Action :=
  [.getOrDownload "ep-1" "storage/ep1.mcap" 0, .acquire 0, .doubleCheck 0 0,
    .getOrDownload "ep-1" "storage/ep1.mcap" 1, .downloadFails 0, .dropLock 0,
    .acquire 1, .doubleCheck 1 2,
    .getOrDownload "ep-1" "storage/ep1.mcap" 3, .acquire 2, .doubleCheck 2 3]

theorem downloads_overlap :
    ¬ ∀ (cfg : Config) (actions : List Action) (s : State), 1 ≤ cfg.maxSize →
      (∀ a ∈ actions, ∀ path, a ≠ .unlinkOutside path) →
      run (next cfg) initial actions = some s → OneDownload s := by
  intro h
  have hone := h serviceConfig failureRace _ (by decide) (by simp [failureRace]) rfl
  have htu : (1 : ℕ) = 2 := hone 1 2 _ _ 0 1 rfl rfl rfl rfl rfl
  cases htu

theorem oneDownload_of_keepsLocks (cfg : Config) (actions : List Action) (s : State)
    (hk : Along (next cfg) (KeepsLocks cfg) initial actions) (h : run (next cfg) initial actions = some s) :
    OneDownload s :=
  oneDownload_of_tabled (lockDiscipline_run hk h).tabled (lockDiscipline_run hk h).exclusive

def retryAlone : List Action :=
  [.getOrDownload "ep-1" "storage/ep1.mcap" 0, .acquire 0, .doubleCheck 0 0, .downloadFails 0, .dropLock 0,
    .getOrDownload "ep-1" "storage/ep1.mcap" 1, .getOrDownload "ep-1" "storage/ep1.mcap" 1,
    .acquire 1, .doubleCheck 1 1, .downloadSucceeds 1, .store 1 2, .acquire 2, .doubleCheck 2 3,
    .cleanupExpired 400]

theorem oneDownload_retryAlone :
    (run (next serviceConfig) initial retryAlone).isSome ∧
      ∀ s, run (next serviceConfig) initial retryAlone = some s → OneDownload s :=
  ⟨by decide +kernel, fun s => oneDownload_of_keepsLocks serviceConfig retryAlone s (by decide +kernel)⟩

end Embedai.McapCache
