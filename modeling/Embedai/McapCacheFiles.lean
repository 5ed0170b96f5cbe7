import Embedai.McapCacheSteps

namespace Embedai.McapCache

open FilePaths (joinPath_injective)
open TransitionSystems

def Action.requests? : Action → Option String
  | .getOrDownload episodeId _ _ => some episodeId
  | _ => none

def requested (actions : List Action) : List String := actions.filterMap Action.requests?

/-- The ids have different hashes, as far as the file names keep them. -/
def DistinctNames (cfg : Config) (ids : List String) : Prop :=
  ∀ e ∈ ids, ∀ f ∈ ids, cfg.safeId e = cfg.safeId f → e = f

instance (cfg : Config) (ids : List String) : Decidable (DistinctNames cfg ids) :=
  inferInstanceAs (Decidable (∀ e ∈ ids, ∀ f ∈ ids, cfg.safeId e = cfg.safeId f → e = f))

theorem DistinctNames.mono {cfg : Config} {ids ids' : List String} (h : DistinctNames cfg ids)
    (hsub : ∀ e ∈ ids', e ∈ ids) : DistinctNames cfg ids' :=
  fun e he f hf => h e (hsub e he) f (hsub f hf)

theorem requested_subset {actions : List Action} {a : Action} (ha : a ∈ actions) :
    ∀ e ∈ requested [a], e ∈ requested actions := by
  intro e he
  obtain ⟨b, hb, hbe⟩ := List.mem_filterMap.mp he
  exact List.mem_filterMap.mpr ⟨b, List.mem_singleton.mp hb ▸ ha, hbe⟩

def unlinked (cfg : Config) (s : State) : Action → List String
  | .downloadFails t => ((s.calls t).map Call.episodeId).toList
  | .store _ _ => (evicted cfg s).map Prod.fst
  | .cleanupExpired now => (expired cfg s now).map Prod.fst
  | .clear => s.cache.keys
  | _ => []

structure Named (cfg : Config) (ids : List String) (s : State) : Prop where
  entry : ∀ e entry, s.cache.get? e = some entry → e ∈ ids ∧ entry.path = cfg.tmpPath e
  call : ∀ t c, s.calls t = some c →
    c.episodeId ∈ ids ∧ ∀ path, c.stage = .returned path → path = cfg.tmpPath c.episodeId

theorem tmpPath_inj {cfg : Config} {e f : String} : cfg.tmpPath e = cfg.tmpPath f ↔ cfg.safeId e = cfg.safeId f := by
  constructor
  · intro h
    have hname := joinPath_injective cfg.cacheDir h
    exact String.append_right_inj _ |>.mp (String.append_left_inj _ |>.mp hname)
  · intro h
    simp only [Config.tmpPath, h]

theorem Named.setCall {cfg : Config} {ids : List String} {s : State} {t : ℕ} {e sp : String} {stage stage' : Stage}
    (hs : Named cfg ids s) (ht : s.calls t = some ⟨e, sp, stage⟩)
    (hp : ∀ path, stage' = .returned path → path = cfg.tmpPath e) : Named cfg ids (s.setCall t ⟨e, sp, stage'⟩) := by
  refine ⟨hs.entry, ?_⟩
  intro u c hu
  rw [setCall_calls] at hu
  split_ifs at hu with hut
  · cases hu
    exact ⟨(hs.call t _ ht).1, hp⟩
  · exact hs.call u c hu

theorem Named.addCall {cfg : Config} {ids : List String} {s : State} {c : Call} (hs : Named cfg ids s)
    (he : c.episodeId ∈ ids) (hp : ∀ path, c.stage = .returned path → path = cfg.tmpPath c.episodeId) :
    Named cfg ids (s.addCall c) := by
  refine ⟨hs.entry, ?_⟩
  intro u d hu
  rw [addCall_calls] at hu
  split_ifs at hu with hut
  · cases hu
    exact ⟨he, hp⟩
  · exact hs.call u d hu

theorem Named.awaitLock {cfg : Config} {ids : List String} {s : State} {e : String} (hs : Named cfg ids s)
    (he : e ∈ ids) (sp : String) : Named cfg ids (awaitLock s e sp) := by
  obtain ⟨lock, locks, n, heq, -⟩ := awaitLock_eq s e sp
  rw [heq]
  have hadd := hs.addCall (c := ⟨e, sp, .acquiring lock⟩) he (fun path hp => by cases hp)
  exact ⟨hadd.entry, hadd.call⟩

theorem Named.touch {cfg : Config} {ids : List String} {s : State} {e : String} {entry : Entry}
    (hs : Named cfg ids s) (hc : s.cache.get? e = some entry) (now : ℚ) :
    Named cfg ids (touch s e entry.path now) := by
  refine ⟨?_, hs.call⟩
  intro f entry' hf
  rw [touch_cache] at hf
  split_ifs at hf with hfe
  · cases hf
    subst hfe
    exact hs.entry f entry hc
  · exact hs.entry f entry' hf

theorem Named.popAll {cfg : Config} {ids : List String} {s : State} (hs : Named cfg ids s)
    (l : List (String × Entry)) : Named cfg ids (popAll s l) := by
  refine ⟨?_, ?_⟩
  · intro e entry he
    rw [popAll_cache] at he
    split_ifs at he
    exact hs.entry e entry he
  · intro t c ht
    rw [(popAll_calls s l).1] at ht
    exact hs.call t c ht

theorem named_step {cfg : Config} {ids : List String} {s s' : State} {a : Action} (hs : Named cfg ids s)
    (ha : ∀ e ∈ requested [a], e ∈ ids) (h : Step cfg s a s') : Named cfg ids s' := by
  have hreq : ∀ {e sp now}, a = .getOrDownload e sp now → e ∈ ids :=
    fun h => ha _ (by rw [h]; exact List.mem_singleton_self _)
  cases h with
  | hit hc hd =>
    apply Named.addCall (hs.touch hc _) (hreq rfl)
    rintro path ⟨⟩
    exact (hs.entry _ _ hc).2
  | stale hc hd =>
    refine Named.awaitLock (s := forgetStale s _) ⟨?_, hs.call⟩ (hreq rfl) _
    intro f entry hf
    simp only [forgetStale, OrderedDict.get?_erase] at hf
    split_ifs at hf
    exact hs.entry f entry hf
  | miss hc => exact hs.awaitLock (hreq rfl) _
  | acquire ht hg => exact hs.setCall ht (fun path hp => by cases hp)
  | found ht hc hd =>
    apply (hs.touch hc _).setCall ht
    rintro path ⟨⟩
    exact (hs.entry _ _ hc).2
  | @start t e sp lock now ht hc =>
    have hset : Named cfg ids (s.setCall t ⟨e, sp, .downloading lock⟩) := hs.setCall ht (fun path hp => by cases hp)
    exact ⟨hset.entry, hset.call⟩
  | writes ht => exact ⟨hs.entry, hs.call⟩
  | @succeeds t e sp lock ht =>
    have hset : Named cfg ids (s.setCall t ⟨e, sp, .downloaded lock⟩) := hs.setCall ht (fun path hp => by cases hp)
    exact ⟨hset.entry, hset.call⟩
  | @fails t e sp lock ht =>
    have hset : Named cfg ids (s.setCall t ⟨e, sp, .failed lock⟩) := hs.setCall ht (fun path hp => by cases hp)
    exact ⟨hset.entry, hset.call⟩
  | @dropLock t e sp lock ht =>
    have hset : Named cfg ids (s.setCall t ⟨e, sp, .raised⟩) := hs.setCall ht (fun path hp => by cases hp)
    exact ⟨hset.entry, hset.call⟩
  | storeFull ht hm =>
    rw [evict_eq]
    exact (hs.popAll _).setCall ((popAll_calls s _).1 ▸ ht) (fun path hp => by cases hp)
  | @store t e sp lock now ht hm =>
    simp only [evict_eq]
    have hset : Named cfg ids ((popAll s (evicted cfg s)).setCall t ⟨e, sp, .returned (cfg.tmpPath e)⟩) :=
      (hs.popAll (evicted cfg s)).setCall ((popAll_calls s _).1 ▸ ht)
        (fun path hp => (Stage.returned.inj hp).symm)
    refine ⟨?_, hset.call⟩
    intro f entry hf
    rw [OrderedDict.get?_set] at hf
    split_ifs at hf with hfe
    · cases hf
      exact ⟨hfe ▸ (hs.call t _ ht).1, by rw [hfe]⟩
    · exact hset.entry f entry hf
  | cleanup => exact hs.popAll _
  | clear => exact ⟨fun e entry he => (by cases he), hs.call⟩
  | unlink => exact ⟨hs.entry, hs.call⟩

theorem foldl_erase (entries : List Entry) (disk : Finset String) (path : String) :
    path ∈ entries.foldl (fun disk entry => disk.erase entry.path) disk ↔
      path ∈ disk ∧ ∀ entry ∈ entries, entry.path ≠ path := by
  induction entries generalizing disk with
  | nil => simp
  | cons entry entries ih =>
    rw [List.foldl_cons, ih, Finset.mem_erase, List.forall_mem_cons]
    constructor
    · rintro ⟨⟨hne, hd⟩, hall⟩
      exact ⟨hd, hne.symm, hall⟩
    · rintro ⟨hd, hne, hall⟩
      exact ⟨⟨hne.symm, hd⟩, hall⟩

theorem popAll_keeps {cfg : Config} {ids : List String} {s : State} (hs : Named cfg ids s)
    (hids : DistinctNames cfg ids) {l : List (String × Entry)}
    (hl : ∀ p ∈ l, s.cache.get? p.1 = some p.2) {e : String} (he : e ∈ ids) (hd : cfg.tmpPath e ∈ s.disk)
    (hn : e ∉ l.map Prod.fst) : cfg.tmpPath e ∈ (popAll s l).disk := by
  rw [popAll_disk]
  refine ⟨hd, ?_⟩
  intro p hp hpath
  obtain ⟨hpid, hpname⟩ := hs.entry p.1 p.2 (hl p hp)
  have hpe : p.1 = e := hids _ hpid _ he (tmpPath_inj.mp (hpname.symm.trans hpath))
  exact hn (hpe ▸ List.mem_map_of_mem hp)

theorem disk_step {cfg : Config} {ids : List String} {s s' : State} {a : Action} (hs : Named cfg ids s)
    (hids : DistinctNames cfg ids) (ha : ∀ path, a ≠ .unlinkOutside path) (h : Step cfg s a s')
    {e : String} (he : e ∈ ids) (hd : cfg.tmpPath e ∈ s.disk) (hn : e ∉ unlinked cfg s a) :
    cfg.tmpPath e ∈ s'.disk := by
  cases h with
  | hit hc hd' => exact hd
  | stale hc hd' =>
    obtain ⟨lock, locks, n, heq, -⟩ := awaitLock_eq (forgetStale s _) _ _
    rw [heq]
    exact hd
  | miss hc =>
    obtain ⟨lock, locks, n, heq, -⟩ := awaitLock_eq s _ _
    rw [heq]
    exact hd
  | acquire ht hg => exact hd
  | found ht hc hd' => exact hd
  | start ht hc => exact hd
  | writes ht => exact Finset.mem_insert_of_mem hd
  | succeeds ht => exact Finset.mem_insert_of_mem hd
  | @fails t f sp lock ht =>
    refine Finset.mem_erase.mpr ⟨?_, hd⟩
    intro hpath
    have hef : e = f := hids _ he _ (hs.call t _ ht).1 (tmpPath_inj.mp hpath)
    exact hn (by rw [unlinked, ht, hef]; exact List.mem_singleton_self f)
  | dropLock ht => exact hd
  | storeFull ht hm =>
    rw [evict_eq]
    exact popAll_keeps hs hids (fun p hp => mem_evicted hp) he hd hn
  | store ht hm =>
    simp only [evict_eq]
    exact popAll_keeps hs hids (fun p hp => mem_evicted hp) he hd hn
  | cleanup => exact popAll_keeps hs hids (fun p hp => mem_expired hp) he hd hn
  | clear =>
    refine (foldl_erase _ _ _).mpr ⟨hd, ?_⟩
    intro entry hentry hpath
    obtain ⟨f, hf⟩ := OrderedDict.mem_values.mp hentry
    obtain ⟨hfid, hfname⟩ := hs.entry f entry hf
    have hfe : f = e := hids _ hfid _ he (tmpPath_inj.mp (hfname.symm.trans hpath))
    exact hn (hfe ▸ OrderedDict.mem_keys.mpr ⟨entry, hf⟩)
  | unlink => exact absurd rfl (ha _)

end Embedai.McapCache
