import Embedai.LruList
import Embedai.McapCacheFiles

namespace Embedai.McapCache

open TransitionSystems

structure Request where
  episodeId : String
  storagePath : String
  now : ℚ
  checkedAt : ℚ
  storedAt : ℚ
  fails : Bool
  writesPartial : Bool

def Request.download (r : Request) (t : ℕ) : List Action :=
  if r.fails then (if r.writesPartial then [.downloadWrites t, .downloadFails t] else [.downloadFails t])
  else [.downloadSucceeds t]

def Request.steps (r : Request) (t : ℕ) : Stage → List Action
  | .acquiring _ => [.acquire t]
  | .checking _ => [.doubleCheck t r.checkedAt]
  | .downloading _ => r.download t
  | .downloaded _ => [.store t r.storedAt]
  | .failed _ => [.dropLock t]
  | .returned _ => []
  | .raised => []

/-- The steps of call `t`, at most `fuel` stages of it, with no step of another call in between. -/
def finish (cfg : Config) (r : Request) (t : ℕ) : ℕ → State → Option State
  | 0, s => some s
  | fuel + 1, s =>
    (s.calls t).bind fun c =>
      if c.stage.InFlight then (run (next cfg) s (r.steps t c.stage)).bind (finish cfg r t fuel) else some s

def getOrDownload (cfg : Config) (s : State) (r : Request) : Option State :=
  (next cfg s (.getOrDownload r.episodeId r.storagePath r.now)).bind (finish cfg r s.nextCall 4)

def serve (cfg : Config) (s : State) : List Request → Option State
  | [] => some s
  | r :: rest => (getOrDownload cfg s r).bind (fun t => serve cfg t rest)

def Request.access (r : Request) : String × Bool := (r.episodeId, !r.fails)

structure Refines (cfg : Config) (l : LruList String cfg.maxSize) (s : State) : Prop where
  fresh : s.FreshCalls
  idle : ∀ t c, s.calls t = some c → ¬ c.stage.InFlight
  keys : s.cache.keys = l.keys
  entry : ∀ e entry, s.cache.get? e = some entry → entry.path = cfg.tmpPath e
  disk : ∀ path, path ∈ s.disk ↔ ∃ e ∈ l.keys, path = cfg.tmpPath e
  locks : ∀ e, e ∈ s.episodeLocks.keys ↔ e ∈ l.keys

theorem refines_initial (cfg : Config) : Refines cfg (LruList.empty String cfg.maxSize) initial := by
  refine ⟨fun _ _ => rfl, ?_, rfl, ?_, ?_, ?_⟩
  · intro t c ht
    cases ht
  · intro e entry he
    cases he
  · intro path
    simp [initial, LruList.empty]
  · intro e
    exact Iff.rfl

structure Alone (cfg : Config) (l : LruList String cfg.maxSize) (t : ℕ) (e sp : String) (own : Bool) (stage : Stage)
    (s : State) : Prop where
  fresh : s.FreshCalls
  call : s.calls t = some ⟨e, sp, stage⟩
  others : ∀ u c, s.calls u = some c → u ≠ t → ¬ c.stage.InFlight
  keys : s.cache.keys = l.keys
  entry : ∀ e entry, s.cache.get? e = some entry → entry.path = cfg.tmpPath e
  disk : ∀ path, path ∈ s.disk ↔ (∃ f ∈ l.keys, path = cfg.tmpPath f) ∨ own ∧ path = cfg.tmpPath e
  locks : ∀ f, f ∈ s.episodeLocks.keys ↔ f = e ∨ f ∈ l.keys

variable {cfg : Config} {l : LruList String cfg.maxSize} {t : ℕ} {e sp : String} {own : Bool} {s : State}

theorem Alone.setCall {stage : Stage} (h : Alone cfg l t e sp own stage s) (stage' : Stage) :
    Alone cfg l t e sp own stage' (s.setCall t ⟨e, sp, stage'⟩) := by
  refine ⟨h.fresh.setCall h.call _, ?_, ?_, h.keys, h.entry, h.disk, h.locks⟩
  · rw [setCall_calls, if_pos rfl]
  · intro u c hu hut
    rw [setCall_calls, if_neg hut] at hu
    exact h.others u c hu hut

theorem Alone.idle {stage : Stage} (h : Alone cfg l t e sp own stage s) (hs : ¬ stage.InFlight) (u : ℕ) (c : Call)
    (hu : s.calls u = some c) : ¬ c.stage.InFlight := by
  by_cases hut : u = t
  · rw [hut, h.call] at hu
    cases hu
    exact hs
  · exact h.others u c hu hut

theorem alone_miss (h : Refines cfg l s) (he : e ∉ l.keys) (sp : String) (now : ℚ) :
    ∃ lock, next cfg s (.getOrDownload e sp now) = some (awaitLock s e sp) ∧
      Alone cfg l s.nextCall e sp false (.acquiring lock) (awaitLock s e sp) ∧
      (awaitLock s e sp).downloads = s.downloads := by
  have hmiss : s.cache.get? e = none := OrderedDict.get?_eq_none.mpr (h.keys ▸ he)
  obtain ⟨lock, locks, n, heq, hself, hother, -⟩ := awaitLock_eq s e sp
  refine ⟨lock, ?_, ?_, ?_⟩
  · simp only [next, fastPath, hmiss]
  · refine ⟨h.fresh.awaitLock e sp, ?_, ?_, ?_, ?_, ?_, ?_⟩
    all_goals rw [heq]
    · exact (addCall_calls s s.nextCall _).trans (if_pos rfl)
    · intro u c hu hut
      have hu' : s.calls u = some c := by
        rw [← hu]
        exact ((addCall_calls s u _).trans (if_neg hut)).symm
      exact h.idle u c hu'
    · exact h.keys
    · exact h.entry
    · intro path
      change path ∈ s.disk ↔ _
      simpa using h.disk path
    · intro f
      by_cases hf : f = e
      · subst hf
        exact iff_of_true (OrderedDict.mem_keys.mpr ⟨lock, hself⟩) (Or.inl rfl)
      · have hkeys : f ∈ locks.keys ↔ f ∈ s.episodeLocks.keys := by
          rw [OrderedDict.mem_keys, OrderedDict.mem_keys, hother f hf]
        simp only [hkeys, h.locks f, hf, false_or]
  · rw [heq]
    rfl

theorem Stage.inFlight_of_held {stage : Stage} {lock : LockId} (h : stage.held? = some lock) : stage.InFlight := by
  cases stage <;> simp [held?, lock?, InFlight] at h ⊢

theorem Alone.grants {lock : LockId} (h : Alone cfg l t e sp own (.acquiring lock) s) : s.Grants lock t := by
  have hidle : ∀ u, u ≠ t → s.lock? u = none := by
    intro u hut
    cases hu : s.calls u with
    | none => simp [State.lock?, hu]
    | some c => simpa [State.lock?, hu, Stage.InFlight] using h.others u c hu hut
  constructor
  · intro u _ hu
    by_cases hut : u = t
    · rw [hut, State.held?, h.call] at hu
      cases hu
    · obtain ⟨c, hc, hl⟩ := Option.bind_eq_some_iff.mp hu
      exact h.others u c hc hut (Stage.inFlight_of_held hl)
  · intro u hut hu
    rw [hidle u (by omega)] at hu
    cases hu

theorem Alone.acquire {lock : LockId} (h : Alone cfg l t e sp own (.acquiring lock) s) :
    next cfg s (.acquire t) = some (s.setCall t ⟨e, sp, .checking lock⟩) := by
  simp only [next, McapCache.acquire, h.call, Option.bind_some]
  exact if_pos h.grants

theorem Alone.doubleCheck {lock : LockId} (h : Alone cfg l t e sp own (.checking lock) s) (he : e ∉ l.keys)
    (now : ℚ) : next cfg s (.doubleCheck t now) = some (startDownload s t ⟨e, sp, .checking lock⟩ lock) := by
  have hmiss : s.cache.get? e = none := OrderedDict.get?_eq_none.mpr (h.keys ▸ he)
  simp only [next, McapCache.doubleCheck, h.call, Option.bind_some, hmiss]

theorem Alone.started {lock : LockId} (h : Alone cfg l t e sp own (.checking lock) s) :
    Alone cfg l t e sp own (.downloading lock) (startDownload s t ⟨e, sp, .checking lock⟩ lock) := by
  have hset := h.setCall (.downloading lock)
  exact ⟨hset.fresh, hset.call, hset.others, hset.keys, hset.entry, hset.disk, hset.locks⟩

theorem Alone.written {stage : Stage} (h : Alone cfg l t e sp own stage s) :
    Alone cfg l t e sp true stage { s with disk := insert (cfg.tmpPath e) s.disk } := by
  refine ⟨h.fresh, h.call, h.others, h.keys, h.entry, ?_, h.locks⟩
  intro path
  rw [Finset.mem_insert, h.disk path]
  constructor
  · rintro (hp | hp | ⟨-, hp⟩)
    · exact Or.inr ⟨rfl, hp⟩
    · exact Or.inl hp
    · exact Or.inr ⟨rfl, hp⟩
  · rintro (hp | ⟨-, hp⟩)
    · exact Or.inr (Or.inl hp)
    · exact Or.inl hp

theorem Alone.fails {lock : LockId} (h : Alone cfg l t e sp own (.downloading lock) s) :
    next cfg s (.downloadFails t) =
      some ((removeFile s (cfg.tmpPath e)).setCall t ⟨e, sp, .failed lock⟩) := by
  simp only [next, downloadFails, h.call, Option.bind_some]

theorem Alone.failed {lock : LockId} (h : Alone cfg l t e sp own (.downloading lock) s) (he : e ∉ l.keys)
    (hids : DistinctNames cfg (e :: l.keys)) :
    Alone cfg l t e sp false (.failed lock)
      ((removeFile s (cfg.tmpPath e)).setCall t ⟨e, sp, .failed lock⟩) := by
  have hset := h.setCall (.failed lock)
  refine ⟨hset.fresh, hset.call, hset.others, hset.keys, hset.entry, ?_, hset.locks⟩
  intro path
  change path ∈ s.disk.erase (cfg.tmpPath e) ↔ _
  rw [Finset.mem_erase, h.disk path]
  constructor
  · rintro ⟨hne, hp | ⟨-, hp⟩⟩
    · exact Or.inl hp
    · exact absurd hp hne
  · rintro (⟨f, hf, rfl⟩ | ⟨hfalse, -⟩)
    · refine ⟨?_, Or.inl ⟨f, hf, rfl⟩⟩
      intro hpath
      have hfe := hids f (List.mem_cons_of_mem _ hf) e (List.mem_cons_self ..) (tmpPath_inj.mp hpath)
      exact he (hfe ▸ hf)
    · cases hfalse

theorem Alone.lockDropped {lock : LockId} (h : Alone cfg l t e sp false (.failed lock) s) (he : e ∉ l.keys) :
    ∃ s', next cfg s (.dropLock t) = some s' ∧ Refines cfg l s' ∧ s'.downloads = s.downloads := by
  have hset := h.setCall .raised
  refine ⟨{ s.setCall t ⟨e, sp, .raised⟩ with episodeLocks := s.episodeLocks.erase e }, ?_,
    ⟨hset.fresh, hset.idle (by simp [Stage.InFlight, Stage.lock?]), hset.keys, hset.entry, ?_, ?_⟩, rfl⟩
  · simp only [next, dropLock, h.call, Option.bind_some]
  · intro path
    simpa using hset.disk path
  · intro f
    change f ∈ (s.episodeLocks.erase e).keys ↔ _
    rw [OrderedDict.mem_keys_erase, h.locks f]
    constructor
    · rintro ⟨hne, rfl | hf⟩
      · exact absurd rfl hne
      · exact hf
    · intro hf
      exact ⟨fun hfe => he (hfe ▸ hf), Or.inr hf⟩

theorem evicted_keys (hs : s.cache.keys = l.keys) : (evicted cfg s).map Prod.fst = l.keys.take l.overflow := by
  rw [evicted, List.map_take, ← OrderedDict.keys, hs, LruList.overflow, ← hs]
  simp only [OrderedDict.keys, List.length_map, OrderedDict.length]

theorem evict_keys (hs : s.cache.keys = l.keys) : (evict cfg s).cache.keys = l.keys.drop l.overflow := by
  rw [evict_eq, OrderedDict.keys, evicted, popAll_take, List.map_drop, ← OrderedDict.keys, hs, LruList.overflow, ← hs]
  simp only [OrderedDict.keys, List.length_map, OrderedDict.length]

theorem Alone.disk_evict {stage : Stage} (h : Alone cfg l t e sp true stage s) (he : e ∉ l.keys)
    (hids : DistinctNames cfg (e :: l.keys)) (path : String) :
    path ∈ (evict cfg s).disk ↔ ∃ f ∈ l.keys.drop l.overflow ++ [e], path = cfg.tmpPath f := by
  have hgone : (∀ p ∈ evicted cfg s, p.2.path ≠ path) ↔ ∀ f ∈ l.keys.take l.overflow, cfg.tmpPath f ≠ path := by
    rw [← evicted_keys h.keys]
    constructor
    · intro hp f hf
      obtain ⟨p, hmem, rfl⟩ := List.mem_map.mp hf
      rw [← h.entry p.1 p.2 (mem_evicted hmem)]
      exact hp p hmem
    · intro hf p hp
      rw [h.entry p.1 p.2 (mem_evicted hp)]
      exact hf p.1 (List.mem_map_of_mem hp)
  rw [evict_eq, popAll_disk, hgone, h.disk]
  have hkept : ∀ f, f ∈ l.keys ∨ f = e → f ∉ l.keys.take l.overflow →
      ∀ g ∈ l.keys.take l.overflow, cfg.tmpPath g ≠ cfg.tmpPath f := by
    intro f hf hn g hg hpath
    have hmem : f ∈ e :: l.keys := by
      rcases hf with hf | rfl
      · exact List.mem_cons_of_mem _ hf
      · exact List.mem_cons_self ..
    have hgf := hids g (List.mem_cons_of_mem _ (List.mem_of_mem_take hg)) f hmem (tmpPath_inj.mp hpath)
    exact hn (hgf ▸ hg)
  constructor
  · rintro ⟨⟨f, hf, rfl⟩ | ⟨-, rfl⟩, hp⟩
    · exact ⟨f, List.mem_append_left _ (LruList.mem_drop_keys.mpr ⟨hf, fun hn => hp f hn rfl⟩), rfl⟩
    · exact ⟨e, List.mem_append_right _ (List.mem_singleton_self e), rfl⟩
  · rintro ⟨f, hf, rfl⟩
    rcases List.mem_append.mp hf with hf | hf
    · obtain ⟨hmem, hn⟩ := LruList.mem_drop_keys.mp hf
      exact ⟨Or.inl ⟨f, hmem, rfl⟩, hkept f (Or.inl hmem) hn⟩
    · rw [List.mem_singleton] at hf
      subst hf
      exact ⟨Or.inr ⟨rfl, rfl⟩, hkept f (Or.inr rfl) (fun hn => he (List.mem_of_mem_take hn))⟩

theorem Alone.stored {lock : LockId} (h : Alone cfg l t e sp true (.downloaded lock) s) (he : e ∉ l.keys)
    (hids : DistinctNames cfg (e :: l.keys)) (hm : 1 ≤ cfg.maxSize) (now : ℚ) :
    ∃ s', next cfg s (.store t now) = some s' ∧ Refines cfg (l.insertLast e he) s' ∧ s'.downloads = s.downloads := by
  obtain ⟨hcalls, hnext, -, hdownloads⟩ := popAll_calls s (McapCache.evicted cfg s)
  rw [← evict_eq] at hcalls hnext hdownloads
  have hcall : (evict cfg s).calls t = some ⟨e, sp, .downloaded lock⟩ := by rw [hcalls, h.call]
  have hfresh : (evict cfg s).FreshCalls := by
    intro u hu
    rw [hcalls]
    exact h.fresh u (hnext ▸ hu)
  have hroom : ¬ cfg.maxSize ≤ (evict cfg s).cache.length := Nat.not_le_of_lt (evict_length hm s)
  have hnew : e ∉ (evict cfg s).cache.keys := by
    rw [evict_keys h.keys]
    exact fun hmem => he (List.mem_of_mem_drop hmem)
  refine ⟨{ (evict cfg s).setCall t ⟨e, sp, .returned (cfg.tmpPath e)⟩ with
    cache := (evict cfg s).cache.set e ⟨cfg.tmpPath e, now⟩ }, ?_, ⟨hfresh.setCall hcall _, ?_, ?_, ?_, ?_, ?_⟩,
    hdownloads⟩
  · simp only [next, store, h.call, Option.bind_some]
    exact if_neg hroom
  · intro u c hu
    change ((evict cfg s).setCall t _).calls u = some c at hu
    rw [setCall_calls] at hu
    split_ifs at hu with hut
    · cases hu
      simp [Stage.InFlight, Stage.lock?]
    · rw [hcalls] at hu
      exact h.others u c hu hut
  · change ((evict cfg s).cache.set e _).keys = _
    rw [OrderedDict.keys_set, if_neg hnew, evict_keys h.keys, LruList.keys_insertLast l he hm]
  · intro f entry hf
    change ((evict cfg s).cache.set e _).get? f = some entry at hf
    rw [OrderedDict.get?_set] at hf
    split_ifs at hf with hfe
    · cases hf
      rw [hfe]
    · rw [evict_eq, popAll_cache] at hf
      split_ifs at hf
      exact h.entry f entry hf
  · intro path
    rw [LruList.keys_insertLast l he hm]
    exact h.disk_evict he hids path
  · intro f
    change f ∈ (evict cfg s).episodeLocks.keys ↔ _
    rw [evict_eq, popAll_lockKeys, h.locks, evicted_keys h.keys, LruList.keys_insertLast l he hm, List.mem_append,
      LruList.mem_drop_keys, List.mem_singleton]
    constructor
    · rintro ⟨hn, rfl | hf⟩
      · exact Or.inr rfl
      · exact Or.inl ⟨hf, hn⟩
    · rintro (⟨hf, hn⟩ | rfl)
      · exact ⟨hn, Or.inr hf⟩
      · exact ⟨fun hn => he (List.mem_of_mem_take hn), Or.inl rfl⟩

theorem finish_step {r : Request} {fuel : ℕ} {c : Call} {s' : State} (hc : s.calls t = some c)
    (hfl : c.stage.InFlight) (h : run (next cfg) s (r.steps t c.stage) = some s') :
    finish cfg r t (fuel + 1) s = finish cfg r t fuel s' := by
  simp only [finish, hc, Option.bind_some, if_pos hfl, h]

theorem finish_done {r : Request} {fuel : ℕ} {c : Call} (hc : s.calls t = some c) (hfl : ¬ c.stage.InFlight) :
    finish cfg r t fuel s = some s := by
  cases fuel with
  | zero => rfl
  | succ fuel => simp only [finish, hc, Option.bind_some, if_neg hfl]

theorem getOrDownload_hit (h : Refines cfg l s) {r : Request} (he : r.episodeId ∈ l.keys) :
    ∃ s', getOrDownload cfg s r = some s' ∧ Refines cfg (l.use r.episodeId he) s' ∧ s'.downloads = s.downloads := by
  obtain ⟨entry, hc⟩ := OrderedDict.mem_keys.mp (h.keys ▸ he)
  have hpath := h.entry r.episodeId entry hc
  have hd : entry.path ∈ s.disk := (h.disk entry.path).mpr ⟨r.episodeId, he, hpath⟩
  have htouch : (touch s r.episodeId entry.path r.now).cache.keys = (l.use r.episodeId he).keys := by
    have hmoved := OrderedDict.keys_moveToEnd (h.keys ▸ he : r.episodeId ∈ s.cache.keys)
    rw [touch, OrderedDict.keys_set, if_pos, hmoved, h.keys]
    · rfl
    · rw [hmoved]
      exact List.mem_append_right _ (List.mem_singleton_self _)
  refine ⟨(touch s r.episodeId entry.path r.now).addCall ⟨r.episodeId, r.storagePath, .returned entry.path⟩, ?_,
    ⟨State.FreshCalls.addCall (s := touch s _ _ _) h.fresh _, ?_, htouch, ?_, ?_, ?_⟩, rfl⟩
  · simp only [getOrDownload, next, fastPath, hc, hd, if_true, Option.bind_some]
    apply finish_done
    · rw [addCall_calls]
      exact if_pos rfl
    · simp [Stage.InFlight, Stage.lock?]
  · intro u c hu
    rw [addCall_calls] at hu
    split_ifs at hu with hut
    · cases hu
      simp [Stage.InFlight, Stage.lock?]
    · exact h.idle u c hu
  · intro f entry' hf
    change (touch s r.episodeId entry.path r.now).cache.get? f = some entry' at hf
    rw [touch_cache] at hf
    split_ifs at hf with hfe
    · cases hf
      rw [hfe, hpath]
    · exact h.entry f entry' hf
  · intro path
    change path ∈ s.disk ↔ _
    simp only [h.disk path, LruList.mem_use]
  · intro f
    change f ∈ s.episodeLocks.keys ↔ _
    rw [h.locks f, LruList.mem_use]

theorem Alone.downloadFails {lock : LockId} (h : Alone cfg l t e sp own (.downloading lock) s) (he : e ∉ l.keys)
    (hids : DistinctNames cfg (e :: l.keys)) {r : Request} (hr : r.fails = true) :
    ∃ s', run (next cfg) s (r.download t) = some s' ∧ Alone cfg l t e sp false (.failed lock) s' ∧
      s'.downloads = s.downloads := by
  rw [Request.download, if_pos hr]
  split_ifs
  · have hw := h.written
    have hwrites : next cfg s (.downloadWrites t) = some { s with disk := insert (cfg.tmpPath e) s.disk } := by
      simp only [next, downloadWrites, h.call, Option.bind_some]
    exact ⟨_, run_cons.mpr ⟨_, hwrites, run_singleton hw.fails⟩, hw.failed he hids, rfl⟩
  · exact ⟨_, run_singleton h.fails, h.failed he hids, rfl⟩

theorem Alone.downloadSucceeds {lock : LockId} (h : Alone cfg l t e sp own (.downloading lock) s) {r : Request}
    (hr : r.fails = false) :
    ∃ s', run (next cfg) s (r.download t) = some s' ∧ Alone cfg l t e sp true (.downloaded lock) s' ∧
      s'.downloads = s.downloads := by
  rw [Request.download, hr, if_neg Bool.false_ne_true]
  refine ⟨_, run_singleton ?_, (h.setCall (.downloaded lock)).written, rfl⟩
  simp only [next, McapCache.downloadSucceeds, h.call, Option.bind_some]
  rfl

theorem getOrDownload_miss (h : Refines cfg l s) (hm : 1 ≤ cfg.maxSize) {r : Request} (he : r.episodeId ∉ l.keys)
    (hids : DistinctNames cfg (r.episodeId :: l.keys)) :
    ∃ s', getOrDownload cfg s r = some s' ∧ Refines cfg (l.access r.episodeId (!r.fails)) s' ∧
      s'.downloads = s.downloads ++ [r.episodeId] := by
  have hfl : ∀ {stage : Stage}, stage.lock? ≠ none → stage.InFlight := id
  obtain ⟨lock, hnext, hwait, hdownloads⟩ := alone_miss h he r.storagePath r.now
  have hcheck := hwait.setCall (.checking lock)
  have hstart := hcheck.started
  rw [getOrDownload, hnext, Option.bind_some,
    finish_step hwait.call (hfl (by simp [Stage.lock?])) (run_singleton hwait.acquire),
    finish_step hcheck.call (hfl (by simp [Stage.lock?])) (run_singleton (hcheck.doubleCheck he r.checkedAt))]
  have hcount : (startDownload ((awaitLock s r.episodeId r.storagePath).setCall s.nextCall
      ⟨r.episodeId, r.storagePath, .checking lock⟩) s.nextCall ⟨r.episodeId, r.storagePath, .checking lock⟩
      lock).downloads = s.downloads ++ [r.episodeId] := by
    rw [← hdownloads]
    rfl
  cases hr : r.fails with
  | true =>
    obtain ⟨s₁, hrun, hfailed, hd₁⟩ := hstart.downloadFails he hids hr
    obtain ⟨s₂, hdrop, hrefines, hd₂⟩ := hfailed.lockDropped he
    refine ⟨s₂, ?_, ?_, hd₂.trans (hd₁.trans hcount)⟩
    · rw [finish_step hstart.call (hfl (by simp [Stage.lock?])) hrun,
        finish_step hfailed.call (hfl (by simp [Stage.lock?])) (run_singleton hdrop)]
      rfl
    · rw [Bool.not_true, LruList.access_of_fails he]
      exact hrefines
  | false =>
    obtain ⟨s₁, hrun, hdone, hd₁⟩ := hstart.downloadSucceeds hr
    obtain ⟨s₂, hstore, hrefines, hd₂⟩ := hdone.stored he hids hm r.storedAt
    refine ⟨s₂, ?_, ?_, hd₂.trans (hd₁.trans hcount)⟩
    · rw [finish_step hstart.call (hfl (by simp [Stage.lock?])) hrun,
        finish_step hdone.call (hfl (by simp [Stage.lock?])) (run_singleton hstore)]
      rfl
    · rw [Bool.not_false, LruList.access_of_loads he]
      exact hrefines

theorem serve_refines {ids : List String} (hids : DistinctNames cfg ids) (hm : 1 ≤ cfg.maxSize)
    (requests : List Request) (hreq : ∀ r ∈ requests, r.episodeId ∈ ids) :
    ∀ {l : LruList String cfg.maxSize} {s : State}, (∀ e ∈ l.keys, e ∈ ids) → Refines cfg l s →
      ∃ s', serve cfg s requests = some s' ∧ Refines cfg (l.serve (requests.map Request.access)) s' ∧
        s'.downloads = s.downloads ++ l.misses (requests.map Request.access) := by
  induction requests with
  | nil =>
    intro l s _ h
    exact ⟨s, rfl, h, (List.append_nil _).symm⟩
  | cons r rest ih =>
    intro l s hl h
    have hid := hreq r (List.mem_cons_self ..)
    have hrest := fun q hq => hreq q (List.mem_cons_of_mem r hq)
    have hnext : ∀ e ∈ (l.access r.episodeId (!r.fails)).keys, e ∈ ids := by
      intro e he
      rcases LruList.mem_access he with he | rfl
      · exact hl e he
      · exact hid
    simp only [serve, List.map_cons, LruList.serve, LruList.misses, Request.access]
    by_cases he : r.episodeId ∈ l.keys
    · obtain ⟨s₁, hcall, h₁, hd₁⟩ := getOrDownload_hit h he
      rw [← LruList.access_of_mem he (!r.fails)] at h₁
      obtain ⟨s₂, hserve, h₂, hd₂⟩ := ih hrest hnext h₁
      refine ⟨s₂, by rw [hcall, Option.bind_some, hserve], h₂, ?_⟩
      rw [if_pos he, hd₂, hd₁]
    · have hnames : DistinctNames cfg (r.episodeId :: l.keys) := by
        apply hids.mono
        intro e hmem
        rcases List.mem_cons.mp hmem with rfl | hmem
        · exact hid
        · exact hl e hmem
      obtain ⟨s₁, hcall, h₁, hd₁⟩ := getOrDownload_miss h hm he hnames
      obtain ⟨s₂, hserve, h₂, hd₂⟩ := ih hrest hnext h₁
      refine ⟨s₂, by rw [hcall, Option.bind_some, hserve], h₂, ?_⟩
      rw [if_neg he, hd₂, hd₁, List.append_assoc]
      rfl

theorem cache_refines_lru (cfg : Config) (requests : List Request) (hm : 1 ≤ cfg.maxSize)
    (hids : DistinctNames cfg (requests.map Request.episodeId)) :
    ∃ s, serve cfg initial requests = some s ∧ (∀ t c, s.calls t = some c → ¬ c.stage.InFlight) ∧
      s.cache.keys = ((LruList.empty String cfg.maxSize).serve (requests.map Request.access)).keys ∧
      (∀ path, path ∈ s.disk ↔ path ∈ s.cache.values.map Entry.path) ∧
      (∀ e, e ∈ s.episodeLocks.keys ↔ e ∈ s.cache.keys) ∧
      s.downloads = (LruList.empty String cfg.maxSize).misses (requests.map Request.access) := by
  have hreq : ∀ r ∈ requests, r.episodeId ∈ requests.map Request.episodeId :=
    fun r hr => List.mem_map_of_mem hr
  obtain ⟨s, hserve, h, hd⟩ := serve_refines hids hm requests hreq
    (fun e he => by cases he) (refines_initial cfg)
  refine ⟨s, hserve, h.idle, h.keys, ?_, ?_, hd⟩
  · intro path
    rw [h.disk path]
    constructor
    · rintro ⟨e, he, rfl⟩
      obtain ⟨entry, hc⟩ := OrderedDict.mem_keys.mp (h.keys ▸ he)
      exact List.mem_map.mpr ⟨entry, OrderedDict.mem_values.mpr ⟨e, hc⟩, h.entry e entry hc⟩
    · intro hp
      obtain ⟨entry, hentry, rfl⟩ := List.mem_map.mp hp
      obtain ⟨e, hc⟩ := OrderedDict.mem_values.mp hentry
      exact ⟨e, h.keys ▸ OrderedDict.mem_keys.mpr ⟨entry, hc⟩, h.entry e entry hc⟩
  · intro e
    rw [h.locks e, h.keys]

def oneSlot : Config := { serviceConfig with maxSize := 1 }

def reloadEvicted : List Request :=
  [⟨"ep-1", "storage/ep1.mcap", 0, 0, 1, false, false⟩, ⟨"ep-2", "storage/ep2.mcap", 2, 2, 3, true, true⟩,
    ⟨"ep-1", "storage/ep1.mcap", 4, 4, 5, false, false⟩, ⟨"ep-2", "storage/ep2.mcap", 6, 6, 7, false, false⟩,
    ⟨"ep-1", "storage/ep1.mcap", 8, 8, 9, false, false⟩]

theorem cache_refines_lru_reloadEvicted :
    ∃ s, serve oneSlot initial reloadEvicted = some s ∧ (∀ t c, s.calls t = some c → ¬ c.stage.InFlight) ∧
      s.cache.keys = ["ep-1"] ∧ (∀ path, path ∈ s.disk ↔ path ∈ s.cache.values.map Entry.path) ∧
      (∀ e, e ∈ s.episodeLocks.keys ↔ e ∈ s.cache.keys) ∧ s.downloads = ["ep-1", "ep-2", "ep-2", "ep-1"] :=
  cache_refines_lru oneSlot reloadEvicted (by decide) (by decide +kernel)

end Embedai.McapCache
