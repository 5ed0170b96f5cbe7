import Mathlib.Data.Finset.Card
import Embedai.McapCacheCoherence
import Embedai.McapCacheLocks

namespace Embedai.McapCache

open TransitionSystems

def Action.Undisturbed : Action → Prop
  | .downloadFails _ | .cleanupExpired _ | .clear | .unlinkOutside _ => False
  | .getOrDownload _ _ _ | .acquire _ | .doubleCheck _ _ | .downloadWrites _ | .downloadSucceeds _ | .dropLock _
  | .store _ _ => True

def Stage.fetching? : Stage → Option LockId
  | .downloading lock => some lock
  | .downloaded lock => some lock
  | _ => none

def Settled (s : State) (c : Call) : Prop :=
  match c.stage with
  | .acquiring _ | .checking _ => True
  | .downloading lock | .downloaded lock =>
    c.episodeId ∉ s.cache.keys ∧ s.downloads.count c.episodeId = 1 ∧ s.episodeLocks.get? c.episodeId = some lock
  | .failed _ | .raised => False
  | .returned _ => c.episodeId ∈ s.cache.keys

def Fetching (s : State) (e : String) : Prop :=
  ∃ t c lock, s.calls t = some c ∧ c.episodeId = e ∧ c.stage.fetching? = some lock

structure Accounted (s : State) : Prop where
  cached : ∀ e entry, s.cache.get? e = some entry → entry.path ∈ s.disk ∧ s.downloads.count e = 1
  settled : ∀ t c, s.calls t = some c → Settled s c
  started : ∀ e, 0 < s.downloads.count e → e ∈ s.cache.keys ∨ Fetching s e

structure Once (cfg : Config) (ids : List String) (s : State) : Prop extends Accounted s where
  locks : LockDiscipline s
  named : Named cfg ids s
  written : ∀ t c, s.calls t = some c → c.stage.isDownloaded → cfg.tmpPath c.episodeId ∈ s.disk

variable {cfg : Config} {ids : List String} {s s' : State}

theorem once_initial (cfg : Config) (ids : List String) : Once cfg ids initial := by
  refine ⟨⟨?_, ?_, ?_⟩, lockDiscipline_initial, ⟨?_, ?_⟩, ?_⟩
  · intro e entry he
    cases he
  · intro t c ht
    cases ht
  · intro e he
    cases he
  · intro e entry he
    cases he
  · intro t c ht
    cases ht
  · intro t c ht
    cases ht

theorem Settled.congr {c : Call} (h : Settled s c)
    (hcache : c.episodeId ∈ s'.cache.keys ↔ c.episodeId ∈ s.cache.keys)
    (hcount : s'.downloads.count c.episodeId = s.downloads.count c.episodeId)
    (hlock : ∀ lock, s.episodeLocks.get? c.episodeId = some lock → s'.episodeLocks.get? c.episodeId = some lock) :
    Settled s' c := by
  obtain ⟨e, sp, stage⟩ := c
  cases stage with
  | acquiring lock => trivial
  | checking lock => trivial
  | downloading lock => exact ⟨fun he => h.1 (hcache.mp he), hcount.trans h.2.1, hlock lock h.2.2⟩
  | downloaded lock => exact ⟨fun he => h.1 (hcache.mp he), hcount.trans h.2.1, hlock lock h.2.2⟩
  | failed lock => exact h
  | returned path => exact hcache.mpr h
  | raised => exact h

theorem Once.tabled (hs : Once cfg ids s) {t : ℕ} {c : Call} {lock : LockId} (ht : s.calls t = some c)
    (hl : c.stage.held? = some lock) : s.episodeLocks.get? c.episodeId = some lock := by
  have hset := hs.settled t c ht
  obtain ⟨e, sp, stage⟩ := c
  cases stage with
  | acquiring l => cases hl
  | checking l => exact hs.locks.tabled t _ lock ht hl
  | downloading l => exact hs.locks.tabled t _ lock ht hl
  | downloaded l =>
    cases hl
    exact hset.2.2
  | failed l => exact absurd hset id
  | returned path => cases hl
  | raised => cases hl

theorem Once.holder_unique (hs : Once cfg ids s) {t u : ℕ} {c d : Call} {lock lock' : LockId}
    (ht : s.calls t = some c) (hu : s.calls u = some d) (hid : c.episodeId = d.episodeId)
    (hc : c.stage.held? = some lock) (hd : d.stage.held? = some lock') : t = u := by
  have htab := hs.tabled ht hc
  rw [hid, hs.tabled hu hd, Option.some.injEq] at htab
  subst htab
  exact hs.locks.exclusive t u lock' (held?_eq_some.mpr ⟨c, ht, hc⟩) (held?_eq_some.mpr ⟨d, hu, hd⟩)

theorem held_of_fetching {stage : Stage} {lock : LockId} (h : stage.fetching? = some lock) :
    stage.held? = some lock := by
  cases stage <;> first | exact h | cases h

theorem Once.count_le (hs : Once cfg ids s) (e : String) : s.downloads.count e ≤ 1 := by
  rcases Nat.eq_zero_or_pos (s.downloads.count e) with hzero | hpos
  · omega
  · rcases hs.started e hpos with he | ⟨t, c, lock, ht, rfl, hf⟩
    · obtain ⟨entry, hc⟩ := OrderedDict.mem_keys.mp he
      exact Nat.le_of_eq (hs.cached e entry hc).2
    · have hset := hs.settled t c ht
      obtain ⟨e, sp, stage⟩ := c
      cases stage <;> first | exact Nat.le_of_eq hset.2.1 | cases hf

theorem Once.room (hs : Once cfg ids s) (hsize : ids.toFinset.card ≤ cfg.maxSize) {e : String} (he : e ∈ ids)
    (hn : e ∉ s.cache.keys) : s.cache.length < cfg.maxSize := by
  have hsub : s.cache.keys.toFinset ⊆ ids.toFinset.erase e := by
    intro f hf
    rw [List.mem_toFinset] at hf
    obtain ⟨entry, hc⟩ := OrderedDict.mem_keys.mp hf
    rw [Finset.mem_erase, List.mem_toFinset]
    exact ⟨fun hfe => hn (hfe ▸ hf), (hs.named.entry f entry hc).1⟩
  have hcard := Finset.card_le_card hsub
  have hlen : s.cache.keys.toFinset.card = s.cache.length := by
    rw [List.toFinset_card_of_nodup s.cache.nodup_keys, OrderedDict.length_keys]
  have hpos : 0 < ids.toFinset.card := Finset.card_pos.mpr ⟨e, List.mem_toFinset.mpr he⟩
  rw [Finset.card_erase_of_mem (List.mem_toFinset.mpr he), hlen] at hcard
  omega

theorem Once.evicted_eq (hs : Once cfg ids s) (hsize : ids.toFinset.card ≤ cfg.maxSize) {t : ℕ} {e sp : String}
    {lock : LockId} (ht : s.calls t = some ⟨e, sp, .downloaded lock⟩) : evicted cfg s = [] := by
  have hroom := hs.room hsize (hs.named.call t _ ht).1 (hs.settled t _ ht).1
  have hzero : s.cache.length + 1 - cfg.maxSize = 0 := by omega
  rw [evicted, hzero, List.take_zero]

theorem Once.keepsLocks (hs : Once cfg ids s) (hsize : ids.toFinset.card ≤ cfg.maxSize) {a : Action}
    (ha : a.Undisturbed) (h : Step cfg s a s') : KeepsLocks cfg s a := by
  have hnone : droppedLocks cfg s a = [] → KeepsLocks cfg s a := by
    intro hd e he
    rw [hd] at he
    cases he
  cases h with
  | hit hc hd => exact hnone (by simp only [droppedLocks, hc, hd, if_true])
  | stale hc hd => exact absurd (hs.cached _ _ hc).1 hd
  | miss hc => exact hnone (by simp only [droppedLocks, hc])
  | dropLock ht => exact absurd (hs.settled _ _ ht) id
  | storeFull ht hm => exact hnone (by rw [droppedLocks, hs.evicted_eq hsize ht, List.map_nil])
  | store ht hm => exact hnone (by rw [droppedLocks, hs.evicted_eq hsize ht, List.map_nil])
  | cleanup => exact absurd ha id
  | clear => exact absurd ha id
  | acquire ht hg => exact hnone rfl
  | found ht hc hd => exact hnone rfl
  | start ht hc => exact hnone rfl
  | writes ht => exact hnone rfl
  | succeeds ht => exact hnone rfl
  | fails ht => exact hnone rfl
  | unlink => exact hnone rfl

theorem Fetching.addCall {e : String} (h : Fetching s e) (hf : s.FreshCalls) (c : Call) :
    Fetching (s.addCall c) e := by
  obtain ⟨t, d, lock, ht, hid, hl⟩ := h
  refine ⟨t, d, lock, ?_, hid, hl⟩
  have hlt := hf.lt ht
  rw [addCall_calls, if_neg (by omega), ht]

theorem Fetching.setCall {t : ℕ} {e f sp : String} {stage stage' : Stage} (h : Fetching s f)
    (ht : s.calls t = some ⟨e, sp, stage⟩)
    (hl : ∀ lock, stage.fetching? = some lock → stage'.fetching? = some lock ∨ f ≠ e) :
    Fetching (s.setCall t ⟨e, sp, stage'⟩) f := by
  obtain ⟨u, d, lock, hu, hid, hd⟩ := h
  by_cases hut : u = t
  · subst hut
    rw [ht, Option.some.injEq] at hu
    subst hu
    refine ⟨u, ⟨e, sp, stage'⟩, lock, ?_, hid, ?_⟩
    · rw [setCall_calls, if_pos rfl]
    · exact (hl lock hd).resolve_right (fun hne => hne hid.symm)
  · exact ⟨u, d, lock, by rw [setCall_calls, if_neg hut, hu], hid, hd⟩

theorem settled_addCall {c : Call} (hold : ∀ u d, s.calls u = some d → Settled s' d)
    (hcalls : s'.calls = (s.addCall c).calls) (hc : Settled s' c) (u : ℕ) (d : Call) (hu : s'.calls u = some d) :
    Settled s' d := by
  rw [hcalls, addCall_calls] at hu
  split_ifs at hu
  · cases hu
    exact hc
  · exact hold u d hu

theorem settled_setCall {t : ℕ} {c : Call} (hold : ∀ u d, u ≠ t → s.calls u = some d → Settled s' d)
    (hcalls : s'.calls = (s.setCall t c).calls) (hc : Settled s' c) (u : ℕ) (d : Call) (hu : s'.calls u = some d) :
    Settled s' d := by
  rw [hcalls, setCall_calls] at hu
  split_ifs at hu with hut
  · cases hu
    exact hc
  · exact hold u d hut hu

theorem touch_keys {e path : String} {now : ℚ} {f : String} (he : e ∈ s.cache.keys) :
    f ∈ (touch s e path now).cache.keys ↔ f ∈ s.cache.keys := by
  have hmoved := OrderedDict.keys_moveToEnd he
  rw [touch, OrderedDict.keys_set, if_pos, hmoved, List.mem_append, List.mem_singleton,
    s.cache.nodup_keys.mem_erase_iff]
  · constructor
    · rintro (⟨-, hf⟩ | rfl)
      · exact hf
      · exact he
    · intro hf
      by_cases hfe : f = e
      · exact Or.inr hfe
      · exact Or.inl ⟨hfe, hf⟩
  · rw [hmoved]
    exact List.mem_append_right _ (List.mem_singleton_self e)

theorem Once.evict_eq_self (hs : Once cfg ids s) (hsize : ids.toFinset.card ≤ cfg.maxSize) {t : ℕ} {e sp : String}
    {lock : LockId} (ht : s.calls t = some ⟨e, sp, .downloaded lock⟩) : evict cfg s = s := by
  rw [evict_eq, hs.evicted_eq hsize ht]
  rfl

theorem Once.not_full (hs : Once cfg ids s) (hsize : ids.toFinset.card ≤ cfg.maxSize) {t : ℕ} {e sp : String}
    {lock : LockId} (ht : s.calls t = some ⟨e, sp, .downloaded lock⟩) :
    ¬ cfg.maxSize ≤ (evict cfg s).cache.length := by
  have hroom := hs.room hsize (hs.named.call t _ ht).1 (hs.settled t _ ht).1
  rw [hs.evict_eq_self hsize ht]
  omega

theorem Once.disk_subset (hs : Once cfg ids s) (hsize : ids.toFinset.card ≤ cfg.maxSize) {a : Action}
    (ha : a.Undisturbed) (h : Step cfg s a s') : s.disk ⊆ s'.disk := by
  cases h with
  | hit hc hd => exact Finset.Subset.refl _
  | stale hc hd => exact absurd (hs.cached _ _ hc).1 hd
  | @miss e sp now hc =>
    obtain ⟨lock, locks, n, heq, -⟩ := awaitLock_eq s e sp
    rw [heq]
    exact Finset.Subset.refl _
  | acquire ht hg => exact Finset.Subset.refl _
  | found ht hc hd => exact Finset.Subset.refl _
  | start ht hc => exact Finset.Subset.refl _
  | writes ht => exact Finset.subset_insert _ _
  | succeeds ht => exact Finset.subset_insert _ _
  | fails ht => exact absurd ha id
  | dropLock ht => exact Finset.Subset.refl _
  | storeFull ht hm => exact absurd hm (hs.not_full hsize ht)
  | store ht hm =>
    simp only [hs.evict_eq_self hsize ht]
    exact Finset.Subset.refl _
  | cleanup => exact absurd ha id
  | clear => exact absurd ha id
  | unlink => exact absurd ha id

theorem Once.uncached (hs : Once cfg ids s) {e : String}
    (hc : ∀ entry, s.cache.get? e = some entry → entry.path ∉ s.disk) : e ∉ s.cache.keys := by
  intro he
  obtain ⟨entry, hentry⟩ := OrderedDict.mem_keys.mp he
  exact hc entry hentry (hs.cached e entry hentry).1

theorem Once.unfetched (hs : Once cfg ids s) {t : ℕ} {e sp : String} {lock : LockId}
    (ht : s.calls t = some ⟨e, sp, .checking lock⟩) (he : e ∉ s.cache.keys) :
    s.downloads.count e = 0 ∧ ∀ u d, u ≠ t → s.calls u = some d → d.episodeId = e → d.stage.fetching? = none := by
  have hother : ∀ u d, u ≠ t → s.calls u = some d → d.episodeId = e → d.stage.fetching? = none := by
    intro u d hut hu hid
    cases hf : d.stage.fetching? with
    | none => rfl
    | some lock' => exact absurd (hs.holder_unique hu ht hid (held_of_fetching hf) rfl) hut
  refine ⟨?_, hother⟩
  by_contra hne
  rcases hs.started e (Nat.pos_of_ne_zero hne) with hc | ⟨u, d, lock', hu, hid, hf⟩
  · exact he hc
  · by_cases hut : u = t
    · rw [hut, ht, Option.some.injEq] at hu
      subst hu
      cases hf
    · rw [hother u d hut hu hid] at hf
      cases hf

theorem Settled.waiting {c : Call} (h : Settled s c) (hf : c.stage.fetching? = none)
    (hcache : c.episodeId ∈ s.cache.keys → c.episodeId ∈ s'.cache.keys) : Settled s' c := by
  obtain ⟨e, sp, stage⟩ := c
  cases stage with
  | acquiring lock => trivial
  | checking lock => trivial
  | downloading lock => cases hf
  | downloaded lock => cases hf
  | failed lock => exact h
  | returned path => exact hcache h
  | raised => exact h

theorem Once.settled_touch (hs : Once cfg ids s) {e path : String} {now : ℚ} (he : e ∈ s.cache.keys) {t : ℕ} {c : Call}
    (ht : s.calls t = some c) : Settled (touch s e path now) c :=
  (hs.settled t c ht).congr (touch_keys he) rfl (fun _ hl => hl)

theorem Once.cached_touch (hs : Once cfg ids s) {e f : String} {entry entry' : Entry} {now : ℚ}
    (hc : s.cache.get? e = some entry) (hf : (touch s e entry.path now).cache.get? f = some entry') :
    entry'.path ∈ s.disk ∧ s.downloads.count f = 1 := by
  rw [touch_cache] at hf
  split_ifs at hf with hfe
  · cases hf
    rw [hfe]
    exact hs.cached e entry hc
  · exact hs.cached f entry' hf

theorem Once.accounted_touch (hs : Once cfg ids s) {e : String} {now : ℚ} {entry : Entry}
    (hc : s.cache.get? e = some entry) : Accounted (touch s e entry.path now) := by
  have he : e ∈ s.cache.keys := OrderedDict.mem_keys.mpr ⟨entry, hc⟩
  refine ⟨fun f entry' hf => hs.cached_touch hc hf, fun u d hu => hs.settled_touch he hu, fun f hf => ?_⟩
  exact (hs.started f hf).imp_left (touch_keys he).mpr

theorem mem_keys_touch {e path : String} {now : ℚ} {entry : Entry} (hc : s.cache.get? e = some entry) :
    e ∈ (touch s e path now).cache.keys := by
  have he : e ∈ s.cache.keys := OrderedDict.mem_keys.mpr ⟨entry, hc⟩
  exact (touch_keys he).mpr he

theorem Once.accounted_hit (hs : Once cfg ids s) {e sp : String} {now : ℚ} {entry : Entry}
    (hc : s.cache.get? e = some entry) :
    Accounted ((touch s e entry.path now).addCall ⟨e, sp, .returned entry.path⟩) := by
  have htouch : Accounted (touch s e entry.path now) := hs.accounted_touch hc
  refine ⟨htouch.cached, settled_addCall htouch.settled rfl (mem_keys_touch hc), fun f hf => ?_⟩
  exact (htouch.started f hf).imp_right fun hfetch => hfetch.addCall hs.locks.fresh _

theorem Once.accounted_found (hs : Once cfg ids s) {t : ℕ} {e sp : String} {lock : LockId} {now : ℚ} {entry : Entry}
    (ht : s.calls t = some ⟨e, sp, .checking lock⟩) (hc : s.cache.get? e = some entry) :
    Accounted ((touch s e entry.path now).setCall t ⟨e, sp, .returned entry.path⟩) := by
  have htouch : Accounted (touch s e entry.path now) := hs.accounted_touch hc
  refine ⟨htouch.cached, settled_setCall (fun u d _ hu => htouch.settled u d hu) rfl (mem_keys_touch hc),
    fun f hf => ?_⟩
  exact (htouch.started f hf).imp_right fun hfetch => hfetch.setCall ht (fun lock hl => by cases hl)

theorem Once.accounted_miss (hs : Once cfg ids s) (e sp : String) : Accounted (awaitLock s e sp) := by
  obtain ⟨lock, locks, n, heq, hself, hother, hold⟩ := awaitLock_eq s e sp
  rw [heq]
  refine ⟨hs.cached, ?_, ?_⟩
  · refine settled_addCall (s := s) (c := ⟨e, sp, .acquiring lock⟩) ?_ rfl trivial
    intro u d hu
    refine (hs.settled u d hu).congr Iff.rfl rfl ?_
    intro l hl
    by_cases hde : d.episodeId = e
    · rw [hde] at hl ⊢
      exact hold l hl ▸ hself
    · exact (hother _ hde).trans hl
  · intro f hf
    exact (hs.started f hf).imp_right (fun hfetch => hfetch.addCall hs.locks.fresh ⟨e, sp, .acquiring lock⟩)

theorem Once.accounted_start (hs : Once cfg ids s) {t : ℕ} {e sp : String} {lock : LockId}
    (ht : s.calls t = some ⟨e, sp, .checking lock⟩) (he : e ∉ s.cache.keys) :
    Accounted (startDownload s t ⟨e, sp, .checking lock⟩ lock) := by
  obtain ⟨hcount, hfree⟩ := hs.unfetched ht he
  have hlock := hs.tabled ht rfl
  have hnew : (s.downloads ++ [e]).count e = 1 := by
    rw [List.count_append, hcount, List.count_singleton_self]
  have hold : ∀ f, f ≠ e → (s.downloads ++ [e]).count f = s.downloads.count f := by
    intro f hf
    rw [List.count_append, List.count_singleton]
    simp [Ne.symm hf]
  constructor
  · intro f entry hf
    have hfe : f ≠ e := fun hfe => he (hfe ▸ OrderedDict.mem_keys.mpr ⟨entry, hf⟩)
    exact ⟨(hs.cached f entry hf).1, (hold f hfe).trans (hs.cached f entry hf).2⟩
  · refine settled_setCall (s := s) (t := t) (c := ⟨e, sp, .downloading lock⟩) ?_ rfl ⟨he, hnew, hlock⟩
    intro u d hut hu
    by_cases hde : d.episodeId = e
    · exact (hs.settled u d hu).waiting (hfree u d hut hu hde) id
    · exact (hs.settled u d hu).congr Iff.rfl (hold _ hde) (fun _ hl => hl)
  · intro f hf
    by_cases hfe : f = e
    · refine Or.inr ⟨t, ⟨e, sp, .downloading lock⟩, lock, ?_, hfe.symm, rfl⟩
      exact (setCall_calls s t t _).trans (if_pos rfl)
    · have hpos : 0 < s.downloads.count f := (hold f hfe) ▸ hf
      exact (hs.started f hpos).imp_right (fun hfetch => hfetch.setCall ht (fun lock hl => by cases hl))

theorem Once.accounted_store (hs : Once cfg ids s) {t : ℕ} {e sp : String} {lock : LockId}
    (ht : s.calls t = some ⟨e, sp, .downloaded lock⟩) {path : String} (hfile : path ∈ s.disk) (now : ℚ) :
    Accounted { s.setCall t ⟨e, sp, .returned path⟩ with cache := s.cache.set e ⟨path, now⟩ } := by
  obtain ⟨he, hcount, -⟩ := hs.settled t _ ht
  have hkeys : ∀ f, f ∈ (s.cache.set e ⟨path, now⟩).keys ↔ f ∈ s.cache.keys ∨ f = e := by
    intro f
    rw [OrderedDict.keys_set, if_neg he, List.mem_append, List.mem_singleton]
  constructor
  · intro f entry hf
    rw [OrderedDict.get?_set] at hf
    split_ifs at hf with hfe
    · cases hf
      rw [hfe]
      exact ⟨hfile, hcount⟩
    · exact hs.cached f entry hf
  · refine settled_setCall (s := s) (t := t) (c := ⟨e, sp, .returned path⟩) ?_ rfl ((hkeys e).mpr (Or.inr rfl))
    intro u d hut hu
    by_cases hde : d.episodeId = e
    · refine (hs.settled u d hu).waiting ?_ (fun hmem => (hkeys _).mpr (Or.inl hmem))
      cases hf : d.stage.fetching? with
      | none => rfl
      | some lock' => exact absurd (hs.holder_unique hu ht hde (held_of_fetching hf) rfl) hut
    · exact (hs.settled u d hu).congr ((hkeys _).trans (or_iff_left hde)) rfl (fun _ hl => hl)
  · intro f hf
    by_cases hfe : f = e
    · exact Or.inl ((hkeys f).mpr (Or.inr hfe))
    · rcases hs.started f hf with hmem | hfetch
      · exact Or.inl ((hkeys f).mpr (Or.inl hmem))
      · exact Or.inr (hfetch.setCall ht (fun lock hl => Or.inr hfe))

theorem accounted_step (hs : Once cfg ids s) (hsize : ids.toFinset.card ≤ cfg.maxSize) {a : Action}
    (ha : a.Undisturbed) (h : Step cfg s a s') : Accounted s' := by
  cases h with
  | hit hc hd => exact hs.accounted_hit hc
  | stale hc hd => exact absurd (hs.cached _ _ hc).1 hd
  | miss hc => exact hs.accounted_miss _ _
  | acquire ht hg =>
    refine ⟨hs.cached, ?_, ?_⟩
    · exact settled_setCall (fun u d _ hu => hs.settled u d hu) rfl trivial
    · intro f hf
      exact (hs.started f hf).imp_right (fun hfetch => hfetch.setCall ht (fun lock hl => by cases hl))
  | found ht hc hd => exact hs.accounted_found ht hc
  | start ht hc => exact hs.accounted_start ht (hs.uncached hc)
  | writes ht =>
    exact ⟨fun f entry hf => ⟨Finset.mem_insert_of_mem (hs.cached f entry hf).1, (hs.cached f entry hf).2⟩,
      hs.settled, hs.started⟩
  | @succeeds t e sp lock ht =>
    refine ⟨fun f entry hf => ⟨Finset.mem_insert_of_mem (hs.cached f entry hf).1, (hs.cached f entry hf).2⟩, ?_, ?_⟩
    · exact settled_setCall (fun u d _ hu => hs.settled u d hu) rfl (hs.settled t _ ht)
    · intro f hf
      exact (hs.started f hf).imp_right (fun hfetch => hfetch.setCall ht (fun lock hl => Or.inl hl))
  | fails ht => exact absurd ha id
  | dropLock ht => exact absurd (hs.settled _ _ ht) id
  | storeFull ht hm => exact absurd hm (hs.not_full hsize ht)
  | store ht hm =>
    simp only [hs.evict_eq_self hsize ht]
    exact hs.accounted_store ht (hs.written _ _ ht rfl) _
  | cleanup => exact absurd ha id
  | clear => exact absurd ha id
  | unlink => exact absurd ha id

theorem once_step (hs : Once cfg ids s) (hsize : ids.toFinset.card ≤ cfg.maxSize) {a : Action} (ha : a.Undisturbed)
    (hreq : ∀ e ∈ requested [a], e ∈ ids) (h : Step cfg s a s') : Once cfg ids s' := by
  refine ⟨accounted_step hs hsize ha h, ?_, named_step hs.named hreq h, ?_⟩
  · exact ⟨freshCalls_step hs.locks.fresh h, tabled_step hs.locks.tabled hs.locks.fresh (hs.keepsLocks hsize ha h) h,
      exclusive_step hs.locks.exclusive hs.locks.fresh h⟩
  · intro t c ht hc
    rcases downloaded_step h ht hc with hold | hnew
    · exact hs.disk_subset hsize ha h (hs.written t c hold hc)
    · exact hnew

theorem once_run {actions : List Action} (ha : ∀ a ∈ actions, a.Undisturbed)
    (hsize : (requested actions).toFinset.card ≤ cfg.maxSize) (h : run (next cfg) initial actions = some s) :
    Once cfg (requested actions) s := by
  have hok : Along (next cfg) (fun _ a => a.Undisturbed ∧ ∀ e ∈ requested [a], e ∈ requested actions)
      initial actions := along_of_mem (fun a hmem => ⟨ha a hmem, requested_subset hmem⟩)
  exact invariant_along (Once cfg (requested actions))
    (fun s a t hs hok hn => once_step hs hsize hok.1 hok.2 (step_of_next hn)) (once_initial cfg _) hok h

theorem downloads_once (cfg : Config) (actions : List Action) (s : State) (ha : ∀ a ∈ actions, a.Undisturbed)
    (hsize : (requested actions).toFinset.card ≤ cfg.maxSize) (h : run (next cfg) initial actions = some s) :
    (∀ e, s.downloads.count e ≤ 1) ∧
      (∀ t c, s.calls t = some c → ¬ c.stage.InFlight → s.downloads.count c.episodeId = 1) ∧
      ∀ t u c d, s.calls t = some c → s.calls u = some d → ¬ c.stage.InFlight → ¬ d.stage.InFlight →
        c.episodeId = d.episodeId → ∃ path, c.stage = .returned path ∧ d.stage = .returned path := by
  have hs := once_run ha hsize h
  have hreturned : ∀ t c, s.calls t = some c → ¬ c.stage.InFlight →
      c.stage = .returned (cfg.tmpPath c.episodeId) ∧ c.episodeId ∈ s.cache.keys := by
    intro t c ht hc
    have hset := hs.settled t c ht
    obtain ⟨e, sp, stage⟩ := c
    cases stage with
    | returned path => exact ⟨by rw [(hs.named.call t _ ht).2 path rfl], hset⟩
    | raised => exact absurd hset id
    | acquiring lock => exact absurd (by simp [Stage.InFlight, Stage.lock?]) hc
    | checking lock => exact absurd (by simp [Stage.InFlight, Stage.lock?]) hc
    | downloading lock => exact absurd (by simp [Stage.InFlight, Stage.lock?]) hc
    | downloaded lock => exact absurd (by simp [Stage.InFlight, Stage.lock?]) hc
    | failed lock => exact absurd hset id
  refine ⟨hs.count_le, ?_, ?_⟩
  · intro t c ht hc
    obtain ⟨entry, hentry⟩ := OrderedDict.mem_keys.mp (hreturned t c ht hc).2
    exact (hs.cached _ entry hentry).2
  · intro t u c d ht hu hc hd hid
    exact ⟨cfg.tmpPath c.episodeId, (hreturned t c ht hc).1, hid ▸ (hreturned u d hu hd).1⟩

def threeRequests : List Action :=
  [.getOrDownload "ep-1" "storage/ep1.mcap" 0, .acquire 0, .getOrDownload "ep-1" "storage/ep1.mcap" 0,
    .doubleCheck 0 0, .downloadSucceeds 0, .store 0 2, .acquire 1, .doubleCheck 1 3,
    .getOrDownload "ep-1" "storage/ep1.mcap" 4]

theorem downloads_once_threeRequests :
    (run (next serviceConfig) initial threeRequests).isSome ∧
      ∀ s, run (next serviceConfig) initial threeRequests = some s →
        (∀ e, s.downloads.count e ≤ 1) ∧
          (∀ t c, s.calls t = some c → ¬ c.stage.InFlight → s.downloads.count c.episodeId = 1) ∧
          ∀ t u c d, s.calls t = some c → s.calls u = some d → ¬ c.stage.InFlight → ¬ d.stage.InFlight →
            c.episodeId = d.episodeId → ∃ path, c.stage = .returned path ∧ d.stage = .returned path :=
  ⟨by decide +kernel, fun s => downloads_once serviceConfig threeRequests s
    (by simp [threeRequests, Action.Undisturbed]) (by decide +kernel)⟩

end Embedai.McapCache
