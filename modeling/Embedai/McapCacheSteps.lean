import Embedai.McapCache

namespace Embedai.McapCache

inductive Step (cfg : Config) (s : State) : Action → State → Prop
  | hit {e sp now entry} (hc : s.cache.get? e = some entry) (hd : entry.path ∈ s.disk) :
      Step cfg s (.getOrDownload e sp now)
        ((touch s e entry.path now).addCall ⟨e, sp, .returned entry.path⟩)
  | stale {e sp now entry} (hc : s.cache.get? e = some entry) (hd : entry.path ∉ s.disk) :
      Step cfg s (.getOrDownload e sp now) (awaitLock (forgetStale s e) e sp)
  | miss {e sp now} (hc : s.cache.get? e = none) :
      Step cfg s (.getOrDownload e sp now) (awaitLock s e sp)
  | acquire {t e sp lock} (ht : s.calls t = some ⟨e, sp, .acquiring lock⟩) (hg : s.Grants lock t) :
      Step cfg s (.acquire t) (s.setCall t ⟨e, sp, .checking lock⟩)
  | found {t e sp lock now entry} (ht : s.calls t = some ⟨e, sp, .checking lock⟩)
      (hc : s.cache.get? e = some entry) (hd : entry.path ∈ s.disk) :
      Step cfg s (.doubleCheck t now)
        ((touch s e entry.path now).setCall t ⟨e, sp, .returned entry.path⟩)
  | start {t e sp lock now} (ht : s.calls t = some ⟨e, sp, .checking lock⟩)
      (hc : ∀ entry, s.cache.get? e = some entry → entry.path ∉ s.disk) :
      Step cfg s (.doubleCheck t now) (startDownload s t ⟨e, sp, .checking lock⟩ lock)
  | writes {t e sp lock} (ht : s.calls t = some ⟨e, sp, .downloading lock⟩) :
      Step cfg s (.downloadWrites t) { s with disk := insert (cfg.tmpPath e) s.disk }
  | succeeds {t e sp lock} (ht : s.calls t = some ⟨e, sp, .downloading lock⟩) :
      Step cfg s (.downloadSucceeds t)
        { s.setCall t ⟨e, sp, .downloaded lock⟩ with disk := insert (cfg.tmpPath e) s.disk }
  | fails {t e sp lock} (ht : s.calls t = some ⟨e, sp, .downloading lock⟩) :
      Step cfg s (.downloadFails t) ((removeFile s (cfg.tmpPath e)).setCall t ⟨e, sp, .failed lock⟩)
  | dropLock {t e sp lock} (ht : s.calls t = some ⟨e, sp, .failed lock⟩) :
      Step cfg s (.dropLock t)
        { s.setCall t ⟨e, sp, .raised⟩ with episodeLocks := s.episodeLocks.erase e }
  | storeFull {t e sp lock now} (ht : s.calls t = some ⟨e, sp, .downloaded lock⟩)
      (hm : cfg.maxSize ≤ (evict cfg s).cache.length) :
      Step cfg s (.store t now) ((evict cfg s).setCall t ⟨e, sp, .raised⟩)
  | store {t e sp lock now} (ht : s.calls t = some ⟨e, sp, .downloaded lock⟩)
      (hm : (evict cfg s).cache.length < cfg.maxSize) :
      Step cfg s (.store t now)
        { (evict cfg s).setCall t ⟨e, sp, .returned (cfg.tmpPath e)⟩ with
          cache := (evict cfg s).cache.set e ⟨cfg.tmpPath e, now⟩ }
  | cleanup {now} : Step cfg s (.cleanupExpired now) (popAll s (expired cfg s now))
  | clear : Step cfg s .clear (clear s)
  | unlink {path} : Step cfg s (.unlinkOutside path) (removeFile s path)

variable {cfg : Config} {s s' : State} {a : Action}

theorem step_of_next (h : next cfg s a = some s') : Step cfg s a s' := by
  cases a with
  | getOrDownload e sp now =>
    simp only [next, Option.some.injEq] at h
    subst h
    unfold fastPath
    split
    · rename_i entry hc
      split
      · rename_i hd
        exact .hit hc hd
      · rename_i hd
        exact .stale hc hd
    · rename_i hc
      exact .miss hc
  | acquire t =>
    obtain ⟨⟨e, sp, stage⟩, ht, h⟩ := Option.bind_eq_some_iff.mp h
    cases stage <;> simp only [reduceCtorEq] at h
    rename_i lock
    split at h
    · rename_i hg
      cases h
      exact .acquire ht hg
    · cases h
  | doubleCheck t now =>
    obtain ⟨⟨e, sp, stage⟩, ht, h⟩ := Option.bind_eq_some_iff.mp h
    cases stage <;> simp only [reduceCtorEq] at h
    rename_i lock
    split at h
    · rename_i entry hc
      split at h
      · rename_i hd
        cases h
        exact .found ht hc hd
      · rename_i hd
        cases h
        refine .start ht (fun entry' hc' => ?_)
        rw [hc, Option.some.injEq] at hc'
        exact hc' ▸ hd
    · rename_i hc
      cases h
      exact .start ht (fun entry' hc' => by rw [hc] at hc'; cases hc')
  | downloadWrites t =>
    obtain ⟨⟨e, sp, stage⟩, ht, h⟩ := Option.bind_eq_some_iff.mp h
    cases stage <;> simp only [reduceCtorEq, Option.some.injEq] at h
    exact h ▸ .writes ht
  | downloadSucceeds t =>
    obtain ⟨⟨e, sp, stage⟩, ht, h⟩ := Option.bind_eq_some_iff.mp h
    cases stage <;> simp only [reduceCtorEq, Option.some.injEq] at h
    exact h ▸ .succeeds ht
  | downloadFails t =>
    obtain ⟨⟨e, sp, stage⟩, ht, h⟩ := Option.bind_eq_some_iff.mp h
    cases stage <;> simp only [reduceCtorEq, Option.some.injEq] at h
    exact h ▸ .fails ht
  | dropLock t =>
    obtain ⟨⟨e, sp, stage⟩, ht, h⟩ := Option.bind_eq_some_iff.mp h
    cases stage <;> simp only [reduceCtorEq, Option.some.injEq] at h
    exact h ▸ .dropLock ht
  | store t now =>
    obtain ⟨⟨e, sp, stage⟩, ht, h⟩ := Option.bind_eq_some_iff.mp h
    cases stage <;> simp only [reduceCtorEq] at h
    split at h
    · rename_i hm
      cases h
      exact .storeFull ht hm
    · rename_i hm
      cases h
      exact .store ht (Nat.lt_of_not_le hm)
  | cleanupExpired now =>
    simp only [next, Option.some.injEq] at h
    exact h ▸ .cleanup
  | clear =>
    simp only [next, Option.some.injEq] at h
    exact h ▸ .clear
  | unlinkOutside path =>
    simp only [next, Option.some.injEq] at h
    exact h ▸ .unlink

@[simp]
theorem setCall_calls (s : State) (t u : ℕ) (c : Call) :
    (s.setCall t c).calls u = if u = t then some c else s.calls u := by
  simp [State.setCall, Function.update_apply]

@[simp]
theorem addCall_calls (s : State) (u : ℕ) (c : Call) :
    (s.addCall c).calls u = if u = s.nextCall then some c else s.calls u := by
  simp [State.addCall]

theorem awaitLock_eq (s : State) (e sp : String) :
    ∃ lock locks n, awaitLock s e sp =
        { s.addCall ⟨e, sp, .acquiring lock⟩ with episodeLocks := locks, nextLock := n } ∧
      locks.get? e = some lock ∧ (∀ f, f ≠ e → locks.get? f = s.episodeLocks.get? f) ∧
      (∀ l, s.episodeLocks.get? e = some l → lock = l) := by
  unfold awaitLock
  split
  · rename_i lock hl
    refine ⟨lock, s.episodeLocks, s.nextLock, rfl, hl, fun _ _ => rfl, ?_⟩
    intro l h
    rw [hl, Option.some.injEq] at h
    exact h
  · rename_i hl
    refine ⟨s.nextLock, s.episodeLocks.set e s.nextLock, s.nextLock + 1, rfl, ?_, ?_, ?_⟩
    · rw [OrderedDict.get?_set, if_pos rfl]
    · intro f hf
      rw [OrderedDict.get?_set, if_neg hf]
    · intro l h
      rw [hl] at h
      cases h

theorem popAll_calls (s : State) (l : List (String × Entry)) :
    (popAll s l).calls = s.calls ∧ (popAll s l).nextCall = s.nextCall ∧
      (popAll s l).nextLock = s.nextLock ∧ (popAll s l).downloads = s.downloads := by
  induction l generalizing s with
  | nil => exact ⟨rfl, rfl, rfl, rfl⟩
  | cons p l ih => exact ih (popEntry s p.1 p.2.path)

theorem popAll_erases (s : State) (l : List (String × Entry)) :
    (popAll s l).cache = (l.map Prod.fst).foldl OrderedDict.erase s.cache ∧
      (popAll s l).episodeLocks = (l.map Prod.fst).foldl OrderedDict.erase s.episodeLocks := by
  induction l generalizing s with
  | nil => exact ⟨rfl, rfl⟩
  | cons p l ih => exact ih (popEntry s p.1 p.2.path)

theorem popAll_cache (s : State) (l : List (String × Entry)) (e : String) :
    (popAll s l).cache.get? e = if e ∈ l.map Prod.fst then none else s.cache.get? e := by
  rw [(popAll_erases s l).1, OrderedDict.get?_foldl_erase]

theorem popAll_locks (s : State) (l : List (String × Entry)) (e : String) :
    (popAll s l).episodeLocks.get? e = if e ∈ l.map Prod.fst then none else s.episodeLocks.get? e := by
  rw [(popAll_erases s l).2, OrderedDict.get?_foldl_erase]

theorem popAll_lockKeys (s : State) (l : List (String × Entry)) (e : String) :
    e ∈ (popAll s l).episodeLocks.keys ↔ e ∉ l.map Prod.fst ∧ e ∈ s.episodeLocks.keys := by
  simp only [OrderedDict.mem_keys, popAll_locks]
  split_ifs with he <;> simp [he]

theorem popAll_disk (s : State) (l : List (String × Entry)) (path : String) :
    path ∈ (popAll s l).disk ↔ path ∈ s.disk ∧ ∀ p ∈ l, p.2.path ≠ path := by
  induction l generalizing s with
  | nil => simp [popAll]
  | cons p l ih =>
    rw [popAll, List.foldl_cons, ← popAll, ih]
    simp only [popEntry, removeFile, Finset.mem_erase, ne_eq, List.mem_cons, forall_eq_or_imp]
    constructor
    · rintro ⟨⟨hp, hd⟩, hl⟩
      exact ⟨hd, fun he => hp he.symm, hl⟩
    · rintro ⟨hd, hp, hl⟩
      exact ⟨⟨fun he => hp he.symm, hd⟩, hl⟩

theorem popAll_length (s : State) (l : List (String × Entry)) :
    (popAll s l).cache.length ≤ s.cache.length := by
  induction l generalizing s with
  | nil => exact le_refl _
  | cons p l ih => exact (ih (popEntry s p.1 p.2.path)).trans (OrderedDict.length_erase_le _ _)

def evicted (cfg : Config) (s : State) : List (String × Entry) :=
  s.cache.items.take (s.cache.length + 1 - cfg.maxSize)

theorem evictLoop_eq (maxSize fuel : ℕ) (s : State) (hf : s.cache.length ≤ fuel) :
    evictLoop maxSize fuel s = popAll s (s.cache.items.take (s.cache.length + 1 - maxSize)) := by
  induction fuel generalizing s with
  | zero =>
    have hl : s.cache.items = [] := List.length_eq_zero_iff.mp (Nat.le_zero.mp hf)
    simp [evictLoop, hl, popAll]
  | succ fuel ih =>
    unfold evictLoop
    split
    · rename_i hm
      split
      · rename_i hl
        simp [hl, popAll]
      · rename_i e entry rest hl
        have hr : (popEntry s e entry.path).cache.items = rest := OrderedDict.items_erase_head hl
        have hs : s.cache.length = rest.length + 1 := by rw [OrderedDict.length, hl, List.length_cons]
        have hlen : (popEntry s e entry.path).cache.length = rest.length := by rw [OrderedDict.length, hr]
        rw [ih _ (by omega), hr, hlen, hl, hs]
        have hn : rest.length + 1 + 1 - maxSize = (rest.length + 1 - maxSize) + 1 := by omega
        rw [hn, List.take_succ_cons]
        rfl
    · rename_i hm
      have hn : s.cache.length + 1 - maxSize = 0 := by omega
      rw [hn]
      rfl

theorem popAll_take (s : State) (n : ℕ) :
    (popAll s (s.cache.items.take n)).cache.items = s.cache.items.drop n := by
  induction n generalizing s with
  | zero => rfl
  | succ n ih =>
    cases hl : s.cache.items with
    | nil => simp [popAll, hl]
    | cons p rest =>
      obtain ⟨e, entry⟩ := p
      have hr : (popEntry s e entry.path).cache.items = rest := OrderedDict.items_erase_head hl
      have h := ih (popEntry s e entry.path)
      rw [hr] at h
      rw [List.take_succ_cons, List.drop_succ_cons]
      exact h

theorem evict_eq (cfg : Config) (s : State) : evict cfg s = popAll s (evicted cfg s) :=
  evictLoop_eq cfg.maxSize s.cache.length s (le_refl _)

theorem evict_length {cfg : Config} (hm : 1 ≤ cfg.maxSize) (s : State) :
    (evict cfg s).cache.length < cfg.maxSize := by
  rw [evict_eq, OrderedDict.length, evicted, popAll_take, List.length_drop]
  simp only [OrderedDict.length]
  omega

theorem mem_evicted {cfg : Config} {s : State} {p : String × Entry} (h : p ∈ evicted cfg s) :
    s.cache.get? p.1 = some p.2 :=
  OrderedDict.mem_items.mp (List.mem_of_mem_take h)

theorem mem_expired {cfg : Config} {s : State} {now : ℚ} {p : String × Entry} (h : p ∈ expired cfg s now) :
    s.cache.get? p.1 = some p.2 :=
  OrderedDict.mem_items.mp (List.mem_of_mem_filter h)

theorem touch_cache (s : State) (e f path : String) (now : ℚ) :
    (touch s e path now).cache.get? f = if f = e then some ⟨path, now⟩ else s.cache.get? f := by
  rw [touch, OrderedDict.get?_set, OrderedDict.get?_moveToEnd]

theorem touch_length {s : State} {e : String} {entry : Entry} (h : s.cache.get? e = some entry)
    (path : String) (now : ℚ) : (touch s e path now).cache.length = s.cache.length := by
  rw [touch, OrderedDict.length_set_of_mem, OrderedDict.length_moveToEnd]
  exact OrderedDict.mem_keys.mpr ⟨entry, by rw [OrderedDict.get?_moveToEnd, h]⟩

def State.FreshCalls (s : State) : Prop := ∀ t, s.nextCall ≤ t → s.calls t = none

theorem State.FreshCalls.lt {s : State} (h : s.FreshCalls) {t : ℕ} {c : Call} (ht : s.calls t = some c) :
    t < s.nextCall := by
  by_contra hn
  rw [h t (Nat.le_of_not_lt hn)] at ht
  cases ht

theorem State.FreshCalls.setCall {s : State} (h : s.FreshCalls) {t : ℕ} {c₀ : Call} (ht : s.calls t = some c₀)
    (c : Call) : (s.setCall t c).FreshCalls := by
  intro u hu
  have hlt := h.lt ht
  have hne : u ≠ t := by
    have : s.nextCall ≤ u := hu
    omega
  rw [setCall_calls, if_neg hne]
  exact h u hu

theorem State.FreshCalls.addCall {s : State} (h : s.FreshCalls) (c : Call) : (s.addCall c).FreshCalls := by
  intro u hu
  have hlt : s.nextCall + 1 ≤ u := hu
  rw [addCall_calls, if_neg (by omega)]
  exact h u (by omega)

theorem State.FreshCalls.awaitLock {s : State} (h : s.FreshCalls) (e sp : String) :
    (awaitLock s e sp).FreshCalls := by
  obtain ⟨lock, locks, n, he, -⟩ := awaitLock_eq s e sp
  rw [he]
  exact h.addCall _

theorem freshCalls_step {cfg : Config} {s s' : State} {a : Action} (hs : s.FreshCalls)
    (h : Step cfg s a s') : s'.FreshCalls := by
  cases h with
  | hit hc hd => exact State.FreshCalls.addCall (s := touch s _ _ _) hs _
  | stale hc hd => exact State.FreshCalls.awaitLock (s := forgetStale s _) hs _ _
  | miss hc => exact hs.awaitLock _ _
  | acquire ht hg => exact hs.setCall ht _
  | found ht hc hd => exact State.FreshCalls.setCall (s := touch s _ _ _) hs ht _
  | start ht hc => exact hs.setCall ht _
  | writes ht => exact hs
  | succeeds ht => exact hs.setCall ht _
  | fails ht => exact State.FreshCalls.setCall (s := removeFile s _) hs ht _
  | dropLock ht => exact hs.setCall ht _
  | storeFull ht hm =>
    rw [evict_eq]
    obtain ⟨hcalls, hnext, -⟩ := popAll_calls s (evicted cfg s)
    refine State.FreshCalls.setCall ?_ (hcalls ▸ ht) _
    intro t hle
    rw [hcalls]
    exact hs t (hnext ▸ hle)
  | store ht hm =>
    simp only [evict_eq]
    obtain ⟨hcalls, hnext, -⟩ := popAll_calls s (evicted cfg s)
    refine State.FreshCalls.setCall (s := popAll s (evicted cfg s)) ?_ (hcalls ▸ ht) _
    intro t hle
    rw [hcalls]
    exact hs t (hnext ▸ hle)
  | cleanup =>
    obtain ⟨hcalls, hnext, -⟩ := popAll_calls s (expired cfg s _)
    intro t hle
    rw [hcalls]
    exact hs t (hnext ▸ hle)
  | clear => exact hs
  | unlink => exact hs

end Embedai.McapCache
