import Mathlib.Order.Lattice

/-!
Revisions of a state that are applied and taken back one at a time. Every path of upgrades and downgrades comes down to
the way to the lowest revision on it and the way from there to the last one.
-/

namespace Embedai.RevisionChains

variable {σ : Type}

/-- `up i` leads from revision `i` to revision `i + 1`, and `down i` back. -/
structure Chain (σ : Type) where
  up : ℕ → σ → Option σ
  down : ℕ → σ → Option σ

def Chain.ups (c : Chain σ) : ℕ → ℕ → σ → Option σ
  | _, 0, x => some x
  | r, n + 1, x => (c.up r x).bind (c.ups (r + 1) n)

def Chain.downs (c : Chain σ) (r : ℕ) : ℕ → σ → Option σ
  | 0, x => some x
  | n + 1, x => (c.down (r + n) x).bind (c.downs r n)

def Chain.move (c : Chain σ) (r q : ℕ) (x : σ) : Option σ :=
  if r ≤ q then c.ups r (q - r) x else c.downs q (r - q) x

def Chain.path (c : Chain σ) : ℕ → List ℕ → σ → Option σ
  | _, [], x => some x
  | r, q :: qs, x => (c.move r q x).bind (c.path q qs)

structure Chain.Sound (c : Chain σ) (Valid : ℕ → σ → Prop) (top : ℕ) : Prop where
  up : ∀ r x, r < top → Valid r x → ∃ y, c.up r x = some y ∧ Valid (r + 1) y ∧ c.down r y = some x
  down : ∀ r y, r < top → Valid (r + 1) y → ∃ x, c.down r y = some x ∧ Valid r x

def lowest (r : ℕ) (qs : List ℕ) : ℕ := qs.foldr min r

def last (r : ℕ) (qs : List ℕ) : ℕ := qs.getLastD r

variable {c : Chain σ} {Valid : ℕ → σ → Prop} {top r q k : ℕ} {x : σ}

theorem ups_add (c : Chain σ) (r m n : ℕ) (x : σ) : c.ups r (m + n) x = (c.ups r m x).bind (c.ups (r + m) n) := by
  induction m generalizing r x with
  | zero => simp [Chain.ups]
  | succ m ih =>
    have hstep : c.ups (r + 1) (m + n) = fun y => (c.ups (r + 1) m y).bind (c.ups (r + (m + 1)) n) := by
      funext y
      rw [ih, Nat.add_assoc, Nat.add_comm 1 m]
    rw [Nat.succ_add, Chain.ups, Chain.ups, hstep, Option.bind_assoc]

theorem downs_add (c : Chain σ) (r m n : ℕ) (x : σ) :
    c.downs r (m + n) x = (c.downs (r + m) n x).bind (c.downs r m) := by
  induction n generalizing x with
  | zero => simp [Chain.downs]
  | succ n ih =>
    have hstep : c.downs r (m + n) = fun y => (c.downs (r + m) n y).bind (c.downs r m) := funext ih
    rw [← Nat.add_assoc, Chain.downs, Chain.downs, hstep, Option.bind_assoc, Nat.add_assoc]

theorem move_self (c : Chain σ) (r : ℕ) (x : σ) : c.move r r x = some x := by
  rw [Chain.move, if_pos le_rfl, Nat.sub_self, Chain.ups]

theorem move_add (c : Chain σ) (r n : ℕ) (x : σ) : c.move r (r + n) x = c.ups r n x := by
  rw [Chain.move, if_pos (Nat.le_add_right r n), Nat.add_sub_cancel_left]

theorem move_down (c : Chain σ) (r n : ℕ) (x : σ) : c.move (r + n) r x = c.downs r n x := by
  cases n with
  | zero => exact move_self c r x
  | succ n => rw [Chain.move, if_neg (by omega), Nat.add_sub_cancel_left]

namespace Chain.Sound

variable (h : c.Sound Valid top)

include h

theorem ups_valid {n : ℕ} (hr : r + n ≤ top) (hx : Valid r x) :
    ∃ y, c.ups r n x = some y ∧ Valid (r + n) y ∧ c.downs r n y = some x := by
  induction n generalizing r x with
  | zero => exact ⟨x, rfl, hx, rfl⟩
  | succ n ih =>
    obtain ⟨y, hup, hy, hdown⟩ := h.up r x (by omega) hx
    obtain ⟨z, hups, hz, hdowns⟩ := ih (r := r + 1) (by omega) hy
    refine ⟨z, ?_, ?_, ?_⟩
    · rw [Chain.ups, hup]
      exact hups
    · rwa [Nat.add_assoc, Nat.add_comm 1 n] at hz
    · rw [Nat.add_comm n 1, downs_add, hdowns]
      exact (Option.bind_fun_some _).trans hdown

theorem downs_valid {n : ℕ} (hr : r + n ≤ top) (hx : Valid (r + n) x) : ∃ y, c.downs r n x = some y ∧ Valid r y := by
  induction n generalizing x with
  | zero => exact ⟨x, rfl, hx⟩
  | succ n ih =>
    obtain ⟨y, hdown, hy⟩ := h.down (r + n) x (by omega) hx
    obtain ⟨z, hdowns, hz⟩ := ih (by omega) hy
    exact ⟨z, by rw [Chain.downs, hdown]; exact hdowns, hz⟩

theorem move_valid (hr : r ≤ top) (hq : q ≤ top) (hx : Valid r x) : ∃ y, c.move r q x = some y ∧ Valid q y := by
  rcases Nat.le_total r q with hle | hle
  · obtain ⟨n, rfl⟩ := Nat.exists_eq_add_of_le hle
    obtain ⟨y, hy, hvalid, -⟩ := h.ups_valid hq hx
    exact ⟨y, by rw [move_add, hy], hvalid⟩
  · obtain ⟨n, rfl⟩ := Nat.exists_eq_add_of_le hle
    obtain ⟨y, hy, hvalid⟩ := h.downs_valid hr hx
    exact ⟨y, by rw [move_down, hy], hvalid⟩

theorem move_move (hr : r ≤ top) (hq : q ≤ top) (hk : min r k ≤ q) (hx : Valid r x) :
    (c.move r q x).bind (c.move q k) = c.move r k x := by
  rcases Nat.le_total r k with hrk | hkr
  · rw [min_eq_left hrk] at hk
    obtain ⟨m, rfl⟩ := Nat.exists_eq_add_of_le hk
    rcases Nat.le_total (r + m) k with hqk | hkq
    · obtain ⟨n, rfl⟩ := Nat.exists_eq_add_of_le hqk
      rw [Nat.add_assoc, move_add, move_add, ups_add, ← Nat.add_assoc]
      exact congrArg _ (funext fun y => move_add c (r + m) n y)
    · obtain ⟨i, rfl⟩ := Nat.exists_eq_add_of_le hrk
      obtain ⟨j, hj⟩ := Nat.exists_eq_add_of_le hkq
      have hm : m = i + j := by omega
      subst hm
      obtain ⟨y, hy, hvalid, -⟩ := h.ups_valid (n := i) (by omega) hx
      obtain ⟨z, hz, -, hback⟩ := h.ups_valid (n := j) (by omega) hvalid
      rw [move_add, move_add, ups_add, hy, Option.bind_some, hz, Option.bind_some, hj, move_down, hback]
  · rw [min_eq_right hkr] at hk
    obtain ⟨i, rfl⟩ := Nat.exists_eq_add_of_le hkr
    rcases Nat.le_total (k + i) q with hrq | hqr
    · obtain ⟨n, rfl⟩ := Nat.exists_eq_add_of_le hrq
      obtain ⟨y, hy, -, hback⟩ := h.ups_valid (n := n) hq hx
      rw [move_add, hy, Option.bind_some, Nat.add_assoc, move_down, downs_add, hback, move_down]
      rfl
    · obtain ⟨j, rfl⟩ := Nat.exists_eq_add_of_le hk
      obtain ⟨n, hn⟩ := Nat.exists_eq_add_of_le hqr
      have hi : i = j + n := by omega
      subst hi
      rw [hn, move_down, ← hn, move_down, downs_add]
      exact congrArg _ (funext fun y => move_down c k j y)

end Chain.Sound

theorem lowest_cons (r q : ℕ) (qs : List ℕ) : lowest r (q :: qs) = min r (lowest q qs) := by
  induction qs with
  | nil => exact min_comm q r
  | cons p qs ih =>
    simp only [lowest, List.foldr_cons] at ih ⊢
    rw [min_left_comm, ih, min_left_comm]

theorem last_cons (r q : ℕ) (qs : List ℕ) : last r (q :: qs) = last q qs := List.getLastD_cons ..

theorem lowest_le (r : ℕ) (qs : List ℕ) : lowest r qs ≤ r := by
  induction qs with
  | nil => exact le_rfl
  | cons q qs ih => exact (min_le_right _ _).trans ih

theorem last_le {qs : List ℕ} (hr : r ≤ top) (hqs : ∀ q ∈ qs, q ≤ top) : last r qs ≤ top := by
  induction qs generalizing r with
  | nil => exact hr
  | cons q qs ih =>
    rw [last_cons]
    exact ih (hqs q (List.mem_cons_self ..)) fun p hp => hqs p (List.mem_cons_of_mem q hp)

theorem lowest_le_last (r : ℕ) (qs : List ℕ) : lowest r qs ≤ last r qs := by
  induction qs generalizing r with
  | nil => exact le_rfl
  | cons q qs ih =>
    rw [lowest_cons, last_cons]
    exact (min_le_right _ _).trans (ih q)

theorem Chain.Sound.path_eq (h : c.Sound Valid top) {qs : List ℕ} (hr : r ≤ top) (hqs : ∀ q ∈ qs, q ≤ top)
    (hx : Valid r x) :
    c.path r qs x = (c.move r (lowest r qs) x).bind (c.move (lowest r qs) (last r qs)) := by
  induction qs generalizing r x with
  | nil =>
    change some x = (c.move r r x).bind (c.move r r)
    rw [move_self, Option.bind_some, move_self]
  | cons q qs ih =>
    have hq := hqs q (List.mem_cons_self ..)
    have hrest : ∀ p ∈ qs, p ≤ top := fun p hp => hqs p (List.mem_cons_of_mem q hp)
    have hlow : lowest q qs ≤ top := (lowest_le q qs).trans hq
    obtain ⟨y, hy, hvalid⟩ := h.move_valid hr hq hx
    have hmove : c.move q (lowest q qs) y = c.move r (lowest q qs) x := by
      rw [← h.move_move hr hq ((min_le_right _ _).trans (lowest_le q qs)) hx, hy, Option.bind_some]
    rw [Chain.path, hy, Option.bind_some, ih hq hrest hvalid, hmove, last_cons, lowest_cons]
    rcases Nat.le_total (lowest q qs) r with hle | hle
    · rw [min_eq_right hle]
    · rw [min_eq_left hle, move_self, Option.bind_some]
      exact h.move_move hr hlow ((min_le_left _ _).trans hle) hx

end Embedai.RevisionChains
