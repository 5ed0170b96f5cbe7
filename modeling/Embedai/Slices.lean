import Mathlib.Data.List.Basic
import Mathlib.Logic.Function.Basic
import Mathlib.Tactic.Common

/-!
Slices of arrays on a heap. A slice starts at the first element of its array; what the array has behind the slice is
its spare capacity.
-/

namespace Embedai.Slices

structure Heap (α : Type) where
  arrays : ℕ → List α
  next : ℕ

structure Slice where
  array : ℕ
  len : ℕ

variable {α : Type}

def Slice.InBounds (h : Heap α) (s : Slice) : Prop := s.array < h.next ∧ s.len ≤ (h.arrays s.array).length

namespace Heap

def empty : Heap α := ⟨fun _ => [], 1⟩

def elems (h : Heap α) (s : Slice) : List α := (h.arrays s.array).take s.len

def store (h : Heap α) (array : ℕ) (xs : List α) : Heap α := { h with arrays := Function.update h.arrays array xs }

def alloc (h : Heap α) (xs : List α) : Heap α := ⟨Function.update h.arrays h.next xs, h.next + 1⟩

def append (zero : α) (grow : ℕ → ℕ) (s : Slice) (a : α) (h : Heap α) : Slice × Heap α :=
  if s.len < (h.arrays s.array).length then
    (⟨s.array, s.len + 1⟩, h.store s.array ((h.arrays s.array).set s.len a))
  else (⟨h.next, s.len + 1⟩, h.alloc (h.elems s ++ a :: List.replicate (grow s.len) zero))

def make (zero : α) (n : ℕ) (h : Heap α) : Slice × Heap α := (⟨h.next, n⟩, h.alloc (List.replicate n zero))

def copy (dst src : Slice) (h : Heap α) : Heap α :=
  h.store dst.array ((h.elems src).take dst.len ++ (h.arrays dst.array).drop (min dst.len src.len))

def sortInPlace (sort : List α → List α) (s : Slice) (h : Heap α) : Heap α :=
  h.store s.array (sort (h.elems s) ++ (h.arrays s.array).drop s.len)

end Heap

/-- The loop that keeps some of the next `k` elements from the `i`th on, and writes them to the `n`th and the following
places. -/
def compact (keep : α → Bool) : ℕ → ℕ → ℕ → List α → ℕ × List α
  | 0, _, n, array => (n, array)
  | k + 1, i, n, array =>
    match array[i]? with
    | none => (n, array)
    | some a => if keep a then compact keep k (i + 1) (n + 1) (array.set n a) else compact keep k (i + 1) n array

def Heap.filterInPlace (keep : α → Bool) (s : Slice) (h : Heap α) : Slice × Heap α :=
  let (n, array) := compact keep s.len 0 0 (h.arrays s.array)
  (⟨s.array, n⟩, h.store s.array array)

structure Compacted (keep : α → Bool) (k i n : ℕ) (array : List α) (p : ℕ × List α) : Prop where
  kept : p.2.take p.1 = array.take n ++ ((array.drop i).take k).filter keep
  length : p.2.length = array.length
  le : p.1 ≤ n + k

theorem take_set_succ {array : List α} {n : ℕ} (a : α) (hn : n < array.length) :
    (array.set n a).take (n + 1) = array.take n ++ [a] := by
  rw [List.take_add_one, List.take_set_of_le (Nat.le_refl n), List.getElem?_set_self hn]
  rfl

theorem compacted {keep : α → Bool} {k i n : ℕ} {array : List α} (hn : n ≤ i) (hi : i + k ≤ array.length) :
    Compacted keep k i n array (compact keep k i n array) := by
  induction k generalizing i n array with
  | zero => exact ⟨by simp [compact], rfl, Nat.le_refl n⟩
  | succ k ih =>
    have hlt : i < array.length := by omega
    have hrest : (array.drop i).take (k + 1) = array[i] :: (array.drop (i + 1)).take k := by
      rw [List.drop_eq_getElem_cons hlt, List.take_succ_cons]
    rw [compact, List.getElem?_eq_getElem hlt]
    dsimp only
    cases hkeep : keep array[i] with
    | true =>
      obtain ⟨hkept, hlength, hle⟩ := @ih (i + 1) (n + 1) (array.set n array[i]) (by omega)
        (by rw [List.length_set]; omega)
      rw [if_pos rfl]
      refine ⟨?_, ?_, by omega⟩
      · rw [hkept, take_set_succ _ (by omega), List.drop_set_of_lt (by omega), hrest, List.filter_cons_of_pos hkeep,
          List.append_assoc, List.singleton_append]
      · rw [hlength, List.length_set]
    | false =>
      obtain ⟨hkept, hlength, hle⟩ := @ih (i + 1) n array (by omega) (by omega)
      rw [if_neg Bool.false_ne_true]
      refine ⟨?_, hlength, by omega⟩
      rw [hkept, hrest, List.filter_cons_of_neg (by simp [hkeep])]

namespace Heap

variable {h : Heap α} {s t : Slice}

@[simp] theorem arrays_store_self (array : ℕ) (xs : List α) : (h.store array xs).arrays array = xs :=
  Function.update_self ..

theorem arrays_store_of_ne {array other : ℕ} (xs : List α) (hne : other ≠ array) :
    (h.store array xs).arrays other = h.arrays other := Function.update_of_ne hne ..

@[simp] theorem arrays_alloc_next (xs : List α) : (h.alloc xs).arrays h.next = xs := Function.update_self ..

theorem arrays_alloc_of_ne {other : ℕ} (xs : List α) (hne : other ≠ h.next) :
    (h.alloc xs).arrays other = h.arrays other := Function.update_of_ne hne ..

theorem length_elems (hs : s.InBounds h) : (h.elems s).length = s.len := by
  rw [elems, List.length_take, Nat.min_eq_left hs.2]

theorem elems_store_of_ne {array : ℕ} (xs : List α) (hne : s.array ≠ array) :
    (h.store array xs).elems s = h.elems s := by
  rw [elems, elems, arrays_store_of_ne xs hne]

theorem inBounds_store_of_ne {array : ℕ} (xs : List α) (hne : s.array ≠ array) (hs : s.InBounds h) :
    s.InBounds (h.store array xs) := by
  refine ⟨hs.1, ?_⟩
  rw [arrays_store_of_ne xs hne]
  exact hs.2

theorem elems_alloc (xs : List α) (hs : s.InBounds h) : (h.alloc xs).elems s = h.elems s := by
  rw [elems, elems, arrays_alloc_of_ne xs (Nat.ne_of_lt hs.1)]

theorem inBounds_alloc (xs : List α) (hs : s.InBounds h) : s.InBounds (h.alloc xs) := by
  refine ⟨Nat.lt_succ_of_lt hs.1, ?_⟩
  rw [arrays_alloc_of_ne xs (Nat.ne_of_lt hs.1)]
  exact hs.2

theorem elems_append (zero : α) (grow : ℕ → ℕ) (a : α) (hs : s.InBounds h) :
    (h.append zero grow s a).2.elems (h.append zero grow s a).1 = h.elems s ++ [a] := by
  unfold append
  split_ifs with hspare
  · rw [elems, arrays_store_self]
    exact take_set_succ a hspare
  · have hlen : s.len + 1 - (h.elems s).length = 1 := by
      rw [length_elems hs]
      omega
    have hall : (h.elems s).length ≤ s.len + 1 := by
      rw [length_elems hs]
      omega
    rw [elems, arrays_alloc_next, List.take_append, List.take_of_length_le hall, hlen, List.take_succ_cons,
      List.take_zero]

theorem inBounds_append (zero : α) (grow : ℕ → ℕ) (a : α) (hs : s.InBounds h) :
    (h.append zero grow s a).1.InBounds (h.append zero grow s a).2 := by
  unfold append
  split_ifs with hspare
  · refine ⟨hs.1, ?_⟩
    rw [arrays_store_self, List.length_set]
    exact hspare
  · refine ⟨Nat.lt_succ_self _, ?_⟩
    rw [arrays_alloc_next, List.length_append, length_elems hs, List.length_cons]
    dsimp only
    omega

theorem compacted_elems (keep : α → Bool) (hs : s.InBounds h) :
    Compacted keep s.len 0 0 (h.arrays s.array) (compact keep s.len 0 0 (h.arrays s.array)) := by
  apply compacted (Nat.le_refl 0)
  rw [Nat.zero_add]
  exact hs.2

theorem elems_filterInPlace (keep : α → Bool) (hs : s.InBounds h) :
    (h.filterInPlace keep s).2.elems (h.filterInPlace keep s).1 = (h.elems s).filter keep := by
  have hkept := (compacted_elems keep hs).kept
  rw [List.take_zero, List.drop_zero, List.nil_append] at hkept
  rw [elems, filterInPlace, arrays_store_self]
  exact hkept

theorem inBounds_filterInPlace (keep : α → Bool) (hs : s.InBounds h) :
    (h.filterInPlace keep s).1.InBounds (h.filterInPlace keep s).2 := by
  obtain ⟨-, hlength, hle⟩ := compacted_elems keep hs
  refine ⟨hs.1, ?_⟩
  rw [filterInPlace, arrays_store_self, hlength]
  have hlen := hs.2
  dsimp only
  omega

def sortedCopy (zero : α) (sort : List α → List α) (s : Slice) (h : Heap α) : Slice × Heap α :=
  let (snapshot, h) := h.make zero s.len
  (snapshot, (h.copy snapshot s).sortInPlace sort snapshot)

theorem elems_copy (hlen : t.len = s.len) (hs : s.InBounds h) : (h.copy t s).elems t = h.elems s := by
  have hlength : (h.elems s).length = t.len := by rw [length_elems hs, hlen]
  rw [elems, copy, arrays_store_self, List.take_append_of_le_length, List.take_take, Nat.min_self,
    List.take_of_length_le (Nat.le_of_eq hlength)]
  apply Nat.le_of_eq
  rw [List.length_take, hlength, Nat.min_self]

theorem elems_sortInPlace {sort : List α → List α} (hsort : ∀ xs, (sort xs).length = xs.length) (hs : s.InBounds h) :
    (h.sortInPlace sort s).elems s = sort (h.elems s) := by
  have hlength : (sort (h.elems s)).length = s.len := by rw [hsort, length_elems hs]
  rw [elems, sortInPlace, arrays_store_self, List.take_append_of_le_length (Nat.le_of_eq hlength.symm),
    List.take_of_length_le (Nat.le_of_eq hlength)]

theorem inBounds_make (zero : α) (n : ℕ) : (h.make zero n).1.InBounds (h.make zero n).2 := by
  refine ⟨Nat.lt_succ_self _, ?_⟩
  apply Nat.le_of_eq
  rw [make, arrays_alloc_next, List.length_replicate]

theorem inBounds_copy (hs : s.InBounds h) (ht : t.InBounds h) : t.InBounds (h.copy t s) := by
  refine ⟨ht.1, ?_⟩
  rw [copy, arrays_store_self, List.length_append, List.length_take, List.length_drop, length_elems hs]
  have hlen := ht.2
  omega

theorem sortedCopy_spec (zero : α) {sort : List α → List α} (hsort : ∀ xs, (sort xs).length = xs.length)
    (hs : s.InBounds h) :
    (h.sortedCopy zero sort s).2.elems (h.sortedCopy zero sort s).1 = sort (h.elems s) ∧
      (h.sortedCopy zero sort s).2.elems s = h.elems s ∧ s.InBounds (h.sortedCopy zero sort s).2 := by
  have hne : s.array ≠ (h.make zero s.len).1.array := Nat.ne_of_lt hs.1
  have hmade : s.InBounds (h.make zero s.len).2 := inBounds_alloc _ hs
  have hsame : (h.make zero s.len).2.elems s = h.elems s := elems_alloc _ hs
  refine ⟨?_, ?_, ?_⟩
  · apply (elems_sortInPlace hsort (inBounds_copy hmade (inBounds_make zero s.len))).trans
    rw [elems_copy (s := s) (t := (h.make zero s.len).1) rfl hmade, hsame]
  · apply (elems_store_of_ne _ hne).trans
    apply (elems_store_of_ne _ hne).trans
    exact hsame
  · exact inBounds_store_of_ne _ hne (inBounds_store_of_ne _ hne hmade)

end Heap

end Embedai.Slices
