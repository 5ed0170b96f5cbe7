import Mathlib.Data.List.Nodup
import Mathlib.Data.List.Perm.Basic
import Mathlib.Tactic.Common

namespace Embedai.SortedPages

variable {α : Type}

structure SortedAs (le : α → α → Bool) (l rows : List α) : Prop where
  perm : rows.Perm l
  sorted : rows.Pairwise (fun a b => le a b = true)

def before (le : α → α → Bool) (l : List α) (a : α) : ℕ := l.countP (fun b => !le a b)

def upTo (le : α → α → Bool) (l : List α) (a : α) : ℕ := l.countP (fun b => le b a)

def page (size p : ℕ) (rows : List α) : List α := (rows.drop (p * size)).take size

def Torn (le : α → α → Bool) (l : List α) (size : ℕ) : Prop :=
  ∃ a ∈ l, ∃ p, before le l a < p * size ∧ p * size < upTo le l a

theorem mem_page {size p : ℕ} {rows : List α} {a : α} (hsize : 0 < size) :
    a ∈ page size p rows ↔ ∃ i, rows[i]? = some a ∧ i / size = p := by
  constructor
  · intro ha
    obtain ⟨j, hj⟩ := List.mem_iff_getElem?.mp ha
    rw [page, List.getElem?_take] at hj
    split_ifs at hj with hlt
    rw [List.getElem?_drop] at hj
    refine ⟨p * size + j, hj, ?_⟩
    rw [Nat.mul_comm, Nat.mul_add_div hsize, Nat.div_eq_of_lt hlt, Nat.add_zero]
  · rintro ⟨i, hi, rfl⟩
    apply List.mem_iff_getElem?.mpr
    refine ⟨i % size, ?_⟩
    rw [page, List.getElem?_take, if_pos (Nat.mod_lt i hsize), List.getElem?_drop, Nat.div_add_mod']
    exact hi

theorem lt_countP_iff {p : α → Bool} {l : List α} {i : ℕ} {a : α}
    (hfirst : l.Pairwise fun a b => p b = true → p a = true) (hi : l[i]? = some a) :
    i < l.countP p ↔ p a = true := by
  induction l generalizing i with
  | nil =>
    rw [List.getElem?_nil] at hi
    cases hi
  | cons b l ih =>
    obtain ⟨hhead, htail⟩ := List.pairwise_cons.mp hfirst
    by_cases hb : p b = true
    · rw [List.countP_cons_of_pos hb]
      cases i with
      | zero =>
        cases hi
        exact iff_of_true (Nat.succ_pos _) hb
      | succ i =>
        rw [List.getElem?_cons_succ] at hi
        rw [Nat.add_lt_add_iff_right]
        exact ih htail hi
    · have hnone : ∀ c ∈ b :: l, ¬ p c = true := by
        intro c hc hpc
        rcases List.mem_cons.mp hc with rfl | hc
        · exact hb hpc
        · exact hb (hhead c hc hpc)
      rw [List.countP_eq_zero.mpr hnone]
      exact iff_of_false (Nat.not_lt_zero i) (hnone a (List.mem_of_getElem? hi))

section Order

variable {le : α → α → Bool} (htrans : ∀ a b c, le a b = true → le b c = true → le a c = true)
  (htotal : ∀ a b, (le a b || le b a) = true)

include htotal in
theorem le_self (a : α) : le a a = true := by simpa only [Bool.or_self] using htotal a a

section Places

variable {l rows : List α} {i : ℕ} {a b : α}

include htrans

theorem lt_upTo_iff (h : SortedAs le l rows) (hb : rows[i]? = some b) : i < upTo le l a ↔ le b a = true := by
  rw [upTo, ← h.perm.countP_eq]
  exact lt_countP_iff (h.sorted.imp fun hxy hy => htrans _ _ _ hxy hy) hb

theorem before_le_iff (h : SortedAs le l rows) (hb : rows[i]? = some b) : before le l a ≤ i ↔ le a b = true := by
  have hfirst : rows.Pairwise fun x y => (!le a y) = true → (!le a x) = true := by
    apply h.sorted.imp
    intro x y hxy hy
    rw [Bool.not_eq_true'] at hy ⊢
    cases hx : le a x with
    | false => rfl
    | true =>
      rw [htrans a x y hx hxy] at hy
      cases hy
  rw [before, ← h.perm.countP_eq, ← Nat.not_lt, lt_countP_iff hfirst hb, Bool.not_eq_true', Bool.not_eq_false]

include htotal

theorem place_bounds (h : SortedAs le l rows) (ha : rows[i]? = some a) : before le l a ≤ i ∧ i < upTo le l a :=
  ⟨(before_le_iff htrans h ha).mpr (le_self htotal a), (lt_upTo_iff htrans h ha).mpr (le_self htotal a)⟩

end Places

section Pages

variable {l rows : List α} {size i p : ℕ} {a x y : α}

include htrans htotal

theorem mem_page_iff (hsize : 0 < size) (hwhole : ¬ Torn le l size) (h : SortedAs le l rows) :
    a ∈ page size p rows ↔ a ∈ l ∧ before le l a / size = p := by
  have hplace : ∀ i, rows[i]? = some a → i / size = before le l a / size := by
    intro i hi
    obtain ⟨hbefore, hupTo⟩ := place_bounds htrans htotal h hi
    apply Nat.le_antisymm _ (Nat.div_le_div_right hbefore)
    by_contra hlt
    have hborder : before le l a < i / size * size := (Nat.div_lt_iff_lt_mul hsize).mp (Nat.not_le.mp hlt)
    have hle : i / size * size ≤ i := Nat.div_mul_le_self i size
    exact hwhole ⟨a, h.perm.mem_iff.mp (List.mem_of_getElem? hi), i / size, hborder, Nat.lt_of_le_of_lt hle hupTo⟩
  rw [mem_page hsize]
  constructor
  · rintro ⟨i, hi, rfl⟩
    exact ⟨h.perm.mem_iff.mp (List.mem_of_getElem? hi), (hplace i hi).symm⟩
  · rintro ⟨ha, rfl⟩
    obtain ⟨i, hi⟩ := List.mem_iff_getElem?.mp (h.perm.mem_iff.mpr ha)
    exact ⟨i, hi, hplace i hi⟩

theorem exists_sortedAs (l : List α) : ∃ rows, SortedAs le l rows :=
  ⟨l.mergeSort le, List.mergeSort_perm l le, List.pairwise_mergeSort htrans htotal l⟩

theorem before_lt_length (ha : a ∈ l) : before le l a < l.length := by
  obtain ⟨rows, h⟩ := exists_sortedAs htrans htotal l
  obtain ⟨i, hi⟩ := List.mem_iff_getElem?.mp (h.perm.mem_iff.mpr ha)
  have hlength := (List.getElem?_eq_some_iff.mp hi).1
  rw [h.perm.length_eq] at hlength
  exact Nat.lt_of_le_of_lt (place_bounds htrans htotal h hi).1 hlength

omit htrans htotal in
theorem exists_swapped (h : SortedAs le l rows) (hx : rows[i]? = some x) (hy : rows[i + 1]? = some y)
    (hyx : le y x = true) : ∃ rows', SortedAs le l rows' ∧ rows'[i + 1]? = some x := by
  obtain ⟨hi, hx⟩ := List.getElem?_eq_some_iff.mp hx
  obtain ⟨hi', hy⟩ := List.getElem?_eq_some_iff.mp hy
  have hsplit : rows = rows.take i ++ x :: y :: rows.drop (i + 2) := by
    rw [← hx, ← hy, ← List.drop_eq_getElem_cons hi', ← List.drop_eq_getElem_cons hi, List.take_append_drop]
  have hsorted := h.sorted
  have hperm := h.perm
  rw [hsplit] at hsorted hperm
  obtain ⟨hfront, htail, hacross⟩ := List.pairwise_append.mp hsorted
  obtain ⟨hxall, htail⟩ := List.pairwise_cons.mp htail
  obtain ⟨hyall, hback⟩ := List.pairwise_cons.mp htail
  have hswap : (y :: x :: rows.drop (i + 2)).Perm (x :: y :: rows.drop (i + 2)) := List.Perm.swap ..
  refine ⟨rows.take i ++ y :: x :: rows.drop (i + 2), ⟨(hswap.append_left _).trans hperm, ?_⟩, ?_⟩
  · apply List.pairwise_append.mpr
    refine ⟨hfront, List.pairwise_cons.mpr ⟨?_, List.pairwise_cons.mpr ⟨?_, hback⟩⟩, ?_⟩
    · intro z hz
      rcases List.mem_cons.mp hz with rfl | hz
      · exact hyx
      · exact hyall z hz
    · intro z hz
      exact hxall z (List.mem_cons_of_mem _ hz)
    · intro w hw z hz
      exact hacross w hw z (hswap.mem_iff.mp hz)
  · have hlength : (rows.take i).length = i := List.length_take_of_le (Nat.le_of_lt hi)
    rw [List.getElem?_append_right (by omega), hlength, Nat.add_sub_cancel_left]
    rfl

theorem exists_on_both_pages (hsize : 0 < size) (hbefore : before le l a < (p + 1) * size)
    (hupTo : (p + 1) * size < upTo le l a) :
    ∃ x rows rows', SortedAs le l rows ∧ SortedAs le l rows' ∧ x ∈ page size p rows ∧ x ∈ page size (p + 1) rows' := by
  obtain ⟨rows, h⟩ := exists_sortedAs htrans htotal l
  have hlength : upTo le l a ≤ rows.length := by
    rw [h.perm.length_eq]
    exact List.countP_le_length
  obtain ⟨i, hborder⟩ : ∃ i, (p + 1) * size = i + 1 :=
    Nat.exists_eq_succ_of_ne_zero (Nat.mul_ne_zero (by omega) (by omega))
  have hx : rows[i]? = some rows[i] := List.getElem?_eq_getElem (by omega)
  have hy : rows[i + 1]? = some rows[i + 1] := List.getElem?_eq_getElem (by omega)
  have hyx : le rows[i + 1] rows[i] = true := by
    apply htrans _ a
    · exact (lt_upTo_iff htrans h hy).mp (by omega)
    · exact (before_le_iff htrans h hx).mp (by omega)
  obtain ⟨rows', h', hx'⟩ := exists_swapped h hx hy hyx
  refine ⟨rows[i], rows, rows', h, h', (mem_page hsize).mpr ⟨i, hx, ?_⟩, (mem_page hsize).mpr ⟨i + 1, hx', ?_⟩⟩
  · have hi : i = size * p + (size - 1) := by
      rw [Nat.add_mul, Nat.one_mul, Nat.mul_comm] at hborder
      omega
    rw [hi, Nat.mul_add_div hsize, Nat.div_eq_of_lt (by omega), Nat.add_zero]
  · rw [← hborder, Nat.mul_div_cancel _ hsize]

theorem not_torn {pages : ℕ} (hsize : 0 < size) (hpages : l.length ≤ pages * size)
    (honce : ∀ rows : ℕ → List α, (∀ p, SortedAs le l (rows p)) →
      ((List.range pages).flatMap fun p => page size p (rows p)).Nodup) : ¬ Torn le l size := by
  rintro ⟨a, -, border, hbefore, hupTo⟩
  obtain ⟨p, rfl⟩ : ∃ p, border = p + 1 := by
    apply Nat.exists_eq_succ_of_ne_zero
    rintro rfl
    omega
  obtain ⟨x, rows, rows', h, h', hx, hx'⟩ := exists_on_both_pages htrans htotal hsize hbefore hupTo
  have hlast : p + 1 < pages := by
    have hlength : upTo le l a ≤ l.length := List.countP_le_length
    exact Nat.lt_of_mul_lt_mul_right (a := size) (by omega)
  let orders : ℕ → List α := fun q => if q = p then rows else rows'
  have horders : ∀ q, SortedAs le l (orders q) := by
    intro q
    dsimp only [orders]
    split_ifs
    · exact h
    · exact h'
  have hapart := List.pairwise_iff_getElem.mp (List.nodup_flatMap.mp (honce orders horders)).2 p (p + 1)
    (by rw [List.length_range]; omega) (by rw [List.length_range]; omega) (by omega)
  rw [List.getElem_range, List.getElem_range] at hapart
  apply hapart (a := x)
  · simpa only [orders, if_pos] using hx
  · simpa only [orders, if_neg (Nat.succ_ne_self p)] using hx'

theorem pages_perm {pages : ℕ} (hsize : 0 < size) (hnodup : l.Nodup) (hpages : l.length ≤ pages * size)
    (hwhole : ¬ Torn le l size) {rows : ℕ → List α} (h : ∀ p, SortedAs le l (rows p)) :
    ((List.range pages).flatMap fun p => page size p (rows p)).Perm l := by
  have hmem : ∀ a p, a ∈ page size p (rows p) ↔ a ∈ l ∧ before le l a / size = p :=
    fun a p => mem_page_iff htrans htotal hsize hwhole (h p)
  have hshown : ((List.range pages).flatMap fun p => page size p (rows p)).Nodup := by
    apply List.nodup_flatMap.mpr
    constructor
    · intro p _
      have hsub : (page size p (rows p)).Sublist (rows p) := (List.take_sublist ..).trans (List.drop_sublist ..)
      exact ((h p).perm.nodup_iff.mpr hnodup).sublist hsub
    · apply List.pairwise_lt_range.imp
      intro p q hlt a hp hq
      exact Nat.ne_of_lt hlt (((hmem a p).mp hp).2.symm.trans ((hmem a q).mp hq).2)
  apply (List.perm_ext_iff_of_nodup hshown hnodup).mpr
  intro a
  rw [List.mem_flatMap]
  constructor
  · rintro ⟨p, -, hp⟩
    exact ((hmem a p).mp hp).1
  · intro ha
    refine ⟨before le l a / size, List.mem_range.mpr ?_, (hmem a _).mpr ⟨ha, rfl⟩⟩
    apply (Nat.div_lt_iff_lt_mul hsize).mpr
    exact Nat.lt_of_lt_of_le (before_lt_length htrans htotal ha) hpages

end Pages

end Order

end Embedai.SortedPages
