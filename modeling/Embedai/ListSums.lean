import Mathlib.Algebra.BigOperators.Group.List.Basic
import Mathlib.Algebra.GroupWithZero.Nat
import Embedai.OrderedDict

namespace Embedai.ListSums

variable {α κ : Type} [DecidableEq κ]

theorem sum_map_single (f : κ → ℕ) {keys : List κ} (hnodup : keys.Nodup) {k : κ} (hk : k ∈ keys)
    (hzero : ∀ j, j ≠ k → f j = 0) : (keys.map f).sum = f k := by
  rw [List.sum_map_eq_nsmul_single k f (fun j hj _ => hzero j hj), List.count_eq_one_of_mem hnodup hk, one_nsmul]

theorem sum_fibers (key : α → κ) (f : α → ℕ) (l : List α) {keys : List κ} (hnodup : keys.Nodup)
    (hcovered : ∀ a ∈ l, key a ∈ keys) :
    (keys.map fun k => ((l.filter fun a => key a = k).map f).sum).sum = (l.map f).sum := by
  induction l with
  | nil => simp
  | cons a l ih =>
    have hfirst : (keys.map fun k => if key a = k then f a else 0).sum = f a := by
      rw [sum_map_single _ hnodup (hcovered a (List.mem_cons_self ..)) (fun j hj => if_neg hj.symm), if_pos rfl]
    have hrest := ih fun b hb => hcovered b (List.mem_cons_of_mem _ hb)
    rw [List.map_cons (f := f), List.sum_cons, ← hrest, ← hfirst, ← List.sum_map_add]
    congr 1
    apply List.map_congr_left
    intro k _
    by_cases hk : key a = k <;> simp [hk]

theorem values_of_key (d : OrderedDict κ ℕ) (k : κ) :
    (d.items.filter fun p => p.1 = k).map Prod.snd = (d.get? k).toList := by
  cases h : d.get? k with
  | none =>
    have hnone : d.items.filter (fun p => p.1 = k) = [] := by
      apply List.filter_eq_nil_iff.mpr
      intro p hp hk
      rw [decide_eq_true_eq] at hk
      exact OrderedDict.get?_eq_none.mp h (hk ▸ List.mem_map_of_mem hp)
    rw [hnone]
    rfl
  | some v =>
    have hone : (d.items.filter fun p => p.1 = k).Perm [(k, v)] := by
      apply (List.perm_ext_iff_of_nodup (d.nodup.of_map.filter _) (List.nodup_singleton _)).mpr
      rintro ⟨j, w⟩
      simp only [List.mem_filter, OrderedDict.mem_items, decide_eq_true_eq, List.mem_singleton, Prod.mk.injEq]
      constructor
      · rintro ⟨hw, rfl⟩
        rw [h] at hw
        cases hw
        exact ⟨rfl, rfl⟩
      · rintro ⟨rfl, rfl⟩
        exact ⟨h, rfl⟩
    rw [List.perm_singleton.mp hone]
    rfl

theorem sum_getD (d : OrderedDict κ ℕ) {keys : List κ} (hnodup : keys.Nodup) (hkeys : ∀ k ∈ d.keys, k ∈ keys) :
    (keys.map fun k => (d.get? k).getD 0).sum = d.values.sum := by
  rw [OrderedDict.values,
    ← sum_fibers Prod.fst Prod.snd d.items hnodup fun p hp => hkeys p.1 (List.mem_map_of_mem hp)]
  congr 1
  apply List.map_congr_left
  intro k _
  rw [values_of_key]
  cases d.get? k <;> rfl

def tally (l : List κ) : OrderedDict κ ℕ := l.foldl (fun d k => d.set k ((d.get? k).getD 0 + 1)) OrderedDict.empty

theorem get?_foldl_tally (l : List κ) (d : OrderedDict κ ℕ) (k : κ) :
    ((l.foldl (fun d k => d.set k ((d.get? k).getD 0 + 1)) d).get? k).getD 0 = (d.get? k).getD 0 + l.count k := by
  induction l generalizing d with
  | nil => rfl
  | cons j l ih =>
    rw [List.foldl_cons, ih, OrderedDict.get?_set]
    by_cases hk : k = j
    · subst hk
      rw [if_pos rfl, List.count_cons_self, Option.getD_some]
      omega
    · rw [if_neg hk, List.count_cons_of_ne (Ne.symm hk)]

theorem get?_tally (l : List κ) (k : κ) : ((tally l).get? k).getD 0 = l.count k := by
  rw [tally, get?_foldl_tally]
  exact Nat.zero_add _

end Embedai.ListSums
