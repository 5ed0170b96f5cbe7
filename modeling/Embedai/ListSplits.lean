import Mathlib.Data.List.Basic

namespace Embedai.ListSplits

variable {α : Type} {l before before' after after' : List α} {a x : α}

theorem concat_eq_split :
    l ++ [x] = before ++ a :: after ↔
      (before = l ∧ a = x ∧ after = []) ∨ ∃ rest, after = rest ++ [x] ∧ l = before ++ a :: rest := by
  constructor
  · intro h
    rcases List.eq_nil_or_concat' after with rfl | ⟨rest, c, rfl⟩
    · obtain ⟨rfl, hlast⟩ := List.append_inj' h rfl
      cases hlast
      exact .inl ⟨rfl, rfl, rfl⟩
    · rw [← List.cons_append, ← List.append_assoc] at h
      obtain ⟨rfl, hlast⟩ := List.append_inj' h rfl
      cases hlast
      exact .inr ⟨rest, rfl, rfl⟩
  · rintro (⟨rfl, rfl, rfl⟩ | ⟨rest, rfl, rfl⟩)
    · rfl
    · rw [List.append_assoc, List.cons_append]

theorem forall_concat_split {p : List α → α → List α → Prop} :
    (∀ before a after, l ++ [x] = before ++ a :: after → p before a after) ↔
      (∀ before a rest, l = before ++ a :: rest → p before a (rest ++ [x])) ∧ p l x [] := by
  constructor
  · intro h
    constructor
    · intro before a rest hl
      exact h before a (rest ++ [x]) (concat_eq_split.mpr (.inr ⟨rest, rfl, hl⟩))
    · exact h l x [] rfl
  · rintro ⟨hl, hx⟩ before a after hsplit
    rcases concat_eq_split.mp hsplit with ⟨rfl, rfl, rfl⟩ | ⟨rest, rfl, hrest⟩
    · exact hx
    · exact hl before a rest hrest

theorem append_cons_inj (hafter : a ∉ after) (hafter' : a ∉ after')
    (h : before ++ a :: after = before' ++ a :: after') : before = before' ∧ after = after' := by
  rcases List.append_eq_append_iff.mp h with ⟨mid, rfl, hmid⟩ | ⟨mid, rfl, hmid⟩
  · cases mid with
    | nil => exact ⟨(List.append_nil _).symm, (List.cons.inj hmid).2⟩
    | cons b mid =>
      rw [(List.cons.inj hmid).2] at hafter
      exact absurd (List.mem_append_right _ (List.mem_cons_self ..)) hafter
  · cases mid with
    | nil => exact ⟨List.append_nil _, (List.cons.inj hmid).2.symm⟩
    | cons b mid =>
      rw [(List.cons.inj hmid).2] at hafter'
      exact absurd (List.mem_append_right _ (List.mem_cons_self ..)) hafter'

theorem eq_of_append_cons (hbefore : a ∉ before) (hbefore' : a ∉ before')
    (h : before ++ a :: after = before' ++ a :: after') : before = before' := by
  rcases List.append_eq_append_iff.mp h with ⟨mid, rfl, hmid⟩ | ⟨mid, rfl, hmid⟩
  · cases mid with
    | nil => exact (List.append_nil _).symm
    | cons b mid =>
      rw [(List.cons.inj hmid).1] at hbefore'
      exact absurd (List.mem_append_right _ (List.mem_cons_self ..)) hbefore'
  · cases mid with
    | nil => exact List.append_nil _
    | cons b mid =>
      rw [(List.cons.inj hmid).1] at hbefore
      exact absurd (List.mem_append_right _ (List.mem_cons_self ..)) hbefore

theorem getElem?_concat (l : List α) (x : α) (i : ℕ) : (l ++ [x])[i]? = if i = l.length then some x else l[i]? := by
  rw [List.getElem?_append]
  split_ifs with hlt heq heq
  · omega
  · rfl
  · rw [heq, Nat.sub_self]
    rfl
  · rw [List.getElem?_eq_none (by rw [List.length_singleton]; omega), List.getElem?_eq_none (by omega)]

end Embedai.ListSplits
