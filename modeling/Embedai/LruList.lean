import Mathlib.Data.List.Nodup

namespace Embedai

structure LruList (κ : Type) (capacity : ℕ) where
  keys : List κ
  nodup : keys.Nodup
  bounded : keys.length ≤ capacity

namespace LruList

variable {κ : Type} {capacity : ℕ}

def empty (κ : Type) (capacity : ℕ) : LruList κ capacity := ⟨[], List.nodup_nil, Nat.zero_le _⟩

def overflow (l : LruList κ capacity) : ℕ := l.keys.length + 1 - capacity

def insertLast (l : LruList κ capacity) (k : κ) (h : k ∉ l.keys) : LruList κ capacity :=
  ⟨(l.keys ++ [k]).drop l.overflow, by
    apply List.Nodup.sublist (List.drop_sublist ..)
    apply List.Nodup.append l.nodup (List.nodup_singleton k)
    exact List.disjoint_singleton.mpr h, by
    rw [List.length_drop, List.length_append, List.length_singleton, overflow]
    omega⟩

theorem keys_insertLast (l : LruList κ capacity) {k : κ} (h : k ∉ l.keys) (hc : 1 ≤ capacity) :
    (l.insertLast k h).keys = l.keys.drop l.overflow ++ [k] := by
  apply List.drop_append_of_le_length
  rw [overflow]
  omega

theorem mem_drop_keys {l : LruList κ capacity} {n : ℕ} {k : κ} :
    k ∈ l.keys.drop n ↔ k ∈ l.keys ∧ k ∉ l.keys.take n := by
  constructor
  · intro hk
    exact ⟨List.mem_of_mem_drop hk, fun ht => List.disjoint_take_drop l.nodup (Nat.le_refl n) ht hk⟩
  · rintro ⟨hk, hn⟩
    rw [← List.take_append_drop n l.keys, List.mem_append] at hk
    exact hk.resolve_left hn

variable [DecidableEq κ]

def use (l : LruList κ capacity) (k : κ) (h : k ∈ l.keys) : LruList κ capacity :=
  ⟨l.keys.erase k ++ [k], by
    apply List.Nodup.append (l.nodup.erase k) (List.nodup_singleton k)
    exact List.disjoint_singleton.mpr l.nodup.not_mem_erase, by
    have hpos := List.length_pos_of_mem h
    have hbounded := l.bounded
    rw [List.length_append, List.length_singleton, List.length_erase_of_mem h]
    omega⟩

/-- One request; `loads` says whether the key can be brought in when it is missing. -/
def access (l : LruList κ capacity) (k : κ) (loads : Bool) : LruList κ capacity :=
  if h : k ∈ l.keys then l.use k h
  else if loads then l.insertLast k h
  else l

def serve (l : LruList κ capacity) : List (κ × Bool) → LruList κ capacity
  | [] => l
  | (k, loads) :: rest => (l.access k loads).serve rest

def misses (l : LruList κ capacity) : List (κ × Bool) → List κ
  | [] => []
  | (k, loads) :: rest =>
    if k ∈ l.keys then (l.access k loads).misses rest else k :: (l.access k loads).misses rest

theorem access_of_mem {l : LruList κ capacity} {k : κ} (h : k ∈ l.keys) (loads : Bool) :
    l.access k loads = l.use k h := by
  rw [access, dif_pos h]

theorem access_of_loads {l : LruList κ capacity} {k : κ} (h : k ∉ l.keys) : l.access k true = l.insertLast k h := by
  rw [access, dif_neg h, if_pos rfl]

theorem access_of_fails {l : LruList κ capacity} {k : κ} (h : k ∉ l.keys) : l.access k false = l := by
  rw [access, dif_neg h]
  exact if_neg Bool.false_ne_true

theorem mem_use {l : LruList κ capacity} {k : κ} (h : k ∈ l.keys) {j : κ} : j ∈ (l.use k h).keys ↔ j ∈ l.keys := by
  rw [use, List.mem_append, List.mem_singleton, l.nodup.mem_erase_iff]
  constructor
  · rintro (⟨-, hj⟩ | rfl)
    · exact hj
    · exact h
  · intro hj
    by_cases hjk : j = k
    · exact Or.inr hjk
    · exact Or.inl ⟨hjk, hj⟩

theorem mem_access {l : LruList κ capacity} {k j : κ} {loads : Bool} (h : j ∈ (l.access k loads).keys) :
    j ∈ l.keys ∨ j = k := by
  unfold access at h
  split_ifs at h with hk
  · exact Or.inl ((mem_use hk).mp h)
  · have hmem := List.mem_of_mem_drop h
    rw [List.mem_append, List.mem_singleton] at hmem
    exact hmem
  · exact Or.inl h

end LruList

end Embedai
