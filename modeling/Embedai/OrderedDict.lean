import Mathlib.Data.List.Nodup

namespace Embedai

/-- A dictionary that keeps its keys in insertion order and holds each key once. -/
structure OrderedDict (κ ν : Type) where
  items : List (κ × ν)
  nodup : (items.map Prod.fst).Nodup

namespace OrderedDict

variable {κ ν : Type}

def empty : OrderedDict κ ν := ⟨[], List.nodup_nil⟩

def length (d : OrderedDict κ ν) : ℕ := d.items.length

def keys (d : OrderedDict κ ν) : List κ := d.items.map Prod.fst

def values (d : OrderedDict κ ν) : List ν := d.items.map Prod.snd

def append (d : OrderedDict κ ν) (k : κ) (v : ν) (h : k ∉ d.keys) : OrderedDict κ ν :=
  ⟨d.items ++ [(k, v)], by
    rw [List.map_append, List.nodup_append]
    refine ⟨d.nodup, List.nodup_singleton k, ?_⟩
    intro a ha b hb he
    rw [List.map_cons, List.map_nil, List.mem_singleton] at hb
    subst hb he
    exact h ha⟩

def single (k : κ) (v : ν) : OrderedDict κ ν := ⟨[(k, v)], List.nodup_singleton k⟩

def mapValues {μ : Type} (d : OrderedDict κ ν) (f : ν → μ) : OrderedDict κ μ :=
  ⟨d.items.map (fun p => (p.1, f p.2)), by
    rw [List.map_map]
    exact d.nodup⟩

theorem nodup_keys (d : OrderedDict κ ν) : d.keys.Nodup := d.nodup

theorem length_keys (d : OrderedDict κ ν) : d.keys.length = d.length := List.length_map _

@[simp]
theorem length_append (d : OrderedDict κ ν) (k : κ) (v : ν) (h : k ∉ d.keys) :
    (d.append k v h).length = d.length + 1 := by
  simp [append, length]

theorem keys_append (d : OrderedDict κ ν) (k : κ) (v : ν) (h : k ∉ d.keys) : (d.append k v h).keys = d.keys ++ [k] :=
  List.map_append

theorem values_append (d : OrderedDict κ ν) (k : κ) (v : ν) (h : k ∉ d.keys) :
    (d.append k v h).values = d.values ++ [v] :=
  List.map_append

variable [DecidableEq κ]

def get? (d : OrderedDict κ ν) (k : κ) : Option ν := (d.items.find? (fun p => p.1 = k)).map Prod.snd

def erase (d : OrderedDict κ ν) (k : κ) : OrderedDict κ ν :=
  ⟨d.items.filter (fun p => p.1 ≠ k), d.nodup.sublist (List.filter_sublist.map _)⟩

theorem fst_modified (items : List (κ × ν)) (k : κ) (f : ν → ν) :
    (items.map (fun p => if p.1 = k then (p.1, f p.2) else p)).map Prod.fst = items.map Prod.fst := by
  rw [List.map_map]
  congr 1
  funext p
  by_cases hp : p.1 = k <;> simp [hp]

def modify (d : OrderedDict κ ν) (k : κ) (f : ν → ν) : OrderedDict κ ν :=
  ⟨d.items.map (fun p => if p.1 = k then (p.1, f p.2) else p), by
    rw [fst_modified]
    exact d.nodup⟩

def set (d : OrderedDict κ ν) (k : κ) (v : ν) : OrderedDict κ ν :=
  if h : k ∈ d.keys then d.modify k (fun _ => v) else d.append k v h

/-- Without a value the key is taken out. -/
def assign (d : OrderedDict κ ν) (k : κ) (v : Option ν) : OrderedDict κ ν :=
  match v with
  | some v => d.set k v
  | none => d.erase k

theorem not_mem_keys_erase (d : OrderedDict κ ν) (k : κ) : k ∉ (d.erase k).keys := by
  simp [keys, erase]

def moveToEnd (d : OrderedDict κ ν) (k : κ) : OrderedDict κ ν :=
  match d.get? k with
  | none => d
  | some v => (d.erase k).append k v (d.not_mem_keys_erase k)

theorem mem_items {d : OrderedDict κ ν} {k : κ} {v : ν} : (k, v) ∈ d.items ↔ d.get? k = some v := by
  simp only [get?, Option.map_eq_some_iff]
  constructor
  · intro h
    have hsome : (d.items.find? (fun p => p.1 = k)).isSome := by
      rw [List.find?_isSome]
      exact ⟨(k, v), h, by simp⟩
    obtain ⟨p, hp⟩ := Option.isSome_iff_exists.mp hsome
    have hk : p.1 = k := by simpa using List.find?_some hp
    -- the key occurs once, so the first occurrence is the given one
    have he : p = (k, v) := List.inj_on_of_nodup_map d.nodup (List.mem_of_find?_eq_some hp) h hk
    exact ⟨p, hp, by rw [he]⟩
  · rintro ⟨p, hp, rfl⟩
    have hk : p.1 = k := by simpa using List.find?_some hp
    have := List.mem_of_find?_eq_some hp
    rw [← hk]
    exact this

theorem mem_keys {d : OrderedDict κ ν} {k : κ} : k ∈ d.keys ↔ ∃ v, d.get? k = some v := by
  simp only [keys, List.mem_map, Prod.exists, exists_and_right, exists_eq_right, mem_items]

theorem get?_eq_none {d : OrderedDict κ ν} {k : κ} : d.get? k = none ↔ k ∉ d.keys := by
  rw [mem_keys, Option.eq_none_iff_forall_ne_some, not_exists]

theorem mem_values {d : OrderedDict κ ν} {v : ν} : v ∈ d.values ↔ ∃ k, d.get? k = some v := by
  simp only [values, List.mem_map, Prod.exists, exists_eq_right, mem_items]

theorem get?_erase (d : OrderedDict κ ν) (k j : κ) :
    (d.erase k).get? j = if j = k then none else d.get? j := by
  ext v
  rw [← mem_items]
  by_cases hj : j = k
  · simp [erase, hj]
  · simp [erase, hj, mem_items]

theorem get?_append (d : OrderedDict κ ν) (k j : κ) (v : ν) (h : k ∉ d.keys) :
    (d.append k v h).get? j = if j = k then some v else d.get? j := by
  ext w
  rw [← mem_items]
  by_cases hj : j = k
  · subst hj
    have hd : (j, w) ∉ d.items := fun hw => h (List.mem_map_of_mem (f := Prod.fst) hw)
    simp [append, hd, eq_comm]
  · simp [append, hj, mem_items]

theorem get?_modify (d : OrderedDict κ ν) (k j : κ) (f : ν → ν) :
    (d.modify k f).get? j = if j = k then (d.get? j).map f else d.get? j := by
  ext v
  rw [← mem_items]
  simp only [modify, List.mem_map, Prod.exists]
  by_cases hj : j = k
  · subst hj
    rw [if_pos rfl, Option.map_eq_some_iff]
    constructor
    · rintro ⟨i, w, hw, he⟩
      by_cases hi : i = j
      · rw [if_pos hi, Prod.mk.injEq] at he
        exact ⟨w, mem_items.mp (hi ▸ hw), he.2⟩
      · rw [if_neg hi, Prod.mk.injEq] at he
        exact absurd he.1 hi
    · rintro ⟨w, hw, rfl⟩
      exact ⟨j, w, mem_items.mpr hw, if_pos rfl⟩
  · rw [if_neg hj]
    constructor
    · rintro ⟨i, w, hw, he⟩
      by_cases hi : i = k
      · rw [if_pos hi, Prod.mk.injEq] at he
        exact absurd (he.1.symm.trans hi) hj
      · rw [if_neg hi, Prod.mk.injEq] at he
        exact mem_items.mp (he.1 ▸ he.2 ▸ hw)
    · intro hv
      exact ⟨j, v, mem_items.mpr hv, if_neg hj⟩

theorem modify_modify (d : OrderedDict κ ν) (k : κ) (f g : ν → ν) :
    (d.modify k f).modify k g = d.modify k (fun v => g (f v)) := by
  unfold modify
  congr 1
  rw [List.map_map]
  congr 1
  funext p
  by_cases hp : p.1 = k <;> simp [hp]

theorem get?_set (d : OrderedDict κ ν) (k j : κ) (v : ν) :
    (d.set k v).get? j = if j = k then some v else d.get? j := by
  unfold set
  split_ifs with hk hj hj
  · obtain ⟨w, hw⟩ := mem_keys.mp hk
    rw [get?_modify, if_pos hj, hj, hw]
    rfl
  · rw [get?_modify, if_neg hj]
  · rw [get?_append, if_pos hj]
  · rw [get?_append, if_neg hj]

@[simp]
theorem get?_moveToEnd (d : OrderedDict κ ν) (k j : κ) : (d.moveToEnd k).get? j = d.get? j := by
  unfold moveToEnd
  split
  · rfl
  · rename_i v hv
    rw [get?_append, get?_erase]
    by_cases hj : j = k
    · simp [hj, hv]
    · simp [hj]

theorem get?_mapValues {μ : Type} (d : OrderedDict κ ν) (f : ν → μ) (k : κ) :
    (d.mapValues f).get? k = (d.get? k).map f := by
  ext w
  rw [← mem_items, Option.map_eq_some_iff]
  simp only [mapValues, List.mem_map, Prod.exists, Prod.mk.injEq]
  constructor
  · rintro ⟨j, v, hv, rfl, rfl⟩
    exact ⟨v, mem_items.mp hv, rfl⟩
  · rintro ⟨v, hv, rfl⟩
    exact ⟨k, v, mem_items.mpr hv, rfl, rfl⟩

theorem length_erase_le (d : OrderedDict κ ν) (k : κ) : (d.erase k).length ≤ d.length :=
  List.length_filter_le _ _

@[simp]
theorem length_modify (d : OrderedDict κ ν) (k : κ) (f : ν → ν) : (d.modify k f).length = d.length :=
  List.length_map _

theorem length_set_le (d : OrderedDict κ ν) (k : κ) (v : ν) : (d.set k v).length ≤ d.length + 1 := by
  unfold set
  split_ifs with hk
  · rw [length_modify]
    omega
  · exact Nat.le_of_eq (length_append d k v hk)

theorem keys_erase (d : OrderedDict κ ν) (k : κ) : (d.erase k).keys = d.keys.erase k := by
  have h : d.keys.erase k = d.keys.filter (fun j => j != k) := List.Nodup.erase_eq_filter d.nodup k
  rw [h, keys, keys, List.filter_map]
  simp only [erase, ne_eq, decide_not]
  rfl

theorem mem_keys_erase {d : OrderedDict κ ν} {k j : κ} : j ∈ (d.erase k).keys ↔ j ≠ k ∧ j ∈ d.keys := by
  rw [keys_erase]
  exact List.Nodup.mem_erase_iff d.nodup

theorem length_erase {d : OrderedDict κ ν} {k : κ} (h : k ∈ d.keys) :
    (d.erase k).length + 1 = d.length := by
  have hl := List.length_erase_of_mem h
  have hp := List.length_pos_of_mem h
  rw [← keys_erase] at hl
  simp only [keys, List.length_map] at hl hp
  simp only [length]
  omega

@[simp]
theorem length_moveToEnd (d : OrderedDict κ ν) (k : κ) : (d.moveToEnd k).length = d.length := by
  unfold moveToEnd
  split
  · rfl
  · rename_i v hv
    rw [length_append]
    exact length_erase (mem_keys.mpr ⟨v, hv⟩)

theorem length_set_of_mem {d : OrderedDict κ ν} {k : κ} (v : ν) (h : k ∈ d.keys) :
    (d.set k v).length = d.length := by
  rw [set, dif_pos h, length_modify]

theorem keys_modify (d : OrderedDict κ ν) (k : κ) (f : ν → ν) : (d.modify k f).keys = d.keys :=
  fst_modified d.items k f

theorem keys_set (d : OrderedDict κ ν) (k : κ) (v : ν) :
    (d.set k v).keys = if k ∈ d.keys then d.keys else d.keys ++ [k] := by
  unfold set
  split_ifs with h
  · exact keys_modify d k _
  · exact keys_append d k v h

theorem keys_moveToEnd {d : OrderedDict κ ν} {k : κ} (h : k ∈ d.keys) :
    (d.moveToEnd k).keys = d.keys.erase k ++ [k] := by
  obtain ⟨v, hv⟩ := mem_keys.mp h
  unfold moveToEnd
  split
  · rename_i hn
    rw [hv] at hn
    cases hn
  · rw [keys_append, keys_erase]

theorem items_erase_head {d : OrderedDict κ ν} {k : κ} {v : ν} {rest : List (κ × ν)}
    (h : d.items = (k, v) :: rest) : (d.erase k).items = rest := by
  have hn : k ∉ rest.map Prod.fst := by
    have := d.nodup
    rw [h, List.map_cons, List.nodup_cons] at this
    exact this.1
  simp only [erase, h, ne_eq, decide_not, decide_true, Bool.not_true,
    Bool.false_eq_true, not_false_eq_true, List.filter_cons_of_neg, List.filter_eq_self]
  intro p hp
  have : p.1 ≠ k := fun he => hn (he ▸ List.mem_map_of_mem hp)
  simpa using this

theorem get?_assign (d : OrderedDict κ ν) (k : κ) (v : Option ν) (j : κ) :
    (d.assign k v).get? j = if j = k then v else d.get? j := by
  cases v with
  | none => exact get?_erase ..
  | some v => exact get?_set ..

theorem get?_foldl_erase (d : OrderedDict κ ν) (keys : List κ) (k : κ) :
    (keys.foldl erase d).get? k = if k ∈ keys then none else d.get? k := by
  induction keys generalizing d with
  | nil => rfl
  | cons j keys ih =>
    rw [List.foldl_cons, ih, get?_erase]
    by_cases hk : k = j
    · simp [hk]
    · simp [hk]

theorem get?_foldl_set {γ : Type} (key : γ → κ) (value : γ → ν) (l : List γ) (d : OrderedDict κ ν) (k : κ) :
    (l.foldl (fun d c => d.set (key c) (value c)) d).get? k =
      ((l.filter (fun c => key c = k)).getLast?.map value).or (d.get? k) := by
  induction l generalizing d with
  | nil => rfl
  | cons c l ih =>
    rw [List.foldl_cons, ih, get?_set]
    by_cases hk : key c = k
    · rw [if_pos hk.symm, List.filter_cons_of_pos (by simpa using hk), List.getLast?_cons]
      cases (l.filter (fun c => key c = k)).getLast? <;> rfl
    · rw [if_neg (Ne.symm hk), List.filter_cons_of_neg (by simpa using hk)]

end OrderedDict

end Embedai
