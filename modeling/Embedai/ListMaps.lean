import Mathlib.Data.List.Perm.Basic
import Mathlib.Data.List.Nodup
import Embedai.Handlers

namespace Embedai.ListMaps

open Handlers (mapM_eq_ok)

variable {α β γ ε : Type} {l : List α}

theorem mapM_eq_some {f : α → Option β} {bs : List β} : l.mapM f = some bs ↔ l.map f = bs.map some := by
  induction l generalizing bs with
  | nil =>
    rw [List.mapM_nil, List.map_nil]
    constructor
    · intro h
      cases h
      rfl
    · intro h
      rw [List.map_eq_nil_iff.mp h.symm]
      rfl
  | cons a l ih =>
    rw [List.mapM_cons, List.map_cons]
    constructor
    · intro h
      obtain ⟨b, hb, h⟩ := Option.bind_eq_some_iff.mp h
      obtain ⟨cs, hcs, h⟩ := Option.bind_eq_some_iff.mp h
      cases h
      rw [List.map_cons, hb, ih.mp hcs]
    · intro h
      cases bs with
      | nil => cases h
      | cons b cs =>
        rw [List.map_cons, List.cons.injEq] at h
        rw [h.1, ih.mpr h.2]
        rfl

theorem mapM_map_of_forall {key : α → β} {lookup : β → Option γ} {value : α → γ}
    (h : ∀ a ∈ l, lookup (key a) = some (value a)) : (l.map key).mapM lookup = some (l.map value) := by
  rw [mapM_eq_some, List.map_map, List.map_map]
  exact List.map_congr_left h

theorem exists_of_mem_mapM {f : α → Option β} {bs : List β} {b : β} (h : l.mapM f = some bs) (hb : b ∈ bs) :
    ∃ a ∈ l, f a = some b := by
  have hmem : some b ∈ bs.map some := List.mem_map_of_mem hb
  rw [← mapM_eq_some.mp h] at hmem
  exact List.mem_map.mp hmem

theorem exists_mem_mapM {f : α → Option β} {bs : List β} {a : α} (h : l.mapM f = some bs) (ha : a ∈ l) :
    ∃ b ∈ bs, f a = some b := by
  have hmem : f a ∈ l.map f := List.mem_map_of_mem ha
  rw [mapM_eq_some.mp h] at hmem
  obtain ⟨b, hb, hf⟩ := List.mem_map.mp hmem
  exact ⟨b, hb, hf.symm⟩

theorem mapM_eq_error {f : α → Except ε β} {e : ε} (h : l.mapM f = .error e) : ∃ a ∈ l, f a = .error e := by
  induction l with
  | nil => cases h
  | cons a l ih =>
    rw [List.mapM_cons] at h
    cases ha : f a with
    | error e' =>
      rw [ha] at h
      cases h
      exact ⟨a, List.mem_cons_self .., ha⟩
    | ok b =>
      rw [ha] at h
      cases hl : l.mapM f with
      | error e' =>
        rw [hl] at h
        cases h
        obtain ⟨c, hc, hfc⟩ := ih hl
        exact ⟨c, List.mem_cons_of_mem _ hc, hfc⟩
      | ok bs =>
        rw [hl] at h
        cases h

theorem exists_mapM {f : α → Except ε β} (h : ∀ a ∈ l, ∃ b, f a = .ok b) :
    ∃ bs, l.mapM f = .ok bs ∧ bs.map Except.ok = l.map f := by
  induction l with
  | nil => exact ⟨[], rfl, rfl⟩
  | cons a l ih =>
    obtain ⟨b, hb⟩ := h a (List.mem_cons_self ..)
    obtain ⟨bs, hbs, hmap⟩ := ih fun c hc => h c (List.mem_cons_of_mem _ hc)
    refine ⟨b :: bs, mapM_eq_ok.mpr (.cons hb (mapM_eq_ok.mp hbs)), ?_⟩
    rw [List.map_cons, List.map_cons, hb, hmap]

theorem flatMap_filter_perm [DecidableEq β] (key : α → β) {keys : List β} (hkeys : keys.Nodup) (l : List α) :
    (keys.flatMap fun k => l.filter fun a => key a = k).Perm (l.filter fun a => key a ∈ keys) := by
  induction keys with
  | nil => simp
  | cons k keys ih =>
    obtain ⟨hk, hkeys⟩ := List.nodup_cons.mp hkeys
    have hsplit := List.filter_append_perm (fun a => decide (key a = k)) (l.filter fun a => key a ∈ k :: keys)
    rw [List.filter_filter, List.filter_filter] at hsplit
    have hfirst : (l.filter fun a => decide (key a = k) && decide (key a ∈ k :: keys)) =
        l.filter fun a => key a = k := by
      apply List.filter_congr
      intro a _
      by_cases ha : key a = k <;> simp [ha]
    have hrest : (l.filter fun a => !decide (key a = k) && decide (key a ∈ k :: keys)) =
        l.filter fun a => key a ∈ keys := by
      apply List.filter_congr
      intro a _
      by_cases ha : key a = k <;> simp [ha, hk]
    rw [hfirst, hrest] at hsplit
    rw [List.flatMap_cons]
    exact ((ih hkeys).append_left _).trans hsplit

end Embedai.ListMaps
