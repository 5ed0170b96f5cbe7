import Mathlib.Tactic.Common
import Mathlib.Data.List.Basic

namespace Embedai

structure Write (κ ω ν : Type) where
  key : κ
  owner : ω
  value : ν

namespace WriteLog

variable {κ ω ν : Type} [DecidableEq κ]

def firstWrite (log : List (Write κ ω ν)) (k : κ) : Option (Write κ ω ν) := log.find? (fun w => w.key = k)

def lastWrite (log : List (Write κ ω ν)) (k : κ) : Option (Write κ ω ν) := log.reverse.find? (fun w => w.key = k)

def entry (log : List (Write κ ω ν)) (k : κ) : Option (ω × ν) :=
  (firstWrite log k).bind fun first => (lastWrite log k).map fun last => (first.owner, last.value)

theorem lastWrite_of_firstWrite {log : List (Write κ ω ν)} {k : κ} {first : Write κ ω ν}
    (h : firstWrite log k = some first) : ∃ last, lastWrite log k = some last := by
  have hkey := List.find?_some h
  have hmem := List.mem_of_find?_eq_some h
  apply Option.isSome_iff_exists.mp
  rw [lastWrite, List.find?_isSome]
  exact ⟨first, List.mem_reverse.mpr hmem, hkey⟩

theorem firstWrite_of_entry (log : List (Write κ ω ν)) (k : κ) :
    (entry log k).map Prod.fst = (firstWrite log k).map Write.owner := by
  unfold entry
  cases hfirst : firstWrite log k with
  | none => rfl
  | some first =>
    obtain ⟨last, hlast⟩ := lastWrite_of_firstWrite hfirst
    rw [hlast]
    rfl

theorem firstWrite_concat (log : List (Write κ ω ν)) (w : Write κ ω ν) (k : κ) :
    firstWrite (log ++ [w]) k = (firstWrite log k).or (if w.key = k then some w else none) := by
  rw [firstWrite, firstWrite, List.find?_append]
  by_cases h : w.key = k <;> simp [h]

theorem lastWrite_concat (log : List (Write κ ω ν)) (w : Write κ ω ν) (k : κ) :
    lastWrite (log ++ [w]) k = if w.key = k then some w else lastWrite log k := by
  rw [lastWrite, lastWrite, List.reverse_append]
  by_cases h : w.key = k <;> simp [h]

theorem entry_concat_of_ne {log : List (Write κ ω ν)} {w : Write κ ω ν} {k : κ} (h : w.key ≠ k) :
    entry (log ++ [w]) k = entry log k := by
  rw [entry, entry, firstWrite_concat, lastWrite_concat, if_neg h, if_neg h, Option.or_none]

theorem entry_concat_of_none {log : List (Write κ ω ν)} {w : Write κ ω ν} (h : entry log w.key = none) :
    entry (log ++ [w]) w.key = some (w.owner, w.value) := by
  have hfirst := firstWrite_of_entry log w.key
  rw [h, Option.map_none, eq_comm, Option.map_eq_none_iff] at hfirst
  rw [entry, firstWrite_concat, lastWrite_concat, if_pos rfl, if_pos rfl, hfirst]
  rfl

theorem entry_concat_of_some {log : List (Write κ ω ν)} {w : Write κ ω ν} {owner : ω} {value : ν}
    (h : entry log w.key = some (owner, value)) : entry (log ++ [w]) w.key = some (owner, w.value) := by
  have hfirst := firstWrite_of_entry log w.key
  rw [h, Option.map_some, eq_comm, Option.map_eq_some_iff] at hfirst
  obtain ⟨first, hfirst, howner⟩ := hfirst
  rw [entry, firstWrite_concat, lastWrite_concat, if_pos rfl, if_pos rfl, hfirst]
  simp only [Option.or_some, Option.getD_some, Option.bind_some, Option.map_some, howner]

end WriteLog

end Embedai
