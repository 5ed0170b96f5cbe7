import Mathlib.Data.List.Chain
import Mathlib.Data.List.Induction
import Mathlib.Tactic.Common
import Embedai.ListSplits

namespace Embedai.GreedyPartition

variable {α : Type}

structure Groups (α : Type) where
  closed : List (List α)
  current : List α

namespace Groups

def all (p : Groups α) : List (List α) := if p.current = [] then p.closed else p.closed ++ [p.current]

variable (fits : List α → α → Prop) [∀ g a, Decidable (fits g a)]

def place (p : Groups α) (a : α) : Groups α :=
  if p.current = [] ∨ ¬ fits p.current a then ⟨p.all, [a]⟩ else ⟨p.closed, p.current ++ [a]⟩

def partition (l : List α) : Groups α := l.foldl (place fits) ⟨[], []⟩

end Groups

open Groups ListSplits

structure Greedy (fits : List α → α → Prop) (groups : List (List α)) : Prop where
  nonempty : ∀ g ∈ groups, g ≠ []
  joins : ∀ g ∈ groups, ∀ before a after, g = before ++ a :: after → before ≠ [] → fits before a
  starts : groups.IsChain (fun g next => ∀ a ∈ next.head?, ¬ fits g a)

variable {fits : List α → α → Prop}

theorem Greedy.start {groups : List (List α)} {a : α} (h : Greedy fits groups)
    (hnot : ∀ g ∈ groups.getLast?, ¬ fits g a) : Greedy fits (groups ++ [[a]]) := by
  refine ⟨?_, ?_, ?_⟩
  · intro g hg
    rcases List.mem_append.mp hg with hg | hg
    · exact h.nonempty g hg
    · rw [List.mem_singleton.mp hg]
      exact List.cons_ne_nil a []
  · intro g hg before b after hsplit hbefore
    rcases List.mem_append.mp hg with hg | hg
    · exact h.joins g hg before b after hsplit hbefore
    · rw [List.mem_singleton.mp hg] at hsplit
      have hlength := congrArg List.length hsplit
      rw [List.length_singleton, List.length_append, List.length_cons] at hlength
      have hzero : before.length = 0 := by omega
      exact absurd (List.eq_nil_of_length_eq_zero hzero) hbefore
  · rw [List.isChain_append]
    refine ⟨h.starts, List.isChain_singleton _, ?_⟩
    intro g hg next hnext b hb
    cases hnext
    cases hb
    exact hnot g hg

theorem Greedy.join {groups : List (List α)} {g : List α} {a : α} (h : Greedy fits (groups ++ [g]))
    (hfits : fits g a) : Greedy fits (groups ++ [g ++ [a]]) := by
  have hg : g ≠ [] := h.nonempty g (by simp)
  refine ⟨?_, ?_, ?_⟩
  · intro k hk
    rcases List.mem_append.mp hk with hk | hk
    · exact h.nonempty k (List.mem_append_left _ hk)
    · rw [List.mem_singleton.mp hk]
      simp
  · intro k hk before b after hsplit hbefore
    rcases List.mem_append.mp hk with hk | hk
    · exact h.joins k (List.mem_append_left _ hk) before b after hsplit hbefore
    · rw [List.mem_singleton.mp hk] at hsplit
      rcases concat_eq_split.mp hsplit with ⟨rfl, rfl, -⟩ | ⟨rest, -, hsame⟩
      · exact hfits
      · exact h.joins g (by simp) before b rest hsame hbefore
  · have hchain := h.starts
    rw [List.isChain_append] at hchain ⊢
    refine ⟨hchain.1, List.isChain_singleton _, ?_⟩
    intro k hk next hnext b hb
    cases hnext
    rw [List.head?_append_of_ne_nil _ hg] at hb
    exact hchain.2.2 k hk g rfl b hb

section Partition

variable [∀ g a, Decidable (fits g a)]

theorem partition_concat (l : List α) (a : α) : partition fits (l ++ [a]) = (partition fits l).place fits a := by
  rw [partition, List.foldl_append]
  rfl

theorem all_of_nil {p : Groups α} (h : p.current = []) : p.all = p.closed := if_pos h

theorem all_of_ne {p : Groups α} (h : p.current ≠ []) : p.all = p.closed ++ [p.current] := if_neg h

theorem flatten_all (p : Groups α) : p.all.flatten = p.closed.flatten ++ p.current := by
  by_cases h : p.current = []
  · rw [all_of_nil h, h, List.append_nil]
  · rw [all_of_ne h, List.flatten_append, List.flatten_singleton]

theorem place_of_new {p : Groups α} {a : α} (h : p.current = [] ∨ ¬ fits p.current a) :
    p.place fits a = ⟨p.all, [a]⟩ := if_pos h

theorem place_of_fits {p : Groups α} {a : α} (hcurrent : p.current ≠ []) (hfits : fits p.current a) :
    p.place fits a = ⟨p.closed, p.current ++ [a]⟩ :=
  if_neg (not_or.mpr ⟨hcurrent, not_not.mpr hfits⟩)

theorem all_place_of_new {p : Groups α} {a : α} (h : p.current = [] ∨ ¬ fits p.current a) :
    (p.place fits a).all = p.all ++ [[a]] := by
  rw [place_of_new h, all_of_ne (List.cons_ne_nil a [])]

theorem all_place_of_fits {p : Groups α} {a : α} (hcurrent : p.current ≠ []) (hfits : fits p.current a) :
    (p.place fits a).all = p.closed ++ [p.current ++ [a]] := by
  rw [place_of_fits hcurrent hfits, all_of_ne (by simp)]

variable (fits) in
theorem flatten_partition (l : List α) : (partition fits l).all.flatten = l := by
  induction l using List.reverseRecOn with
  | nil => rfl
  | append_singleton l a ih =>
    rw [partition_concat]
    by_cases h : (partition fits l).current = [] ∨ ¬ fits (partition fits l).current a
    · rw [all_place_of_new h, List.flatten_append, ih, List.flatten_singleton]
    · obtain ⟨hcurrent, hfits⟩ := not_or.mp h
      rw [all_place_of_fits hcurrent (not_not.mp hfits), List.flatten_append, List.flatten_singleton,
        ← List.append_assoc, ← flatten_all, ih]

theorem getLast?_all {p : Groups α} (h : p.current ≠ []) : p.all.getLast? = some p.current := by
  rw [all_of_ne h, List.getLast?_concat]

theorem current_ne_nil (l : List α) (a : α) : (partition fits (l ++ [a])).current ≠ [] := by
  rw [partition_concat, place]
  split_ifs <;> simp

theorem closed_of_current_nil {l : List α} (h : (partition fits l).current = []) : l = [] := by
  rcases List.eq_nil_or_concat' l with rfl | ⟨l, a, rfl⟩
  · rfl
  · exact absurd h (current_ne_nil l a)

theorem greedy_partition (l : List α) : Greedy fits (partition fits l).all := by
  induction l using List.reverseRecOn with
  | nil => exact ⟨by simp [partition, all], by simp [partition, all], List.isChain_nil⟩
  | append_singleton l a ih =>
    rw [partition_concat]
    by_cases h : (partition fits l).current = [] ∨ ¬ fits (partition fits l).current a
    · rw [all_place_of_new h]
      apply ih.start
      intro g hg
      rcases h with hnil | hnot
      · rw [closed_of_current_nil hnil] at hg
        cases hg
      · by_cases hcurrent : (partition fits l).current = []
        · rw [closed_of_current_nil hcurrent] at hg
          cases hg
        · rw [getLast?_all hcurrent] at hg
          cases hg
          exact hnot
    · obtain ⟨hcurrent, hfits⟩ := not_or.mp h
      rw [all_place_of_fits hcurrent (not_not.mp hfits)]
      rw [all_of_ne hcurrent] at ih
      exact ih.join (not_not.mp hfits)

theorem forall_groups_iff {ok : List α → Prop} (hsingle : ∀ a, ok [a]) (hfits : ∀ g a, fits g a → ok g) (l : List α) :
    (∀ g ∈ (partition fits l).all, ok g) ↔
      ∀ before a after, l = before ++ a :: after → (partition fits before).current ≠ [] →
        fits (partition fits before).current a → ok ((partition fits before).current ++ [a]) := by
  induction l using List.reverseRecOn with
  | nil => simp [partition, all]
  | append_singleton l a ih =>
    rw [forall_concat_split, ← ih, partition_concat]
    by_cases h : (partition fits l).current = [] ∨ ¬ fits (partition fits l).current a
    · rw [all_place_of_new h, List.forall_mem_append, List.forall_mem_singleton]
      have hnothing : (partition fits l).current ≠ [] → fits (partition fits l).current a →
          ok ((partition fits l).current ++ [a]) :=
        fun hcurrent hfit => absurd h (not_or.mpr ⟨hcurrent, not_not.mpr hfit⟩)
      exact ⟨fun hall => ⟨hall.1, hnothing⟩, fun hall => ⟨hall.1, hsingle a⟩⟩
    · obtain ⟨hcurrent, hfit⟩ := not_or.mp h
      have hfit := not_not.mp hfit
      rw [all_place_of_fits hcurrent hfit, all_of_ne hcurrent, List.forall_mem_append, List.forall_mem_append,
        List.forall_mem_singleton, List.forall_mem_singleton]
      exact ⟨fun hall => ⟨⟨hall.1, hfits _ a hfit⟩, fun _ _ => hall.2⟩,
        fun hall => ⟨hall.1.1, hall.2 hcurrent hfit⟩⟩

end Partition

end Embedai.GreedyPartition
