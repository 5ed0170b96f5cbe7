import Mathlib.Data.List.Induction
import Mathlib.Data.List.MinMax
import Mathlib.Tactic.Common
import Embedai.ListSplits

/-!
Searches of a list for the element nearest to a target, which end once something near enough has been seen. An element
is read when it is nearer than all before it, and the search does not end at one that cannot be read.
-/

namespace Embedai.NearestSearch

variable {α β δ : Type} [LinearOrder δ] (dist : α → δ) (tol : δ) (read : α → Option β)

structure Best (α β : Type) where
  nearest : Option α
  value : Option β

namespace Best

def Improves (s : Best α β) (a : α) : Prop := ∀ b ∈ s.nearest, dist a < dist b

def Within (s : Best α β) : Prop := ∃ b ∈ s.nearest, dist b < tol

instance (s : Best α β) (a : α) : Decidable (s.Improves dist a) :=
  inferInstanceAs (Decidable (∀ b ∈ s.nearest, dist a < dist b))

instance (s : Best α β) : Decidable (s.Within dist tol) :=
  inferInstanceAs (Decidable (∃ b ∈ s.nearest, dist b < tol))

def take (s : Best α β) (a : α) : Best α β := if s.Improves dist a then ⟨some a, (read a).or s.value⟩ else s

def Ends (s : Best α β) (a : α) : Prop :=
  (s.take dist read a).Within dist tol ∧ (s.Improves dist a → (read a).isSome)

instance (s : Best α β) (a : α) : Decidable (s.Ends dist tol read a) :=
  inferInstanceAs (Decidable (_ ∧ (_ → _)))

end Best

open Best ListSplits

def search (s : Best α β) : List α → Best α β
  | [] => s
  | a :: l => if s.Ends dist tol read a then s.take dist read a else search (s.take dist read a) l

def answer (l : List α) : Option α := (l.find? (fun a => dist a < tol)).or (l.argmin dist)

def Nearer (before : List α) (a : α) : Prop := ∀ b ∈ before, dist a < dist b

def EndsAt (before : List α) (a : α) : Prop :=
  (∃ b ∈ before ++ [a], dist b < tol) ∧ (Nearer dist before a → (read a).isSome)

def PassesThrough (l : List α) : Prop := ∀ before a after, l = before ++ a :: after → ¬ EndsAt dist tol read before a

structure TakesUp (before : List α) (a : α) : Prop where
  nearer : Nearer dist before a
  reached : PassesThrough dist tol read before

def LastTaken (p : α → Prop) (l : List α) (a : α) : Prop :=
  ∃ before after, l = before ++ a :: after ∧ p a ∧ TakesUp dist tol read before a ∧
    ∀ between c rest, after = between ++ c :: rest → p c → ¬ TakesUp dist tol read (before ++ a :: between) c

def Approaches (before : List α) (a : α) : Prop :=
  ∃ far run, before = far ++ run ∧ (∀ b ∈ far, tol ≤ dist b ∧ dist a < dist b) ∧
    (∀ b ∈ run, dist b < tol ∧ read b = none) ∧ (run ++ [a]).Pairwise (fun b c => dist c < dist b)

structure ArrivesAt (before : List α) (a : α) (after : List α) : Prop where
  approach : Approaches dist tol read before a
  unread : dist a < tol → read a = none → ∀ c ∈ after.head?, dist a ≤ dist c
  nearest : tol ≤ dist a → ∀ c ∈ after, dist a ≤ dist c

def LastNearer (p : α → Prop) (l : List α) (a : α) : Prop :=
  ∃ before after, l = before ++ a :: after ∧ p a ∧ Nearer dist before a ∧
    ∀ between c rest, after = between ++ c :: rest → p c → ¬ Nearer dist (before ++ a :: between) c

def best (l : List α) : Best α β := l.foldl (take dist read) ⟨none, none⟩

variable {dist tol read}

theorem best_concat (l : List α) (a : α) : best dist read (l ++ [a]) = (best dist read l).take dist read a := by
  rw [best, List.foldl_append]
  rfl

theorem take_of_improves {s : Best α β} {a : α} (h : s.Improves dist a) :
    s.take dist read a = ⟨some a, (read a).or s.value⟩ := if_pos h

theorem take_of_not {s : Best α β} {a : α} (h : ¬ s.Improves dist a) : s.take dist read a = s := if_neg h

theorem ends_iff_of_improves {s : Best α β} {a : α} (h : s.Improves dist a) :
    s.Ends dist tol read a ↔ dist a < tol ∧ (read a).isSome := by
  simp [Ends, take_of_improves h, h, Within]

theorem ends_iff_of_not {s : Best α β} {a : α} (h : ¬ s.Improves dist a) :
    s.Ends dist tol read a ↔ s.Within dist tol := by
  simp [Ends, take_of_not h, h]

theorem nearest_best (l : List α) : (best dist read l).nearest = l.argmin dist := by
  induction l using List.reverseRecOn with
  | nil => rfl
  | append_singleton l a ih =>
    rw [best_concat, List.argmin_concat, ← ih]
    cases hn : (best dist read l).nearest with
    | none =>
      have himproves : (best dist read l).Improves dist a := by simp [Improves, hn]
      rw [take_of_improves himproves]
    | some b =>
      by_cases hlt : dist a < dist b
      · have himproves : (best dist read l).Improves dist a := by simpa [Improves, hn] using hlt
        rw [take_of_improves himproves]
        exact (if_pos hlt).symm
      · have hnot : ¬ (best dist read l).Improves dist a := by simpa [Improves, hn] using hlt
        rw [take_of_not hnot, hn]
        exact (if_neg hlt).symm

theorem improves_best {l : List α} {a : α} : (best dist read l).Improves dist a ↔ Nearer dist l a := by
  rw [Improves, nearest_best]
  constructor
  · intro h b hb
    cases hmin : l.argmin dist with
    | none =>
      rw [List.argmin_eq_none.mp hmin] at hb
      cases hb
    | some c => exact lt_of_lt_of_le (h c hmin) (List.le_of_mem_argmin hb hmin)
  · intro h b hb
    exact h b (List.argmin_mem hb)

theorem within_best {l : List α} : (best dist read l).Within dist tol ↔ ∃ b ∈ l, dist b < tol := by
  rw [Within, nearest_best]
  constructor
  · rintro ⟨b, hb, hlt⟩
    exact ⟨b, List.argmin_mem hb, hlt⟩
  · rintro ⟨b, hb, hlt⟩
    cases hmin : l.argmin dist with
    | none =>
      rw [List.argmin_eq_none.mp hmin] at hb
      cases hb
    | some c => exact ⟨c, rfl, lt_of_le_of_lt (List.le_of_mem_argmin hb hmin) hlt⟩

theorem ends_best {l : List α} {a : α} : (best dist read l).Ends dist tol read a ↔ EndsAt dist tol read l a := by
  rw [Ends, ← best_concat, within_best, improves_best, EndsAt]

variable (dist tol read) in
theorem passesThrough_nil : PassesThrough dist tol read [] := by
  intro before a after h
  simp at h

theorem PassesThrough.concat {l : List α} {a : α} (hl : PassesThrough dist tol read l)
    (ha : ¬ EndsAt dist tol read l a) : PassesThrough dist tol read (l ++ [a]) :=
  forall_concat_split.mpr ⟨hl, ha⟩

theorem passesThrough_of_far {l : List α} (h : ∀ b ∈ l, tol ≤ dist b) : PassesThrough dist tol read l := by
  rintro before c after rfl ⟨⟨d, hd, hlt⟩, -⟩
  have hd' : d ∈ before ++ c :: after := by
    rcases List.mem_append.mp hd with hd | hd
    · exact List.mem_append_left _ hd
    · rw [List.mem_singleton.mp hd]
      simp
  exact absurd hlt (not_lt_of_ge (h d hd'))

theorem not_passesThrough {before after : List α} {a : α} (h : EndsAt dist tol read before a) :
    ¬ PassesThrough dist tol read (before ++ a :: after) := fun hpass => hpass before a after rfl h

theorem exists_reached {before : List α} (hbefore : PassesThrough dist tol read before) (l : List α) :
    ∃ reached rest, l = reached ++ rest ∧
      search dist tol read (best dist read before) l = best dist read (before ++ reached) ∧
      ∀ l₁ c l₂, l = l₁ ++ c :: l₂ →
        (PassesThrough dist tol read (before ++ l₁) ↔ ∃ r, reached = l₁ ++ c :: r) := by
  induction l generalizing before with
  | nil => exact ⟨[], [], rfl, by rw [List.append_nil]; rfl, by simp⟩
  | cons a l ih =>
    rw [search, ← best_concat]
    by_cases hends : EndsAt dist tol read before a
    · refine ⟨[a], l, rfl, if_pos (ends_best.mpr hends), ?_⟩
      rintro (_ | ⟨b, l₁⟩) c l₂ hl
      · cases hl
        simpa using hbefore
      · cases hl
        apply iff_of_false (not_passesThrough hends)
        rintro ⟨r, hr⟩
        simp at hr
    · obtain ⟨reached, rest, rfl, hsearch, hreached⟩ := ih (hbefore.concat hends)
      refine ⟨a :: reached, rest, rfl, ?_, ?_⟩
      · rw [if_neg (mt ends_best.mp hends), hsearch, List.append_assoc, List.singleton_append]
      · rintro (_ | ⟨b, l₁⟩) c l₂ hl
        · cases hl
          simpa using hbefore
        · rw [List.cons_append] at hl
          obtain ⟨rfl, htail⟩ := List.cons_eq_cons.mp hl
          have h := hreached l₁ c l₂ htail
          rw [List.append_assoc, List.singleton_append] at h
          simpa using h

theorem lastNearer_concat {p : α → Prop} {l : List α} {a x : α} :
    LastNearer dist p (l ++ [a]) x ↔
      Nearer dist l a ∧ p a ∧ x = a ∨ ¬ (Nearer dist l a ∧ p a) ∧ LastNearer dist p l x := by
  constructor
  · rintro ⟨before, after, hsplit, hp, hnearer, hlast⟩
    rcases concat_eq_split.mp hsplit with ⟨rfl, rfl, -⟩ | ⟨rest, rfl, hl⟩
    · exact .inl ⟨hnearer, hp, rfl⟩
    · rw [forall_concat_split, ← hl] at hlast
      exact .inr ⟨fun ha => hlast.2 ha.2 ha.1, before, rest, hl, hp, hnearer, hlast.1⟩
  · rintro (⟨hnearer, hp, rfl⟩ | ⟨hnot, before, after, rfl, hp, hnearer, hlast⟩)
    · exact ⟨l, [], rfl, hp, hnearer, by simp⟩
    · refine ⟨before, after ++ [a], by simp, hp, hnearer, ?_⟩
      rw [forall_concat_split]
      exact ⟨hlast, fun hpa ha => hnot ⟨ha, hpa⟩⟩

theorem nearest_best_eq_some {l : List α} {x : α} :
    (best dist read l).nearest = some x ↔ LastNearer dist (fun _ => True) l x := by
  induction l using List.reverseRecOn with
  | nil => simp [best, LastNearer]
  | append_singleton l a ih =>
    rw [best_concat, lastNearer_concat, ← ih]
    by_cases h : Nearer dist l a
    · simp [take_of_improves (improves_best.mpr h), h, eq_comm]
    · simp [take_of_not (mt improves_best.mp h), h]

theorem value_best_eq_some {l : List α} {v : β} :
    (best dist read l).value = some v ↔ ∃ x, LastNearer dist (fun a => (read a).isSome) l x ∧ read x = some v := by
  induction l using List.reverseRecOn with
  | nil => simp [best, LastNearer]
  | append_singleton l a ih =>
    simp only [best_concat, lastNearer_concat]
    by_cases h : Nearer dist l a
    · rw [take_of_improves (improves_best.mpr h)]
      cases hread : read a with
      | none => simpa [h, hread] using ih
      | some w => simp [h, hread]
    · rw [take_of_not (mt improves_best.mp h)]
      simpa [h] using ih

theorem lastTaken_iff {p : α → Prop} {l reached : List α} {a : α}
    (h : ∀ l₁ c l₂, l = l₁ ++ c :: l₂ → (PassesThrough dist tol read l₁ ↔ ∃ r, reached = l₁ ++ c :: r))
    {rest : List α} (hl : l = reached ++ rest) :
    LastTaken dist tol read p l a ↔ LastNearer dist p reached a := by
  constructor
  · rintro ⟨before, after, hsplit, hp, htaken, hlast⟩
    obtain ⟨r, hr⟩ := (h before a after hsplit).mp htaken.reached
    refine ⟨before, r, hr, hp, htaken.nearer, ?_⟩
    intro between c tail hbetween hpc hnearer
    have hafter : after = between ++ c :: (tail ++ rest) := by
      rw [hl, hr, List.append_assoc, List.cons_append] at hsplit
      have := List.append_cancel_left hsplit
      rw [hbetween] at this
      simpa using this.symm
    refine hlast between c _ hafter hpc ⟨hnearer, ?_⟩
    refine (h _ c (tail ++ rest) ?_).mpr ⟨tail, ?_⟩
    · rw [hsplit, hafter, List.append_assoc, List.cons_append]
    · rw [hr, hbetween, List.append_assoc, List.cons_append]
  · rintro ⟨before, after, rfl, hp, hnearer, hlast⟩
    have hsplit : l = before ++ a :: (after ++ rest) := by rw [hl, List.append_assoc, List.cons_append]
    refine ⟨before, after ++ rest, hsplit, hp, ⟨hnearer, (h before a _ hsplit).mpr ⟨after, rfl⟩⟩, ?_⟩
    intro between c tail hafter hpc htaken
    have hsplit' : l = (before ++ a :: between) ++ c :: tail := by
      rw [hsplit, hafter, List.append_assoc, List.cons_append]
    obtain ⟨r, hr⟩ := (h _ c tail hsplit').mp htaken.reached
    rw [List.append_assoc, List.cons_append] at hr
    have hafter' := List.append_cancel_left hr
    exact hlast between c r (List.cons_eq_cons.mp hafter').2 hpc htaken.nearer

theorem search_nearest {l : List α} {a : α} :
    (search dist tol read ⟨none, none⟩ l).nearest = some a ↔ LastTaken dist tol read (fun _ => True) l a := by
  obtain ⟨reached, rest, hl, hsearch, hreached⟩ := exists_reached (passesThrough_nil dist tol read) l
  rw [lastTaken_iff hreached hl, ← nearest_best_eq_some]
  exact Eq.congr_left (congrArg Best.nearest hsearch)

theorem search_value {l : List α} {v : β} :
    (search dist tol read ⟨none, none⟩ l).value = some v ↔
      ∃ a, LastTaken dist tol read (fun a => (read a).isSome) l a ∧ read a = some v := by
  obtain ⟨reached, rest, hl, hsearch, hreached⟩ := exists_reached (passesThrough_nil dist tol read) l
  simp only [lastTaken_iff hreached hl]
  rw [← value_best_eq_some]
  exact Eq.congr_left (congrArg Best.value hsearch)

theorem search_value_of_nearest {l : List α} (h : (search dist tol read ⟨none, none⟩ l).nearest = none) :
    (search dist tol read ⟨none, none⟩ l).value = none := by
  obtain ⟨reached, rest, -, hsearch, -⟩ := exists_reached (passesThrough_nil dist tol read) l
  change search dist tol read ⟨none, none⟩ l = best dist read reached at hsearch
  rw [hsearch] at h ⊢
  rw [nearest_best, List.argmin_eq_none] at h
  rw [h]
  rfl

theorem TakesUp.exists_last {p : α → Prop} {before : List α} {a : α} (h : TakesUp dist tol read before a) (hp : p a)
    (after : List α) :
    LastTaken dist tol read p (before ++ a :: after) a ∨ ∃ between c rest, after = between ++ c :: rest ∧ p c ∧
      TakesUp dist tol read (before ++ a :: between) c ∧ LastTaken dist tol read p (before ++ a :: after) c := by
  induction hlength : after.length using Nat.strong_induction_on generalizing before after a with
  | _ n ih =>
    by_cases hlast : ∀ between c rest, after = between ++ c :: rest → p c →
        ¬ TakesUp dist tol read (before ++ a :: between) c
    · exact .inl ⟨before, after, rfl, hp, h, hlast⟩
    · push Not at hlast
      obtain ⟨between, c, rest, rfl, hpc, hc⟩ := hlast
      have hsplit (l : List α) : before ++ a :: (between ++ c :: l) = (before ++ a :: between) ++ c :: l := by simp
      have hshorter : rest.length < n := by
        rw [← hlength, List.length_append, List.length_cons]
        omega
      rcases ih rest.length hshorter hc hpc rest rfl with hlast | ⟨between', d, rest', hrest, hpd, hd, hlast⟩
      · refine .inr ⟨between, c, rest, rfl, hpc, hc, ?_⟩
        rw [hsplit]
        exact hlast
      · refine .inr ⟨between ++ c :: between', d, rest', by simp [hrest], hpd, ?_, ?_⟩
        · rw [hsplit]
          exact hd
        · rw [hsplit]
          exact hlast

theorem argmin_split {l : List α} {a : α} (h : l.argmin dist = some a) :
    ∃ before after, l = before ++ a :: after ∧ Nearer dist before a ∧ ∀ b ∈ after, dist a ≤ dist b := by
  induction l using List.reverseRecOn with
  | nil => cases h
  | append_singleton l x ih =>
    rw [List.argmin_concat] at h
    cases hmin : l.argmin dist with
    | none =>
      rw [hmin] at h
      cases h
      rw [List.argmin_eq_none.mp hmin]
      exact ⟨[], [], rfl, by simp [Nearer], by simp⟩
    | some c =>
      simp only [hmin] at h
      split_ifs at h with hlt
      · cases h
        exact ⟨l, [], rfl, fun b hb => lt_of_lt_of_le hlt (List.le_of_mem_argmin hb hmin), by simp⟩
      · cases h
        obtain ⟨before, after, rfl, hnearer, hle⟩ := ih hmin
        refine ⟨before, after ++ [x], by simp, hnearer, ?_⟩
        rw [List.forall_mem_append, List.forall_mem_singleton]
        exact ⟨hle, le_of_not_gt hlt⟩

theorem answer_split {l : List α} {a : α} (h : answer dist tol l = some a) :
    ∃ before after, l = before ++ a :: after ∧ (∀ b ∈ before, dist a < dist b ∧ tol ≤ dist b) ∧
      (dist a < tol ∨ (∀ b ∈ l, tol ≤ dist b) ∧ ∀ b ∈ after, dist a ≤ dist b) := by
  rw [answer] at h
  cases hfind : l.find? (fun a => dist a < tol) with
  | some c =>
    rw [hfind] at h
    cases h
    obtain ⟨hwithin, before, after, rfl, hbefore⟩ := List.find?_eq_some_iff_append.mp hfind
    rw [decide_eq_true_eq] at hwithin
    refine ⟨before, after, rfl, ?_, .inl hwithin⟩
    intro b hb
    have hle : tol ≤ dist b := by simpa using hbefore b hb
    exact ⟨lt_of_lt_of_le hwithin hle, hle⟩
  | none =>
    rw [hfind] at h
    obtain ⟨before, after, rfl, hnearer, hle⟩ := argmin_split h
    have hnone : ∀ b ∈ before ++ a :: after, tol ≤ dist b := by simpa using List.find?_eq_none.mp hfind
    exact ⟨before, after, rfl, fun b hb => ⟨hnearer b hb, hnone b (List.mem_append_left _ hb)⟩, .inr ⟨hnone, hle⟩⟩

theorem answer_eq_none {l : List α} : answer dist tol l = none ↔ l = [] := by
  rw [answer, Option.or_eq_none_iff, List.argmin_eq_none]
  constructor
  · exact And.right
  · rintro rfl
    exact ⟨rfl, rfl⟩

theorem answer_mem {l : List α} {a : α} (h : answer dist tol l = some a) : a ∈ l := by
  obtain ⟨before, after, rfl, -, -⟩ := answer_split h
  simp

theorem lastTaken_answer {p : α → Prop} {l : List α} {a : α} (h : answer dist tol l = some a) (hp : p a)
    (hread : (read a).isSome) : LastTaken dist tol read p l a := by
  obtain ⟨before, after, rfl, hbefore, hnearest⟩ := answer_split h
  have hreached : PassesThrough dist tol read before := passesThrough_of_far fun b hb => (hbefore b hb).2
  refine ⟨before, after, rfl, hp, ⟨fun b hb => (hbefore b hb).1, hreached⟩, ?_⟩
  intro between c rest hafter _ htaken
  rcases hnearest with hwithin | ⟨-, hle⟩
  · exact not_passesThrough ⟨⟨a, by simp, hwithin⟩, fun _ => hread⟩ htaken.reached
  · have hlt := htaken.nearer a (by simp)
    exact absurd hlt (not_lt_of_ge (hle c (by simp [hafter])))

theorem search_of_readable {l : List α} (hread : ∀ a ∈ l, (read a).isSome) :
    search dist tol read ⟨none, none⟩ l = ⟨answer dist tol l, (answer dist tol l).bind read⟩ := by
  cases h : answer dist tol l with
  | none =>
    rw [answer_eq_none.mp h]
    rfl
  | some a =>
    have hsome := hread a (answer_mem h)
    obtain ⟨v, hv⟩ := Option.isSome_iff_exists.mp hsome
    have hnearest := search_nearest.mpr (lastTaken_answer h trivial hsome)
    have hvalue := search_value.mpr ⟨a, lastTaken_answer h hsome hsome, hv⟩
    cases hsearch : search dist tol read ⟨none, none⟩ l
    rw [hsearch] at hnearest hvalue
    cases hnearest
    cases hvalue
    rw [Option.bind_some, hv]

theorem PassesThrough.run {far run : List α} (hfar : ∀ b ∈ far, tol ≤ dist b)
    (hrun : ∀ b ∈ run, dist b < tol ∧ read b = none) (hchain : run.Pairwise (fun b c => dist c < dist b)) :
    PassesThrough dist tol read (far ++ run) := by
  induction run using List.reverseRecOn with
  | nil =>
    rw [List.append_nil]
    exact passesThrough_of_far hfar
  | append_singleton run b ih =>
    rw [List.forall_mem_append, List.forall_mem_singleton] at hrun
    obtain ⟨hrun, hb, hread⟩ := hrun
    rw [List.pairwise_append] at hchain
    rw [← List.append_assoc]
    apply (ih hrun hchain.1).concat
    rintro ⟨-, hreadable⟩
    have hnearer : Nearer dist (far ++ run) b := by
      intro c hc
      rcases List.mem_append.mp hc with hc | hc
      · exact lt_of_lt_of_le hb (hfar c hc)
      · exact hchain.2.2 c hc b (List.mem_singleton_self b)
    have hsome := hreadable hnearer
    rw [hread] at hsome
    cases hsome

theorem Approaches.takesUp {before : List α} {a : α} (h : Approaches dist tol read before a) :
    TakesUp dist tol read before a := by
  obtain ⟨far, run, rfl, hfar, hrun, hchain⟩ := h
  rw [List.pairwise_append] at hchain
  refine ⟨?_, PassesThrough.run (fun b hb => (hfar b hb).1) hrun hchain.1⟩
  intro b hb
  rcases List.mem_append.mp hb with hb | hb
  · exact (hfar b hb).2
  · exact hchain.2.2 b hb a (List.mem_singleton_self a)

theorem TakesUp.approaches {before : List α} {a : α} (h : TakesUp dist tol read before a) :
    Approaches dist tol read before a := by
  induction before using List.reverseRecOn generalizing a with
  | nil => exact ⟨[], [], rfl, by simp, by simp, List.pairwise_singleton _ _⟩
  | append_singleton before b ih =>
    obtain ⟨hnearer, hreached⟩ := h
    have hends : ¬ EndsAt dist tol read before b := hreached before b [] rfl
    have hpass : PassesThrough dist tol read before := fun l c rest hl => hreached l c (rest ++ [b]) (by simp [hl])
    by_cases hb : dist b < tol
    · -- The run goes on with `b`, or starts there.
      have hwithin : ∃ d ∈ before ++ [b], dist d < tol := ⟨b, by simp, hb⟩
      have hunread : Nearer dist before b ∧ read b = none := by
        by_contra hnot
        apply hends ⟨hwithin, fun hbnearer => ?_⟩
        rw [← Option.ne_none_iff_isSome]
        exact fun hnone => hnot ⟨hbnearer, hnone⟩
      obtain ⟨far, run, rfl, hfar, hrun, hchain⟩ := ih ⟨hunread.1, hpass⟩
      have hab : dist a < dist b := hnearer b (by simp)
      refine ⟨far, run ++ [b], by simp, ?_, ?_, ?_⟩
      · intro c hc
        exact ⟨(hfar c hc).1, hnearer c (by simp [hc])⟩
      · rw [List.forall_mem_append, List.forall_mem_singleton]
        exact ⟨hrun, hb, hunread.2⟩
      · rw [List.pairwise_append]
        refine ⟨hchain, List.pairwise_singleton _ _, ?_⟩
        rw [List.forall_mem_append]
        rw [List.pairwise_append] at hchain
        constructor
        · intro c hc d hd
          rw [List.mem_singleton.mp hd]
          exact lt_trans hab (hchain.2.2 c hc b (List.mem_singleton_self b))
        · simpa using hab
    · have hfar : ∀ d ∈ before ++ [b], tol ≤ dist d := by
        intro d hd
        by_contra hlt
        apply hends ⟨⟨d, hd, lt_of_not_ge hlt⟩, fun hbnearer => ?_⟩
        rcases List.mem_append.mp hd with hd | hd
        · exact absurd (lt_trans (hbnearer d hd) (lt_of_not_ge hlt)) hb
        · rw [List.mem_singleton.mp hd] at hlt
          exact absurd (lt_of_not_ge hlt) hb
      exact ⟨before ++ [b], [], by simp, fun d hd => ⟨hfar d hd, hnearer d hd⟩, by simp, List.pairwise_singleton _ _⟩

theorem last_iff {before after : List α} {a : α} (h : TakesUp dist tol read before a) :
    (∀ between c rest, after = between ++ c :: rest → ¬ TakesUp dist tol read (before ++ a :: between) c) ↔
      (dist a < tol → read a = none → ∀ c ∈ after.head?, dist a ≤ dist c) ∧
        (tol ≤ dist a → ∀ c ∈ after, dist a ≤ dist c) := by
  constructor
  · intro hlast
    constructor
    · rintro - hread c hc
      by_contra hlt
      obtain ⟨rest, rfl⟩ := List.head?_eq_some_iff.mp hc
      apply hlast [] c rest rfl
      have hnearer : Nearer dist (before ++ [a]) c := by
        rw [Nearer, List.forall_mem_append, List.forall_mem_singleton]
        exact ⟨fun b hb => lt_trans (lt_of_not_ge hlt) (h.nearer b hb), lt_of_not_ge hlt⟩
      refine ⟨hnearer, h.reached.concat ?_⟩
      rintro ⟨-, hreadable⟩
      have hsome := hreadable h.nearer
      rw [hread] at hsome
      cases hsome
    · intro hfar
      by_contra hnot
      obtain ⟨c, hc, hlt⟩ : ∃ c ∈ after, dist c < dist a := by simpa using hnot
      have hfind : (after.find? (fun c => dist c < dist a)).isSome :=
        List.find?_isSome.mpr ⟨c, hc, decide_eq_true hlt⟩
      obtain ⟨d, hd⟩ := Option.isSome_iff_exists.mp hfind
      obtain ⟨hda, between, rest, hsplit, hbetween⟩ := List.find?_eq_some_iff_append.mp hd
      rw [decide_eq_true_eq] at hda
      have hle : ∀ b ∈ between, dist a ≤ dist b := by
        intro b hb
        simpa using hbetween b hb
      have hge : ∀ b ∈ before ++ a :: between, dist a ≤ dist b := by
        rw [List.forall_mem_append, List.forall_mem_cons]
        exact ⟨fun b hb => le_of_lt (h.nearer b hb), le_refl _, hle⟩
      apply hlast between d rest hsplit
      exact ⟨fun b hb => lt_of_lt_of_le hda (hge b hb),
        passesThrough_of_far fun b hb => le_trans hfar (hge b hb)⟩
  · rintro ⟨hunread, hnearest⟩ between c rest hafter htaken
    have hca : dist c < dist a := htaken.nearer a (by simp)
    rcases lt_or_ge (dist a) tol with hwithin | hfar
    · cases hread : read a with
      | some v =>
        have hends : EndsAt dist tol read before a := ⟨⟨a, by simp, hwithin⟩, fun _ => by simp [hread]⟩
        exact not_passesThrough hends htaken.reached
      | none =>
        have hhead := hunread hwithin hread
        cases between with
        | nil => exact absurd hca (not_lt_of_ge (hhead c (by simp [hafter])))
        | cons d between =>
          have had : dist a ≤ dist d := hhead d (by simp [hafter])
          have hends : EndsAt dist tol read (before ++ [a]) d :=
            ⟨⟨a, by simp, hwithin⟩, fun hd => absurd (hd a (by simp)) (not_lt_of_ge had)⟩
          have hreached := htaken.reached
          rw [List.append_cons] at hreached
          exact not_passesThrough hends hreached
    · exact absurd hca (not_lt_of_ge (hnearest hfar c (by simp [hafter])))

theorem best_append {l after : List α}
    (h : ∀ between c rest, after = between ++ c :: rest → ¬ Nearer dist (l ++ between) c) :
    best dist read (l ++ after) = best dist read l := by
  induction after using List.reverseRecOn with
  | nil => rw [List.append_nil]
  | append_singleton after a ih =>
    have hnot : ¬ (best dist read (l ++ after)).Improves dist a := mt improves_best.mp (h after a [] rfl)
    rw [← List.append_assoc, best_concat, take_of_not hnot]
    apply ih
    intro between c rest hafter
    exact h between c (rest ++ [a]) (by simp [hafter])

theorem search_of_arrivesAt {before after : List α} {a : α} (h : ArrivesAt dist tol read before a after) :
    search dist tol read ⟨none, none⟩ (before ++ a :: after) =
      ⟨some a, (read a).or (best dist read before).value⟩ := by
  have htaken := h.approach.takesUp
  obtain ⟨reached, rest, hl, hsearch, hreached⟩ :=
    exists_reached (passesThrough_nil dist tol read) (before ++ a :: after)
  obtain ⟨r, rfl⟩ := (hreached before a after rfl).mp htaken.reached
  have hafter : after = r ++ rest := by simpa using hl
  have hkeep : ∀ between c tail, r = between ++ c :: tail → ¬ Nearer dist ((before ++ [a]) ++ between) c := by
    intro between c tail hr hnearer
    rw [List.append_assoc, List.singleton_append] at hnearer
    have hsplit : after = between ++ c :: (tail ++ rest) := by rw [hafter, hr, List.append_assoc, List.cons_append]
    refine (last_iff htaken).mpr ⟨h.unread, h.nearest⟩ between c _ hsplit ⟨hnearer, ?_⟩
    apply (hreached (before ++ a :: between) c (tail ++ rest) ?_).mpr
    · exact ⟨tail, by rw [hr, List.append_assoc, List.cons_append]⟩
    · rw [hsplit, List.append_assoc, List.cons_append]
  change search dist tol read (best dist read []) _ = _
  rw [hsearch, List.nil_append, List.append_cons, best_append hkeep, best_concat,
    take_of_improves (improves_best.mpr htaken.nearer)]

theorem search_eq_iff {l : List α} {a : α} {v : β} :
    search dist tol read ⟨none, none⟩ l = ⟨some a, some v⟩ ↔
      ∃ before after, l = before ++ a :: after ∧ ArrivesAt dist tol read before a after ∧
        (read a = some v ∨
          read a = none ∧ ∃ b, LastNearer dist (fun b => (read b).isSome) before b ∧ read b = some v) := by
  simp only [← value_best_eq_some]
  constructor
  · intro h
    obtain ⟨before, after, rfl, -, htaken, hlast⟩ := search_nearest.mp (congrArg Best.nearest h)
    obtain ⟨hunread, hnearest⟩ := (last_iff htaken).mp fun between c rest hafter => hlast between c rest hafter trivial
    have harrives : ArrivesAt dist tol read before a after := ⟨htaken.approaches, hunread, hnearest⟩
    refine ⟨before, after, rfl, harrives, ?_⟩
    rw [search_of_arrivesAt harrives] at h
    have hvalue := congrArg Best.value h
    cases hread : read a with
    | some w =>
      rw [hread] at hvalue
      exact .inl hvalue
    | none =>
      rw [hread] at hvalue
      exact .inr ⟨rfl, hvalue⟩
  · rintro ⟨before, after, rfl, harrives, hvalue⟩
    rw [search_of_arrivesAt harrives]
    rcases hvalue with hread | ⟨hread, hbefore⟩
    · rw [hread]
      rfl
    · rw [hread, Option.none_or, hbefore]

end Embedai.NearestSearch
