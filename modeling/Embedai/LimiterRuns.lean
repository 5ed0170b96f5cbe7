import Embedai.RunWithConcurrency
import Embedai.TransitionSystems

namespace Embedai.RunWithConcurrency

open TransitionSystems

variable {α σ : Type}

/-- `change` is what the rest of the program does to the world. -/
inductive Move (σ : Type)
  | settle (task : ℕ)
  | remove (task : ℕ)
  | resume
  | change (world : σ)

def Move.own : Move σ → Bool
  | .change _ => false
  | _ => true

def move (concurrency : ℕ) (fn : Fn α σ) (p : Limiter α × σ) : Move σ → Option (Limiter α × σ)
  | .settle task => if task ∈ p.1.pending then some (p.1.settle task, p.2) else none
  | .remove task => (p.1.remove task).map (·, p.2)
  | .resume => resume concurrency fn p
  | .change world => some (p.1, world)

def passed (concurrency : ℕ) (fn : Fn α σ) : List α → Limiter α × σ → List (Limiter α × σ)
  | [], _ => []
  | item :: rest, p =>
    visit fn item p ::
      if concurrency ≤ (visit fn item p).1.executing.length then [] else passed concurrency fn rest (visit fn item p)

def within (concurrency : ℕ) (fn : Fn α σ) (p : Limiter α × σ) : Move σ → List (Limiter α × σ)
  | .resume =>
    match p.1.awaits with
    | .race _ => passed concurrency fn p.1.rest p
    | _ => []
  | _ => []

def moments (concurrency : ℕ) (fn : Fn α σ) (p : Limiter α × σ) : List (Move σ) → List (Limiter α × σ)
  | [] => [p]
  | m :: moves =>
    p :: (within concurrency fn p m ++ (move concurrency fn p m).elim [] fun q => moments concurrency fn q moves)

def allMoments (items : List α) (fn : Fn α σ) (concurrency : ℕ) (world : σ) (moves : List (Move σ)) :
    List (Limiter α × σ) :=
  passed concurrency fn items (.start, world) ++
    moments concurrency fn (runWithConcurrency items fn concurrency world) moves

structure Limiter.Bounded (concurrency : ℕ) (items : List α) (l : Limiter α) : Prop where
  called : l.called <+: items
  pending : l.pending.length ≤ concurrency

structure Limiter.Serves (concurrency : ℕ) (items : List α) (l : Limiter α) : Prop where
  wellFormed : l.WellFormed concurrency
  items : l.called ++ l.rest = items

section Go

variable {concurrency : ℕ} {fn : Fn α σ} {items rest : List α} {p : Limiter α × σ}

theorem loop_eq_passed (concurrency : ℕ) (fn : Fn α σ) (items : List α) (p : Limiter α × σ) :
    ∃ rest awaits, loop concurrency fn items p =
      (((passed concurrency fn items p).getLastD p).1.wait rest awaits,
        ((passed concurrency fn items p).getLastD p).2) := by
  induction items generalizing p with
  | nil => exact ⟨[], _, rfl⟩
  | cons item items ih =>
    rw [loop, passed, List.getLastD_cons]
    split_ifs with hfull
    · exact ⟨items, _, rfl⟩
    · exact ih (visit fn item p)

theorem serves_loop (hready : p.1.Ready) (hroom : p.1.executing.length < concurrency)
    (hitems : p.1.called ++ rest = items) : (loop concurrency fn rest p).1.Serves concurrency items := by
  refine ⟨hready.loop hroom, ?_⟩
  obtain ⟨awaits, he⟩ := exists_visits_loop fn rest hroom
  rw [he, ← hitems]
  change (visits fn (rest.take _) p).1.called ++ rest.drop _ = _
  rw [called_visits, List.append_assoc, List.take_append_drop]

theorem bounded_passed (hready : p.1.Ready) (hroom : p.1.executing.length < concurrency)
    (hitems : p.1.called ++ rest = items) : ∀ q ∈ passed concurrency fn rest p, q.1.Bounded concurrency items := by
  induction rest generalizing p with
  | nil => exact fun q hq => absurd hq List.not_mem_nil
  | cons item rest ih =>
    have hvisited := hready.visit fn item
    have hcalled : (visit fn item p).1.called ++ rest = items := by
      rw [← hitems]
      exact List.append_assoc _ [item] rest
    have hlength : (visit fn item p).1.executing.length = p.1.executing.length + 1 := List.length_append
    have hfirst : (visit fn item p).1.Bounded concurrency items := by
      refine ⟨⟨rest, hcalled⟩, Nat.le_trans hvisited.pending.length_le ?_⟩
      omega
    intro q hq
    rw [passed] at hq
    rcases List.mem_cons.mp hq with rfl | hq
    · exact hfirst
    · split_ifs at hq with hfull
      · exact absurd hq List.not_mem_nil
      · exact ih hvisited (Nat.not_le.mp hfull) hcalled q hq

end Go

def Awaits.rank : Awaits → ℕ
  | .race _ => 2
  | .all _ => 1
  | .returned => 0

def Limiter.rank (l : Limiter α) : ℕ := 3 * l.rest.length + l.pending.length + l.executing.length + l.awaits.rank

section Moves

variable {concurrency : ℕ} {fn : Fn α σ} {items rest : List α} {p q : Limiter α × σ} {m : Move σ}

theorem length_pending_visits_le (fn : Fn α σ) (items : List α) (p : Limiter α × σ) :
    (visits fn items p).1.pending.length ≤ p.1.pending.length + items.length := by
  induction items generalizing p with
  | nil => exact Nat.le_refl _
  | cons item items ih =>
    have hvisit : (visit fn item p).1.pending.length ≤ p.1.pending.length + 1 := by
      change List.length (if _ then _ else _) ≤ _
      split_ifs
      · exact Nat.le_of_eq List.length_append
      · exact Nat.le_succ _
    have hrest := ih (visit fn item p)
    rw [visits_cons, List.length_cons]
    omega

theorem rank_loop (fn : Fn α σ) (rest : List α) (hroom : p.1.executing.length < concurrency) :
    (loop concurrency fn rest p).1.rank ≤ 3 * rest.length + p.1.pending.length + p.1.executing.length + 1 := by
  obtain ⟨room, hc⟩ := Nat.exists_eq_add_of_lt hroom
  have hexecuting := length_executing_visits fn (rest.take (room + 1)) p
  have hpending := length_pending_visits_le fn (rest.take (room + 1)) p
  rw [List.length_take] at hexecuting hpending
  rw [loop_eq hc]
  change 3 * (rest.drop (room + 1)).length + (visits fn (rest.take (room + 1)) p).1.pending.length +
    (visits fn (rest.take (room + 1)) p).1.executing.length + Awaits.rank (if _ then _ else _) ≤ _
  rw [List.length_drop]
  -- an item taken is worth 3, and leaves a task and at most a pending call; what waits last waits for all
  split_ifs with hlast
  · change _ + 1 ≤ _
    omega
  · change _ + 2 ≤ _
    omega

theorem serves_move (h : p.1.Serves concurrency items) (hm : move concurrency fn p m = some q) :
    q.1.Serves concurrency items := by
  cases m with
  | settle task =>
    simp only [move, Option.ite_none_right_eq_some, Option.some.injEq] at hm
    obtain ⟨-, rfl⟩ := hm
    exact ⟨h.wellFormed.settle task, h.items⟩
  | remove task =>
    obtain ⟨l, hl, rfl⟩ := Option.map_eq_some_iff.mp hm
    refine ⟨h.wellFormed.remove hl, ?_⟩
    rw [Limiter.remove, Option.ite_none_right_eq_some] at hl
    cases hl.2
    exact h.items
  | resume =>
    rcases resume_eq_some.mp hm with ⟨tasks, hrace, hwon, rfl⟩ | ⟨tasks, hall, hdone, rfl⟩
    · exact serves_loop h.wellFormed.ready (h.wellFormed.length_executing_lt hrace hwon) h.items
    · exact ⟨h.wellFormed.returns hall hdone, h.items⟩
  | change world =>
    cases hm
    exact h

theorem rank_move (h : p.1.Serves concurrency items) (hm : move concurrency fn p m = some q) :
    q.1.rank + (if m.own then 1 else 0) ≤ p.1.rank := by
  cases m with
  | settle task =>
    simp only [move, Option.ite_none_right_eq_some, Option.some.injEq] at hm
    obtain ⟨hpending, rfl⟩ := hm
    have hlength := List.length_erase_of_mem hpending
    have hpos := List.length_pos_of_mem hpending
    simp only [Limiter.rank, Limiter.settle, Move.own, if_pos]
    omega
  | remove task =>
    obtain ⟨l, hl, rfl⟩ := Option.map_eq_some_iff.mp hm
    rw [Limiter.remove, Option.ite_none_right_eq_some] at hl
    obtain ⟨⟨hexecuting, -⟩, hl⟩ := hl
    cases hl
    have hlength := List.length_erase_of_mem hexecuting
    have hpos := List.length_pos_of_mem hexecuting
    simp only [Limiter.rank, Move.own, if_pos]
    omega
  | resume =>
    rcases resume_eq_some.mp hm with ⟨tasks, hrace, hwon, rfl⟩ | ⟨tasks, hall, hdone, rfl⟩
    · have hrank := rank_loop fn p.1.rest (h.wellFormed.length_executing_lt hrace hwon)
      have hbefore : p.1.rank = 3 * p.1.rest.length + p.1.pending.length + p.1.executing.length + 2 := by
        rw [Limiter.rank, hrace]
        rfl
      simp only [Move.own, if_pos]
      omega
    · simp only [Limiter.rank, hall, Awaits.rank, Move.own, if_pos]
      omega
  | change world =>
    cases hm
    exact Nat.le_refl _

theorem bounded_of_serves (h : p.1.Serves concurrency items) : p.1.Bounded concurrency items :=
  ⟨⟨p.1.rest, h.items⟩, Nat.le_trans h.wellFormed.pending.length_le h.wellFormed.bound⟩

theorem bounded_within (h : p.1.Serves concurrency items) (hm : move concurrency fn p m = some q) :
    ∀ r ∈ within concurrency fn p m, r.1.Bounded concurrency items := by
  cases m with
  | resume =>
    rcases resume_eq_some.mp hm with ⟨tasks, hrace, hwon, -⟩ | ⟨tasks, hall, -, -⟩
    · simp only [within, hrace]
      exact bounded_passed h.wellFormed.ready (h.wellFormed.length_executing_lt hrace hwon) h.items
    · simp only [within, hall]
      exact fun r hr => absurd hr List.not_mem_nil
  | _ => exact fun r hr => absurd hr List.not_mem_nil

theorem bounded_moments {moves : List (Move σ)} (h : p.1.Serves concurrency items)
    (hrun : run (move concurrency fn) p moves = some q) :
    ∀ r ∈ moments concurrency fn p moves, r.1.Bounded concurrency items := by
  induction moves generalizing p with
  | nil =>
    intro r hr
    rw [List.mem_singleton.mp hr]
    exact bounded_of_serves h
  | cons m moves ih =>
    obtain ⟨u, hu, hrun⟩ := run_cons.mp hrun
    intro r hr
    rw [moments, hu, Option.elim_some, List.mem_cons, List.mem_append] at hr
    rcases hr with rfl | hr | hr
    · exact bounded_of_serves h
    · exact bounded_within h hu r hr
    · exact ih (serves_move h hu) hrun r hr

theorem exists_move (hpositive : 1 ≤ concurrency) (h : p.1.Serves concurrency items)
    (hwaits : p.1.awaits ≠ .returned) : ∃ m : Move σ, m.own = true ∧ (move concurrency fn p m).isSome = true := by
  cases hpending : p.1.pending with
  | cons t ts => exact ⟨.settle t, rfl, by simp [move, hpending]⟩
  | nil =>
    have hremove : ∀ t ∈ p.1.executing, ∃ m : Move σ, m.own = true ∧ (move concurrency fn p m).isSome = true := by
      intro t ht
      exact ⟨.remove t, rfl, by simp [move, Limiter.remove, hpending, ht]⟩
    have hawaits := h.wellFormed.awaits
    cases hw : p.1.awaits with
    | race tasks =>
      rw [hw] at hawaits
      by_cases hwon : ∃ t ∈ tasks, t ∉ p.1.executing
      · refine ⟨.resume, rfl, ?_⟩
        simp only [move, resume, hw, if_pos hwon, Option.isSome_some]
      · obtain ⟨t, ht⟩ := List.exists_mem_of_length_pos (Nat.lt_of_lt_of_eq hpositive hawaits.2.symm)
        exact hremove t (by_contra fun hnot => hwon ⟨t, ht, hnot⟩)
    | all tasks =>
      by_cases hdone : ∀ t ∈ tasks, t ∉ p.1.executing
      · refine ⟨.resume, rfl, ?_⟩
        simp only [move, resume, hw, if_pos hdone, Option.isSome_some]
      · obtain ⟨t, ht⟩ := not_forall.mp hdone
        obtain ⟨-, ht⟩ := Classical.not_imp.mp ht
        exact hremove t (not_not.mp ht)
    | returned => exact absurd hw hwaits

end Moves

section Runs

variable {concurrency : ℕ} {items : List α} {fn : Fn α σ} {world : σ} {moves : List (Move σ)} {p : Limiter α × σ}

theorem serves_start (hpositive : 1 ≤ concurrency) :
    (runWithConcurrency items fn concurrency world).1.Serves concurrency items :=
  serves_loop .start hpositive rfl

theorem runWithConcurrency_limits (hpositive : 1 ≤ concurrency)
    (h : run (move concurrency fn) (runWithConcurrency items fn concurrency world) moves = some p) :
    (∀ q ∈ allMoments items fn concurrency world moves, q.1.called <+: items ∧ q.1.pending.length ≤ concurrency) ∧
      (p.1.awaits = .returned → p.1.called = items ∧ p.1.pending = []) ∧
      moves.countP Move.own ≤ 3 * items.length + 1 ∧
      (p.1.awaits ≠ .returned → ∃ m : Move σ, m.own = true ∧ (move concurrency fn p m).isSome = true) := by
  have hstart : (runWithConcurrency items fn concurrency world).1.Serves concurrency items := serves_start hpositive
  have hserves : p.1.Serves concurrency items :=
    invariant_run (fun q : Limiter α × σ => q.1.Serves concurrency items) (fun _ _ _ => serves_move) hstart h
  refine ⟨fun q hq => ?_, fun hreturned => ?_, ?_, exists_move hpositive hserves⟩
  · have hbounded : q.1.Bounded concurrency items := by
      rcases List.mem_append.mp hq with hq | hq
      · exact bounded_passed .start hpositive rfl q hq
      · exact bounded_moments hstart h q hq
    exact ⟨hbounded.called, hbounded.pending⟩
  · have hawaits := hserves.wellFormed.awaits
    rw [hreturned] at hawaits
    have hitems := hserves.items
    rw [hawaits.2, List.append_nil] at hitems
    refine ⟨hitems, ?_⟩
    have hsublist := hserves.wellFormed.pending
    rw [hawaits.1] at hsublist
    exact List.sublist_nil.mp hsublist
  · have hcount := countP_add_rank_le (fun q : Limiter α × σ => q.1.Serves concurrency items) (fun q => q.1.rank)
      Move.own (fun _ _ _ => serves_move) (fun _ _ _ => rank_move) hstart h
    have hrank : (runWithConcurrency items fn concurrency world).1.rank ≤ 3 * items.length + 1 :=
      rank_loop fn items hpositive
    omega

def fetchAll : Fn ℕ Unit := fun _ _ world => (true, world)

def completeThree : List (Move Unit) :=
  [.settle 1, .remove 1, .resume, .settle 0, .remove 0, .resume, .settle 2, .remove 2, .resume]

theorem runWithConcurrency_limits_three :
    ∃ p, run (move 2 fetchAll) (runWithConcurrency [10, 20, 30] fetchAll 2 ()) completeThree = some p ∧
      (∀ q ∈ allMoments [10, 20, 30] fetchAll 2 () completeThree, q.1.called <+: [10, 20, 30] ∧
        q.1.pending.length ≤ 2) ∧
      p.1.called = [10, 20, 30] ∧ p.1.pending = [] := by
  have hrun : run (move 2 fetchAll) (runWithConcurrency [10, 20, 30] fetchAll 2 ()) completeThree =
      some (⟨[10, 20, 30], [], [], [], .returned⟩, ()) := by decide
  obtain ⟨hbounded, hreturned, -, -⟩ := runWithConcurrency_limits (by decide) hrun
  exact ⟨_, hrun, hbounded, hreturned rfl⟩

end Runs

end Embedai.RunWithConcurrency
