import Mathlib.Data.List.Nodup

/-!
`runWithConcurrency`. A task is the promise of a call of `fn` with its `finally`, and its number is the place of the
call; `world` is what `fn` reads and writes before its first `await`.
-/

namespace Embedai.RunWithConcurrency

inductive Awaits
  | race (tasks : List ℕ)
  | all (tasks : List ℕ)
  | returned
  deriving DecidableEq

structure Limiter (α : Type) where
  called : List α
  rest : List α
  executing : List ℕ
  /-- The tasks whose call of `fn` has not resolved. -/
  pending : List ℕ
  awaits : Awaits
  deriving DecidableEq

variable {α σ : Type}

namespace Limiter

def start : Limiter α := ⟨[], [], [], [], .all []⟩

def push (item : α) (pends : Bool) (l : Limiter α) : Limiter α :=
  { l with
    called := l.called ++ [item]
    executing := l.executing ++ [l.called.length]
    pending := if pends then l.pending ++ [l.called.length] else l.pending }

def wait (rest : List α) (awaits : Awaits) (l : Limiter α) : Limiter α := { l with rest := rest, awaits := awaits }

def settle (task : ℕ) (l : Limiter α) : Limiter α := { l with pending := l.pending.erase task }

/-- The callback of `finally`. -/
def remove (task : ℕ) (l : Limiter α) : Option (Limiter α) :=
  if task ∈ l.executing ∧ task ∉ l.pending then some { l with executing := l.executing.erase task } else none

end Limiter

/-- `fn` gets the number of its task, and says whether its promise is pending when it comes back. -/
abbrev Fn (α σ : Type) := ℕ → α → σ → Bool × σ

def visit (fn : Fn α σ) (item : α) (p : Limiter α × σ) : Limiter α × σ :=
  (p.1.push item (fn p.1.called.length item p.2).1, (fn p.1.called.length item p.2).2)

/-- The `for` loop up to its next `await`. -/
def loop (concurrency : ℕ) (fn : Fn α σ) : List α → Limiter α × σ → Limiter α × σ
  | [], p => (p.1.wait [] (.all p.1.executing), p.2)
  | item :: rest, p =>
    if concurrency ≤ (visit fn item p).1.executing.length then
      ((visit fn item p).1.wait rest (.race (visit fn item p).1.executing), (visit fn item p).2)
    else loop concurrency fn rest (visit fn item p)

def runWithConcurrency (items : List α) (fn : Fn α σ) (concurrency : ℕ) (world : σ) : Limiter α × σ :=
  loop concurrency fn items (.start, world)

/-- The `await` is over: one of the tasks that race has removed itself, or all tasks have. -/
def resume (concurrency : ℕ) (fn : Fn α σ) (p : Limiter α × σ) : Option (Limiter α × σ) :=
  match p.1.awaits with
  | .race tasks => if ∃ t ∈ tasks, t ∉ p.1.executing then some (loop concurrency fn p.1.rest p) else none
  | .all tasks => if ∀ t ∈ tasks, t ∉ p.1.executing then some ({ p.1 with awaits := .returned }, p.2) else none
  | .returned => none

def visits (fn : Fn α σ) (items : List α) (p : Limiter α × σ) : Limiter α × σ :=
  items.foldl (fun p item => visit fn item p) p

theorem visits_cons (fn : Fn α σ) (item : α) (items : List α) (p : Limiter α × σ) :
    visits fn (item :: items) p = visits fn items (visit fn item p) := rfl

theorem visits_induction {fn : Fn α σ} {items : List α} {p : Limiter α × σ} (J : Limiter α × σ → Prop) (hp : J p)
    (hvisit : ∀ item ∈ items, ∀ q, J q → J (visit fn item q)) : J (visits fn items p) := by
  induction items generalizing p with
  | nil => exact hp
  | cons item items ih =>
    exact ih (hvisit item (List.mem_cons_self ..) p hp) fun i hi => hvisit i (List.mem_cons_of_mem _ hi)

theorem resume_eq_some {concurrency : ℕ} {fn : Fn α σ} {p q : Limiter α × σ} :
    resume concurrency fn p = some q ↔
      (∃ tasks, p.1.awaits = .race tasks ∧ (∃ t ∈ tasks, t ∉ p.1.executing) ∧
        q = loop concurrency fn p.1.rest p) ∨
      (∃ tasks, p.1.awaits = .all tasks ∧ (∀ t ∈ tasks, t ∉ p.1.executing) ∧
        q = ({ p.1 with awaits := .returned }, p.2)) := by
  unfold resume
  cases p.1.awaits <;> simp [@eq_comm _ q]

section Visits

variable (fn : Fn α σ) (items : List α) (p : Limiter α × σ)

theorem called_visits : (visits fn items p).1.called = p.1.called ++ items := by
  induction items generalizing p with
  | nil => exact (List.append_nil _).symm
  | cons item items ih =>
    rw [visits_cons, ih]
    exact List.append_assoc _ [item] items

theorem executing_visits :
    (visits fn items p).1.executing = p.1.executing ++ List.range' p.1.called.length items.length := by
  induction items generalizing p with
  | nil => exact (List.append_nil _).symm
  | cons item items ih =>
    rw [visits_cons, ih, visit, Limiter.push, List.length_append, List.length_singleton, List.append_assoc,
      List.length_cons, List.range'_succ, List.singleton_append]

theorem length_executing_visits :
    (visits fn items p).1.executing.length = p.1.executing.length + items.length := by
  rw [executing_visits, List.length_append, List.length_range']

end Visits

theorem loop_eq {concurrency : ℕ} {fn : Fn α σ} {items : List α} {p : Limiter α × σ} {room : ℕ}
    (hroom : concurrency = p.1.executing.length + (room + 1)) :
    loop concurrency fn items p =
      ((visits fn (items.take (room + 1)) p).1.wait (items.drop (room + 1))
        (if items.length ≤ room then .all (visits fn (items.take (room + 1)) p).1.executing
          else .race (visits fn (items.take (room + 1)) p).1.executing),
        (visits fn (items.take (room + 1)) p).2) := by
  induction items generalizing p room with
  | nil =>
    have hnone : ([] : List α).length ≤ room := Nat.zero_le room
    rw [List.take_nil, List.drop_nil, if_pos hnone]
    rfl
  | cons item items ih =>
    have hlength : (visit fn item p).1.executing.length = p.1.executing.length + 1 := List.length_append
    rw [List.take_succ_cons, List.drop_succ_cons, List.length_cons, visits_cons, loop, hlength]
    cases room with
    | zero =>
      rw [if_pos (Nat.le_of_eq hroom), if_neg (Nat.not_succ_le_zero _)]
      rfl
    | succ room =>
      have hnext : concurrency = (visit fn item p).1.executing.length + (room + 1) := by omega
      rw [if_neg (by omega), ih hnext]
      simp only [Nat.add_le_add_iff_right]

theorem exists_visits_loop {concurrency : ℕ} (fn : Fn α σ) (items : List α) {p : Limiter α × σ}
    (hroom : p.1.executing.length < concurrency) :
    ∃ awaits, loop concurrency fn items p =
      ((visits fn (items.take (concurrency - p.1.executing.length)) p).1.wait
        (items.drop (concurrency - p.1.executing.length)) awaits,
        (visits fn (items.take (concurrency - p.1.executing.length)) p).2) := by
  obtain ⟨room, hc⟩ := Nat.exists_eq_add_of_lt hroom
  have hfree : concurrency - p.1.executing.length = room + 1 := by omega
  rw [hfree]
  exact ⟨_, loop_eq hc⟩

def Awaits.Covers (concurrency : ℕ) (l : Limiter α) : Awaits → Prop
  | .race tasks => l.executing.Sublist tasks ∧ tasks.length = concurrency
  | .all tasks => l.executing.Sublist tasks ∧ l.rest = []
  | .returned => l.executing = [] ∧ l.rest = []

structure Limiter.WellFormed (concurrency : ℕ) (l : Limiter α) : Prop where
  nodup : l.executing.Nodup
  bound : l.executing.length ≤ concurrency
  called : ∀ t ∈ l.executing, t < l.called.length
  pending : l.pending.Sublist l.executing
  awaits : l.awaits.Covers concurrency l

namespace Limiter.WellFormed

variable {concurrency task : ℕ} {l l' : Limiter α}

theorem settle (h : l.WellFormed concurrency) (task : ℕ) : (l.settle task).WellFormed concurrency :=
  ⟨h.nodup, h.bound, h.called, List.erase_sublist.trans h.pending, h.awaits⟩

theorem remove (h : l.WellFormed concurrency) (hl : l.remove task = some l') : l'.WellFormed concurrency := by
  rw [Limiter.remove, Option.ite_none_right_eq_some] at hl
  obtain ⟨⟨-, hpending⟩, hl⟩ := hl
  cases hl
  have hsublist : (l.executing.erase task).Sublist l.executing := List.erase_sublist
  refine ⟨h.nodup.sublist hsublist, Nat.le_trans hsublist.length_le h.bound,
    fun t ht => h.called t (hsublist.mem ht), ?_, ?_⟩
  · have herase := h.pending.erase task
    rw [List.erase_of_not_mem hpending] at herase
    exact herase
  · have hawaits := h.awaits
    change l.awaits.Covers concurrency { l with executing := l.executing.erase task }
    cases hw : l.awaits with
    | race tasks =>
      rw [hw] at hawaits
      exact ⟨hsublist.trans hawaits.1, hawaits.2⟩
    | all tasks =>
      rw [hw] at hawaits
      exact ⟨hsublist.trans hawaits.1, hawaits.2⟩
    | returned =>
      rw [hw] at hawaits
      refine ⟨?_, hawaits.2⟩
      change l.executing.erase task = []
      rw [hawaits.1]
      rfl

theorem returns (h : l.WellFormed concurrency) {tasks : List ℕ} (hall : l.awaits = .all tasks)
    (hdone : ∀ t ∈ tasks, t ∉ l.executing) : ({ l with awaits := .returned } : Limiter α).WellFormed concurrency := by
  have hawaits := h.awaits
  rw [hall] at hawaits
  have hnone : l.executing = [] := by
    refine List.eq_nil_iff_forall_not_mem.mpr fun t ht => ?_
    exact hdone t (hawaits.1.mem ht) ht
  exact ⟨h.nodup, h.bound, h.called, h.pending, hnone, hawaits.2⟩

theorem length_executing_lt (h : l.WellFormed concurrency) {tasks : List ℕ} (hrace : l.awaits = .race tasks)
    (hwon : ∃ t ∈ tasks, t ∉ l.executing) : l.executing.length < concurrency := by
  have hawaits := h.awaits
  rw [hrace] at hawaits
  obtain ⟨t, ht, hnot⟩ := hwon
  refine Nat.lt_of_le_of_ne h.bound fun hlength => hnot ?_
  rw [hawaits.1.eq_of_length (hlength.trans hawaits.2.symm)]
  exact ht

end Limiter.WellFormed

structure Limiter.Ready (l : Limiter α) : Prop where
  nodup : l.executing.Nodup
  called : ∀ t ∈ l.executing, t < l.called.length
  pending : l.pending.Sublist l.executing

namespace Limiter.Ready

theorem start : (Limiter.start : Limiter α).Ready := ⟨List.nodup_nil, nofun, .slnil⟩

theorem visit {p : Limiter α × σ} (h : p.1.Ready) (fn : Fn α σ) (item : α) :
    (RunWithConcurrency.visit fn item p).1.Ready := by
  have hfresh : p.1.called.length ∉ p.1.executing := fun hmem => Nat.lt_irrefl _ (h.called _ hmem)
  refine ⟨?_, ?_, ?_⟩
  · have hconcat := h.nodup.concat hfresh
    rw [List.concat_eq_append] at hconcat
    exact hconcat
  · intro t ht
    change t < (p.1.called ++ [item]).length
    rw [List.length_append, List.length_singleton]
    rcases List.mem_append.mp ht with ht | ht
    · exact Nat.lt_succ_of_lt (h.called t ht)
    · rw [List.mem_singleton.mp ht]
      exact Nat.lt_succ_self _
  · change List.Sublist (if _ then _ else _) _
    split
    · exact h.pending.append (List.Sublist.refl _)
    · exact h.pending.trans (List.sublist_append_left _ _)

theorem visits {p : Limiter α × σ} (h : p.1.Ready) (fn : Fn α σ) (items : List α) :
    (RunWithConcurrency.visits fn items p).1.Ready := by
  induction items generalizing p with
  | nil => exact h
  | cons item items ih => exact ih (h.visit fn item)

theorem loop {concurrency : ℕ} {fn : Fn α σ} {items : List α} {p : Limiter α × σ} (h : p.1.Ready)
    (hroom : p.1.executing.length < concurrency) :
    (RunWithConcurrency.loop concurrency fn items p).1.WellFormed concurrency := by
  obtain ⟨room, hc⟩ := Nat.exists_eq_add_of_lt hroom
  rw [loop_eq hc]
  have hready := h.visits fn (items.take (room + 1))
  have hlength := length_executing_visits fn (items.take (room + 1)) p
  rw [List.length_take] at hlength
  refine ⟨hready.nodup, ?_, hready.called, hready.pending, ?_⟩
  · change (RunWithConcurrency.visits fn (items.take (room + 1)) p).1.executing.length ≤ concurrency
    omega
  · change Awaits.Covers _ _ (if _ then _ else _)
    split
    · exact ⟨List.Sublist.refl _, List.drop_eq_nil_of_le (by omega)⟩
    · exact ⟨List.Sublist.refl _, by omega⟩

end Limiter.Ready

theorem Limiter.WellFormed.ready {concurrency : ℕ} {l : Limiter α} (h : l.WellFormed concurrency) : l.Ready :=
  ⟨h.nodup, h.called, h.pending⟩

end Embedai.RunWithConcurrency
