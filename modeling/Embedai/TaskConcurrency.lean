import Mathlib.Data.List.Chain
import Embedai.TaskTransitions

/-!
Requests on one task that run at the same time. Each reads the row, checks what it has read and commits an
`UPDATE` by primary key of the columns that it has changed.
-/

namespace Embedai.TaskConcurrency

open TransitionSystems TaskService

inductive Stage
  | loaded (task : AnnotationTask)
  | checked (task : AnnotationTask)
  | committed
  | refused (e : HttpError)

structure Pending where
  op : TaskOperation
  user : CurrentUser
  stage : Stage

structure State where
  db : TaskService.State
  requests : ℕ → Option Pending
  nextRequest : ℕ
  committed : List TaskStatus

def start (db : TaskService.State) : State :=
  { db := db
    requests := fun _ => none
    nextRequest := 0
    committed := [] }

def State.setStage (s : State) (i : ℕ) (p : Pending) (stage : Stage) : State :=
  { s with requests := Function.update s.requests i (some { p with stage := stage }) }

def read (s : State) (taskId : Uuid) (op : TaskOperation) (user : CurrentUser) : State :=
  let stage := match op.read s.db taskId user with
    | .ok task => Stage.loaded task
    | .error e => Stage.refused e
  { s with
    requests := Function.update s.requests s.nextRequest (some ⟨op, user, stage⟩)
    nextRequest := s.nextRequest + 1 }

def check (s : State) (i : ℕ) : Option State :=
  (s.requests i).bind fun p =>
    match p.stage with
    | .loaded task =>
      match p.op.check task p.user with
      | .ok _ => some (s.setStage i p (.checked task))
      | .error e => some (s.setStage i p (.refused e))
    | _ => none

/-- The columns that differ from what was read are written. -/
def updateRow (loaded changed found : AnnotationTask) : AnnotationTask :=
  { found with
    status := if changed.status = loaded.status then found.status else changed.status
    assignedTo := if changed.assignedTo = loaded.assignedTo then found.assignedTo else changed.assignedTo
    annotationResult :=
      if changed.annotationResult = loaded.annotationResult then found.annotationResult
      else changed.annotationResult
    updatedAt := if changed.updatedAt = loaded.updatedAt then found.updatedAt else changed.updatedAt }

def commit (s : State) (taskId : Uuid) (i : ℕ) (now : Timestamp) (accepted : Bool) : Option State :=
  (s.requests i).bind fun p =>
    match p.stage with
    | .checked task =>
      if accepted then
        (s.db.tasks.get? taskId).map fun found =>
          let row := updateRow task (p.op.change now task) found
          { s.setStage i p .committed with
            db := { s.db with tasks := s.db.tasks.set taskId row }
            committed := s.committed ++ [row.status] }
      else some (s.setStage i p (.refused internalError))
    | _ => none

inductive Action
  | read (op : TaskOperation) (user : CurrentUser)
  | check (i : ℕ)
  | commit (i : ℕ) (now : Timestamp) (accepted : Bool)

def next (taskId : Uuid) (s : State) : Action → Option State
  | .read op user => some (read s taskId op user)
  | .check i => check s i
  | .commit i now accepted => commit s taskId i now accepted

def OnPath (first : TaskStatus) (s : State) : Prop :=
  (first :: s.committed).IsChain (fun p q => q ∈ transitions p) ∧
    ∀ before after, s.committed = before ++ .approved :: after → after = []

def Unharmed (target loaded found : TaskStatus) : Prop :=
  found = loaded ∨ target = .assigned ∧ (found = .created ∨ found = .rejected) ∨
    target = .submitted ∧ (found = .assigned ∨ found = .rejected)

instance (target loaded found : TaskStatus) : Decidable (Unharmed target loaded found) :=
  inferInstanceAs (Decidable (_ ∨ _ ∨ _))

def CommitsUnharmed (taskId : Uuid) (s : State) : Action → Prop
  | .commit i _ true => ∀ p task found, s.requests i = some p → p.stage = .checked task →
      s.db.tasks.get? taskId = some found → Unharmed p.op.target task.status found.status
  | _ => True

structure Tracked (taskId : Uuid) (first : TaskStatus) (s : State) : Prop where
  row : ∃ found, s.db.tasks.get? taskId = some found ∧ (first :: s.committed).getLast? = some found.status
  allowed : ∀ i p task, s.requests i = some p → p.stage = .checked task → p.op.target ∈ transitions task.status

theorem unharmed_iff {target loaded found : TaskStatus} (h : target ∈ transitions loaded) :
    target ∈ transitions found ↔ Unharmed target loaded found := by
  cases target <;> cases loaded <;> cases found <;> revert h <;> decide

theorem ne_of_mem_transitions {target loaded : TaskStatus} (h : target ∈ transitions loaded) : target ≠ loaded := by
  cases target <;> cases loaded <;> revert h <;> decide

theorem updateRow_status {op : TaskOperation} {loaded found : AnnotationTask} {now : Timestamp}
    (h : op.target ∈ transitions loaded.status) :
    (updateRow loaded (op.change now loaded) found).status = op.target := by
  simp only [updateRow, change_status, if_neg (ne_of_mem_transitions h)]

theorem next_cases {taskId : Uuid} {s s' : State} {a : Action} (h : next taskId s a = some s') :
    s'.db = s.db ∧ s'.committed = s.committed ∧ (∀ i now, a ≠ .commit i now true) ∨
      ∃ i now p task found, a = .commit i now true ∧ s.requests i = some p ∧ p.stage = .checked task ∧
        s.db.tasks.get? taskId = some found ∧
        s' = { s.setStage i p .committed with
          db := { s.db with tasks := s.db.tasks.set taskId (updateRow task (p.op.change now task) found) }
          committed := s.committed ++ [(updateRow task (p.op.change now task) found).status] } := by
  cases a with
  | read op user =>
    cases h
    exact Or.inl ⟨rfl, rfl, fun _ _ h => (by cases h)⟩
  | check i =>
    obtain ⟨p, hp, h⟩ := Option.bind_eq_some_iff.mp h
    split at h
    · split at h
      all_goals
        cases h
        exact Or.inl ⟨rfl, rfl, fun _ _ h => (by cases h)⟩
    · cases h
  | commit i now accepted =>
    obtain ⟨p, hp, h⟩ := Option.bind_eq_some_iff.mp h
    split at h
    · rename_i task hstage
      cases accepted with
      | true =>
        obtain ⟨found, hfound, rfl⟩ := Option.map_eq_some_iff.mp h
        exact Or.inr ⟨i, now, p, task, found, rfl, hp, hstage, hfound, rfl⟩
      | false =>
        cases h
        exact Or.inl ⟨rfl, rfl, fun _ _ h => (by cases h)⟩
    · cases h

theorem allowed_setStage {s : State} {i : ℕ} {p : Pending} {stage : Stage}
    (hs : ∀ i p task, s.requests i = some p → p.stage = .checked task → p.op.target ∈ transitions task.status)
    (hstage : ∀ task, stage = .checked task → p.op.target ∈ transitions task.status) :
    ∀ j q task, (s.setStage i p stage).requests j = some q → q.stage = .checked task →
      q.op.target ∈ transitions task.status := by
  intro j q task hq hqs
  simp only [State.setStage, Function.update_apply] at hq
  split_ifs at hq
  · cases hq
    exact hstage task hqs
  · exact hs j q task hq hqs

theorem allowed_step {taskId : Uuid} {s s' : State} {a : Action}
    (hs : ∀ i p task, s.requests i = some p → p.stage = .checked task → p.op.target ∈ transitions task.status)
    (h : next taskId s a = some s') :
    ∀ i p task, s'.requests i = some p → p.stage = .checked task → p.op.target ∈ transitions task.status := by
  cases a with
  | read op user =>
    cases h
    intro j q task hq hqs
    simp only [read, Function.update_apply] at hq
    split_ifs at hq
    · cases hq
      dsimp only at hqs
      split at hqs <;> cases hqs
    · exact hs j q task hq hqs
  | check i =>
    obtain ⟨p, hp, h⟩ := Option.bind_eq_some_iff.mp h
    split at h
    · split at h
      · rename_i hcheck
        cases h
        apply allowed_setStage hs
        rintro task ⟨⟩
        exact check_eq_ok hcheck
      · cases h
        exact allowed_setStage hs (fun _ h => by cases h)
    · cases h
  | commit i now accepted =>
    obtain ⟨p, hp, h⟩ := Option.bind_eq_some_iff.mp h
    split at h
    · cases accepted with
      | true =>
        obtain ⟨found, hfound, rfl⟩ := Option.map_eq_some_iff.mp h
        exact allowed_setStage hs (fun _ h => by cases h)
      | false =>
        cases h
        exact allowed_setStage hs (fun _ h => by cases h)
    · cases h

theorem tracked_step {taskId : Uuid} {first : TaskStatus} {s s' : State} {a : Action}
    (hs : Tracked taskId first s) (h : next taskId s a = some s') : Tracked taskId first s' := by
  refine ⟨?_, allowed_step hs.allowed h⟩
  rcases next_cases h with ⟨hdb, hcommitted, -⟩ | ⟨i, now, p, task, found, -, hp, hstage, hfound, rfl⟩
  · rw [hdb, hcommitted]
    exact hs.row
  · refine ⟨_, by rw [OrderedDict.get?_set, if_pos rfl], ?_⟩
    rw [← List.cons_append, List.getLast?_concat]

theorem isChain_snoc {first last target : TaskStatus} {l : List TaskStatus}
    (hlast : (first :: l).getLast? = some last) :
    (first :: (l ++ [target])).IsChain (fun p q => q ∈ transitions p) ↔
      (first :: l).IsChain (fun p q => q ∈ transitions p) ∧ target ∈ transitions last := by
  rw [← List.cons_append, List.isChain_append]
  simp [hlast]

theorem after_approved {first : TaskStatus} {l before after : List TaskStatus}
    (h : (first :: l).IsChain (fun p q => q ∈ transitions p)) (hl : l = before ++ .approved :: after) :
    after = [] := by
  subst hl
  cases after with
  | nil => rfl
  | cons q after =>
    rw [← List.cons_append, List.isChain_append] at h
    have hq := h.2.1
    simp [transitions] at hq

theorem onPath_iff {first : TaskStatus} {s : State} :
    OnPath first s ↔ (first :: s.committed).IsChain (fun p q => q ∈ transitions p) :=
  ⟨fun h => h.1, fun h => ⟨h, fun _ _ => after_approved h⟩⟩

theorem onPath_step {taskId : Uuid} {first : TaskStatus} {s s' : State} {a : Action}
    (hs : Tracked taskId first s) (h : next taskId s a = some s') :
    OnPath first s' ↔ OnPath first s ∧ CommitsUnharmed taskId s a := by
  rw [onPath_iff, onPath_iff]
  rcases next_cases h with ⟨-, hcommitted, hno⟩ | ⟨i, now, p, task, found, rfl, hp, hstage, hfound, rfl⟩
  · have hok : CommitsUnharmed taskId s a := by
      unfold CommitsUnharmed
      split
      · exact absurd rfl (hno _ _)
      · trivial
    rw [hcommitted]
    exact ⟨fun hc => ⟨hc, hok⟩, fun hc => hc.1⟩
  · obtain ⟨row, hrow, hlast⟩ := hs.row
    rw [hfound, Option.some.injEq] at hrow
    subst hrow
    have hallowed := hs.allowed i p task hp hstage
    dsimp only
    rw [updateRow_status hallowed, isChain_snoc hlast, unharmed_iff hallowed]
    refine and_congr_right (fun _ => ⟨?_, fun hok => hok p task found hp hstage hfound⟩)
    intro hu p' task' found' hp' hstage' hfound'
    rw [hp, Option.some.injEq] at hp'
    subst hp'
    rw [hstage, Stage.checked.injEq] at hstage'
    rw [hfound, Option.some.injEq] at hfound'
    rw [← hstage', ← hfound']
    exact hu

theorem onPath_start (first : TaskStatus) (db : TaskService.State) : OnPath first (start db) :=
  onPath_iff.mpr (List.isChain_singleton first)

theorem tracked_start {taskId : Uuid} {db : TaskService.State} {task : AnnotationTask}
    (h : db.tasks.get? taskId = some task) : Tracked taskId task.status (start db) :=
  ⟨⟨task, h, rfl⟩, fun _ _ _ h => by cases h⟩

def oneTask : TaskService.State := serve plainDriver TaskService.initial createLinked

def twoReviewers : List Action :=
  [.read (.assign ⟨5⟩) engineer, .check 0, .commit 0 1 true,
    .read (.submit .good none) engineer, .check 1, .commit 1 2 true,
    .read .approve engineer, .read (.reject none) engineer, .check 2, .check 3,
    .commit 2 3 true, .commit 3 4 true]

theorem rejected_after_approval :
    ¬ ∀ (taskId : Uuid) (db : TaskService.State) (task : AnnotationTask) (actions : List Action) (s : State),
      db.tasks.get? taskId = some task → run (next taskId) (start db) actions = some s →
      OnPath task.status s := by
  intro h
  have hrun : (run (next ⟨1⟩) (start oneTask) twoReviewers).any
      (fun s => s.committed = [.assigned, .submitted, .approved, .rejected]) = true := by decide +kernel
  obtain ⟨s, hs, hc⟩ := (Option.any_eq_true _ _).mp hrun
  have htask : (oneTask.tasks.get? ⟨1⟩).isSome = true := by decide +kernel
  obtain ⟨task, ht⟩ := Option.isSome_iff_exists.mp htask
  have hend := (h ⟨1⟩ oneTask task twoReviewers s ht hs).2 [.assigned, .submitted] [.rejected] (by simpa using hc)
  cases hend

theorem onPath_iff_commitsUnharmed (taskId : Uuid) (db : TaskService.State) (task : AnnotationTask)
    (actions : List Action) (s : State) (ht : db.tasks.get? taskId = some task)
    (h : run (next taskId) (start db) actions = some s) :
    OnPath task.status s ↔ Along (next taskId) (CommitsUnharmed taskId) (start db) actions :=
  iff_along (Tracked taskId task.status) (OnPath task.status) (fun _ _ _ hs hn => tracked_step hs hn)
    (fun _ _ _ hs hn => onPath_step hs hn) (tracked_start ht) (onPath_start task.status db) h

theorem onPath_iff_commitsUnharmed_twoReviewers :
    (run (next ⟨1⟩) (start oneTask) twoReviewers).isSome ∧ (oneTask.tasks.get? ⟨1⟩).isSome ∧
      ∀ task s, oneTask.tasks.get? ⟨1⟩ = some task → run (next ⟨1⟩) (start oneTask) twoReviewers = some s →
        (OnPath task.status s ↔ Along (next ⟨1⟩) (CommitsUnharmed ⟨1⟩) (start oneTask) twoReviewers) :=
  ⟨by decide +kernel, by decide +kernel,
    fun task s ht h => onPath_iff_commitsUnharmed ⟨1⟩ oneTask task twoReviewers s ht h⟩

end Embedai.TaskConcurrency
