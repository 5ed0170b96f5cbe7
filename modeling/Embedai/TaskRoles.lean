import Embedai.TaskIsolation

namespace Embedai.TaskService

open Handlers (except_bind_eq_ok)
open TransitionSystems

def Reviewer (user : CurrentUser) (task : AnnotationTask) : Prop :=
  (user.role = some "engineer" ∨ user.role = some "admin") ∧ Uuid.parse user.projectId = some task.projectId

def Submitter (user : CurrentUser) (task : AnnotationTask) : Prop :=
  (user.role = some "engineer" ∨ user.role = some "admin") ∨
    ∃ id, task.assignedTo = some id ∧ user.userId = id.text

def Permits (user : CurrentUser) (task : AnnotationTask) : TaskOperation → Prop
  | .submit _ _ => Submitter user task
  | _ => Reviewer user task

structure Authorised (driver : Driver) (s : State) (r : Request) : Prop where
  reviewed : ∀ taskId task before after, s.tasks.get? taskId = some task → StatusChange driver s r taskId before after →
    after ∈ [TaskStatus.assigned, .approved, .rejected] → ∃ user, r.user? = some user ∧ Reviewer user task
  submitted : ∀ taskId task before user, s.tasks.get? taskId = some task →
    StatusChange driver s r taskId before .submitted → r.user? = some user → Submitter user task
  others : ∀ taskId task user, s.tasks.get? taskId = some task → r.user? = some user →
    (¬ ∃ op, r.operation? = some (taskId, op) ∧ Permits user task op) →
      (serve driver s r).tasks.get? taskId = some task

def Request.Canonical (r : Request) : Prop := ∀ user, r.user? = some user → ∃ id : Uuid, user.userId = id.text

variable {driver : Driver} {s : State} {r : Request} {taskId : Uuid} {task : AnnotationTask}
  {user : CurrentUser} {op : TaskOperation}

theorem assignedTo_of_assignee {id : Uuid} (h : task.assignee = id.text) : task.assignedTo = some id := by
  unfold AnnotationTask.assignee at h
  split at h
  · rename_i assigned hassigned
    rw [hassigned, Uuid.text_injective h]
  · exact absurd h.symm (id.text_ne_of_parse (by decide +kernel))

theorem requireRole_eq_ok {roles : List String} {u : Unit} :
    requireRole roles user = .ok u ↔ ∃ role ∈ roles, user.role = some role := by
  unfold requireRole
  cases user.role with
  | none => simp
  | some role =>
    by_cases h : role ∈ roles
    · simp [h]
    · simp [h]

theorem reviewer_of_read {u : Unit} (hrole : requireRole ["engineer", "admin"] user = .ok u)
    (hfind : findTaskInProject s taskId user = .ok task) : Reviewer user task := by
  obtain ⟨role, hmem, hrole⟩ := requireRole_eq_ok.mp hrole
  refine ⟨?_, parseId_eq_ok.mp (findTaskInProject_eq_ok.mp hfind).1⟩
  rcases List.mem_pair.mp hmem with rfl | rfl
  · exact Or.inl hrole
  · exact Or.inr hrole

theorem submitter_of_maySubmit (hcanonical : ∃ id : Uuid, user.userId = id.text) (h : MaySubmit user task) :
    Submitter user task := by
  obtain ⟨id, hid⟩ := hcanonical
  rcases h with hadmin | hengineer | hassignee
  · exact Or.inl (Or.inr hadmin)
  · exact Or.inl (Or.inl hengineer)
  · exact Or.inr ⟨id, assignedTo_of_assignee (hassignee.trans hid), hid⟩

theorem permits_of_ok (hcanonical : ∃ id : Uuid, user.userId = id.text) (hread : op.read s taskId user = .ok task)
    (hcheck : op.check task user = .ok ()) : Permits user task op := by
  cases op with
  | submit quality notes => exact submitter_of_maySubmit hcanonical (check_submit_eq_ok.mp hcheck).1
  | assign userId =>
    obtain ⟨_, hrole, hfind⟩ := except_bind_eq_ok.mp hread
    exact reviewer_of_read hrole hfind
  | approve =>
    obtain ⟨_, hrole, hfind⟩ := except_bind_eq_ok.mp hread
    exact reviewer_of_read hrole hfind
  | reject comment =>
    obtain ⟨_, hrole, hfind⟩ := except_bind_eq_ok.mp hread
    exact reviewer_of_read hrole hfind

theorem tasks_approve (s : State) (taskId : Uuid) (user : CurrentUser) (now : Timestamp) (commits publishes : Bool) :
    (approveTask s taskId user now commits publishes).2.tasks =
      (operate s taskId .approve user now commits).2.tasks := by
  unfold approveTask
  split
  · rename_i out s' hop
    rw [hop]
    split <;> rfl
  · rename_i e s' hop
    rw [hop]

theorem tasks_serve (hop : r.operation? = some (taskId, op)) (huser : r.user? = some user) :
    ∃ now commits, (serve driver s r).tasks = (operate s taskId op user now commits).2.tasks := by
  cases r with
  | create body user newId now flush lsTaskId commits => cases hop
  | assign taskId userId user now commits =>
    cases hop
    cases huser
    exact ⟨now, commits, rfl⟩
  | submit taskId quality notes user now commits =>
    cases hop
    cases huser
    exact ⟨now, commits, rfl⟩
  | approve taskId user now commits publishes =>
    cases hop
    cases huser
    exact ⟨now, commits, tasks_approve ..⟩
  | reject taskId comment user now commits =>
    cases hop
    cases huser
    exact ⟨now, commits, rfl⟩
  | webhook payload newId now commits => cases hop

theorem permits_of_changed (hcanonical : r.Canonical) (ht : s.tasks.get? taskId = some task)
    (huser : r.user? = some user) (h : (serve driver s r).tasks.get? taskId ≠ some task) :
    ∃ op now, r.operation? = some (taskId, op) ∧ Permits user task op ∧
      (serve driver s r).tasks.get? taskId = some (op.change now task) := by
  obtain ⟨task', ht', hchange⟩ := task_step (step_serve driver s r) ht
  cases hchange with
  | kept => exact absurd ht' h
  | delivered hr =>
    rw [hr] at huser
    cases huser
  | @moved op now hr hedge =>
    refine ⟨op, now, hr, ?_, ht'⟩
    have hserve : ∃ now' commits, (serve driver s r).tasks = (operate s taskId op user now' commits).2.tasks :=
      tasks_serve hr huser
    obtain ⟨now', commits, htasks⟩ := hserve
    have hchanged : (operate s taskId op user now' commits).2 ≠ s := by
      intro hsame
      rw [htasks, hsame] at h
      exact h ht
    obtain ⟨-, row, hread, hcheck⟩ := operate_changes hchanged
    have hrow := read_eq_ok hread
    rw [ht, Option.some.injEq] at hrow
    exact permits_of_ok (hcanonical user huser) (hrow ▸ hread) (hrow ▸ hcheck)

theorem changed_of_statusChange {before after : TaskStatus} (ht : s.tasks.get? taskId = some task)
    (h : StatusChange driver s r taskId before after) : (serve driver s r).tasks.get? taskId ≠ some task := by
  obtain ⟨hbefore, hafter, hne⟩ := h
  intro hsame
  simp only [next, Option.bind_some, statusOf, ht, hsame, Option.map_some, Option.some.injEq] at hbefore hafter
  exact hne (hbefore.symm.trans hafter)

theorem target_of_statusChange {before after : TaskStatus} {now : Timestamp}
    (h : StatusChange driver s r taskId before after)
    (ht : (serve driver s r).tasks.get? taskId = some (op.change now task)) : after = op.target := by
  have hafter := h.2.1
  simp only [next, Option.bind_some, statusOf, ht, Option.map_some, Option.some.injEq, change_status] at hafter
  exact hafter.symm

theorem operation?_of_user?_none (h : r.user? = none) : r.operation? = none := by
  cases r with
  | create body user newId now flush lsTaskId commits => rfl
  | assign taskId userId user now commits => cases h
  | submit taskId quality notes user now commits => cases h
  | approve taskId user now commits publishes => cases h
  | reject taskId comment user now commits => cases h
  | webhook payload newId now commits => rfl

theorem submitted_of_user?_none {before after : TaskStatus} (huser : r.user? = none)
    (ht : s.tasks.get? taskId = some task) (h : StatusChange driver s r taskId before after) : after = .submitted := by
  obtain ⟨task', ht', hchange⟩ := task_step (step_serve driver s r) ht
  have hafter := h.2.1
  simp only [next, Option.bind_some, statusOf, ht', Option.map_some, Option.some.injEq] at hafter
  cases hchange with
  | kept => exact absurd ht' (changed_of_statusChange ht h)
  | moved hr hedge =>
    rw [operation?_of_user?_none huser] at hr
    cases hr
  | delivered hr =>
    rcases advanceTask_status _ task with hs | ⟨-, hs⟩
    · have hbefore := h.1
      simp only [statusOf, ht, Option.map_some, Option.some.injEq] at hbefore
      exact absurd (hbefore.symm.trans (hs.symm.trans hafter)) h.2.2
    · exact hafter.symm.trans hs

theorem reviewer_of_permits (h : Permits user task op) (hop : op.target ≠ .submitted) : Reviewer user task := by
  cases op with
  | submit quality notes => exact absurd rfl hop
  | assign userId => exact h
  | approve => exact h
  | reject comment => exact h

theorem submitter_of_permits (h : Permits user task op) (hop : op.target = .submitted) : Submitter user task := by
  cases op with
  | submit quality notes => exact h
  | assign userId => cases hop
  | approve => cases hop
  | reject comment => cases hop

theorem authorised (hcanonical : r.Canonical) : Authorised driver s r := by
  constructor
  · intro taskId task before after ht hchange hafter
    have hne : after ≠ .submitted := by
      rintro rfl
      exact absurd hafter (by decide)
    cases huser : r.user? with
    | none => exact absurd (submitted_of_user?_none huser ht hchange) hne
    | some user =>
      obtain ⟨op, now, -, hpermits, ht'⟩ := permits_of_changed hcanonical ht huser (changed_of_statusChange ht hchange)
      rw [target_of_statusChange hchange ht'] at hne
      exact ⟨user, rfl, reviewer_of_permits hpermits hne⟩
  · intro taskId task before user ht hchange huser
    obtain ⟨op, now, -, hpermits, ht'⟩ := permits_of_changed hcanonical ht huser (changed_of_statusChange ht hchange)
    exact submitter_of_permits hpermits (target_of_statusChange hchange ht').symm
  · intro taskId task user ht huser hrefused
    by_contra h
    obtain ⟨op, now, hop, hpermits, -⟩ := permits_of_changed hcanonical ht huser h
    exact hrefused ⟨op, hop, hpermits⟩

theorem rbac_trace (driver : Driver) (s : State) (requests : List Request)
    (hcanonical : ∀ r ∈ requests, r.Canonical) : Along (next driver) (Authorised driver) s requests :=
  along_of_invariant (fun _ => True) (fun _ _ _ _ _ _ => trivial) (fun _ _ _ h => authorised h) trivial
    (along_of_mem hcanonical)

def annotator : CurrentUser :=
  ⟨"00000000-0000-0000-0000-0000000000f5", "00000000-0000-0000-0000-0000000000a1", some "annotator_internal"⟩

def reassigned : List Request :=
  [createLinked, .assign ⟨1⟩ ⟨0xf5⟩ engineer 1 true, .submit ⟨1⟩ .good none annotator 2 true,
    .reject ⟨1⟩ none engineer 3 true, .assign ⟨1⟩ ⟨0xf6⟩ engineer 4 true, .submit ⟨1⟩ .good none annotator 5 true]

theorem canonical_reassigned : ∀ r ∈ reassigned, r.Canonical := by
  have hengineer : ∃ id : Uuid, engineer.userId = id.text := ⟨⟨0xe1⟩, by decide +kernel⟩
  have hannotator : ∃ id : Uuid, annotator.userId = id.text := ⟨⟨0xf5⟩, by decide +kernel⟩
  intro r hr user huser
  simp only [reassigned, List.mem_cons, List.not_mem_nil, or_false] at hr
  rcases hr with rfl | rfl | rfl | rfl | rfl | rfl
  all_goals
    cases huser
    assumption

theorem rbac_trace_reassigned : Along (next plainDriver) (Authorised plainDriver) initial reassigned :=
  rbac_trace plainDriver initial reassigned canonical_reassigned

end Embedai.TaskService
