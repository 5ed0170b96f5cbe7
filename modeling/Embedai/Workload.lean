import Embedai.ListSums
import Embedai.TaskRoles

namespace Embedai.TaskService

open ListSums TransitionSystems
open Handlers (except_bind_eq_ok)

structure User where
  email : String
  name : String
  role : String
  skillTags : Option (List Json)
  projectId : Option Uuid
  isActive : Bool

structure UserWorkloadOut where
  id : String
  email : String
  name : String
  role : String
  skillTags : List Json
  pendingTaskCount : ℕ

/-- `LIKE` with the default escape character. -/
def like : List Char → List Char → Bool
  | [], s => s.isEmpty
  | '%' :: pattern, s => s.tails.any fun rest => like pattern rest
  | '_' :: pattern, s => match s with
    | [] => false
    | _ :: rest => like pattern rest
  | '\\' :: c :: pattern, s => s.head? = some c && like pattern s.tail
  | c :: pattern, s => s.head? = some c && like pattern s.tail

def startsWith (text pattern : String) : Bool := like (pattern.toList ++ ['%']) text.toList

def pendingStatuses : List TaskStatus := [.assigned, .created]

def countsByAssignee (s : State) (projectId : Uuid) : OrderedDict Uuid ℕ :=
  tally ((s.tasks.values.filter fun task =>
    task.projectId = projectId ∧ task.status ∈ pendingStatuses).filterMap AnnotationTask.assignedTo)

def workloadOut (workload : OrderedDict Uuid ℕ) (u : Uuid × User) : UserWorkloadOut where
  id := u.1.text
  email := u.2.email
  name := u.2.name
  role := u.2.role
  skillTags := u.2.skillTags.getD []
  pendingTaskCount := (workload.get? u.1).getD 0

def listUsersWithWorkload (users : OrderedDict Uuid User) (s : State) (role : Option String) (includeWorkload : Bool)
    (user : CurrentUser) : Except HttpError (List UserWorkloadOut) := do
  requireRole ["engineer", "admin"] user
  let projectId ← parseId user.projectId
  let listed := users.items.filter fun u => u.2.projectId = some projectId ∧ u.2.isActive
  let selected := match role with
    | none => listed
    | some role => if role = "" then listed else listed.filter fun u => startsWith u.2.role role
  let workload := if includeWorkload then countsByAssignee s projectId else OrderedDict.empty
  return selected.map (workloadOut workload)

def openTasks (s : State) (projectId id : Uuid) : ℕ :=
  s.tasks.values.countP fun task =>
    task.projectId = projectId ∧ task.assignedTo = some id ∧ .submitted ∈ transitions task.status

def ActiveIn (users : OrderedDict Uuid User) (projectId id : Uuid) : Prop :=
  ∃ u, users.get? id = some u ∧ u.projectId = some projectId ∧ u.isActive = true

def CountsOpenWork (users : OrderedDict Uuid User) (s : State) : Prop :=
  ∀ role user rows, listUsersWithWorkload users s role true user = .ok rows →
    ∀ projectId id, Uuid.parse user.projectId = some projectId → ActiveIn users projectId id →
      ∀ row ∈ rows, row.id = id.text → row.pendingTaskCount = openTasks s projectId id

def RejectsAssigned (users : OrderedDict Uuid User) (s : State) : Request → Prop
  | .reject taskId comment user _ commits => commits = true ∧ ∃ task id,
      (TaskOperation.reject comment).read s taskId user = .ok task ∧ task.status = .submitted ∧
      task.assignedTo = some id ∧ ActiveIn users task.projectId id
  | _ => False

def CreatedUnassigned (s : State) : Prop :=
  ∀ id task, s.tasks.get? id = some task → task.status = .created → task.assignedTo = none

def NoRejectedWork (users : OrderedDict Uuid User) (s : State) : Prop :=
  ∀ taskId task, s.tasks.get? taskId = some task → task.status = .rejected → ∀ id, task.assignedTo = some id →
    ¬ ActiveIn users task.projectId id

def rejectedTasks (s : State) (projectId id : Uuid) : ℕ :=
  s.tasks.values.countP fun task => task.projectId = projectId ∧ task.assignedTo = some id ∧ task.status = .rejected

variable {driver : Driver} {users : OrderedDict Uuid User} {s t : State} {r : Request}

theorem not_created_of_moved {op : TaskOperation} (now : Timestamp) (task : AnnotationTask) :
    (op.change now task).status ≠ .created := by
  cases op <;> exact nofun

theorem get?_initial (id : Uuid) : initial.tasks.get? id = none := rfl

theorem createdUnassigned_initial : CreatedUnassigned initial := by
  intro id task hget
  rw [get?_initial] at hget
  cases hget

theorem createdUnassigned_step (hs : CreatedUnassigned s) (h : next driver s r = some t) : CreatedUnassigned t := by
  cases h
  intro id task' ht' hcreated
  cases hbefore : s.tasks.get? id with
  | none =>
    obtain ⟨body, user, now, lsTaskId, row, hrow, rfl⟩ := new_task_row hbefore ht'
    exact (newTask_eq_ok hrow).assignedTo
  | some task =>
    obtain ⟨found, hfound, hchange⟩ := task_step (step_serve driver s r) hbefore
    rw [ht', Option.some.injEq] at hfound
    subst hfound
    cases hchange with
    | kept => exact hs id _ hbefore hcreated
    | @moved op now hr hedge => exact absurd hcreated (not_created_of_moved now task)
    | delivered hr =>
      unfold advanceTask at hcreated ⊢
      split_ifs at hcreated ⊢
      exact hs id _ hbefore hcreated

theorem countP_add {α : Type} {p q r : α → Bool} {l : List α}
    (h : ∀ a ∈ l, (if r a then 1 else 0) = (if p a then 1 else 0) + if q a then 1 else 0) :
    l.countP r = l.countP p + l.countP q := by
  induction l with
  | nil => rfl
  | cons a l ih =>
    have ha := h a (List.mem_cons_self ..)
    rw [List.countP_cons, List.countP_cons, List.countP_cons, ih fun b hb => h b (List.mem_cons_of_mem _ hb)]
    omega

theorem openTasks_eq (hs : CreatedUnassigned s) (projectId id : Uuid) :
    openTasks s projectId id = ((countsByAssignee s projectId).get? id).getD 0 + rejectedTasks s projectId id := by
  rw [countsByAssignee, get?_tally, List.count_filterMap, List.countP_filter, openTasks, rejectedTasks]
  apply countP_add
  intro task htask
  obtain ⟨taskId, hget⟩ := OrderedDict.mem_values.mp htask
  have hcreated := hs taskId task hget
  by_cases hmine : task.projectId = projectId ∧ task.assignedTo = some id
  · obtain ⟨hproject, hassigned⟩ := hmine
    cases hstatus : task.status with
    | created =>
      rw [hcreated hstatus] at hassigned
      cases hassigned
    | assigned => simp [hproject, hassigned, transitions, pendingStatuses]
    | submitted => simp [hproject, hassigned, transitions, pendingStatuses]
    | approved => simp [hproject, hassigned, transitions, pendingStatuses]
    | rejected => simp [hproject, hassigned, transitions, pendingStatuses]
  · have hother : task.projectId = projectId → task.assignedTo ≠ some id := fun hp ha => hmine ⟨hp, ha⟩
    by_cases hproject : task.projectId = projectId <;> simp [hproject, hother]

theorem rejectedTasks_pos {projectId id : Uuid} :
    0 < rejectedTasks s projectId id ↔ ∃ taskId task, s.tasks.get? taskId = some task ∧ task.projectId = projectId ∧
      task.assignedTo = some id ∧ task.status = .rejected := by
  rw [rejectedTasks, List.countP_pos_iff]
  simp only [OrderedDict.mem_values, decide_eq_true_eq]
  constructor
  · rintro ⟨task, ⟨taskId, hget⟩, hrejected⟩
    exact ⟨taskId, task, hget, hrejected⟩
  · rintro ⟨taskId, task, hget, hrejected⟩
    exact ⟨task, ⟨taskId, hget⟩, hrejected⟩

theorem mem_listUsers {role : Option String} {user : CurrentUser} {rows : List UserWorkloadOut} {projectId : Uuid}
    (hproject : Uuid.parse user.projectId = some projectId)
    (h : listUsersWithWorkload users s role true user = .ok rows) {row : UserWorkloadOut} (hrow : row ∈ rows) :
    ∃ u ∈ users.items, row = workloadOut (countsByAssignee s projectId) u := by
  obtain ⟨_, -, h⟩ := except_bind_eq_ok.mp h
  obtain ⟨id, hid, h⟩ := except_bind_eq_ok.mp h
  have hsame := parseId_eq_ok.mp hid
  rw [hproject, Option.some.injEq] at hsame
  subst hsame
  cases h
  obtain ⟨u, hu, rfl⟩ := List.mem_map.mp hrow
  refine ⟨u, ?_, rfl⟩
  split at hu
  · exact (List.mem_filter.mp hu).1
  · split_ifs at hu
    · exact (List.mem_filter.mp hu).1
    · exact (List.mem_filter.mp (List.mem_filter.mp hu).1).1

theorem listed_of_activeIn {projectId id : Uuid} (h : ActiveIn users projectId id) :
    ∃ user rows row, Uuid.parse user.projectId = some projectId ∧
      listUsersWithWorkload users s none true user = .ok rows ∧ row ∈ rows ∧ row.id = id.text ∧
      row.pendingTaskCount = ((countsByAssignee s projectId).get? id).getD 0 := by
  obtain ⟨u, hget, hproject, hactive⟩ := h
  have hlisted : (id, u) ∈ users.items.filter fun u => u.2.projectId = some projectId ∧ u.2.isActive := by
    rw [List.mem_filter]
    exact ⟨OrderedDict.mem_items.mpr hget, by simp [hproject, hactive]⟩
  refine ⟨⟨"", projectId.text, some "admin"⟩, _, workloadOut (countsByAssignee s projectId) (id, u),
    Uuid.parse_text projectId, ?_, List.mem_map_of_mem hlisted, rfl, rfl⟩
  apply except_bind_eq_ok.mpr
  refine ⟨(), rfl, except_bind_eq_ok.mpr ⟨projectId, ?_, rfl⟩⟩
  rw [parseId, Uuid.parse_text]

theorem countsOpenWork_iff (hs : CreatedUnassigned s) : CountsOpenWork users s ↔ NoRejectedWork users s := by
  constructor
  · intro h taskId task hget hrejected id hassigned hactive
    obtain ⟨user, rows, row, hproject, hrows, hrow, hid, hpending⟩ := listed_of_activeIn (s := s) hactive
    have hopen := h none user rows hrows task.projectId id hproject hactive row hrow hid
    have hpos := rejectedTasks_pos.mpr ⟨taskId, task, hget, rfl, hassigned, hrejected⟩
    rw [hpending, openTasks_eq hs] at hopen
    omega
  · intro h role user rows hrows projectId id hproject hactive row hrow hid
    obtain ⟨u, -, rfl⟩ := mem_listUsers hproject hrows hrow
    have hu : u.1 = id := Uuid.text_injective hid
    have hnone : ¬ 0 < rejectedTasks s projectId id := by
      rw [rejectedTasks_pos]
      rintro ⟨taskId, task, hget, rfl, hassigned, hrejected⟩
      exact h taskId task hget hrejected id hassigned hactive
    rw [openTasks_eq hs, ← hu] at *
    exact (Nat.add_eq_left.mpr (Nat.eq_zero_of_not_pos hnone)).symm

theorem submitted_of_rejectable {status : TaskStatus} : .rejected ∈ transitions status ↔ status = .submitted := by
  cases status <;> decide

theorem rejectsAssigned_rejects {users : OrderedDict Uuid User} (h : RejectsAssigned users s r) :
    ¬ NoRejectedWork users (serve driver s r) := by
  cases r with
  | reject taskId comment user now commits =>
    obtain ⟨rfl, task, id, hread, hsubmitted, hassigned, hactive⟩ := h
    have hcheck : (TaskOperation.reject comment).check task user = .ok () := by
      apply assertTransition_eq_ok.mpr
      rw [hsubmitted]
      exact submitted_of_rejectable.mpr rfl
    have hset : (serve driver s (.reject taskId comment user now true)).tasks.get? taskId =
        some { task with status := .rejected, updatedAt := now } := by
      rw [serve, rejectTask, operate_of_ok hread hcheck, if_pos rfl, OrderedDict.get?_set, if_pos rfl]
      rfl
    intro hnone
    exact hnone taskId _ hset rfl id hassigned hactive
  | create => exact h.elim
  | assign => exact h.elim
  | submit => exact h.elim
  | approve => exact h.elim
  | webhook => exact h.elim

theorem rejectsAssigned_of_moved {id userId : Uuid} {task : AnnotationTask} {op : TaskOperation}
    (hr : r.operation? = some (id, op)) (hop : op.target = .rejected) (hget : s.tasks.get? id = some task)
    (hchanged : (serve driver s r).tasks.get? id ≠ some task) (hassigned : task.assignedTo = some userId)
    (hactive : ActiveIn users task.projectId userId) : RejectsAssigned users s r := by
  cases r with
  | reject taskId comment user now' commits =>
    cases hr
    have hne : (operate s id (.reject comment) user now' commits).2 ≠ s := by
      intro hsame
      apply hchanged
      rw [serve, rejectTask, hsame, hget]
    obtain ⟨hcommits, found, hread, hcheck⟩ := operate_changes hne
    have hfound := read_eq_ok hread
    rw [hget, Option.some.injEq] at hfound
    subst hfound
    exact ⟨hcommits, task, userId, hread, submitted_of_rejectable.mp (check_eq_ok hcheck), hassigned, hactive⟩
  | assign =>
    cases hr
    cases hop
  | submit =>
    cases hr
    cases hop
  | approve =>
    cases hr
    cases hop
  | create => cases hr
  | webhook => cases hr

theorem noRejectedWork_step (hs : NoRejectedWork users s) :
    NoRejectedWork users (serve driver s r) ↔ ¬ RejectsAssigned users s r := by
  constructor
  · intro h hrejects
    exact rejectsAssigned_rejects hrejects h
  · intro hnot id task' hget' hrejected userId hassigned hactive
    rcases task_origin (step_serve driver s r) hget' with ⟨task, hget, hchange⟩ | hcreated
    · cases hchange with
      | kept => exact hs id _ hget hrejected userId hassigned hactive
      | @moved op now hr hedge =>
        have hchanged : (serve driver s r).tasks.get? id ≠ some task := by
          intro hsame
          rw [hget', Option.some.injEq] at hsame
          have hedge' := hedge
          rw [← change_status now task op, hrejected, submitted_of_rejectable] at hedge'
          rw [hsame, hedge'] at hrejected
          cases hrejected
        cases op with
        | reject comment => exact hnot (rejectsAssigned_of_moved hr rfl hget hchanged hassigned hactive)
        | assign => cases hrejected
        | submit => cases hrejected
        | approve => cases hrejected
      | delivered hr =>
        unfold advanceTask at hrejected hassigned hactive
        by_cases hopen : task.status = .assigned ∨ task.status = .created
        · rw [if_pos hopen] at hrejected
          cases hrejected
        · rw [if_neg hopen] at hrejected hassigned hactive
          exact hs id _ hget hrejected userId hassigned hactive
    · rw [hrejected] at hcreated
      cases hcreated

theorem run_next (driver : Driver) (s : State) (requests : List Request) :
    ∃ t, run (next driver) s requests = some t := by
  induction requests generalizing s with
  | nil => exact ⟨s, rfl⟩
  | cons r requests ih =>
    obtain ⟨t, ht⟩ := ih (serve driver s r)
    exact ⟨t, run_cons.mpr ⟨_, rfl, ht⟩⟩

theorem workload_counts_open_work (driver : Driver) (users : OrderedDict Uuid User) (requests : List Request) :
    (∀ before s, before <+: requests → run (next driver) initial before = some s → CountsOpenWork users s) ↔
      Along (next driver) (fun s r => ¬ RejectsAssigned users s r) initial requests := by
  have hnone : NoRejectedWork users initial := by
    intro id task hget
    rw [get?_initial] at hget
    cases hget
  obtain ⟨t, ht⟩ := run_next driver initial requests
  apply reached_iff_along_within CreatedUnassigned (p := fun _ => True)
    (fun s r t hs _ _ _ hstep => createdUnassigned_step hs hstep) ?_ createdUnassigned_initial
    ((countsOpenWork_iff createdUnassigned_initial).mpr hnone) (fun _ _ => trivial) ht
  intro s r u hs hcounts _ hstep
  have hu := createdUnassigned_step hs hstep
  cases hstep
  rw [countsOpenWork_iff hu]
  exact noRejectedWork_step ((countsOpenWork_iff hs).mp hcounts)

def oneAnnotator : OrderedDict Uuid User :=
  OrderedDict.single ⟨0xf5⟩ ⟨"ann@example.com", "Ann", "annotator_internal", none, some ⟨0xa1⟩, true⟩

def sentBack : List Request :=
  [createLinked, .assign ⟨1⟩ ⟨0xf5⟩ engineer 1 true, .submit ⟨1⟩ .good none annotator 2 true,
    .reject ⟨1⟩ (some "blurred") engineer 3 true]

theorem sent_back_not_counted :
    ∃ s, run (next plainDriver) initial sentBack = some s ∧ ¬ CountsOpenWork oneAnnotator s := by
  obtain ⟨s, hs⟩ := run_next plainDriver initial sentBack
  refine ⟨s, hs, ?_⟩
  rw [countsOpenWork_iff (invariant_run _ (fun _ _ _ => createdUnassigned_step) createdUnassigned_initial hs)]
  have hrow : ((run (next plainDriver) initial sentBack).bind fun s => s.tasks.get? ⟨1⟩).map
      (fun task => (task.status, task.assignedTo, task.projectId)) = some (.rejected, some ⟨0xf5⟩, ⟨0xa1⟩) := by
    decide +kernel
  rw [hs, Option.bind_some, Option.map_eq_some_iff] at hrow
  obtain ⟨task, hget, hrow⟩ := hrow
  simp only [Prod.mk.injEq] at hrow
  obtain ⟨hrejected, hassigned, hproject⟩ := hrow
  intro h
  apply h ⟨1⟩ task hget hrejected ⟨0xf5⟩ hassigned
  rw [hproject]
  exact ⟨_, rfl, rfl, rfl⟩

end Embedai.TaskService
