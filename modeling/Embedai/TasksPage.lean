import Embedai.Accounts
import Embedai.ListMaps
import Embedai.SortedPages
import Embedai.Workload

namespace Embedai.TasksPage

open TaskService SortedPages TransitionSystems
open Handlers (except_bind_eq_ok)
open ListMaps (flatMap_filter_perm)
open Uuid (text_ne_empty)

def newestFirst (a b : Uuid × AnnotationTask) : Bool := b.2.createdAt ≤ a.2.createdAt

structure TaskFilters where
  status : Option String
  assignedTo : Option String

/-- Absent and empty filters are not sent. -/
def useTasks (filters : TaskFilters) : TaskFilters :=
  ⟨filters.status.filter (· ≠ ""), filters.assignedTo.filter (· ≠ "")⟩

def hasStatus (status : Option String) (task : AnnotationTask) : Bool :=
  status.all fun text => text = "" || task.status.text = text

def selects (projectId : Uuid) (status : Option String) (assignee : Option Uuid) (row : Uuid × AnnotationTask) : Bool :=
  row.2.projectId = projectId && hasStatus status row.2 && assignee.all fun id => row.2.assignedTo = some id

/-- `rows` is the table in the order of the query. -/
def listTasks (rows : List (Uuid × AnnotationTask)) (filters : TaskFilters) (user : CurrentUser) :
    Except HttpError (List TaskOut) := do
  let projectId ← parseId user.projectId
  let assignee ← optionalId filters.assignedTo
  return (rows.filter (selects projectId filters.status assignee)).map fun row => taskOut row.1 row.2

/-- Rows that were created at one time come in any order. -/
def Listed (s : State) (filters : TaskFilters) (user : CurrentUser) (tasks : List TaskOut) : Prop :=
  ∃ rows, SortedAs newestFirst s.tasks.items rows ∧ listTasks rows filters user = .ok tasks

structure StoredUser where
  id : String
  email : String
  role : String
  projectId : String

def StoredUser.isAnnotator (user : StoredUser) : Bool := "annotator".toList.isPrefixOf user.role.toList

def statusTabs : List String := ["created", "assigned", "submitted", "approved", "rejected"]

def annotatorStatusTabs : List String := ["assigned", "submitted", "approved", "rejected"]

inductive View
  | annotator (userId : String)
  | management

def tasksPage : Option StoredUser → View
  | some user => if user.isAnnotator then .annotator user.id else .management
  | none => .management

def View.tabs : View → List String
  | annotator _ => annotatorStatusTabs
  | management => statusTabs

def View.filters (tab : String) : View → TaskFilters
  | annotator userId => ⟨some tab, some userId⟩
  | management => ⟨some tab, none⟩

inductive Button
  | startAnnotating
  | resubmit
  | assign
  deriving DecidableEq

def truthy (text : Option String) : Bool := text.any (· ≠ "")

def View.buttons (task : TaskOut) : View → List Button
  | annotator _ =>
    (if truthy task.episodeId && task.status = "assigned" then [.startAnnotating] else []) ++
      (if truthy task.episodeId && task.status = "rejected" then [.resubmit] else [])
  | management => if task.status = "created" then [.assign] else []

def Shows (s : State) (user : CurrentUser) (view : View) (shown : String → List TaskOut) : Prop :=
  ∀ tab ∈ view.tabs, Listed s (useTasks (view.filters tab)) user (shown tab)

structure SignedIn (stored : StoredUser) (user : CurrentUser) (userId projectId : Uuid) : Prop where
  id : stored.id = userId.text
  known : stored.role ∈ Accounts.roles
  userId : user.userId = userId.text
  role : user.role = some stored.role
  projectId : user.projectId = projectId.text

def View.about (userId : Uuid) (task : AnnotationTask) : View → Bool
  | annotator _ => task.assignedTo = some userId
  | management => true

def rowsOf (s : State) (view : View) (userId projectId : Uuid) : List TaskOut :=
  (s.tasks.items.filter fun row => row.2.projectId = projectId && view.about userId row.2).map fun row =>
    taskOut row.1 row.2

def Offers (view : View) (shown : String → List TaskOut) (row : TaskOut) (button : Button) : Prop :=
  ∃ tab ∈ view.tabs, row ∈ shown tab ∧ button ∈ view.buttons row

def Assignable (s : State) (taskId : Uuid) (user : CurrentUser) : Prop :=
  ∀ userId now, ∃ out, (assignTask s taskId userId user now true).1 = .ok out

def Submittable (s : State) (taskId : Uuid) (user : CurrentUser) : Prop :=
  ∀ quality notes now, ∃ out, (submitTask s taskId quality notes user now true).1 = .ok out

def Agrees (s : State) (user : CurrentUser) (shown : String → List TaskOut) (taskId : Uuid) (task : AnnotationTask) :
    View → Prop
  | .annotator userId =>
    Offers (.annotator userId) shown (taskOut taskId task) .startAnnotating ∨
        Offers (.annotator userId) shown (taskOut taskId task) .resubmit ↔
      task.episodeId.isSome ∧ Submittable s taskId user
  | .management =>
    Offers .management shown (taskOut taskId task) .assign ∨ task.status = .rejected ↔ Assignable s taskId user

variable {driver : Driver} {s : State} {stored : StoredUser} {user : CurrentUser} {userId projectId : Uuid}

theorem optionalId_text (id : Uuid) : optionalId (some id.text) = .ok (some id) := by
  simp only [optionalId, if_neg (text_ne_empty id), parseId, Uuid.parse_text]
  rfl

theorem parseId_text (id : Uuid) : parseId id.text = .ok id := by rw [parseId, Uuid.parse_text]

theorem text_mem_statusTabs (status : TaskStatus) : status.text ∈ statusTabs := by
  cases status <;> decide

theorem text_mem_annotatorStatusTabs {status : TaskStatus} :
    status.text ∈ annotatorStatusTabs ↔ status ≠ .created := by
  cases status <;> decide

theorem tabs_nodup (view : View) : view.tabs.Nodup := by
  cases view with
  | annotator userId => exact (by decide : annotatorStatusTabs.Nodup)
  | management => decide

theorem ne_empty_of_mem_tabs {view : View} {tab : String} (h : tab ∈ view.tabs) : tab ≠ "" := by
  rintro rfl
  cases view with
  | annotator userId => exact absurd h (by decide : "" ∉ annotatorStatusTabs)
  | management => exact absurd h (by decide)

theorem tasksPage_cases (stored : StoredUser) :
    tasksPage (some stored) = .annotator stored.id ∧ stored.isAnnotator = true ∨
      tasksPage (some stored) = .management ∧ stored.isAnnotator = false := by
  unfold tasksPage
  cases h : stored.isAnnotator
  · exact Or.inr ⟨if_neg (by rw [h]; exact Bool.false_ne_true), rfl⟩
  · exact Or.inl ⟨if_pos h, rfl⟩

theorem selects_tab {view : View} {tab : String} (hsigned : SignedIn stored user userId projectId)
    (hview : view = tasksPage (some stored)) (htab : tab ∈ view.tabs) :
    ∃ assignee, optionalId (useTasks (view.filters tab)).assignedTo = .ok assignee ∧
      ∀ row : Uuid × AnnotationTask, selects projectId (useTasks (view.filters tab)).status assignee row =
        (decide (row.2.status.text = tab) &&
          (decide (row.2.projectId = projectId) && view.about userId row.2)) := by
  have htab := ne_empty_of_mem_tabs htab
  rcases tasksPage_cases stored with ⟨hpage, -⟩ | ⟨hpage, -⟩
  · rw [hview, hpage]
    refine ⟨some userId, ?_, fun row => ?_⟩
    · simp only [useTasks, View.filters, hsigned.id]
      rw [Option.filter_some, if_pos (by simpa using text_ne_empty userId), optionalId_text]
    · simp [selects, hasStatus, useTasks, View.filters, View.about, htab, Option.filter_some]
      grind
  · rw [hview, hpage]
    refine ⟨none, rfl, fun row => ?_⟩
    simp [selects, hasStatus, useTasks, View.filters, View.about, htab, Option.filter_some]
    grind

theorem listTasks_tab {view : View} {tab : String} (rows : List (Uuid × AnnotationTask))
    (hsigned : SignedIn stored user userId projectId) (hview : view = tasksPage (some stored))
    (htab : tab ∈ view.tabs) :
    listTasks rows (useTasks (view.filters tab)) user = .ok ((rows.filter fun row => row.2.status.text = tab &&
      (row.2.projectId = projectId && view.about userId row.2)).map fun row => taskOut row.1 row.2) := by
  obtain ⟨assignee, hassignee, hselects⟩ := selects_tab hsigned hview htab
  rw [listTasks, hsigned.projectId, parseId_text, hassignee, ← List.filter_congr fun row _ => hselects row]
  rfl

theorem perm_of_listed {view : View} {tab : String} {rows : List TaskOut}
    (hsigned : SignedIn stored user userId projectId) (hview : view = tasksPage (some stored)) (htab : tab ∈ view.tabs)
    (h : Listed s (useTasks (view.filters tab)) user rows) :
    rows.Perm (((s.tasks.items.filter fun row =>
      row.2.projectId = projectId && view.about userId row.2).filter fun row => row.2.status.text = tab).map
        fun row => taskOut row.1 row.2) := by
  obtain ⟨table, htable, hrows⟩ := h
  rw [listTasks_tab table hsigned hview htab] at hrows
  cases hrows
  rw [List.filter_filter]
  exact (htable.perm.filter _).map _

theorem mem_tabs_of_about {view : View} {task : AnnotationTask}
    (hcreated : task.status = .created → task.assignedTo = none) (h : view.about userId task = true) :
    task.status.text ∈ view.tabs := by
  cases view with
  | management => exact text_mem_statusTabs task.status
  | annotator id =>
    apply text_mem_annotatorStatusTabs.mpr
    intro hstatus
    rw [View.about, hcreated hstatus] at h
    exact absurd h (by simp)

theorem shown_perm {view : View} {shown : String → List TaskOut} (hs : CreatedUnassigned s)
    (hsigned : SignedIn stored user userId projectId) (hview : view = tasksPage (some stored))
    (hshows : Shows s user view shown) : (view.tabs.flatMap shown).Perm (rowsOf s view userId projectId) := by
  have htabs : (view.tabs.flatMap shown).Perm (view.tabs.flatMap fun tab =>
      ((s.tasks.items.filter fun row => row.2.projectId = projectId && view.about userId row.2).filter
        fun row => row.2.status.text = tab).map fun row => taskOut row.1 row.2) :=
    List.Perm.flatMap_left _ fun tab htab => perm_of_listed hsigned hview htab (hshows tab htab)
  refine htabs.trans ?_
  rw [← List.map_flatMap, rowsOf]
  apply List.Perm.map
  refine (flatMap_filter_perm (fun row : Uuid × AnnotationTask => row.2.status.text) (tabs_nodup view) _).trans ?_
  rw [List.filter_eq_self.mpr]
  intro row hrow
  obtain ⟨hrow, habout⟩ := List.mem_filter.mp hrow
  rw [Bool.and_eq_true] at habout
  exact decide_eq_true (mem_tabs_of_about (hs row.1 row.2 (OrderedDict.mem_items.mp hrow)) habout.2)

theorem mem_shown_iff {view : View} {tab : String} {rows : List TaskOut} {taskId : Uuid} {task : AnnotationTask}
    (hsigned : SignedIn stored user userId projectId) (hview : view = tasksPage (some stored)) (htab : tab ∈ view.tabs)
    (h : Listed s (useTasks (view.filters tab)) user rows) (htask : s.tasks.get? taskId = some task)
    (hproject : task.projectId = projectId) :
    taskOut taskId task ∈ rows ↔ view.about userId task = true ∧ task.status.text = tab := by
  rw [(perm_of_listed hsigned hview htab h).mem_iff, List.mem_map]
  simp only [List.mem_filter, Bool.and_eq_true, decide_eq_true_eq]
  constructor
  · rintro ⟨⟨taskId', task'⟩, ⟨⟨hrow, -, habout⟩, hstatus⟩, hout⟩
    have hid : taskId' = taskId := Uuid.text_injective (congrArg TaskOut.id hout)
    subst hid
    have hsame := OrderedDict.mem_items.mp hrow
    rw [htask, Option.some.injEq] at hsame
    subst hsame
    exact ⟨habout, hstatus⟩
  · rintro ⟨habout, hstatus⟩
    exact ⟨(taskId, task), ⟨⟨OrderedDict.mem_items.mpr htask, hproject, habout⟩, hstatus⟩, rfl⟩

theorem offers_iff {view : View} {shown : String → List TaskOut} {taskId : Uuid} {task : AnnotationTask}
    {button : Button} (hsigned : SignedIn stored user userId projectId) (hview : view = tasksPage (some stored))
    (hshows : Shows s user view shown) (hs : CreatedUnassigned s) (htask : s.tasks.get? taskId = some task)
    (hproject : task.projectId = projectId) : Offers view shown (taskOut taskId task) button ↔
      view.about userId task = true ∧ button ∈ view.buttons (taskOut taskId task) := by
  constructor
  · rintro ⟨tab, htab, hrow, hbutton⟩
    exact ⟨((mem_shown_iff hsigned hview htab (hshows tab htab) htask hproject).mp hrow).1, hbutton⟩
  · rintro ⟨habout, hbutton⟩
    have htab := mem_tabs_of_about (hs taskId task htask) habout
    exact ⟨_, htab, (mem_shown_iff hsigned hview htab (hshows _ htab) htask hproject).mpr ⟨habout, rfl⟩, hbutton⟩

theorem operate_accepts_iff {taskId : Uuid} {op : TaskOperation} {now : Timestamp} :
    (∃ out, (operate s taskId op user now true).1 = .ok out) ↔
      ∃ task, op.read s taskId user = .ok task ∧ op.check task user = .ok () := by
  unfold operate
  dsimp only
  constructor
  · rintro ⟨out, h⟩
    split at h
    · cases h
    · next task hchecked =>
      obtain ⟨row, hread, hchecked⟩ := except_bind_eq_ok.mp hchecked
      obtain ⟨_, hcheck, hchecked⟩ := except_bind_eq_ok.mp hchecked
      cases hchecked
      exact ⟨task, hread, hcheck⟩
  · rintro ⟨task, hread, hcheck⟩
    have hchecked : (do
        let task ← op.read s taskId user
        op.check task user
        return task) = .ok task := except_bind_eq_ok.mpr ⟨task, hread, except_bind_eq_ok.mpr ⟨(), hcheck, rfl⟩⟩
    rw [hchecked]
    exact ⟨_, rfl⟩

theorem submittable_iff {taskId : Uuid} {task : AnnotationTask} (hsigned : SignedIn stored user userId projectId)
    (hannotator : stored.isAnnotator = true) (htask : s.tasks.get? taskId = some task) :
    Submittable s taskId user ↔ task.assignedTo = some userId ∧ .submitted ∈ transitions task.status := by
  have hrole : user.role ≠ some "admin" ∧ user.role ≠ some "engineer" := by
    rw [hsigned.role]
    constructor <;>
    · intro h
      rw [Option.some.injEq] at h
      rw [StoredUser.isAnnotator, h] at hannotator
      exact absurd hannotator (by decide +kernel)
  have hassignee : MaySubmit user task ↔ task.assignedTo = some userId := by
    rw [MaySubmit, or_iff_right hrole.1, or_iff_right hrole.2, hsigned.userId]
    refine ⟨assignedTo_of_assignee, fun h => ?_⟩
    rw [AnnotationTask.assignee, h]
  simp only [Submittable, submitTask, operate_accepts_iff, TaskOperation.read, findTask_eq_ok, htask,
    Option.some.injEq, exists_eq_left', check_submit_eq_ok, hassignee]
  exact ⟨fun h => h .good none 0, fun h _ _ _ => h⟩

theorem assignable_iff {taskId : Uuid} {task : AnnotationTask} (hsigned : SignedIn stored user userId projectId)
    (hmanager : stored.isAnnotator = false) (htask : s.tasks.get? taskId = some task)
    (hproject : task.projectId = projectId) : Assignable s taskId user ↔ .assigned ∈ transitions task.status := by
  have hrole : requireRole ["engineer", "admin"] user = .ok () := by
    apply requireRole_eq_ok.mpr
    refine ⟨stored.role, ?_, hsigned.role⟩
    have hknown := hsigned.known
    simp only [Accounts.roles, List.mem_cons, List.not_mem_nil, or_false] at hknown
    rcases hknown with hadmin | hengineer | hinternal | houtsource
    · simp [hadmin]
    · simp [hengineer]
    · rw [StoredUser.isAnnotator, hinternal] at hmanager
      exact absurd hmanager (by decide +kernel)
    · rw [StoredUser.isAnnotator, houtsource] at hmanager
      exact absurd hmanager (by decide +kernel)
  have hfind : findTaskInProject s taskId user = .ok task := by
    rw [findTaskInProject_eq_ok, hsigned.projectId, parseId_text, hproject]
    exact ⟨rfl, htask⟩
  have hread : ∀ id, (TaskOperation.assign id).read s taskId user = .ok task :=
    fun id => except_bind_eq_ok.mpr ⟨(), hrole, hfind⟩
  simp only [Assignable, assignTask, operate_accepts_iff, hread, Except.ok.injEq, exists_eq_left']
  exact ⟨fun h => assertTransition_eq_ok.mp (h projectId 0), fun h _ _ => assertTransition_eq_ok.mpr h⟩

theorem truthy_text (id : Option Uuid) : truthy (id.map Uuid.text) = id.isSome := by
  cases id with
  | none => rfl
  | some id => exact decide_eq_true (text_ne_empty id)

theorem annotatorButtons_iff {id : String} {taskId : Uuid} {task : AnnotationTask} :
    (.startAnnotating ∈ (View.annotator id).buttons (taskOut taskId task) ∨
        .resubmit ∈ (View.annotator id).buttons (taskOut taskId task)) ↔
      task.episodeId.isSome ∧ .submitted ∈ transitions task.status := by
  have htruthy : truthy (taskOut taskId task).episodeId = task.episodeId.isSome := truthy_text task.episodeId
  have hstatus : (taskOut taskId task).status = task.status.text := rfl
  rw [View.buttons, htruthy, hstatus]
  cases task.episodeId.isSome <;> cases task.status <;> decide

theorem managementButtons_iff {taskId : Uuid} {task : AnnotationTask} :
    .assign ∈ View.management.buttons (taskOut taskId task) ∨ task.status = .rejected ↔
      .assigned ∈ transitions task.status := by
  have hstatus : (taskOut taskId task).status = task.status.text := rfl
  rw [View.buttons, hstatus]
  cases task.status <;> decide

theorem agrees {shown : String → List TaskOut} {taskId : Uuid} {task : AnnotationTask} (hs : CreatedUnassigned s)
    (hsigned : SignedIn stored user userId projectId) (hshows : Shows s user (tasksPage (some stored)) shown)
    (htask : s.tasks.get? taskId = some task) (hproject : task.projectId = projectId) :
    Agrees s user shown taskId task (tasksPage (some stored)) := by
  have hoffers (button : Button) :
      Offers (tasksPage (some stored)) shown (taskOut taskId task) button ↔
        (tasksPage (some stored)).about userId task = true ∧
          button ∈ (tasksPage (some stored)).buttons (taskOut taskId task) :=
    offers_iff hsigned rfl hshows hs htask hproject
  rcases tasksPage_cases stored with ⟨hpage, hannotator⟩ | ⟨hpage, hmanager⟩
  · rw [hpage] at hoffers ⊢
    simp only [Agrees, hoffers, ← and_or_left, annotatorButtons_iff, submittable_iff hsigned hannotator htask,
      View.about, decide_eq_true_eq]
    exact and_left_comm
  · rw [hpage] at hoffers ⊢
    simp only [Agrees, hoffers, View.about, true_and, managementButtons_iff,
      assignable_iff hsigned hmanager htask hproject]

theorem tasks_page {requests : List Request} {shown : String → List TaskOut}
    (h : run (next driver) initial requests = some s) (hsigned : SignedIn stored user userId projectId)
    (hshows : Shows s user (tasksPage (some stored)) shown) :
    ((tasksPage (some stored)).tabs.flatMap shown).Perm (rowsOf s (tasksPage (some stored)) userId projectId) ∧
      ∀ taskId task, s.tasks.get? taskId = some task → task.projectId = projectId →
        Agrees s user shown taskId task (tasksPage (some stored)) := by
  have hs := invariant_run CreatedUnassigned (fun _ _ _ => createdUnassigned_step) createdUnassigned_initial h
  exact ⟨shown_perm hs hsigned rfl hshows, fun taskId task htask hproject => agrees hs hsigned hshows htask hproject⟩

def annotatorUser : StoredUser := ⟨annotator.userId, "ann@example.com", "annotator_internal", annotator.projectId⟩

def filmed : List Request :=
  [.create ⟨some "00000000-0000-0000-0000-0000000000e0", "video_annotation", none, none, [], none⟩ engineer ⟨1⟩ 0
      .accepted (some 7) true, .assign ⟨1⟩ ⟨0xf5⟩ engineer 1 true]

def filmedState : State := filmed.foldl (serve plainDriver) initial

def shownTo (user : CurrentUser) (view : View) (tab : String) : List TaskOut :=
  (listTasks filmedState.tasks.items (useTasks (view.filters tab)) user).toOption.getD []

theorem tasks_page_annotator :
    ((tasksPage (some annotatorUser)).tabs.flatMap (shownTo annotator (tasksPage (some annotatorUser)))).Perm
        (rowsOf filmedState (tasksPage (some annotatorUser)) ⟨0xf5⟩ ⟨0xa1⟩) ∧
      ∀ taskId task, filmedState.tasks.get? taskId = some task → task.projectId = ⟨0xa1⟩ →
        Agrees filmedState annotator (shownTo annotator (tasksPage (some annotatorUser))) taskId task
          (tasksPage (some annotatorUser)) := by
  have hsigned : SignedIn annotatorUser annotator ⟨0xf5⟩ ⟨0xa1⟩ :=
    ⟨by decide +kernel, by decide +kernel, by decide +kernel, rfl, by decide +kernel⟩
  have hrun : run (next plainDriver) initial filmed = some filmedState := rfl
  refine tasks_page hrun hsigned ?_
  intro tab htab
  refine ⟨filmedState.tasks.items, ⟨List.Perm.refl _, ?_⟩, ?_⟩
  · decide +kernel
  · rw [shownTo, listTasks_tab filmedState.tasks.items hsigned rfl htab]
    rfl

end Embedai.TasksPage
