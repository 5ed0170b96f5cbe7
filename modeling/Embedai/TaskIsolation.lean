import Embedai.TaskTransitions

/-!
What the users of one project can do to the tasks and the episodes of the others. `owner` is the project of an episode,
and the project of the users is `none` when the project id of their tokens is not a UUID.
-/

namespace Embedai.TaskService

open Handlers (except_bind_eq_ok)
open TransitionSystems

def Request.user? : Request → Option CurrentUser
  | .create _ user _ _ _ _ _ => some user
  | .assign _ _ user _ _ => some user
  | .submit _ _ _ user _ _ => some user
  | .approve _ user _ _ _ => some user
  | .reject _ _ user _ _ => some user
  | .webhook .. => none

def Request.OfProject (project : Option Uuid) (r : Request) : Prop :=
  r.user?.map (fun user => Uuid.parse user.projectId) = some project

instance (project : Option Uuid) (r : Request) : Decidable (r.OfProject project) :=
  inferInstanceAs (Decidable (_ = _))

def ForeignTask (project : Option Uuid) (task : AnnotationTask) : Prop := some task.projectId ≠ project

def ForeignEpisode (owner : Uuid → Option Uuid) (project : Option Uuid) (text : String) : Prop :=
  ∃ other, (Uuid.parse text).bind owner = some other ∧ some other ≠ project

structure Isolated (owner : Uuid → Option Uuid) (project : Option Uuid) (s t : State) : Prop where
  tasks : ∀ id task, ForeignTask project task → (t.tasks.get? id = some task ↔ s.tasks.get? id = some task)
  tokens : ∃ minted, t.streamTokens = s.streamTokens ++ minted ∧
    ∀ text ∈ minted, ¬ ForeignEpisode owner project text

def MaySubmit (user : CurrentUser) (task : AnnotationTask) : Prop :=
  user.role = some "admin" ∨ user.role = some "engineer" ∨ task.assignee = user.userId

def Trespasses (owner : Uuid → Option Uuid) (project : Option Uuid) (s : State) : Request → Prop
  | .submit taskId _ _ user _ commits => commits = true ∧ ∃ task, s.tasks.get? taskId = some task ∧
      ForeignTask project task ∧ MaySubmit user task ∧ .submitted ∈ transitions task.status
  | .create body user newId now flush _ _ => flush = .accepted ∧ newId ∉ s.tasks.keys ∧
      (∃ task, newTask body user now = .ok task) ∧ ∃ text, body.episodeId = some text ∧
        ForeignEpisode owner project text
  | _ => False

variable {owner : Uuid → Option Uuid} {project : Option Uuid} {s t u : State}

theorem isolated_refl (owner : Uuid → Option Uuid) (project : Option Uuid) (s : State) :
    Isolated owner project s s :=
  ⟨fun _ _ _ => Iff.rfl, [], (List.append_nil _).symm, fun _ h => absurd h List.not_mem_nil⟩

theorem Isolated.trans (h : Isolated owner project s t) (h' : Isolated owner project t u) :
    Isolated owner project s u := by
  obtain ⟨minted, hminted, hown⟩ := h.tokens
  obtain ⟨minted', hminted', hown'⟩ := h'.tokens
  refine ⟨fun id task hforeign => ?_, minted ++ minted', ?_, ?_⟩
  · exact (h'.tasks id task hforeign).trans (h.tasks id task hforeign)
  · rw [hminted', hminted, List.append_assoc]
  · exact List.forall_mem_append.mpr ⟨hown, hown'⟩

theorem Isolated.after (h : Isolated owner project s t) (h' : Isolated owner project s u)
    (hgrows : t.streamTokens <+: u.streamTokens) : Isolated owner project t u := by
  obtain ⟨minted, hminted, -⟩ := h.tokens
  obtain ⟨minted', hminted', hown⟩ := h'.tokens
  obtain ⟨new, hnew⟩ := hgrows
  refine ⟨fun id task hforeign => (h'.tasks id task hforeign).trans (h.tasks id task hforeign).symm, new, hnew.symm, ?_⟩
  rw [← hnew, hminted, List.append_assoc, List.append_cancel_left_eq] at hminted'
  rw [← hminted'] at hown
  exact (List.forall_mem_append.mp hown).2

theorem isolated_tokens {minted : List String} (htasks : t.tasks = s.tasks)
    (htokens : t.streamTokens = s.streamTokens ++ minted) :
    Isolated owner project s t ↔ ∀ text ∈ minted, ¬ ForeignEpisode owner project text := by
  constructor
  · rintro ⟨-, minted', hminted', hown⟩
    rw [htokens, List.append_cancel_left_eq] at hminted'
    rw [hminted']
    exact hown
  · exact fun hown => ⟨fun id task _ => by rw [htasks], minted, htokens, hown⟩

theorem isolated_of_same (htasks : t.tasks = s.tasks) (htokens : t.streamTokens = s.streamTokens) :
    Isolated owner project s t := by
  have hminted : t.streamTokens = s.streamTokens ++ [] := htokens.trans (List.append_nil _).symm
  exact (isolated_tokens htasks hminted).mpr fun _ h => absurd h List.not_mem_nil

theorem isolated_set {id : Uuid} {task changed : AnnotationTask} (hid : s.tasks.get? id = some task)
    (hproject : changed.projectId = task.projectId) (hchanged : changed ≠ task) :
    Isolated owner project s { s with tasks := s.tasks.set id changed } ↔ ¬ ForeignTask project task := by
  constructor
  · intro h hforeign
    have hrow := (h.tasks id task hforeign).mpr hid
    rw [OrderedDict.get?_set, if_pos rfl, Option.some.injEq] at hrow
    exact hchanged hrow
  · intro hown
    refine ⟨fun j row hforeign => ?_, [], (List.append_nil _).symm, fun _ h => absurd h List.not_mem_nil⟩
    rw [OrderedDict.get?_set]
    split_ifs with hj
    · subst hj
      rw [hid, Option.some.injEq, Option.some.injEq]
      constructor
      · rintro rfl
        rw [ForeignTask, hproject] at hforeign
        exact absurd hforeign hown
      · rintro rfl
        exact absurd hforeign hown
    · exact Iff.rfl

theorem projectId_change (now : Timestamp) (task : AnnotationTask) (op : TaskOperation) :
    (op.change now task).projectId = task.projectId := by
  cases op <;> rfl

theorem not_mem_transitions (status : TaskStatus) : status ∉ transitions status := by
  cases status <;> decide

theorem change_ne {task : AnnotationTask} {op : TaskOperation} (h : op.target ∈ transitions task.status)
    (now : Timestamp) : op.change now task ≠ task := by
  intro he
  rw [← he, change_status] at h
  exact not_mem_transitions op.target h

theorem parseId_eq_ok {text : String} {id : Uuid} : parseId text = .ok id ↔ Uuid.parse text = some id := by
  unfold parseId
  cases Uuid.parse text <;> simp

theorem own_of_findTaskInProject {taskId : Uuid} {user : CurrentUser} {task : AnnotationTask}
    (huser : Uuid.parse user.projectId = project) (h : findTaskInProject s taskId user = .ok task) :
    ¬ ForeignTask project task := by
  have hproject := parseId_eq_ok.mp (findTaskInProject_eq_ok.mp h).1
  rw [huser] at hproject
  exact not_not_intro hproject.symm

theorem isolated_operate_iff {taskId : Uuid} {op : TaskOperation} {user : CurrentUser} (now : Timestamp)
    (commits : Bool) : Isolated owner project s (operate s taskId op user now commits).2 ↔
      ∀ task, op.read s taskId user = .ok task → op.check task user = .ok () → commits = true →
        ¬ ForeignTask project task := by
  by_cases h : (operate s taskId op user now commits).2 = s
  · rw [h]
    refine ⟨fun _ task hread hcheck hcommits => ?_, fun _ => isolated_refl owner project s⟩
    have hset := operate_of_ok hread hcheck now commits
    rw [h, if_pos hcommits] at hset
    have hrow := congrArg (fun s => s.tasks.get? taskId) hset
    simp only [read_eq_ok hread, OrderedDict.get?_set, if_true, Option.some.injEq] at hrow
    exact absurd hrow.symm (change_ne (check_eq_ok hcheck) now)
  · obtain ⟨hcommits, task, hread, hcheck⟩ := operate_changes h
    rw [operate_of_ok hread hcheck, if_pos hcommits,
      isolated_set (read_eq_ok hread) (projectId_change ..) (change_ne (check_eq_ok hcheck) now)]
    constructor
    · intro hown task' hread' _ _
      rw [hread, Except.ok.injEq] at hread'
      exact hread' ▸ hown
    · exact fun hown => hown task hread hcheck hcommits

theorem isolated_in_project {taskId : Uuid} {op : TaskOperation} {user : CurrentUser} {now : Timestamp}
    {commits : Bool} (huser : Uuid.parse user.projectId = project)
    (hop : ∀ task, op.read s taskId user = .ok task → findTaskInProject s taskId user = .ok task) :
    Isolated owner project s (operate s taskId op user now commits).2 :=
  (isolated_operate_iff now commits).mpr fun task hread _ _ => own_of_findTaskInProject huser (hop task hread)

theorem check_submit_eq_ok {task : AnnotationTask} {user : CurrentUser} {quality : Quality} {notes : Option String} :
    (TaskOperation.submit quality notes).check task user = .ok () ↔
      MaySubmit user task ∧ .submitted ∈ transitions task.status := by
  have hmay : MaySubmit user task ↔
      ¬ (user.role ≠ some "admin" ∧ user.role ≠ some "engineer" ∧ task.assignee ≠ user.userId) := by
    unfold MaySubmit
    tauto
  rw [hmay]
  simp only [TaskOperation.check]
  split_ifs with h
  · exact ⟨fun he => (by cases he), fun he => absurd h he.1⟩
  · rw [assertTransition_eq_ok]
    exact ⟨fun hedge => ⟨h, hedge⟩, fun hboth => hboth.2⟩

theorem isolated_submit_iff {taskId : Uuid} {quality : Quality} {notes : Option String} {user : CurrentUser}
    {now : Timestamp} {commits : Bool} :
    Isolated owner project s (submitTask s taskId quality notes user now commits).2 ↔
      ¬ Trespasses owner project s (.submit taskId quality notes user now commits) := by
  rw [submitTask, isolated_operate_iff]
  simp only [TaskOperation.read, findTask_eq_ok, check_submit_eq_ok, Trespasses]
  constructor
  · rintro h ⟨hcommits, task, hid, hforeign, hcheck⟩
    exact h task hid hcheck hcommits hforeign
  · exact fun h task hid hcheck hcommits hforeign => h ⟨hcommits, task, hid, hforeign, hcheck⟩

theorem not_foreignEpisode_empty : ¬ ForeignEpisode owner project "" := by
  rintro ⟨other, hother, -⟩
  have hempty : Uuid.parse "" = none := by decide +kernel
  rw [hempty, Option.bind_none] at hother
  cases hother

def minted (episodeId : Option String) : List String :=
  match episodeId with
  | none => []
  | some text => if text = "" then [] else [text]

theorem streamTokens_mint (s : State) (episodeId : Option String) :
    (mintStreamToken s episodeId).streamTokens = s.streamTokens ++ minted episodeId := by
  cases episodeId with
  | none => exact (List.append_nil _).symm
  | some text =>
    simp only [mintStreamToken, minted]
    split
    · exact (List.append_nil _).symm
    · rfl

theorem minted_own_iff {episodeId : Option String} :
    (∀ text ∈ minted episodeId, ¬ ForeignEpisode owner project text) ↔
      ¬ ∃ text, episodeId = some text ∧ ForeignEpisode owner project text := by
  cases episodeId with
  | none => simp [minted]
  | some text =>
    by_cases hempty : text = ""
    · simp [minted, hempty, not_foreignEpisode_empty]
    · simp [minted, hempty]

theorem isolated_append {id : Uuid} {task : AnnotationTask} {tokens : List String} (hid : id ∉ s.tasks.keys)
    (htask : ¬ ForeignTask project task) (htasks : t.tasks = s.tasks.append id task hid)
    (htokens : t.streamTokens = s.streamTokens ++ tokens) :
    Isolated owner project s t ↔ ∀ text ∈ tokens, ¬ ForeignEpisode owner project text := by
  rw [← isolated_tokens (s := s) (t := { s with streamTokens := s.streamTokens ++ tokens }) rfl rfl]
  refine ⟨fun h => ⟨fun _ _ _ => Iff.rfl, ?_⟩, fun h => ⟨fun j row hforeign => ?_, ?_⟩⟩
  · rw [← htokens]
    exact h.tokens
  · rw [htasks, OrderedDict.get?_append]
    split_ifs with hj
    · subst hj
      rw [OrderedDict.get?_eq_none.mpr hid, Option.some.injEq]
      constructor
      · rintro rfl
        exact absurd hforeign htask
      · exact fun h => (by cases h)
    · exact Iff.rfl
  · rw [htokens]
    exact h.tokens

theorem isolated_create_iff {body : CreateTaskRequest} {user : CurrentUser} {newId : Uuid} {now : Timestamp}
    {flush : Flush} {lsTaskId : Option ℤ} {commits : Bool} (huser : Uuid.parse user.projectId = project) :
    Isolated owner project s (createTask s body user newId now flush lsTaskId commits).2 ↔
      ¬ Trespasses owner project s (.create body user newId now flush lsTaskId commits) := by
  simp only [Trespasses, createTask]
  split
  · rename_i e hnew
    apply iff_of_true (isolated_refl owner project s)
    rintro ⟨-, -, ⟨task, htask⟩, -⟩
    rw [hnew] at htask
    cases htask
  · rename_i task hnew
    have hown : ¬ ForeignTask project { task with labelStudioTaskId := lsTaskId } :=
      not_not_intro ((parseId_eq_ok.mp (newTask_eq_ok hnew).project).symm.trans huser)
    split
    · exact iff_of_true (isolated_refl owner project s) (fun h => (by cases h.1))
    · exact iff_of_true (isolated_refl owner project s) (fun h => (by cases h.1))
    · have htokens := streamTokens_mint s body.episodeId
      split_ifs with hid hcommits
      · exact iff_of_true (isolated_refl owner project s) (fun h => h.2.1 hid)
      · refine Iff.trans (isolated_append hid hown rfl htokens) (minted_own_iff.trans (not_congr ?_))
        exact ⟨fun h => ⟨rfl, hid, ⟨task, hnew⟩, h⟩, fun h => h.2.2.2⟩
      · refine (isolated_tokens (mintStreamToken_tasks s body.episodeId).1 htokens).trans
          (minted_own_iff.trans (not_congr ?_))
        exact ⟨fun h => ⟨rfl, hid, ⟨task, hnew⟩, h⟩, fun h => h.2.2.2⟩

theorem isolated_approve {taskId : Uuid} {user : CurrentUser} {now : Timestamp} {commits publishes : Bool}
    (huser : Uuid.parse user.projectId = project) :
    Isolated owner project s (approveTask s taskId user now commits publishes).2 := by
  have hoperate : Isolated owner project s (operate s taskId .approve user now commits).2 :=
    isolated_in_project huser fun task h => (except_bind_eq_ok.mp h).choose_spec.2
  refine hoperate.trans (isolated_of_same ?_ ?_)
  all_goals
    unfold approveTask
    split
    · rename_i out s' hop
      rw [hop]
      split <;> rfl
    · rename_i e s' hop
      rw [hop]

theorem isolated_serve_iff {driver : Driver} {r : Request} (hr : r.OfProject project) :
    Isolated owner project s (serve driver s r) ↔ ¬ Trespasses owner project s r := by
  have huser {user : CurrentUser} (h : r.user? = some user) : Uuid.parse user.projectId = project := by
    rw [Request.OfProject, h, Option.map_some, Option.some.injEq] at hr
    exact hr
  cases r with
  | create body user newId now flush lsTaskId commits => exact isolated_create_iff (huser rfl)
  | assign taskId userId user now commits =>
    exact iff_of_true (isolated_in_project (huser rfl) fun task h => (except_bind_eq_ok.mp h).choose_spec.2) id
  | submit taskId quality notes user now commits => exact isolated_submit_iff
  | approve taskId user now commits publishes => exact iff_of_true (isolated_approve (huser rfl)) id
  | reject taskId comment user now commits =>
    exact iff_of_true (isolated_in_project (huser rfl) fun task h => (except_bind_eq_ok.mp h).choose_spec.2) id
  | webhook payload newId now commits => cases hr

theorem streamTokens_operate (s : State) (taskId : Uuid) (op : TaskOperation) (user : CurrentUser) (now : Timestamp)
    (commits : Bool) : (operate s taskId op user now commits).2.streamTokens = s.streamTokens := by
  rcases operate_cases s taskId op user now commits with h | ⟨task, -, -, h⟩
  · rw [h]
  · rw [h]

theorem streamTokens_approve (s : State) (taskId : Uuid) (user : CurrentUser) (now : Timestamp)
    (commits publishes : Bool) : (approveTask s taskId user now commits publishes).2.streamTokens = s.streamTokens := by
  rw [← streamTokens_operate s taskId .approve user now commits, approveTask]
  split
  · rename_i out s' hop
    rw [hop]
    split <;> rfl
  · rename_i e s' hop
    rw [hop]

theorem streamTokens_create (s : State) (body : CreateTaskRequest) (user : CurrentUser) (newId : Uuid)
    (now : Timestamp) (flush : Flush) (lsTaskId : Option ℤ) (commits : Bool) :
    s.streamTokens <+: (createTask s body user newId now flush lsTaskId commits).2.streamTokens := by
  have hmint : s.streamTokens <+: (mintStreamToken s body.episodeId).streamTokens :=
    streamTokens_mint s body.episodeId ▸ List.prefix_append ..
  simp only [createTask]
  split
  · exact List.prefix_refl _
  · split
    · exact List.prefix_refl _
    · exact List.prefix_refl _
    · split_ifs
      · exact List.prefix_refl _
      · exact hmint
      · exact hmint

theorem streamTokens_serve (driver : Driver) (s : State) {r : Request} (hr : r.OfProject project) :
    s.streamTokens <+: (serve driver s r).streamTokens := by
  cases r with
  | create body user newId now flush lsTaskId commits => exact streamTokens_create ..
  | assign taskId userId user now commits => rw [serve, assignTask, streamTokens_operate]
  | submit taskId quality notes user now commits => rw [serve, submitTask, streamTokens_operate]
  | approve taskId user now commits publishes => rw [serve, streamTokens_approve]
  | reject taskId comment user now commits => rw [serve, rejectTask, streamTokens_operate]
  | webhook payload newId now commits => cases hr

theorem project_isolation (driver : Driver) (owner : Uuid → Option Uuid) (project : Option Uuid) (s u : State)
    (requests : List Request) (husers : ∀ r ∈ requests, r.OfProject project)
    (h : run (next driver) s requests = some u) :
    (∀ before t, before <+: requests → run (next driver) s before = some t → Isolated owner project s t) ↔
      Along (next driver) (fun t r => ¬ Trespasses owner project t r) s requests := by
  refine reached_iff_along (fun t r v ht hr hnext => ?_) (isolated_refl owner project s) husers h
  cases hnext
  rw [← isolated_serve_iff hr]
  exact ⟨fun hv => ht.after hv (streamTokens_serve driver t hr), fun hv => ht.trans hv⟩

def assignedTask : State := serve plainDriver (serve plainDriver initial createLinked) (.assign ⟨1⟩ ⟨5⟩ engineer 1 true)

def outsider : CurrentUser :=
  ⟨"00000000-0000-0000-0000-0000000000e2", "00000000-0000-0000-0000-0000000000b2", some "admin"⟩

def ownerOfTen (id : Uuid) : Option Uuid := if id = ⟨10⟩ then some ⟨0xa1⟩ else none

def ownTask : List Request :=
  [.create ⟨none, "video_annotation", none, none, [], none⟩ outsider ⟨2⟩ 2 .accepted none true,
    .assign ⟨2⟩ ⟨6⟩ outsider 3 true, .submit ⟨2⟩ .good none outsider 4 true]

theorem project_isolation_ownTask :
    (run (next plainDriver) assignedTask ownTask).isSome ∧ ∀ u, run (next plainDriver) assignedTask ownTask = some u →
      ((∀ before t, before <+: ownTask → run (next plainDriver) assignedTask before = some t →
          Isolated ownerOfTen (some ⟨0xb2⟩) assignedTask t) ↔
        Along (next plainDriver) (fun t r => ¬ Trespasses ownerOfTen (some ⟨0xb2⟩) t r) assignedTask ownTask) :=
  ⟨by decide +kernel, fun u h =>
    project_isolation plainDriver ownerOfTen (some ⟨0xb2⟩) assignedTask u ownTask (by decide +kernel) h⟩

def trespassing : List Request :=
  [.submit ⟨1⟩ .good none outsider 2 true,
    .create ⟨some "00000000-0000-0000-0000-00000000000a", "video_annotation", none, none, [], none⟩ outsider ⟨2⟩ 3
      .accepted none true]

theorem outsider_submits :
    ¬ ∀ (driver : Driver) (owner : Uuid → Option Uuid) (project : Option Uuid) (s u : State)
      (requests : List Request), (∀ r ∈ requests, r.OfProject project) → run (next driver) s requests = some u →
      Isolated owner project s u := by
  intro hall
  have hsome : (run (next plainDriver) assignedTask trespassing).isSome := by decide +kernel
  obtain ⟨u, hu⟩ := Option.isSome_iff_exists.mp hsome
  have hisolated := hall plainDriver ownerOfTen (some ⟨0xb2⟩) assignedTask u trespassing (by decide +kernel) hu
  have hbefore : (assignedTask.tasks.get? ⟨1⟩).map (fun task => (task.projectId, task.status)) =
      some (⟨0xa1⟩, .assigned) := by decide +kernel
  have hafter : ∀ u ∈ run (next plainDriver) assignedTask trespassing,
      ∀ task ∈ u.tasks.get? ⟨1⟩, task.status = .submitted := by decide +kernel
  obtain ⟨task, htask, hrow⟩ := Option.map_eq_some_iff.mp hbefore
  obtain ⟨hproject, hstatus⟩ := Prod.mk.inj hrow
  have hforeign : ForeignTask (some ⟨0xb2⟩) task := by
    rw [ForeignTask, hproject]
    decide
  have hsubmitted := hafter u hu task ((hisolated.tasks ⟨1⟩ task hforeign).mpr htask)
  rw [hstatus] at hsubmitted
  cases hsubmitted

end Embedai.TaskService
