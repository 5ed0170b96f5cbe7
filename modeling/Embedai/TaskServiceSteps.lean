import Embedai.Handlers
import Embedai.TaskService

namespace Embedai.TaskService

open Handlers (except_bind_eq_ok)

def Request.operation? : Request → Option (Uuid × TaskOperation)
  | .assign taskId userId _ _ _ => some (taskId, .assign userId)
  | .submit taskId quality notes _ _ _ => some (taskId, .submit quality notes)
  | .approve taskId _ _ _ _ => some (taskId, .approve)
  | .reject taskId comment _ _ _ => some (taskId, .reject comment)
  | .create .. => none
  | .webhook .. => none

inductive Step (driver : Driver) (s : State) : Request → State → Prop
  | unchanged {r s'} (htasks : s'.tasks = s.tasks) (hann : s'.annotations = s.annotations) : Step driver s r s'
  | created {body user id now flush lsTaskId commits s' task} (hnew : id ∉ s.tasks.keys)
      (hstatus : task.status = .created) (htasks : s'.tasks = s.tasks.append id task hnew)
      (hann : s'.annotations = s.annotations) :
      Step driver s (.create body user id now flush lsTaskId commits) s'
  | moved {r s' taskId op now task} (hr : r.operation? = some (taskId, op))
      (ht : s.tasks.get? taskId = some task) (hedge : op.target ∈ transitions task.status)
      (htasks : s'.tasks = s.tasks.set taskId (op.change now task)) (hann : s'.annotations = s.annotations) :
      Step driver s r s'
  | inserted {payload newId now commits s' d t n taskId task row} (hd : delivery payload = .ok (some d))
      (ht : sqlInteger driver.bind d.lsTaskId = .ok t) (hn : sqlInteger driver.bind d.lsAnnotationId = .ok n)
      (htask : tasksOf s t = [(taskId, task)]) (hnone : annotationsOf s n = [])
      (hrow : newAnnotation taskId task n d.resultLabels now = .ok row) (hnew : newId ∉ s.annotations.keys)
      (htasks : s'.tasks = s.tasks.set taskId (advanceTask now task))
      (hann : s'.annotations = s.annotations.append newId row hnew) :
      Step driver s (.webhook payload newId now commits) s'
  | updated {payload newId now commits s' d t n taskId task id row} (hd : delivery payload = .ok (some d))
      (ht : sqlInteger driver.bind d.lsTaskId = .ok t) (hn : sqlInteger driver.bind d.lsAnnotationId = .ok n)
      (htask : tasksOf s t = [(taskId, task)]) (hone : annotationsOf s n = [(id, row)])
      (htasks : s'.tasks = s.tasks.set taskId (advanceTask now task))
      (hann : s'.annotations = s.annotations.set id (updatedAnnotationRow driver.same row n d.resultLabels now)) :
      Step driver s (.webhook payload newId now commits) s'

theorem scalarOneOrNone_eq_none {α : Type} {l : List α} (h : scalarOneOrNone l = .ok none) : l = [] := by
  match l with
  | [] => rfl
  | [_] => cases h
  | _ :: _ :: _ => cases h

theorem scalarOneOrNone_eq_some {α : Type} {l : List α} {a : α} (h : scalarOneOrNone l = .ok (some a)) :
    l = [a] := by
  match l with
  | [] => cases h
  | [_] =>
    cases h
    rfl
  | _ :: _ :: _ => cases h

theorem assertTransition_eq_ok {current target : TaskStatus} {u : Unit} :
    assertTransition current target = .ok u ↔ target ∈ transitions current := by
  unfold assertTransition
  split <;> simp [*]

theorem findTask_eq_ok {s : State} {taskId : Uuid} {task : AnnotationTask} :
    findTask s taskId = .ok task ↔ s.tasks.get? taskId = some task := by
  unfold findTask
  cases s.tasks.get? taskId <;> simp

theorem findTaskInProject_eq_ok {s : State} {taskId : Uuid} {user : CurrentUser} {task : AnnotationTask} :
    findTaskInProject s taskId user = .ok task ↔
      parseId user.projectId = .ok task.projectId ∧ s.tasks.get? taskId = some task := by
  simp only [findTaskInProject, except_bind_eq_ok, findTask_eq_ok]
  constructor
  · rintro ⟨projectId, hp, found, hf, h⟩
    split at h
    · rename_i hproject
      cases h
      exact ⟨hproject ▸ hp, hf⟩
    · cases h
  · rintro ⟨hp, hf⟩
    exact ⟨task.projectId, hp, task, hf, if_pos rfl⟩

theorem read_eq_ok {s : State} {taskId : Uuid} {user : CurrentUser} {op : TaskOperation} {task : AnnotationTask}
    (h : op.read s taskId user = .ok task) : s.tasks.get? taskId = some task := by
  cases op with
  | submit quality notes => exact findTask_eq_ok.mp h
  | assign userId =>
    obtain ⟨_, -, h⟩ := except_bind_eq_ok.mp h
    exact (findTaskInProject_eq_ok.mp h).2
  | approve =>
    obtain ⟨_, -, h⟩ := except_bind_eq_ok.mp h
    exact (findTaskInProject_eq_ok.mp h).2
  | reject comment =>
    obtain ⟨_, -, h⟩ := except_bind_eq_ok.mp h
    exact (findTaskInProject_eq_ok.mp h).2

theorem check_eq_ok {task : AnnotationTask} {user : CurrentUser} {op : TaskOperation} {u : Unit}
    (h : op.check task user = .ok u) : op.target ∈ transitions task.status := by
  cases op with
  | submit quality notes =>
    simp only [TaskOperation.check] at h
    split at h
    · cases h
    · exact assertTransition_eq_ok.mp h
  | assign userId => exact assertTransition_eq_ok.mp h
  | approve => exact assertTransition_eq_ok.mp h
  | reject comment => exact assertTransition_eq_ok.mp h

theorem change_status (now : Timestamp) (task : AnnotationTask) (op : TaskOperation) :
    (op.change now task).status = op.target := by
  cases op <;> rfl

theorem operate_of_ok {s : State} {taskId : Uuid} {op : TaskOperation} {user : CurrentUser} {task : AnnotationTask}
    (hread : op.read s taskId user = .ok task) (hcheck : op.check task user = .ok ()) (now : Timestamp)
    (commits : Bool) : (operate s taskId op user now commits).2 =
      if commits then { s with tasks := s.tasks.set taskId (op.change now task) } else s := by
  have hchecked : (do
      let task ← op.read s taskId user
      op.check task user
      return task) = .ok task := except_bind_eq_ok.mpr ⟨task, hread, except_bind_eq_ok.mpr ⟨(), hcheck, rfl⟩⟩
  unfold operate
  simp only [hchecked]
  split <;> rfl

theorem operate_changes {s : State} {taskId : Uuid} {op : TaskOperation} {user : CurrentUser} {now : Timestamp}
    {commits : Bool} (h : (operate s taskId op user now commits).2 ≠ s) :
    commits = true ∧ ∃ task, op.read s taskId user = .ok task ∧ op.check task user = .ok () := by
  unfold operate at h
  dsimp only at h
  split at h
  · exact absurd rfl h
  · rename_i task hchecked
    obtain ⟨row, hread, hchecked⟩ := except_bind_eq_ok.mp hchecked
    obtain ⟨_, hcheck, hchecked⟩ := except_bind_eq_ok.mp hchecked
    cases hchecked
    split at h
    · rename_i hcommits
      exact ⟨hcommits, task, hread, hcheck⟩
    · exact absurd rfl h

theorem operate_cases (s : State) (taskId : Uuid) (op : TaskOperation) (user : CurrentUser) (now : Timestamp)
    (commits : Bool) :
    (operate s taskId op user now commits).2 = s ∨
      ∃ task, s.tasks.get? taskId = some task ∧ op.target ∈ transitions task.status ∧
        (operate s taskId op user now commits).2 = { s with tasks := s.tasks.set taskId (op.change now task) } := by
  by_cases h : (operate s taskId op user now commits).2 = s
  · exact Or.inl h
  · obtain ⟨hcommits, task, hread, hcheck⟩ := operate_changes h
    refine Or.inr ⟨task, read_eq_ok hread, check_eq_ok hcheck, ?_⟩
    rw [operate_of_ok hread hcheck, if_pos hcommits]

theorem step_operate {driver : Driver} {s : State} {r : Request} {taskId : Uuid} {op : TaskOperation}
    (hr : r.operation? = some (taskId, op)) (user : CurrentUser) (now : Timestamp) (commits : Bool) :
    Step driver s r (operate s taskId op user now commits).2 := by
  rcases operate_cases s taskId op user now commits with h | ⟨task, ht, hedge, h⟩
  · rw [h]
    exact .unchanged rfl rfl
  · rw [h]
    exact .moved hr ht hedge rfl rfl

theorem mintStreamToken_tasks (s : State) (episodeId : Option String) :
    (mintStreamToken s episodeId).tasks = s.tasks ∧ (mintStreamToken s episodeId).annotations = s.annotations := by
  unfold mintStreamToken
  split
  · exact ⟨rfl, rfl⟩
  · split <;> exact ⟨rfl, rfl⟩

structure AnnotationTask.NewFor (user : CurrentUser) (task : AnnotationTask) : Prop where
  project : parseId user.projectId = .ok task.projectId
  status : task.status = .created
  assignedTo : task.assignedTo = none
  createdBy : task.createdBy.isSome

theorem newTask_eq_ok {body : CreateTaskRequest} {user : CurrentUser} {now : Timestamp} {task : AnnotationTask}
    (h : newTask body user now = .ok task) : task.NewFor user := by
  obtain ⟨projectId, hproject, h⟩ := except_bind_eq_ok.mp h
  obtain ⟨userId, -, h⟩ := except_bind_eq_ok.mp h
  obtain ⟨datasetVersionId, -, h⟩ := except_bind_eq_ok.mp h
  obtain ⟨episodeId, -, h⟩ := except_bind_eq_ok.mp h
  cases h
  exact ⟨hproject, rfl, rfl, rfl⟩

theorem handleDelivery_eq_ok {driver : Driver} {s s' : State} {d : Delivery} {newId taskId : Uuid}
    {now : Timestamp} (h : handleDelivery driver s d newId now = .ok (some (taskId, s'))) :
    ∃ t n task existing annotations, sqlInteger driver.bind d.lsTaskId = .ok t ∧ tasksOf s t = [(taskId, task)] ∧
      sqlInteger driver.bind d.lsAnnotationId = .ok n ∧ scalarOneOrNone (annotationsOf s n) = .ok existing ∧
      upsertAnnotation driver.same s taskId task existing n d.resultLabels newId now = .ok annotations ∧
      s' = { s with tasks := s.tasks.set taskId (advanceTask now task), annotations := annotations } := by
  obtain ⟨t, ht, h⟩ := except_bind_eq_ok.mp h
  obtain ⟨found, hfound, h⟩ := except_bind_eq_ok.mp h
  cases found with
  | none => cases h
  | some p =>
    obtain ⟨id, task⟩ := p
    obtain ⟨n, hn, h⟩ := except_bind_eq_ok.mp h
    obtain ⟨existing, hexisting, h⟩ := except_bind_eq_ok.mp h
    obtain ⟨annotations, hupsert, h⟩ := except_bind_eq_ok.mp h
    cases h
    exact ⟨t, n, task, existing, annotations, ht, scalarOneOrNone_eq_some hfound, hn, hexisting, hupsert, rfl⟩

theorem step_webhook (driver : Driver) (s : State) (payload : List (String × Json)) (newId : Uuid)
    (now : Timestamp) (commits : Bool) :
    Step driver s (.webhook payload newId now commits) (labelStudioWebhook driver s payload newId now commits).2 := by
  unfold labelStudioWebhook
  split
  · exact .unchanged rfl rfl
  · exact .unchanged rfl rfl
  · rename_i d hd
    split
    · exact .unchanged rfl rfl
    · exact .unchanged rfl rfl
    · rename_i taskId s' h
      obtain ⟨t, n, task, existing, annotations, ht, htask, hn, hexisting, hupsert, rfl⟩ := handleDelivery_eq_ok h
      split
      · cases existing with
        | some p =>
          cases hupsert
          exact .updated hd ht hn htask (scalarOneOrNone_eq_some hexisting) rfl rfl
        | none =>
          obtain ⟨row, hrow, hupsert⟩ := except_bind_eq_ok.mp hupsert
          split at hupsert
          · cases hupsert
          · rename_i hnew
            cases hupsert
            exact .inserted hd ht hn htask (scalarOneOrNone_eq_none hexisting) hrow hnew rfl rfl
      · exact .unchanged rfl rfl

theorem step_serve (driver : Driver) (s : State) (r : Request) : Step driver s r (serve driver s r) := by
  cases r with
  | create body user newId now flush lsTaskId commits =>
    simp only [serve, createTask]
    split
    · exact .unchanged rfl rfl
    · rename_i task htask
      have hstatus := (newTask_eq_ok htask).status
      split
      · exact .unchanged rfl rfl
      · exact .unchanged rfl rfl
      · obtain ⟨hmt, hma⟩ := mintStreamToken_tasks s body.episodeId
        split
        · exact .unchanged rfl rfl
        · rename_i hnew
          split
          · have hlinked : ({ task with labelStudioTaskId := lsTaskId } : AnnotationTask).status = .created := hstatus
            exact .created hnew hlinked rfl hma
          · exact .unchanged hmt hma
  | assign taskId userId user now commits => exact step_operate rfl user now commits
  | submit taskId quality notes user now commits => exact step_operate rfl user now commits
  | approve taskId user now commits publishes =>
    have h : Step driver s (.approve taskId user now commits publishes)
        (operate s taskId .approve user now commits).2 := step_operate rfl user now commits
    simp only [serve, approveTask]
    split
    · rename_i out s' hop
      rw [hop] at h
      cases h with
      | unchanged htasks hann => split <;> exact .unchanged htasks hann
      | moved hr ht hedge htasks hann => split <;> exact .moved hr ht hedge htasks hann
    · rename_i e s' hop
      rw [hop] at h
      exact h
  | reject taskId comment user now commits => exact step_operate rfl user now commits
  | webhook payload newId now commits => exact step_webhook driver s payload newId now commits

theorem step_of_next {driver : Driver} {s s' : State} {r : Request} (h : next driver s r = some s') :
    Step driver s r s' := by
  cases h
  exact step_serve driver s r

inductive TaskChange (r : Request) (id : Uuid) (task : AnnotationTask) : AnnotationTask → Prop
  | kept : TaskChange r id task task
  | moved {op now} (hr : r.operation? = some (id, op)) (hedge : op.target ∈ transitions task.status) :
      TaskChange r id task (op.change now task)
  | delivered {payload newId now commits} (hr : r = .webhook payload newId now commits) :
      TaskChange r id task (advanceTask now task)

theorem mem_tasksOf {s : State} {t : Option ℤ} {id : Uuid} {task : AnnotationTask} :
    (id, task) ∈ tasksOf s t ↔ s.tasks.get? id = some task ∧ task.labelStudioTaskId = t := by
  simp [tasksOf, OrderedDict.mem_items]

theorem mem_annotationsOf {s : State} {n : Option ℤ} {id : Uuid} {row : Annotation} :
    (id, row) ∈ annotationsOf s n ↔ s.annotations.get? id = some row ∧ row.labelStudioAnnotationId = n := by
  simp [annotationsOf, OrderedDict.mem_items]

theorem get?_set_task {s s' : State} {id taskId : Uuid} {task found changed : AnnotationTask}
    (htasks : s'.tasks = s.tasks.set taskId changed) (hfound : s.tasks.get? taskId = some found)
    (ht : s.tasks.get? id = some task) :
    id ≠ taskId ∧ s'.tasks.get? id = some task ∨ id = taskId ∧ task = found ∧ s'.tasks.get? id = some changed := by
  rw [htasks, OrderedDict.get?_set]
  by_cases hid : id = taskId
  · subst hid
    rw [ht, Option.some.injEq] at hfound
    exact Or.inr ⟨rfl, hfound, if_pos rfl⟩
  · exact Or.inl ⟨hid, by rw [if_neg hid, ht]⟩

theorem task_step {driver : Driver} {s s' : State} {r : Request} {id : Uuid} {task : AnnotationTask}
    (h : Step driver s r s') (ht : s.tasks.get? id = some task) :
    ∃ task', s'.tasks.get? id = some task' ∧ TaskChange r id task task' := by
  cases h with
  | unchanged htasks hann => exact ⟨task, htasks ▸ ht, .kept⟩
  | created hnew hstatus htasks hann =>
    refine ⟨task, ?_, .kept⟩
    rw [htasks, OrderedDict.get?_append, if_neg, ht]
    rintro rfl
    exact hnew (OrderedDict.mem_keys.mpr ⟨task, ht⟩)
  | moved hr hfound hedge htasks hann =>
    rcases get?_set_task htasks hfound ht with ⟨-, hkept⟩ | ⟨rfl, rfl, hset⟩
    · exact ⟨task, hkept, .kept⟩
    · exact ⟨_, hset, .moved hr hedge⟩
  | inserted hd hlst hn htask hnone hrow hnew htasks hann =>
    have hfound := (mem_tasksOf.mp (htask ▸ List.mem_singleton_self _)).1
    rcases get?_set_task htasks hfound ht with ⟨-, hkept⟩ | ⟨rfl, rfl, hset⟩
    · exact ⟨task, hkept, .kept⟩
    · exact ⟨_, hset, .delivered rfl⟩
  | updated hd hlst hn htask hone htasks hann =>
    have hfound := (mem_tasksOf.mp (htask ▸ List.mem_singleton_self _)).1
    rcases get?_set_task htasks hfound ht with ⟨-, hkept⟩ | ⟨rfl, rfl, hset⟩
    · exact ⟨task, hkept, .kept⟩
    · exact ⟨_, hset, .delivered rfl⟩

theorem new_task_step {driver : Driver} {s s' : State} {r : Request} {id : Uuid} {task : AnnotationTask}
    (h : Step driver s r s') (hnone : s.tasks.get? id = none) (ht : s'.tasks.get? id = some task) :
    task.status = .created ∧
      ∃ body user now flush lsTaskId commits, r = .create body user id now flush lsTaskId commits := by
  have hset : ∀ {taskId found changed}, s'.tasks = s.tasks.set taskId changed →
      ¬ s.tasks.get? taskId = some found := by
    intro taskId found changed htasks hfound
    rw [htasks, OrderedDict.get?_set] at ht
    split_ifs at ht with hid
    · rw [← hid, hnone] at hfound
      cases hfound
    · rw [hnone] at ht
      cases ht
  cases h with
  | unchanged htasks hann =>
    rw [htasks, hnone] at ht
    cases ht
  | created hnew hstatus htasks hann =>
    rw [htasks, OrderedDict.get?_append] at ht
    split_ifs at ht with hid
    · subst hid
      cases ht
      exact ⟨hstatus, _, _, _, _, _, _, rfl⟩
    · rw [hnone] at ht
      cases ht
  | moved hr hfound hedge htasks hann => exact absurd hfound (hset htasks)
  | inserted hd hlst hn htask hnone' hrow hnew htasks hann =>
    exact absurd (mem_tasksOf.mp (htask ▸ List.mem_singleton_self _)).1 (hset htasks)
  | updated hd hlst hn htask hone htasks hann =>
    exact absurd (mem_tasksOf.mp (htask ▸ List.mem_singleton_self _)).1 (hset htasks)

theorem task_origin {driver : Driver} {s s' : State} {r : Request} {id : Uuid} {task' : AnnotationTask}
    (h : Step driver s r s') (ht : s'.tasks.get? id = some task') :
    (∃ task, s.tasks.get? id = some task ∧ TaskChange r id task task') ∨ task'.status = .created := by
  cases hs : s.tasks.get? id with
  | none => exact Or.inr (new_task_step h hs ht).1
  | some task =>
    obtain ⟨found, hfound, hchange⟩ := task_step h hs
    rw [ht, Option.some.injEq] at hfound
    exact Or.inl ⟨task, rfl, hfound ▸ hchange⟩

theorem advanceTask_status (now : Timestamp) (task : AnnotationTask) :
    (advanceTask now task).status = task.status ∨
      (task.status = .assigned ∨ task.status = .created) ∧ (advanceTask now task).status = .submitted := by
  unfold advanceTask
  split_ifs with h
  · exact Or.inr ⟨h, rfl⟩
  · exact Or.inl rfl

theorem labelStudioTaskId_advance (now : Timestamp) (task : AnnotationTask) :
    (advanceTask now task).labelStudioTaskId = task.labelStudioTaskId := by
  unfold advanceTask
  split_ifs <;> rfl

theorem taskChange_labelStudioTaskId {r : Request} {id : Uuid} {task task' : AnnotationTask}
    (h : TaskChange r id task task') : task'.labelStudioTaskId = task.labelStudioTaskId := by
  cases h with
  | kept => rfl
  | @moved op now hr hedge => cases op <;> rfl
  | delivered hr => exact labelStudioTaskId_advance _ task

theorem createdBy_taskChange {r : Request} {id : Uuid} {task task' : AnnotationTask}
    (h : TaskChange r id task task') : task'.createdBy = task.createdBy := by
  cases h with
  | kept => rfl
  | @moved op now hr hedge => cases op <;> rfl
  | delivered hr =>
    unfold advanceTask
    split_ifs <;> rfl

theorem createTask_row {s : State} {body : CreateTaskRequest} {user : CurrentUser} {newId : Uuid}
    {now : Timestamp} {flush : Flush} {lsTaskId : Option ℤ} {commits : Bool} {task : AnnotationTask}
    (hnone : s.tasks.get? newId = none)
    (h : (createTask s body user newId now flush lsTaskId commits).2.tasks.get? newId = some task) :
    ∃ row, newTask body user now = .ok row ∧ task = { row with labelStudioTaskId := lsTaskId } := by
  unfold createTask at h
  split at h
  · rw [hnone] at h
    cases h
  · rename_i row hrow
    split at h
    · rw [hnone] at h
      cases h
    · rw [hnone] at h
      cases h
    · split_ifs at h
      · rw [hnone] at h
        cases h
      · rw [OrderedDict.get?_append, if_pos rfl, Option.some.injEq] at h
        exact ⟨row, hrow, h.symm⟩
      · rw [(mintStreamToken_tasks s body.episodeId).1, hnone] at h
        cases h

theorem new_task_row {driver : Driver} {s : State} {r : Request} {id : Uuid} {task : AnnotationTask}
    (hnone : s.tasks.get? id = none) (ht : (serve driver s r).tasks.get? id = some task) :
    ∃ body user now lsTaskId row, newTask body user now = .ok row ∧
      task = { row with labelStudioTaskId := lsTaskId } := by
  obtain ⟨-, body, user, now, flush, lsTaskId, commits, rfl⟩ := new_task_step (step_serve driver s r) hnone ht
  obtain ⟨row, hrow, htask⟩ := createTask_row hnone ht
  exact ⟨body, user, now, lsTaskId, row, hrow, htask⟩

theorem createdBy_serve {driver : Driver} {s : State} {r : Request}
    (hs : ∀ id task, s.tasks.get? id = some task → task.createdBy.isSome) :
    ∀ id task, (serve driver s r).tasks.get? id = some task → task.createdBy.isSome := by
  have hstep := step_serve driver s r
  intro id task' ht'
  cases hbefore : s.tasks.get? id with
  | some task =>
    obtain ⟨found, hfound, hchange⟩ := task_step hstep hbefore
    rw [ht', Option.some.injEq] at hfound
    rw [hfound, createdBy_taskChange hchange]
    exact hs id task hbefore
  | none =>
    obtain ⟨body, user, now, lsTaskId, row, hrow, rfl⟩ := new_task_row hbefore ht'
    exact (newTask_eq_ok hrow).createdBy

theorem annotationsOf_append {s s' : State} {id : Uuid} {row : Annotation} {hnew : id ∉ s.annotations.keys}
    (hann : s'.annotations = s.annotations.append id row hnew) (n : Option ℤ) :
    annotationsOf s' n = annotationsOf s n ++ if row.labelStudioAnnotationId = n then [(id, row)] else [] := by
  simp only [annotationsOf, hann, OrderedDict.append, List.filter_append]
  split_ifs with h <;> simp [h]

theorem annotationsOf_modify {s s' : State} {id : Uuid} {f : Annotation → Annotation}
    (hsame : ∀ row, s.annotations.get? id = some row →
      (f row).labelStudioAnnotationId = row.labelStudioAnnotationId)
    (hann : s'.annotations = s.annotations.modify id f) (n : Option ℤ) :
    annotationsOf s' n = (annotationsOf s n).map (fun p => if p.1 = id then (p.1, f p.2) else p) := by
  simp only [annotationsOf, hann, OrderedDict.modify, List.filter_map]
  congr 1
  apply List.filter_congr
  intro p hp
  by_cases hid : p.1 = id
  · have hrow := hsame p.2 (hid ▸ OrderedDict.mem_items.mp hp)
    simp [hid, hrow]
  · simp [hid]

theorem annotationsOf_set {s s' : State} {id : Uuid} {row changed : Annotation}
    (hrow : s.annotations.get? id = some row)
    (hsame : changed.labelStudioAnnotationId = row.labelStudioAnnotationId)
    (hann : s'.annotations = s.annotations.set id changed) (n : Option ℤ) :
    annotationsOf s' n = (annotationsOf s n).map (fun p => if p.1 = id then (p.1, changed) else p) := by
  rw [OrderedDict.set, dif_pos (OrderedDict.mem_keys.mpr ⟨row, hrow⟩)] at hann
  apply annotationsOf_modify _ hann
  intro found hfound
  rw [hrow, Option.some.injEq] at hfound
  rw [← hfound, hsame]

theorem webhook_of_upsert {driver : Driver} {s : State} {payload : List (String × Json)} {d : Delivery}
    {lst n : Option ℤ} {taskId : Uuid} {task : AnnotationTask} {existing : Option (Uuid × Annotation)}
    {annotations : OrderedDict Uuid Annotation} {newId : Uuid} {now : Timestamp}
    (hd : delivery payload = .ok (some d)) (ht : sqlInteger driver.bind d.lsTaskId = .ok lst)
    (htask : tasksOf s lst = [(taskId, task)]) (hn : sqlInteger driver.bind d.lsAnnotationId = .ok n)
    (hexisting : scalarOneOrNone (annotationsOf s n) = .ok existing)
    (hupsert : upsertAnnotation driver.same s taskId task existing n d.resultLabels newId now = .ok annotations) :
    serve driver s (.webhook payload newId now true) =
      { s with tasks := s.tasks.set taskId (advanceTask now task), annotations := annotations } := by
  have hhandled : handleDelivery driver s d newId now = .ok (some (taskId,
      { s with tasks := s.tasks.set taskId (advanceTask now task), annotations := annotations })) := by
    apply except_bind_eq_ok.mpr
    refine ⟨lst, ht, except_bind_eq_ok.mpr ⟨some (taskId, task), by rw [htask, scalarOneOrNone], ?_⟩⟩
    apply except_bind_eq_ok.mpr
    exact ⟨n, hn, except_bind_eq_ok.mpr ⟨existing, hexisting, except_bind_eq_ok.mpr ⟨annotations, hupsert, rfl⟩⟩⟩
  simp only [serve, labelStudioWebhook, hd, hhandled, if_true]

theorem newAnnotation_of_isSome {task : AnnotationTask} (taskId : Uuid) (n : Option ℤ) (labels : Json)
    (now : Timestamp) (h : (task.assignedTo.or task.createdBy).isSome) :
    ∃ row, newAnnotation taskId task n labels now = .ok row ∧ row.taskId = taskId ∧
      row.labelStudioAnnotationId = n ∧ row.labels = labels := by
  obtain ⟨annotatorId, hannotator⟩ := Option.isSome_iff_exists.mp h
  unfold newAnnotation
  rw [hannotator]
  exact ⟨_, rfl, rfl, rfl, rfl⟩

end Embedai.TaskService
