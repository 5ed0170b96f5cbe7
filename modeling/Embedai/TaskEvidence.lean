import Embedai.TaskTransitions

namespace Embedai.TaskService

open TransitionSystems

def AnnotationTask.SameDecision (task task' : AnnotationTask) : Prop :=
  task'.status = task.status ∧ task'.assignedTo = task.assignedTo ∧
    task'.annotationResult = task.annotationResult

def ApprovedFinal (s s' : State) : Prop :=
  ∀ id task, s.tasks.get? id = some task → task.status = .approved →
    ∃ task', s'.tasks.get? id = some task' ∧ task.SameDecision task'

def Reviewable (task : AnnotationTask) : Prop :=
  task.status = .submitted ∨ task.status = .approved ∨ task.status = .rejected

def HasAnnotation (s : State) (taskId : Uuid) : Prop :=
  ∃ id row, s.annotations.get? id = some row ∧ row.taskId = taskId

def BackedByEvidence (s : State) : Prop :=
  ∀ id task, s.tasks.get? id = some task → Reviewable task →
    task.annotationResult.isSome ∨ HasAnnotation s id

def Request.delivery? : Request → Option Delivery
  | .webhook payload _ _ _ => ((delivery payload).toOption).join
  | _ => none

def Names (driver : Driver) (requests : List Request) (n t : Option ℤ) : Prop :=
  ∃ d ∈ requests.filterMap Request.delivery?,
    sqlInteger driver.bind d.lsAnnotationId = .ok n ∧ sqlInteger driver.bind d.lsTaskId = .ok t

def OneTaskEach (driver : Driver) (requests : List Request) : Prop :=
  ∀ n t u, Names driver requests n t → Names driver requests n u → t = u

theorem sameDecision_refl (task : AnnotationTask) : task.SameDecision task := ⟨rfl, rfl, rfl⟩

theorem approved_taskChange {r : Request} {id : Uuid} {task task' : AnnotationTask}
    (h : TaskChange r id task task') (ha : task.status = .approved) : task.SameDecision task' := by
  cases h with
  | kept => exact sameDecision_refl task
  | moved hr hedge =>
    rw [ha] at hedge
    cases hedge
  | delivered hr =>
    rw [advanceTask, if_neg (by simp [ha])]
    exact sameDecision_refl task

theorem approvedFinal_run {driver : Driver} {requests : List Request} {s s' : State}
    (h : run (next driver) s requests = some s') : ApprovedFinal s s' := by
  refine preorder_run ApprovedFinal ?_ ?_ ?_ h
  · exact fun s id task ht _ => ⟨task, ht, sameDecision_refl task⟩
  · intro s t u hst htu id task ht ha
    obtain ⟨task', ht', hsame⟩ := hst id task ht ha
    obtain ⟨task'', ht'', hsame'⟩ := htu id task' ht' (hsame.1.trans ha)
    exact ⟨task'', ht'', hsame'.1.trans hsame.1, hsame'.2.1.trans hsame.2.1, hsame'.2.2.trans hsame.2.2⟩
  · intro s r t hn id task ht ha
    obtain ⟨task', ht', hchange⟩ := task_step (step_of_next hn) ht
    exact ⟨task', ht', approved_taskChange hchange ha⟩

def Owned (names : Option ℤ → Option ℤ → Prop) (s : State) (row : Annotation) : Prop :=
  ∃ t, names row.labelStudioAnnotationId t ∧
    ∃ task, s.tasks.get? row.taskId = some task ∧ task.labelStudioTaskId = t

structure Evident (names : Option ℤ → Option ℤ → Prop) (s : State) : Prop where
  evidence : BackedByEvidence s
  owned : ∀ id row, s.annotations.get? id = some row → Owned names s row

theorem HasAnnotation.insert {s s' : State} {newId : Uuid} {row : Annotation} {hnew : newId ∉ s.annotations.keys}
    (hann : s'.annotations = s.annotations.append newId row hnew) {taskId : Uuid} (h : HasAnnotation s taskId) :
    HasAnnotation s' taskId := by
  obtain ⟨id, old, hid, hrow⟩ := h
  refine ⟨id, old, ?_, hrow⟩
  rw [hann, OrderedDict.get?_append, if_neg, hid]
  rintro rfl
  exact hnew (OrderedDict.mem_keys.mpr ⟨old, hid⟩)

theorem HasAnnotation.update {s s' : State} {id : Uuid} {row row' : Annotation}
    (hid : s.annotations.get? id = some row) (hrow : row'.taskId = row.taskId)
    (hann : s'.annotations = s.annotations.set id row') {taskId : Uuid} (h : HasAnnotation s taskId) :
    HasAnnotation s' taskId := by
  obtain ⟨jd, old, hjd, hold⟩ := h
  by_cases hj : jd = id
  · subst hj
    rw [hid, Option.some.injEq] at hjd
    exact ⟨jd, row', by rw [hann, OrderedDict.get?_set, if_pos rfl], by rw [hrow, hjd, hold]⟩
  · exact ⟨jd, old, by rw [hann, OrderedDict.get?_set, if_neg hj, hjd], hold⟩

theorem newAnnotation_eq_ok {taskId : Uuid} {task : AnnotationTask} {n : Option ℤ} {labels : Json}
    {now : Timestamp} {row : Annotation} (h : newAnnotation taskId task n labels now = .ok row) :
    row.taskId = taskId ∧ row.labelStudioAnnotationId = n := by
  unfold newAnnotation at h
  split at h
  · cases h
  · cases h
    exact ⟨rfl, rfl⟩

theorem evidence_moved {s : State} {id : Uuid} {task : AnnotationTask} {op : TaskOperation} {now : Timestamp}
    (hs : BackedByEvidence s) (ht : s.tasks.get? id = some task) (hedge : op.target ∈ transitions task.status)
    (hr : Reviewable (op.change now task)) : (op.change now task).annotationResult.isSome ∨ HasAnnotation s id := by
  cases op with
  | assign userId => simp [Reviewable, TaskOperation.change] at hr
  | submit quality notes => exact Or.inl rfl
  | approve =>
    have hfrom : task.status = .submitted := by
      cases hst : task.status <;> simp [hst, transitions, TaskOperation.target] at hedge ⊢
    exact hs id task ht (Or.inl hfrom)
  | reject comment =>
    have hfrom : task.status = .submitted := by
      cases hst : task.status <;> simp [hst, transitions, TaskOperation.target] at hedge ⊢
    exact hs id task ht (Or.inl hfrom)

theorem Owned.step {driver : Driver} {names : Option ℤ → Option ℤ → Prop} {s s' : State} {r : Request}
    {row : Annotation} (h : Step driver s r s') (hown : Owned names s row) : Owned names s' row := by
  obtain ⟨t, hnames, task, ht, hls⟩ := hown
  obtain ⟨task', ht', hchange⟩ := task_step h ht
  exact ⟨t, hnames, task', ht', (taskChange_labelStudioTaskId hchange).trans hls⟩

theorem evidence_delivered {s s' : State} {now : Timestamp} {id taskId : Uuid} {task found : AnnotationTask}
    (hs : BackedByEvidence s) (hmono : ∀ id, HasAnnotation s id → HasAnnotation s' id)
    (hhas : HasAnnotation s' taskId) (hfound : s.tasks.get? taskId = some found)
    (htasks : s'.tasks = s.tasks.set taskId (advanceTask now found))
    (ht : s.tasks.get? id = some task) {task' : AnnotationTask} (ht' : s'.tasks.get? id = some task')
    (hr : Reviewable task') : task'.annotationResult.isSome ∨ HasAnnotation s' id := by
  rcases get?_set_task htasks hfound ht with ⟨-, hkept⟩ | ⟨rfl, rfl, hset⟩
  · rw [hkept, Option.some.injEq] at ht'
    subst ht'
    exact (hs id task ht hr).imp_right (hmono id)
  · exact Or.inr hhas

theorem not_reviewable_of_created {task : AnnotationTask} (h : task.status = .created) : ¬ Reviewable task := by
  simp [Reviewable, h]

theorem evident_moved {driver : Driver} {names : Option ℤ → Option ℤ → Prop} {s s' : State} {r : Request}
    {taskId : Uuid} {op : TaskOperation} {now : Timestamp} {found : AnnotationTask} (hs : Evident names s)
    (h : Step driver s r s') (hfound : s.tasks.get? taskId = some found) (hedge : op.target ∈ transitions found.status)
    (htasks : s'.tasks = s.tasks.set taskId (op.change now found)) (hann : s'.annotations = s.annotations) :
    Evident names s' := by
  refine ⟨?_, fun id row hrow => (hs.owned id row (hann ▸ hrow)).step h⟩
  intro id task' ht' hr
  have hmono : HasAnnotation s id → HasAnnotation s' id :=
    fun ⟨aid, row, hrow, hid⟩ => ⟨aid, row, hann ▸ hrow, hid⟩
  rcases task_origin h ht' with ⟨task, ht, -⟩ | hst
  · rcases get?_set_task htasks hfound ht with ⟨-, hkept⟩ | ⟨rfl, rfl, hset⟩
    · rw [hkept, Option.some.injEq] at ht'
      subst ht'
      exact (hs.evidence id task ht hr).imp_right hmono
    · rw [hset, Option.some.injEq] at ht'
      subst ht'
      exact (evidence_moved hs.evidence ht hedge hr).imp_right hmono
  · exact absurd hr (not_reviewable_of_created hst)

theorem evident_delivered {driver : Driver} {names : Option ℤ → Option ℤ → Prop} {s s' : State}
    {r : Request} {taskId aid : Uuid} {now : Timestamp} {found : AnnotationTask} {row : Annotation}
    (hs : Evident names s) (h : Step driver s r s') (hfound : s.tasks.get? taskId = some found)
    (htasks : s'.tasks = s.tasks.set taskId (advanceTask now found))
    (hann : ∀ id, s'.annotations.get? id = if id = aid then some row else s.annotations.get? id)
    (hmono : ∀ id, HasAnnotation s id → HasAnnotation s' id) (hrow : row.taskId = taskId)
    (hnames : names row.labelStudioAnnotationId found.labelStudioTaskId) : Evident names s' := by
  refine ⟨?_, ?_⟩
  · intro id task' ht' hr
    rcases task_origin h ht' with ⟨task, ht, -⟩ | hst
    · have hhas : HasAnnotation s' taskId := ⟨aid, row, by rw [hann, if_pos rfl], hrow⟩
      exact evidence_delivered hs.evidence hmono hhas hfound htasks ht ht' hr
    · exact absurd hr (not_reviewable_of_created hst)
  · intro id row' hrow'
    rw [hann] at hrow'
    split_ifs at hrow'
    · cases hrow'
      refine ⟨_, hnames, advanceTask now found, ?_, labelStudioTaskId_advance now found⟩
      rw [hrow, htasks, OrderedDict.get?_set, if_pos rfl]
    · exact (hs.owned id row' hrow').step h

theorem owner_of_delivery {names : Option ℤ → Option ℤ → Prop} {s : State} {n t : Option ℤ} {taskId : Uuid}
    {found : AnnotationTask} {row : Annotation} (hone : ∀ n t u, names n t → names n u → t = u)
    (hnames : names n t) (htask : tasksOf s t = [(taskId, found)]) (hrow : row.labelStudioAnnotationId = n)
    (hown : Owned names s row) : row.taskId = taskId := by
  obtain ⟨u, hu, owner, howner, hls⟩ := hown
  rw [hrow] at hu
  have hmem : (row.taskId, owner) ∈ tasksOf s t := mem_tasksOf.mpr ⟨howner, hls.trans (hone n u t hu hnames)⟩
  rw [htask, List.mem_singleton, Prod.mk.injEq] at hmem
  exact hmem.1

theorem evident_step {driver : Driver} {names : Option ℤ → Option ℤ → Prop} {s s' : State} {r : Request}
    (hs : Evident names s) (hone : ∀ n t u, names n t → names n u → t = u)
    (hnames : ∀ d ∈ r.delivery?, ∀ n t, sqlInteger driver.bind d.lsAnnotationId = .ok n →
      sqlInteger driver.bind d.lsTaskId = .ok t → names n t)
    (h : Step driver s r s') : Evident names s' := by
  have hstep := h
  cases h with
  | unchanged htasks hann =>
    refine ⟨?_, fun id row hrow => (hs.owned id row (hann ▸ hrow)).step hstep⟩
    intro id task ht hr
    refine (hs.evidence id task (htasks ▸ ht) hr).imp_right ?_
    rintro ⟨aid, row, hrow, hid⟩
    exact ⟨aid, row, hann ▸ hrow, hid⟩
  | created hnew hstatus htasks hann =>
    refine ⟨?_, fun id row hrow => (hs.owned id row (hann ▸ hrow)).step hstep⟩
    intro id task' ht' hr
    rw [htasks, OrderedDict.get?_append] at ht'
    split_ifs at ht' with hid
    · cases ht'
      exact absurd hr (not_reviewable_of_created hstatus)
    · apply (hs.evidence id task' ht' hr).imp_right
      rintro ⟨aid, row, hrow, hid⟩
      exact ⟨aid, row, hann ▸ hrow, hid⟩
  | moved hop hfound hedge htasks hann => exact evident_moved hs hstep hfound hedge htasks hann
  | @inserted payload newId now commits s' d t n taskId found row hd hlst hn htask hnone hrow hnew htasks hann =>
    obtain ⟨hfound, hls⟩ := mem_tasksOf.mp (htask ▸ List.mem_singleton_self (taskId, found))
    obtain ⟨hrowTask, hrowId⟩ := newAnnotation_eq_ok hrow
    have hget : ∀ id, s'.annotations.get? id = if id = newId then some row else s.annotations.get? id := by
      intro id
      rw [hann, OrderedDict.get?_append]
    apply evident_delivered hs hstep hfound htasks hget (fun id => HasAnnotation.insert hann) hrowTask
    rw [hrowId, hls]
    exact hnames d (by simp [Request.delivery?, hd, Except.toOption]) n t hn hlst
  | @updated payload newId now commits s' d t n taskId found aid row hd hlst hn htask hrows htasks hann =>
    obtain ⟨hfound, hls⟩ := mem_tasksOf.mp (htask ▸ List.mem_singleton_self (taskId, found))
    obtain ⟨hrow, hrowId⟩ := mem_annotationsOf.mp (hrows ▸ List.mem_singleton_self (aid, row))
    have hnt := hnames d (by simp [Request.delivery?, hd, Except.toOption]) n t hn hlst
    have hrowTask := owner_of_delivery hone hnt htask hrowId (hs.owned aid row hrow)
    have hsame : (updatedAnnotationRow driver.same row n d.resultLabels now).taskId = row.taskId := rfl
    have hget : ∀ id, s'.annotations.get? id =
        if id = aid then some (updatedAnnotationRow driver.same row n d.resultLabels now)
        else s.annotations.get? id := by
      intro id
      rw [hann, OrderedDict.get?_set]
    apply evident_delivered hs hstep hfound htasks hget (fun id => HasAnnotation.update hrow hsame hann)
      (hsame.trans hrowTask)
    rw [hls]
    exact hnt

theorem evident_run {driver : Driver} {requests : List Request} {s : State}
    (hone : OneTaskEach driver requests) (h : run (next driver) initial requests = some s) :
    Evident (Names driver requests) s := by
  have hok : Along (next driver) (fun _ r => ∀ d ∈ r.delivery?, ∀ n t, sqlInteger driver.bind d.lsAnnotationId = .ok n →
      sqlInteger driver.bind d.lsTaskId = .ok t → Names driver requests n t) initial requests :=
    along_of_mem (fun r hr d hd n t hn ht => ⟨d, List.mem_filterMap.mpr ⟨r, hr, hd⟩, hn, ht⟩)
  refine invariant_along (Evident (Names driver requests)) ?_ ?_ hok h
  · exact fun s r t hs hnames hn => evident_step hs hone hnames (step_of_next hn)
  · exact ⟨fun _ _ ht => (by cases ht), fun _ _ hrow => (by cases hrow)⟩

theorem approved_final_backed (driver : Driver) (requests later : List Request) (s s' : State)
    (hone : OneTaskEach driver requests) (h : run (next driver) initial requests = some s)
    (hlater : run (next driver) s later = some s') : ApprovedFinal s s' ∧ BackedByEvidence s :=
  ⟨approvedFinal_run hlater, (evident_run hone h).evidence⟩

def approveLinked : Request := .approve ⟨1⟩ engineer 2 true true

def rejectLinked : Request := .reject ⟨1⟩ none engineer 3 true

theorem approved_final_backed_linked :
    (run (next plainDriver) initial [createLinked, deliverSeven, approveLinked]).isSome ∧
      ∀ s s', run (next plainDriver) initial [createLinked, deliverSeven, approveLinked] = some s →
        run (next plainDriver) s [rejectLinked, deliverSeven] = some s' → ApprovedFinal s s' ∧ BackedByEvidence s := by
  refine ⟨rfl, fun s s' => approved_final_backed plainDriver _ [rejectLinked, deliverSeven] s s' ?_⟩
  rintro n t u ⟨d, hd, -, ht⟩ ⟨e, he, -, hu⟩
  have hdeliveries : [createLinked, deliverSeven, approveLinked].filterMap Request.delivery? =
      [⟨.int 7, .int 1, .arr []⟩] := rfl
  rw [hdeliveries, List.mem_singleton] at hd he
  subst hd he
  cases ht
  cases hu
  rfl

end Embedai.TaskService
