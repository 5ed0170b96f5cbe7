import Embedai.TaskConcurrency
import Embedai.TaskServiceSteps

/-!
Webhook deliveries that run at the same time. Each looks up its task, looks up its annotation, decides between an
insert and an update in its session, and commits; nothing but the primary key stands behind the insert.
-/

namespace Embedai.WebhookConcurrency

open Handlers (except_bind_eq_ok)
open TransitionSystems TaskService
open TaskConcurrency (updateRow)

inductive Pending
  | insert (id : Uuid) (row : Annotation)
  | update (id : Uuid) (loaded changed : Annotation)

inductive Stage
  | received
  | taskFound (taskId : Uuid) (task : AnnotationTask)
  | annotationFound (taskId : Uuid) (task : AnnotationTask) (lsAnnotationId : Option ℤ)
      (existing : Option (Uuid × Annotation))
  | written (taskId : Uuid) (task : AnnotationTask) (now : Timestamp) (pending : Pending)
  | answered (response : Json)
  | failed (e : HttpError)

structure Running where
  delivery : Delivery
  stage : Stage

structure State where
  db : TaskService.State
  running : ℕ → Option Running
  nextDelivery : ℕ

def start (db : TaskService.State) : State :=
  { db := db
    running := fun _ => none
    nextDelivery := 0 }

def State.setStage (s : State) (i : ℕ) (p : Running) (stage : Stage) : State :=
  { s with running := Function.update s.running i (some { p with stage := stage }) }

def receive (s : State) (d : Delivery) : State :=
  { s with
    running := Function.update s.running s.nextDelivery (some ⟨d, .received⟩)
    nextDelivery := s.nextDelivery + 1 }

def taskLookup (bind : Json → Option ℤ) (db : TaskService.State) (d : Delivery) :
    Except HttpError (Option (Uuid × AnnotationTask)) := do
  let lsTaskId ← sqlInteger bind d.lsTaskId
  scalarOneOrNone (tasksOf db lsTaskId)

def annotationLookup (bind : Json → Option ℤ) (db : TaskService.State) (d : Delivery) :
    Except HttpError (Option ℤ × Option (Uuid × Annotation)) := do
  let lsAnnotationId ← sqlInteger bind d.lsAnnotationId
  let existing ← scalarOneOrNone (annotationsOf db lsAnnotationId)
  return (lsAnnotationId, existing)

def pendingWrite (taskId : Uuid) (task : AnnotationTask) (lsAnnotationId : Option ℤ)
    (existing : Option (Uuid × Annotation)) (labels : Json) (newId : Uuid) (now : Timestamp) :
    Except HttpError Pending :=
  match existing with
  | some (id, row) => .ok (.update id row (changedAnnotationRow row lsAnnotationId labels now))
  | none => do
    let row ← newAnnotation taskId task lsAnnotationId labels now
    return .insert newId row

/-- The columns that differ from what was read are written; `same` is the comparison of JSON columns. -/
def updateLabels (same : Json → Json → Bool) (loaded changed found : Annotation) : Annotation :=
  { found with
    labels := if same loaded.labels changed.labels then found.labels else changed.labels
    labelStudioAnnotationId :=
      if changed.labelStudioAnnotationId = loaded.labelStudioAnnotationId then found.labelStudioAnnotationId
      else changed.labelStudioAnnotationId
    status := if changed.status = loaded.status then found.status else changed.status
    submittedAt := if changed.submittedAt = loaded.submittedAt then found.submittedAt else changed.submittedAt }

theorem updateLabels_loaded (same : Json → Json → Bool) (row : Annotation) (n : Option ℤ) (labels : Json)
    (now : Timestamp) :
    updateLabels same row (changedAnnotationRow row n labels now) row = updatedAnnotationRow same row n labels now := by
  unfold updateLabels updatedAnnotationRow
  congr 1 <;> split_ifs with h <;> first | rfl | exact h.symm

/-- No result stands for a primary key that is taken. -/
def writeRow (same : Json → Json → Bool) (annotations : OrderedDict Uuid Annotation) :
    Pending → Option (OrderedDict Uuid Annotation)
  | .insert id row => if h : id ∈ annotations.keys then none else some (annotations.append id row h)
  | .update id loaded changed => some (annotations.modify id (updateLabels same loaded changed))

def okAnswer (taskId : Uuid) : Json := .obj [("status", .str "ok"), ("task_id", .str taskId.text)]

def lookUpTask (bind : Json → Option ℤ) (s : State) (i : ℕ) : Option State :=
  (s.running i).bind fun p =>
    match p.stage with
    | .received =>
      match taskLookup bind s.db p.delivery with
      | .error e => some (s.setStage i p (.failed e))
      | .ok none => some (s.setStage i p (.answered unknownTask))
      | .ok (some (taskId, task)) => some (s.setStage i p (.taskFound taskId task))
    | _ => none

def lookUpExisting (bind : Json → Option ℤ) (s : State) (i : ℕ) : Option State :=
  (s.running i).bind fun p =>
    match p.stage with
    | .taskFound taskId task =>
      match annotationLookup bind s.db p.delivery with
      | .error e => some (s.setStage i p (.failed e))
      | .ok (n, existing) => some (s.setStage i p (.annotationFound taskId task n existing))
    | _ => none

def insertOrUpdate (s : State) (i : ℕ) (newId : Uuid) (now : Timestamp) : Option State :=
  (s.running i).bind fun p =>
    match p.stage with
    | .annotationFound taskId task n existing =>
      match pendingWrite taskId task n existing p.delivery.resultLabels newId now with
      | .error e => some (s.setStage i p (.failed e))
      | .ok pending => some (s.setStage i p (.written taskId task now pending))
    | _ => none

def commit (same : Json → Json → Bool) (s : State) (i : ℕ) : Option State :=
  (s.running i).bind fun p =>
    match p.stage with
    | .written taskId task now pending =>
      match writeRow same s.db.annotations pending with
      | none => some (s.setStage i p (.failed internalError))
      | some annotations =>
        some { s.setStage i p (.answered (okAnswer taskId)) with
          db := { s.db with
            tasks := s.db.tasks.modify taskId (updateRow task (advanceTask now task))
            annotations := annotations } }
    | _ => none

inductive Action
  | receive (d : Delivery)
  | lookUpTask (i : ℕ)
  | lookUpExisting (i : ℕ)
  | insertOrUpdate (i : ℕ) (newId : Uuid) (now : Timestamp)
  | commit (i : ℕ)

def next (bind : Json → Option ℤ) (same : Json → Json → Bool) (s : State) : Action → Option State
  | .receive d => some (receive s d)
  | .lookUpTask i => lookUpTask bind s i
  | .lookUpExisting i => lookUpExisting bind s i
  | .insertOrUpdate i newId now => insertOrUpdate s i newId now
  | .commit i => commit same s i

def OneRowEach (s : State) : Prop := ∀ n : ℤ, (annotationsOf s.db (some n)).length ≤ 1

def handling (i : ℕ) (d : Delivery) (newId : Uuid) (now : Timestamp) : List Action :=
  [.receive d, .lookUpTask i, .lookUpExisting i, .insertOrUpdate i newId now, .commit i]

def StillServed (bind : Json → Option ℤ) (same : Json → Json → Bool) (s : State) : Prop :=
  ∀ d lst n taskId task newId now, sqlInteger bind d.lsTaskId = .ok lst → tasksOf s.db lst = [(taskId, task)] →
    sqlInteger bind d.lsAnnotationId = .ok (some n) → (task.assignedTo.or task.createdBy).isSome →
    newId ∉ s.db.annotations.keys →
      ∃ t p, run (next bind same) s (handling s.nextDelivery d newId now) = some t ∧
        t.running s.nextDelivery = some p ∧ p.stage = .answered (okAnswer taskId)

def InsertsSecond (s : State) : Action → Prop
  | .commit i => ∃ p taskId task now newId row n, s.running i = some p ∧
      p.stage = .written taskId task now (.insert newId row) ∧ newId ∉ s.db.annotations.keys ∧
      row.labelStudioAnnotationId = some n ∧ annotationsOf s.db (some n) ≠ []
  | _ => False

def Stage.SameId : Stage → Prop
  | .annotationFound _ _ n (some (_, row)) => row.labelStudioAnnotationId = n
  | .written _ _ _ (.update _ loaded changed) => changed.labelStudioAnnotationId = loaded.labelStudioAnnotationId
  | _ => True

def SameIds (s : State) : Prop := ∀ i p, s.running i = some p → p.stage.SameId

variable {bind : Json → Option ℤ} {same : Json → Json → Bool} {s s' : State} {a : Action}

theorem next_cases (h : next bind same s a = some s') :
    s'.db = s.db ∧ (∀ i p taskId task now pending, a = .commit i → s.running i = some p →
        p.stage = .written taskId task now pending → writeRow same s.db.annotations pending = none) ∨
      ∃ i p taskId task now pending annotations, a = .commit i ∧ s.running i = some p ∧
        p.stage = .written taskId task now pending ∧
        writeRow same s.db.annotations pending = some annotations ∧ s'.db.annotations = annotations := by
  cases a with
  | receive d =>
    cases h
    exact Or.inl ⟨rfl, fun _ _ _ _ _ _ h => by cases h⟩
  | lookUpTask i =>
    obtain ⟨p, hp, h⟩ := Option.bind_eq_some_iff.mp h
    split at h
    · split at h
      all_goals
        cases h
        exact Or.inl ⟨rfl, fun _ _ _ _ _ _ h => by cases h⟩
    · cases h
  | lookUpExisting i =>
    obtain ⟨p, hp, h⟩ := Option.bind_eq_some_iff.mp h
    split at h
    · split at h
      all_goals
        cases h
        exact Or.inl ⟨rfl, fun _ _ _ _ _ _ h => by cases h⟩
    · cases h
  | insertOrUpdate i newId now =>
    obtain ⟨p, hp, h⟩ := Option.bind_eq_some_iff.mp h
    split at h
    · split at h
      all_goals
        cases h
        exact Or.inl ⟨rfl, fun _ _ _ _ _ _ h => by cases h⟩
    · cases h
  | commit i =>
    obtain ⟨p, hp, h⟩ := Option.bind_eq_some_iff.mp h
    split at h
    · rename_i taskId task now pending hstage
      split at h
      · rename_i hrefused
        cases h
        refine Or.inl ⟨rfl, ?_⟩
        rintro j q taskId' task' now' pending' ⟨⟩ hq hq'
        rw [hp, Option.some.injEq] at hq
        rw [← hq, hstage, Stage.written.injEq] at hq'
        rw [← hq'.2.2.2]
        exact hrefused
      · rename_i annotations hwritten
        cases h
        exact Or.inr ⟨i, p, taskId, task, now, pending, annotations, rfl, hp, hstage, hwritten, rfl⟩
    · cases h

theorem sameIds_setStage {i : ℕ} {p : Running} {stage : Stage} (hs : SameIds s) (hstage : stage.SameId) :
    SameIds (s.setStage i p stage) := by
  intro j q hq
  simp only [State.setStage, Function.update_apply] at hq
  split_ifs at hq
  · cases hq
    exact hstage
  · exact hs j q hq

theorem annotationLookup_eq_ok {db : TaskService.State} {d : Delivery} {n : Option ℤ}
    {existing : Option (Uuid × Annotation)} :
    annotationLookup bind db d = .ok (n, existing) ↔
      sqlInteger bind d.lsAnnotationId = .ok n ∧ scalarOneOrNone (annotationsOf db n) = .ok existing := by
  simp only [annotationLookup, except_bind_eq_ok]
  constructor
  · rintro ⟨k, hk, found, hfound, h⟩
    cases h
    exact ⟨hk, hfound⟩
  · rintro ⟨hn, hexisting⟩
    exact ⟨n, hn, existing, hexisting, rfl⟩

theorem sameId_of_lookup {db : TaskService.State} {d : Delivery} {taskId : Uuid} {task : AnnotationTask}
    {n : Option ℤ} {existing : Option (Uuid × Annotation)} (h : annotationLookup bind db d = .ok (n, existing)) :
    (Stage.annotationFound taskId task n existing).SameId := by
  cases existing with
  | none => trivial
  | some found =>
    have hone := scalarOneOrNone_eq_some (annotationLookup_eq_ok.mp h).2
    exact (mem_annotationsOf.mp (hone ▸ List.mem_singleton_self _)).2

theorem sameId_of_pendingWrite {taskId : Uuid} {task : AnnotationTask} {n : Option ℤ}
    {existing : Option (Uuid × Annotation)} {labels : Json} {newId : Uuid} {now : Timestamp} {pending : Pending}
    (hfound : (Stage.annotationFound taskId task n existing).SameId)
    (h : pendingWrite taskId task n existing labels newId now = .ok pending) :
    (Stage.written taskId task now pending).SameId := by
  cases existing with
  | some found =>
    cases h
    exact hfound.symm
  | none =>
    obtain ⟨row, -, h⟩ := except_bind_eq_ok.mp h
    cases h
    trivial

theorem sameIds_step (hs : SameIds s) (h : next bind same s a = some s') : SameIds s' := by
  cases a with
  | receive d =>
    cases h
    intro j q hq
    simp only [receive, Function.update_apply] at hq
    split_ifs at hq
    · cases hq
      trivial
    · exact hs j q hq
  | lookUpTask i =>
    obtain ⟨p, hp, h⟩ := Option.bind_eq_some_iff.mp h
    split at h
    · split at h
      all_goals
        cases h
        exact sameIds_setStage hs trivial
    · cases h
  | lookUpExisting i =>
    obtain ⟨p, hp, h⟩ := Option.bind_eq_some_iff.mp h
    split at h
    · split at h
      · cases h
        exact sameIds_setStage hs trivial
      · rename_i hlookup
        cases h
        exact sameIds_setStage hs (sameId_of_lookup hlookup)
    · cases h
  | insertOrUpdate i newId now =>
    obtain ⟨p, hp, h⟩ := Option.bind_eq_some_iff.mp h
    split at h
    · rename_i hstage
      split at h
      · cases h
        exact sameIds_setStage hs trivial
      · rename_i pending hpending
        cases h
        exact sameIds_setStage hs (sameId_of_pendingWrite (hstage ▸ hs i p hp) hpending)
    · cases h
  | commit i =>
    obtain ⟨p, hp, h⟩ := Option.bind_eq_some_iff.mp h
    split at h
    · split at h
      all_goals
        cases h
        exact sameIds_setStage hs trivial
    · cases h

theorem oneRowEach_insert {id : Uuid} {row : Annotation} {hnew : id ∉ s.db.annotations.keys} (hs : OneRowEach s)
    (hann : s'.db.annotations = s.db.annotations.append id row hnew) :
    OneRowEach s' ↔ ∀ n, row.labelStudioAnnotationId = some n → annotationsOf s.db (some n) = [] := by
  unfold OneRowEach
  simp only [annotationsOf_append hann]
  constructor
  · intro h n hn
    have hlength := h n
    rw [if_pos hn, List.length_append, List.length_singleton] at hlength
    exact List.length_eq_zero_iff.mp (by omega)
  · intro h n
    split_ifs with hn
    · rw [h n hn]
      simp
    · rw [List.append_nil]
      exact hs n

theorem oneRowEach_update {id : Uuid} {loaded changed : Annotation} (hs : OneRowEach s)
    (hid : changed.labelStudioAnnotationId = loaded.labelStudioAnnotationId)
    (hann : s'.db.annotations = s.db.annotations.modify id (updateLabels same loaded changed)) : OneRowEach s' := by
  intro n
  have hsame : ∀ row, s.db.annotations.get? id = some row →
      (updateLabels same loaded changed row).labelStudioAnnotationId = row.labelStudioAnnotationId :=
    fun row _ => if_pos hid
  rw [annotationsOf_modify hsame hann, List.length_map]
  exact hs n

theorem oneRowEach_step (hi : SameIds s) (hs : OneRowEach s) (h : next bind same s a = some s') :
    OneRowEach s' ↔ ¬ InsertsSecond s a := by
  rcases next_cases h with ⟨hdb, hrefused⟩ | ⟨i, p, taskId, task, now, pending, annotations, rfl, hp, hstage, hw, hann⟩
  · apply iff_of_true
    · intro n
      rw [hdb]
      exact hs n
    · intro hsecond
      cases a with
      | commit i =>
        obtain ⟨p, taskId, task, now, newId, row, n, hp, hstage, hnew, -, -⟩ := hsecond
        have hnone := hrefused i p taskId task now _ rfl hp hstage
        rw [writeRow, dif_neg hnew] at hnone
        cases hnone
      | receive d => exact hsecond
      | lookUpTask i => exact hsecond
      | lookUpExisting i => exact hsecond
      | insertOrUpdate i newId now => exact hsecond
  · cases pending with
    | insert newId row =>
      rw [writeRow] at hw
      split_ifs at hw with hnew
      cases hw
      rw [oneRowEach_insert hs hann]
      constructor
      · rintro hempty ⟨q, taskId', task', now', newId', row', n, hq, hstage', -, hn, hne⟩
        rw [hp, Option.some.injEq] at hq
        rw [← hq, hstage, Stage.written.injEq, Pending.insert.injEq] at hstage'
        exact hne (hempty n (hstage'.2.2.2.2 ▸ hn))
      · intro hno n hn
        by_contra hne
        exact hno ⟨p, taskId, task, now, newId, row, n, hp, hstage, hnew, hn, hne⟩
    | update id loaded changed =>
      cases hw
      have hid : (Stage.written taskId task now (.update id loaded changed)).SameId := hstage ▸ hi i p hp
      apply iff_of_true (oneRowEach_update hs hid hann)
      rintro ⟨q, taskId', task', now', newId', row', n, hq, hstage', -, -, -⟩
      rw [hp, Option.some.injEq] at hq
      rw [← hq, hstage] at hstage'
      cases hstage'

theorem scalarOneOrNone_of_length {α : Type} {l : List α} (h : l.length ≤ 1) :
    ∃ existing, scalarOneOrNone l = .ok existing := by
  match l with
  | [] => exact ⟨none, rfl⟩
  | [row] => exact ⟨some row, rfl⟩
  | _ :: _ :: _ =>
    simp only [List.length_cons] at h
    omega

theorem running_setStage (s : State) (i : ℕ) (p : Running) (stage : Stage) :
    (s.setStage i p stage).running i = some { p with stage := stage } := Function.update_self ..

theorem lookUpTask_eq {i : ℕ} {p : Running} {taskId : Uuid} {task : AnnotationTask} (hp : s.running i = some p)
    (hstage : p.stage = .received) (h : taskLookup bind s.db p.delivery = .ok (some (taskId, task))) :
    lookUpTask bind s i = some (s.setStage i p (.taskFound taskId task)) := by
  simp only [lookUpTask, hp, Option.bind_some, hstage, h]

theorem lookUpExisting_eq {i : ℕ} {p : Running} {taskId : Uuid} {task : AnnotationTask} {n : Option ℤ}
    {existing : Option (Uuid × Annotation)} (hp : s.running i = some p) (hstage : p.stage = .taskFound taskId task)
    (h : annotationLookup bind s.db p.delivery = .ok (n, existing)) :
    lookUpExisting bind s i = some (s.setStage i p (.annotationFound taskId task n existing)) := by
  simp only [lookUpExisting, hp, Option.bind_some, hstage, h]

theorem insertOrUpdate_eq {i : ℕ} {p : Running} {taskId : Uuid} {task : AnnotationTask} {n : Option ℤ}
    {existing : Option (Uuid × Annotation)} {newId : Uuid} {now : Timestamp} {pending : Pending}
    (hp : s.running i = some p) (hstage : p.stage = .annotationFound taskId task n existing)
    (h : pendingWrite taskId task n existing p.delivery.resultLabels newId now = .ok pending) :
    insertOrUpdate s i newId now = some (s.setStage i p (.written taskId task now pending)) := by
  simp only [insertOrUpdate, hp, Option.bind_some, hstage, h]

theorem commit_answers {i : ℕ} {p : Running} {taskId : Uuid} {task : AnnotationTask} {now : Timestamp}
    {pending : Pending} {annotations : OrderedDict Uuid Annotation} (hp : s.running i = some p)
    (hstage : p.stage = .written taskId task now pending)
    (h : writeRow same s.db.annotations pending = some annotations) :
    ∃ t q, commit same s i = some t ∧ t.running i = some q ∧ q.stage = .answered (okAnswer taskId) := by
  simp only [commit, hp, Option.bind_some, hstage, h]
  exact ⟨_, _, rfl, running_setStage .., rfl⟩

theorem pendingWrite_writes {task : AnnotationTask} {annotations : OrderedDict Uuid Annotation} {newId : Uuid}
    (same : Json → Json → Bool) (taskId : Uuid) (n : Option ℤ) (existing : Option (Uuid × Annotation)) (labels : Json)
    (now : Timestamp) (hannotator : (task.assignedTo.or task.createdBy).isSome) (hnew : newId ∉ annotations.keys) :
    ∃ pending, pendingWrite taskId task n existing labels newId now = .ok pending ∧
      ∃ written, writeRow same annotations pending = some written := by
  cases existing with
  | some found => exact ⟨_, rfl, _, rfl⟩
  | none =>
    obtain ⟨row, hrow, -⟩ := newAnnotation_of_isSome taskId n labels now hannotator
    exact ⟨.insert newId row, except_bind_eq_ok.mpr ⟨row, hrow, rfl⟩, _, dif_neg hnew⟩

theorem stillServed (bind : Json → Option ℤ) (same : Json → Json → Bool) (hs : OneRowEach s) :
    StillServed bind same s := by
  intro d lst n taskId task newId now ht htask hn hannotator hnew
  have htaskLookup : taskLookup bind s.db d = .ok (some (taskId, task)) :=
    except_bind_eq_ok.mpr ⟨lst, ht, by rw [htask, scalarOneOrNone]⟩
  obtain ⟨existing, hexisting⟩ := scalarOneOrNone_of_length (hs n)
  have hlookup := annotationLookup_eq_ok.mpr ⟨hn, hexisting⟩
  obtain ⟨pending, hpending, written, hwritten⟩ :=
    pendingWrite_writes same taskId (some n) existing d.resultLabels now hannotator hnew
  let i := s.nextDelivery
  let p : Running := ⟨d, .received⟩
  let p₁ : Running := ⟨d, .taskFound taskId task⟩
  let p₂ : Running := ⟨d, .annotationFound taskId task (some n) existing⟩
  let s₁ := (receive s d).setStage i p p₁.stage
  let s₂ := s₁.setStage i p₁ p₂.stage
  have hreceived : (receive s d).running i = some p := Function.update_self ..
  have hfound : lookUpTask bind (receive s d) i = some s₁ := lookUpTask_eq hreceived rfl htaskLookup
  have hfound' : lookUpExisting bind s₁ i = some s₂ := lookUpExisting_eq (running_setStage ..) rfl hlookup
  have hdecided : insertOrUpdate s₂ i newId now = some (s₂.setStage i p₂ (.written taskId task now pending)) :=
    insertOrUpdate_eq (running_setStage ..) rfl hpending
  obtain ⟨t, q, hcommit, hq, hanswer⟩ := commit_answers (running_setStage s₂ i p₂ (.written taskId task now pending))
    rfl hwritten
  refine ⟨t, q, ?_, hq, hanswer⟩
  simp only [handling, run, next, Option.bind_some]
  rw [hfound, Option.bind_some, hfound', Option.bind_some, hdecided, Option.bind_some, hcommit, Option.bind_some]

theorem one_row_iff (bind : Json → Option ℤ) (same : Json → Json → Bool) (db : TaskService.State)
    (actions : List Action) (s : State) (hdb : OneRowEach (start db))
    (h : run (next bind same) (start db) actions = some s) :
    (∀ before t, before <+: actions → run (next bind same) (start db) before = some t →
      OneRowEach t ∧ StillServed bind same t) ↔
      Along (next bind same) (fun t a => ¬ InsertsSecond t a) (start db) actions := by
  have hstart : SameIds (start db) := fun _ _ h => by cases h
  have hsame : ∀ before t, run (next bind same) (start db) before = some t → SameIds t :=
    fun _ _ ht => invariant_run SameIds (fun _ _ _ => sameIds_step) hstart ht
  rw [← reached_iff_along (P := fun t => SameIds t ∧ OneRowEach t) (p := fun _ => True) _ ⟨hstart, hdb⟩
    (fun _ _ => trivial) h]
  · constructor
    · exact fun hserved before t hbefore ht => ⟨hsame before t ht, (hserved before t hbefore ht).1⟩
    · intro hone before t hbefore ht
      exact ⟨(hone before t hbefore ht).2, stillServed bind same (hone before t hbefore ht).2⟩
  · rintro t a v ⟨hids, hone⟩ - hv
    rw [← oneRowEach_step hids hone hv]
    exact ⟨fun h => h.2, fun h => ⟨sameIds_step hids hv, h⟩⟩

def neverSame : Json → Json → Bool := fun _ _ => false

def seven : Delivery := ⟨.int 7, .int 1, .arr []⟩

def simultaneous : List Action :=
  [.receive seven, .receive seven, .lookUpTask 0, .lookUpTask 1, .lookUpExisting 0, .lookUpExisting 1,
    .insertOrUpdate 0 ⟨21⟩ 1, .insertOrUpdate 1 ⟨22⟩ 1, .commit 0, .commit 1]

theorem oneRowEach_oneTask : OneRowEach (start TaskConcurrency.oneTask) := by
  have hempty : TaskConcurrency.oneTask.annotations.items = [] := List.isEmpty_iff.mp (by decide +kernel)
  intro n
  change (annotationsOf TaskConcurrency.oneTask (some n)).length ≤ 1
  rw [annotationsOf, hempty]
  exact Nat.zero_le 1

theorem one_row_iff_simultaneous :
    (run (next bindInt neverSame) (start TaskConcurrency.oneTask) simultaneous).isSome ∧
      ∀ s, run (next bindInt neverSame) (start TaskConcurrency.oneTask) simultaneous = some s →
        ((∀ before t, before <+: simultaneous →
            run (next bindInt neverSame) (start TaskConcurrency.oneTask) before = some t →
            OneRowEach t ∧ StillServed bindInt neverSame t) ↔
          Along (next bindInt neverSame) (fun t a => ¬ InsertsSecond t a) (start TaskConcurrency.oneTask)
            simultaneous) :=
  ⟨by decide +kernel, fun s h => one_row_iff bindInt neverSame _ simultaneous s oneRowEach_oneTask h⟩

theorem two_rows :
    ¬ ∀ (bind : Json → Option ℤ) (same : Json → Json → Bool) (db : TaskService.State) (actions : List Action)
      (s : State), OneRowEach (start db) → run (next bind same) (start db) actions = some s →
      OneRowEach s ∧ StillServed bind same s := by
  intro hall
  have hrun : (run (next bindInt neverSame) (start TaskConcurrency.oneTask) simultaneous).any
      (fun s => (annotationsOf s.db (some 1)).length = 2) = true := by decide +kernel
  obtain ⟨s, hs, hlength⟩ := (Option.any_eq_true _ _).mp hrun
  have hone := (hall bindInt neverSame TaskConcurrency.oneTask simultaneous s oneRowEach_oneTask hs).1 1
  rw [of_decide_eq_true hlength] at hone
  exact absurd hone (by decide)

end Embedai.WebhookConcurrency
