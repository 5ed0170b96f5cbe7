import Mathlib.Data.List.Infix
import Embedai.Json
import Embedai.OrderedDict
import Embedai.Uuid

/-!
The REST handlers of the annotation tasks and the Label Studio webhook. A handler is a check of what it
has read, a change of the row, and a commit; `commits` says whether the database accepts it.
-/

namespace Embedai.TaskService

abbrev Timestamp := ℤ

inductive TaskStatus
  | created
  | assigned
  | submitted
  | approved
  | rejected
  deriving DecidableEq

def TaskStatus.text : TaskStatus → String
  | created => "created"
  | assigned => "assigned"
  | submitted => "submitted"
  | approved => "approved"
  | rejected => "rejected"

def transitions : TaskStatus → List TaskStatus
  | .created => [.assigned]
  | .assigned => [.submitted, .created]
  | .submitted => [.approved, .rejected]
  | .rejected => [.assigned, .submitted]
  | .approved => []

structure HttpError where
  status : ℕ
  detail : String
  deriving DecidableEq

def internalError : HttpError := ⟨500, "Internal Server Error"⟩

def assertTransition (current target : TaskStatus) : Except HttpError Unit :=
  if target ∈ transitions current then .ok ()
  else .error ⟨409, "Cannot transition task from '" ++ current.text ++ "' to '" ++ target.text ++ "'"⟩

inductive Quality
  | good
  | usable
  | problematic

def Quality.text : Quality → String
  | good => "优质数据"
  | usable => "可用数据"
  | problematic => "问题数据"

structure AnnotationResult where
  quality : String
  notes : Option String
  deriving DecidableEq

structure AnnotationTask where
  projectId : Uuid
  datasetVersionId : Option Uuid
  episodeId : Option Uuid
  type : String
  guidelineUrl : Option String
  requiredSkills : List String
  deadline : Option Timestamp
  status : TaskStatus
  assignedTo : Option Uuid
  labelStudioTaskId : Option ℤ
  createdBy : Option Uuid
  createdAt : Timestamp
  updatedAt : Timestamp
  annotationResult : Option AnnotationResult

structure Annotation where
  taskId : Uuid
  episodeId : Uuid
  annotatorId : Uuid
  labels : Json
  status : String
  labelStudioAnnotationId : Option ℤ
  submittedAt : Timestamp
  createdAt : Timestamp

structure State where
  tasks : OrderedDict Uuid AnnotationTask
  annotations : OrderedDict Uuid Annotation
  streamTokens : List String
  approvedEvents : List Uuid

def initial : State :=
  { tasks := OrderedDict.empty
    annotations := OrderedDict.empty
    streamTokens := []
    approvedEvents := [] }

structure CurrentUser where
  userId : String
  projectId : String
  role : Option String

structure TaskOut where
  id : String
  projectId : String
  episodeId : Option String
  datasetVersionId : Option String
  type : String
  guidelineUrl : Option String
  requiredSkills : List String
  deadline : Option Timestamp
  status : String
  assignedTo : Option String
  labelStudioTaskId : Option ℤ
  createdBy : Option String
  createdAt : Timestamp
  updatedAt : Timestamp
  annotationResult : Option AnnotationResult

def taskOut (id : Uuid) (task : AnnotationTask) : TaskOut :=
  { id := id.text
    projectId := task.projectId.text
    episodeId := task.episodeId.map Uuid.text
    datasetVersionId := task.datasetVersionId.map Uuid.text
    type := task.type
    guidelineUrl := task.guidelineUrl
    requiredSkills := task.requiredSkills
    deadline := task.deadline
    status := task.status.text
    assignedTo := task.assignedTo.map Uuid.text
    labelStudioTaskId := task.labelStudioTaskId
    createdBy := task.createdBy.map Uuid.text
    createdAt := task.createdAt
    updatedAt := task.updatedAt
    annotationResult := task.annotationResult }

def parseId (text : String) : Except HttpError Uuid :=
  match Uuid.parse text with
  | some id => .ok id
  | none => .error internalError

def requireRole (roles : List String) (user : CurrentUser) : Except HttpError Unit :=
  match user.role with
  | some role => if role ∈ roles then .ok () else .error ⟨403, "insufficient role"⟩
  | none => .error ⟨403, "insufficient role"⟩

def taskNotFound : HttpError := ⟨404, "task not found"⟩

def findTask (s : State) (taskId : Uuid) : Except HttpError AnnotationTask :=
  match s.tasks.get? taskId with
  | some task => .ok task
  | none => .error taskNotFound

def findTaskInProject (s : State) (taskId : Uuid) (user : CurrentUser) : Except HttpError AnnotationTask := do
  let projectId ← parseId user.projectId
  let task ← findTask s taskId
  if task.projectId = projectId then .ok task else .error taskNotFound

inductive TaskOperation
  | assign (userId : Uuid)
  | submit (quality : Quality) (notes : Option String)
  | approve
  | reject (comment : Option String)

def TaskOperation.target : TaskOperation → TaskStatus
  | assign _ => .assigned
  | submit _ _ => .submitted
  | approve => .approved
  | reject _ => .rejected

def TaskOperation.read (s : State) (taskId : Uuid) (user : CurrentUser) :
    TaskOperation → Except HttpError AnnotationTask
  | submit _ _ => findTask s taskId
  | _ => do
    requireRole ["engineer", "admin"] user
    findTaskInProject s taskId user

def AnnotationTask.assignee (task : AnnotationTask) : String :=
  match task.assignedTo with
  | some userId => userId.text
  | none => "None"

def TaskOperation.check (task : AnnotationTask) (user : CurrentUser) : TaskOperation → Except HttpError Unit
  | submit _ _ =>
    if user.role ≠ some "admin" ∧ user.role ≠ some "engineer" ∧ task.assignee ≠ user.userId then
      .error ⟨403, "not assigned to this task"⟩
    else assertTransition task.status .submitted
  | op => assertTransition task.status op.target

def TaskOperation.change (now : Timestamp) (task : AnnotationTask) : TaskOperation → AnnotationTask
  | assign userId => { task with assignedTo := some userId, status := .assigned, updatedAt := now }
  | submit quality notes =>
    { task with status := .submitted, annotationResult := some ⟨quality.text, notes⟩, updatedAt := now }
  | approve => { task with status := .approved, updatedAt := now }
  | reject _ => { task with status := .rejected, updatedAt := now }

def operate (s : State) (taskId : Uuid) (op : TaskOperation) (user : CurrentUser) (now : Timestamp)
    (commits : Bool) : Except HttpError TaskOut × State :=
  let checked := do
    let task ← op.read s taskId user
    op.check task user
    return task
  match checked with
  | .error e => (.error e, s)
  | .ok task =>
    if commits then
      (.ok (taskOut taskId (op.change now task)), { s with tasks := s.tasks.set taskId (op.change now task) })
    else (.error internalError, s)

def assignTask (s : State) (taskId userId : Uuid) (user : CurrentUser) (now : Timestamp) (commits : Bool) :
    Except HttpError TaskOut × State :=
  operate s taskId (.assign userId) user now commits

def submitTask (s : State) (taskId : Uuid) (quality : Quality) (notes : Option String) (user : CurrentUser)
    (now : Timestamp) (commits : Bool) : Except HttpError TaskOut × State :=
  operate s taskId (.submit quality notes) user now commits

def approveTask (s : State) (taskId : Uuid) (user : CurrentUser) (now : Timestamp) (commits publishes : Bool) :
    Except HttpError TaskOut × State :=
  match operate s taskId .approve user now commits with
  | (.ok out, s') =>
    (.ok out, if publishes then { s' with approvedEvents := s'.approvedEvents ++ [taskId] } else s')
  | (.error e, s') => (.error e, s')

def rejectTask (s : State) (taskId : Uuid) (comment : Option String) (user : CurrentUser) (now : Timestamp)
    (commits : Bool) : Except HttpError TaskOut × State :=
  operate s taskId (.reject comment) user now commits

structure CreateTaskRequest where
  episodeId : Option String
  type : String
  datasetVersionId : Option String
  guidelineUrl : Option String
  requiredSkills : List String
  deadline : Option Timestamp

def optionalId : Option String → Except HttpError (Option Uuid)
  | none => .ok none
  | some text => if text = "" then .ok none else (parseId text).map some

inductive Flush
  | accepted
  | integrityError (detail typeName : String)
  | failed

def integrityDetail (detail typeName : String) : String :=
  if "episode_id".toList <:+: detail.toList ∨ "ForeignKey".toList <:+: typeName.toList ∨
      "ForeignKeyViolation".toList <:+: detail.toList then
    "episode_id references a non-existent episode"
  else "Database integrity error"

def newTask (body : CreateTaskRequest) (user : CurrentUser) (now : Timestamp) : Except HttpError AnnotationTask := do
  let projectId ← parseId user.projectId
  let userId ← parseId user.userId
  let datasetVersionId ← optionalId body.datasetVersionId
  let episodeId ← optionalId body.episodeId
  return {
    projectId, datasetVersionId, episodeId
    type := body.type
    guidelineUrl := body.guidelineUrl
    requiredSkills := body.requiredSkills
    deadline := body.deadline
    status := .created
    assignedTo := none
    labelStudioTaskId := none
    createdBy := some userId
    createdAt := now
    updatedAt := now
    annotationResult := none }

def mintStreamToken (s : State) (episodeId : Option String) : State :=
  match episodeId with
  | none => s
  | some text => if text = "" then s else { s with streamTokens := s.streamTokens ++ [text] }

/-- `lsTaskId` is what Label Studio answers, and `none` when the integration fails. -/
def createTask (s : State) (body : CreateTaskRequest) (user : CurrentUser) (newId : Uuid) (now : Timestamp)
    (flush : Flush) (lsTaskId : Option ℤ) (commits : Bool) : Except HttpError TaskOut × State :=
  match newTask body user now with
  | .error e => (.error e, s)
  | .ok task =>
    match flush with
    | .integrityError detail typeName => (.error ⟨422, integrityDetail detail typeName⟩, s)
    | .failed => (.error internalError, s)
    | .accepted =>
      if h : newId ∈ s.tasks.keys then (.error ⟨422, "Database integrity error"⟩, s)
      else if commits then
        (.ok (taskOut newId { task with labelStudioTaskId := lsTaskId }),
          { mintStreamToken s body.episodeId with
            tasks := s.tasks.append newId { task with labelStudioTaskId := lsTaskId } h })
      else (.error internalError, mintStreamToken s body.episodeId)

def handledActions : List String := ["ANNOTATION_CREATED", "ANNOTATION_UPDATED"]

structure Delivery where
  lsTaskId : Json
  lsAnnotationId : Json
  resultLabels : Json

def missingAnnotation : HttpError := ⟨422, "missing annotation payload"⟩

def annotationData (payload : List (String × Json)) : Except HttpError Delivery :=
  match payload.lookup "annotation" with
  | none => .error missingAnnotation
  | some data =>
    if data.truthy then
      match data with
      | .obj fields =>
        match fields.lookup "task", fields.lookup "id" with
        | some task, some id => .ok ⟨task, id, (fields.lookup "result").getD (.arr [])⟩
        | _, _ => .error internalError
      | _ => .error internalError
    else .error missingAnnotation

def delivery (payload : List (String × Json)) : Except HttpError (Option Delivery) :=
  match payload.lookup "action" with
  | none => .ok none
  | some (.str action) => if action ∈ handledActions then (annotationData payload).map some else .ok none
  | some action => if action.hashable then .ok none else .error internalError

/-- What an integer column is given for a value, and when SQLAlchemy takes a new value of a JSON column for the old
one. -/
structure Driver where
  bind : Json → Option ℤ
  same : Json → Json → Bool

/-- The value compared with an integer column; `None` becomes `IS NULL`. -/
def sqlInteger (bind : Json → Option ℤ) : Json → Except HttpError (Option ℤ)
  | .null => .ok none
  | value =>
    match bind value with
    | some n => .ok (some n)
    | none => .error internalError

def scalarOneOrNone {α : Type} : List α → Except HttpError (Option α)
  | [] => .ok none
  | [row] => .ok (some row)
  | _ => .error internalError

def tasksOf (s : State) (lsTaskId : Option ℤ) : List (Uuid × AnnotationTask) :=
  s.tasks.items.filter (fun p => p.2.labelStudioTaskId = lsTaskId)

def annotationsOf (s : State) (lsAnnotationId : Option ℤ) : List (Uuid × Annotation) :=
  s.annotations.items.filter (fun p => p.2.labelStudioAnnotationId = lsAnnotationId)

def newAnnotation (taskId : Uuid) (task : AnnotationTask) (lsAnnotationId : Option ℤ) (labels : Json)
    (now : Timestamp) : Except HttpError Annotation :=
  match task.assignedTo.or task.createdBy with
  | none => .error internalError
  | some annotatorId =>
    .ok {
      taskId, annotatorId, labels
      episodeId := task.createdBy.getD taskId
      status := "submitted"
      labelStudioAnnotationId := lsAnnotationId
      submittedAt := now
      createdAt := now }

def changedAnnotationRow (row : Annotation) (lsAnnotationId : Option ℤ) (labels : Json) (now : Timestamp) :
    Annotation :=
  { row with labels := labels, labelStudioAnnotationId := lsAnnotationId, status := "submitted", submittedAt := now }

/-- A column whose value is the same as the one that was read is left out of the `UPDATE`. -/
def updatedAnnotationRow (same : Json → Json → Bool) (row : Annotation) (lsAnnotationId : Option ℤ) (labels : Json)
    (now : Timestamp) : Annotation :=
  { changedAnnotationRow row lsAnnotationId labels now with
    labels := if same row.labels labels then row.labels else labels }

def upsertAnnotation (same : Json → Json → Bool) (s : State) (taskId : Uuid) (task : AnnotationTask)
    (existing : Option (Uuid × Annotation)) (lsAnnotationId : Option ℤ) (labels : Json) (newId : Uuid)
    (now : Timestamp) : Except HttpError (OrderedDict Uuid Annotation) :=
  match existing with
  | some (id, row) => .ok (s.annotations.set id (updatedAnnotationRow same row lsAnnotationId labels now))
  | none => do
    let row ← newAnnotation taskId task lsAnnotationId labels now
    if h : newId ∈ s.annotations.keys then .error internalError else .ok (s.annotations.append newId row h)

def advanceTask (now : Timestamp) (task : AnnotationTask) : AnnotationTask :=
  if task.status = .assigned ∨ task.status = .created then
    { task with status := .submitted, updatedAt := now }
  else task

def ignoredAction (payload : List (String × Json)) : Json :=
  .obj [("status", .str "ignored"), ("action", (payload.lookup "action").getD .null)]

def unknownTask : Json := .obj [("status", .str "ignored"), ("reason", .str "unknown ls_task_id")]

def handleDelivery (driver : Driver) (s : State) (d : Delivery) (newId : Uuid) (now : Timestamp) :
    Except HttpError (Option (Uuid × State)) := do
  let lsTaskId ← sqlInteger driver.bind d.lsTaskId
  match ← scalarOneOrNone (tasksOf s lsTaskId) with
  | none => return none
  | some (taskId, task) =>
    let lsAnnotationId ← sqlInteger driver.bind d.lsAnnotationId
    let existing ← scalarOneOrNone (annotationsOf s lsAnnotationId)
    let annotations ← upsertAnnotation driver.same s taskId task existing lsAnnotationId d.resultLabels newId now
    return some (taskId, { s with
      tasks := s.tasks.set taskId (advanceTask now task)
      annotations := annotations })

def labelStudioWebhook (driver : Driver) (s : State) (payload : List (String × Json)) (newId : Uuid)
    (now : Timestamp) (commits : Bool) : Except HttpError Json × State :=
  match delivery payload with
  | .error e => (.error e, s)
  | .ok none => (.ok (ignoredAction payload), s)
  | .ok (some d) =>
    match handleDelivery driver s d newId now with
    | .error e => (.error e, s)
    | .ok none => (.ok unknownTask, s)
    | .ok (some (taskId, s')) =>
      if commits then (.ok (.obj [("status", .str "ok"), ("task_id", .str taskId.text)]), s')
      else (.error internalError, s)

/-- The requests, with the new ids, the clock readings and the outcomes of the calls they make. -/
inductive Request
  | create (body : CreateTaskRequest) (user : CurrentUser) (newId : Uuid) (now : Timestamp) (flush : Flush)
      (lsTaskId : Option ℤ) (commits : Bool)
  | assign (taskId userId : Uuid) (user : CurrentUser) (now : Timestamp) (commits : Bool)
  | submit (taskId : Uuid) (quality : Quality) (notes : Option String) (user : CurrentUser) (now : Timestamp)
      (commits : Bool)
  | approve (taskId : Uuid) (user : CurrentUser) (now : Timestamp) (commits publishes : Bool)
  | reject (taskId : Uuid) (comment : Option String) (user : CurrentUser) (now : Timestamp) (commits : Bool)
  | webhook (payload : List (String × Json)) (newId : Uuid) (now : Timestamp) (commits : Bool)

def serve (driver : Driver) (s : State) : Request → State
  | .create body user newId now flush lsTaskId commits =>
    (createTask s body user newId now flush lsTaskId commits).2
  | .assign taskId userId user now commits => (assignTask s taskId userId user now commits).2
  | .submit taskId quality notes user now commits => (submitTask s taskId quality notes user now commits).2
  | .approve taskId user now commits publishes => (approveTask s taskId user now commits publishes).2
  | .reject taskId comment user now commits => (rejectTask s taskId comment user now commits).2
  | .webhook payload newId now commits => (labelStudioWebhook driver s payload newId now commits).2

def next (driver : Driver) (s : State) (r : Request) : Option State := some (serve driver s r)

end Embedai.TaskService
