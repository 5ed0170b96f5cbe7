import Embedai.ExportResolution
import Embedai.TaskTransitions

namespace Embedai.TaskService

open ExportWorker TransitionSystems

structure Tables where
  projects : List Uuid
  users : List Uuid
  datasets : OrderedDict Uuid DatasetService.Dataset
  datasetVersions : OrderedDict Uuid DatasetService.DatasetVersion
  episodes : OrderedDict Uuid DatasetService.Episode

def AnnotationTask.ForeignKeys (tables : Tables) (task : AnnotationTask) : Prop :=
  task.projectId ∈ tables.projects ∧ (∀ id ∈ task.datasetVersionId, id ∈ tables.datasetVersions.keys) ∧
    (∀ id ∈ task.episodeId, id ∈ tables.episodes.keys) ∧ (∀ id ∈ task.assignedTo, id ∈ tables.users) ∧
    ∀ id ∈ task.createdBy, id ∈ tables.users

instance (tables : Tables) (task : AnnotationTask) : Decidable (task.ForeignKeys tables) :=
  inferInstanceAs (Decidable (_ ∧ _ ∧ _ ∧ _ ∧ _))

def Annotation.ForeignKeys (tables : Tables) (s : State) (row : Annotation) : Prop :=
  row.taskId ∈ s.tasks.keys ∧ row.episodeId ∈ tables.episodes.keys ∧ row.annotatorId ∈ tables.users

instance (tables : Tables) (s : State) (row : Annotation) : Decidable (row.ForeignKeys tables s) :=
  inferInstanceAs (Decidable (_ ∧ _ ∧ _))

def ForeignKeys (tables : Tables) (s : State) : Prop :=
  (∀ task ∈ s.tasks.values, task.ForeignKeys tables) ∧ ∀ row ∈ s.annotations.values, row.ForeignKeys tables s

instance (tables : Tables) (s : State) : Decidable (ForeignKeys tables s) := inferInstanceAs (Decidable (_ ∧ _))

/-- The database refuses a commit that breaks a foreign key, and the request then changes nothing. -/
def nextUnderKeys (driver : Driver) (tables : Tables) (s : State) (r : Request) : Option State :=
  if ForeignKeys tables (serve driver s r) then next driver s r else some s

/-- The row as the export worker reads it; the webhook leaves the other columns at their defaults. -/
def Annotation.exported (row : Annotation) : DatasetService.Annotation :=
  { episodeId := row.episodeId
    timeStart := none
    timeEnd := none
    labels := row.labels
    version := 1
    status := row.status }

def exportDatabase (tables : Tables) (s : State) : DatasetService.Database :=
  { datasets := tables.datasets
    episodes := tables.episodes
    annotations := s.annotations.mapValues Annotation.exported
    versions := tables.datasetVersions }

def ReachesExport (later : Tables) (s : State) (refs : List DatasetService.EpisodeRefIn) (episodeId : Uuid)
    (lsAnnotationId : Option ℤ) : Prop :=
  ∃ id row, s.annotations.get? id = some row ∧ row.labelStudioAnnotationId = lsAnnotationId ∧
    ∃ samples sample, resolveEpisodeRefs (exportDatabase later s) refs = some samples ∧ sample ∈ samples ∧
      Uuid.parse sample.episodeId = some episodeId ∧ annotationJson id row.exported ∈ sample.annotations

def Request.Creates (taskId episodeId : Uuid) (lsTaskId : ℤ) : Request → Prop
  | .create body _ newId _ flush linked commits =>
    newId = taskId ∧ body.episodeId.bind Uuid.parse = some episodeId ∧ flush = .accepted ∧ linked = some lsTaskId ∧
      commits = true
  | _ => False

def Request.Assigns (taskId : Uuid) : Request → Prop
  | .assign id _ _ _ commits => id = taskId ∧ commits = true
  | _ => False

def Request.Delivers (driver : Driver) (lsTaskId : ℤ) (lsAnnotationId : Option ℤ) : Request → Prop
  | .webhook payload _ _ commits =>
    (∃ d, delivery payload = .ok (some d) ∧ sqlInteger driver.bind d.lsTaskId = .ok (some lsTaskId) ∧
      sqlInteger driver.bind d.lsAnnotationId = .ok lsAnnotationId) ∧ commits = true
  | _ => False

def Request.Approves (taskId : Uuid) : Request → Prop
  | .approve id _ _ commits _ => id = taskId ∧ commits = true
  | _ => False

def Request.OnOtherTask (driver : Driver) (taskId : Uuid) (lsTaskId : ℤ) : Request → Prop
  | .create _ _ newId _ _ _ _ => newId ≠ taskId
  | .webhook payload _ _ _ =>
    ∀ d, delivery payload = .ok (some d) → sqlInteger driver.bind d.lsTaskId ≠ .ok (some lsTaskId)
  | r => ∀ id op, r.operation? = some (id, op) → id ≠ taskId

def Annotates (driver : Driver) (taskId episodeId : Uuid) (lsTaskId : ℤ) (lsAnnotationId : Option ℤ)
    (requests : List Request) : Prop :=
  ∃ before create r₁ assign r₂ deliver r₃ approve after,
    requests = before ++ create :: r₁ ++ assign :: r₂ ++ deliver :: r₃ ++ approve :: after ∧
    create.Creates taskId episodeId lsTaskId ∧ assign.Assigns taskId ∧
    deliver.Delivers driver lsTaskId lsAnnotationId ∧ approve.Approves taskId ∧
    ∀ r ∈ before ++ r₁ ++ r₂ ++ r₃ ++ after, r.OnOtherTask driver taskId lsTaskId

structure Misplaced (s : State) : Prop where
  creators : ∀ id task, s.tasks.get? id = some task → task.createdBy.isSome
  rows : ∀ id row, s.annotations.get? id = some row → row.status = "submitted" ∧
    ∃ task, s.tasks.get? row.taskId = some task ∧ task.createdBy = some row.episodeId

theorem step_of_nextUnderKeys {driver : Driver} {tables : Tables} {s s' : State} {r : Request}
    (h : nextUnderKeys driver tables s r = some s') : Step driver s r s' := by
  unfold nextUnderKeys at h
  split_ifs at h
  · exact step_of_next h
  · cases h
    exact .unchanged rfl rfl

theorem foreignKeys_run {driver : Driver} {tables : Tables} {requests : List Request} {s : State}
    (h : run (nextUnderKeys driver tables) initial requests = some s) : ForeignKeys tables s := by
  apply invariant_run (ForeignKeys tables) _ _ h
  · intro s r t hs hn
    unfold nextUnderKeys at hn
    split_ifs at hn with hkeys
    · cases hn
      exact hkeys
    · cases hn
      exact hs
  · exact ⟨fun _ htask => (by cases htask), fun _ hrow => (by cases hrow)⟩

theorem creators_step {driver : Driver} {tables : Tables} {s s' : State} {r : Request}
    (hs : ∀ id task, s.tasks.get? id = some task → task.createdBy.isSome)
    (h : nextUnderKeys driver tables s r = some s') :
    ∀ id task, s'.tasks.get? id = some task → task.createdBy.isSome := by
  unfold nextUnderKeys at h
  split_ifs at h
  · cases h
    exact createdBy_serve hs
  · cases h
    exact hs

theorem rows_kept {driver : Driver} {s s' : State} {r : Request} {row : Annotation} (h : Step driver s r s')
    (hrow : ∃ task, s.tasks.get? row.taskId = some task ∧ task.createdBy = some row.episodeId) :
    ∃ task, s'.tasks.get? row.taskId = some task ∧ task.createdBy = some row.episodeId := by
  obtain ⟨task, ht, hcreator⟩ := hrow
  obtain ⟨task', ht', hchange⟩ := task_step h ht
  exact ⟨task', ht', (createdBy_taskChange hchange).trans hcreator⟩

theorem newAnnotation_misplaced {taskId : Uuid} {task : AnnotationTask} {n : Option ℤ} {labels : Json}
    {now : Timestamp} {row : Annotation} (h : newAnnotation taskId task n labels now = .ok row)
    (hcreator : task.createdBy.isSome) :
    row.taskId = taskId ∧ row.status = "submitted" ∧ task.createdBy = some row.episodeId := by
  obtain ⟨userId, huser⟩ := Option.isSome_iff_exists.mp hcreator
  unfold newAnnotation at h
  split at h
  · cases h
  · cases h
    refine ⟨rfl, rfl, ?_⟩
    rw [huser, Option.getD_some]

theorem misplaced_step {driver : Driver} {tables : Tables} {s s' : State} {r : Request} (hs : Misplaced s)
    (h : nextUnderKeys driver tables s r = some s') : Misplaced s' := by
  have hstep := step_of_nextUnderKeys h
  refine ⟨creators_step hs.creators h, ?_⟩
  intro id row hrow
  have hkept : ∀ old, s.annotations.get? id = some old → old.status = "submitted" ∧
      ∃ task, s'.tasks.get? old.taskId = some task ∧ task.createdBy = some old.episodeId := by
    intro old hold
    obtain ⟨hstatus, hcreator⟩ := hs.rows id old hold
    exact ⟨hstatus, rows_kept hstep hcreator⟩
  cases hstep with
  | unchanged htasks hann => exact hkept row (hann ▸ hrow)
  | created hnew hstatus htasks hann => exact hkept row (hann ▸ hrow)
  | moved hr ht hedge htasks hann => exact hkept row (hann ▸ hrow)
  | @inserted payload newId now commits s' d t n taskId found new hd hlst hn htask hnone hnewRow hnew htasks hann =>
    rw [hann, OrderedDict.get?_append] at hrow
    split_ifs at hrow
    · cases hrow
      have hfound := (mem_tasksOf.mp (htask ▸ List.mem_singleton_self _)).1
      obtain ⟨htaskId, hstatus, hcreator⟩ := newAnnotation_misplaced hnewRow (hs.creators taskId found hfound)
      refine ⟨hstatus, advanceTask now found, ?_, ?_⟩
      · rw [htaskId, htasks, OrderedDict.get?_set, if_pos rfl]
      · rw [← hcreator]
        exact createdBy_taskChange (.delivered rfl : TaskChange (.webhook payload newId now commits) taskId found _)
    · exact hkept row hrow
  | @updated payload newId now commits s' d t n taskId found aid old hd hlst hn htask hone htasks hann =>
    rw [hann, OrderedDict.get?_set] at hrow
    split_ifs at hrow with hid
    · cases hrow
      subst hid
      have hold := (mem_annotationsOf.mp (hone ▸ List.mem_singleton_self _)).1
      exact ⟨rfl, (hkept old hold).2⟩
    · exact hkept row hrow

theorem misplaced_run {driver : Driver} {tables : Tables} {requests : List Request} {s : State}
    (h : run (nextUnderKeys driver tables) initial requests = some s) : Misplaced s := by
  apply invariant_run Misplaced _ _ h
  · exact fun s r t hs hn => misplaced_step hs hn
  · exact ⟨fun _ _ htask => (by cases htask), fun _ _ hrow => (by cases hrow)⟩

theorem not_reachesExport {s : State} (hs : Misplaced s) (later : Tables) (refs : List DatasetService.EpisodeRefIn)
    (episodeId : Uuid) (n : Option ℤ) : ¬ ReachesExport later s refs episodeId n := by
  rintro ⟨_, _, -, -, samples, sample, hresolve, hsample, -, hmem⟩
  obtain ⟨id, anno, hanno, hstatus, -⟩ := annotations_of_resolve hresolve hsample hmem
  rw [exportDatabase, OrderedDict.get?_mapValues] at hanno
  obtain ⟨row, hrow, rfl⟩ := Option.map_eq_some_iff.mp hanno
  have hsubmitted : row.status = "submitted" := (hs.rows id row hrow).1
  have hexported : row.exported.status = row.status := rfl
  rw [hexported, hsubmitted] at hstatus
  exact absurd hstatus (by decide)

theorem annotated_never_exported (driver : Driver) (tables later : Tables) (taskId episodeId : Uuid)
    (lsTaskId : ℤ) (lsAnnotationId : Option ℤ) (requests : List Request) (s : State)
    (refs : List DatasetService.EpisodeRefIn) :
    Annotates driver taskId episodeId lsTaskId lsAnnotationId requests →
    run (nextUnderKeys driver tables) initial requests = some s →
    ¬ ReachesExport later s refs episodeId lsAnnotationId ∧
      ∀ id row, s.annotations.get? id = some row →
        row.status = "submitted" ∧ row.episodeId ∈ tables.users ∧ row.episodeId ∈ tables.episodes.keys := by
  intro _ h
  have hs := misplaced_run h
  obtain ⟨htaskKeys, hrowKeys⟩ := foreignKeys_run h
  refine ⟨not_reachesExport hs later refs episodeId lsAnnotationId, ?_⟩
  intro id row hrow
  obtain ⟨hstatus, task, htask, hcreator⟩ := hs.rows id row hrow
  have htask' := htaskKeys task (OrderedDict.mem_values.mpr ⟨_, htask⟩)
  have hrow' := hrowKeys row (OrderedDict.mem_values.mpr ⟨id, hrow⟩)
  exact ⟨hstatus, htask'.2.2.2.2 _ hcreator, hrow'.2.1⟩

def oneEpisodeTables : Tables :=
  { projects := [⟨0xa1⟩]
    users := [⟨0xe1⟩, ⟨5⟩]
    datasets := OrderedDict.empty
    datasetVersions := OrderedDict.empty
    episodes := OrderedDict.empty.append ⟨10⟩ ⟨⟨0xa1⟩, some 5, some "episodes/ten/run.mcap"⟩ ten_not_mem_keys }

def createForEpisode : Request :=
  .create ⟨some "00000000-0000-0000-0000-00000000000a", "video_annotation", none, none, [], none⟩ engineer ⟨1⟩ 0
    .accepted (some 7) true

def assignToFive : Request := .assign ⟨1⟩ ⟨5⟩ engineer 1 true

def annotating : List Request := [createForEpisode, assignToFive, deliverSeven, .approve ⟨1⟩ engineer 2 true true]

theorem annotates_annotating : Annotates plainDriver ⟨1⟩ ⟨10⟩ 7 (some 1) annotating := by
  refine ⟨[], createForEpisode, [], assignToFive, [], deliverSeven, [], _, [], rfl, ?_, ?_, ?_, ?_, ?_⟩
  · exact ⟨rfl, by decide +kernel, rfl, rfl, rfl⟩
  · exact ⟨rfl, rfl⟩
  · exact ⟨⟨_, rfl, rfl, rfl⟩, rfl⟩
  · exact ⟨rfl, rfl⟩
  · intro r hr
    simp only [List.append_nil, List.not_mem_nil] at hr

theorem annotated_never_exported_oneEpisode :
    (run (nextUnderKeys plainDriver oneEpisodeTables) initial annotating).isSome ∧
      ∀ s, run (nextUnderKeys plainDriver oneEpisodeTables) initial annotating = some s → ∀ refs,
        ¬ ReachesExport oneEpisodeTables s refs ⟨10⟩ (some 1) ∧
          ∀ id row, s.annotations.get? id = some row → row.status = "submitted" ∧
            row.episodeId ∈ oneEpisodeTables.users ∧ row.episodeId ∈ oneEpisodeTables.episodes.keys := by
  refine ⟨by decide +kernel, fun s h refs => ?_⟩
  exact annotated_never_exported plainDriver oneEpisodeTables oneEpisodeTables ⟨1⟩ ⟨10⟩ 7 (some 1) annotating s refs
    annotates_annotating h

theorem annotation_misses_export :
    ¬ ∀ (driver : Driver) (tables later : Tables) (taskId episodeId : Uuid) (lsTaskId : ℤ)
      (lsAnnotationId : Option ℤ) (requests : List Request) (s : State) (refs : List DatasetService.EpisodeRefIn),
      Annotates driver taskId episodeId lsTaskId lsAnnotationId requests →
      run (nextUnderKeys driver tables) initial requests = some s → episodeId ∈ later.episodes.keys →
      (∃ ref ∈ refs, Uuid.parse ref.episodeId = some episodeId) →
      ReachesExport later s refs episodeId lsAnnotationId := by
  intro hall
  have hsome : (run (nextUnderKeys plainDriver oneEpisodeTables) initial annotating).isSome := by decide +kernel
  obtain ⟨s, h⟩ := Option.isSome_iff_exists.mp hsome
  have hreaches := hall plainDriver oneEpisodeTables oneEpisodeTables ⟨1⟩ ⟨10⟩ 7 (some 1) annotating s
    [⟨"00000000-0000-0000-0000-00000000000a", none, none⟩] annotates_annotating h (List.mem_singleton_self _)
    ⟨_, List.mem_singleton_self _, by decide +kernel⟩
  exact not_reachesExport (misplaced_run h) _ _ _ _ hreaches

end Embedai.TaskService
