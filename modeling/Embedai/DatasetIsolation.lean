import Embedai.DatasetOperations
import Embedai.ExportQueue

/-!
What the users of one project can do through the dataset service to the rows of the others. The project of the users is
`none` when the project id of their tokens is not a UUID.
-/

namespace Embedai.DatasetIsolation

open DatasetService ExportWorker Handlers TracedHandlers TransitionSystems

structure State where
  stores : Stores
  topics : OrderedDict Uuid Uuid
  uploadSessions : OrderedDict Uuid Uuid
  annotationTasks : OrderedDict Uuid (Option Uuid)

namespace State

def db (s : State) : Database := s.stores.world.database

def jobs (s : State) : OrderedDict Uuid ExportJob := s.stores.world.jobs

def catalog (s : State) : Catalog := ⟨s.db, s.topics, s.uploadSessions, s.annotationTasks⟩

def withCatalog (s : State) (c : Catalog) : State :=
  { stores := { s.stores with world := { s.stores.world with database := c.db } }
    topics := c.topics
    uploadSessions := c.uploadSessions
    annotationTasks := c.annotationTasks }

end State

/-- `create_export_job`: the version of the request is the one that the text names. -/
def createExportJob (versionId : String) (request : CreateRequest) (outcome : CreateStep → Outcome HttpError) :
    Handler (Trace Stores) HttpError ExportJob := do
  let id ← require (orRaise ⟨422, "version_id must be a valid UUID"⟩ (Uuid.parse versionId))
  createJob { request with versionId := id } outcome

inductive Request
  | operation (op : Operation)
  | createExportJobByVersion (request : CreateRequest) (outcome : CreateStep → Outcome HttpError)
  | createExportJob (versionId : String) (request : CreateRequest) (outcome : CreateStep → Outcome HttpError)

def serve (s : State) : Request → State
  | .operation op => s.withCatalog (DatasetService.serve s.catalog op)
  | .createExportJobByVersion request outcome =>
    { s with stores := (answer (createJob request outcome) ⟨s.stores, []⟩).2.current }
  | .createExportJob versionId request outcome =>
    { s with stores := (answer (createExportJob versionId request outcome) ⟨s.stores, []⟩).2.current }

def next (s : State) (r : Request) : Option State := some (serve s r)

/-- `patch_version` does not read the user, and the episodes that arrive come from the gateway. -/
def Request.OfProject (project : Option Uuid) : Request → Prop
  | operation (.createDataset user _ _) => Uuid.parse user.projectId = project
  | operation (.createVersion _ _ user _ _ _) => Uuid.parse user.projectId = project
  | operation (.patchVersion _ _) => True
  | operation (.deleteEpisode _ user _) => Uuid.parse user.projectId = project
  | operation (.arrive _ _ _) => False
  | createExportJobByVersion request _ => Uuid.parse request.user.projectId = project
  | createExportJob _ request _ => Uuid.parse request.user.projectId = project

def Request.export? : Request → Option (CreateRequest × (CreateStep → Outcome HttpError))
  | operation _ => none
  | createExportJobByVersion request outcome => some (request, outcome)
  | createExportJob versionId request outcome =>
    (Uuid.parse versionId).map fun id => ({ request with versionId := id }, outcome)

def ForeignDataset (db : Database) (project : Option Uuid) (id : Uuid) : Prop :=
  ∃ ds, db.datasets.get? id = some ds ∧ some ds.projectId ≠ project

def ForeignEpisode (db : Database) (project : Option Uuid) (id : Uuid) : Prop :=
  ∃ ep, db.episodes.get? id = some ep ∧ some ep.projectId ≠ project

def ForeignVersion (db : Database) (project : Option Uuid) (id : Uuid) : Prop :=
  ∃ version, db.versions.get? id = some version ∧ ForeignDataset db project version.datasetId

section Rows

variable {α : Type}

def SameRows (p : α → Prop) (rows rows' : OrderedDict Uuid α) : Prop :=
  ∀ id row, p row → (rows'.get? id = some row ↔ rows.get? id = some row)

end Rows

structure Isolated (project : Option Uuid) (s t : State) : Prop where
  datasets : SameRows (fun ds => some ds.projectId ≠ project) s.db.datasets t.db.datasets
  episodes : SameRows (fun ep => some ep.projectId ≠ project) s.db.episodes t.db.episodes
  topics : SameRows (ForeignEpisode s.db project) s.topics t.topics
  versions : SameRows (fun version => ForeignDataset s.db project version.datasetId) s.db.versions t.db.versions
  jobs : SameRows (fun job => ForeignVersion s.db project job.datasetVersionId) s.jobs t.jobs

/-- The row of the job reaches the database, also when the request then fails. -/
structure Commits (s : Stores) (request : CreateRequest) (outcome : CreateStep → Outcome HttpError) : Prop where
  format : request.format = "webdataset" ∨ request.format = "raw"
  version : ∃ version, s.world.database.versions.get? request.versionId = some version
  user : ∃ id, Uuid.parse request.user.userId = some id
  fresh : request.jobId ∉ s.world.jobs.keys
  found : (outcome .getVersion).succeeds = true
  committed : (outcome .commit).takesEffect = true

def Trespasses (project : Option Uuid) (s : State) (r : Request) : Prop :=
  ∃ request outcome, r.export? = some (request, outcome) ∧ Commits s.stores request outcome ∧
    ForeignVersion s.db project request.versionId

section Rows

variable {α : Type} {p q : α → Prop} {rows rows' rows'' : OrderedDict Uuid α}

theorem SameRows.refl : SameRows p rows rows := fun _ _ _ => Iff.rfl

theorem SameRows.symm (h : SameRows p rows rows') : SameRows p rows' rows := fun id row hp => (h id row hp).symm

theorem SameRows.trans (h : SameRows p rows rows') (h' : SameRows p rows' rows'') : SameRows p rows rows'' :=
  fun id row hp => (h' id row hp).trans (h id row hp)

theorem SameRows.congr (h : SameRows p rows rows') (hq : ∀ row, q row → p row) : SameRows q rows rows' :=
  fun id row hrow => h id row (hq row hrow)

theorem sameRows_append {id : Uuid} {row : α} (hnew : id ∉ rows.keys) :
    SameRows p rows (rows.append id row hnew) ↔ ¬ p row := by
  have hnone : rows.get? id = none := OrderedDict.get?_eq_none.mpr hnew
  constructor
  · intro h hp
    have hrow := (h id row hp).mp (by rw [OrderedDict.get?_append, if_pos rfl])
    rw [hnone] at hrow
    cases hrow
  · intro hrow j found hfound
    rw [OrderedDict.get?_append]
    split_ifs with hj
    · subst hj
      rw [hnone]
      constructor
      · intro h
        cases h
        exact absurd hfound hrow
      · intro h
        cases h
    · exact Iff.rfl

theorem sameRows_erase {id : Uuid} {row : α} (hrow : rows.get? id = some row) (hp : ¬ p row) :
    SameRows p rows (rows.erase id) := by
  intro j found hfound
  rw [OrderedDict.get?_erase]
  split_ifs with hj
  · subst hj
    rw [hrow]
    constructor
    · intro h
      cases h
    · intro h
      cases h
      exact absurd hfound hp
  · exact Iff.rfl

end Rows

variable {project : Option Uuid} {s t u : State} {r : Request}

theorem Isolated.foreignDataset_iff (h : Isolated project s t) (id : Uuid) :
    ForeignDataset t.db project id ↔ ForeignDataset s.db project id :=
  exists_congr fun ds => and_congr_left fun hforeign => h.datasets id ds hforeign

theorem Isolated.foreignEpisode_iff (h : Isolated project s t) (id : Uuid) :
    ForeignEpisode t.db project id ↔ ForeignEpisode s.db project id :=
  exists_congr fun ep => and_congr_left fun hforeign => h.episodes id ep hforeign

theorem Isolated.foreignVersion_iff (h : Isolated project s t) (id : Uuid) :
    ForeignVersion t.db project id ↔ ForeignVersion s.db project id := by
  apply exists_congr
  intro version
  rw [h.foreignDataset_iff]
  exact and_congr_left fun hforeign => h.versions id version hforeign

theorem isolated_refl (project : Option Uuid) (s : State) : Isolated project s s :=
  ⟨.refl, .refl, .refl, .refl, .refl⟩

theorem Isolated.symm (h : Isolated project s t) : Isolated project t s where
  datasets := h.datasets.symm
  episodes := h.episodes.symm
  topics := h.topics.symm.congr fun id => (h.foreignEpisode_iff id).mp
  versions := h.versions.symm.congr fun version => (h.foreignDataset_iff version.datasetId).mp
  jobs := h.jobs.symm.congr fun job => (h.foreignVersion_iff job.datasetVersionId).mp

theorem Isolated.trans (h : Isolated project s t) (h' : Isolated project t u) : Isolated project s u where
  datasets := h.datasets.trans h'.datasets
  episodes := h.episodes.trans h'.episodes
  topics := h.topics.trans (h'.topics.congr fun id => (h.foreignEpisode_iff id).mpr)
  versions := h.versions.trans (h'.versions.congr fun version => (h.foreignDataset_iff version.datasetId).mpr)
  jobs := h.jobs.trans (h'.jobs.congr fun job => (h.foreignVersion_iff job.datasetVersionId).mpr)

theorem own_of_createDataset {c c' : Catalog} {user : CurrentUser} {newId : Uuid} {commits : Bool} {ds : Dataset}
    (h : answer (createDataset user newId commits) c = (.ok ds, c')) :
    Uuid.parse user.projectId = some ds.projectId := by
  simp only [createDataset, answer_bind_eq_ok, answer_require_eq_ok, answer_pure, parseId_eq_ok, Prod.mk.injEq,
    Except.ok.injEq] at h
  obtain ⟨projectId, _, ⟨hproject, -⟩, _, _, -, _, _, -, rfl, -⟩ := h
  exact hproject

theorem own_of_createVersion {db db' : Database} {datasetId newId : Uuid} {body : CreateVersionRequest}
    {user : CurrentUser} {now : Timestamp} {commits : Bool} {version : DatasetVersion}
    (h : answer (createVersion datasetId body user newId now commits) db = (.ok version, db')) :
    ¬ ForeignDataset db (Uuid.parse user.projectId) version.datasetId := by
  simp only [createVersion, answer_bind_eq_ok, answer_require_eq_ok, answer_get, answer_pure, parseId_eq_ok,
    Prod.mk.injEq, Except.ok.injEq] at h
  obtain ⟨projectId, _, ⟨hproject, rfl⟩, _, _, ⟨-, rfl⟩, _, _, ⟨rfl, rfl⟩, _, _, ⟨hds, -⟩, _, _, -, _, _, -, _, _, -,
    rfl, -⟩ := h
  obtain ⟨ds, hget, rfl⟩ := checkDataset_eq_ok.mp hds
  rintro ⟨found, hfound, hforeign⟩
  rw [hget, Option.some.injEq] at hfound
  rw [hproject, hfound] at hforeign
  exact hforeign rfl

theorem isolated_withoutEpisode {c : Catalog} {episodeId : Uuid} {ep : Episode}
    (hc : s.catalog = c) (hep : c.db.episodes.get? episodeId = some ep) (hown : some ep.projectId = project) :
    Isolated project s (s.withCatalog (c.withoutEpisode episodeId)) := by
  subst hc
  refine ⟨.refl, sameRows_erase hep (not_not_intro hown), ?_, .refl, .refl⟩
  intro id found hfound
  have hne : found ≠ episodeId := by
    rintro rfl
    obtain ⟨other, hother, hforeign⟩ := hfound
    rw [show s.db.episodes.get? found = some ep from hep, Option.some.injEq] at hother
    exact hforeign (hother ▸ hown)
  change (OrderedDict.get? ⟨s.topics.items.filter _, _⟩ id = some found) ↔ _
  rw [← OrderedDict.mem_items, ← OrderedDict.mem_items, List.mem_filter]
  simp [hne]

theorem isolated_operation {op : Operation} (hr : (Request.operation op).OfProject project) :
    Isolated project s (serve s (.operation op)) := by
  have hsame : s.withCatalog s.catalog = s := rfl
  cases op with
  | createDataset user newId commits =>
    rw [serve, DatasetService.serve]
    cases h : answer (createDataset user newId commits) s.catalog with
    | mk result c =>
      cases result with
      | error e =>
        rw [failsClean_createDataset user newId commits s.catalog c e h, hsame]
        exact isolated_refl project s
      | ok ds =>
        have hown := own_of_createDataset h
        obtain ⟨hnew, rfl⟩ := createDataset_ok h
        refine ⟨(sameRows_append hnew).mpr ?_, .refl, .refl, .refl, .refl⟩
        exact not_not_intro (hown.symm.trans hr)
  | createVersion datasetId body user newId now commits =>
    rw [serve, DatasetService.serve]
    cases h : answer (createVersion datasetId body user newId now commits) s.catalog.db with
    | mk result db =>
      cases result with
      | error e =>
        rw [failsClean_createVersion datasetId body user newId now commits s.catalog.db db e h, hsame]
        exact isolated_refl project s
      | ok version =>
        have hown := own_of_createVersion h
        obtain ⟨-, hnew, rfl⟩ := createVersion_ok h
        refine ⟨.refl, .refl, .refl, (sameRows_append hnew).mpr ?_, .refl⟩
        exact (show Uuid.parse user.projectId = project from hr) ▸ hown
  | patchVersion versionId commits =>
    rw [serve, DatasetService.serve, reads_patchVersion versionId commits s.catalog, hsame]
    exact isolated_refl project s
  | deleteEpisode episodeId user commits =>
    rw [serve, DatasetService.serve]
    cases h : answer (deleteEpisode episodeId user commits) s.catalog with
    | mk result c =>
      cases result with
      | error e =>
        rw [failsClean_deleteEpisode episodeId user commits s.catalog c e h, hsame]
        exact isolated_refl project s
      | ok _ =>
        obtain ⟨ep, hep, hproject, -, -, rfl⟩ := deleteEpisode_eq_ok.mp h
        exact isolated_withoutEpisode rfl hep (hproject.symm.trans hr)
  | arrive id ep sessionId => cases hr

theorem world_xadd (request : CreateRequest) (outcome : CreateStep → Outcome HttpError) (stores : Stores) :
    (CreateStep.alone request outcome 1 (some .xadd, stores)).world = stores.world := by
  rw [CreateStep.alone, CreateStep.call]
  cases outcome .xadd <;> rfl

theorem world_refresh (request : CreateRequest) (outcome : CreateStep → Outcome HttpError) (stores : Stores) :
    (CreateStep.alone request outcome 2 (some .refresh, stores)).world = stores.world := by
  rw [CreateStep.alone, CreateStep.call]
  cases outcome .refresh with
  | ok =>
    simp only [CreateStep.answer]
    cases stores.world.jobs.get? request.jobId with
    | none => rfl
    | some job => exact world_xadd request outcome stores
  | raises e => rfl
  | raisesLate e => rfl

theorem world_commit (request : CreateRequest) (outcome : CreateStep → Outcome HttpError) (stores : Stores) :
    (∃ hnew, (outcome .commit).takesEffect = true ∧ (CreateStep.alone request outcome 3 (some .commit, stores)).world =
        { stores.world with jobs := stores.world.jobs.append request.jobId request.job hnew }) ∨
      ¬ (request.jobId ∉ stores.world.jobs.keys ∧ (outcome .commit).takesEffect = true) ∧
        (CreateStep.alone request outcome 3 (some .commit, stores)).world = stores.world := by
  rw [CreateStep.alone, CreateStep.call, CreateStep.answer, CreateRequest.insert]
  split_ifs with hnew
  · exact .inr ⟨fun h => h.1 hnew, rfl⟩
  · cases houtcome : outcome .commit with
    | ok => exact .inl ⟨hnew, rfl, world_refresh request outcome _⟩
    | raises e => exact .inr ⟨fun h => absurd h.2 Bool.false_ne_true, rfl⟩
    | raisesLate e => exact .inl ⟨hnew, rfl, rfl⟩

theorem checkFormat_eq_ok {format : String} :
    checkFormat format = .ok () ↔ format = "webdataset" ∨ format = "raw" := by
  unfold checkFormat
  split_ifs with h <;> simp [h]

theorem world_createJob (request : CreateRequest) (outcome : CreateStep → Outcome HttpError) (stores : Stores) :
    (∃ hnew, Commits stores request outcome ∧ (answer (createJob request outcome) ⟨stores, []⟩).2.current.world =
        { stores.world with jobs := stores.world.jobs.append request.jobId request.job hnew }) ∨
      ¬ Commits stores request outcome ∧
        (answer (createJob request outcome) ⟨stores, []⟩).2.current.world = stores.world := by
  by_cases hformat : checkFormat request.format = .ok ()
  · rw [← alone_createJob stores hformat, CreateStep.alone, CreateStep.call, CreateStep.answer]
    cases houtcome : outcome .getVersion with
    | ok =>
      cases hversion : stores.world.database.versions.get? request.versionId with
      | none =>
        refine .inr ⟨fun h => ?_, rfl⟩
        obtain ⟨version, hfound⟩ := h.version
        rw [hversion] at hfound
        cases hfound
      | some version =>
        cases huser : parseId request.user.userId with
        | error e =>
          refine .inr ⟨fun h => ?_, rfl⟩
          obtain ⟨id, hid⟩ := h.user
          rw [parseId_eq_ok.mpr hid] at huser
          cases huser
        | ok userId =>
          rcases world_commit request outcome stores with ⟨hnew, hcommit, hworld⟩ | ⟨hcommit, hworld⟩
          · have hfound : (outcome .getVersion).succeeds = true := congrArg Outcome.succeeds houtcome
            exact .inl ⟨hnew, ⟨checkFormat_eq_ok.mp hformat, ⟨version, hversion⟩,
              ⟨userId, parseId_eq_ok.mp huser⟩, hnew, hfound, hcommit⟩, hworld⟩
          · exact .inr ⟨fun h => hcommit ⟨h.fresh, h.committed⟩, hworld⟩
    | raises e =>
      refine .inr ⟨fun h => ?_, rfl⟩
      have hfound := h.found
      rw [houtcome] at hfound
      cases hfound
    | raisesLate e =>
      refine .inr ⟨fun h => ?_, rfl⟩
      have hfound := h.found
      rw [houtcome] at hfound
      cases hfound
  · refine .inr ⟨fun h => hformat (checkFormat_eq_ok.mpr h.format), ?_⟩
    unfold createJob
    cases hcheck : checkFormat request.format with
    | error e => rfl
    | ok _ => exact absurd hcheck hformat

theorem isolated_iff_jobs (hdb : t.db = s.db) (htopics : t.topics = s.topics) :
    Isolated project s t ↔ SameRows (fun job => ForeignVersion s.db project job.datasetVersionId) s.jobs t.jobs := by
  refine ⟨fun h => h.jobs, fun h => ⟨?_, ?_, ?_, ?_, h⟩⟩
  · rw [hdb]
    exact .refl
  · rw [hdb]
    exact .refl
  · rw [htopics]
    exact .refl
  · rw [hdb]
    exact .refl

theorem isolated_createJob_iff (request : CreateRequest) (outcome : CreateStep → Outcome HttpError) :
    Isolated project s { s with stores := (answer (createJob request outcome) ⟨s.stores, []⟩).2.current } ↔
      ¬ (Commits s.stores request outcome ∧ ForeignVersion s.db project request.versionId) := by
  rcases world_createJob request outcome s.stores with ⟨hnew, hcommits, hworld⟩ | ⟨hcommits, hworld⟩
  · have hdb := congrArg World.database hworld
    refine Iff.trans (isolated_iff_jobs (by exact hdb) rfl) ?_
    rw [State.jobs, State.jobs, hworld, and_iff_right hcommits]
    exact sameRows_append hnew
  · refine Iff.trans (isolated_iff_jobs (congrArg World.database hworld) rfl) ?_
    rw [State.jobs, State.jobs, hworld]
    exact iff_of_true .refl (fun h => hcommits h.1)

theorem isolated_serve_iff (hr : r.OfProject project) :
    Isolated project s (serve s r) ↔ ¬ Trespasses project s r := by
  cases r with
  | operation op =>
    refine iff_of_true (isolated_operation hr) ?_
    rintro ⟨request, outcome, hexport, -⟩
    cases hexport
  | createExportJobByVersion request outcome =>
    rw [serve, isolated_createJob_iff]
    refine not_congr ⟨fun h => ⟨request, outcome, rfl, h⟩, ?_⟩
    rintro ⟨_, _, hexport, h⟩
    cases hexport
    exact h
  | createExportJob versionId request outcome =>
    rw [serve, createExportJob]
    cases hid : Uuid.parse versionId with
    | none =>
      refine iff_of_true (isolated_refl project s) ?_
      rintro ⟨_, _, hexport, -⟩
      rw [Request.export?, hid] at hexport
      cases hexport
    | some id =>
      rw [orRaise, answer_bind_of_ok (answer_require _ _), isolated_createJob_iff]
      refine not_congr ⟨fun h => ⟨{ request with versionId := id }, outcome, by rw [Request.export?, hid]; rfl, h⟩, ?_⟩
      rintro ⟨_, _, hexport, h⟩
      rw [Request.export?, hid] at hexport
      cases hexport
      exact h

theorem dataset_write_isolation {requests : List Request} (husers : ∀ r ∈ requests, r.OfProject project)
    (h : run next s requests = some u) :
    (∀ before t, before <+: requests → run next s before = some t → Isolated project s t) ↔
      Along next (fun t r => ¬ Trespasses project t r) s requests := by
  apply reached_iff_along _ (isolated_refl project s) husers h
  intro t r v ht hr hnext
  cases hnext
  rw [← isolated_serve_iff hr]
  exact ⟨fun hv => ht.symm.trans hv, fun hv => ht.trans hv⟩

def exportedVersion : State := ⟨⟨oneJob, []⟩, OrderedDict.empty, OrderedDict.empty, OrderedDict.empty⟩

def outsider : CurrentUser := ⟨"00000000-0000-0000-0000-0000000000e2", "00000000-0000-0000-0000-0000000000b2"⟩

def requestsOfOutsider : List Request :=
  [.operation (.createDataset outsider ⟨7⟩ true),
    .createExportJobByVersion ⟨⟨4⟩, "raw", "theirs", none, outsider, ⟨6⟩, "1-0"⟩ fun _ => .ok]

theorem dataset_write_isolation_outsider :
    (∀ before t, before <+: requestsOfOutsider → run next exportedVersion before = some t →
        Isolated (some ⟨0xb2⟩) exportedVersion t) ↔
      Along next (fun t r => ¬ Trespasses (some ⟨0xb2⟩) t r) exportedVersion requestsOfOutsider := by
  have husers : ∀ r ∈ requestsOfOutsider, r.OfProject (some ⟨0xb2⟩) := by
    have houtsider : Uuid.parse outsider.projectId = some ⟨0xb2⟩ := by decide +kernel
    simp [requestsOfOutsider, Request.OfProject, houtsider]
  exact dataset_write_isolation husers rfl

end Embedai.DatasetIsolation
