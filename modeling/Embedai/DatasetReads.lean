import Mathlib.Data.List.Perm.Basic
import Embedai.DatasetVersions
import Embedai.Tokens

namespace Embedai.DatasetReads

open Accounts (Jwt)
open DatasetService (CurrentUser HttpError Timestamp internalError parseId)

structure Episode where
  projectId : Uuid
  filename : String
  format : String
  sizeBytes : Option ℤ
  durationSeconds : Option ℚ
  status : String
  qualityScore : Option ℚ
  episodeMetadata : Json
  storagePath : Option String
  recordedAt : Option Timestamp
  ingestedAt : Option Timestamp
  createdAt : Option Timestamp

structure Topic where
  episodeId : Uuid
  name : String
  type : Option String
  startTimeOffset : Option ℚ
  endTimeOffset : Option ℚ
  messageCount : Option ℤ
  frequencyHz : Option ℚ
  schemaName : Option String

structure Dataset where
  projectId : Uuid
  name : String
  description : Option String
  status : String
  createdBy : Option Uuid
  createdAt : Option Timestamp

structure DatasetVersion where
  datasetId : Uuid
  versionTag : String
  episodeRefs : Json
  episodeCount : Option ℤ
  totalSizeBytes : Option ℤ
  isImmutable : Bool
  createdBy : Option Uuid
  createdAt : Option Timestamp

structure ExportJob where
  datasetVersionId : Uuid
  format : String
  targetBucket : String
  targetPrefix : Option String
  status : String
  progressPct : Option ℚ
  manifestUrl : Option String
  errorMessage : Option String
  startedAt : Option Timestamp
  completedAt : Option Timestamp
  createdAt : Option Timestamp
  updatedAt : Option Timestamp

structure Database where
  episodes : OrderedDict Uuid Episode
  topics : OrderedDict Uuid Topic
  datasets : OrderedDict Uuid Dataset
  versions : OrderedDict Uuid DatasetVersion
  exportJobs : OrderedDict Uuid ExportJob

/-- A time in a response is its ISO text; no two times have one text. -/
structure EpisodeOut where
  id : String
  projectId : String
  filename : String
  format : String
  sizeBytes : Option ℤ
  durationSeconds : Option ℚ
  status : String
  qualityScore : Option ℚ
  storagePath : Option String
  recordedAt : Option Timestamp
  ingestedAt : Option Timestamp
  createdAt : Option Timestamp
  metadata : List (String × Json)

structure TopicOut where
  id : String
  name : String
  type : Option String
  startTimeOffset : Option ℚ
  endTimeOffset : Option ℚ
  messageCount : Option ℤ
  frequencyHz : Option ℚ
  schemaName : Option String

structure DatasetOut where
  id : String
  projectId : String
  name : String
  description : Option String
  status : String
  createdBy : Option String
  createdAt : Option Timestamp

structure DatasetVersionOut where
  id : String
  datasetId : String
  versionTag : String
  episodeRefs : Json
  episodeCount : Option ℤ
  totalSizeBytes : Option ℤ
  sizeEstimateBytes : Option ℤ
  isImmutable : Bool
  createdBy : Option String
  createdAt : Option Timestamp

structure ExportJobOut where
  id : String
  versionId : String
  datasetVersionId : String
  format : String
  targetBucket : String
  targetPrefix : Option String
  status : String
  progressPct : Option ℚ
  manifestUrl : Option String
  errorMessage : Option String
  startedAt : Option Timestamp
  completedAt : Option Timestamp
  createdAt : Option Timestamp
  updatedAt : Option Timestamp

/-- `ep.episode_metadata or {}`; the response model takes nothing but an object. -/
def metadataOut (metadata : Json) : Except HttpError (List (String × Json)) :=
  if metadata.truthy then
    match metadata with
    | .obj fields => .ok fields
    | _ => .error internalError
  else .ok []

def episodeOut (ep : Uuid × Episode) : Except HttpError EpisodeOut :=
  (metadataOut ep.2.episodeMetadata).map fun metadata =>
    { id := ep.1.text
      projectId := ep.2.projectId.text
      filename := ep.2.filename
      format := ep.2.format
      sizeBytes := ep.2.sizeBytes
      durationSeconds := ep.2.durationSeconds
      status := ep.2.status
      qualityScore := ep.2.qualityScore
      storagePath := ep.2.storagePath
      recordedAt := ep.2.recordedAt
      ingestedAt := ep.2.ingestedAt
      createdAt := ep.2.createdAt
      metadata := metadata }

def topicOut (t : Uuid × Topic) : TopicOut where
  id := t.1.text
  name := t.2.name
  type := t.2.type
  startTimeOffset := t.2.startTimeOffset
  endTimeOffset := t.2.endTimeOffset
  messageCount := t.2.messageCount
  frequencyHz := t.2.frequencyHz
  schemaName := t.2.schemaName

def datasetOut (ds : Uuid × Dataset) : DatasetOut where
  id := ds.1.text
  projectId := ds.2.projectId.text
  name := ds.2.name
  description := ds.2.description
  status := ds.2.status
  createdBy := ds.2.createdBy.map Uuid.text
  createdAt := ds.2.createdAt

def versionOut (v : Uuid × DatasetVersion) : DatasetVersionOut where
  id := v.1.text
  datasetId := v.2.datasetId.text
  versionTag := v.2.versionTag
  episodeRefs := if v.2.episodeRefs.truthy then v.2.episodeRefs else .arr []
  episodeCount := v.2.episodeCount
  totalSizeBytes := v.2.totalSizeBytes
  sizeEstimateBytes := v.2.totalSizeBytes
  isImmutable := v.2.isImmutable
  createdBy := v.2.createdBy.map Uuid.text
  createdAt := v.2.createdAt

def jobOut (job : Uuid × ExportJob) : ExportJobOut where
  id := job.1.text
  versionId := job.2.datasetVersionId.text
  datasetVersionId := job.2.datasetVersionId.text
  format := job.2.format
  targetBucket := job.2.targetBucket
  targetPrefix := job.2.targetPrefix
  status := job.2.status
  progressPct := job.2.progressPct
  manifestUrl := job.2.manifestUrl
  errorMessage := job.2.errorMessage
  startedAt := job.2.startedAt
  completedAt := job.2.completedAt
  createdAt := job.2.createdAt
  updatedAt := job.2.updatedAt

/-- The query parameters of `list_episodes`, within the bounds that FastAPI checks. -/
structure EpisodeQuery where
  status : Option String
  format : Option String
  minQuality : Option ℚ
  search : Option String
  limit : ℕ
  offset : ℕ
  minQuality_bounds : ∀ quality ∈ minQuality, 0 ≤ quality ∧ quality ≤ 1
  limit_bounds : 1 ≤ limit ∧ limit ≤ 500

inductive Request
  | listEpisodes (query : EpisodeQuery)
  | getEpisodeDetail (episodeId : Uuid)
  | getStreamToken (episodeId : Uuid) (now : ℤ)
  | getFrame (episodeId : Uuid) (topic : String) (timestamp : ℤ)
  | listDatasets
  | listVersions (datasetId : Uuid)
  | listExportJobs (versionId : Option String)
  | getExportJob (jobId : Uuid)

inductive Response (τ ι : Type)
  | episodes (items : List EpisodeOut) (total limit offset : ℕ)
  | episode (data : EpisodeOut) (topics : List TopicOut)
  | streamToken (token : τ) (expiresIn : ℤ)
  | frame (image : ι)
  | datasets (items : List DatasetOut) (total : ℕ)
  | versions (items : List DatasetVersionOut) (total : ℕ)
  | exportJobs (items : List ExportJobOut) (total : ℕ)
  | exportJob (job : ExportJobOut)

/-- `readFrame` is the part of `get_frame` behind the row: the cache, the object storage and the reader. -/
structure Service (τ ι : Type) where
  jwt : Jwt τ
  jwtSecret : String
  streamTokenExpireSeconds : ℤ
  ilike : String → String → Bool
  readFrame : (episodeId storagePath topic : String) → (timestamp : ℤ) → Except HttpError ι

def filterText (parameter : Option String) (p : String → Bool) : Bool :=
  match parameter with
  | some text => text = "" || p text
  | none => true

def EpisodeQuery.selects (query : EpisodeQuery) (ilike : String → String → Bool) (projectId : Uuid)
    (ep : Uuid × Episode) : Bool :=
  ep.2.projectId = projectId &&
    filterText query.status (fun status => ep.2.status = status) &&
    filterText query.format (fun format => ep.2.format = format) &&
    query.minQuality.all (fun quality => ep.2.qualityScore.any (quality ≤ ·)) &&
    filterText query.search (fun search => ilike ep.2.filename ("%" ++ search ++ "%"))

/-- `ORDER BY … DESC` has the rows without a value first. -/
def notOlder : Option Timestamp → Option Timestamp → Bool
  | none, _ => true
  | some _, none => false
  | some a, some b => b ≤ a

/-- What the database may answer to a query: rows of one time come in any order. -/
structure NewestFirst {α : Type} (createdAt : α → Option Timestamp) (selected rows : List α) : Prop where
  perm : rows.Perm selected
  sorted : rows.Pairwise (fun a b => notOlder (createdAt a) (createdAt b) = true)

def findOwned {ν : Type} (table : OrderedDict Uuid ν) (projectOf : ν → Uuid) (detail : String) (id projectId : Uuid) :
    Except HttpError ν :=
  match (table.get? id).filter (fun row => projectOf row = projectId) with
  | some row => .ok row
  | none => .error ⟨404, detail⟩

def findEpisode (db : Database) (episodeId projectId : Uuid) : Except HttpError Episode :=
  findOwned db.episodes Episode.projectId "episode not found" episodeId projectId

def findDataset (db : Database) (datasetId projectId : Uuid) : Except HttpError Dataset :=
  findOwned db.datasets Dataset.projectId "dataset not found" datasetId projectId

def topicsOf (db : Database) (episodeId : Uuid) : List (Uuid × Topic) :=
  db.topics.items.filter (fun t => t.2.episodeId = episodeId)

def datasetsOf (db : Database) (projectId : Uuid) : List (Uuid × Dataset) :=
  db.datasets.items.filter (fun ds => ds.2.projectId = projectId)

def versionsOf (db : Database) (datasetId : Uuid) : List (Uuid × DatasetVersion) :=
  db.versions.items.filter (fun v => v.2.datasetId = datasetId)

def versionFilter : Option String → Except HttpError (Option Uuid)
  | none => .ok none
  | some text =>
    if text = "" then .ok none
    else match Uuid.parse text with
      | some id => .ok (some id)
      | none => .error ⟨422, "version_id must be a valid UUID"⟩

def jobsOf (db : Database) (version : Option Uuid) : List (Uuid × ExportJob) :=
  db.exportJobs.items.filter (fun job => version.all (fun id => job.2.datasetVersionId = id))

section Endpoints

variable {τ ι : Type} (svc : Service τ ι) (db : Database) (user : CurrentUser)

def listEpisodes (query : EpisodeQuery) (answer : Except HttpError (Response τ ι)) : Prop :=
  match parseId user.projectId with
  | .error e => answer = .error e
  | .ok projectId =>
    let selected := db.episodes.items.filter (query.selects svc.ilike projectId)
    ∃ rows, NewestFirst (fun ep : Uuid × Episode => ep.2.createdAt) selected rows ∧
      answer = (((rows.drop query.offset).take query.limit).mapM episodeOut).map
        (fun items => .episodes items selected.length query.limit query.offset)

def getEpisodeDetail (episodeId : Uuid) (answer : Except HttpError (Response τ ι)) : Prop :=
  match parseId user.projectId with
  | .error e => answer = .error e
  | .ok projectId => ∃ topics : List (Uuid × Topic), topics.Perm (topicsOf db episodeId) ∧
      answer = (findEpisode db episodeId projectId).bind fun ep =>
        (episodeOut (episodeId, ep)).map (fun data => .episode data (topics.map topicOut))

def getStreamToken (episodeId : Uuid) (now : ℤ) : Except HttpError (Response τ ι) := do
  let projectId ← parseId user.projectId
  let _ ← findEpisode db episodeId projectId
  let expiresIn := svc.streamTokenExpireSeconds
  let token := Accounts.createStreamToken svc.jwt svc.jwtSecret .datasetService svc.streamTokenExpireSeconds
    episodeId.text (some expiresIn) now
  return .streamToken token expiresIn

def frameFile (ep : Episode) : Except HttpError String :=
  if ep.format ≠ "mcap" then .error ⟨400, "only MCAP format supported"⟩
  else match ep.storagePath with
    | none => .error ⟨400, "episode file not available"⟩
    | some path => if path = "" then .error ⟨400, "episode file not available"⟩ else .ok path

def getFrame (episodeId : Uuid) (topic : String) (timestamp : ℤ) : Except HttpError (Response τ ι) := do
  let projectId ← parseId user.projectId
  let ep ← findEpisode db episodeId projectId
  let path ← frameFile ep
  let image ← svc.readFrame episodeId.text path topic timestamp
  return .frame image

def listDatasets (answer : Except HttpError (Response τ ι)) : Prop :=
  match parseId user.projectId with
  | .error e => answer = .error e
  | .ok projectId => ∃ rows, NewestFirst (fun ds : Uuid × Dataset => ds.2.createdAt) (datasetsOf db projectId) rows ∧
      answer = .ok (.datasets (rows.map datasetOut) rows.length)

def listVersions (datasetId : Uuid) (answer : Except HttpError (Response τ ι)) : Prop :=
  match parseId user.projectId with
  | .error e => answer = .error e
  | .ok projectId => ∃ rows,
      NewestFirst (fun v : Uuid × DatasetVersion => v.2.createdAt) (versionsOf db datasetId) rows ∧
      answer = (findDataset db datasetId projectId).map
        (fun _ => .versions (rows.map versionOut) rows.length)

def listExportJobs (versionId : Option String) (answer : Except HttpError (Response τ ι)) : Prop :=
  match versionFilter versionId with
  | .error e => answer = .error e
  | .ok version => ∃ rows, NewestFirst (fun job : Uuid × ExportJob => job.2.createdAt) (jobsOf db version) rows ∧
      answer = .ok (.exportJobs (rows.map jobOut) rows.length)

def getExportJob (jobId : Uuid) : Except HttpError (Response τ ι) :=
  match db.exportJobs.get? jobId with
  | some job => .ok (.exportJob (jobOut (jobId, job)))
  | none => .error ⟨404, "export job not found"⟩

def Answers (request : Request) (answer : Except HttpError (Response τ ι)) : Prop :=
  match request with
  | .listEpisodes query => listEpisodes svc db user query answer
  | .getEpisodeDetail episodeId => getEpisodeDetail db user episodeId answer
  | .getStreamToken episodeId now => answer = getStreamToken svc db user episodeId now
  | .getFrame episodeId topic timestamp => answer = getFrame svc db user episodeId topic timestamp
  | .listDatasets => listDatasets db user answer
  | .listVersions datasetId => listVersions db user datasetId answer
  | .listExportJobs versionId => listExportJobs db versionId answer
  | .getExportJob jobId => answer = getExportJob db jobId

end Endpoints

section Agreement

def EpisodeOf (P : Uuid) (db : Database) (id : Uuid) (ep : Episode) : Prop :=
  db.episodes.get? id = some ep ∧ ep.projectId = P

def TopicOf (P : Uuid) (db : Database) (id : Uuid) (t : Topic) : Prop :=
  db.topics.get? id = some t ∧ ∃ ep, EpisodeOf P db t.episodeId ep

def DatasetOf (P : Uuid) (db : Database) (id : Uuid) (ds : Dataset) : Prop :=
  db.datasets.get? id = some ds ∧ ds.projectId = P

def VersionOf (P : Uuid) (db : Database) (id : Uuid) (v : DatasetVersion) : Prop :=
  db.versions.get? id = some v ∧ ∃ ds, DatasetOf P db v.datasetId ds

def JobOf (P : Uuid) (db : Database) (id : Uuid) (job : ExportJob) : Prop :=
  db.exportJobs.get? id = some job ∧ ∃ v, VersionOf P db job.datasetVersionId v

structure AgreeOn (P : Uuid) (s t : Database) : Prop where
  episodes : ∀ id ep, EpisodeOf P s id ep ↔ EpisodeOf P t id ep
  topics : ∀ id topic, TopicOf P s id topic ↔ TopicOf P t id topic
  datasets : ∀ id ds, DatasetOf P s id ds ↔ DatasetOf P t id ds
  versions : ∀ id v, VersionOf P s id v ↔ VersionOf P t id v
  exportJobs : ∀ id job, JobOf P s id job ↔ JobOf P t id job

def Request.reads (id : Uuid) (job : ExportJob) : Request → Prop
  | .listExportJobs versionId => ∃ version, versionFilter versionId = .ok version ∧
      version.all (fun v => job.datasetVersionId = v) = true
  | .getExportJob jobId => id = jobId
  | _ => False

def ForeignJobsAgree (P : Uuid) (s t : Database) (request : Request) : Prop :=
  ∀ id job, request.reads id job → ¬ JobOf P s id job →
    (s.exportJobs.get? id = some job ↔ t.exportJobs.get? id = some job)

end Agreement

section Queries

variable {α : Type} {createdAt : α → Option Timestamp} {l l' rows : List α}

theorem newestFirst_congr (h : l.Perm l') : NewestFirst createdAt l rows ↔ NewestFirst createdAt l' rows :=
  ⟨fun hrows => ⟨hrows.perm.trans h, hrows.sorted⟩, fun hrows => ⟨hrows.perm.trans h.symm, hrows.sorted⟩⟩

theorem notOlder_trans {a b c : Option Timestamp} (hab : notOlder a b = true) (hbc : notOlder b c = true) :
    notOlder a c = true := by
  cases a with
  | none => rfl
  | some a =>
    cases b with
    | none => cases hab
    | some b =>
      cases c with
      | none => cases hbc
      | some c =>
        simp only [notOlder, decide_eq_true_eq] at hab hbc ⊢
        exact Int.le_trans hbc hab

theorem notOlder_total (a b : Option Timestamp) : (notOlder a b || notOlder b a) = true := by
  cases a with
  | none => rfl
  | some a =>
    cases b with
    | none => rfl
    | some b =>
      simp only [notOlder, Bool.or_eq_true, decide_eq_true_eq]
      exact Int.le_total b a

theorem exists_newestFirst (createdAt : α → Option Timestamp) (l : List α) : ∃ rows, NewestFirst createdAt l rows := by
  let le : α → α → Bool := fun a b => notOlder (createdAt a) (createdAt b)
  have htrans : ∀ a b c, le a b = true → le b c = true → le a c = true := fun _ _ _ => notOlder_trans
  have htotal : ∀ a b, (le a b || le b a) = true := fun a b => notOlder_total (createdAt a) (createdAt b)
  exact ⟨l.mergeSort le, List.mergeSort_perm l le, List.pairwise_mergeSort htrans htotal l⟩

theorem perm_filter {κ ν : Type} [DecidableEq κ] {d d' : OrderedDict κ ν} {p : κ × ν → Bool}
    (h : ∀ id row, p (id, row) = true → (d.get? id = some row ↔ d'.get? id = some row)) :
    (d.items.filter p).Perm (d'.items.filter p) := by
  have hnodup : ∀ d : OrderedDict κ ν, (d.items.filter p).Nodup :=
    fun d => (List.Nodup.of_map Prod.fst d.nodup).filter _
  rw [List.perm_ext_iff_of_nodup (hnodup d) (hnodup d')]
  rintro ⟨id, row⟩
  simp only [List.mem_filter, OrderedDict.mem_items, and_congr_left_iff]
  exact h id row

theorem perm_children {ν : Type} {d d' : OrderedDict Uuid ν} {parentOf : ν → Uuid} (owned owned' : Uuid → Prop)
    (h : ∀ id row, d.get? id = some row ∧ owned (parentOf row) ↔ d'.get? id = some row ∧ owned' (parentOf row))
    {parent : Uuid} (hparent : owned parent) (hparent' : owned' parent) :
    (d.items.filter (fun row => parentOf row.2 = parent)).Perm
      (d'.items.filter (fun row => parentOf row.2 = parent)) := by
  apply perm_filter
  intro id row hrow
  have he : parentOf row = parent := of_decide_eq_true hrow
  have hagree := h id row
  simpa only [he, hparent, hparent', and_true] using hagree

theorem findOwned_congr {ν : Type} {d d' : OrderedDict Uuid ν} {projectOf : ν → Uuid} {P : Uuid}
    (h : ∀ id row, d.get? id = some row ∧ projectOf row = P ↔ d'.get? id = some row ∧ projectOf row = P)
    (detail : String) (id : Uuid) : findOwned d projectOf detail id P = findOwned d' projectOf detail id P := by
  have hsame : (d.get? id).filter (fun row => projectOf row = P) =
      (d'.get? id).filter (fun row => projectOf row = P) := by
    ext row
    simp only [Option.filter_eq_some_iff, decide_eq_true_eq]
    exact h id row
  rw [findOwned, hsame, findOwned]

theorem owned_of_findOwned {ν : Type} {d : OrderedDict Uuid ν} {projectOf : ν → Uuid} {P : Uuid} {detail : String}
    {id : Uuid} {row : ν} (h : findOwned d projectOf detail id P = .ok row) :
    d.get? id = some row ∧ projectOf row = P := by
  rw [findOwned] at h
  split at h
  · next found hfound =>
    cases h
    obtain ⟨hget, hproject⟩ := Option.filter_eq_some_iff.mp hfound
    exact ⟨hget, of_decide_eq_true hproject⟩
  · cases h

theorem jobOut_injective : Function.Injective jobOut := by
  rintro ⟨id, job⟩ ⟨id', job'⟩ h
  simp only [jobOut, ExportJobOut.mk.injEq] at h
  obtain ⟨hid, hversion, -, h3, h4, h5, h6, h7, h8, h9, h10, h11, h12, h13⟩ := h
  cases job
  cases job'
  simp only at *
  rw [Uuid.text_injective hid, Uuid.text_injective hversion, h3, h4, h5, h6, h7, h8, h9, h10, h11, h12, h13]

end Queries

section Isolation

variable {τ ι : Type} {svc : Service τ ι} {P : Uuid} {s t : Database} {user : CurrentUser}
  {answer : Except HttpError (Response τ ι)}

theorem findEpisode_congr (h : AgreeOn P s t) (id : Uuid) : findEpisode s id P = findEpisode t id P :=
  findOwned_congr h.episodes _ id

theorem findDataset_congr (h : AgreeOn P s t) (id : Uuid) : findDataset s id P = findDataset t id P :=
  findOwned_congr h.datasets _ id

theorem listEpisodes_congr (h : AgreeOn P s t) (huser : parseId user.projectId = .ok P) (query : EpisodeQuery) :
    listEpisodes svc s user query answer ↔ listEpisodes svc t user query answer := by
  have hperm : (s.episodes.items.filter (query.selects svc.ilike P)).Perm
      (t.episodes.items.filter (query.selects svc.ilike P)) := by
    apply perm_filter
    intro id ep hselects
    simp only [EpisodeQuery.selects, Bool.and_eq_true, decide_eq_true_eq] at hselects
    have hagree := h.episodes id ep
    simpa only [EpisodeOf, hselects.1.1.1.1, and_true] using hagree
  simp only [listEpisodes, huser, newestFirst_congr hperm, hperm.length_eq]

theorem getEpisodeDetail_congr (h : AgreeOn P s t) (huser : parseId user.projectId = .ok P) (episodeId : Uuid) :
    getEpisodeDetail s user episodeId answer ↔ getEpisodeDetail t user episodeId answer := by
  simp only [getEpisodeDetail, huser, findEpisode_congr h]
  cases hfound : findEpisode t episodeId P with
  | error e =>
    -- whatever topics are read, the answer is the error
    constructor
    · rintro ⟨topics, -, hanswer⟩
      exact ⟨topicsOf t episodeId, List.Perm.refl _, hanswer⟩
    · rintro ⟨topics, -, hanswer⟩
      exact ⟨topicsOf s episodeId, List.Perm.refl _, hanswer⟩
  | ok ep =>
    have hep : EpisodeOf P t episodeId ep := owned_of_findOwned hfound
    have hperm : (topicsOf s episodeId).Perm (topicsOf t episodeId) :=
      perm_children (fun id => ∃ ep, EpisodeOf P s id ep) (fun id => ∃ ep, EpisodeOf P t id ep) h.topics
        ⟨ep, (h.episodes _ _).mpr hep⟩ ⟨ep, hep⟩
    constructor
    · rintro ⟨topics, htopics, hanswer⟩
      exact ⟨topics, htopics.trans hperm, hanswer⟩
    · rintro ⟨topics, htopics, hanswer⟩
      exact ⟨topics, htopics.trans hperm.symm, hanswer⟩

theorem listDatasets_congr (h : AgreeOn P s t) (huser : parseId user.projectId = .ok P) :
    listDatasets s user answer ↔ listDatasets t user answer := by
  have hperm : (datasetsOf s P).Perm (datasetsOf t P) :=
    perm_children (· = P) (· = P) h.datasets rfl rfl
  simp only [listDatasets, huser, newestFirst_congr hperm]

theorem listVersions_congr (h : AgreeOn P s t) (huser : parseId user.projectId = .ok P) (datasetId : Uuid) :
    listVersions s user datasetId answer ↔ listVersions t user datasetId answer := by
  simp only [listVersions, huser, findDataset_congr h]
  cases hfound : findDataset t datasetId P with
  | error e =>
    have hall : ∀ db, (∃ rows : List (Uuid × DatasetVersion),
        NewestFirst (fun v : Uuid × DatasetVersion => v.2.createdAt) (versionsOf db datasetId) rows ∧
          answer = .error e) ↔ answer = .error e := by
      intro db
      obtain ⟨rows, hrows⟩ := exists_newestFirst (fun v : Uuid × DatasetVersion => v.2.createdAt)
        (versionsOf db datasetId)
      exact ⟨fun ⟨_, _, hanswer⟩ => hanswer, fun hanswer => ⟨rows, hrows, hanswer⟩⟩
    exact (hall s).trans (hall t).symm
  | ok ds =>
    have hds : DatasetOf P t datasetId ds := owned_of_findOwned hfound
    have hperm : (versionsOf s datasetId).Perm (versionsOf t datasetId) :=
      perm_children (fun id => ∃ ds, DatasetOf P s id ds) (fun id => ∃ ds, DatasetOf P t id ds) h.versions
        ⟨ds, (h.datasets _ _).mpr hds⟩ ⟨ds, hds⟩
    simp only [newestFirst_congr hperm]

theorem getStreamToken_congr (h : AgreeOn P s t) (huser : parseId user.projectId = .ok P) (episodeId : Uuid)
    (now : ℤ) : getStreamToken svc s user episodeId now = getStreamToken svc t user episodeId now := by
  rw [getStreamToken, getStreamToken, huser]
  change (findEpisode s episodeId P).bind _ = (findEpisode t episodeId P).bind _
  rw [findEpisode_congr h]

theorem getFrame_congr (h : AgreeOn P s t) (huser : parseId user.projectId = .ok P) (episodeId : Uuid)
    (topic : String) (timestamp : ℤ) :
    getFrame svc s user episodeId topic timestamp = getFrame svc t user episodeId topic timestamp := by
  rw [getFrame, getFrame, huser]
  change (findEpisode s episodeId P).bind _ = (findEpisode t episodeId P).bind _
  rw [findEpisode_congr h]

theorem same_job_iff (h : AgreeOn P s t) {request : Request} (hforeign : ForeignJobsAgree P s t request) {id : Uuid}
    {job : ExportJob} (hreads : request.reads id job) :
    s.exportJobs.get? id = some job ↔ t.exportJobs.get? id = some job := by
  by_cases hjob : JobOf P s id job
  · exact ⟨fun _ => ((h.exportJobs id job).mp hjob).1, fun _ => hjob.1⟩
  · exact hforeign id job hreads hjob

theorem listExportJobs_iff (h : AgreeOn P s t) (versionId : Option String) :
    (∀ answer : Except HttpError (Response τ ι),
        listExportJobs s versionId answer ↔ listExportJobs t versionId answer) ↔
      ForeignJobsAgree P s t (.listExportJobs versionId) := by
  cases hversion : versionFilter versionId with
  | error e =>
    constructor
    · rintro - id job ⟨version, hok, -⟩
      rw [hversion] at hok
      cases hok
    · intro _ answer
      simp only [listExportJobs, hversion]
  | ok version =>
    have hreads : ∀ id job, (Request.listExportJobs versionId).reads id job ↔
        version.all (fun v => job.datasetVersionId = v) = true := by
      intro id job
      constructor
      · rintro ⟨version', hok, hall⟩
        rw [hversion] at hok
        cases hok
        exact hall
      · intro hall
        exact ⟨version, hversion, hall⟩
    constructor
    · intro hsame id job hread _
      -- one answer in the first state, its rows found again in the second
      obtain ⟨rows, hrows⟩ := exists_newestFirst (fun job : Uuid × ExportJob => job.2.createdAt) (jobsOf s version)
      have hanswer := (hsame (.ok (.exportJobs (rows.map jobOut) rows.length))).mp
        (by simp only [listExportJobs, hversion]; exact ⟨rows, hrows, rfl⟩)
      simp only [listExportJobs, hversion] at hanswer
      obtain ⟨rows', hrows', he⟩ := hanswer
      have hequal : rows = rows' := by
        injection he with he
        injection he with hitems _
        exact List.map_injective_iff.mpr jobOut_injective hitems
      subst hequal
      have hperm := hrows.perm.symm.trans hrows'.perm
      have hmem := hperm.mem_iff (a := (id, job))
      simpa only [jobsOf, List.mem_filter, OrderedDict.mem_items, (hreads id job).mp hread, and_true] using hmem
    · intro hforeign answer
      have hperm : (jobsOf s version).Perm (jobsOf t version) :=
        perm_filter fun id job hall => same_job_iff h hforeign ((hreads id job).mpr hall)
      simp only [listExportJobs, hversion, newestFirst_congr hperm]

theorem getExportJob_iff (h : AgreeOn P s t) (jobId : Uuid) :
    (∀ answer : Except HttpError (Response τ ι), answer = getExportJob s jobId ↔ answer = getExportJob t jobId) ↔
      ForeignJobsAgree P s t (.getExportJob jobId) := by
  constructor
  · rintro hsame id job rfl -
    have he : (getExportJob s id : Except HttpError (Response τ ι)) = getExportJob t id := (hsame _).mp rfl
    rw [getExportJob, getExportJob] at he
    cases hs : s.exportJobs.get? id with
    | none =>
      cases ht : t.exportJobs.get? id with
      | none => exact Iff.rfl
      | some job' =>
        rw [hs, ht] at he
        cases he
    | some job' =>
      cases ht : t.exportJobs.get? id with
      | none =>
        rw [hs, ht] at he
        cases he
      | some job'' =>
        rw [hs, ht] at he
        injection he with he
        injection he with hout
        have hjob : job' = job'' := (Prod.ext_iff.mp (jobOut_injective hout)).2
        rw [hjob]
  · intro hforeign answer
    have hget : s.exportJobs.get? jobId = t.exportJobs.get? jobId := by
      ext job
      exact same_job_iff h hforeign rfl
    rw [getExportJob, getExportJob, hget]

theorem same_answers_iff (h : AgreeOn P s t) (huser : Uuid.parse user.projectId = some P) (request : Request) :
    (∀ answer : Except HttpError (Response τ ι),
        Answers svc s user request answer ↔ Answers svc t user request answer) ↔
      ForeignJobsAgree P s t request := by
  have hproject : parseId user.projectId = .ok P := by rw [parseId, huser]
  have hnone : (∀ id job, ¬ request.reads id job) → ForeignJobsAgree P s t request :=
    fun hreads id job hread => absurd hread (hreads id job)
  cases request with
  | listEpisodes query =>
    refine iff_of_true ?_ (hnone fun _ _ => id)
    intro answer
    simp only [Answers]
    exact listEpisodes_congr h hproject query
  | getEpisodeDetail episodeId =>
    refine iff_of_true ?_ (hnone fun _ _ => id)
    intro answer
    simp only [Answers]
    exact getEpisodeDetail_congr h hproject episodeId
  | getStreamToken episodeId now =>
    refine iff_of_true ?_ (hnone fun _ _ => id)
    intro answer
    rw [Answers, Answers, getStreamToken_congr h hproject]
  | getFrame episodeId topic timestamp =>
    refine iff_of_true ?_ (hnone fun _ _ => id)
    intro answer
    rw [Answers, Answers, getFrame_congr h hproject]
  | listDatasets =>
    refine iff_of_true ?_ (hnone fun _ _ => id)
    intro answer
    simp only [Answers]
    exact listDatasets_congr h hproject
  | listVersions datasetId =>
    refine iff_of_true ?_ (hnone fun _ _ => id)
    intro answer
    simp only [Answers]
    exact listVersions_congr h hproject datasetId
  | listExportJobs versionId => exact listExportJobs_iff h versionId
  | getExportJob jobId => exact getExportJob_iff h jobId

def ownDataset : Dataset := ⟨⟨1⟩, "pick and place", none, "draft", none, some 0⟩

def foreignDataset : Dataset := ⟨⟨2⟩, "kitchen", none, "draft", none, some 0⟩

def foreignVersion : DatasetVersion := ⟨⟨20⟩, "v1", .arr [], some 0, some 0, true, none, some 0⟩

def foreignJob : ExportJob :=
  ⟨⟨21⟩, "raw", "exports", none, "completed", some 100, some "http://minio/exports/kitchen/manifest.json", none, none,
    none, some 0, none⟩

def ownDatasets : OrderedDict Uuid Dataset := OrderedDict.empty.append ⟨10⟩ ownDataset List.not_mem_nil

def ownState : Database :=
  ⟨OrderedDict.empty, OrderedDict.empty, ownDatasets, OrderedDict.empty, OrderedDict.empty⟩

theorem fresh_foreignDataset : (⟨20⟩ : Uuid) ∉ ownDatasets.keys := by decide

def sharedState : Database where
  episodes := OrderedDict.empty
  topics := OrderedDict.empty
  datasets := ownDatasets.append ⟨20⟩ foreignDataset fresh_foreignDataset
  versions := OrderedDict.empty.append ⟨21⟩ foreignVersion List.not_mem_nil
  exportJobs := OrderedDict.empty.append ⟨22⟩ foreignJob List.not_mem_nil

theorem agreeOn_sharedState : AgreeOn ⟨1⟩ ownState sharedState := by
  have hdatasets : ∀ id ds, DatasetOf ⟨1⟩ ownState id ds ↔ DatasetOf ⟨1⟩ sharedState id ds := by
    intro id ds
    have hget : sharedState.datasets.get? id = if id = ⟨20⟩ then some foreignDataset else ownDatasets.get? id :=
      OrderedDict.get?_append _ _ _ _ fresh_foreignDataset
    rw [DatasetOf, DatasetOf, hget]
    split_ifs with hid
    · subst hid
      constructor
      · rintro ⟨hds, -⟩
        cases hds
      · rintro ⟨hds, hproject⟩
        cases hds
        cases hproject
    · exact Iff.rfl
  have hversion : ∀ id v, ¬ VersionOf ⟨1⟩ sharedState id v := by
    rintro id v ⟨hv, ds, hds⟩
    have hget : sharedState.versions.get? id = if id = ⟨21⟩ then some foreignVersion else none :=
      OrderedDict.get?_append _ _ _ _ List.not_mem_nil
    rw [hget] at hv
    split_ifs at hv
    cases hv
    cases hds.1
    cases hds.2
  refine ⟨fun _ _ => Iff.rfl, fun _ _ => Iff.rfl, hdatasets, fun id v => ?_, fun id job => ?_⟩
  · refine iff_of_false ?_ (hversion id v)
    rintro ⟨hv, -⟩
    cases hv
  · refine iff_of_false ?_ ?_
    · rintro ⟨hjob, -⟩
      cases hjob
    · rintro ⟨-, v, hv⟩
      exact hversion _ v hv

def memberOfFirst : CurrentUser := ⟨"00000000-0000-0000-0000-000000000003", "00000000-0000-0000-0000-000000000001"⟩

def plainService : Service (Accounts.Payload × String) (List UInt8) :=
  ⟨Accounts.plainJwt, "secret", 3600, fun _ _ => true, fun _ _ _ _ => .error internalError⟩

theorem same_answers_iff_listDatasets :
    (∀ answer, Answers plainService ownState memberOfFirst .listDatasets answer ↔
      Answers plainService sharedState memberOfFirst .listDatasets answer) ↔
        ForeignJobsAgree ⟨1⟩ ownState sharedState .listDatasets :=
  same_answers_iff agreeOn_sharedState (by decide +kernel) .listDatasets

theorem foreign_job_listed :
    (AgreeOn ⟨1⟩ ownState sharedState ∧ Uuid.parse memberOfFirst.projectId = some ⟨1⟩) ∧
      ¬ ∀ answer, Answers plainService ownState memberOfFirst (.listExportJobs none) answer ↔
        Answers plainService sharedState memberOfFirst (.listExportJobs none) answer := by
  refine ⟨⟨agreeOn_sharedState, by decide +kernel⟩, fun hsame => ?_⟩
  have hlisted : Answers plainService sharedState memberOfFirst (.listExportJobs none)
      (.ok (.exportJobs [jobOut (⟨22⟩, foreignJob)] 1)) :=
    ⟨[(⟨22⟩, foreignJob)], ⟨List.Perm.refl _, List.pairwise_singleton _ _⟩, rfl⟩
  obtain ⟨rows, hrows, he⟩ := (hsame _).mpr hlisted
  rw [hrows.perm.eq_nil] at he
  injection he with he
  injection he with hitems
  cases hitems

end Isolation

end Embedai.DatasetReads
