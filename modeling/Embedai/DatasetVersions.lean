import Mathlib.Algebra.Ring.Int.Defs
import Embedai.Handlers
import Embedai.Json
import Embedai.OrderedDict
import Embedai.Uuid

namespace Embedai.DatasetService

open Handlers

abbrev Timestamp := ℤ

structure Dataset where
  projectId : Uuid

structure Episode where
  projectId : Uuid
  sizeBytes : Option ℤ
  storagePath : Option String

structure EpisodeRefIn where
  episodeId : String
  clipStart : Option ℚ
  clipEnd : Option ℚ

structure DatasetVersion where
  datasetId : Uuid
  versionTag : String
  episodeRefs : List EpisodeRefIn
  episodeCount : ℕ
  totalSizeBytes : ℤ
  isImmutable : Bool
  createdBy : Uuid
  createdAt : Timestamp

structure Annotation where
  episodeId : Uuid
  timeStart : Option ℚ
  timeEnd : Option ℚ
  labels : Json
  version : ℤ
  status : String

structure Database where
  datasets : OrderedDict Uuid Dataset
  episodes : OrderedDict Uuid Episode
  annotations : OrderedDict Uuid Annotation
  versions : OrderedDict Uuid DatasetVersion

structure HttpError where
  status : ℕ
  detail : String

def internalError : HttpError := ⟨500, "Internal Server Error"⟩

structure CurrentUser where
  userId : String
  projectId : String

structure CreateVersionRequest where
  versionTag : String
  episodeRefs : List EpisodeRefIn

def parseId (text : String) : Except HttpError Uuid :=
  match Uuid.parse text with
  | some id => .ok id
  | none => .error internalError

def refIds (refs : List EpisodeRefIn) : Except HttpError (List Uuid) :=
  match refs.mapM (fun ref => Uuid.parse ref.episodeId) with
  | some ids => .ok ids
  | none => .error internalError

def checkDataset (db : Database) (datasetId projectId : Uuid) : Except HttpError Unit :=
  match db.datasets.get? datasetId with
  | some ds => if ds.projectId = projectId then .ok () else .error ⟨404, "dataset not found"⟩
  | none => .error ⟨404, "dataset not found"⟩

def foundEpisodes (db : Database) (ids : List Uuid) (projectId : Uuid) : List (Uuid × Episode) :=
  db.episodes.items.filter (fun p => p.1 ∈ ids ∧ p.2.projectId = projectId)

def totalSize (db : Database) (ids : List Uuid) (projectId : Uuid) : Except HttpError ℤ :=
  if ids = [] then .ok 0
  else if (foundEpisodes db ids projectId).length ≠ ids.length then
    .error ⟨422, "one or more episode ids not found in this project"⟩
  else .ok ((foundEpisodes db ids projectId).map (fun p => p.2.sizeBytes.getD 0)).sum

def insertVersion (id : Uuid) (version : DatasetVersion) (db : Database) : Option (Unit × Database) :=
  if h : id ∈ db.versions.keys then none
  else some ((), { db with versions := db.versions.append id version h })

/-- `commits` says whether the database takes the commit. -/
def createVersion (datasetId : Uuid) (body : CreateVersionRequest) (user : CurrentUser) (newId : Uuid) (now : Timestamp)
    (commits : Bool) : Handler Database HttpError DatasetVersion := do
  let projectId ← require (parseId user.projectId)
  let userId ← require (parseId user.userId)
  let db ← get
  require (checkDataset db datasetId projectId)
  let ids ← require (refIds body.episodeRefs)
  let size ← require (totalSize db ids projectId)
  let version : DatasetVersion :=
    { datasetId
      versionTag := body.versionTag
      episodeRefs := body.episodeRefs
      episodeCount := body.episodeRefs.length
      totalSizeBytes := size
      isImmutable := true
      createdBy := userId
      createdAt := now }
  attempt (!commits) internalError (insertVersion newId version)
  return version

theorem parseId_eq_ok {text : String} {id : Uuid} : parseId text = .ok id ↔ Uuid.parse text = some id := by
  unfold parseId
  cases Uuid.parse text <;> simp

theorem checkDataset_eq_ok {db : Database} {datasetId projectId : Uuid} :
    checkDataset db datasetId projectId = .ok () ↔
      ∃ ds, db.datasets.get? datasetId = some ds ∧ ds.projectId = projectId := by
  unfold checkDataset
  cases db.datasets.get? datasetId with
  | none => simp
  | some ds =>
    by_cases h : ds.projectId = projectId
    · simp [h]
    · simp [h]

theorem refIds_eq_ok {refs : List EpisodeRefIn} {ids : List Uuid} :
    refIds refs = .ok ids ↔ refs.mapM (fun ref => Uuid.parse ref.episodeId) = some ids := by
  unfold refIds
  split <;> simp [*]

theorem refs_of_createVersion {datasetId : Uuid} {body : CreateVersionRequest} {user : CurrentUser} {newId : Uuid}
    {now : Timestamp} {commits : Bool} {db db' : Database} {version : DatasetVersion}
    (h : answer (createVersion datasetId body user newId now commits) db = (.ok version, db')) :
    version.episodeRefs = body.episodeRefs ∧
      ∃ ids, body.episodeRefs.mapM (fun ref => Uuid.parse ref.episodeId) = some ids := by
  simp only [createVersion, answer_bind_eq_ok, answer_require_eq_ok, answer_attempt_eq_ok, answer_get, answer_pure,
    Prod.mk.injEq, Except.ok.injEq, refIds_eq_ok] at h
  obtain ⟨_, _, -, _, _, -, _, _, ⟨rfl, rfl⟩, _, _, -, ids, _, ⟨hids, -⟩, _, _, -, _, _, -, rfl, -⟩ := h
  exact ⟨rfl, ids, hids⟩

theorem totalSize_of_found {db : Database} {ids : List Uuid} {projectId : Uuid}
    (h : (foundEpisodes db ids projectId).length = ids.length) : ∃ size, totalSize db ids projectId = .ok size := by
  unfold totalSize
  split_ifs with hnil hfound
  · exact ⟨0, rfl⟩
  · exact absurd h hfound
  · exact ⟨_, rfl⟩

theorem createVersion_accepts {datasetId projectId userId newId : Uuid} {body : CreateVersionRequest}
    {user : CurrentUser} {ds : Dataset} {ids : List Uuid} {db : Database} (now : Timestamp)
    (hproject : Uuid.parse user.projectId = some projectId) (huser : Uuid.parse user.userId = some userId)
    (hds : db.datasets.get? datasetId = some ds) (howner : ds.projectId = projectId)
    (hids : body.episodeRefs.mapM (fun ref => Uuid.parse ref.episodeId) = some ids)
    (hfound : (foundEpisodes db ids projectId).length = ids.length) (hnew : newId ∉ db.versions.keys) :
    ∃ version db', answer (createVersion datasetId body user newId now true) db = (.ok version, db') := by
  obtain ⟨size, hsize⟩ := totalSize_of_found hfound
  have hdataset := checkDataset_eq_ok.mpr ⟨ds, hds, howner⟩
  simp only [createVersion, answer_bind, answer_require, answer_attempt, answer_get, answer_pure,
    parseId_eq_ok.mpr hproject, parseId_eq_ok.mpr huser, hdataset, refIds_eq_ok.mpr hids, hsize, insertVersion,
    dif_neg hnew]
  exact ⟨_, _, rfl⟩

end Embedai.DatasetService
