import Mathlib.Algebra.BigOperators.Group.List.Basic
import Mathlib.Data.List.Dedup
import Mathlib.Data.List.Perm.Subperm
import Embedai.DatasetVersions
import Embedai.TransitionSystems

namespace Embedai.DatasetService

open Handlers TransitionSystems

structure Catalog where
  db : Database
  topics : OrderedDict Uuid Uuid
  uploadSessions : OrderedDict Uuid Uuid
  annotationTasks : OrderedDict Uuid (Option Uuid)

def insertDataset (id : Uuid) (ds : Dataset) (c : Catalog) : Option (Unit × Catalog) :=
  if h : id ∈ c.db.datasets.keys then none
  else some ((), { c with db := { c.db with datasets := c.db.datasets.append id ds h } })

def createDataset (user : CurrentUser) (newId : Uuid) (commits : Bool) : Handler Catalog HttpError Dataset := do
  let projectId ← require (parseId user.projectId)
  let _ ← require (parseId user.userId)
  attempt (!commits) internalError (insertDataset newId ⟨projectId⟩)
  return ⟨projectId⟩

inductive PatchResponse
  | immutable
  | unchanged (version : DatasetVersion)

def patchResponse (version : DatasetVersion) : PatchResponse :=
  if version.isImmutable then .immutable else .unchanged version

def patchVersion (versionId : Uuid) (commits : Bool) : Handler Catalog HttpError PatchResponse := do
  let c ← get
  let version ← require (orRaise ⟨404, "version not found"⟩ (c.db.versions.get? versionId))
  match patchResponse version with
  | .immutable => return .immutable
  | .unchanged version =>
    require (if commits then .ok () else .error internalError)
    return .unchanged version

def checkEpisode (db : Database) (episodeId projectId : Uuid) : Except HttpError Unit :=
  match db.episodes.get? episodeId with
  | some ep => if ep.projectId = projectId then .ok () else .error ⟨404, "episode not found"⟩
  | none => .error ⟨404, "episode not found"⟩

/-- Topics go with their episode; every other reference to an episode restricts its deletion. -/
def Catalog.Referenced (c : Catalog) (episodeId : Uuid) : Prop :=
  (∃ row ∈ c.db.annotations.values, row.episodeId = episodeId) ∨ episodeId ∈ c.uploadSessions.values ∨
    some episodeId ∈ c.annotationTasks.values

instance (c : Catalog) (episodeId : Uuid) : Decidable (c.Referenced episodeId) :=
  inferInstanceAs (Decidable (_ ∨ _ ∨ _))

def Catalog.withoutEpisode (c : Catalog) (episodeId : Uuid) : Catalog :=
  { c with
    db := { c.db with episodes := c.db.episodes.erase episodeId }
    topics := ⟨c.topics.items.filter (fun p => p.2 ≠ episodeId), c.topics.nodup.sublist (List.filter_sublist.map _)⟩ }

def removeEpisode (episodeId : Uuid) (c : Catalog) : Option (Unit × Catalog) :=
  if c.Referenced episodeId then none else some ((), c.withoutEpisode episodeId)

def deleteEpisode (episodeId : Uuid) (user : CurrentUser) (commits : Bool) : Handler Catalog HttpError Unit := do
  let projectId ← require (parseId user.projectId)
  let c ← get
  require (checkEpisode c.db episodeId projectId)
  attempt (!commits) internalError (removeEpisode episodeId)

/-- An episode from the gateway, without an upload session when it was streamed or the session could not be created. -/
def arrive (id : Uuid) (ep : Episode) (sessionId : Option Uuid) (c : Catalog) : Catalog :=
  if h : id ∈ c.db.episodes.keys then c
  else
    { c with
      db := { c.db with episodes := c.db.episodes.append id ep h }
      uploadSessions := match sessionId with
        | some sessionId => c.uploadSessions.set sessionId id
        | none => c.uploadSessions }

inductive Operation
  | createDataset (user : CurrentUser) (newId : Uuid) (commits : Bool)
  | createVersion (datasetId : Uuid) (body : CreateVersionRequest) (user : CurrentUser) (newId : Uuid)
      (now : Timestamp) (commits : Bool)
  | patchVersion (versionId : Uuid) (commits : Bool)
  | deleteEpisode (episodeId : Uuid) (user : CurrentUser) (commits : Bool)
  | arrive (id : Uuid) (ep : Episode) (sessionId : Option Uuid)

def serve (c : Catalog) : Operation → Catalog
  | .createDataset user newId commits => (answer (createDataset user newId commits) c).2
  | .createVersion datasetId body user newId now commits =>
    { c with db := (answer (createVersion datasetId body user newId now commits) c.db).2 }
  | .patchVersion versionId commits => (answer (patchVersion versionId commits) c).2
  | .deleteEpisode episodeId user commits => (answer (deleteEpisode episodeId user commits) c).2
  | .arrive id ep sessionId => arrive id ep sessionId c

def next (c : Catalog) (op : Operation) : Option Catalog := some (serve c op)

def sizeOf (db : Database) (id : Uuid) : ℤ := ((db.episodes.get? id).bind Episode.sizeBytes).getD 0

structure Sound (db : Database) (datasetId : Uuid) (body : CreateVersionRequest) (version : DatasetVersion) : Prop where
  ofDataset : version.datasetId = datasetId
  refs : version.episodeRefs = body.episodeRefs
  episodeCount : version.episodeCount = body.episodeRefs.length
  episodes : ∃ ds ids, db.datasets.get? datasetId = some ds ∧
    body.episodeRefs.mapM (fun ref => Uuid.parse ref.episodeId) = some ids ∧
    (∀ id ∈ ids, ∃ ep, db.episodes.get? id = some ep ∧ ep.projectId = ds.projectId) ∧
    version.totalSizeBytes = (ids.dedup.map (sizeOf db)).sum

variable {c c' : Catalog} {db db' : Database}

theorem mem_foundEpisodes {ids : List Uuid} {projectId id : Uuid} {ep : Episode} :
    (id, ep) ∈ foundEpisodes db ids projectId ↔
      db.episodes.get? id = some ep ∧ id ∈ ids ∧ ep.projectId = projectId := by
  simp [foundEpisodes, OrderedDict.mem_items]

theorem nodup_foundEpisodes (db : Database) (ids : List Uuid) (projectId : Uuid) :
    ((foundEpisodes db ids projectId).map Prod.fst).Nodup :=
  db.episodes.nodup.sublist (List.filter_sublist.map _)

theorem perm_of_found {ids : List Uuid} {projectId : Uuid}
    (h : (foundEpisodes db ids projectId).length = ids.length) :
    ((foundEpisodes db ids projectId).map Prod.fst).Perm ids := by
  have hsubset : (foundEpisodes db ids projectId).map Prod.fst ⊆ ids := by
    intro id hid
    obtain ⟨⟨_, ep⟩, hmem, rfl⟩ := List.mem_map.mp hid
    exact (mem_foundEpisodes.mp hmem).2.1
  apply (List.subperm_of_subset (nodup_foundEpisodes db ids projectId) hsubset).perm_of_length_le
  rw [List.length_map, h]

theorem totalSize_eq_ok {ids : List Uuid} {projectId : Uuid} {size : ℤ}
    (h : totalSize db ids projectId = .ok size) :
    (∀ id ∈ ids, ∃ ep, db.episodes.get? id = some ep ∧ ep.projectId = projectId) ∧
      size = (ids.dedup.map (sizeOf db)).sum := by
  unfold totalSize at h
  split_ifs at h with hnil hfound
  · cases h
    rw [hnil]
    exact ⟨fun _ hid => absurd hid List.not_mem_nil, rfl⟩
  · cases h
    have hperm := perm_of_found (not_not.mp hfound)
    have hnodup : ids.Nodup := hperm.nodup_iff.mp (nodup_foundEpisodes db ids projectId)
    constructor
    · intro id hid
      obtain ⟨⟨_, ep⟩, hmem, rfl⟩ := List.mem_map.mp (hperm.mem_iff.mpr hid)
      obtain ⟨hep, -, hproject⟩ := mem_foundEpisodes.mp hmem
      exact ⟨ep, hep, hproject⟩
    · have hsizes : (foundEpisodes db ids projectId).map (fun p => p.2.sizeBytes.getD 0) =
          ((foundEpisodes db ids projectId).map Prod.fst).map (sizeOf db) := by
        rw [List.map_map]
        apply List.map_congr_left
        rintro ⟨id, ep⟩ hmem
        rw [Function.comp_apply, sizeOf, (mem_foundEpisodes.mp hmem).1]
        rfl
      rw [hsizes, hnodup.dedup]
      exact (hperm.map (sizeOf db)).sum_eq

theorem insertVersion_eq_some {id : Uuid} {version : DatasetVersion} {u : Unit}
    (h : insertVersion id version db = some (u, db')) :
    ∃ hnew, db' = { db with versions := db.versions.append id version hnew } := by
  unfold insertVersion at h
  split_ifs at h with hnew
  cases h
  exact ⟨hnew, rfl⟩

theorem createVersion_ok {datasetId : Uuid} {body : CreateVersionRequest} {user : CurrentUser} {newId : Uuid}
    {now : Timestamp} {commits : Bool} {version : DatasetVersion}
    (h : answer (createVersion datasetId body user newId now commits) db = (.ok version, db')) :
    Sound db datasetId body version ∧
      ∃ hnew, db' = { db with versions := db.versions.append newId version hnew } := by
  simp only [createVersion, answer_bind_eq_ok, answer_require_eq_ok, answer_attempt_eq_ok, answer_get, answer_pure,
    Prod.mk.injEq, Except.ok.injEq, refIds_eq_ok] at h
  obtain ⟨projectId, _, ⟨-, rfl⟩, userId, _, ⟨-, rfl⟩, _, _, ⟨rfl, rfl⟩, _, _, ⟨hds, rfl⟩, ids, _, ⟨hids, rfl⟩, size, _,
    ⟨hsize, rfl⟩, _, _, ⟨-, hinsert⟩, rfl, rfl⟩ := h
  obtain ⟨ds, hget, rfl⟩ := checkDataset_eq_ok.mp hds
  obtain ⟨hfound, htotal⟩ := totalSize_eq_ok hsize
  exact ⟨⟨rfl, rfl, rfl, ds, ids, hget, hids, hfound, htotal⟩, insertVersion_eq_some hinsert⟩

theorem failsClean_createVersion (datasetId : Uuid) (body : CreateVersionRequest) (user : CurrentUser) (newId : Uuid)
    (now : Timestamp) (commits : Bool) : FailsClean (createVersion datasetId body user newId now commits) := by
  apply FailsClean.bind (reads_require _)
  intro projectId
  apply FailsClean.bind (reads_require _)
  intro userId
  apply FailsClean.bind reads_get
  intro db
  apply FailsClean.bind (reads_require _)
  intro _
  apply FailsClean.bind (reads_require _)
  intro ids
  apply FailsClean.bind (reads_require _)
  intro size
  exact FailsClean.bind_pure (failsClean_attempt _ _ _) _

theorem failsClean_createDataset (user : CurrentUser) (newId : Uuid) (commits : Bool) :
    FailsClean (createDataset user newId commits) := by
  apply FailsClean.bind (reads_require _)
  intro projectId
  apply FailsClean.bind (reads_require _)
  intro userId
  exact FailsClean.bind_pure (failsClean_attempt _ _ _) _

theorem failsClean_deleteEpisode (episodeId : Uuid) (user : CurrentUser) (commits : Bool) :
    FailsClean (deleteEpisode episodeId user commits) := by
  apply FailsClean.bind (reads_require _)
  intro projectId
  apply FailsClean.bind reads_get
  intro c
  apply FailsClean.bind (reads_require _)
  intro _
  exact failsClean_attempt _ _ _

theorem reads_patchVersion (versionId : Uuid) (commits : Bool) : Reads (patchVersion versionId commits) := by
  apply Reads.bind reads_get
  intro c
  apply Reads.bind (reads_require _)
  intro version
  cases patchResponse version with
  | immutable => exact reads_pure _
  | unchanged version => exact (reads_require _).bind (fun _ => reads_pure _)

inductive Step (c : Catalog) : Operation → Catalog → Prop
  | unchanged {op} : Step c op c
  | datasetCreated {user newId commits} (ds : Dataset) (hnew : newId ∉ c.db.datasets.keys) :
      Step c (.createDataset user newId commits)
        { c with db := { c.db with datasets := c.db.datasets.append newId ds hnew } }
  | versionCreated {datasetId body user newId now commits version} (hnew : newId ∉ c.db.versions.keys)
      (haccepted : (answer (createVersion datasetId body user newId now commits) c.db).1 = .ok version)
      (hsound : Sound c.db datasetId body version) :
      Step c (.createVersion datasetId body user newId now commits)
        { c with db := { c.db with versions := c.db.versions.append newId version hnew } }
  | episodeDeleted {episodeId user ep} (hep : c.db.episodes.get? episodeId = some ep)
      (hproject : Uuid.parse user.projectId = some ep.projectId) (hfree : ¬ c.Referenced episodeId) :
      Step c (.deleteEpisode episodeId user true) (c.withoutEpisode episodeId)
  | arrived {id ep sessionId c'} (hnew : id ∉ c.db.episodes.keys)
      (hdb : c'.db = { c.db with episodes := c.db.episodes.append id ep hnew }) : Step c (.arrive id ep sessionId) c'

theorem checkEpisode_eq_ok {episodeId projectId : Uuid} {u : Unit} :
    checkEpisode db episodeId projectId = .ok u ↔
      ∃ ep, db.episodes.get? episodeId = some ep ∧ ep.projectId = projectId := by
  unfold checkEpisode
  cases db.episodes.get? episodeId with
  | none => simp
  | some ep =>
    by_cases h : ep.projectId = projectId
    · simp [h]
    · simp [h]

theorem deleteEpisode_eq_ok {episodeId : Uuid} {user : CurrentUser} {commits : Bool} {u : Unit} :
    answer (deleteEpisode episodeId user commits) c = (.ok u, c') ↔
      ∃ ep, c.db.episodes.get? episodeId = some ep ∧ Uuid.parse user.projectId = some ep.projectId ∧ commits = true ∧
        ¬ c.Referenced episodeId ∧ c' = c.withoutEpisode episodeId := by
  simp only [deleteEpisode, answer_bind_eq_ok, answer_require_eq_ok, answer_attempt_eq_ok, answer_get, parseId_eq_ok,
    Prod.mk.injEq, Except.ok.injEq, checkEpisode_eq_ok, removeEpisode]
  constructor
  · rintro ⟨projectId, _, ⟨hproject, rfl⟩, _, _, ⟨rfl, rfl⟩, _, _, ⟨⟨ep, hep, rfl⟩, rfl⟩, hcommits, hremove⟩
    split_ifs at hremove with hfree
    cases hremove
    exact ⟨ep, hep, hproject, by simpa using hcommits, hfree, rfl⟩
  · rintro ⟨ep, hep, hproject, rfl, hfree, rfl⟩
    exact ⟨ep.projectId, c, ⟨hproject, rfl⟩, c, c, ⟨rfl, rfl⟩, (), c, ⟨⟨ep, hep, rfl⟩, rfl⟩, rfl, if_neg hfree⟩

theorem createDataset_ok {user : CurrentUser} {newId : Uuid} {commits : Bool} {ds : Dataset}
    (h : answer (createDataset user newId commits) c = (.ok ds, c')) :
    ∃ hnew, c' = { c with db := { c.db with datasets := c.db.datasets.append newId ds hnew } } := by
  simp only [createDataset, answer_bind_eq_ok, answer_require_eq_ok, answer_attempt_eq_ok, answer_pure,
    Prod.mk.injEq, Except.ok.injEq, insertDataset] at h
  obtain ⟨projectId, _, ⟨-, rfl⟩, _, _, ⟨-, rfl⟩, _, _, ⟨-, hinsert⟩, rfl, rfl⟩ := h
  split_ifs at hinsert with hnew
  cases hinsert
  exact ⟨hnew, rfl⟩

theorem step_serve (c : Catalog) (op : Operation) : Step c op (serve c op) := by
  cases op with
  | createDataset user newId commits =>
    rw [serve]
    cases h : answer (createDataset user newId commits) c with
    | mk r c' =>
      cases r with
      | error e =>
        rw [failsClean_createDataset user newId commits c c' e h]
        exact .unchanged
      | ok ds =>
        obtain ⟨hnew, rfl⟩ := createDataset_ok h
        exact .datasetCreated ds hnew
  | createVersion datasetId body user newId now commits =>
    rw [serve]
    cases h : answer (createVersion datasetId body user newId now commits) c.db with
    | mk r db' =>
      cases r with
      | error e =>
        rw [failsClean_createVersion datasetId body user newId now commits c.db db' e h]
        exact .unchanged
      | ok version =>
        obtain ⟨hsound, hnew, rfl⟩ := createVersion_ok h
        exact .versionCreated hnew (congrArg Prod.fst h) hsound
  | patchVersion versionId commits =>
    rw [serve, reads_patchVersion versionId commits c]
    exact .unchanged
  | deleteEpisode episodeId user commits =>
    rw [serve]
    cases h : answer (deleteEpisode episodeId user commits) c with
    | mk r c' =>
      cases r with
      | error e =>
        rw [failsClean_deleteEpisode episodeId user commits c c' e h]
        exact .unchanged
      | ok u =>
        obtain ⟨ep, hep, hproject, rfl, hfree, rfl⟩ := deleteEpisode_eq_ok.mp h
        exact .episodeDeleted hep hproject hfree
  | arrive id ep sessionId =>
    rw [serve]
    unfold arrive
    split_ifs with hnew
    · exact .unchanged
    · exact .arrived hnew rfl

theorem step_of_next {op : Operation} (h : next c op = some c') : Step c op c' := by
  cases h
  exact step_serve c op

theorem version_kept {op : Operation} {id : Uuid} {version : DatasetVersion} (h : Step c op c')
    (hv : c.db.versions.get? id = some version) : c'.db.versions.get? id = some version := by
  cases h with
  | unchanged => exact hv
  | datasetCreated ds hnew => exact hv
  | versionCreated hnew haccepted hsound =>
    rw [OrderedDict.get?_append, if_neg, hv]
    rintro rfl
    exact hnew (OrderedDict.mem_keys.mpr ⟨version, hv⟩)
  | episodeDeleted hep hproject hfree => exact hv
  | arrived hnew hdb =>
    rw [hdb]
    exact hv

theorem version_kept_run {operations : List Operation} {id : Uuid} {version : DatasetVersion}
    (h : run next c operations = some c') (hv : c.db.versions.get? id = some version) :
    c'.db.versions.get? id = some version :=
  invariant_run (fun c => c.db.versions.get? id = some version) (fun _ _ _ hc hn => version_kept (step_of_next hn) hc)
    hv h

def AcceptedIn (c : Catalog) (operations : List Operation) (id : Uuid) (version : DatasetVersion) : Prop :=
  ∃ before after c' datasetId body user now commits,
    operations = before ++ .createVersion datasetId body user id now commits :: after ∧
    run next c before = some c' ∧
    (answer (createVersion datasetId body user id now commits) c'.db).1 = .ok version ∧
    Sound c'.db datasetId body version

theorem AcceptedIn.concat {operations : List Operation} {id : Uuid} {version : DatasetVersion}
    (h : AcceptedIn c operations id version) (op : Operation) : AcceptedIn c (operations ++ [op]) id version := by
  obtain ⟨before, after, c', datasetId, body, user, now, commits, rfl, hrest⟩ := h
  exact ⟨before, after ++ [op], c', datasetId, body, user, now, commits, by simp, hrest⟩

theorem new_version_step {op : Operation} {id : Uuid} {version : DatasetVersion} (h : Step c op c')
    (hnone : c.db.versions.get? id = none) (hv : c'.db.versions.get? id = some version) :
    ∃ datasetId body user now commits, op = .createVersion datasetId body user id now commits ∧
      (answer (createVersion datasetId body user id now commits) c.db).1 = .ok version ∧
      Sound c.db datasetId body version := by
  have hother : c.db.versions.get? id ≠ some version := by
    rw [hnone]
    exact (Option.some_ne_none version).symm
  cases h with
  | unchanged => exact absurd hv hother
  | datasetCreated ds hnew => exact absurd hv hother
  | @versionCreated datasetId body user newId now commits created hnew haccepted hsound =>
    rw [OrderedDict.get?_append] at hv
    split_ifs at hv with hid
    · cases hv
      subst hid
      exact ⟨datasetId, body, user, now, commits, rfl, haccepted, hsound⟩
    · exact absurd hv hother
  | episodeDeleted hep hproject hfree => exact absurd hv hother
  | arrived hnew hdb =>
    rw [hdb] at hv
    exact absurd hv hother

theorem accepted_step {operations : List Operation} {op : Operation} {d d' : Catalog}
    (hrun : run next c operations = some d) (hstep : Step d op d')
    (hd : ∀ id version, d.db.versions.get? id = some version → AcceptedIn c operations id version) :
    ∀ id version, d'.db.versions.get? id = some version → AcceptedIn c (operations ++ [op]) id version := by
  intro id version hv
  cases hbefore : d.db.versions.get? id with
  | some found =>
    have hkept := version_kept hstep hbefore
    rw [hv, Option.some.injEq] at hkept
    exact (hd id version (hkept ▸ hbefore)).concat op
  | none =>
    obtain ⟨datasetId, body, user, now, commits, rfl, haccepted, hsound⟩ := new_version_step hstep hbefore hv
    exact ⟨operations, [], d, datasetId, body, user, now, commits, rfl, hrun, haccepted, hsound⟩

theorem accepted_run {operations : List Operation} (hempty : c.db.versions.items = [])
    (h : run next c operations = some c') :
    ∀ id version, c'.db.versions.get? id = some version → AcceptedIn c operations id version := by
  have hhistory : run next c operations = some c' ∧
      ∀ id version, c'.db.versions.get? id = some version → AcceptedIn c operations id version := by
    apply history_run (fun operations d => run next c operations = some d ∧
      ∀ id version, d.db.versions.get? id = some version → AcceptedIn c operations id version) _ _ h
    · rintro operations d op d' ⟨hrun, hd⟩ hnext
      exact ⟨run_concat.mpr ⟨d, hrun, hnext⟩, accepted_step hrun (step_of_next hnext) hd⟩
    · refine ⟨rfl, fun id version hv => ?_⟩
      have hmem := OrderedDict.mem_items.mpr hv
      rw [hempty] at hmem
      cases hmem
  exact hhistory.2

theorem versions_sound_immutable (c c' : Catalog) (operations : List Operation) (hempty : c.db.versions.items = [])
    (h : run next c operations = some c') :
    (∀ id version, c'.db.versions.get? id = some version → AcceptedIn c operations id version) ∧
      ∀ before d id version, before <+: operations → run next c before = some d →
        d.db.versions.get? id = some version → c'.db.versions.get? id = some version := by
  refine ⟨accepted_run hempty h, ?_⟩
  rintro before d id version ⟨rest, rfl⟩ hd hv
  obtain ⟨d', hd', hrest⟩ := run_append.mp h
  rw [hd] at hd'
  cases hd'
  exact version_kept_run hrest hv

def emptyCatalog : Catalog :=
  { db := ⟨OrderedDict.empty, OrderedDict.empty, OrderedDict.empty, OrderedDict.empty⟩
    topics := OrderedDict.empty
    uploadSessions := OrderedDict.empty
    annotationTasks := OrderedDict.empty }

def datasetUser : CurrentUser :=
  ⟨"00000000-0000-0000-0000-000000000003", "00000000-0000-0000-0000-000000000002"⟩

def refTo (episodeId : String) : EpisodeRefIn := ⟨episodeId, some 0, none⟩

/-- The row of an upload whose `CreateUploadSession` failed becomes part of a version, and is deleted afterwards. -/
def deletedAfterwards : List Operation :=
  [.createDataset datasetUser ⟨1⟩ true, .arrive ⟨10⟩ ⟨⟨2⟩, none, none⟩ none,
    .createVersion ⟨1⟩ ⟨"v1", [refTo "00000000-0000-0000-0000-00000000000a"]⟩ datasetUser ⟨4⟩ 0 true,
    .patchVersion ⟨4⟩ true, .deleteEpisode ⟨10⟩ datasetUser true]

theorem versions_sound_immutable_deletedAfterwards :
    (run next emptyCatalog deletedAfterwards).isSome ∧ ∀ c, run next emptyCatalog deletedAfterwards = some c →
      (∀ id version, c.db.versions.get? id = some version → AcceptedIn emptyCatalog deletedAfterwards id version) ∧
        ∀ before d id version, before <+: deletedAfterwards → run next emptyCatalog before = some d →
          d.db.versions.get? id = some version → c.db.versions.get? id = some version :=
  ⟨by decide +kernel, fun c h => versions_sound_immutable emptyCatalog c deletedAfterwards rfl h⟩

end Embedai.DatasetService
