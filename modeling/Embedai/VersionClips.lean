import Embedai.DatasetOperations

namespace Embedai.DatasetService

open Handlers

def InProject (db : Database) (projectId id : Uuid) : Prop :=
  ∃ ep, db.episodes.get? id = some ep ∧ ep.projectId = projectId

instance (db : Database) (projectId id : Uuid) : Decidable (InProject db projectId id) :=
  decidable_of_iff (∃ ep ∈ db.episodes.get? id, ep.projectId = projectId) Iff.rfl

structure TakesValidClips (db : Database) (datasetId : Uuid) (body : CreateVersionRequest) (user : CurrentUser)
    (newId : Uuid) (now : Timestamp) (projectId : Uuid) (ids : List Uuid) : Prop where
  stores : (∀ id ∈ ids, InProject db projectId id) →
    ∃ version hnew, answer (createVersion datasetId body user newId now true) db =
        (.ok version, { db with versions := db.versions.append newId version hnew }) ∧
      version.datasetId = datasetId ∧ version.episodeRefs = body.episodeRefs
  refuses : (∃ detail, answer (createVersion datasetId body user newId now true) db = (.error ⟨422, detail⟩, db)) ↔
    ∃ id ∈ ids, ¬ InProject db projectId id

variable {db : Database} {datasetId projectId userId newId : Uuid} {body : CreateVersionRequest} {user : CurrentUser}
  {ids : List Uuid}

theorem length_foundEpisodes_iff :
    (foundEpisodes db ids projectId).length = ids.length ↔ ids.Nodup ∧ ∀ id ∈ ids, InProject db projectId id := by
  constructor
  · intro h
    have hperm := perm_of_found h
    refine ⟨hperm.nodup_iff.mp (nodup_foundEpisodes db ids projectId), ?_⟩
    intro id hid
    obtain ⟨⟨_, ep⟩, hmem, rfl⟩ := List.mem_map.mp (hperm.mem_iff.mpr hid)
    obtain ⟨hget, -, hproject⟩ := mem_foundEpisodes.mp hmem
    exact ⟨ep, hget, hproject⟩
  · rintro ⟨hnodup, hfound⟩
    have hperm : ((foundEpisodes db ids projectId).map Prod.fst).Perm ids := by
      apply (List.perm_ext_iff_of_nodup (nodup_foundEpisodes db ids projectId) hnodup).mpr
      intro id
      constructor
      · intro hid
        obtain ⟨⟨_, ep⟩, hmem, rfl⟩ := List.mem_map.mp hid
        exact (mem_foundEpisodes.mp hmem).2.1
      · intro hid
        obtain ⟨ep, hget, hproject⟩ := hfound id hid
        exact List.mem_map.mpr ⟨(id, ep), mem_foundEpisodes.mpr ⟨hget, hid, hproject⟩, rfl⟩
    rw [← hperm.length_eq, List.length_map]

theorem totalSize_of_not_found (h : ¬ (ids.Nodup ∧ ∀ id ∈ ids, InProject db projectId id)) :
    totalSize db ids projectId = .error ⟨422, "one or more episode ids not found in this project"⟩ := by
  have hnil : ids ≠ [] := by
    rintro rfl
    exact h ⟨List.nodup_nil, nofun⟩
  rw [totalSize, if_neg hnil, if_pos (mt length_foundEpisodes_iff.mp h)]

section Request

variable {ds : Dataset} (now : Timestamp) (hproject : Uuid.parse user.projectId = some projectId)
  (huser : Uuid.parse user.userId = some userId) (hds : db.datasets.get? datasetId = some ds)
  (howner : ds.projectId = projectId)
  (hids : body.episodeRefs.mapM (fun ref => Uuid.parse ref.episodeId) = some ids)
include hproject huser hds howner hids

theorem createVersion_refuses (h : ¬ (ids.Nodup ∧ ∀ id ∈ ids, InProject db projectId id)) :
    answer (createVersion datasetId body user newId now true) db =
      (.error ⟨422, "one or more episode ids not found in this project"⟩, db) := by
  have hdataset := checkDataset_eq_ok.mpr ⟨ds, hds, howner⟩
  simp only [createVersion, answer_bind, answer_require, answer_get, parseId_eq_ok.mpr hproject,
    parseId_eq_ok.mpr huser, hdataset, refIds_eq_ok.mpr hids, totalSize_of_not_found h]

theorem createVersion_stores (hnew : newId ∉ db.versions.keys) (h : ids.Nodup ∧ ∀ id ∈ ids, InProject db projectId id) :
    ∃ version hnew, answer (createVersion datasetId body user newId now true) db =
        (.ok version, { db with versions := db.versions.append newId version hnew }) ∧
      version.datasetId = datasetId ∧ version.episodeRefs = body.episodeRefs := by
  obtain ⟨version, db', hanswer⟩ :=
    createVersion_accepts now hproject huser hds howner hids (length_foundEpisodes_iff.mpr h) hnew
  obtain ⟨hsound, hfresh, rfl⟩ := createVersion_ok hanswer
  exact ⟨version, hfresh, hanswer, hsound.ofDataset, hsound.refs⟩

theorem takesValidClips_iff (hnew : newId ∉ db.versions.keys) :
    TakesValidClips db datasetId body user newId now projectId ids ↔
      ids.Nodup ∨ ∃ id ∈ ids, ¬ InProject db projectId id := by
  constructor
  · intro h
    by_contra hnot
    push Not at hnot
    obtain ⟨hrepeat, hfound⟩ := hnot
    obtain ⟨version, _, hanswer, -⟩ := h.stores hfound
    rw [createVersion_refuses now hproject huser hds howner hids (fun hall => hrepeat hall.1)] at hanswer
    cases hanswer
  · intro h
    by_cases hfound : ∀ id ∈ ids, InProject db projectId id
    · have hnodup : ids.Nodup := h.resolve_right (by push Not; exact hfound)
      have hstores := createVersion_stores now hproject huser hds howner hids hnew ⟨hnodup, hfound⟩
      refine ⟨fun _ => hstores, ?_⟩
      constructor
      · rintro ⟨detail, hrefused⟩
        obtain ⟨version, _, hanswer, -⟩ := hstores
        rw [hanswer] at hrefused
        cases hrefused
      · rintro ⟨id, hid, hmissing⟩
        exact absurd (hfound id hid) hmissing
    · refine ⟨fun hall => absurd hall hfound, ?_⟩
      constructor
      · intro _
        push Not at hfound
        exact hfound
      · intro _
        exact ⟨_, createVersion_refuses now hproject huser hds howner hids (fun hall => hfound hall.2)⟩

end Request

def oneEpisode : Database where
  datasets := OrderedDict.single ⟨1⟩ ⟨⟨2⟩⟩
  episodes := OrderedDict.single ⟨10⟩ ⟨⟨2⟩, some 5, some "episodes/ten/run.mcap"⟩
  annotations := OrderedDict.empty
  versions := OrderedDict.empty

def clip (start finish : ℚ) : EpisodeRefIn := ⟨"00000000-0000-0000-0000-00000000000a", some start, some finish⟩

theorem parse_datasetUser : Uuid.parse datasetUser.userId = some ⟨3⟩ := by decide +kernel

theorem get?_oneEpisode : oneEpisode.datasets.get? ⟨1⟩ = some ⟨⟨2⟩⟩ := rfl

theorem takesValidClips_oneClip :
    TakesValidClips oneEpisode ⟨1⟩ ⟨"v1", [clip 0 5]⟩ datasetUser ⟨4⟩ 0 ⟨2⟩ [⟨10⟩] ↔
      [(⟨10⟩ : Uuid)].Nodup ∨ ∃ id ∈ [(⟨10⟩ : Uuid)], ¬ InProject oneEpisode ⟨2⟩ id :=
  takesValidClips_iff 0 (by decide +kernel) parse_datasetUser get?_oneEpisode rfl (by decide +kernel) (by decide)

theorem two_clips_refused : ¬ TakesValidClips oneEpisode ⟨1⟩ ⟨"v1", [clip 0 5, clip 10 15]⟩ datasetUser ⟨4⟩ 0 ⟨2⟩
    [⟨10⟩, ⟨10⟩] := by
  intro h
  obtain ⟨version, _, hanswer, -⟩ := h.stores (by decide)
  have hids : [clip 0 5, clip 10 15].mapM (fun ref => Uuid.parse ref.episodeId) = some [⟨10⟩, ⟨10⟩] := by
    decide +kernel
  rw [createVersion_refuses 0 (by decide +kernel) parse_datasetUser get?_oneEpisode rfl hids (by decide)] at hanswer
  cases hanswer

end Embedai.DatasetService
