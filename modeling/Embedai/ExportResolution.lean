import Embedai.DatasetVersions
import Embedai.ListMaps

namespace Embedai.ExportWorker

open DatasetService Handlers
open ListMaps (exists_mem_mapM)

structure EpisodeRef where
  episodeId : String
  storagePath : String
  clipStart : Option ℚ
  clipEnd : Option ℚ
  annotations : List Json

def optionalFloat : Option ℚ → Json
  | none => .null
  | some value => .float value

def annotationJson (id : Uuid) (anno : Annotation) : Json :=
  .obj [("id", .str id.text), ("time_start", optionalFloat anno.timeStart), ("time_end", optionalFloat anno.timeEnd),
    ("labels", anno.labels), ("version", .int anno.version)]

/-- `{str(row.id): row}.get(key)`. -/
def rowByText {α : Type} (rows : List (Uuid × α)) (key : String) : Option α :=
  (rows.find? (fun p => p.1.text = key)).map Prod.snd

def approvedAnnotations (db : Database) (ids : List Uuid) : List (Uuid × Annotation) :=
  db.annotations.items.filter (fun p => p.2.episodeId ∈ ids ∧ p.2.status = "approved")

def annosByEpisode (rows : List (Uuid × Annotation)) (key : String) : List Json :=
  (rows.filter (fun p => p.2.episodeId.text = key)).map (fun p => annotationJson p.1 p.2)

def resolved (db : Database) (ids : List Uuid) (raw : EpisodeRefIn) : Option EpisodeRef :=
  (rowByText (db.episodes.items.filter (fun p => p.1 ∈ ids)) raw.episodeId).map fun ep =>
    { episodeId := raw.episodeId
      storagePath := ep.storagePath.getD ""
      clipStart := raw.clipStart
      clipEnd := raw.clipEnd
      annotations := annosByEpisode (approvedAnnotations db ids) raw.episodeId }

/-- An id that is not a UUID gives no result; an episode that is not found is left out. -/
def resolveEpisodeRefs (db : Database) (rawRefs : List EpisodeRefIn) : Option (List EpisodeRef) :=
  if rawRefs.isEmpty then some []
  else (rawRefs.mapM (fun raw => Uuid.parse raw.episodeId)).map fun ids => rawRefs.filterMap (resolved db ids)

structure SampleOf (db : Database) (ref : EpisodeRefIn) (sample : EpisodeRef) : Prop where
  clipStart : sample.clipStart = ref.clipStart
  clipEnd : sample.clipEnd = ref.clipEnd
  episode : ∃ id ep, Uuid.parse ref.episodeId = some id ∧ Uuid.parse sample.episodeId = some id ∧
    db.episodes.get? id = some ep ∧ sample.storagePath = ep.storagePath.getD "" ∧
    sample.annotations = (approvedAnnotations db [id]).map (fun p => annotationJson p.1 p.2)

def ResolvesCompletely (db : Database) (refs : List EpisodeRefIn) : Prop :=
  ∃ samples, resolveEpisodeRefs db refs = some samples ∧ List.Forall₂ (SampleOf db) refs samples

def Canonical (ref : EpisodeRefIn) : Prop := ∃ id : Uuid, ref.episodeId = id.text

theorem rowByText_eq_some {db : Database} {ids : List Uuid} {key : String} {ep : Episode} :
    rowByText (db.episodes.items.filter (fun p => p.1 ∈ ids)) key = some ep ↔
      ∃ id ∈ ids, key = id.text ∧ db.episodes.get? id = some ep := by
  rw [rowByText, Option.map_eq_some_iff]
  constructor
  · rintro ⟨⟨id, row⟩, hfind, rfl⟩
    have hmem := List.mem_filter.mp (List.mem_of_find?_eq_some hfind)
    have hkey := List.find?_some hfind
    simp only [decide_eq_true_eq] at hmem hkey
    exact ⟨id, hmem.2, hkey.symm, OrderedDict.mem_items.mp hmem.1⟩
  · rintro ⟨id, hid, rfl, hep⟩
    have hmem : (id, ep) ∈ db.episodes.items.filter (fun p => p.1 ∈ ids) :=
      List.mem_filter.mpr ⟨OrderedDict.mem_items.mpr hep, decide_eq_true hid⟩
    have hsome : ((db.episodes.items.filter (fun p => p.1 ∈ ids)).find? (fun p => p.1.text = id.text)).isSome := by
      rw [List.find?_isSome]
      exact ⟨(id, ep), hmem, decide_eq_true rfl⟩
    obtain ⟨⟨other, row⟩, hfind⟩ := Option.isSome_iff_exists.mp hsome
    have hkey := List.find?_some hfind
    have hrow := List.mem_filter.mp (List.mem_of_find?_eq_some hfind)
    simp only [decide_eq_true_eq] at hkey
    have hother : other = id := Uuid.text_injective hkey
    subst hother
    have hsame := OrderedDict.mem_items.mp hrow.1
    rw [hep, Option.some.injEq] at hsame
    exact ⟨_, hfind, hsame.symm⟩

theorem annosByEpisode_text {db : Database} {ids : List Uuid} {id : Uuid} (h : id ∈ ids) :
    annosByEpisode (approvedAnnotations db ids) id.text =
      (approvedAnnotations db [id]).map (fun p => annotationJson p.1 p.2) := by
  rw [annosByEpisode, approvedAnnotations, approvedAnnotations, List.filter_filter]
  congr 1
  apply List.filter_congr
  intro p _
  simp only [Uuid.text_injective.eq_iff, List.mem_singleton, Bool.decide_and]
  by_cases hp : p.2.episodeId = id
  · simp [hp, h]
  · simp [hp]

theorem resolve_of_parsed {db : Database} {refs : List EpisodeRefIn} {ids : List Uuid}
    (h : refs.mapM (fun ref => Uuid.parse ref.episodeId) = some ids) :
    resolveEpisodeRefs db refs = some (refs.filterMap (resolved db ids)) := by
  unfold resolveEpisodeRefs
  split
  · rename_i hempty
    rw [List.isEmpty_iff.mp hempty]
    rfl
  · rw [h]
    rfl

theorem resolved_isSome {db : Database} {ids : List Uuid} {ref : EpisodeRefIn} (h : (resolved db ids ref).isSome) :
    Canonical ref := by
  rw [resolved, Option.isSome_map] at h
  obtain ⟨ep, hep⟩ := Option.isSome_iff_exists.mp h
  obtain ⟨id, -, hid, -⟩ := rowByText_eq_some.mp hep
  exact ⟨id, hid⟩

theorem resolved_of_text {db : Database} {ids : List Uuid} {ref : EpisodeRefIn} {id : Uuid} {ep : Episode}
    (hid : id ∈ ids) (hep : db.episodes.get? id = some ep) (href : ref.episodeId = id.text) :
    resolved db ids ref = some ⟨id.text, ep.storagePath.getD "", ref.clipStart, ref.clipEnd,
      (approvedAnnotations db [id]).map (fun p => annotationJson p.1 p.2)⟩ := by
  rw [resolved, href, rowByText_eq_some.mpr ⟨id, hid, rfl, hep⟩, Option.map_some, annosByEpisode_text hid]

theorem annotations_of_resolve {db : Database} {refs : List EpisodeRefIn} {samples : List EpisodeRef}
    {sample : EpisodeRef} {value : Json} (h : resolveEpisodeRefs db refs = some samples) (hs : sample ∈ samples)
    (hv : value ∈ sample.annotations) :
    ∃ id anno, db.annotations.get? id = some anno ∧ anno.status = "approved" ∧ value = annotationJson id anno := by
  unfold resolveEpisodeRefs at h
  split at h
  · cases h
    cases hs
  · obtain ⟨ids, -, rfl⟩ := Option.map_eq_some_iff.mp h
    obtain ⟨raw, -, hraw⟩ := List.mem_filterMap.mp hs
    obtain ⟨ep, -, rfl⟩ := Option.map_eq_some_iff.mp hraw
    obtain ⟨⟨id, anno⟩, hmem, rfl⟩ := List.mem_map.mp hv
    have hrow := List.mem_filter.mp (List.mem_filter.mp hmem).1
    exact ⟨id, anno, OrderedDict.mem_items.mp hrow.1, (of_decide_eq_true hrow.2).2, rfl⟩

theorem filterMap_forall₂ {α β : Type} {R : α → β → Prop} {f : α → Option β} {l : List α}
    (h : ∀ a ∈ l, ∃ b, f a = some b ∧ R a b) : List.Forall₂ R l (l.filterMap f) := by
  induction l with
  | nil => exact .nil
  | cons a l ih =>
    obtain ⟨b, hf, hR⟩ := h a (List.mem_cons_self ..)
    rw [List.filterMap_cons_some hf]
    exact .cons hR (ih (fun x hx => h x (List.mem_cons_of_mem _ hx)))

theorem isSome_of_length_filterMap {α β : Type} {f : α → Option β} {l : List α}
    (h : (l.filterMap f).length = l.length) : ∀ a ∈ l, (f a).isSome := by
  induction l with
  | nil =>
    intro a ha
    cases ha
  | cons x l ih =>
    have hle := List.length_filterMap_le f l
    cases hf : f x with
    | none =>
      rw [List.filterMap_cons_none hf, List.length_cons] at h
      omega
    | some b =>
      rw [List.filterMap_cons_some hf, List.length_cons, List.length_cons] at h
      intro a ha
      rcases List.mem_cons.mp ha with rfl | ha
      · rw [hf]
        rfl
      · exact ih (by omega) a ha

theorem resolvesCompletely_iff {db : Database} {refs : List EpisodeRefIn} {ids : List Uuid}
    (h : refs.mapM (fun ref => Uuid.parse ref.episodeId) = some ids)
    (hexist : ∀ ref ∈ refs, ∀ id, Uuid.parse ref.episodeId = some id → id ∈ db.episodes.keys) :
    ResolvesCompletely db refs ↔ ∀ ref ∈ refs, Canonical ref := by
  rw [ResolvesCompletely, resolve_of_parsed h]
  constructor
  · rintro ⟨samples, hsome, hall⟩ ref href
    rw [Option.some.injEq] at hsome
    have hlen := hall.length_eq
    rw [← hsome] at hlen
    exact resolved_isSome (isSome_of_length_filterMap hlen.symm ref href)
  · intro hcanon
    refine ⟨_, rfl, filterMap_forall₂ ?_⟩
    intro ref href
    obtain ⟨id, hid⟩ := hcanon ref href
    have hparse : Uuid.parse ref.episodeId = some id := by rw [hid, Uuid.parse_text]
    obtain ⟨ep, hep⟩ := OrderedDict.mem_keys.mp (hexist ref href id hparse)
    obtain ⟨other, hmem, hother⟩ := exists_mem_mapM h href
    rw [hparse, Option.some.injEq] at hother
    subst hother
    refine ⟨_, resolved_of_text hmem hep hid, rfl, rfl, id, ep, hparse, ?_, hep, rfl, rfl⟩
    exact Uuid.parse_text id

theorem export_complete_iff_canonical (datasetId : Uuid) (body : CreateVersionRequest) (user : CurrentUser)
    (newId : Uuid) (now : Timestamp) (commits : Bool) (db db' : Database) (version : DatasetVersion)
    (hcreate : answer (createVersion datasetId body user newId now commits) db = (.ok version, db'))
    (later : Database)
    (hexist : ∀ ref ∈ body.episodeRefs, ∀ id, Uuid.parse ref.episodeId = some id → id ∈ later.episodes.keys) :
    ResolvesCompletely later version.episodeRefs ↔ ∀ ref ∈ body.episodeRefs, Canonical ref := by
  obtain ⟨hrefs, ids, hids⟩ := refs_of_createVersion hcreate
  rw [hrefs]
  exact resolvesCompletely_iff hids hexist

theorem ten_not_mem_keys : ⟨10⟩ ∉ (OrderedDict.empty : OrderedDict Uuid DatasetService.Episode).keys := List.not_mem_nil

def oneEpisode : Database :=
  { datasets := OrderedDict.empty.append ⟨1⟩ ⟨⟨2⟩⟩ List.not_mem_nil
    episodes := OrderedDict.empty.append ⟨10⟩ ⟨⟨2⟩, some 5, some "episodes/ten/run.mcap"⟩ ten_not_mem_keys
    annotations := OrderedDict.empty
    versions := OrderedDict.empty }

def projectUser : CurrentUser :=
  ⟨"00000000-0000-0000-0000-000000000003", "00000000-0000-0000-0000-000000000002"⟩

def versionOf (episodeId : String) : CreateVersionRequest := ⟨"v1", [⟨episodeId, some 0, some (3 / 2)⟩]⟩

theorem version_created (episodeId : String) (h : Uuid.parse episodeId = some ⟨10⟩) :
    ∃ version db', answer (createVersion ⟨1⟩ (versionOf episodeId) projectUser ⟨4⟩ 0 true) oneEpisode =
      (.ok version, db') := by
  have hproject : Uuid.parse projectUser.projectId = some ⟨2⟩ := by decide +kernel
  have huser : Uuid.parse projectUser.userId = some ⟨3⟩ := by decide +kernel
  have hids : (versionOf episodeId).episodeRefs.mapM (fun ref => Uuid.parse ref.episodeId) = some [⟨10⟩] := by
    rw [versionOf, List.mapM_cons, h]
    rfl
  exact createVersion_accepts 0 hproject huser rfl rfl hids (by decide +kernel) List.not_mem_nil

theorem export_complete_iff_canonical_lowercase :
    ∃ version db', answer (createVersion ⟨1⟩ (versionOf "00000000-0000-0000-0000-00000000000a") projectUser ⟨4⟩ 0 true)
        oneEpisode = (.ok version, db') ∧
      (ResolvesCompletely oneEpisode version.episodeRefs ↔
        ∀ ref ∈ (versionOf "00000000-0000-0000-0000-00000000000a").episodeRefs, Canonical ref) := by
  have hparse : Uuid.parse "00000000-0000-0000-0000-00000000000a" = some ⟨10⟩ := by decide +kernel
  obtain ⟨version, db', h⟩ := version_created _ hparse
  refine ⟨version, db', h, export_complete_iff_canonical _ _ _ _ _ _ _ _ _ h oneEpisode ?_⟩
  intro ref href id hid
  rw [List.mem_singleton.mp href, hparse] at hid
  cases hid
  exact List.mem_singleton_self _

theorem uppercase_ref_skipped :
    ¬ ∀ (datasetId : Uuid) (body : CreateVersionRequest) (user : CurrentUser) (newId : Uuid) (now : Timestamp)
      (commits : Bool) (db db' : Database) (version : DatasetVersion),
      answer (createVersion datasetId body user newId now commits) db = (.ok version, db') →
      ∀ later : Database,
        (∀ ref ∈ body.episodeRefs, ∀ id, Uuid.parse ref.episodeId = some id → id ∈ later.episodes.keys) →
        ResolvesCompletely later version.episodeRefs := by
  intro hall
  have hparse : Uuid.parse "00000000-0000-0000-0000-00000000000A" = some ⟨10⟩ := by decide +kernel
  obtain ⟨version, db', h⟩ := version_created _ hparse
  have hexist : ∀ ref ∈ (versionOf "00000000-0000-0000-0000-00000000000A").episodeRefs, ∀ id,
      Uuid.parse ref.episodeId = some id → id ∈ oneEpisode.episodes.keys := by
    intro ref href id hid
    rw [List.mem_singleton.mp href, hparse] at hid
    cases hid
    exact List.mem_singleton_self _
  have hcomplete := hall _ _ _ _ _ _ _ _ _ h oneEpisode hexist
  obtain ⟨hrefs, ids, hids⟩ := refs_of_createVersion h
  rw [hrefs] at hcomplete
  obtain ⟨id, hid⟩ := (resolvesCompletely_iff hids hexist).mp hcomplete _ (List.mem_singleton_self _)
  have hsame : Uuid.parse "00000000-0000-0000-0000-00000000000A" = some id := by
    rw [← Uuid.parse_text id, ← hid]
  rw [hparse, Option.some.injEq] at hsame
  subst hsame
  exact absurd hid (by decide +kernel)

end Embedai.ExportWorker
