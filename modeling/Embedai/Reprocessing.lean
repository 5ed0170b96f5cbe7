import Embedai.ProcessingAtomicity
import Embedai.TransitionSystems

namespace Embedai.Pipeline

open Gateway Handlers TracedHandlers TransitionSystems

/-- A message with what the readers make of the files and how the calls for it go. -/
structure Job where
  readers : Readers
  calls : Calls
  msgId : String
  data : List (String × String)

def handleNext (w : World) (job : Job) : Option World :=
  some (answer (handle job.readers job.calls job.msgId job.data) ⟨w, []⟩).2.current

def Linked (id sessionId : String) (w : World) : Prop :=
  ∃ row, w.database.episodes.get? id = some row ∧
    row.metadata.field "recording_session_id" = some (.str sessionId)

def NotCommitted (id : String) (w : World) (job : Job) : Prop :=
  job.data.lookup "episode_id" = some id → ¬ Commits job.readers job.calls id job.data w

section Linking

variable {id other sessionId : String} {w s t : World} {job : Job}

theorem handleNext_without_id (h : job.data.lookup "episode_id" = none) : handleNext w job = some w := by
  unfold handleNext handle
  rw [h]
  rfl

theorem settled_handleNext (hid : job.data.lookup "episode_id" = some id) (h : handleNext w job = some s) :
    Settled job.readers job.calls id job.data w s := by
  cases h
  exact (settled_handle job.readers job.calls job.msgId w hid).2

theorem Unprocessed.get?_of_ne (h : Unprocessed other w s) (hne : id ≠ other) :
    s.database.episodes.get? id = w.database.episodes.get? id := by
  rcases h.database with hdatabase | hdatabase
  · rw [hdatabase]
  · rw [hdatabase, Tables.updateEpisodeStatus, OrderedDict.get?_modify, if_neg hne]

theorem Processed.get?_of_ne {readers : Readers} {calls : Calls} {data : List (String × String)}
    (h : Processed readers calls other data w s) (hne : id ≠ other) :
    s.database.episodes.get? id = w.database.episodes.get? id := by
  obtain ⟨format, content, result, url, rows, -, -, hrows, -, hdatabase⟩ := h.database
  rw [hdatabase, Tables.ready, Tables.markReady, OrderedDict.get?_modify, if_neg hne, (insertAll_rows hrows).1]

theorem Settled.get?_of_ne {readers : Readers} {calls : Calls} {data : List (String × String)}
    (h : Settled readers calls other data w s) (hne : id ≠ other) :
    s.database.episodes.get? id = w.database.episodes.get? id := by
  rcases h with ⟨-, h⟩ | ⟨-, h⟩
  · exact h.get?_of_ne hne
  · exact h.get?_of_ne hne

theorem Linked.of_get? (h : Linked id sessionId w)
    (hsame : s.database.episodes.get? id = w.database.episodes.get? id) : Linked id sessionId s := by
  obtain ⟨row, hrow, hfield⟩ := h
  exact ⟨row, hsame.trans hrow, hfield⟩

theorem Unprocessed.linked (h : Unprocessed id w s) (hlinked : Linked id sessionId w) : Linked id sessionId s := by
  obtain ⟨row, hrow, hfield⟩ := hlinked
  obtain ⟨status, -, hstatus⟩ := (h.untouched hrow).row
  exact ⟨_, hstatus, hfield⟩

theorem field_readyMetadata (detail : QualityDetail) (url : String) (topicCount : ℕ) :
    (readyMetadata detail url topicCount).field "recording_session_id" = none := by
  simp [readyMetadata, Json.field, List.lookup_cons]

theorem Processed.not_linked {readers : Readers} {calls : Calls} {data : List (String × String)}
    (h : Processed readers calls id data w s) (hlinked : Linked id sessionId w) : ¬ Linked id sessionId s := by
  obtain ⟨row, hrow, -⟩ := hlinked
  obtain ⟨-, -, result, url, -, -, hready, -⟩ := (h.madeReady hrow).row
  rintro ⟨row', hrow', hfield⟩
  rw [hready, Option.some.injEq] at hrow'
  subst hrow'
  rw [field_readyMetadata] at hfield
  cases hfield

theorem linked_handleNext (hlinked : Linked id sessionId w) (h : handleNext w job = some s) :
    Linked id sessionId s ↔ NotCommitted id w job := by
  cases hother : job.data.lookup "episode_id" with
  | none =>
    rw [handleNext_without_id hother, Option.some.injEq] at h
    subst h
    refine ⟨fun _ hid => ?_, fun _ => hlinked⟩
    rw [hother] at hid
    cases hid
  | some other =>
    have hsettled := settled_handleNext hother h
    by_cases hid : id = other
    · subst hid
      rcases hsettled with ⟨hnot, hunprocessed⟩ | ⟨hcommits, hprocessed⟩
      · exact ⟨fun _ _ => hnot, fun _ => hunprocessed.linked hlinked⟩
      · constructor
        · exact fun hstill => absurd hstill (hprocessed.not_linked hlinked)
        · exact fun hnot => absurd hcommits (hnot hother)
    · refine ⟨fun _ hsome => ?_, fun _ => hlinked.of_get? (hsettled.get?_of_ne hid)⟩
      rw [hother, Option.some.injEq] at hsome
      exact absurd hsome.symm hid

end Linking

theorem createEpisodeFromStream_links {id projectId filename format sessionId : String} {sizeBytes : ℤ}
    {g g' : Stores} {ep : Episode}
    (hcreated : createEpisodeFromStream id projectId filename format sizeBytes sessionId g = some ((), g'))
    (hep : g'.episodes.get? id = some ep) : ep.metadata = .obj [("recording_session_id", .str sessionId)] := by
  unfold createEpisodeFromStream at hcreated
  split at hcreated
  · cases hcreated
  · rw [Option.some.injEq, Prod.mk.injEq] at hcreated
    obtain ⟨-, rfl⟩ := hcreated
    rw [OrderedDict.get?_append, if_pos rfl, Option.some.injEq] at hep
    rw [← hep]

/-- `w` is any later state of the database in which the row still has the metadata that it was created with. -/
theorem session_link_survives (id projectId filename format sessionId : String) (sizeBytes : ℤ) (g g' : Stores)
    (ep : Episode) (w u : World) (row : EpisodeRow) (jobs : List Job)
    (hcreated : createEpisodeFromStream id projectId filename format sizeBytes sessionId g = some ((), g'))
    (hep : g'.episodes.get? id = some ep) (hrow : w.database.episodes.get? id = some row)
    (hstored : row.metadata = ep.metadata) (hrun : run handleNext w jobs = some u) :
    (∀ before s, before <+: jobs → run handleNext w before = some s → Linked id sessionId s) ↔
      Along handleNext (NotCommitted id) w jobs := by
  have hlinked : Linked id sessionId w := by
    refine ⟨row, hrow, ?_⟩
    rw [hstored, createEpisodeFromStream_links hcreated hep]
    simp [Json.field]
  exact reached_iff_along (p := fun _ => True) (fun s job t hs _ h => linked_handleNext hs h) hlinked
    (fun _ _ => trivial) hrun

/-- With a project, which `sealEpisode` itself leaves out. -/
def streamedEpisode : Episode :=
  { projectId := robotProject
    filename := "stream_s-1_5.bin"
    format := "mcap"
    sizeBytes := 3
    status := .processing
    storagePath := none
    metadata := .obj [("recording_session_id", .str "s-1")] }

def streamedStores : Stores :=
  { emptyStores with episodes := OrderedDict.empty.append "ep-1" streamedEpisode List.not_mem_nil }

theorem streamedStores_created :
    createEpisodeFromStream "ep-1" robotProject "stream_s-1_5.bin" "mcap" 3 "s-1" emptyStores =
      some ((), streamedStores) :=
  rfl

def streamedRow : EpisodeRow :=
  { streamedEpisode with
    storagePath := some "episodes/ep-1/stream.bin"
    durationSeconds := none
    qualityScore := none }

def streamedWorld : World := episodeWorld streamedRow "episodes/ep-1/stream.bin"

def streamedJob (commit : Outcome String) : Job :=
  { readers := flatReaders [cameraTopic]
    calls :=
      { workingCalls (fun _ => "t-1") with outcome := fun c => if c = .commitReady then commit else .ok }
    msgId := "1-0"
    data := episodeEvent "episodes/ep-1/stream.bin" }

theorem session_link_survives_lostConnection :
    (run handleNext streamedWorld [streamedJob (.raises "ConnectionDoesNotExistError")]).isSome ∧
      ∀ before s, before <+: [streamedJob (.raises "ConnectionDoesNotExistError")] →
        run handleNext streamedWorld before = some s → Linked "ep-1" "s-1" s :=
  ⟨rfl, (session_link_survives "ep-1" robotProject "stream_s-1_5.bin" "mcap" "s-1" 3 emptyStores streamedStores
    streamedEpisode streamedWorld _ streamedRow [streamedJob (.raises "ConnectionDoesNotExistError")]
    streamedStores_created rfl rfl rfl rfl).mpr
      ⟨fun _ hcommits => absurd hcommits.commit (by decide), fun _ _ => trivial⟩⟩

theorem processing_unlinks_streamedEpisode :
    createEpisodeFromStream "ep-1" robotProject "stream_s-1_5.bin" "mcap" 3 "s-1" emptyStores =
      some ((), streamedStores) ∧
      streamedStores.episodes.get? "ep-1" = some streamedEpisode ∧
      streamedWorld.database.episodes.get? "ep-1" = some streamedRow ∧
      streamedRow.metadata = streamedEpisode.metadata ∧
      ¬ ∀ before s, before <+: [streamedJob .ok] → run handleNext streamedWorld before = some s →
        Linked "ep-1" "s-1" s := by
  refine ⟨streamedStores_created, rfl, rfl, rfl, fun hlinked => ?_⟩
  have hcommits : Commits (flatReaders [cameraTopic]) (streamedJob .ok).calls "ep-1"
      (episodeEvent "episodes/ep-1/stream.bin") streamedWorld := by
    have hcalls : (streamedJob .ok).calls = workingCalls fun _ => "t-1" := by
      simp [streamedJob, workingCalls]
    rw [hcalls]
    exact commits_episodeWorld rfl _
  have hrun : handleNext streamedWorld (streamedJob .ok) =
      some (answer (handle (flatReaders [cameraTopic]) (streamedJob .ok).calls "1-0" (streamedJob .ok).data)
        ⟨streamedWorld, []⟩).2.current := rfl
  have hid : (streamedJob .ok).data.lookup "episode_id" = some "ep-1" := by decide +kernel
  have hbefore : Linked "ep-1" "s-1" streamedWorld := hlinked [] _ List.nil_prefix rfl
  have hafter := hlinked [streamedJob .ok] _ (List.prefix_refl _) (run_singleton hrun)
  exact (linked_handleNext hbefore hrun).mp hafter hid hcommits

def EpisodeFile (path : String) : Prop := ∃ rest, path = "episodes/" ++ rest

def Succeeds (id : String) (w : World) (job : Job) : Prop :=
  (∀ c, job.calls.outcome c = .ok) ∧ Commits job.readers job.calls id job.data w

structure SameUpToIds (id : String) (s t : World) : Prop where
  row : s.database.episodes.get? id = t.database.episodes.get? id
  topics : s.database.topics.values.Perm t.database.topics.values

def WithoutTopics (readers : Readers) (data : List (String × String)) (w : World) : Prop :=
  ∀ format content episodeMeta, Reads data w format content → readers.extract format content = .ok episodeMeta →
    episodeMeta.topics = []

def EpisodeRow.ready (result : Result) (thumbnailUrl : String) (row : EpisodeRow) : EpisodeRow :=
  { row with
    status := .ready
    durationSeconds := some result.episodeMeta.durationSeconds
    qualityScore := some result.score
    metadata := readyMetadata result.detail thumbnailUrl result.episodeMeta.topics.length }

section Reprocessing

variable {readers : Readers} {id : String} {data : List (String × String)} {path format : String}
  {content : List UInt8} {result : Result} {w s u : World} {job : Job} {jobs : List Job}

theorem EpisodeFile.ne_thumbnailPath (h : EpisodeFile path) (id : String) : path ≠ thumbnailPath id := by
  obtain ⟨rest, rfl⟩ := h
  intro he
  have hhead := congrArg (fun text : String => text.toList.head?) he
  simp [thumbnailPath] at hhead

theorem ready_ready (result : Result) (url : String) (row : EpisodeRow) :
    (row.ready result url).ready result url = row.ready result url := rfl

structure Readied (readers : Readers) (id format : String) (content : List UInt8) (result : Result) (w s : World) :
    Prop where
  row : s.database.episodes.get? id =
    (w.database.episodes.get? id).map (EpisodeRow.ready result (thumbnailUrl readers format content id))
  topics : s.database.topics.values = w.database.topics.values ++ result.episodeMeta.topics.map (⟨id, ·⟩)
  projects : s.database.projects = w.database.projects

theorem readied_handleNext (hid : job.data.lookup "episode_id" = some id) (hreads : Reads job.data w format content)
    (hyields : Yields job.readers id w format content result) (hsucceeds : Succeeds id w job)
    (h : handleNext w job = some s) : Readied job.readers id format content result w s ∧
      ∀ path, path ≠ thumbnailPath id → s.objects path = w.objects path := by
  rcases settled_handleNext hid h with ⟨hnot, -⟩ | ⟨-, hprocessed⟩
  · exact absurd hsucceeds.2 hnot
  · refine ⟨?_, hprocessed.objects⟩
    obtain ⟨format', content', result', url, rows, hreads', hyields', hrows, hurl, hdatabase⟩ := hprocessed.database
    obtain ⟨rfl, rfl⟩ := hreads.unique hreads'
    obtain rfl := hyields.unique hyields'
    obtain ⟨hepisodes, hprojects, hvalues⟩ := insertAll_rows hrows
    have hthumbnail := hurl fun c _ => hsucceeds.1 c
    subst hthumbnail
    refine ⟨?_, ?_, ?_⟩
    · rw [hdatabase, Tables.ready, Tables.markReady, OrderedDict.get?_modify, if_pos rfl, hepisodes]
      rfl
    · rw [hdatabase]
      exact hvalues.trans (congrArg _ (map_zipIdx_topics id result'.episodeMeta.topics))
    · rw [hdatabase]
      exact hprojects

theorem Readied.yields (h : Readied readers id format content result w s)
    (hyields : Yields readers id w format content result) : Yields readers id s format content result := by
  obtain ⟨hextract, schema, hschema, hscore⟩ := hyields
  refine ⟨hextract, schema, ?_, hscore⟩
  rw [Tables.topicSchema, h.row, h.projects, ← hschema, Tables.topicSchema]
  cases w.database.episodes.get? id <;> rfl

theorem Reads.of_objects (h : Reads data w format content) (hpath : data.lookup "storage_path" = some path)
    (hsame : s.objects path = w.objects path) : Reads data s format content := by
  obtain ⟨path', hpath', hcontent⟩ := h.content
  rw [hpath, Option.some.injEq] at hpath'
  subst hpath'
  exact ⟨h.format, path, hpath, hsame.trans hcontent⟩

theorem readied_run (hid : data.lookup "episode_id" = some id) (hpath : data.lookup "storage_path" = some path)
    (hfile : EpisodeFile path) (hne : jobs ≠ []) (hjobs : ∀ job ∈ jobs, job.readers = readers ∧ job.data = data)
    (hreads : Reads data w format content) (hyields : Yields readers id w format content result)
    (hsucceeds : Along handleNext (Succeeds id) w jobs) (hrun : run handleNext w jobs = some u) :
    u.database.episodes.get? id =
        (w.database.episodes.get? id).map (EpisodeRow.ready result (thumbnailUrl readers format content id)) ∧
      u.database.topics.values = w.database.topics.values ++
        (List.replicate jobs.length (result.episodeMeta.topics.map (⟨id, ·⟩))).flatten := by
  induction jobs generalizing w with
  | nil => exact absurd rfl hne
  | cons job jobs ih =>
    obtain ⟨hfirst, hrest⟩ := List.forall_mem_cons.mp hjobs
    obtain ⟨rfl, rfl⟩ := hfirst
    obtain ⟨s, hs, hrun⟩ := run_cons.mp hrun
    obtain ⟨hready, hobjects⟩ := readied_handleNext hid hreads hyields hsucceeds.1 hs
    rw [List.length_cons, List.replicate_succ, List.flatten_cons, ← List.append_assoc, ← hready.topics]
    by_cases hlast : jobs = []
    · subst hlast
      cases hrun
      exact ⟨hready.row, (List.append_nil _).symm⟩
    · have hreads' := hreads.of_objects hpath (hobjects path (hfile.ne_thumbnailPath id))
      obtain ⟨hrow, htopics⟩ := ih hlast hrest hreads' (hready.yields hyields) (hsucceeds.2 s hs) hrun
      have htwice : ∀ url, EpisodeRow.ready result url ∘ EpisodeRow.ready result url = EpisodeRow.ready result url := by
        intro url
        funext row
        exact ready_ready result url row
      refine ⟨?_, htopics⟩
      rw [hrow, hready.row, Option.map_map, htwice]

theorem perm_replicate {α : Type} {before rows : List α} {n : ℕ} (hn : 0 < n) :
    (before ++ rows).Perm (before ++ (List.replicate n rows).flatten) ↔ n = 1 ∨ rows = [] := by
  constructor
  · intro h
    have hlength := h.length_eq
    rw [List.length_append, List.length_append, List.length_flatten, List.map_replicate, List.sum_replicate_nat,
      Nat.add_left_cancel_iff] at hlength
    by_cases hrows : rows = []
    · exact Or.inr hrows
    · left
      have hpos := List.length_pos_iff.mpr hrows
      exact (Nat.eq_of_mul_eq_mul_right hpos ((Nat.one_mul _).trans hlength)).symm
  · rintro (rfl | rfl)
    · simp
    · simp

end Reprocessing

theorem reprocessing_idempotent (readers : Readers) (id path : String) (data : List (String × String)) (w s u : World)
    (once : Job) (jobs : List Job) (hid : data.lookup "episode_id" = some id)
    (hpath : data.lookup "storage_path" = some path) (hfile : EpisodeFile path) (hne : jobs ≠ [])
    (hsame : ∀ job ∈ once :: jobs, job.readers = readers ∧ job.data = data) (hfirst : Succeeds id w once)
    (hsucceeds : Along handleNext (Succeeds id) w jobs) (honce : handleNext w once = some s)
    (hrun : run handleNext w jobs = some u) :
    SameUpToIds id s u ↔ jobs.length = 1 ∨ WithoutTopics readers data w := by
  obtain ⟨⟨rfl, rfl⟩, hjobs⟩ := List.forall_mem_cons.mp hsame
  obtain ⟨format, content, result, hreads, hyields, -⟩ := hfirst.2.topics
  obtain ⟨hready, -⟩ := readied_handleNext hid hreads hyields hfirst honce
  obtain ⟨hrow, htopics⟩ := readied_run hid hpath hfile hne hjobs hreads hyields hsucceeds hrun
  have hrows : s.database.episodes.get? id = u.database.episodes.get? id := hready.row.trans hrow.symm
  have hnone : WithoutTopics once.readers once.data w ↔
      result.episodeMeta.topics.map (⟨id, ·⟩ : TopicMeta → TopicRow) = [] := by
    rw [List.map_eq_nil_iff]
    constructor
    · exact fun h => h format content result.episodeMeta hreads hyields.1
    · intro h format' content' episodeMeta hreads' hextract
      obtain ⟨rfl, rfl⟩ := hreads.unique hreads'
      rw [hyields.1, Except.ok.injEq] at hextract
      rw [← hextract, h]
  rw [hnone, ← perm_replicate (List.length_pos_iff.mpr hne), ← htopics, ← hready.topics]
  exact ⟨fun h => h.topics, fun h => ⟨hrows, h⟩⟩

def uploadedJob (topics : List TopicMeta) (topicId : String) : Job :=
  ⟨flatReaders topics, workingCalls fun _ => topicId, "1-0", uploadedEvent⟩

theorem id_uploadedEvent : uploadedEvent.lookup "episode_id" = some "ep-1" := by decide +kernel

theorem path_uploadedEvent : uploadedEvent.lookup "storage_path" = some "episodes/ep-1/run.mcap" := by decide +kernel

theorem episodeFile_uploadedEvent : EpisodeFile "episodes/ep-1/run.mcap" := ⟨"ep-1/run.mcap", by decide +kernel⟩

theorem reads_uploadedWorld : Reads uploadedEvent uploadedWorld "mcap" [1, 2, 3] := reads_episodeWorld uploadedRow _

theorem yields_uploadedWorld (topics : List TopicMeta) :
    Yields (flatReaders topics) "ep-1" uploadedWorld "mcap" [1, 2, 3] ⟨⟨"mcap", 10, topics⟩, 1, flatDetail⟩ :=
  yields_episodeWorld rfl _ topics

theorem succeeds_uploadedJob {topics : List TopicMeta} {topicId : String} {w : World}
    (hreads : Reads uploadedEvent w "mcap" [1, 2, 3])
    (hyields : Yields (flatReaders topics) "ep-1" w "mcap" [1, 2, 3] ⟨⟨"mcap", 10, topics⟩, 1, flatDetail⟩)
    (hrows : ∃ db, insertAll (fun _ => topicId) "ep-1" topics.zipIdx w.database = .ok db) :
    Succeeds "ep-1" w (uploadedJob topics topicId) :=
  ⟨fun _ => rfl, fun _ _ => rfl, ⟨"mcap", [1, 2, 3], _, hreads, hyields, fun _ _ => rfl, hrows⟩, rfl⟩

theorem succeeds_twice {topics : List TopicMeta} {topicId topicId' : String} {s : World}
    (hfirst : Succeeds "ep-1" uploadedWorld (uploadedJob topics topicId))
    (hs : handleNext uploadedWorld (uploadedJob topics topicId) = some s)
    (hrows : ∃ db, insertAll (fun _ => topicId') "ep-1" topics.zipIdx s.database = .ok db) :
    Along handleNext (Succeeds "ep-1") uploadedWorld [uploadedJob topics topicId, uploadedJob topics topicId'] := by
  obtain ⟨hready, hobjects⟩ := readied_handleNext id_uploadedEvent reads_uploadedWorld (yields_uploadedWorld topics)
    hfirst hs
  refine ⟨hfirst, fun t ht => ⟨?_, fun _ _ => trivial⟩⟩
  rw [hs] at ht
  cases ht
  have hreads := reads_uploadedWorld.of_objects path_uploadedEvent
    (hobjects _ (episodeFile_uploadedEvent.ne_thumbnailPath "ep-1"))
  exact succeeds_uploadedJob hreads (hready.yields (yields_uploadedWorld topics)) hrows

theorem succeeds_first {topics : List TopicMeta} {topicId : String}
    (hrows : ∃ db, insertAll (fun _ => topicId) "ep-1" topics.zipIdx uploadedWorld.database = .ok db) :
    Succeeds "ep-1" uploadedWorld (uploadedJob topics topicId) :=
  succeeds_uploadedJob reads_uploadedWorld (yields_uploadedWorld topics) hrows

theorem reprocessing_idempotent_withoutTopics :
    ∃ s u, handleNext uploadedWorld (uploadedJob [] "t-1") = some s ∧
      run handleNext uploadedWorld [uploadedJob [] "t-1", uploadedJob [] "t-2"] = some u ∧ SameUpToIds "ep-1" s u := by
  have hfirst : Succeeds "ep-1" uploadedWorld (uploadedJob [] "t-1") := succeeds_first ⟨_, rfl⟩
  refine ⟨_, _, rfl, rfl, ?_⟩
  refine (reprocessing_idempotent (flatReaders []) "ep-1" "episodes/ep-1/run.mcap" uploadedEvent uploadedWorld _ _
    (uploadedJob [] "t-1") [uploadedJob [] "t-1", uploadedJob [] "t-2"] id_uploadedEvent path_uploadedEvent
    episodeFile_uploadedEvent (by simp) ?_ hfirst (succeeds_twice hfirst rfl ⟨_, rfl⟩) rfl rfl).mpr
    (Or.inr ?_)
  · simp [uploadedJob]
  · rintro format content episodeMeta hreads hextract
    obtain ⟨rfl, rfl⟩ := reads_uploadedWorld.unique hreads
    cases hextract
    rfl

theorem reprocessing_repeats_topics :
    ∃ s u, Along handleNext (Succeeds "ep-1") uploadedWorld
        [uploadedJob [cameraTopic] "t-1", uploadedJob [cameraTopic] "t-2"] ∧
      handleNext uploadedWorld (uploadedJob [cameraTopic] "t-1") = some s ∧
      run handleNext uploadedWorld [uploadedJob [cameraTopic] "t-1", uploadedJob [cameraTopic] "t-2"] = some u ∧
      ¬ SameUpToIds "ep-1" s u := by
  have hfirst : Succeeds "ep-1" uploadedWorld (uploadedJob [cameraTopic] "t-1") := succeeds_first ⟨_, rfl⟩
  have hsucceeds : Along handleNext (Succeeds "ep-1") uploadedWorld
      [uploadedJob [cameraTopic] "t-1", uploadedJob [cameraTopic] "t-2"] :=
    succeeds_twice hfirst rfl ⟨_, rfl⟩
  obtain ⟨s, hs⟩ : ∃ s, handleNext uploadedWorld (uploadedJob [cameraTopic] "t-1") = some s := ⟨_, rfl⟩
  obtain ⟨u, hu⟩ : ∃ u, run handleNext uploadedWorld
      [uploadedJob [cameraTopic] "t-1", uploadedJob [cameraTopic] "t-2"] = some u := ⟨_, rfl⟩
  refine ⟨s, u, hsucceeds, hs, hu, fun hsame => ?_⟩
  obtain ⟨hready, -⟩ := readied_handleNext id_uploadedEvent reads_uploadedWorld (yields_uploadedWorld [cameraTopic])
    hfirst hs
  obtain ⟨-, htopics⟩ := readied_run id_uploadedEvent path_uploadedEvent episodeFile_uploadedEvent (by simp)
    (by simp [uploadedJob]) reads_uploadedWorld (yields_uploadedWorld [cameraTopic]) hsucceeds hu
  have hperm := hsame.topics
  rw [hready.topics, htopics, perm_replicate (by decide)] at hperm
  simp at hperm

end Embedai.Pipeline
