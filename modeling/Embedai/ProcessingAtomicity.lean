import Embedai.ProcessingSteps

namespace Embedai.Pipeline

open Gateway Handlers TracedHandlers

structure Untouched (id : String) (row : EpisodeRow) (w s : World) : Prop where
  row : ∃ status, (status = row.status ∨ status = .processing) ∧
    s.database.episodes.get? id = some { row with status := status }
  topics : s.database.topics = w.database.topics
  acked : s.acked = w.acked

structure MadeReady (readers : Readers) (id : String) (row : EpisodeRow) (data : List (String × String))
    (w s : World) : Prop where
  row : ∃ format content result url, Reads data w format content ∧ Yields readers id w format content result ∧
    s.database.episodes.get? id = some { row with
      status := .ready
      durationSeconds := some result.episodeMeta.durationSeconds
      qualityScore := some result.score
      metadata := readyMetadata result.detail url result.episodeMeta.topics.length } ∧
    s.database.topics.values = w.database.topics.values ++ result.episodeMeta.topics.map (⟨id, ·⟩)

variable {readers : Readers} {calls : Calls} {id : String} {data : List (String × String)} {w s : World}

theorem Unprocessed.untouched {row : EpisodeRow} (h : Unprocessed id w s)
    (hrow : w.database.episodes.get? id = some row) : Untouched id row w s := by
  refine ⟨?_, ?_, h.acked⟩
  · rcases h.database with hdatabase | hdatabase
    · refine ⟨row.status, Or.inl rfl, ?_⟩
      rw [hdatabase, hrow]
    · refine ⟨.processing, Or.inr rfl, ?_⟩
      rw [hdatabase, Tables.updateEpisodeStatus, OrderedDict.get?_modify, if_pos rfl, hrow]
      rfl
  · rcases h.database with hdatabase | hdatabase
    · rw [hdatabase]
    · rw [hdatabase]
      rfl

theorem insertAll_rows {topicId : ℕ → String} {episodeId : String} {topics : List (TopicMeta × ℕ)} {db rows : Tables}
    (h : insertAll topicId episodeId topics db = .ok rows) :
    rows.episodes = db.episodes ∧ rows.projects = db.projects ∧
      rows.topics.values = db.topics.values ++ topics.map (fun p => ⟨episodeId, p.1⟩) := by
  induction topics generalizing db with
  | nil =>
    cases h
    exact ⟨rfl, rfl, (List.append_nil _).symm⟩
  | cons p topics ih =>
    rw [insertAll, List.foldlM_cons] at h
    cases hinsert : db.insertTopic (topicId p.2) episodeId p.1 with
    | error e =>
      rw [hinsert] at h
      cases h
    | ok next =>
      rw [hinsert] at h
      obtain ⟨hepisodes, hprojects, hvalues⟩ := ih h
      obtain ⟨hfresh, -, rfl⟩ := insertTopic_eq_ok.mp hinsert
      refine ⟨hepisodes, hprojects, ?_⟩
      rw [hvalues, OrderedDict.values_append, List.append_assoc, List.map_cons, List.singleton_append]

theorem map_zipIdx_topics (episodeId : String) (topics : List TopicMeta) :
    topics.zipIdx.map (fun p => (⟨episodeId, p.1⟩ : TopicRow)) = topics.map (⟨episodeId, ·⟩) := by
  conv_rhs => rw [← List.zipIdx_map_fst 0 topics, List.map_map]
  rfl

theorem Processed.madeReady {row : EpisodeRow} (h : Processed readers calls id data w s)
    (hrow : w.database.episodes.get? id = some row) : MadeReady readers id row data w s := by
  obtain ⟨format, content, result, url, rows, hreads, hyields, hrows, -, hdatabase⟩ := h.database
  obtain ⟨hepisodes, -, hvalues⟩ := insertAll_rows hrows
  refine ⟨⟨format, content, result, url, hreads, hyields, ?_, ?_⟩⟩
  · rw [hdatabase, Tables.ready, Tables.markReady, OrderedDict.get?_modify, if_pos rfl, hepisodes, hrow]
    rfl
  · rw [hdatabase]
    exact hvalues.trans (congrArg _ (map_zipIdx_topics id result.episodeMeta.topics))

theorem settled_handle (readers : Readers) (calls : Calls) (msgId : String) (w : World)
    (hid : data.lookup "episode_id" = some id) :
    (Trace.mk w []).Extends (Advances readers calls id data w) (answer (handle readers calls msgId data) ⟨w, []⟩).2 ∧
      Settled readers calls id data w (answer (handle readers calls msgId data) ⟨w, []⟩).2.current := by
  have hans := triple_handle readers calls msgId w hid ⟨w, []⟩ rfl
  refine ⟨hans.visits, ?_⟩
  cases hr : (answer (handle readers calls msgId data) ⟨w, []⟩).1 with
  | ok u => exact hans.returned u hr
  | error e => exact hans.raised e hr

theorem Commits.thumbnail {firstImage : List UInt8 → Except String (Option (List UInt8))} {calls' : Calls}
    (h : Commits readers calls id data w) (htopicId : calls'.topicId = calls.topicId)
    (houtcome : ∀ c ∉ thumbnailCalls, calls'.outcome c = calls.outcome c) :
    Commits { readers with firstImage := firstImage } calls' id data w := by
  have hrequired : ∀ c ∈ required, c ∉ thumbnailCalls := by decide
  obtain ⟨format, content, result, hreads, hyields, hinserts, hrows⟩ := h.topics
  refine ⟨fun c hc => ?_, ⟨format, content, result, hreads, hyields, fun i hi => ?_, ?_⟩, ?_⟩
  · rw [houtcome c (hrequired c hc)]
    exact h.outcomes c hc
  · rw [houtcome _ (by simp [thumbnailCalls])]
    exact hinserts i hi
  · rw [htopicId]
    exact hrows
  · rw [houtcome _ (by decide)]
    exact h.commit

theorem commits_without_thumbnail (firstImage : List UInt8 → Except String (Option (List UInt8)))
    (outcome : Call → Outcome String) (houtcome : ∀ c ∉ thumbnailCalls, outcome c = calls.outcome c) :
    Commits { readers with firstImage := firstImage } { calls with outcome := outcome } id data w ↔
      Commits readers calls id data w := by
  refine ⟨fun h => ?_, fun h => h.thumbnail rfl houtcome⟩
  have hback : Commits { { readers with firstImage := firstImage } with firstImage := readers.firstImage } calls id data
      w := h.thumbnail rfl (fun c hc => (houtcome c hc).symm)
  exact hback

theorem processing_all_or_nothing (readers : Readers) (calls : Calls) (msgId : String)
    (data : List (String × String)) (w : World) (id : String) (row : EpisodeRow)
    (hid : data.lookup "episode_id" = some id) (hrow : w.database.episodes.get? id = some row) :
    (¬ Commits readers calls id data w →
      ∀ s ∈ (answer (handle readers calls msgId data) ⟨w, []⟩).2.visited, Untouched id row w s) ∧
    (Commits readers calls id data w →
      MadeReady readers id row data w (answer (handle readers calls msgId data) ⟨w, []⟩).2.current ∧
      (answer (handle readers calls msgId data) ⟨w, []⟩).2.visited.IsChain fun after before =>
        (Untouched id row w before ∧ Untouched id row w after) ∨ MadeReady readers id row data w after) ∧
    ∀ firstImage outcome, (∀ c ∉ thumbnailCalls, outcome c = calls.outcome c) →
      (Commits { readers with firstImage := firstImage } { calls with outcome := outcome } id data w ↔
        Commits readers calls id data w) := by
  obtain ⟨hvisits, hsettled⟩ := settled_handle readers calls msgId w hid
  refine ⟨fun hnot => ?_, fun hcommits => ⟨?_, ?_⟩, commits_without_thumbnail⟩
  · have hbefore : (Trace.mk w []).Extends (fun _ s => Unprocessed id w s)
        (answer (handle readers calls msgId data) ⟨w, []⟩).2 :=
      hvisits.mono fun r s h => h.elim And.right fun h => absurd h.1 hnot
    intro s hs
    exact (hbefore.forall_visited (List.forall_mem_singleton.mpr (unprocessed_self id w)) s hs).untouched hrow
  · rcases hsettled with ⟨hnot, -⟩ | ⟨-, hprocessed⟩
    · exact absurd hcommits hnot
    · exact hprocessed.madeReady hrow
  · have hsteps := hvisits.mono fun r s h =>
      h.imp (fun h => (⟨h.1.untouched hrow, h.2.untouched hrow⟩ : Untouched id row w r ∧ Untouched id row w s))
        (fun h => h.2.madeReady hrow)
    exact hsteps.chain (.singleton w)

def cameraTopic : TopicMeta := ⟨"/camera/rgb", "image", 300, 30, 0, 10, "sensor_msgs/msg/Image"⟩

def flatDetail : QualityDetail := ⟨1, 1, 1, 1⟩

def flatReaders (topics : List TopicMeta) : Readers :=
  { mcap := fun _ => .ok ⟨"mcap", 10, topics⟩
    hdf5 := fun _ => .error "unable to open file"
    score := fun _ _ _ => .ok (1, flatDetail)
    firstImage := fun _ => .error "unable to decode" }

def robotProject : String := "00000000-0000-0000-0000-000000000002"

def uploadedRow : EpisodeRow :=
  { projectId := robotProject
    filename := "run.mcap"
    format := "mcap"
    sizeBytes := 3
    status := .processing
    storagePath := some "episodes/ep-1/run.mcap"
    metadata := .obj []
    durationSeconds := none
    qualityScore := none }

def episodeWorld (row : EpisodeRow) (path : String) : World :=
  { database :=
      { projects := OrderedDict.empty.append robotProject (.obj []) List.not_mem_nil
        episodes := OrderedDict.empty.append "ep-1" row List.not_mem_nil
        topics := OrderedDict.empty }
    objects := Function.update (fun _ => none) path (some [1, 2, 3])
    files := fun _ => none
    acked := [] }

def episodeEvent (path : String) : List (String × String) :=
  [("episode_id", "ep-1"), ("storage_path", path), ("format", "mcap")]

def workingCalls (topicId : ℕ → String) : Calls := ⟨fun _ => .ok, "/tmp/a.mcap", "/tmp/b.jpg", topicId⟩

theorem reads_episodeWorld (row : EpisodeRow) (path : String) :
    Reads (episodeEvent path) (episodeWorld row path) "mcap" [1, 2, 3] :=
  ⟨rfl, path, rfl, by simp [episodeWorld]⟩

theorem yields_episodeWorld {row : EpisodeRow} (hproject : row.projectId = robotProject) (path : String)
    (topics : List TopicMeta) :
    Yields (flatReaders topics) "ep-1" (episodeWorld row path) "mcap" [1, 2, 3]
      ⟨⟨"mcap", 10, topics⟩, 1, flatDetail⟩ := by
  refine ⟨if_pos rfl, .obj [], ?_, rfl⟩
  have hrow : (episodeWorld row path).database.episodes.get? "ep-1" = some row := rfl
  rw [Tables.topicSchema, hrow, Option.bind_some, hproject]
  rfl

theorem commits_episodeWorld {row : EpisodeRow} (hproject : row.projectId = robotProject) (path : String) :
    Commits (flatReaders [cameraTopic]) (workingCalls fun _ => "t-1") "ep-1" (episodeEvent path)
      (episodeWorld row path) :=
  ⟨fun _ _ => rfl, ⟨"mcap", [1, 2, 3], ⟨⟨"mcap", 10, [cameraTopic]⟩, 1, flatDetail⟩, reads_episodeWorld row path,
    yields_episodeWorld hproject path [cameraTopic], fun _ _ => rfl, _, rfl⟩, rfl⟩

def uploadedWorld : World := episodeWorld uploadedRow "episodes/ep-1/run.mcap"

def uploadedEvent : List (String × String) := episodeEvent "episodes/ep-1/run.mcap"

theorem processing_all_or_nothing_uploadedWorld :
    MadeReady (flatReaders [cameraTopic]) "ep-1" uploadedRow uploadedEvent uploadedWorld
      (answer (handle (flatReaders [cameraTopic]) (workingCalls fun _ => "t-1") "1-0" uploadedEvent)
        ⟨uploadedWorld, []⟩).2.current :=
  ((processing_all_or_nothing (flatReaders [cameraTopic]) (workingCalls fun _ => "t-1") "1-0" uploadedEvent
    uploadedWorld "ep-1" uploadedRow (by decide +kernel) rfl).2.1 (commits_episodeWorld rfl _)).1

end Embedai.Pipeline
