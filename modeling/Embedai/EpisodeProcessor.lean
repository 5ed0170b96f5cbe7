import Embedai.GatewayStores
import Embedai.TracedHandlers

/-!
The pipeline worker: `_handle`, `process` and the transaction that makes an episode ready. A statement before the commit
of its transaction changes the copy of the session only.
-/

namespace Embedai.Pipeline

open Gateway Handlers TracedHandlers

structure TopicMeta where
  name : String
  type : String
  messageCount : ℤ
  frequencyHz : ℚ
  startTimeOffset : ℚ
  endTimeOffset : ℚ
  schemaName : String
  deriving DecidableEq

structure EpisodeMeta where
  format : String
  durationSeconds : ℚ
  topics : List TopicMeta

structure QualityDetail where
  frameRateStability : ℚ
  sensorCompleteness : ℚ
  signalQuality : ℚ
  totalScore : ℚ

def QualityDetail.asdict (detail : QualityDetail) : Json :=
  .obj [("frame_rate_stability", .float detail.frameRateStability),
    ("sensor_completeness", .float detail.sensorCompleteness), ("signal_quality", .float detail.signalQuality),
    ("total_score", .float detail.totalScore)]

/-- The columns of the gateway, and those that only the pipeline writes. -/
structure EpisodeRow extends Episode where
  durationSeconds : Option ℚ
  qualityScore : Option ℚ

structure TopicRow where
  episodeId : String
  topic : TopicMeta
  deriving DecidableEq

/-- `projects` has the `topic_schema` of each project. -/
structure Tables where
  projects : OrderedDict String Json
  episodes : OrderedDict String EpisodeRow
  topics : OrderedDict String TopicRow

structure World where
  database : Tables
  objects : String → Option (List UInt8)
  files : String → Option (List UInt8)
  acked : List String

inductive Call
  | updateEpisodeStatus
  | createTemp
  | download
  | extract
  | getEpisodeProject
  | score
  | readImage
  | createImage
  | writeImage
  | uploadThumbnail
  | unlinkImage
  | executeReady
  | insertTopic (i : ℕ)
  | commitReady
  | unlink
  | ack
  deriving DecidableEq

/-- How the calls made for one message go, the names of the temporary files and the new ids of the topics. -/
structure Calls where
  outcome : Call → Outcome String
  tempPath : String
  imagePath : String
  topicId : ℕ → String

/-- The readers of the two formats, the scorer, and the first image that decodes, as JPEG. -/
structure Readers where
  mcap : List UInt8 → Except String EpisodeMeta
  hdf5 : List UInt8 → Except String EpisodeMeta
  score : Json → EpisodeMeta → List UInt8 → Except String (ℚ × QualityDetail)
  firstImage : List UInt8 → Except String (Option (List UInt8))

namespace Tables

def updateEpisodeStatus (id : String) (status : EpisodeStatus) (db : Tables) : Tables :=
  { db with episodes := db.episodes.modify id (fun row => { row with status := status }) }

def topicSchema (db : Tables) (id : String) : Option Json :=
  (db.episodes.get? id).bind fun row =>
    (db.projects.get? row.projectId).map fun schema => if schema.truthy then schema else .obj []

def markReady (id : String) (duration score : ℚ) (metadata : Json) (db : Tables) : Tables :=
  { db with episodes := db.episodes.modify id (fun row =>
      { row with
        status := .ready
        durationSeconds := some duration
        qualityScore := some score
        metadata := metadata }) }

def insertTopic (rowId episodeId : String) (topic : TopicMeta) (db : Tables) : Except String Tables :=
  if h : rowId ∈ db.topics.keys then .error "UniqueViolationError"
  else if episodeId ∈ db.episodes.keys then
    .ok { db with topics := db.topics.append rowId ⟨episodeId, topic⟩ h }
  else .error "ForeignKeyViolationError"

end Tables

namespace World

def updateEpisodeStatus (id : String) (status : EpisodeStatus) (w : World) : World :=
  { w with database := w.database.updateEpisodeStatus id status }

def commit (database : Tables) (w : World) : World := { w with database := database }

def putObject (path : String) (data : List UInt8) (w : World) : World :=
  { w with objects := Function.update w.objects path (some data) }

def writeFile (path : String) (data : List UInt8) (w : World) : World :=
  { w with files := Function.update w.files path (some data) }

def unlink (path : String) (w : World) : World := { w with files := Function.update w.files path none }

def xack (msgId : String) (w : World) : World := { w with acked := w.acked ++ [msgId] }

end World

def thumbnailPath (episodeId : String) : String := "thumbnails/" ++ episodeId ++ ".jpg"

def readyMetadata (detail : QualityDetail) (thumbnailUrl : String) (topicCount : ℕ) : Json :=
  .obj [("quality_detail", detail.asdict), ("thumbnail_url", .str thumbnailUrl), ("topic_count", .int topicCount)]

variable (readers : Readers) (calls : Calls)

def Readers.extract (format : String) (content : List UInt8) : Except String EpisodeMeta :=
  if format = "mcap" then readers.mcap content
  else if format = "hdf5" then readers.hdf5 content
  else .error ("Unsupported format: " ++ format)

def readFile (path : String) : Handler (Trace World) String (List UInt8) := do
  let w ← observe
  require (orRaise ("No such file or directory: '" ++ path ++ "'") (w.files path))

def downloadTemp (storagePath : String) : Handler (Trace World) String String := do
  call (calls.outcome .createTemp) (World.writeFile calls.tempPath [])
  let object ← query (calls.outcome .download) (fun w : World => w.objects storagePath)
  let content ← require (orRaise "NoSuchKey" object)
  call .ok (World.writeFile calls.tempPath content)
  return calls.tempPath

def thumbnailFromMcap (localPath episodeId : String) : Handler (Trace World) String String := do
  let content ← readFile localPath
  call (calls.outcome .readImage) id
  match ← require (readers.firstImage content) with
  | none => return ""
  | some jpeg =>
    call (calls.outcome .createImage) (World.writeFile calls.imagePath [])
    call (calls.outcome .writeImage) (World.writeFile calls.imagePath jpeg)
    call (calls.outcome .uploadThumbnail) (World.putObject (thumbnailPath episodeId) jpeg)
    call (calls.outcome .unlinkImage) (World.unlink calls.imagePath)
    return thumbnailPath episodeId

def generateThumbnail (localPath format episodeId : String) : Handler (Trace World) String String :=
  recover (if format = "mcap" then thumbnailFromMcap readers calls localPath episodeId else return "")
    (fun _ => return "")

def execute {α : Type} (outcome : Outcome String) (result : Except String α) : Handler (Trace World) String α := do
  call outcome id
  require result

def insertTopics (episodeId : String) (topics : List (TopicMeta × ℕ)) (db : Tables) :
    Handler (Trace World) String Tables :=
  topics.foldlM (fun db p =>
    execute (calls.outcome (.insertTopic p.2)) (db.insertTopic (calls.topicId p.2) episodeId p.1)) db

def updateEpisodeReady (episodeId : String) (duration qualityScore : ℚ) (metadata : Json) (topics : List TopicMeta) :
    Handler (Trace World) String Unit := do
  let w ← observe
  let db ← execute (calls.outcome .executeReady) (.ok (w.database.markReady episodeId duration qualityScore metadata))
  let db ← insertTopics calls episodeId topics.zipIdx db
  call (calls.outcome .commitReady) (World.commit db)

/-- The `try` block of `process`. -/
def processFile (episodeId localPath format : String) : Handler (Trace World) String Unit := do
  let content ← readFile localPath
  call (calls.outcome .extract) id
  let episodeMeta ← require (readers.extract format content)
  let schema ← query (calls.outcome .getEpisodeProject) (fun w : World => w.database.topicSchema episodeId)
  let topicSchema ← require (orRaise "No row was found when one was required" schema)
  call (calls.outcome .score) id
  let (score, detail) ← require (readers.score topicSchema episodeMeta content)
  let thumbnailUrl ← generateThumbnail readers calls localPath format episodeId
  updateEpisodeReady calls episodeId episodeMeta.durationSeconds score
    (readyMetadata detail thumbnailUrl episodeMeta.topics.length) episodeMeta.topics

def process (episodeId : String) (data : List (String × String)) : Handler (Trace World) String Unit := do
  let storagePath ← require (orRaise "b'storage_path'" (data.lookup "storage_path"))
  let format ← require (orRaise "b'format'" (data.lookup "format"))
  call (calls.outcome .updateEpisodeStatus) (World.updateEpisodeStatus episodeId .processing)
  let localPath ← downloadTemp calls storagePath
  ensure (processFile readers calls episodeId localPath format)
    (recover (call (calls.outcome .unlink) (World.unlink localPath)) (fun _ => return ()))

def handle (msgId : String) (data : List (String × String)) : Handler (Trace World) String Unit := do
  let episodeId ← require (orRaise "b'episode_id'" (data.lookup "episode_id"))
  recover (do
    process readers calls episodeId data
    call (calls.outcome .ack) (World.xack msgId)) (fun _ => return ())

end Embedai.Pipeline
