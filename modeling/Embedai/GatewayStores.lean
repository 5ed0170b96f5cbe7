import Mathlib.Logic.Function.Basic
import Embedai.Decimal
import Embedai.Json
import Embedai.OrderedDict

/-!
The database tables, the object storage and the event stream of the gateway. A call gives no result when the
store refuses it; an `UPDATE` of a missing row changes nothing.
-/

namespace Embedai.Gateway

inductive EpisodeStatus
  | uploading
  | processing
  | ready
  | failed
  deriving DecidableEq

structure Episode where
  projectId : String
  filename : String
  format : String
  sizeBytes : ℤ
  status : EpisodeStatus
  storagePath : Option String
  metadata : Json

inductive SessionStatus
  | inProgress
  | completed
  deriving DecidableEq

structure UploadSession where
  episodeId : String
  totalChunks : ℤ
  receivedChunks : ℤ
  chunkSizeBytes : ℤ
  checksumExpected : String
  status : SessionStatus
  expiresAt : ℤ

structure IngestEvent where
  episodeId : String
  storagePath : String
  format : String
  deriving DecidableEq

structure Stores where
  episodes : OrderedDict String Episode
  sessions : OrderedDict String UploadSession
  objects : String → Option (List UInt8)
  events : List IngestEvent

def emptyStores : Stores :=
  { episodes := OrderedDict.empty
    sessions := OrderedDict.empty
    objects := fun _ => none
    events := [] }

/-- The calls that a handler makes, for saying which of them fail. -/
inductive Call
  | createEpisode
  | createEpisodeFromStream
  | createUploadSession
  | getUploadSession
  | incrementReceivedChunks
  | completeSession
  | getEpisode
  | updateEpisodeStatus
  | uploadChunk
  | assembleChunks
  | putObject
  | publish
  deriving DecidableEq

def createEpisode (id projectId filename format : String) (sizeBytes : ℤ) (g : Stores) : Option (Unit × Stores) :=
  if h : id ∈ g.episodes.keys then none
  else
    let row : Episode := ⟨projectId, filename, format, sizeBytes, .uploading, none, .obj []⟩
    some ((), { g with episodes := g.episodes.append id row h })

def createEpisodeFromStream (id projectId filename format : String) (sizeBytes : ℤ) (recordingSessionId : String)
    (g : Stores) : Option (Unit × Stores) :=
  if h : id ∈ g.episodes.keys then none
  else
    let metadata := Json.obj [("recording_session_id", .str recordingSessionId)]
    let row : Episode := ⟨projectId, filename, format, sizeBytes, .processing, none, metadata⟩
    some ((), { g with episodes := g.episodes.append id row h })

def getEpisode (id : String) (g : Stores) : Option (Episode × Stores) :=
  (g.episodes.get? id).map (fun ep => (ep, g))

def nullIfEmpty (text : String) : Option String := if text = "" then none else some text

def updateEpisodeStatus (id : String) (status : EpisodeStatus) (storagePath : String) (g : Stores) :
    Option (Unit × Stores) :=
  some ((), { g with
    episodes := g.episodes.modify id (fun ep => { ep with status := status, storagePath := nullIfEmpty storagePath }) })

def createUploadSession (id episodeId : String) (totalChunks chunkSizeBytes : ℤ) (checksumExpected : String)
    (expiresAt : ℤ) (g : Stores) : Option (Unit × Stores) :=
  if h : id ∈ g.sessions.keys then none
  else
    let row : UploadSession := ⟨episodeId, totalChunks, 0, chunkSizeBytes, checksumExpected, .inProgress, expiresAt⟩
    some ((), { g with sessions := g.sessions.append id row h })

def getUploadSession (id : String) (g : Stores) : Option (UploadSession × Stores) :=
  (g.sessions.get? id).map (fun sess => (sess, g))

def incrementReceivedChunks (id : String) (g : Stores) : Option (Unit × Stores) :=
  some ((), { g with
    sessions := g.sessions.modify id (fun sess => { sess with receivedChunks := sess.receivedChunks + 1 }) })

def completeSession (id : String) (g : Stores) : Option (Unit × Stores) :=
  some ((), { g with sessions := g.sessions.modify id (fun sess => { sess with status := .completed }) })

def putObject (key : String) (data : List UInt8) (g : Stores) : Option (Unit × Stores) :=
  some ((), { g with objects := Function.update g.objects key (some data) })

def composeObject (sources : List String) (dest : String) (g : Stores) : Option (Unit × Stores) :=
  (sources.mapM g.objects).bind (fun parts => putObject dest parts.flatten g)

def removeObject (key : String) (g : Stores) : Stores := { g with objects := Function.update g.objects key none }

def publishEpisodeIngested (episodeId storagePath format : String) (g : Stores) : Stores :=
  { g with events := g.events ++ [⟨episodeId, storagePath, format⟩] }

def chunkKey (sessionId : String) (n : ℕ) : String :=
  "tmp/" ++ sessionId ++ "/chunk_" ++ Decimal.zeroPadded 5 n

def assembleChunks (sessionId : String) (totalChunks : ℤ) (dest : String) (g : Stores) : Option (Unit × Stores) :=
  composeObject ((List.range totalChunks.toNat).map (chunkKey sessionId)) dest g

/-- The clean-up after a completed upload, best effort: `fails i` says that chunk `i` is not removed. -/
def deleteChunks (sessionId : String) (totalChunks : ℤ) (fails : ℕ → Bool) (g : Stores) : Stores :=
  (List.range totalChunks.toNat).foldl (fun g i => if fails i then g else removeObject (chunkKey sessionId i) g) g

theorem chunkKey_injective (sessionId : String) : Function.Injective (chunkKey sessionId) := by
  intro m n h
  exact Decimal.zeroPadded_injective 5 (String.append_right_inj _ |>.mp h)

theorem nullIfEmpty_episodes (id rest : String) :
    nullIfEmpty ("episodes/" ++ id ++ rest) = some ("episodes/" ++ id ++ rest) := by
  have hne : "episodes/" ++ id ++ rest ≠ "" := by
    intro he
    have hlist := congrArg String.toList he
    simp at hlist
  rw [nullIfEmpty, if_neg hne]

end Embedai.Gateway
