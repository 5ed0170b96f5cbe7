import Embedai.Float64
import Embedai.GatewayStores
import Embedai.Handlers

namespace Embedai.Gateway

open Handlers

structure HttpError where
  status : ℕ
  error : String
  deriving DecidableEq

def uploadChunkSize : ℤ := 64 * 1024 * 1024

structure InitRequest where
  filename : String
  sizeBytes : ℤ
  format : String
  checksum : String
  projectId : String

structure InitResponse where
  episodeId : String
  sessionId : String
  chunkSize : ℤ
  totalChunks : ℤ

def fieldError (field tag : String) : String :=
  "Key: '" ++ field ++ "' Error:Field validation for '" ++ field ++ "' failed on the '" ++ tag ++ "' tag"

def fieldErrors (req : InitRequest) : List String :=
  (if req.filename = "" then [fieldError "Filename" "required"] else []) ++
    (if req.sizeBytes = 0 then [fieldError "SizeBytes" "required"]
      else if req.sizeBytes < 1 then [fieldError "SizeBytes" "min"] else []) ++
    (if req.format = "" then [fieldError "Format" "required"]
      else if req.format = "mcap" ∨ req.format = "hdf5" then [] else [fieldError "Format" "oneof"])

def bindInit (req : InitRequest) : Except HttpError Unit :=
  if fieldErrors req = [] then .ok () else .error ⟨400, "\n".intercalate (fieldErrors req)⟩

/-- `math.Ceil` of the quotient of two binary64 numbers; dividing by 2^26 is exact. -/
def totalChunks (sizeBytes : ℤ) : ℤ := -(-Float64.ofInt sizeBytes / uploadChunkSize)

def init (fails : Call → Bool) (jwtProjectId : String) (req : InitRequest) (episodeId sessionId : String)
    (now : ℤ) : Handler Stores HttpError InitResponse := do
  require (bindInit req)
  let projectId := if req.projectId = "" then jwtProjectId else req.projectId
  attempt (fails .createEpisode) ⟨500, "failed to create episode"⟩
    (createEpisode episodeId projectId req.filename req.format req.sizeBytes)
  attempt (fails .createUploadSession) ⟨500, "failed to create upload session"⟩
    (createUploadSession sessionId episodeId (totalChunks req.sizeBytes) uploadChunkSize req.checksum
      (now + 24 * 3600 * 10 ^ 9))
  return ⟨episodeId, sessionId, uploadChunkSize, totalChunks req.sizeBytes⟩

def chunkNumber (n : String) : Except HttpError ℕ :=
  match Decimal.atoi n with
  | some (.ofNat chunkN) => .ok chunkN
  | _ => .error ⟨400, "invalid chunk number"⟩

def checkInProgress (sess : UploadSession) : Except HttpError Unit :=
  if sess.status = .inProgress then .ok () else .error ⟨409, "session not in progress"⟩

def checkInRange (sess : UploadSession) (chunkN : ℕ) : Except HttpError Unit :=
  if sess.totalChunks ≤ chunkN then .error ⟨400, "chunk number out of range"⟩ else .ok ()

/-- For an id that is spelled as `Init` has returned it; `UploadRequests` has the handlers for every spelling. -/
def uploadChunk (fails : Call → Bool) (sessionId n : String) (body : List UInt8) : Handler Stores HttpError ℕ := do
  let chunkN ← require (chunkNumber n)
  let sess ← attempt (fails .getUploadSession) ⟨404, "session not found"⟩ (getUploadSession sessionId)
  require (checkInProgress sess)
  require (checkInRange sess chunkN)
  attempt (fails .uploadChunk) ⟨500, "failed to store chunk"⟩ (putObject (chunkKey sessionId chunkN) body)
  attempt (fails .incrementReceivedChunks) ⟨500, "failed to update session"⟩ (incrementReceivedChunks sessionId)
  return chunkN

def checkReceived (sess : UploadSession) : Except HttpError Unit :=
  if sess.receivedChunks = sess.totalChunks then .ok ()
  else .error ⟨400, "expected " ++ toString sess.totalChunks ++ " chunks, received " ++ toString sess.receivedChunks⟩

def storagePath (episodeId filename : String) : String := "episodes/" ++ episodeId ++ "/" ++ filename

structure CompleteResponse where
  episodeId : String
  storagePath : String
  status : String

def complete (fails : Call → Bool) (sessionId : String) : Handler Stores HttpError CompleteResponse := do
  let sess ← attempt (fails .getUploadSession) ⟨404, "session not found"⟩ (getUploadSession sessionId)
  require (checkInProgress sess)
  require (checkReceived sess)
  let ep ← attempt (fails .getEpisode) ⟨500, "failed to fetch episode"⟩ (getEpisode sess.episodeId)
  let path := storagePath sess.episodeId ep.filename
  attempt (fails .assembleChunks) ⟨500, "failed to assemble chunks"⟩ (assembleChunks sessionId sess.totalChunks path)
  attempt (fails .completeSession) ⟨500, "failed to mark session complete"⟩ (completeSession sessionId)
  attempt (fails .updateEpisodeStatus) ⟨500, "failed to update episode"⟩
    (updateEpisodeStatus sess.episodeId .processing path)
  modify (if fails .publish then id else publishEpisodeIngested sess.episodeId path ep.format)
  return ⟨sess.episodeId, path, "processing"⟩

structure File where
  name : String
  content : List UInt8

/-- `Blob.slice` for offsets that are not negative: both are clamped to the size. -/
def File.slice (file : File) (first last : ℤ) : List UInt8 :=
  (file.content.drop first.toNat).take (last.toNat - first.toNat)

structure UploadProgress where
  chunksUploaded : ℕ
  totalChunks : ℤ
  deriving DecidableEq

def uploadChunks (fails : ℕ → Call → Bool) (file : File) (init : InitResponse) :
    List ℕ → Handler Stores HttpError (List UploadProgress)
  | [] => pure []
  | i :: rest => do
    let start := Float64.ofInt (i * init.chunkSize)
    let chunk := file.slice start (Float64.ofInt (start + init.chunkSize))
    let _ ← uploadChunk (fails i) init.sessionId (toString i) chunk
    let progress ← uploadChunks fails file init rest
    return ⟨i + 1, init.totalChunks⟩ :: progress

def fileFormat (name : String) : String := if ".mcap".toList <:+ name.toList then "mcap" else "hdf5"

/-- The episode id, and the reports to `onProgress`, one after each chunk that was sent. -/
def uploadEpisodeFile (initFails completeFails : Call → Bool) (chunkFails : ℕ → Call → Bool) (jwtProjectId : String)
    (file : File) (episodeId sessionId : String) (now : ℤ) :
    Handler Stores HttpError (String × List UploadProgress) := do
  let response ← init initFails jwtProjectId
    ⟨file.name, Float64.ofInt file.content.length, fileFormat file.name, "", ""⟩ episodeId sessionId now
  let progress ← uploadChunks chunkFails file response (List.range response.totalChunks.toNat)
  let _ ← complete completeFails response.sessionId
  return (response.episodeId, progress)

end Embedai.Gateway
