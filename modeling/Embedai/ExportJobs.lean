import Embedai.Exporters
import Embedai.ObjectLocations
import Embedai.TracedHandlers

namespace Embedai.ExportWorker

open DatasetService FilePaths Handlers ObjectLocations TracedHandlers

inductive JobStatus
  | pending
  | running
  | completed
  | failed
  deriving DecidableEq

structure ExportJob where
  datasetVersionId : Uuid
  format : String
  targetBucket : String
  targetPrefix : Option String
  status : JobStatus
  progressPct : Option ℚ
  manifestUrl : Option String
  errorMessage : Option String
  startedAt : Option Timestamp
  completedAt : Option Timestamp

structure Upload where
  location : Location
  content : Content

structure World where
  database : Database
  jobs : OrderedDict Uuid ExportJob
  files : Files
  uploads : List Upload
  progressCommits : List (Uuid × ℚ)
  acked : List String

structure Settings where
  tmpDir : String
  shardSizeBytes : ℤ

inductive Call
  | getJob
  | updateStatus
  | getVersion
  | resolve
  | export
  | upload (i : ℕ)
  | updateProgress (i : ℕ)
  | uploadManifest
  | complete
  | ack
  | getFailedJob
  | fail

/-- How the calls made for one message go: their outcomes, what the object store answers, and the clock. -/
structure Calls where
  outcome : Call → Outcome String
  getObject : Location → Except String (List UInt8)
  clock : Call → Timestamp

def load (getObject : Location → Except String (List UInt8)) (storagePath : String) : Except String (List UInt8) :=
  match loadLocation storagePath with
  | none => .ok []
  | some location => getObject location

def targetPrefix (jobId : Uuid) (job : ExportJob) : String :=
  match job.targetPrefix with
  | none => jobId.text
  | some path => if path = "" then jobId.text else path

def shardKey (jobId : Uuid) (job : ExportJob) (i : ℕ) : String :=
  targetPrefix jobId job ++ "/shard-" ++ Decimal.zeroPadded 6 i ++ ".tar"

def manifestKey (jobId : Uuid) (job : ExportJob) : String := targetPrefix jobId job ++ "/manifest.json"

def manifestLocation (jobId : Uuid) (job : ExportJob) : Location := ⟨job.targetBucket, manifestKey jobId job⟩

def manifestUrl (jobId : Uuid) (job : ExportJob) : String :=
  "s3://" ++ job.targetBucket ++ "/" ++ manifestKey jobId job

/-- The progress after the shard with index `i` of `n`, in exact arithmetic. -/
def percent (n i : ℕ) : ℚ := (i + 1) / n * 100

namespace World

def updateJob (jobId : Uuid) (f : ExportJob → ExportJob) (w : World) : World :=
  { w with jobs := w.jobs.modify jobId f }

def putObject (location : Location) (content : Content) (w : World) : World :=
  { w with uploads := w.uploads ++ [⟨location, content⟩] }

def updateJobStatus (jobId : Uuid) (status : JobStatus) (startedAt : Timestamp) (w : World) : World :=
  w.updateJob jobId fun job => { job with status := status, startedAt := some startedAt }

def updateJobProgress (jobId : Uuid) (progressPct : ℚ) (w : World) : World :=
  { w.updateJob jobId (fun job => { job with progressPct := some progressPct }) with
    progressCommits := w.progressCommits ++ [(jobId, progressPct)] }

def completeJob (jobId : Uuid) (url : String) (completedAt : Timestamp) (w : World) : World :=
  { w.updateJob jobId (fun job =>
      { job with
        status := .completed
        progressPct := some 100
        manifestUrl := some url
        completedAt := some completedAt }) with
    progressCommits := w.progressCommits ++ [(jobId, 100)] }

def failJob (jobId : Uuid) (error : String) (w : World) : World :=
  w.updateJob jobId fun job => { job with status := .failed, errorMessage := some error }

def xack (msgId : String) (w : World) : World := { w with acked := w.acked ++ [msgId] }

end World

def found {α : Type} (error : String) : Option α → Except String α
  | some a => .ok a
  | none => .error error

variable (dumpsLength : Json → ℕ) (settings : Settings) (calls : Calls)

def runExporter (jobId : Uuid) (job : ExportJob) (episodeRefs : List EpisodeRef) (files : Files) :
    Except String (ExportResult × Files) :=
  let outputDir := joinPath settings.tmpDir jobId.text
  if job.format = "webdataset" then
    webDatasetExport dumpsLength settings.shardSizeBytes outputDir (load calls.getObject) episodeRefs files
  else rawExport dumpsLength outputDir (load calls.getObject) episodeRefs files

def uploadShard (jobId : Uuid) (job : ExportJob) (shardCount : ℕ) (shard : ShardInfo × ℕ) :
    Handler (Trace World) String Unit := do
  let w ← observe
  let content ← require (found "No such file or directory" (w.files shard.1.path))
  call (calls.outcome (.upload shard.2)) (World.putObject ⟨job.targetBucket, shardKey jobId job shard.2⟩ content)
  call (calls.outcome (.updateProgress shard.2)) (World.updateJobProgress jobId (percent shardCount shard.2))

/-- `_execute_job` from the point where the episode references are resolved. -/
def exportSamples (jobId : Uuid) (job : ExportJob) (episodeRefs : List EpisodeRef) :
    Handler (Trace World) String Unit := do
  let w ← observe
  let exported ← require (runExporter dumpsLength settings calls jobId job episodeRefs w.files)
  call (calls.outcome .export) (fun w => { w with files := exported.2 })
  exported.1.shards.zipIdx.forM (uploadShard calls jobId job exported.1.shards.length)
  call (calls.outcome .uploadManifest)
    (World.putObject (manifestLocation jobId job) (.file (.json exported.1.manifest)))
  call (calls.outcome .complete) (World.completeJob jobId (manifestUrl jobId job) (calls.clock .complete))

def executeJob (jobId : Uuid) : Handler (Trace World) String Unit := do
  match ← query (calls.outcome .getJob) (fun w : World => w.jobs.get? jobId) with
  | none => return ()
  | some job =>
    call (calls.outcome .updateStatus) (World.updateJobStatus jobId .running (calls.clock .updateStatus))
    let row ← query (calls.outcome .getVersion) (fun w => w.database.versions.get? job.datasetVersionId)
    let version ← require (found ("DatasetVersion " ++ job.datasetVersionId.text ++ " not found") row)
    let refs ← query (calls.outcome .resolve) (fun w => resolveEpisodeRefs w.database version.episodeRefs)
    let episodeRefs ← require (found "badly formed hexadecimal UUID string" refs)
    exportSamples dumpsLength settings calls jobId job episodeRefs

def failJob (jobId : Uuid) (error : String) : Handler (Trace World) String Unit := do
  match ← query (calls.outcome .getFailedJob) (fun w : World => w.jobs.get? jobId) with
  | none => return ()
  | some _ => call (calls.outcome .fail) (World.failJob jobId error)

def handleMessage (msgId : String) (fields : List (String × String)) : Handler (Trace World) String Unit :=
  if (fields.lookup "job_id").getD "" = "" then call (calls.outcome .ack) (World.xack msgId)
  else do
    let jobId ← require (found "badly formed hexadecimal UUID string" (Uuid.parse ((fields.lookup "job_id").getD "")))
    recover (do
      executeJob dumpsLength settings calls jobId
      call (calls.outcome .ack) (World.xack msgId)) (failJob calls jobId)

def pendingJob : ExportJob :=
  { datasetVersionId := ⟨4⟩
    format := "webdataset"
    targetBucket := "exports"
    targetPrefix := some "v1"
    status := .pending
    progressPct := some 0
    manifestUrl := none
    errorMessage := none
    startedAt := none
    completedAt := none }

def versionOfTen : DatasetVersion :=
  { datasetId := ⟨1⟩
    versionTag := "v1"
    episodeRefs := (versionOf "00000000-0000-0000-0000-00000000000a").episodeRefs
    episodeCount := 1
    totalSizeBytes := 5
    isImmutable := true
    createdBy := ⟨3⟩
    createdAt := 0 }

def oneJob : World :=
  { database := { oneEpisode with versions := OrderedDict.empty.append ⟨4⟩ versionOfTen List.not_mem_nil }
    jobs := OrderedDict.empty.append ⟨5⟩ pendingJob List.not_mem_nil
    files := fun _ => none
    uploads := []
    progressCommits := []
    acked := [] }

def callsWith (outcome : Call → Outcome String) : Calls := ⟨outcome, fun _ => .ok [1, 2, 3], fun _ => 0⟩

def workerSettings : Settings := ⟨"/tmp/export", 400⟩

def jobFields : List (String × String) := [("job_id", "00000000-0000-0000-0000-000000000005")]

end Embedai.ExportWorker
