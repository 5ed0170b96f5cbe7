import Mathlib.Algebra.Order.Field.Rat
import Mathlib.Tactic.Linarith
import Mathlib.Tactic.NormNum.Ineq
import Mathlib.Tactic.Positivity
import Embedai.ExportJobSteps
import Embedai.ExportQueueCoverage

namespace Embedai.ExportWorker

open DatasetService FilePaths Handlers ObjectLocations TracedHandlers TransitionSystems

section Rows

structure ExportJob.IsNew (job : ExportJob) : Prop where
  status : job.status = .pending
  progressPct : job.progressPct = some 0
  manifestUrl : job.manifestUrl = none
  errorMessage : job.errorMessage = none
  startedAt : job.startedAt = none
  completedAt : job.completedAt = none

def ExportJob.running (job : ExportJob) (startedAt : Timestamp) (progressPct : ℚ) : ExportJob :=
  { job with status := .running, startedAt := some startedAt, progressPct := some progressPct }

def ExportJob.completed (job : ExportJob) (startedAt completedAt : Timestamp) (url : String) : ExportJob :=
  { job with
    status := .completed
    startedAt := some startedAt
    progressPct := some 100
    manifestUrl := some url
    completedAt := some completedAt }

def ExportJob.failed (row : ExportJob) (error : String) : ExportJob :=
  { row with status := .failed, errorMessage := some error }

def JobStatus.next : JobStatus → List JobStatus
  | .pending => [.running, .failed]
  | .running => [.completed, .failed]
  | .completed => [.failed]
  | .failed => []

def Kept {α : Type} (before after : Option α) : Prop := ∀ a, before = some a → after = some a

structure Moves (row row' : ExportJob) : Prop where
  datasetVersionId : row'.datasetVersionId = row.datasetVersionId
  format : row'.format = row.format
  targetBucket : row'.targetBucket = row.targetBucket
  targetPrefix : row'.targetPrefix = row.targetPrefix
  status : row'.status = row.status ∨ row'.status ∈ row.status.next
  progressPct : ∀ p, row.progressPct = some p → ∃ q, row'.progressPct = some q ∧ p ≤ q
  manifestUrl : Kept row.manifestUrl row'.manifestUrl
  errorMessage : Kept row.errorMessage row'.errorMessage
  startedAt : Kept row.startedAt row'.startedAt
  completedAt : Kept row.completedAt row'.completedAt

variable (dumpsLength : Json → ℕ) (settings : Settings) (db : Database) (files : Files) (uploads : List Upload)
  (id : Uuid)

def Resolved (job : ExportJob) (episodeRefs : List EpisodeRef) : Prop :=
  ∃ version, db.versions.get? job.datasetVersionId = some version ∧
    resolveEpisodeRefs db version.episodeRefs = some episodeRefs

/-- What the job's exporter has made of the refs of the job's version, and the files that it has left. -/
def ExportOf (job : ExportJob) (result : ExportResult) (written : Files) : Prop :=
  ∃ episodeRefs calls before, Resolved db job episodeRefs ∧
    runExporter dumpsLength settings calls id job episodeRefs before = .ok (result, written)

def ShardUploaded (job : ExportJob) (result : ExportResult) (written : Files) (i : ℕ) : Prop :=
  ∀ shard, result.shards[i]? = some shard → ∃ content, written shard.path = some content ∧
    ⟨⟨job.targetBucket, shardKey id job i⟩, content⟩ ∈ uploads

def Delivered (job : ExportJob) : Prop :=
  ∃ result written, ExportOf dumpsLength settings db id job result written ∧
    (∀ i < result.shards.length, ShardUploaded uploads id job result written i) ∧
    ⟨manifestLocation id job, .file (.json result.manifest)⟩ ∈ uploads

def OnDisk (result : ExportResult) (written : Files) : Prop :=
  ∀ shard ∈ result.shards, files shard.path = written shard.path

def outputPath (name : String) : String := joinPath (joinPath settings.tmpDir id.text) name

inductive Lawful : ExportJob → Prop
  | new {job : ExportJob} (h : job.IsNew) : Lawful job
  | running {job : ExportJob} {startedAt : Timestamp} {progressPct : ℚ} (h : job.IsNew) (hlow : 0 ≤ progressPct)
      (hhigh : progressPct ≤ 100) : Lawful (job.running startedAt progressPct)
  | completed {job : ExportJob} {startedAt completedAt : Timestamp} (h : job.IsNew)
      (hdelivered : Delivered dumpsLength settings db uploads id job) :
      Lawful (job.completed startedAt completedAt (manifestUrl id job))
  | failed {row : ExportJob} {error : String} (h : Lawful row) (hstatus : row.status ≠ .failed) :
      Lawful (row.failed error)

def progressAfter (n k : ℕ) : ℚ := k / n * 100

inductive RowAt : WorkerStep → ExportJob → Prop
  | getJob {job : ExportJob} (h : job.IsNew) : RowAt .getJob job
  | updateStatus {job : ExportJob} (h : job.IsNew) : RowAt (.updateStatus job) job
  | getVersion {job : ExportJob} {startedAt : Timestamp} (h : job.IsNew) :
      RowAt (.getVersion job) (job.running startedAt 0)
  | resolve {job : ExportJob} {startedAt : Timestamp} {version : DatasetVersion} (h : job.IsNew)
      (hversion : db.versions.get? job.datasetVersionId = some version) :
      RowAt (.resolve job version) (job.running startedAt 0)
  | export {job : ExportJob} {startedAt : Timestamp} {episodeRefs : List EpisodeRef} (h : job.IsNew)
      (hrefs : Resolved db job episodeRefs) : RowAt (.export job episodeRefs) (job.running startedAt 0)
  | upload {job : ExportJob} {startedAt : Timestamp} {result : ExportResult} {shard : ShardInfo × ℕ}
      {rest : List (ShardInfo × ℕ)} {written : Files} {k : ℕ} (h : job.IsNew)
      (hexport : ExportOf dumpsLength settings db id job result written) (hdisk : OnDisk files result written)
      (hrest : result.shards.zipIdx.drop k = shard :: rest)
      (huploaded : ∀ i < k, ShardUploaded uploads id job result written i) :
      RowAt (.upload job result shard rest) (job.running startedAt (progressAfter result.shards.length k))
  | updateProgress {job : ExportJob} {startedAt : Timestamp} {result : ExportResult} {shard : ShardInfo × ℕ}
      {rest : List (ShardInfo × ℕ)} {written : Files} {k : ℕ} (h : job.IsNew)
      (hexport : ExportOf dumpsLength settings db id job result written) (hdisk : OnDisk files result written)
      (hrest : result.shards.zipIdx.drop k = shard :: rest)
      (huploaded : ∀ i < k + 1, ShardUploaded uploads id job result written i) :
      RowAt (.updateProgress job result shard rest) (job.running startedAt (progressAfter result.shards.length k))
  | uploadManifest {job : ExportJob} {startedAt : Timestamp} {result : ExportResult} {written : Files} {progressPct : ℚ}
      (h : job.IsNew) (hexport : ExportOf dumpsLength settings db id job result written) (hlow : 0 ≤ progressPct)
      (hhigh : progressPct ≤ 100)
      (huploaded : ∀ i < result.shards.length, ShardUploaded uploads id job result written i) :
      RowAt (.uploadManifest job result) (job.running startedAt progressPct)
  | complete {job : ExportJob} {startedAt : Timestamp} {progressPct : ℚ} (h : job.IsNew) (hlow : 0 ≤ progressPct)
      (hhigh : progressPct ≤ 100) (hdelivered : Delivered dumpsLength settings db uploads id job) :
      RowAt (.complete job) (job.running startedAt progressPct)
  | ack {row : ExportJob} (h : Lawful dumpsLength settings db uploads id row) (hstatus : row.status ≠ .failed) :
      RowAt .ack row
  | getFailedJob {row : ExportJob} {error : String} (h : Lawful dumpsLength settings db uploads id row)
      (hstatus : row.status ≠ .failed) : RowAt (.getFailedJob error) row
  | fail {row : ExportJob} {error : String} (h : Lawful dumpsLength settings db uploads id row)
      (hstatus : row.status ≠ .failed) : RowAt (.fail error) row

variable {dumpsLength settings db files uploads id} {files' : Files} {more : List Upload} {job row row' : ExportJob}
  {step : WorkerStep}

theorem running_ne_failed {job : ExportJob} {startedAt : Timestamp} {progressPct : ℚ} :
    (job.running startedAt progressPct).status ≠ .failed := by
  intro h
  cases h

theorem completed_ne_failed {job : ExportJob} {startedAt completedAt : Timestamp} {url : String} :
    (job.completed startedAt completedAt url).status ≠ .failed := by
  intro h
  cases h

theorem Moves.refl (row : ExportJob) : Moves row row :=
  ⟨rfl, rfl, rfl, rfl, .inl rfl, fun p hp => ⟨p, hp, le_rfl⟩, fun _ h => h, fun _ h => h, fun _ h => h, fun _ h => h⟩

theorem ShardUploaded.mono {result : ExportResult} {written : Files} {i : ℕ}
    (h : ShardUploaded uploads id job result written i) (hmore : uploads ⊆ more) :
    ShardUploaded more id job result written i := by
  intro shard hshard
  obtain ⟨content, hcontent, hmem⟩ := h shard hshard
  exact ⟨content, hcontent, hmore hmem⟩

theorem Delivered.mono (h : Delivered dumpsLength settings db uploads id job) (hmore : uploads ⊆ more) :
    Delivered dumpsLength settings db more id job := by
  obtain ⟨result, written, hexport, hshards, hmanifest⟩ := h
  exact ⟨result, written, hexport, fun i hi => (hshards i hi).mono hmore, hmore hmanifest⟩

theorem runExporter_outside {calls : Calls} {episodeRefs : List EpisodeRef} {result : ExportResult} {path : String}
    (h : runExporter dumpsLength settings calls id job episodeRefs files = .ok (result, files'))
    (hpath : ∀ name, path ≠ outputPath settings id name) : files' path = files path := by
  unfold runExporter at h
  split_ifs at h
  · exact webDatasetExport_outside h hpath
  · exact rawExport_outside h hpath

theorem runExporter_paths {calls : Calls} {episodeRefs : List EpisodeRef} {result : ExportResult}
    (h : runExporter dumpsLength settings calls id job episodeRefs files = .ok (result, files')) :
    ∀ shard ∈ result.shards, ∃ name, shard.path = outputPath settings id name := by
  intro shard hshard
  unfold runExporter at h
  split_ifs at h
  · obtain ⟨groups, -, -, hshards, -⟩ := webDatasetExport_eq_ok h
    rw [hshards] at hshard
    obtain ⟨k, hk, rfl⟩ := List.mem_mapIdx.mp hshard
    exact ⟨_, rfl⟩
  · obtain ⟨ps, -, hshards, -⟩ := rawExport_eq_ok h
    rw [hshards] at hshard
    obtain ⟨p, -, rfl⟩ := List.mem_map.mp hshard
    exact ⟨_, rfl⟩

theorem outputPath_ne {other : Uuid} (hother : other ≠ id) (name name' : String) :
    outputPath settings other name ≠ outputPath settings id name' := by
  intro h
  exact hother (Uuid.text_injective (joinPath_nested other.text_ne_empty id.text_ne_empty other.slash_not_mem_text
    id.slash_not_mem_text h))

theorem OnDisk.keep {result : ExportResult} {written : Files} (h : OnDisk files result written)
    (hexport : ExportOf dumpsLength settings db id job result written)
    (hfiles : ∀ name, files' (outputPath settings id name) = files (outputPath settings id name)) :
    OnDisk files' result written := by
  intro shard hshard
  obtain ⟨episodeRefs, calls, before, -, hrun⟩ := hexport
  obtain ⟨name, hname⟩ := runExporter_paths hrun shard hshard
  rw [← h shard hshard, hname]
  exact hfiles name

theorem Lawful.mono (h : Lawful dumpsLength settings db uploads id row) (hmore : uploads ⊆ more) :
    Lawful dumpsLength settings db more id row := by
  induction h with
  | new h => exact .new h
  | running h hlow hhigh => exact .running h hlow hhigh
  | completed h hdelivered => exact .completed h (hdelivered.mono hmore)
  | failed h hstatus ih => exact .failed ih hstatus

theorem RowAt.mono (h : RowAt dumpsLength settings db files uploads id step row) (hmore : uploads ⊆ more)
    (hfiles : ∀ name, files' (outputPath settings id name) = files (outputPath settings id name)) :
    RowAt dumpsLength settings db files' more id step row := by
  cases h with
  | getJob h => exact .getJob h
  | updateStatus h => exact .updateStatus h
  | getVersion h => exact .getVersion h
  | resolve h hversion => exact .resolve h hversion
  | «export» h hrefs => exact .export h hrefs
  | upload h hexport hdisk hrest huploaded =>
    exact .upload h hexport (hdisk.keep hexport hfiles) hrest fun i hi => (huploaded i hi).mono hmore
  | updateProgress h hexport hdisk hrest huploaded =>
    exact .updateProgress h hexport (hdisk.keep hexport hfiles) hrest fun i hi => (huploaded i hi).mono hmore
  | uploadManifest h hexport hlow hhigh huploaded =>
    exact .uploadManifest h hexport hlow hhigh fun i hi => (huploaded i hi).mono hmore
  | complete h hlow hhigh hdelivered => exact .complete h hlow hhigh (hdelivered.mono hmore)
  | ack h hstatus => exact .ack (h.mono hmore) hstatus
  | getFailedJob h hstatus => exact .getFailedJob (h.mono hmore) hstatus
  | fail h hstatus => exact .fail (h.mono hmore) hstatus

theorem progressAfter_nonneg (n k : ℕ) : 0 ≤ progressAfter n k := by
  unfold progressAfter
  positivity

theorem progressAfter_le {n k : ℕ} (h : k ≤ n) : progressAfter n k ≤ 100 := by
  have hratio : (k : ℚ) / n ≤ 1 := div_le_one_of_le₀ (by exact_mod_cast h) (by positivity)
  unfold progressAfter
  linarith

theorem progressAfter_mono (n : ℕ) {k l : ℕ} (h : k ≤ l) : progressAfter n k ≤ progressAfter n l := by
  have hle : (k : ℚ) ≤ l := by exact_mod_cast h
  unfold progressAfter
  gcongr

theorem percent_eq (n i : ℕ) : percent n i = progressAfter n (i + 1) := by
  rw [percent, progressAfter, Nat.cast_add, Nat.cast_one]

theorem index_of_drop {result : ExportResult} {shard : ShardInfo × ℕ} {rest : List (ShardInfo × ℕ)} {k : ℕ}
    (h : result.shards.zipIdx.drop k = shard :: rest) :
    result.shards[k]? = some shard.1 ∧ shard.2 = k ∧ result.shards.zipIdx.drop (k + 1) = rest := by
  have hlt : k < result.shards.zipIdx.length := by
    by_contra hle
    rw [List.drop_eq_nil_of_le (not_lt.mp hle)] at h
    cases h
  rw [List.drop_eq_getElem_cons hlt, List.cons.injEq] at h
  rw [List.length_zipIdx] at hlt
  refine ⟨?_, ?_, h.2⟩
  · rw [← h.1, List.getElem_zipIdx, List.getElem?_eq_getElem hlt]
  · rw [← h.1, List.getElem_zipIdx, zero_add]

theorem lt_of_drop {result : ExportResult} {shard : ShardInfo × ℕ} {rest : List (ShardInfo × ℕ)} {k : ℕ}
    (h : result.shards.zipIdx.drop k = shard :: rest) : k < result.shards.length :=
  (List.getElem?_eq_some_iff.mp (index_of_drop h).1).1

theorem RowAt.lawful (h : RowAt dumpsLength settings db files uploads id step row) :
    Lawful dumpsLength settings db uploads id row ∧ row.status ≠ .failed := by
  have hnew {job : ExportJob} (h : job.IsNew) : job.status ≠ .failed := by
    rw [h.status]
    decide
  cases h with
  | getJob h => exact ⟨.new h, hnew h⟩
  | updateStatus h => exact ⟨.new h, hnew h⟩
  | getVersion h => exact ⟨.running h le_rfl (by norm_num), running_ne_failed⟩
  | resolve h => exact ⟨.running h le_rfl (by norm_num), running_ne_failed⟩
  | «export» h => exact ⟨.running h le_rfl (by norm_num), running_ne_failed⟩
  | upload h hexport hdisk hrest =>
    exact ⟨.running h (progressAfter_nonneg ..) (progressAfter_le (lt_of_drop hrest).le), running_ne_failed⟩
  | updateProgress h hexport hdisk hrest =>
    exact ⟨.running h (progressAfter_nonneg ..) (progressAfter_le (lt_of_drop hrest).le), running_ne_failed⟩
  | uploadManifest h hexport hlow hhigh => exact ⟨.running h hlow hhigh, running_ne_failed⟩
  | complete h hlow hhigh => exact ⟨.running h hlow hhigh, running_ne_failed⟩
  | ack h hstatus => exact ⟨h, hstatus⟩
  | getFailedJob h hstatus => exact ⟨h, hstatus⟩
  | fail h hstatus => exact ⟨h, hstatus⟩

theorem moves_running {startedAt : Timestamp} {p q : ℚ} (h : p ≤ q) :
    Moves (job.running startedAt p) (job.running startedAt q) := by
  refine ⟨rfl, rfl, rfl, rfl, .inl rfl, ?_, fun _ h => h, fun _ h => h, fun _ h => h, fun _ h => h⟩
  rintro r hr
  rw [← Option.some.inj hr]
  exact ⟨q, rfl, h⟩

theorem moves_started (h : job.IsNew) (startedAt : Timestamp) : Moves job (job.running startedAt 0) := by
  refine ⟨rfl, rfl, rfl, rfl, .inr ?_, ?_, fun _ h => h, fun _ h => h, ?_, fun _ h => h⟩
  · rw [h.status]
    exact List.mem_cons_self ..
  · intro p hp
    rw [h.progressPct, Option.some.injEq] at hp
    exact ⟨0, rfl, hp.ge⟩
  · intro time htime
    rw [h.startedAt] at htime
    cases htime

theorem moves_completed (h : job.IsNew) (startedAt completedAt : Timestamp) (url : String) {p : ℚ} (hp : p ≤ 100) :
    Moves (job.running startedAt p) (job.completed startedAt completedAt url) := by
  refine ⟨rfl, rfl, rfl, rfl, .inr (List.mem_cons_self ..), ?_, ?_, fun _ h => h, fun _ h => h, ?_⟩
  · intro q hq
    rw [← Option.some.inj hq]
    exact ⟨100, rfl, hp⟩
  · intro link hlink
    change job.manifestUrl = some link at hlink
    rw [h.manifestUrl] at hlink
    cases hlink
  · intro time htime
    change job.completedAt = some time at htime
    rw [h.completedAt] at htime
    cases htime

theorem Lawful.errorMessage (h : Lawful dumpsLength settings db uploads id row) (hstatus : row.status ≠ .failed) :
    row.errorMessage = none := by
  cases h with
  | new h => exact h.errorMessage
  | running h => exact h.errorMessage
  | completed h => exact h.errorMessage
  | failed h => exact absurd rfl hstatus

theorem moves_failed (h : Lawful dumpsLength settings db uploads id row) (hstatus : row.status ≠ .failed)
    (error : String) : Moves row (row.failed error) := by
  refine ⟨rfl, rfl, rfl, rfl, .inr ?_, fun p hp => ⟨p, hp, le_rfl⟩, fun _ h => h, ?_, fun _ h => h, fun _ h => h⟩
  · cases hs : row.status with
    | failed => exact absurd hs hstatus
    | pending => exact List.mem_cons_of_mem _ (List.mem_cons_self ..)
    | running => exact List.mem_cons_of_mem _ (List.mem_cons_self ..)
    | completed => exact List.mem_cons_self ..
  · intro e he
    rw [h.errorMessage hstatus] at he
    cases he

end Rows

section Calls

variable {dumpsLength : Json → ℕ} {settings : Settings} {calls : Calls} {msgId : String} {id : Uuid} {w : World}
  {job row : ExportJob} {step : WorkerStep}

theorem call_of_turn (dumpsLength : Json → ℕ) (settings : Settings) (calls : Calls) (msgId : String) (id : Uuid)
    (w : World) (step : WorkerStep) :
    (∃ error, step.call dumpsLength settings calls msgId id w = (step.onError error, w)) ∨
      ∃ turn, step.turn dumpsLength settings calls msgId id w = .ok turn ∧
        ((∃ error, step.call dumpsLength settings calls msgId id w = (step.onError error, turn.effect w)) ∨
          ∃ rest, turn.next = .ok rest ∧ step.call dumpsLength settings calls msgId id w = (rest, turn.effect w)) := by
  unfold WorkerStep.call
  cases hturn : step.turn dumpsLength settings calls msgId id w with
  | error error => exact .inl ⟨error, rfl⟩
  | ok turn =>
    obtain ⟨outcome, effect, answered⟩ := turn
    cases outcome with
    | ok =>
      cases answered with
      | error error => exact .inr ⟨_, rfl, .inl ⟨error, rfl⟩⟩
      | ok rest => exact .inr ⟨_, rfl, .inr ⟨rest, rfl, rfl⟩⟩
    | raises error => exact .inl ⟨error, rfl⟩
    | raisesLate error => exact .inr ⟨_, rfl, .inl ⟨error, rfl⟩⟩

theorem onError_cases {error : String} {step' : WorkerStep} (h : step.onError error = some step') :
    step' = .getFailedJob error ∧ ∀ cause, step ≠ .fail cause := by
  cases step with
  | getFailedJob cause => cases h
  | fail cause => cases h
  | _ =>
    cases h
    exact ⟨rfl, nofun⟩

structure TurnRow (dumpsLength : Json → ℕ) (settings : Settings) (id : Uuid) (w : World) (row : ExportJob)
    (step : WorkerStep) (turn : Turn) : Prop where
  database : (turn.effect w).database = w.database
  uploads : w.uploads ⊆ (turn.effect w).uploads
  row : ∃ row', (turn.effect w).jobs.get? id = some row' ∧ Moves row row' ∧
    Lawful dumpsLength settings w.database (turn.effect w).uploads id row' ∧
    ((∀ cause, step ≠ .fail cause) → row'.status ≠ .failed) ∧
    ∀ step', turn.next = .ok (some step') →
      RowAt dumpsLength settings w.database (turn.effect w).files (turn.effect w).uploads id step' row'

theorem get?_updateJob (f : ExportJob → ExportJob) (hrow : w.jobs.get? id = some row) :
    (w.updateJob id f).jobs.get? id = some (f row) := by
  rw [World.updateJob, OrderedDict.get?_modify, if_pos rfl, hrow, Option.map_some]

theorem turnRow_same {turn : Turn} (hrow : w.jobs.get? id = some row)
    (h : RowAt dumpsLength settings w.database w.files w.uploads id step row)
    (hjobs : (turn.effect w).jobs = w.jobs) (hdatabase : (turn.effect w).database = w.database)
    (huploads : w.uploads ⊆ (turn.effect w).uploads)
    (hnext : ∀ step', turn.next = .ok (some step') →
      RowAt dumpsLength settings w.database (turn.effect w).files (turn.effect w).uploads id step' row) :
    TurnRow dumpsLength settings id w row step turn := by
  refine ⟨hdatabase, huploads, row, ?_, .refl row, h.lawful.1.mono huploads, fun _ => h.lawful.2, hnext⟩
  rw [hjobs, hrow]

theorem rowAt_uploadFrom {db : Database} {files written : Files} {uploads : List Upload} {startedAt : Timestamp}
    {result : ExportResult} {k : ℕ} (h : job.IsNew) (hexport : ExportOf dumpsLength settings db id job result written)
    (hdisk : OnDisk files result written) (hk : k ≤ result.shards.length)
    (huploaded : ∀ i < k, ShardUploaded uploads id job result written i) :
    RowAt dumpsLength settings db files uploads id (uploadFrom job result (result.shards.zipIdx.drop k))
      (job.running startedAt (progressAfter result.shards.length k)) := by
  cases hdrop : result.shards.zipIdx.drop k with
  | nil =>
    have hlength := List.drop_eq_nil_iff.mp hdrop
    rw [List.length_zipIdx] at hlength
    exact .uploadManifest h hexport (progressAfter_nonneg ..) (progressAfter_le hk)
      fun i hi => huploaded i (by omega)
  | cons shard rest => exact .upload h hexport hdisk hdrop huploaded

theorem shardUploaded_append {result : ExportResult} {written : Files} {shard : ShardInfo × ℕ}
    {rest : List (ShardInfo × ℕ)} {k : ℕ} {content : Content} (hdisk : OnDisk files result written)
    (hrest : result.shards.zipIdx.drop k = shard :: rest) (hcontent : files shard.1.path = some content)
    (huploaded : ∀ i < k, ShardUploaded uploads id job result written i) :
    ∀ i < k + 1, ShardUploaded (uploads ++ [⟨⟨job.targetBucket, shardKey id job shard.2⟩, content⟩]) id job result
      written i := by
  obtain ⟨hshard, hindex, -⟩ := index_of_drop hrest
  intro i hi
  by_cases hik : i = k
  · intro other hother
    rw [hik, hshard, Option.some.injEq] at hother
    rw [← hother, hik, ← hindex, ← hdisk shard.1 (List.mem_of_getElem? hshard)]
    exact ⟨content, hcontent, List.mem_append_right _ (List.mem_singleton_self _)⟩
  · exact (huploaded i (by omega)).mono (List.subset_append_left ..)

theorem turn_row {turn : Turn} (hrow : w.jobs.get? id = some row)
    (h : RowAt dumpsLength settings w.database w.files w.uploads id step row)
    (hturn : step.turn dumpsLength settings calls msgId id w = .ok turn) :
    TurnRow dumpsLength settings id w row step turn := by
  cases h with
  | getJob h =>
    cases hturn
    refine turnRow_same hrow (.getJob h) rfl rfl (List.Subset.refl _) fun step' hnext => ?_
    simp only [hrow, Except.ok.injEq, Option.some.injEq] at hnext
    exact hnext ▸ .updateStatus h
  | updateStatus h =>
    cases hturn
    have hstart : ({ row with status := .running, startedAt := some (calls.clock .updateStatus) } : ExportJob) =
        row.running (calls.clock .updateStatus) 0 := by
      rw [ExportJob.running, ← h.progressPct]
    refine ⟨rfl, List.Subset.refl _, _, (get?_updateJob _ hrow).trans (congrArg some hstart), moves_started h _,
      .running h le_rfl (by norm_num), fun _ => running_ne_failed, fun step' hnext => ?_⟩
    cases hnext
    exact .getVersion h
  | getVersion h =>
    cases hturn
    refine turnRow_same hrow (.getVersion h) rfl rfl (List.Subset.refl _) fun step' hnext => ?_
    obtain ⟨version, hversion, he⟩ := except_map_eq_ok.mp hnext
    cases he
    exact .resolve h (found_eq_ok.mp hversion)
  | resolve h hversion =>
    cases hturn
    refine turnRow_same hrow (.resolve h hversion) rfl rfl (List.Subset.refl _) fun step' hnext => ?_
    obtain ⟨episodeRefs, hrefs, he⟩ := except_map_eq_ok.mp hnext
    cases he
    exact .export h ⟨_, hversion, found_eq_ok.mp hrefs⟩
  | @«export» job startedAt episodeRefs h hrefs =>
    obtain ⟨⟨result, files⟩, hresult, rfl⟩ := except_map_eq_ok.mp hturn
    refine turnRow_same hrow (.export h hrefs) rfl rfl (List.Subset.refl _) fun step' hnext => ?_
    cases hnext
    have hexport : ExportOf dumpsLength settings w.database id job result files := ⟨_, calls, w.files, hrefs, hresult⟩
    have hat : RowAt dumpsLength settings w.database files w.uploads id
        (uploadFrom job result (result.shards.zipIdx.drop 0))
        (job.running startedAt (progressAfter result.shards.length 0)) :=
      rowAt_uploadFrom h hexport (fun _ _ => rfl) (Nat.zero_le _) fun i hi => absurd hi (Nat.not_lt_zero i)
    rw [progressAfter, Nat.cast_zero, zero_div, zero_mul, List.drop_zero] at hat
    exact hat
  | @upload job startedAt result shard rest written k h hexport hdisk hrest huploaded =>
    obtain ⟨content, hfound, rfl⟩ := except_map_eq_ok.mp hturn
    have hmore : w.uploads ⊆ w.uploads ++ [⟨⟨job.targetBucket, shardKey id job shard.2⟩, content⟩] :=
      List.subset_append_left ..
    refine turnRow_same hrow (.upload h hexport hdisk hrest huploaded) rfl rfl hmore fun step' hnext => ?_
    cases hnext
    exact .updateProgress h hexport hdisk hrest
      (shardUploaded_append hdisk hrest (found_eq_ok.mp hfound) huploaded)
  | @updateProgress job startedAt result shard rest written k h hexport hdisk hrest huploaded =>
    cases hturn
    have hk := lt_of_drop hrest
    obtain ⟨-, hindex, hdrop⟩ := index_of_drop hrest
    have hpercent : percent result.shards.length shard.2 = progressAfter result.shards.length (k + 1) := by
      rw [percent_eq, hindex]
    have hprogress : (job.running startedAt (percent result.shards.length shard.2)) =
        job.running startedAt (progressAfter result.shards.length (k + 1)) := by
      rw [hpercent]
    refine ⟨rfl, List.Subset.refl _, _, (get?_updateJob _ hrow).trans (congrArg some hprogress),
      moves_running (progressAfter_mono _ (Nat.le_succ k)), .running h (progressAfter_nonneg ..) (progressAfter_le hk),
      fun _ => running_ne_failed, fun step' hnext => ?_⟩
    cases hnext
    rw [← hdrop]
    exact rowAt_uploadFrom h hexport hdisk hk huploaded
  | @uploadManifest job startedAt result written progressPct h hexport hlow hhigh huploaded =>
    cases hturn
    have hmore : w.uploads ⊆ w.uploads ++ [⟨manifestLocation id job, .file (.json result.manifest)⟩] :=
      List.subset_append_left ..
    refine turnRow_same hrow (.uploadManifest h hexport hlow hhigh huploaded) rfl rfl hmore fun step' hnext => ?_
    cases hnext
    exact .complete h hlow hhigh ⟨result, written, hexport, fun i hi => (huploaded i hi).mono hmore,
      List.mem_append_right _ (List.mem_singleton_self _)⟩
  | @complete job startedAt progressPct h hlow hhigh hdelivered =>
    cases hturn
    have hlawful : Lawful dumpsLength settings w.database w.uploads id
        (job.completed startedAt (calls.clock .complete) (manifestUrl id job)) := .completed h hdelivered
    refine ⟨rfl, List.Subset.refl _, _, get?_updateJob _ hrow, moves_completed h _ _ _ hhigh, hlawful,
      fun _ => completed_ne_failed, fun step' hnext => ?_⟩
    cases hnext
    exact .ack hlawful completed_ne_failed
  | ack h hstatus =>
    cases hturn
    exact turnRow_same hrow (.ack h hstatus) rfl rfl (List.Subset.refl _) fun step' hnext => by cases hnext
  | getFailedJob h hstatus =>
    cases hturn
    refine turnRow_same hrow (.getFailedJob h hstatus) rfl rfl (List.Subset.refl _) fun step' hnext => ?_
    simp only [hrow, Option.map_some, Except.ok.injEq, Option.some.injEq] at hnext
    exact hnext ▸ .fail h hstatus
  | @fail row error h hstatus =>
    cases hturn
    exact ⟨rfl, List.Subset.refl _, _, get?_updateJob _ hrow, moves_failed h hstatus error, .failed h hstatus,
      fun hfail => absurd rfl (hfail error), fun step' hnext => by cases hnext⟩

structure CallRow (dumpsLength : Json → ℕ) (settings : Settings) (id : Uuid) (w : World) (row : ExportJob)
    (p : Option WorkerStep × World) : Prop where
  database : p.2.database = w.database
  uploads : w.uploads ⊆ p.2.uploads
  row : ∃ row', p.2.jobs.get? id = some row' ∧ Moves row row' ∧
    Lawful dumpsLength settings p.2.database p.2.uploads id row' ∧
    ∀ step', p.1 = some step' → RowAt dumpsLength settings p.2.database p.2.files p.2.uploads id step' row'

theorem row_call (calls : Calls) (msgId : String) (hrow : w.jobs.get? id = some row)
    (h : RowAt dumpsLength settings w.database w.files w.uploads id step row) :
    CallRow dumpsLength settings id w row (step.call dumpsLength settings calls msgId id w) := by
  rcases call_of_turn dumpsLength settings calls msgId id w step with
    ⟨error, hcall⟩ | ⟨turn, hturn, ⟨error, hcall⟩ | ⟨rest, hnext, hcall⟩⟩
  · rw [hcall]
    refine ⟨rfl, List.Subset.refl _, row, hrow, .refl row, h.lawful.1, fun step' hstep => ?_⟩
    obtain ⟨rfl, -⟩ := onError_cases hstep
    exact .getFailedJob h.lawful.1 h.lawful.2
  · rw [hcall]
    obtain ⟨hdatabase, huploads, row', hrow', hmoves, hlawful, hstatus, -⟩ := turn_row hrow h hturn
    refine ⟨hdatabase, huploads, row', hrow', hmoves, hdatabase ▸ hlawful, fun step' hstep => ?_⟩
    obtain ⟨rfl, hfail⟩ := onError_cases hstep
    rw [hdatabase]
    exact .getFailedJob hlawful (hstatus hfail)
  · rw [hcall]
    obtain ⟨hdatabase, huploads, row', hrow', hmoves, hlawful, -, hat⟩ := turn_row hrow h hturn
    refine ⟨hdatabase, huploads, row', hrow', hmoves, hdatabase ▸ hlawful, fun step' hstep => ?_⟩
    rw [hdatabase]
    exact hat step' (hnext.trans (congrArg Except.ok hstep))

theorem call_files {other : Uuid} (hother : other ≠ id) (name : String) :
    (step.call dumpsLength settings calls msgId id w).2.files (outputPath settings other name) =
      w.files (outputPath settings other name) := by
  have hturn {turn : Turn} (h : step.turn dumpsLength settings calls msgId id w = .ok turn) :
      (turn.effect w).files (outputPath settings other name) = w.files (outputPath settings other name) := by
    cases step with
    | «export» job episodeRefs =>
      obtain ⟨⟨result, files⟩, hrun, rfl⟩ := except_map_eq_ok.mp h
      exact runExporter_outside hrun (outputPath_ne hother name)
    | upload job result shard rest =>
      obtain ⟨content, -, rfl⟩ := except_map_eq_ok.mp h
      rfl
    | _ =>
      cases h
      rfl
  rcases call_of_turn dumpsLength settings calls msgId id w step with
    ⟨error, hcall⟩ | ⟨turn, h, ⟨error, hcall⟩ | ⟨rest, -, hcall⟩⟩
  · rw [hcall]
  · rw [hcall]
    exact hturn h
  · rw [hcall]
    exact hturn h

end Calls

end Embedai.ExportWorker
