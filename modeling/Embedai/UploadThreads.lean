import Embedai.IngestPipeline
import Embedai.UploadRequests
import Embedai.UploadRoundTrip

/-!
Uploads of the web client over the shared stores, one call of the gateway at a time, beside stream seals and pipeline
workers. A client sends its next request when the last one is answered, and none after an error.
-/

namespace Embedai.UploadThreads

open Gateway Handlers StreamServer TracedHandlers
open IngestPipeline (Thread CompleteStep SealWork setThread gatewayOutcomes completeFails)

/-- A call of `uploadEpisodeFile`, and the ids that the gateway makes for it. -/
structure Upload where
  file : File
  -- the size of a `File` is exact
  size : file.content.length ≤ 2 ^ 53
  jwtProjectId : String
  episodeId : Uuid
  sessionId : Uuid
  now : ℤ

namespace Upload

variable (u : Upload)

def response : InitResponse :=
  ⟨u.episodeId.text, u.sessionId.text, uploadChunkSize, totalChunks (initRequest u.file).sizeBytes⟩

def chunk (i : ℕ) : List UInt8 :=
  let start := Float64.ofInt (i * u.response.chunkSize)
  u.file.slice start (Float64.ofInt (start + u.response.chunkSize))

def path : String := storagePath u.episodeId.text u.file.name

end Upload

/-- The next call of an `Init` or of an `UploadChunk` request; `i` is the client's, `chunkN` what the gateway reads. -/
inductive UploadStep
  | createEpisode
  | createUploadSession
  | getUploadSession (i : ℕ)
  | uploadChunk (i chunkN : ℕ)
  | incrementReceivedChunks (i : ℕ)

inductive Job
  | upload (u : Upload) (step : UploadStep)
  | thread (th : Thread)

def Upload.request (u : Upload) (i : ℕ) : Job :=
  if i < u.response.totalChunks.toNat then .upload u (.getUploadSession i)
  else .thread (.complete u.sessionId.text .getUploadSession)

def uploadCall (u : Upload) (g : Stores) : UploadStep → Option (Option Job × Stores)
  | .createEpisode =>
      (createEpisode u.episodeId.text u.jwtProjectId u.file.name (fileFormat u.file.name)
        (initRequest u.file).sizeBytes g).map fun (_, g) => (some (.upload u .createUploadSession), g)
  | .createUploadSession =>
      (createUploadSession u.sessionId.text u.episodeId.text u.response.totalChunks uploadChunkSize ""
        (u.now + 24 * 3600 * 10 ^ 9) g).map fun (_, g) => (some (u.request 0), g)
  | .getUploadSession i =>
    match chunkNumber (toString i) with
    | .error _ => none
    | .ok chunkN => (getUploadSession u.sessionId.text g).map fun (sess, g) =>
        (if sess.status = .inProgress ∧ chunkN < sess.totalChunks then some (.upload u (.uploadChunk i chunkN))
        else none, g)
  | .uploadChunk i chunkN => (putObject (chunkKey u.sessionId.text chunkN) (u.chunk i) g).map fun (_, g) =>
      (some (.upload u (.incrementReceivedChunks i)), g)
  | .incrementReceivedChunks i => (incrementReceivedChunks u.sessionId.text g).map fun (_, g) =>
      (some (u.request (i + 1)), g)

namespace Job

def answer (projects : List String) (g : Stores) : Job → Option (Option Job × Stores)
  | upload u step => uploadCall u g step
  | thread th => (th.answer projects g).map fun (rest, t) => (rest.map thread, t)

def onError : Job → Option Job
  | upload .. => none
  | thread th => th.onError.map thread

def call (projects : List String) (outcome : Outcome Unit) (g : Stores) (job : Job) : Option Job × Stores :=
  match outcome, job.answer projects g with
  | .ok, some (rest, t) => (rest, t)
  | .raisesLate _, some (_, t) => (job.onError, t)
  | _, _ => (job.onError, g)

end Job

/-- `issued` are the ids that `uuid.New` has made, which are all different. -/
structure System where
  projects : List String
  stores : Stores
  uploads : OrderedDict ℕ Upload
  issued : List Uuid
  delivered : ℕ
  jobs : OrderedDict ℕ Job

def start (projects : List String) : System :=
  { projects := projects
    stores := emptyStores
    uploads := OrderedDict.empty
    issued := []
    delivered := 0
    jobs := OrderedDict.empty }

inductive Action
  | upload (tid : ℕ) (u : Upload)
  | sealEpisode (tid : ℕ) (episodeId : Uuid) (sessionId : String) (unixNano : ℤ) (data : List UInt8)
  | deliver (tid : ℕ) (metadata : Json)
  | call (tid : ℕ) (outcome : Outcome Unit)
  | crash (tid : ℕ)

def setJob (tid : ℕ) (rest : Option Job) (jobs : OrderedDict ℕ Job) : OrderedDict ℕ Job :=
  match rest with
  | some job => jobs.set tid job
  | none => jobs.erase tid

def spawn (tid : ℕ) (job : Job) (ids : List Uuid) (s : System) : Option System :=
  if tid ∉ s.jobs.keys ∧ tid ∉ s.uploads.keys ∧ (ids ++ s.issued).Nodup then
    some { s with issued := ids ++ s.issued, jobs := setJob tid (some job) s.jobs }
  else none

def next (s : System) : Action → Option System
  -- a request that `bindInit` refuses makes no call
  | .upload tid u =>
    if (bindInit (initRequest u.file)).toOption.isSome then
      (spawn tid (.upload u .createEpisode) [u.episodeId, u.sessionId] s).map fun t =>
        { t with uploads := t.uploads.set tid u }
    else none
  | .sealEpisode tid episodeId sessionId unixNano data =>
    spawn tid (.thread (.sealing ⟨episodeId.text, sessionId, unixNano, data⟩ .createEpisode)) [episodeId] s
  | .deliver tid metadata => (s.stores.events[s.delivered]?).bind fun event =>
      spawn tid (.thread (.process s.delivered event metadata .updateEpisodeStatus)) []
        { s with delivered := s.delivered + 1 }
  | .call tid outcome => (s.jobs.get? tid).map fun job =>
      { s with
        stores := (job.call s.projects outcome s.stores).2
        jobs := setJob tid (job.call s.projects outcome s.stores).1 s.jobs }
  | .crash tid =>
    match s.jobs.get? tid with
    | some (.thread (.process ..)) => some { s with jobs := setJob tid none s.jobs }
    | _ => none

theorem get?_setJob (tid : ℕ) (rest : Option Job) (jobs : OrderedDict ℕ Job) (j : ℕ) :
    (setJob tid rest jobs).get? j = if j = tid then rest else jobs.get? j := by
  cases rest with
  | none => exact OrderedDict.get?_erase ..
  | some job => exact OrderedDict.get?_set ..

theorem call_thread (projects : List String) (outcome : Outcome Unit) (g : Stores) (th : Thread) :
    (Job.thread th).call projects outcome g =
      ((th.call projects outcome g).1.map .thread, (th.call projects outcome g).2) := by
  unfold Job.call Thread.call
  rw [Job.answer]
  cases outcome <;> cases th.answer projects g <;> rfl

section Alone

variable (projects : List String) (outcomes : Job → Outcome Unit)

def alone : ℕ → Option Job × Stores → Stores
  | 0, (_, g) => g
  | _ + 1, (none, g) => g
  | n + 1, (some job, g) => alone n (job.call projects (outcomes job) g)

theorem alone_none (n : ℕ) (g : Stores) : alone projects outcomes n (none, g) = g := by
  cases n <;> rfl

variable {projects outcomes}

theorem alone_thread {outcomes' : Thread → Outcome Unit} (houtcomes : ∀ th, outcomes (.thread th) = outcomes' th)
    (n : ℕ) (rest : Option Thread) (g : Stores) :
    alone projects outcomes n (rest.map .thread, g) = IngestPipeline.alone projects outcomes' n (rest, g) := by
  induction n generalizing rest g with
  | zero => rfl
  | succ n ih =>
    cases rest with
    | none => rfl
    | some th =>
      rw [Option.map_some, alone, IngestPipeline.alone, houtcomes, call_thread]
      exact ih ..

theorem alone_upload {ε α β : Type} {u : Upload} {step : UploadStep} {fails : Bool} {e : ε}
    {request : Stores → Option (α × Stores)} {f : α → Handler Stores ε β} {n : ℕ} (rest : α → Option Job)
    (houtcome : outcomes (.upload u step) = if fails then .raises () else .ok)
    (hanswer : ∀ g, uploadCall u g step = (request g).map (fun p => (rest p.1, p.2)))
    (hrest : ∀ a g, alone projects outcomes n (rest a, g) = (Handlers.answer (f a) g).2) (g : Stores) :
    alone projects outcomes (n + 1) (some (.upload u step), g) =
      (Handlers.answer (attempt fails e request >>= f) g).2 := by
  rw [alone, answer_bind, answer_attempt]
  unfold Job.call Job.answer
  simp only [houtcome, hanswer]
  cases fails with
  | true => exact alone_none ..
  | false =>
    cases request g with
    | none => exact alone_none ..
    | some p => exact hrest p.1 p.2

end Alone

def uploadOutcomes (initFails completesFails : Call → Bool) (chunkFails : ℕ → Call → Bool) : Job → Outcome Unit
  | .upload _ .createEpisode => if initFails .createEpisode then .raises () else .ok
  | .upload _ .createUploadSession => if initFails .createUploadSession then .raises () else .ok
  | .upload _ (.getUploadSession i) => if chunkFails i .getUploadSession then .raises () else .ok
  | .upload _ (.uploadChunk i _) => if chunkFails i .uploadChunk then .raises () else .ok
  | .upload _ (.incrementReceivedChunks i) => if chunkFails i .incrementReceivedChunks then .raises () else .ok
  | .thread th => gatewayOutcomes completesFails th

theorem alone_completing (projects : List String) (initFails completesFails : Call → Bool)
    (chunkFails : ℕ → Call → Bool) (u : Upload) (g : Stores) :
    alone projects (uploadOutcomes initFails completesFails chunkFails) 6
        (some (.thread (.complete u.sessionId.text .getUploadSession)), g) =
      (Handlers.answer (complete completesFails u.sessionId.text) g).2 :=
  (alone_thread (fun _ => rfl) 6 (some (.complete u.sessionId.text .getUploadSession)) g).trans
    (IngestPipeline.alone_complete ..)

def sendRest (completesFails : Call → Bool) (chunkFails : ℕ → Call → Bool) (u : Upload) (is : List ℕ) :
    Handler Stores HttpError (String × List UploadProgress) := do
  let progress ← uploadChunks chunkFails u.file u.response is
  let _ ← complete completesFails u.sessionId.text
  return (u.episodeId.text, progress)

theorem sendRest_nil (completesFails : Call → Bool) (chunkFails : ℕ → Call → Bool) (u : Upload) (g : Stores) :
    (Handlers.answer (sendRest completesFails chunkFails u []) g).2 =
      (Handlers.answer (complete completesFails u.sessionId.text) g).2 := by
  simp only [sendRest, uploadChunks, answer_bind, answer_pure]
  rcases Handlers.answer (complete completesFails u.sessionId.text) g with ⟨_ | _, t⟩ <;> rfl

theorem sendRest_cons (completesFails : Call → Bool) (chunkFails : ℕ → Call → Bool) (u : Upload) (i : ℕ) (is : List ℕ)
    (g : Stores) :
    (Handlers.answer (sendRest completesFails chunkFails u (i :: is)) g).2 =
      (Handlers.answer (uploadChunk (chunkFails i) u.sessionId.text (toString i) (u.chunk i) >>= fun _ =>
        sendRest completesFails chunkFails u is) g).2 := by
  simp only [sendRest, uploadChunks, answer_bind, answer_pure, Upload.chunk, Upload.response]
  rcases Handlers.answer (uploadChunk (chunkFails i) u.sessionId.text (toString i) _) g with ⟨_ | _, t⟩
  · rfl
  · simp only []
    rcases Handlers.answer (uploadChunks chunkFails u.file _ is) t with ⟨_ | _, t⟩
    · rfl
    · simp only []
      rcases Handlers.answer (complete completesFails u.sessionId.text) t with ⟨_ | _, t⟩ <;> rfl

theorem alone_sending (projects : List String) (initFails completesFails : Call → Bool)
    (chunkFails : ℕ → Call → Bool) (u : Upload) (i m : ℕ) (him : i + m = u.response.totalChunks.toNat) (g : Stores) :
    alone projects (uploadOutcomes initFails completesFails chunkFails) (3 * m + 6) (some (u.request i), g) =
      (Handlers.answer (sendRest completesFails chunkFails u (List.range' i m)) g).2 := by
  induction m generalizing i g with
  | zero => rw [Upload.request, if_neg (by omega), alone_completing, List.range'_zero, sendRest_nil]
  | succ m ih =>
    rw [Upload.request, if_pos (by omega), List.range'_succ, sendRest_cons, uploadChunk]
    cases hnumber : chunkNumber (toString i) with
    | error e =>
      have hrefused : Job.answer projects g (.upload u (.getUploadSession i)) = none := by
        simp only [Job.answer, uploadCall, hnumber]
      have hlost : ∀ outcome, (Job.upload u (.getUploadSession i)).call projects outcome g = (none, g) := by
        intro outcome
        unfold Job.call
        rw [hrefused]
        cases outcome <;> rfl
      rw [show 3 * (m + 1) + 6 = 3 * m + 8 + 1 by omega, alone, hlost, alone_none, bind_assoc, answer_bind,
        answer_require]
    | ok chunkN =>
      simp only [bind_assoc]
      rw [show 3 * (m + 1) + 6 = 3 * m + 6 + 1 + 1 + 1 by omega, answer_bind, answer_require]
      refine alone_upload (fun (sess : UploadSession) =>
        if sess.status = .inProgress ∧ (chunkN : ℤ) < sess.totalChunks then some (.upload u (.uploadChunk i chunkN))
        else none) rfl (fun g => ?_) (fun sess g => ?_) g
      · simp only [uploadCall, hnumber]
      · rw [answer_bind, answer_require, checkInProgress]
        by_cases hprogress : sess.status = .inProgress
        · rw [if_pos hprogress]
          simp only [hprogress, true_and]
          rw [answer_bind, answer_require, checkInRange]
          by_cases hrange : (chunkN : ℤ) < sess.totalChunks
          · rw [if_pos hrange, if_neg (by omega)]
            refine alone_upload (fun _ => some (.upload u (.incrementReceivedChunks i))) rfl (fun _ => rfl)
              (fun _ g => ?_) g
            refine alone_upload (fun _ => some (u.request (i + 1))) rfl (fun _ => rfl) (fun _ g => ?_) g
            exact ih (i + 1) (by omega) g
          · rw [if_neg hrange, if_pos (by omega)]
            exact alone_none ..
        · rw [if_neg hprogress, if_neg (fun h => hprogress h.1)]
          exact alone_none ..

theorem alone_uploadEpisodeFile (projects : List String) (initFails completesFails : Call → Bool)
    (chunkFails : ℕ → Call → Bool) (u : Upload) (hbind : bindInit (initRequest u.file) = .ok ()) (g : Stores) :
    alone projects (uploadOutcomes initFails completesFails chunkFails) (3 * u.response.totalChunks.toNat + 8)
        (some (.upload u .createEpisode), g) =
      (Handlers.answer (uploadEpisodeFile initFails completesFails chunkFails u.jwtProjectId u.file u.episodeId.text
        u.sessionId.text u.now) g).2 := by
  have hrest : ∀ g, alone projects (uploadOutcomes initFails completesFails chunkFails)
      (3 * u.response.totalChunks.toNat + 6) (some (u.request 0), g) =
        (Handlers.answer (sendRest completesFails chunkFails u (List.range u.response.totalChunks.toNat)) g).2 := by
    intro g
    rw [List.range_eq_range']
    exact alone_sending projects initFails completesFails chunkFails u 0 _ (Nat.zero_add _) g
  have hinit : uploadEpisodeFile initFails completesFails chunkFails u.jwtProjectId u.file u.episodeId.text
      u.sessionId.text u.now =
      init initFails u.jwtProjectId (initRequest u.file) u.episodeId.text u.sessionId.text u.now >>= fun response => do
          let progress ← uploadChunks chunkFails u.file response (List.range response.totalChunks.toNat)
          let _ ← complete completesFails response.sessionId
          return (response.episodeId, progress) := rfl
  rw [hinit, init]
  simp only [bind_assoc, hbind]
  rw [answer_bind, answer_require]
  refine alone_upload (fun _ => some (.upload u .createUploadSession)) rfl (fun _ => rfl) (fun _ g => ?_) g
  refine alone_upload (fun _ => some (u.request 0)) rfl (fun _ => rfl) (fun _ g => ?_) g
  exact hrest g

end Embedai.UploadThreads
