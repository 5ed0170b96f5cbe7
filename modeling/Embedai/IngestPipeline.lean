import Embedai.StreamServer
import Embedai.TracedHandlers
import Embedai.UploadHandler

/-!
Complete requests, stream seals and pipeline workers over the shared stores, one call at a time. The consumer group is
handed each event of the stream once.
-/

namespace Embedai.IngestPipeline

open Gateway Handlers StreamServer TracedHandlers

/-- The next call of a `Complete` request, with what it has read. -/
inductive CompleteStep
  | getUploadSession
  | getEpisode (sess : UploadSession)
  | assembleChunks (sess : UploadSession) (ep : Episode)
  | completeSession (sess : UploadSession) (ep : Episode)
  | updateEpisodeStatus (sess : UploadSession) (ep : Episode)
  | publish (sess : UploadSession) (ep : Episode)
  -- in the background, after the response
  | deleteChunks (sess : UploadSession) (chunkN : ℕ)

inductive SealStep
  | createEpisode
  | putObject
  | updateEpisodeStatus
  | publish

inductive ProcessStep
  | updateEpisodeStatus
  | download
  | extract
  | getEpisodeProject
  | score
  | thumbnail
  | updateEpisodeReady
  -- `process` has returned
  | ack
  deriving DecidableEq

structure SealWork where
  episodeId : String
  sessionId : String
  unixNano : ℤ
  data : List UInt8

inductive Thread
  | complete (sessionId : String) (step : CompleteStep)
  | sealing (work : SealWork) (step : SealStep)
  | process (msgId : ℕ) (event : IngestEvent) (metadata : Json) (step : ProcessStep)

/-- `delivered` is the number of events that the group has been handed. -/
structure System where
  projects : List String
  stores : Stores
  delivered : ℕ
  acked : List ℕ
  threads : OrderedDict ℕ Thread

def start (projects : List String) (g : Stores) : System :=
  { projects := projects
    stores := g
    delivered := 0
    acked := []
    threads := OrderedDict.empty }

def setEpisodeStatus (id : String) (status : EpisodeStatus) (g : Stores) : Stores :=
  { g with episodes := g.episodes.modify id (fun ep => { ep with status := status }) }

def updateEpisodeReady (id : String) (metadata : Json) (g : Stores) : Stores :=
  { g with episodes := g.episodes.modify id (fun ep => { ep with status := .ready, metadata := metadata }) }

/-- `row.one()` raises when the episode, or its project, does not exist. -/
def getEpisodeProject (projects : List String) (id : String) (g : Stores) : Option String :=
  (g.episodes.get? id).bind fun ep => if ep.projectId ∈ projects then some ep.projectId else none

def deleteFrom (sessionId : String) (sess : UploadSession) (chunkN : ℕ) : Option Thread :=
  if chunkN < sess.totalChunks then some (.complete sessionId (.deleteChunks sess chunkN)) else none

def completeCall (sessionId : String) (g : Stores) : CompleteStep → Option (Option Thread × Stores)
  | .getUploadSession => (getUploadSession sessionId g).map fun (sess, g) =>
      (if sess.status = .inProgress ∧ sess.receivedChunks = sess.totalChunks then
        some (.complete sessionId (.getEpisode sess))
      else none, g)
  | .getEpisode sess => (getEpisode sess.episodeId g).map fun (ep, g) =>
      (some (.complete sessionId (.assembleChunks sess ep)), g)
  | .assembleChunks sess ep =>
      (assembleChunks sessionId sess.totalChunks (storagePath sess.episodeId ep.filename) g).map fun (_, g) =>
        (some (.complete sessionId (.completeSession sess ep)), g)
  | .completeSession sess ep => (completeSession sessionId g).map fun (_, g) =>
      (some (.complete sessionId (.updateEpisodeStatus sess ep)), g)
  | .updateEpisodeStatus sess ep =>
      (updateEpisodeStatus sess.episodeId .processing (storagePath sess.episodeId ep.filename) g).map fun (_, g) =>
        (some (.complete sessionId (.publish sess ep)), g)
  | .publish sess ep => some (deleteFrom sessionId sess 0,
      publishEpisodeIngested sess.episodeId (storagePath sess.episodeId ep.filename) ep.format g)
  | .deleteChunks sess chunkN =>
      some (deleteFrom sessionId sess (chunkN + 1), removeObject (chunkKey sessionId chunkN) g)

def sealCall (work : SealWork) (g : Stores) : SealStep → Option (Option Thread × Stores)
  | .createEpisode =>
      (createEpisodeFromStream work.episodeId "" (streamFilename work.sessionId work.unixNano) "mcap" work.data.length
        work.sessionId g).map fun (_, g) => (some (.sealing work .putObject), g)
  | .putObject => (putObject (streamPath work.episodeId) work.data g).map fun (_, g) =>
      (some (.sealing work .updateEpisodeStatus), g)
  | .updateEpisodeStatus =>
      (updateEpisodeStatus work.episodeId .processing (streamPath work.episodeId) g).map fun (_, g) =>
        (some (.sealing work .publish), g)
  | .publish => some (none, publishEpisodeIngested work.episodeId (streamPath work.episodeId) "mcap" g)

def processCall (projects : List String) (msgId : ℕ) (event : IngestEvent) (metadata : Json) (g : Stores) :
    ProcessStep → Option (Option Thread × Stores)
  | .updateEpisodeStatus =>
      some (some (.process msgId event metadata .download), setEpisodeStatus event.episodeId .processing g)
  | .download => (g.objects event.storagePath).map fun _ => (some (.process msgId event metadata .extract), g)
  | .extract =>
      if event.format = "mcap" ∨ event.format = "hdf5" then
        some (some (.process msgId event metadata .getEpisodeProject), g)
      else none
  | .getEpisodeProject => (getEpisodeProject projects event.episodeId g).map fun _ =>
      (some (.process msgId event metadata .score), g)
  | .score => some (some (.process msgId event metadata .thumbnail), g)
  | .thumbnail => some (some (.process msgId event metadata .updateEpisodeReady), g)
  | .updateEpisodeReady =>
      some (some (.process msgId event metadata .ack), updateEpisodeReady event.episodeId metadata g)
  | .ack => some (none, g)

namespace Thread

def answer (projects : List String) (g : Stores) : Thread → Option (Option Thread × Stores)
  | complete sessionId step => completeCall sessionId g step
  | sealing work step => sealCall work g step
  | process msgId event metadata step => processCall projects msgId event metadata g step

/-- The rest of the thread when its call fails; most errors are returned or raised. -/
def onError : Thread → Option Thread
  | complete sessionId (.publish sess _) => deleteFrom sessionId sess 0
  | complete sessionId (.deleteChunks sess chunkN) => deleteFrom sessionId sess (chunkN + 1)
  | process msgId event metadata .thumbnail => some (.process msgId event metadata .updateEpisodeReady)
  | _ => none

def call (projects : List String) (outcome : Outcome Unit) (g : Stores) (th : Thread) : Option Thread × Stores :=
  match outcome, th.answer projects g with
  | .ok, some (rest, t) => (rest, t)
  | .raisesLate _, some (_, t) => (th.onError, t)
  | _, _ => (th.onError, g)

def acks (outcome : Outcome Unit) : Thread → List ℕ
  | process msgId _ _ .ack => if outcome.takesEffect then [msgId] else []
  | _ => []

def running : Thread → Bool
  | complete _ (.deleteChunks ..) => false
  | process _ _ _ .ack => false
  | _ => true

end Thread

inductive Action
  | request (tid : ℕ) (sessionId : String)
  | sealEpisode (tid : ℕ) (work : SealWork)
  | deliver (tid : ℕ) (metadata : Json)
  | call (tid : ℕ) (outcome : Outcome Unit)
  | crash (tid : ℕ)

def setThread (tid : ℕ) (rest : Option Thread) (threads : OrderedDict ℕ Thread) : OrderedDict ℕ Thread :=
  match rest with
  | some th => threads.set tid th
  | none => threads.erase tid

def spawn (tid : ℕ) (th : Thread) (s : System) : Option System :=
  if tid ∈ s.threads.keys then none else some { s with threads := setThread tid (some th) s.threads }

def next (s : System) : Action → Option System
  | .request tid sessionId => spawn tid (.complete sessionId .getUploadSession) s
  | .sealEpisode tid work => spawn tid (.sealing work .createEpisode) s
  | .deliver tid metadata => (s.stores.events[s.delivered]?).bind fun event =>
      spawn tid (.process s.delivered event metadata .updateEpisodeStatus) { s with delivered := s.delivered + 1 }
  | .call tid outcome => (s.threads.get? tid).map fun th =>
      { s with
        stores := (th.call s.projects outcome s.stores).2
        acked := s.acked ++ th.acks outcome
        threads := setThread tid (th.call s.projects outcome s.stores).1 s.threads }
  | .crash tid =>
    match s.threads.get? tid with
    | some (.process ..) => some { s with threads := setThread tid none s.threads }
    | _ => none

theorem get?_setThread (tid : ℕ) (rest : Option Thread) (threads : OrderedDict ℕ Thread) (j : ℕ) :
    (setThread tid rest threads).get? j = if j = tid then rest else threads.get? j := by
  cases rest with
  | none => exact OrderedDict.get?_erase ..
  | some th => exact OrderedDict.get?_set ..

section Alone

variable (projects : List String) (outcomes : Thread → Outcome Unit)

def alone : ℕ → Option Thread × Stores → Stores
  | 0, (_, g) => g
  | _ + 1, (none, g) => g
  | n + 1, (some th, g) => alone n (th.call projects (outcomes th) g)

theorem alone_none (n : ℕ) (g : Stores) : alone projects outcomes n (none, g) = g := by
  cases n <;> rfl

variable {projects outcomes}

theorem alone_attempt {ε α β : Type} {fails : Bool} {e : ε} {request : Stores → Option (α × Stores)}
    {f : α → Handler Stores ε β} {th : Thread} {n : ℕ} (rest : α → Option Thread)
    (houtcome : outcomes th = if fails then .raises () else .ok) (herror : th.onError = none)
    (hanswer : ∀ g, th.answer projects g = (request g).map (fun p => (rest p.1, p.2)))
    (hrest : ∀ a g, alone projects outcomes n (rest a, g) = (answer (f a) g).2) (g : Stores) :
    alone projects outcomes (n + 1) (some th, g) = (answer (attempt fails e request >>= f) g).2 := by
  rw [alone, answer_bind, answer_attempt]
  unfold Thread.call
  rw [houtcome, hanswer]
  cases fails with
  | true =>
    rw [if_pos rfl, if_pos rfl, herror]
    exact alone_none ..
  | false =>
    rw [if_neg nofun, if_neg nofun]
    cases request g with
    | none =>
      rw [Option.map_none, herror]
      exact alone_none ..
    | some p => exact hrest p.1 p.2

theorem call_last {fails : Bool} {th : Thread} {rest : Option Thread} {f : Stores → Stores} {g : Stores}
    (hanswer : th.answer projects g = some (rest, f g)) :
    (th.call projects (if fails then .raises () else .ok) g).2 = (if fails then id else f) g := by
  unfold Thread.call
  rw [hanswer]
  cases fails <;> rfl

end Alone

def completeFails (fails : Call → Bool) : CompleteStep → Bool
  | .getUploadSession => fails .getUploadSession
  | .getEpisode _ => fails .getEpisode
  | .assembleChunks .. => fails .assembleChunks
  | .completeSession .. => fails .completeSession
  | .updateEpisodeStatus .. => fails .updateEpisodeStatus
  | .publish .. => fails .publish
  | .deleteChunks .. => false

def sealFails (fails : Call → Bool) : SealStep → Bool
  | .createEpisode => fails .createEpisodeFromStream
  | .putObject => fails .putObject
  | .updateEpisodeStatus => fails .updateEpisodeStatus
  | .publish => fails .publish

def gatewayOutcomes (fails : Call → Bool) : Thread → Outcome Unit
  | .complete _ step => if completeFails fails step then .raises () else .ok
  | .sealing _ step => if sealFails fails step then .raises () else .ok
  | .process .. => .ok

theorem alone_complete (projects : List String) (fails : Call → Bool) (sessionId : String) (g : Stores) :
    alone projects (gatewayOutcomes fails) 6 (some (.complete sessionId .getUploadSession), g) =
      (answer (complete fails sessionId) g).2 := by
  refine alone_attempt (fun sess => if sess.status = .inProgress ∧ sess.receivedChunks = sess.totalChunks then
    some (.complete sessionId (.getEpisode sess)) else none) rfl rfl (fun _ => rfl) (fun sess g => ?_) g
  rw [answer_bind, answer_require, checkInProgress]
  by_cases hprogress : sess.status = .inProgress
  · rw [if_pos hprogress]
    simp only [hprogress, true_and]
    rw [answer_bind, answer_require, checkReceived]
    by_cases hreceived : sess.receivedChunks = sess.totalChunks
    · rw [if_pos hreceived, if_pos hreceived]
      refine alone_attempt (fun ep => some (.complete sessionId (.assembleChunks sess ep))) rfl rfl (fun _ => rfl)
        (fun ep g => ?_) g
      refine alone_attempt (fun _ => some (.complete sessionId (.completeSession sess ep))) rfl rfl (fun _ => rfl)
        (fun _ g => ?_) g
      refine alone_attempt (fun _ => some (.complete sessionId (.updateEpisodeStatus sess ep))) rfl rfl (fun _ => rfl)
        (fun _ g => ?_) g
      refine alone_attempt (fun _ => some (.complete sessionId (.publish sess ep))) rfl rfl (fun _ => rfl)
        (fun _ g => ?_) g
      exact call_last rfl
    · rw [if_neg hreceived, if_neg hreceived]
      exact alone_none ..
  · rw [if_neg hprogress, if_neg (fun h => hprogress h.1)]
    exact alone_none ..

theorem alone_seal (projects : List String) (calls : SealCalls) (sessionId : String) (data : List UInt8)
    (g : Stores) :
    alone projects (gatewayOutcomes calls.fails) 4
        (some (.sealing ⟨calls.episodeId, sessionId, calls.unixNano, data⟩ .createEpisode), g) =
      (answer (storeEpisode calls sessionId data) g).2 := by
  let work : SealWork := ⟨calls.episodeId, sessionId, calls.unixNano, data⟩
  refine alone_attempt (fun _ => some (.sealing work .putObject)) rfl rfl (fun _ => rfl) (fun _ g => ?_) g
  refine alone_attempt (fun _ => some (.sealing work .updateEpisodeStatus)) rfl rfl (fun _ => rfl) (fun _ g => ?_) g
  refine alone_attempt (fun _ => some (.sealing work .publish)) rfl rfl (fun _ => rfl) (fun _ g => ?_) g
  exact call_last rfl

end Embedai.IngestPipeline
