import Embedai.FrameBuffer
import Embedai.GatewayStores
import Embedai.Handlers

/-!
The stream ingestion of the gateway: `OpenStream` as a step for each turn of its `select` loop, and `sealEpisode`.
-/

namespace Embedai.StreamServer

open Gateway Handlers

inductive AckStatus
  | ok
  | reconnect
  | error
  deriving DecidableEq

structure StreamAck where
  lastAckSeq : ℕ
  episodeId : String
  status : AckStatus
  deriving DecidableEq

inductive SealError
  | serialize
  | createEpisode
  | putObject
  | updateStatus

/-- What the stores answer during one seal: the calls that fail, the new episode's id and the time. -/
structure SealCalls where
  fails : Call → Bool
  episodeId : String
  unixNano : ℤ

def streamFilename (sessionId : String) (unixNano : ℤ) : String :=
  "stream_" ++ sessionId ++ "_" ++ toString unixNano ++ ".bin"

def streamPath (episodeId : String) : String := "episodes/" ++ episodeId ++ "/stream.bin"

def storeEpisode (calls : SealCalls) (sessionId : String) (data : List UInt8) : Handler Stores SealError String := do
  attempt (calls.fails .createEpisodeFromStream) .createEpisode
    (createEpisodeFromStream calls.episodeId "" (streamFilename sessionId calls.unixNano) "mcap" data.length sessionId)
  attempt (calls.fails .putObject) .putObject (putObject (streamPath calls.episodeId) data)
  attempt (calls.fails .updateEpisodeStatus) .updateStatus
    (updateEpisodeStatus calls.episodeId .processing (streamPath calls.episodeId))
  modify (if calls.fails .publish then id
    else publishEpisodeIngested calls.episodeId (streamPath calls.episodeId) "mcap")
  return calls.episodeId

variable (marshal : StreamFrame → Option (List UInt8)) (sorted : SeqSort)

def sealEpisode (calls : SealCalls) (buf : FrameBuffer) (sessionId : String) (g : Stores) :
    Except SealError String × FrameBuffer × Stores :=
  match buf.serialize marshal sorted with
  | none => (.error .serialize, buf, g)
  | some data =>
    let (result, t) := answer (storeEpisode calls sessionId data) g
    (result, buf.reset, t)

inductive RecvError
  | eof
  | canceled
  | other

inductive StreamError
  | recv
  | send
  deriving DecidableEq

structure StreamState where
  buf : FrameBuffer
  recordingSessionId : String
  currentEpisodeId : String
  /-- The goroutine is waiting in `Recv`. -/
  receiving : Bool
  recvDone : Option (Except RecvError StreamFrame)
  acks : List StreamAck
  stores : Stores
  returned : Option (Except StreamError Unit)

def openStream (g : Stores) : StreamState :=
  { buf := FrameBuffer.new (5 * 10 ^ 9)
    recordingSessionId := ""
    currentEpisodeId := ""
    receiving := true
    recvDone := none
    acks := []
    stores := g
    returned := none }

/-- A result of `Recv`, or a turn of the loop: on the timer, or on that result. -/
inductive StreamEvent
  | recv (result : Except RecvError StreamFrame)
  | inactivity (calls : SealCalls)
  | select (calls : SealCalls) (sendFails : Bool)

def onInactivity (calls : SealCalls) (s : StreamState) : StreamState :=
  if 0 < s.buf.len then
    let (result, buf, g) := sealEpisode marshal sorted calls s.buf s.recordingSessionId s.stores
    { s with
      buf := buf
      currentEpisodeId := match result with
        | .ok epId => epId
        | .error _ => s.currentEpisodeId
      stores := g
      returned := some (.ok ()) }
  else { s with returned := some (.ok ()) }

def onClosed (calls : SealCalls) (s : StreamState) : StreamState :=
  if 0 < s.buf.len then
    let (_, buf, g) := sealEpisode marshal sorted calls s.buf s.recordingSessionId s.stores
    { s with buf := buf, recvDone := none, stores := g, returned := some (.ok ()) }
  else { s with recvDone := none, returned := some (.ok ()) }

def onFrame (calls : SealCalls) (sendFails : Bool) (frame : StreamFrame) (s : StreamState) : StreamState :=
  let sessionId := if s.recordingSessionId = "" then frame.sessionId else s.recordingSessionId
  let buf := s.buf.add frame
  let ack : StreamAck := ⟨frame.seqNum, s.currentEpisodeId, .ok⟩
  if frame.isLast then
    let (result, buf, g) := sealEpisode marshal sorted calls buf sessionId s.stores
    let ack := match result with
      | .ok epId => { ack with episodeId := epId }
      | .error _ => { ack with status := .error }
    { s with
      buf := buf
      recordingSessionId := sessionId
      recvDone := none
      acks := if sendFails then s.acks else s.acks ++ [ack]
      stores := g
      returned := some (.ok ()) }
  else if sendFails then
    { s with buf := buf, recordingSessionId := sessionId, recvDone := none, returned := some (.error .send) }
  else
    { s with
      buf := buf
      recordingSessionId := sessionId
      receiving := true
      recvDone := none
      acks := s.acks ++ [ack] }

def step (s : StreamState) (e : StreamEvent) : Option StreamState :=
  if s.returned.isSome then none
  else match e with
    | .recv result => if s.receiving then some { s with receiving := false, recvDone := some result } else none
    | .inactivity calls => some (onInactivity marshal sorted calls s)
    | .select calls sendFails => match s.recvDone with
      | none => none
      | some (.ok frame) => some (onFrame marshal sorted calls sendFails frame s)
      | some (.error .other) => some { s with recvDone := none, returned := some (.error .recv) }
      | some (.error _) => some (onClosed marshal sorted calls s)

end Embedai.StreamServer
