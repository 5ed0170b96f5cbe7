import Embedai.LoggedHandlers
import Embedai.StreamEndings

namespace Embedai.StreamServer

open Gateway Handlers LoggedHandlers TransitionSystems

inductive StoreCall
  | createEpisodeFromStream (episodeId : String) (ok : Bool)
  | putObject (key : String) (ok : Bool)
  | updateEpisodeStatus (episodeId storagePath : String) (ok : Bool)
  | publishEpisodeIngested (episodeId storagePath format : String)
  deriving DecidableEq

/-- `storeEpisode` with its calls written down; the publication counts as made when it is attempted. -/
def storeEpisodeLogged (calls : SealCalls) (sessionId : String) (data : List UInt8) :
    Handler (Stores × List StoreCall) SealError String := do
  logged (.createEpisodeFromStream calls.episodeId) (attempt (calls.fails .createEpisodeFromStream) .createEpisode
    (createEpisodeFromStream calls.episodeId "" (streamFilename sessionId calls.unixNano) "mcap" data.length sessionId))
  logged (.putObject (streamPath calls.episodeId)) (attempt (calls.fails .putObject) .putObject
    (putObject (streamPath calls.episodeId) data))
  logged (.updateEpisodeStatus calls.episodeId (streamPath calls.episodeId))
    (attempt (calls.fails .updateEpisodeStatus) .updateStatus
      (updateEpisodeStatus calls.episodeId .processing (streamPath calls.episodeId)))
  logged (fun _ => .publishEpisodeIngested calls.episodeId (streamPath calls.episodeId) "mcap")
    (modify (if calls.fails .publish then id
      else publishEpisodeIngested calls.episodeId (streamPath calls.episodeId) "mcap"))
  return calls.episodeId

theorem unlogged_storeEpisode (calls : SealCalls) (sessionId : String) (data : List UInt8) :
    Unlogged (storeEpisode calls sessionId data) (storeEpisodeLogged calls sessionId data) := by
  apply (unlogged_logged _ _).bind
  intro _
  apply (unlogged_logged _ _).bind
  intro _
  apply (unlogged_logged _ _).bind
  intro _
  apply (unlogged_logged _ _).bind
  intro _
  exact unlogged_pure _

inductive SealMade (id : String) : List StoreCall → Except SealError String → Prop
  | create : SealMade id [.createEpisodeFromStream id false] (.error .createEpisode)
  | put : SealMade id [.createEpisodeFromStream id true, .putObject (streamPath id) false] (.error .putObject)
  | update : SealMade id [.createEpisodeFromStream id true, .putObject (streamPath id) true,
      .updateEpisodeStatus id (streamPath id) false] (.error .updateStatus)
  | publish : SealMade id [.createEpisodeFromStream id true, .putObject (streamPath id) true,
      .updateEpisodeStatus id (streamPath id) true, .publishEpisodeIngested id (streamPath id) "mcap"] (.ok id)

def StoreCall.publishes : StoreCall → Bool
  | .publishEpisodeIngested _ _ _ => true
  | _ => false

def createdId : StoreCall → Option String
  | .createEpisodeFromStream id true => some id
  | _ => none

theorem sealMade_storeEpisode (calls : SealCalls) (sessionId : String) (data : List UInt8) (g : Stores) :
    SealMade calls.episodeId (answer (storeEpisodeLogged calls sessionId data) (g, [])).2.2
        (answer (storeEpisode calls sessionId data) g).1 ∧
      (answer (storeEpisode calls sessionId data) g).2.episodes.keys = g.episodes.keys ++
        (answer (storeEpisodeLogged calls sessionId data) (g, [])).2.2.filterMap createdId := by
  rw [unlogged_storeEpisode calls sessionId data g []]
  simp only [storeEpisodeLogged, answer_bind, answer_logged, answer_attempt, createEpisodeFromStream, answer_pure]
  cases calls.fails .createEpisodeFromStream with
  | true => exact ⟨.create, (List.append_nil _).symm⟩
  | false =>
    by_cases hfresh : calls.episodeId ∈ g.episodes.keys
    · simp only [Bool.false_eq_true, if_false, dif_pos hfresh]
      exact ⟨.create, (List.append_nil _).symm⟩
    · simp only [Bool.false_eq_true, if_false, dif_neg hfresh]
      cases calls.fails .putObject with
      | true => exact ⟨.put, OrderedDict.keys_append _ _ _ hfresh⟩
      | false =>
        cases calls.fails .updateEpisodeStatus with
        | true => exact ⟨.update, OrderedDict.keys_append _ _ _ hfresh⟩
        | false =>
          refine ⟨.publish, ?_⟩
          cases calls.fails .publish with
          | true => exact (OrderedDict.keys_modify ..).trans (OrderedDict.keys_append _ _ _ hfresh)
          | false => exact (OrderedDict.keys_modify ..).trans (OrderedDict.keys_append _ _ _ hfresh)

variable (marshal : StreamFrame → Option (List UInt8)) (sorted : SeqSort)

def sealCalls (calls : SealCalls) (buf : FrameBuffer) (sessionId : String) (g : Stores) : List StoreCall :=
  match buf.serialize marshal sorted with
  | none => []
  | some data => (answer (storeEpisodeLogged calls sessionId data) (g, [])).2.2

def turnCalls (s : StreamState) : StreamEvent → List StoreCall
  | .recv _ => []
  | .inactivity calls =>
    if 0 < s.buf.len then sealCalls marshal sorted calls s.buf s.recordingSessionId s.stores else []
  | .select calls _ => match s.recvDone with
    | none => []
    | some (.ok frame) =>
      if frame.isLast then
        sealCalls marshal sorted calls (s.buf.add frame)
          (if s.recordingSessionId = "" then frame.sessionId else s.recordingSessionId) s.stores
      else []
    | some (.error .other) => []
    | some (.error _) =>
      if 0 < s.buf.len then sealCalls marshal sorted calls s.buf s.recordingSessionId s.stores else []

structure LoggedStream where
  stream : StreamState
  calls : List StoreCall

def openLogged (g : Stores) : LoggedStream := ⟨openStream g, []⟩

/-- The turns of the loop with their calls. A goroutine that is still waiting when the call returns may get a last
result. -/
def loggedStep (s : LoggedStream) (e : StreamEvent) : Option LoggedStream :=
  match s.stream.returned, e with
  | some _, .recv result =>
    if s.stream.receiving then
      some { s with stream := { s.stream with receiving := false, recvDone := some result } }
    else none
  | _, _ => (step marshal sorted s.stream e).map fun t => ⟨t, s.calls ++ turnCalls marshal sorted s.stream e⟩

variable {marshal : StreamFrame → Option (List UInt8)} {sorted : SeqSort}

structure SealOutcome (calls : SealCalls) (log : List StoreCall) (result : Except SealError String) (g t : Stores) :
    Prop where
  made : log = [] ∧ result = .error .serialize ∨ SealMade calls.episodeId log result
  keys : t.episodes.keys = g.episodes.keys ++ log.filterMap createdId

theorem sealOutcome_sealEpisode (calls : SealCalls) (buf : FrameBuffer) (sessionId : String) (g : Stores) :
    SealOutcome calls (sealCalls marshal sorted calls buf sessionId g)
      (sealEpisode marshal sorted calls buf sessionId g).1 g
      (sealEpisode marshal sorted calls buf sessionId g).2.2 := by
  rw [sealCalls, sealEpisode]
  cases buf.serialize marshal sorted with
  | none => exact ⟨Or.inl ⟨rfl, rfl⟩, (List.append_nil _).symm⟩
  | some data =>
    obtain ⟨hmade, hkeys⟩ := sealMade_storeEpisode calls sessionId data g
    exact ⟨Or.inr hmade, hkeys⟩

def Sealed (id : String) (log : List StoreCall) : Prop := SealMade id log (.ok id)

structure SealsOnce (log : List StoreCall) (g t : Stores) : Prop where
  made : log = [] ∨ ∃ id result, SealMade id log result
  keys : t.episodes.keys = g.episodes.keys ++ log.filterMap createdId

theorem sealsOnce_nil (g : Stores) : SealsOnce [] g g := ⟨Or.inl rfl, (List.append_nil _).symm⟩

theorem SealOutcome.sealsOnce {calls : SealCalls} {log : List StoreCall} {result : Except SealError String}
    {g t : Stores} (h : SealOutcome calls log result g t) : SealsOnce log g t :=
  ⟨h.made.imp And.left fun hmade => ⟨_, _, hmade⟩, h.keys⟩

theorem SealOutcome.sealed {calls : SealCalls} {log : List StoreCall} {id : String} {g t : Stores}
    (h : SealOutcome calls log (.ok id) g t) : Sealed id log := by
  rcases h.made with ⟨-, hresult⟩ | hmade
  · cases hresult
  · cases hmade
    exact .publish

variable {g : Stores} {calls : SealCalls} {s : StreamState}

theorem sealsOnce_onInactivity (hstores : s.stores = g) :
    SealsOnce (turnCalls marshal sorted s (.inactivity calls)) g (onInactivity marshal sorted calls s).stores := by
  rw [turnCalls, onInactivity]
  split_ifs with hlen
  · rw [← hstores]
    exact (sealOutcome_sealEpisode calls s.buf s.recordingSessionId s.stores).sealsOnce
  · exact hstores ▸ sealsOnce_nil s.stores

theorem sealsOnce_onClosed (hstores : s.stores = g) :
    SealsOnce (if 0 < s.buf.len then sealCalls marshal sorted calls s.buf s.recordingSessionId s.stores else []) g
      (onClosed marshal sorted calls s).stores := by
  rw [onClosed]
  split_ifs with hlen
  · rw [← hstores]
    exact (sealOutcome_sealEpisode calls s.buf s.recordingSessionId s.stores).sealsOnce
  · exact hstores ▸ sealsOnce_nil s.stores

def StreamEvent.Sends : StreamEvent → Prop
  | .recv _ => True
  | .inactivity _ => True
  | .select _ sendFails => sendFails = false

structure LastOnly (receiving : Bool) (frames : List StreamFrame) : Prop where
  earlier : ∀ f ∈ frames.dropLast, f.isLast = false
  waiting : receiving = true → ∀ f ∈ frames, f.isLast = false

structure Receives (events : List StreamEvent) (handled : List StreamFrame) (s : StreamState) : Prop where
  frames : receivedFrames events = handled ++ s.pending
  lastOnly : LastOnly s.receiving (receivedFrames events)
  waiting : s.receiving = true → s.recvDone = none

theorem Receives.not_receiving {s : StreamState} {result : Except RecvError StreamFrame}
    (h : Receives events handled s) (hdone : s.recvDone = some result) : ¬ s.receiving = true := by
  intro hr
  rw [h.waiting hr] at hdone
  cases hdone

structure Acking (g : Stores) (handled : List StreamFrame) (s : LoggedStream) : Prop where
  returned : s.stream.returned = none
  acks : s.stream.acks = handled.map (fun f => ⟨f.seqNum, "", .ok⟩)
  calls : s.calls = []
  stores : s.stream.stores = g
  current : s.stream.currentEpisodeId = ""

structure Returned (g : Stores) (events : List StreamEvent) (handled : List StreamFrame) (s : LoggedStream) : Prop where
  returned : s.stream.returned ≠ none
  acks : s.stream.acks.map StreamAck.lastAckSeq = handled.map StreamFrame.seqNum
  named : ∀ i ack, s.stream.acks[i]? = some ack → ack.episodeId ≠ "" →
    i + 1 = s.stream.acks.length ∧ Sealed ack.episodeId s.calls
  sealsOnce : SealsOnce s.calls g s.stream.stores
  idle : s.stream.receiving = true ∨ s.stream.pending ≠ [] → ∃ calls, .inactivity calls ∈ events

def Acked (g : Stores) (events : List StreamEvent) (s : LoggedStream) : Prop :=
  ∃ handled, Receives events handled s.stream ∧ (Acking g handled s ∨ Returned g events handled s)

section Steps

variable {events : List StreamEvent} {handled : List StreamFrame} {e : StreamEvent}
  {result : Except RecvError StreamFrame}

theorem receivedFrames_concat (events : List StreamEvent) (e : StreamEvent) :
    receivedFrames (events ++ [e]) = receivedFrames events ++ received e := by
  simp [receivedFrames]

theorem lastOnly_received {frames : List StreamFrame} (h : LastOnly true frames)
    (result : Except RecvError StreamFrame) :
    LastOnly false (frames ++ received (.recv result)) := by
  refine ⟨fun f hf => h.waiting rfl f ?_, fun hr => by cases hr⟩
  cases result with
  | error err => exact List.dropLast_subset _ (List.append_nil frames ▸ hf)
  | ok frame =>
    rw [received, List.dropLast_concat] at hf
    exact hf

theorem receives_recv (h : Receives events handled s) (hreceiving : s.receiving = true)
    (result : Except RecvError StreamFrame) :
    Receives (events ++ [.recv result]) handled { s with receiving := false, recvDone := some result } := by
  have hpending : s.pending = [] := by rw [StreamState.pending, h.waiting hreceiving]
  have hframes := h.frames
  rw [hpending, List.append_nil] at hframes
  refine ⟨?_, ?_, fun hr => by cases hr⟩
  · rw [receivedFrames_concat, hframes]
    cases result <;> rfl
  · rw [receivedFrames_concat]
    exact lastOnly_received (hreceiving ▸ h.lastOnly) result

theorem receives_turn {taken : List StreamFrame} {t : StreamState} (h : Receives events handled s)
    (he : received e = []) (htaken : taken ++ t.pending = handled ++ s.pending)
    (hwaiting : t.receiving = true → t.recvDone = none)
    (hreceiving : t.receiving = true → ∀ f ∈ handled ++ s.pending, f.isLast = false) :
    Receives (events ++ [e]) taken t := by
  have hframes : receivedFrames (events ++ [e]) = receivedFrames events := by
    rw [receivedFrames_concat, he, List.append_nil]
  refine ⟨?_, ⟨?_, ?_⟩, hwaiting⟩
  · rw [hframes, h.frames, htaken]
  · rw [hframes]
    exact h.lastOnly.earlier
  · rw [hframes, h.frames]
    exact hreceiving

theorem acked_recv_open {s : LoggedStream} (h : Receives events handled s.stream) (hopen : Acking g handled s)
    (hreceiving : s.stream.receiving = true) (result : Except RecvError StreamFrame) :
    Acked g (events ++ [.recv result])
      { s with stream := { s.stream with receiving := false, recvDone := some result } } :=
  ⟨handled, receives_recv h hreceiving result,
    Or.inl ⟨hopen.returned, hopen.acks, hopen.calls, hopen.stores, hopen.current⟩⟩

theorem acked_recv_returned {s : LoggedStream} (h : Receives events handled s.stream)
    (hreturned : Returned g events handled s) (hreceiving : s.stream.receiving = true)
    (result : Except RecvError StreamFrame) :
    Acked g (events ++ [.recv result])
      { s with stream := { s.stream with receiving := false, recvDone := some result } } := by
  obtain ⟨calls, hcalls⟩ := hreturned.idle (Or.inl hreceiving)
  refine ⟨handled, receives_recv h hreceiving result, Or.inr ⟨hreturned.returned, hreturned.acks, hreturned.named,
    hreturned.sealsOnce, fun _ => ⟨calls, List.mem_append_left _ hcalls⟩⟩⟩

theorem named_of_open {s : LoggedStream} (hopen : Acking g handled s) (log : List StoreCall) :
    ∀ i ack, s.stream.acks[i]? = some ack → ack.episodeId ≠ "" →
      i + 1 = s.stream.acks.length ∧ Sealed ack.episodeId log := by
  intro i ack hack hnamed
  rw [hopen.acks] at hack
  obtain ⟨f, -, rfl⟩ := List.mem_map.mp (List.mem_of_getElem? hack)
  exact absurd rfl hnamed

theorem seqs_of_open {s : LoggedStream} (hopen : Acking g handled s) :
    s.stream.acks.map StreamAck.lastAckSeq = handled.map StreamFrame.seqNum := by
  rw [hopen.acks, List.map_map]
  rfl

variable (marshal sorted) in
theorem acks_onInactivity (calls : SealCalls) (s : StreamState) :
    (onInactivity marshal sorted calls s).acks = s.acks ∧
      (onInactivity marshal sorted calls s).receiving = s.receiving := by
  rw [onInactivity]
  split_ifs <;> exact ⟨rfl, rfl⟩

variable (marshal sorted) in
theorem acks_onClosed (calls : SealCalls) (s : StreamState) :
    (onClosed marshal sorted calls s).acks = s.acks ∧
      (onClosed marshal sorted calls s).receiving = s.receiving := by
  rw [onClosed]
  split_ifs <;> exact ⟨rfl, rfl⟩

theorem not_last_of_receiving (h : Receives events handled s) (hreceiving : s.receiving = true) :
    ∀ f ∈ handled ++ s.pending, f.isLast = false := h.frames ▸ h.lastOnly.waiting hreceiving

theorem acked_inactivity {s : LoggedStream} (h : Receives events handled s.stream) (hopen : Acking g handled s)
    (calls : SealCalls) :
    Acked g (events ++ [.inactivity calls]) ⟨onInactivity marshal sorted calls s.stream,
      s.calls ++ turnCalls marshal sorted s.stream (.inactivity calls)⟩ := by
  obtain ⟨hacks, hreceiving⟩ := acks_onInactivity marshal sorted calls s.stream
  refine ⟨handled, ?_, Or.inr ⟨?_, ?_, ?_, ?_, fun _ => ⟨calls, by simp⟩⟩⟩
  · apply receives_turn h rfl
    · rw [pending_onInactivity]
    · rw [hreceiving, recvDone_onInactivity]
      exact h.waiting
    · rw [hreceiving]
      exact not_last_of_receiving h
  · dsimp only
    rw [returned_onInactivity]
    simp
  · dsimp only
    rw [hacks]
    exact seqs_of_open hopen
  · dsimp only
    rw [hacks]
    exact named_of_open hopen _
  · dsimp only
    rw [hopen.calls, List.nil_append]
    exact sealsOnce_onInactivity hopen.stores

theorem acked_closed {s : LoggedStream} {t : StreamState} {log : List StoreCall} {sendFails : Bool}
    (h : Receives events handled s.stream) (hopen : Acking g handled s) {err : RecvError}
    (hdone : s.stream.recvDone = some (.error err)) (hacks : t.acks = s.stream.acks)
    (hreceiving : t.receiving = s.stream.receiving) (hcleared : t.recvDone = none) (hreturned : t.returned ≠ none)
    (hseals : SealsOnce log g t.stores) :
    Acked g (events ++ [.select calls sendFails]) ⟨t, s.calls ++ log⟩ := by
  have hnot := h.not_receiving hdone
  have hpending : s.stream.pending = [] := by rw [StreamState.pending, hdone]
  have hpending' : t.pending = [] := by rw [StreamState.pending, hcleared]
  refine ⟨handled, ?_, Or.inr ⟨hreturned, ?_, ?_, ?_, ?_⟩⟩
  · apply receives_turn h rfl
    · rw [hpending, hpending']
    · exact fun _ => hcleared
    · exact fun hr => absurd (hreceiving ▸ hr) hnot
  · dsimp only
    rw [hacks]
    exact seqs_of_open hopen
  · dsimp only
    rw [hacks]
    exact named_of_open hopen _
  · rw [hopen.calls]
    exact hseals
  · rintro (hr | hp)
    · exact absurd (hreceiving ▸ hr) hnot
    · exact absurd hpending' hp

theorem acked_frame {s : LoggedStream} {frame : StreamFrame} (h : Receives events handled s.stream)
    (hopen : Acking g handled s) (hdone : s.stream.recvDone = some (.ok frame)) (hlast : frame.isLast = false) :
    Acked g (events ++ [.select calls false]) ⟨onFrame marshal sorted calls false frame s.stream, s.calls⟩ := by
  have hpending : s.stream.pending = [frame] := by rw [StreamState.pending, hdone]
  rw [onFrame, if_neg (by simp [hlast]), if_neg Bool.false_ne_true]
  refine ⟨handled ++ [frame], ?_, Or.inl ⟨hopen.returned, ?_, hopen.calls, hopen.stores, hopen.current⟩⟩
  · apply receives_turn h rfl
    · rw [hpending]
      exact List.append_nil _
    · exact fun _ => rfl
    · rw [hpending]
      intro _ f hf
      rcases List.mem_append.mp hf with hf | hf
      · have hearlier := h.lastOnly.earlier f
        rw [h.frames, hpending, List.dropLast_concat] at hearlier
        exact hearlier hf
      · rw [List.mem_singleton.mp hf]
        exact hlast
  · dsimp only
    rw [hopen.acks, hopen.current, List.map_append]
    rfl

def StreamState.sealOnLast (marshal : StreamFrame → Option (List UInt8)) (sorted : SeqSort) (calls : SealCalls)
    (frame : StreamFrame) (s : StreamState) : Except SealError String × FrameBuffer × Stores :=
  sealEpisode marshal sorted calls (s.buf.add frame)
    (if s.recordingSessionId = "" then frame.sessionId else s.recordingSessionId) s.stores

variable (marshal sorted calls) in
theorem ack_onFrame_last {frame : StreamFrame} (hlast : frame.isLast = true) (hcurrent : s.currentEpisodeId = "") :
    ∃ ack, (onFrame marshal sorted calls false frame s).acks = s.acks ++ [ack] ∧ ack.lastAckSeq = frame.seqNum ∧
      (ack.episodeId ≠ "" → (s.sealOnLast marshal sorted calls frame).1 = .ok ack.episodeId) := by
  rw [onFrame, if_pos hlast, StreamState.sealOnLast]
  generalize sealEpisode marshal sorted calls (s.buf.add frame)
    (if s.recordingSessionId = "" then frame.sessionId else s.recordingSessionId) s.stores = sealed
  obtain ⟨result, buf, stores⟩ := sealed
  cases result with
  | ok epId => exact ⟨⟨frame.seqNum, epId, .ok⟩, rfl, rfl, fun _ => rfl⟩
  | error err => exact ⟨⟨frame.seqNum, s.currentEpisodeId, .error⟩, rfl, rfl, fun hne => absurd hcurrent hne⟩

theorem acked_last {s : LoggedStream} {frame : StreamFrame} (h : Receives events handled s.stream)
    (hopen : Acking g handled s) (hdone : s.stream.recvDone = some (.ok frame)) (hlast : frame.isLast = true) :
    Acked g (events ++ [.select calls false]) ⟨onFrame marshal sorted calls false frame s.stream,
      s.calls ++ turnCalls marshal sorted s.stream (.select calls false)⟩ := by
  have hpending : s.stream.pending = [frame] := by rw [StreamState.pending, hdone]
  have hnot := h.not_receiving hdone
  have houtcome : SealOutcome calls (turnCalls marshal sorted s.stream (.select calls false))
      (s.stream.sealOnLast marshal sorted calls frame).1 g (s.stream.sealOnLast marshal sorted calls frame).2.2 := by
    rw [turnCalls, hdone, ← hopen.stores]
    dsimp only
    rw [if_pos hlast]
    exact sealOutcome_sealEpisode ..
  have hstream : (onFrame marshal sorted calls false frame s.stream).recvDone = none ∧
      (onFrame marshal sorted calls false frame s.stream).receiving = s.stream.receiving ∧
      (onFrame marshal sorted calls false frame s.stream).returned = some (.ok ()) ∧
      (onFrame marshal sorted calls false frame s.stream).stores =
        (s.stream.sealOnLast marshal sorted calls frame).2.2 := by
    rw [onFrame, if_pos hlast]
    exact ⟨rfl, rfl, rfl, rfl⟩
  obtain ⟨hcleared, hreceiving, hreturned, hstores⟩ := hstream
  have hpending' : (onFrame marshal sorted calls false frame s.stream).pending = [] := by
    rw [StreamState.pending, hcleared]
  obtain ⟨ack, hacks, hseq, hnamed⟩ := ack_onFrame_last marshal sorted calls hlast
    hopen.current
  refine ⟨handled ++ [frame], ?_, Or.inr ⟨?_, ?_, ?_, ?_, ?_⟩⟩
  · apply receives_turn h rfl
    · rw [hpending, hpending', List.append_nil]
    · exact fun _ => hcleared
    · exact fun hr => absurd (hreceiving ▸ hr) hnot
  · dsimp only
    rw [hreturned]
    simp
  · dsimp only
    rw [hacks, List.map_append, List.map_append, seqs_of_open hopen, List.map_singleton, List.map_singleton, hseq]
  · dsimp only
    intro i ack' hack hne
    rw [hacks] at hack ⊢
    rw [hopen.calls, List.nil_append]
    rcases Nat.lt_or_ge i s.stream.acks.length with hi | hi
    · rw [List.getElem?_append_left hi] at hack
      exact absurd hne (fun hne => absurd (named_of_open hopen [] i ack' hack hne).2 (by intro hsealed; cases hsealed))
    · rw [List.getElem?_append_right hi, List.getElem?_singleton] at hack
      split_ifs at hack with hzero
      cases hack
      rw [hnamed hne] at houtcome
      refine ⟨?_, houtcome.sealed⟩
      rw [List.length_append, List.length_singleton]
      omega
  · dsimp only
    rw [hopen.calls, List.nil_append, hstores]
    exact houtcome.sealsOnce
  · rintro (hr | hp)
    · exact absurd (hreceiving ▸ hr) hnot
    · exact absurd hpending' hp

theorem acked_step {s t : LoggedStream} (h : Acked g events s) (he : e.Sends)
    (hstep : loggedStep marshal sorted s e = some t) : Acked g (events ++ [e]) t := by
  obtain ⟨handled, hreceives, hopen | hreturned⟩ := h
  · unfold loggedStep at hstep
    rw [hopen.returned] at hstep
    obtain ⟨u, hu, rfl⟩ := Option.map_eq_some_iff.mp hstep
    unfold step at hu
    rw [if_neg (by simp [hopen.returned])] at hu
    cases e with
    | recv result =>
      obtain ⟨hreceiving, hu⟩ := Option.ite_none_right_eq_some.mp hu
      cases hu
      rw [turnCalls, List.append_nil]
      exact acked_recv_open hreceives hopen hreceiving result
    | inactivity calls =>
      cases hu
      exact acked_inactivity hreceives hopen calls
    | select calls sendFails =>
      cases he
      cases hdone : s.stream.recvDone with
      | none =>
        rw [hdone] at hu
        cases hu
      | some result =>
        rw [hdone] at hu
        cases result with
        | ok frame =>
          cases hu
          cases hlast : frame.isLast with
          | true => exact acked_last hreceives hopen hdone hlast
          | false =>
            have hcalls : turnCalls marshal sorted s.stream (.select calls false) = [] := by
              rw [turnCalls, hdone]
              dsimp only
              rw [if_neg (by simp [hlast])]
            rw [hcalls, List.append_nil]
            exact acked_frame hreceives hopen hdone hlast
        | error err =>
          obtain ⟨hacks, hreceiving⟩ := acks_onClosed marshal sorted calls s.stream
          have hreturned : (onClosed marshal sorted calls s.stream).returned ≠ none := by
            rw [returned_onClosed]
            simp
          rw [turnCalls, hdone]
          cases err with
          | eof =>
            cases hu
            exact acked_closed hreceives hopen hdone hacks hreceiving (recvDone_onClosed calls s.stream) hreturned
              (sealsOnce_onClosed hopen.stores)
          | canceled =>
            cases hu
            exact acked_closed hreceives hopen hdone hacks hreceiving (recvDone_onClosed calls s.stream) hreturned
              (sealsOnce_onClosed hopen.stores)
          | other =>
            cases hu
            have hseals : SealsOnce [] g s.stream.stores := hopen.stores ▸ sealsOnce_nil _
            exact acked_closed hreceives hopen hdone rfl rfl rfl (Option.some_ne_none _) hseals
  · obtain ⟨v, hv⟩ := Option.ne_none_iff_exists'.mp hreturned.returned
    unfold loggedStep at hstep
    rw [hv] at hstep
    cases e with
    | recv result =>
      obtain ⟨hreceiving, ht⟩ := Option.ite_none_right_eq_some.mp hstep
      cases ht
      exact acked_recv_returned hreceives hreturned hreceiving result
    | inactivity calls =>
      obtain ⟨u, hu, -⟩ := Option.map_eq_some_iff.mp hstep
      exact absurd (returned_of_step hu) hreturned.returned
    | select calls sendFails =>
      obtain ⟨u, hu, -⟩ := Option.map_eq_some_iff.mp hstep
      exact absurd (returned_of_step hu) hreturned.returned

theorem acked_openLogged (g : Stores) : Acked g [] (openLogged g) := by
  have hlast : LastOnly true [] := ⟨fun f hf => (by cases hf), fun _ f hf => (by cases hf)⟩
  exact ⟨[], ⟨rfl, hlast, fun _ => rfl⟩, Or.inl ⟨rfl, rfl, rfl, rfl, rfl⟩⟩

theorem acked_run {t : LoggedStream} (hsends : ∀ e ∈ events, e.Sends)
    (hrun : run (loggedStep marshal sorted) (openLogged g) events = some t) : Acked g events t := by
  have hhistory := history_run (fun events s => (∀ e ∈ events, e.Sends) → Acked g events s) ?_
    (fun _ => acked_openLogged g) hrun
  · exact hhistory hsends
  · intro events s e t ih hstep hsends
    exact acked_step (ih (fun e' he' => hsends e' (List.mem_append_left _ he'))) (hsends e (by simp)) hstep

end Steps

structure OneEpisode (log : List StoreCall) : Prop where
  created : (log.filterMap createdId).length ≤ 1
  published : ∀ id key path, .createEpisodeFromStream id true ∈ log → .putObject key true ∈ log →
    .updateEpisodeStatus id path true ∈ log → log.filter StoreCall.publishes = [.publishEpisodeIngested id key "mcap"]
  onlyThen : ∀ id path format, .publishEpisodeIngested id path format ∈ log →
    .createEpisodeFromStream id true ∈ log ∧ .putObject path true ∈ log ∧ .updateEpisodeStatus id path true ∈ log

theorem oneEpisode_of_made {log : List StoreCall} (h : log = [] ∨ ∃ id result, SealMade id log result) :
    OneEpisode log := by
  rcases h with rfl | ⟨id, result, hmade⟩
  · exact ⟨Nat.zero_le _, by simp, by simp⟩
  · cases hmade with
    | create => exact ⟨Nat.zero_le _, by simp, by simp⟩
    | put => exact ⟨Nat.le_refl 1, by simp, by simp⟩
    | update => exact ⟨Nat.le_refl 1, by simp, by simp⟩
    | publish => exact ⟨Nat.le_refl 1, by simp +contextual [StoreCall.publishes], by simp +contextual⟩

theorem lastOnly_decomposed {receiving : Bool} {frames before after : List StreamFrame} {f : StreamFrame}
    (h : LastOnly receiving frames) (hframes : frames = before ++ f :: after) (hlast : f.isLast = true) :
    after = [] := by
  by_contra hne
  have hmem : f ∈ frames.dropLast := by
    rw [hframes, List.dropLast_append_of_ne_nil (List.cons_ne_nil f after), List.dropLast_cons_of_ne_nil hne]
    simp
  exact absurd (h.earlier f hmem) (by simp [hlast])

theorem acks_and_episode (marshal : StreamFrame → Option (List UInt8)) (sorted : SeqSort) (g : Stores)
    (events : List StreamEvent) (t : LoggedStream) (hsends : ∀ e ∈ events, e.Sends)
    (hrun : run (loggedStep marshal sorted) (openLogged g) events = some t) :
    (receivedFrames events).map StreamFrame.seqNum =
        t.stream.acks.map StreamAck.lastAckSeq ++ t.stream.pending.map StreamFrame.seqNum ∧
      (t.stream.returned ≠ none → t.stream.pending ≠ [] → ∃ calls, .inactivity calls ∈ events) ∧
      (∀ before f after, receivedFrames events = before ++ f :: after → f.isLast = true → after = []) ∧
      t.stream.stores.episodes.keys = g.episodes.keys ++ t.calls.filterMap createdId ∧
      OneEpisode t.calls ∧
      ∀ i ack, t.stream.acks[i]? = some ack → ack.episodeId ≠ "" →
        i + 1 = t.stream.acks.length ∧ Sealed ack.episodeId t.calls := by
  obtain ⟨handled, hreceives, hopen | hreturned⟩ := acked_run hsends hrun
  · have hcalls := hopen.calls
    refine ⟨?_, fun hr => absurd hopen.returned hr, fun _ _ _ => lastOnly_decomposed hreceives.lastOnly, ?_, ?_,
      named_of_open hopen _⟩
    · rw [hreceives.frames, seqs_of_open hopen, List.map_append]
    · rw [hcalls, hopen.stores]
      exact (List.append_nil _).symm
    · exact oneEpisode_of_made (Or.inl hcalls)
  · refine ⟨?_, fun _ hp => hreturned.idle (Or.inr hp), fun _ _ _ => lastOnly_decomposed hreceives.lastOnly,
      hreturned.sealsOnce.keys, oneEpisode_of_made hreturned.sealsOnce.made, hreturned.named⟩
    rw [hreceives.frames, hreturned.acks, List.map_append]

theorem acks_and_episode_twoFrames :
    ∃ t, run (loggedStep protoMarshal mergeSeqSort) (openLogged emptyStores)
        (twoFrames (frameAt 2 7 [1] false) (frameAt 1 9 [] true)) = some t ∧
      t.stream.acks.map StreamAck.lastAckSeq = [2, 1] ∧ OneEpisode t.calls := by
  have hrun : (run (loggedStep protoMarshal mergeSeqSort) (openLogged emptyStores)
      (twoFrames (frameAt 2 7 [1] false) (frameAt 1 9 [] true))).any (fun t => t.stream.pending = []) := by
    decide +kernel
  obtain ⟨t, ht, hresult⟩ := (Option.any_eq_true _ _).mp hrun
  have hpending := of_decide_eq_true hresult
  have hsends : ∀ e ∈ twoFrames (frameAt 2 7 [1] false) (frameAt 1 9 [] true), e.Sends := by
    simp [twoFrames, StreamEvent.Sends]
  obtain ⟨hacks, -, -, -, hepisode, -⟩ := acks_and_episode protoMarshal mergeSeqSort emptyStores _ t hsends ht
  rw [hpending, List.map_nil, List.append_nil] at hacks
  exact ⟨t, ht, hacks.symm, hepisode⟩

end Embedai.StreamServer
