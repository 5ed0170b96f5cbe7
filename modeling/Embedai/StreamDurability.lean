import Embedai.StreamSteps
import Embedai.TransitionSystems

namespace Embedai.StreamServer

open Gateway Handlers TransitionSystems

def window : ℤ := 5 * 10 ^ 9

def received : StreamEvent → List StreamFrame
  | .recv (.ok frame) => [frame]
  | .recv (.error _) => []
  | .inactivity _ => []
  | .select _ _ => []

def receivedFrames (events : List StreamEvent) : List StreamFrame := events.flatMap received

def StreamState.pending (s : StreamState) : List StreamFrame :=
  match s.recvDone with
  | some (.ok frame) => [frame]
  | _ => []

def StreamEvent.StoresWork (g : Stores) : StreamEvent → Prop
  | .recv _ => True
  | .inactivity calls => calls.Work g
  | .select calls _ => calls.Work g

variable {marshal : StreamFrame → Option (List UInt8)} {sorted : SeqSort}

structure SealedAs (marshal : StreamFrame → Option (List UInt8)) (kept : List StreamFrame) (g t : Stores)
    (object : List UInt8) : Prop where
  episode : ∃ id ep, id ∉ g.episodes.keys ∧ t.episodes.get? id = some ep ∧ ep.storagePath = some (streamPath id) ∧
    t.objects = Function.update g.objects (streamPath id) (some object)
  frames : ∃ frames, frames.Perm kept ∧ frames.Pairwise (fun f g => f.seqNum ≤ g.seqNum) ∧
    encode marshal frames = some object

theorem contains_of_sealedAs {kept : List StreamFrame} {g t : Stores} {object : List UInt8} {f : StreamFrame}
    (h : SealedAs marshal kept g t object) (hf : f ∈ kept) : Contains marshal object f := by
  obtain ⟨frames, hperm, -, hencode⟩ := h.frames
  exact ⟨frames, hencode, hperm.mem_iff.mpr hf⟩

structure Streaming (g : Stores) (handled : List StreamFrame) (s : StreamState) : Prop where
  frames : s.buf.frames = survivors window handled
  maxAge : s.buf.maxAge = window
  stores : s.stores = g
  waiting : s.receiving = true → s.recvDone = none

def Ended (marshal : StreamFrame → Option (List UInt8)) (g : Stores) (handled : List StreamFrame) (s : StreamState) :
    Prop :=
  s.returned = some (.ok ()) → handled ≠ [] → ∃ object, SealedAs marshal (survivors window handled) g s.stores object

theorem streaming_openStream (g : Stores) : Streaming g [] (openStream g) := ⟨rfl, rfl, rfl, fun _ => rfl⟩

theorem survivors_subset {maxAge : ℤ} {fs : List StreamFrame} {f : StreamFrame} (hf : f ∈ survivors maxAge fs) :
    f ∈ fs := by
  induction fs with
  | nil => cases hf
  | cons e fs ih =>
    rw [survivors] at hf
    split at hf
    · exact List.mem_cons_of_mem _ (ih hf)
    · rcases List.mem_cons.mp hf with rfl | hf
      · exact List.mem_cons_self ..
      · exact List.mem_cons_of_mem _ (ih hf)

theorem seal_survivors {calls : SealCalls} {buf : FrameBuffer} {handled : List StreamFrame} {g : Stores}
    (sessionId : String) (hframes : buf.frames = survivors window handled)
    (hmarshal : ∀ f ∈ handled, (marshal f).isSome) (h : calls.Work g) :
    ∃ object, SealedAs marshal (survivors window handled) g (sealEpisode marshal sorted calls buf sessionId g).2.2
      object := by
  obtain ⟨object, t, hseal, hserialize, hstored⟩ := sealEpisode_of_work sorted sessionId
    (fun f hf => hmarshal f (survivors_subset (hframes ▸ hf))) h
  rw [hseal]
  refine ⟨object, ⟨calls.episodeId, sealedEpisode calls sessionId object, hstored.fresh, ?_, ?_, hstored.objects⟩,
    sorted.sort buf.frames, hframes ▸ sorted.perm buf.frames, sorted.nondecreasing _, hserialize⟩
  · rw [hstored.episodes, if_pos rfl]
  · exact nullIfEmpty_episodes calls.episodeId _

theorem len_pos {g : Stores} {handled : List StreamFrame} {s : StreamState} (h : Streaming g handled s)
    (hne : handled ≠ []) : 0 < s.buf.len := by
  apply List.length_pos_iff.mpr
  rw [h.frames]
  exact survivors_ne_nil (by decide) hne

theorem ended_onInactivity {calls : SealCalls} {g : Stores} {handled : List StreamFrame} {s : StreamState}
    (h : Streaming g handled s) (hmarshal : ∀ f ∈ handled, (marshal f).isSome) (hcalls : calls.Work g) :
    Ended marshal g handled (onInactivity marshal sorted calls s) := by
  intro _ hne
  rw [onInactivity, if_pos (len_pos h hne), h.stores]
  exact seal_survivors _ h.frames hmarshal hcalls

theorem ended_onClosed {calls : SealCalls} {g : Stores} {handled : List StreamFrame} {s : StreamState}
    (h : Streaming g handled s) (hmarshal : ∀ f ∈ handled, (marshal f).isSome) (hcalls : calls.Work g) :
    Ended marshal g handled (onClosed marshal sorted calls s) := by
  intro _ hne
  rw [onClosed, if_pos (len_pos h hne), h.stores]
  exact seal_survivors _ h.frames hmarshal hcalls

theorem frames_add_survivors {g : Stores} {handled : List StreamFrame} {s : StreamState} (h : Streaming g handled s)
    (frame : StreamFrame) : (s.buf.add frame).frames = survivors window (handled ++ [frame]) := by
  rw [frames_add, h.frames, h.maxAge, survivors_append]

theorem returned_onInactivity (calls : SealCalls) (s : StreamState) :
    (onInactivity marshal sorted calls s).returned = some (.ok ()) := by
  unfold onInactivity
  split <;> rfl

theorem pending_onInactivity (calls : SealCalls) (s : StreamState) :
    (onInactivity marshal sorted calls s).pending = s.pending := by
  unfold onInactivity
  split <;> rfl

theorem returned_onClosed (calls : SealCalls) (s : StreamState) :
    (onClosed marshal sorted calls s).returned = some (.ok ()) := by
  unfold onClosed
  split <;> rfl

theorem pending_onClosed (calls : SealCalls) (s : StreamState) : (onClosed marshal sorted calls s).pending = [] := by
  unfold onClosed
  split <;> rfl

theorem onFrame_cases {calls : SealCalls} {frame : StreamFrame} {g : Stores} {handled : List StreamFrame}
    {s : StreamState} (sorted : SeqSort) (sendFails : Bool) (h : Streaming g handled s) (hreturned : s.returned = none)
    (hmarshal : ∀ f ∈ handled ++ [frame], (marshal f).isSome) (hcalls : calls.Work g) :
    (onFrame marshal sorted calls sendFails frame s).recvDone = none ∧
      (((onFrame marshal sorted calls sendFails frame s).returned = none ∧
          Streaming g (handled ++ [frame]) (onFrame marshal sorted calls sendFails frame s)) ∨
        ((onFrame marshal sorted calls sendFails frame s).returned ≠ none ∧
          Ended marshal g (handled ++ [frame]) (onFrame marshal sorted calls sendFails frame s))) := by
  have hframes := frames_add_survivors h frame
  cases hlast : frame.isLast with
  | true =>
    rw [onFrame, if_pos hlast]
    refine ⟨rfl, .inr ⟨by simp, ?_⟩⟩
    intro _ _
    rw [h.stores]
    exact seal_survivors _ hframes hmarshal hcalls
  | false =>
    rw [onFrame, if_neg (by simp [hlast])]
    cases sendFails with
    | true => exact ⟨rfl, .inr ⟨by simp, fun hr => by cases hr⟩⟩
    | false => exact ⟨rfl, .inl ⟨hreturned, hframes, (maxAge_add _ _).trans h.maxAge, h.stores, fun _ => rfl⟩⟩

theorem stream_step {e : StreamEvent} {g : Stores} {handled : List StreamFrame} {s t : StreamState}
    (h : Streaming g handled s) (hmarshal : ∀ f ∈ handled ++ s.pending, (marshal f).isSome) (he : e.StoresWork g)
    (hstep : step marshal sorted s e = some t) :
    ∃ taken, taken ++ t.pending = handled ++ s.pending ++ received e ∧
      ((t.returned = none ∧ Streaming g taken t) ∨ (t.returned ≠ none ∧ Ended marshal g taken t)) := by
  have hhandled : ∀ f ∈ handled, (marshal f).isSome := fun f hf => hmarshal f (List.mem_append_left _ hf)
  unfold step at hstep
  split at hstep
  · cases hstep
  rename_i hreturned
  have hnone : s.returned = none := by simpa using hreturned
  cases e with
  | recv result =>
    simp only [Option.ite_none_right_eq_some, Option.some.injEq] at hstep
    obtain ⟨hreceiving, rfl⟩ := hstep
    have hpending : s.pending = [] := by rw [StreamState.pending, h.waiting hreceiving]
    refine ⟨handled, ?_, .inl ⟨hnone, h.frames, h.maxAge, h.stores, fun hr => by cases hr⟩⟩
    rw [hpending, List.append_nil]
    cases result <;> rfl
  | inactivity calls =>
    cases hstep
    refine ⟨handled, ?_, .inr ⟨?_, ended_onInactivity h hhandled he⟩⟩
    · rw [pending_onInactivity, received, List.append_nil]
    · rw [returned_onInactivity]
      simp
  | select calls sendFails =>
    cases hdone : s.recvDone with
    | none =>
      rw [hdone] at hstep
      cases hstep
    | some result =>
      rw [hdone] at hstep
      cases result with
      | ok frame =>
        cases hstep
        have hpending : s.pending = [frame] := by rw [StreamState.pending, hdone]
        rw [hpending] at hmarshal ⊢
        obtain ⟨hempty, hcases⟩ := onFrame_cases sorted sendFails h hnone hmarshal he
        refine ⟨handled ++ [frame], ?_, hcases⟩
        rw [StreamState.pending, hempty, received]
      | error err =>
        have hpending : s.pending = [] := by rw [StreamState.pending, hdone]
        rw [hpending, received, List.append_nil, List.append_nil]
        have hclosed : ∃ taken, taken ++ (onClosed marshal sorted calls s).pending = handled ∧
            (((onClosed marshal sorted calls s).returned = none ∧ Streaming g taken (onClosed marshal sorted calls s)) ∨
              ((onClosed marshal sorted calls s).returned ≠ none ∧
                Ended marshal g taken (onClosed marshal sorted calls s))) := by
          refine ⟨handled, ?_, .inr ⟨?_, ended_onClosed h hhandled he⟩⟩
          · rw [pending_onClosed, List.append_nil]
          · rw [returned_onClosed]
            simp
        cases err with
        | eof =>
          cases hstep
          exact hclosed
        | canceled =>
          cases hstep
          exact hclosed
        | other =>
          cases hstep
          exact ⟨handled, List.append_nil _, .inr ⟨by simp, fun hr => by cases hr⟩⟩

theorem returned_of_step {e : StreamEvent} {s t : StreamState} (h : step marshal sorted s e = some t) :
    s.returned = none := by
  unfold step at h
  split at h
  · cases h
  · rename_i hreturned
    simpa using hreturned

def Taken (marshal : StreamFrame → Option (List UInt8)) (g : Stores) (frames : List StreamFrame) (s : StreamState) :
    Prop :=
  ∃ taken, frames = taken ++ s.pending ∧
    ((s.returned = none ∧ Streaming g taken s) ∨ (s.returned ≠ none ∧ Ended marshal g taken s))

theorem taken_run {events : List StreamEvent} {g : Stores} {t : StreamState}
    (hmarshal : ∀ f ∈ receivedFrames events, (marshal f).isSome) (hcalls : ∀ e ∈ events, e.StoresWork g)
    (hrun : run (step marshal sorted) (openStream g) events = some t) :
    Taken marshal g (receivedFrames events) t := by
  have hinvariant := history_run
    (fun events s => (∀ f ∈ receivedFrames events, (marshal f).isSome) → (∀ e ∈ events, e.StoresWork g) →
      Taken marshal g (receivedFrames events) s) ?_ ?_ hrun
  · exact hinvariant hmarshal hcalls
  · intro events s e t ih hstep hmarshal hcalls
    have happend : receivedFrames (events ++ [e]) = receivedFrames events ++ received e := by
      simp [receivedFrames]
    rw [happend] at hmarshal ⊢
    have hbefore : ∀ f ∈ receivedFrames events, (marshal f).isSome :=
      fun f hf => hmarshal f (List.mem_append_left _ hf)
    obtain ⟨taken, htaken, hcases⟩ := ih hbefore (fun e' he' => hcalls e' (List.mem_append_left _ he'))
    rw [htaken] at hbefore ⊢
    rcases hcases with ⟨-, hs⟩ | ⟨hreturned, -⟩
    · obtain ⟨taken', htaken', hcases'⟩ := stream_step hs hbefore (hcalls e (by simp)) hstep
      exact ⟨taken', htaken'.symm, hcases'⟩
    · exact absurd (returned_of_step hstep) hreturned
  · exact fun _ _ => ⟨[], rfl, .inl ⟨rfl, streaming_openStream g⟩⟩

theorem sealedAs_run {events : List StreamEvent} {g : Stores} {t : StreamState} {handled : List StreamFrame}
    (hmarshal : ∀ f ∈ receivedFrames events, (marshal f).isSome) (hcalls : ∀ e ∈ events, e.StoresWork g)
    (hrun : run (step marshal sorted) (openStream g) events = some t) (hreturned : t.returned = some (.ok ()))
    (hhandled : receivedFrames events = handled ++ t.pending) (hne : handled ≠ []) :
    ∃ object, SealedAs marshal (survivors window handled) g t.stores object := by
  obtain ⟨taken, htaken, hcases⟩ := taken_run hmarshal hcalls hrun
  have hsame : taken = handled := List.append_cancel_right (htaken.symm.trans hhandled)
  subst hsame
  rcases hcases with ⟨hnone, -⟩ | ⟨-, hended⟩
  · rw [hnone] at hreturned
    cases hreturned
  · exact hended hreturned hne

theorem acknowledged_frames_stored (marshal : StreamFrame → Option (List UInt8)) (sorted : SeqSort) (g : Stores)
    (events : List StreamEvent) (t : StreamState) (handled : List StreamFrame)
    (hmarshal : ∀ f ∈ receivedFrames events, (marshal f).isSome) (hcalls : ∀ e ∈ events, e.StoresWork g)
    (hrun : run (step marshal sorted) (openStream g) events = some t) (hreturned : t.returned = some (.ok ()))
    (hhandled : receivedFrames events = handled ++ t.pending) (hne : handled ≠ []) :
    ∃ object, SealedAs marshal (survivors window handled) g t.stores object ∧
      ∀ (i : ℕ) (f : StreamFrame) (ack : StreamAck), handled[i]? = some f → t.acks[i]? = some ack →
        ack.status = .ok → (∀ j h, i ≤ j → handled[j]? = some h → ¬ Expires window f h) →
          Contains marshal object f := by
  obtain ⟨object, hobject⟩ := sealedAs_run hmarshal hcalls hrun hreturned hhandled hne
  refine ⟨object, hobject, ?_⟩
  intro i f ack hi _ _ hyounger
  exact contains_of_sealedAs hobject (mem_survivors hi hyounger)

def mergeSeqSort : SeqSort where
  sort frames := frames.mergeSort (fun f g => f.seqNum ≤ g.seqNum)
  perm frames := List.mergeSort_perm frames _
  nondecreasing frames := by
    have htrans : ∀ e f g : StreamFrame, decide (e.seqNum ≤ f.seqNum) → decide (f.seqNum ≤ g.seqNum) →
        decide (e.seqNum ≤ g.seqNum) := by
      simp only [decide_eq_true_eq]
      omega
    have htotal : ∀ f g : StreamFrame, decide (f.seqNum ≤ g.seqNum) || decide (g.seqNum ≤ f.seqNum) := by
      simp only [Bool.or_eq_true, decide_eq_true_eq]
      omega
    simpa using List.pairwise_mergeSort htrans htotal frames

def frameAt (seqNum : ℕ) (timestampNs : ℤ) (payload : List UInt8) (isLast : Bool) : StreamFrame :=
  ⟨"", "", "", seqNum, timestampNs, "", payload, isLast⟩

def workingCalls : SealCalls := ⟨fun _ => false, "e", 0⟩

def twoFrames (first last : StreamFrame) : List StreamEvent :=
  [.recv (.ok first), .select workingCalls false, .recv (.ok last), .select workingCalls false]

theorem work_workingCalls : workingCalls.Work emptyStores := ⟨rfl, rfl, rfl, by decide⟩

theorem storesWork_twoFrames (first last : StreamFrame) : ∀ e ∈ twoFrames first last, e.StoresWork emptyStores := by
  simp [twoFrames, StreamEvent.StoresWork, work_workingCalls]

theorem acknowledged_frames_stored_twoFrames :
    ∃ t object,
      run (step protoMarshal mergeSeqSort) (openStream emptyStores)
        (twoFrames (frameAt 2 7 [1] false) (frameAt 1 9 [] true)) = some t ∧
      SealedAs protoMarshal (survivors window [frameAt 2 7 [1] false, frameAt 1 9 [] true]) emptyStores t.stores
        object ∧
      Contains protoMarshal object (frameAt 2 7 [1] false) := by
  have hrun : (run (step protoMarshal mergeSeqSort) (openStream emptyStores)
      (twoFrames (frameAt 2 7 [1] false) (frameAt 1 9 [] true))).any
        (fun t => t.returned = some (.ok ()) ∧ t.pending = [] ∧ t.acks[0]? = some ⟨2, "", .ok⟩) := by decide +kernel
  obtain ⟨t, ht, hresult⟩ := (Option.any_eq_true _ _).mp hrun
  obtain ⟨hreturned, hpending, hack⟩ := of_decide_eq_true hresult
  obtain ⟨object, hobject, hcontains⟩ := acknowledged_frames_stored protoMarshal mergeSeqSort emptyStores _ t
    [frameAt 2 7 [1] false, frameAt 1 9 [] true] (by decide) (storesWork_twoFrames _ _) ht hreturned
    (by rw [hpending]; rfl) (by simp)
  have hyounger : ∀ h ∈ [frameAt 2 7 [1] false, frameAt 1 9 [] true], ¬ Expires window (frameAt 2 7 [1] false) h := by
    decide
  exact ⟨t, object, ht, hobject,
    hcontains 0 _ _ rfl hack rfl (fun j h _ hj => hyounger h (List.mem_of_getElem? hj))⟩

theorem object_unique {objects : String → Option (List UInt8)} {a b : String} {x y : List UInt8}
    (hnone : objects b = none) (h : Function.update objects a (some x) = Function.update objects b (some y)) :
    x = y := by
  have hb := congrFun h b
  rw [Function.update_self] at hb
  by_cases hab : b = a
  · rw [hab, Function.update_self] at hb
    exact Option.some.inj hb
  · rw [Function.update_of_ne hab, hnone] at hb
    cases hb

theorem acknowledged_frame_dropped :
    ¬ ∀ (marshal : StreamFrame → Option (List UInt8)) (sorted : SeqSort) (g : Stores) (events : List StreamEvent)
      (t : StreamState) (handled : List StreamFrame),
      (∀ f ∈ receivedFrames events, (marshal f).isSome) → (∀ e ∈ events, e.StoresWork g) →
      run (step marshal sorted) (openStream g) events = some t → t.returned = some (.ok ()) →
      receivedFrames events = handled ++ t.pending → handled ≠ [] →
      ∃ id object, id ∉ g.episodes.keys ∧ t.stores.objects = Function.update g.objects (streamPath id) (some object) ∧
        ∀ (i : ℕ) (f : StreamFrame) (ack : StreamAck), handled[i]? = some f → t.acks[i]? = some ack →
          ack.status = .ok → Contains marshal object f := by
  intro hclaim
  have hrun : (run (step protoMarshal mergeSeqSort) (openStream emptyStores)
      (twoFrames (frameAt 1 1 [1, 2, 3, 4, 5, 6, 7, 8] false) (frameAt 2 (10 ^ 10) [] true))).any
        (fun t => t.returned = some (.ok ()) ∧ t.pending = [] ∧ t.acks[0]? = some ⟨1, "", .ok⟩) := by decide +kernel
  obtain ⟨t, ht, hresult⟩ := (Option.any_eq_true _ _).mp hrun
  obtain ⟨hreturned, hpending, hack⟩ := of_decide_eq_true hresult
  obtain ⟨id, object, -, hobject, hcontains⟩ := hclaim protoMarshal mergeSeqSort emptyStores _ t
    [frameAt 1 1 [1, 2, 3, 4, 5, 6, 7, 8] false, frameAt 2 (10 ^ 10) [] true] (by decide) (storesWork_twoFrames _ _) ht
    hreturned (by rw [hpending]; rfl) (by simp)
  have hcontains := hcontains 0 _ _ rfl hack rfl
  -- the object of the claim is the sealed one, and that has only the second frame
  obtain ⟨kept, ⟨id', -, -, -, -, hkept⟩, frames, hperm, -, hencode⟩ := sealedAs_run (by decide)
    (storesWork_twoFrames _ _) ht hreturned (by rw [hpending]; rfl) (List.cons_ne_nil _ _)
  have hframes : frames = [frameAt 2 (10 ^ 10) [] true] := List.perm_singleton.mp hperm
  have hsame : object = kept := object_unique rfl (hobject.symm.trans hkept)
  subst hframes hsame
  have hshort : object.length = 14 := by
    rw [← Option.some.inj hencode]
    rfl
  have hlong := length_le_of_contains hcontains rfl
  rw [hshort] at hlong
  exact absurd hlong (by decide)

end Embedai.StreamServer
