import Embedai.StreamDurability

namespace Embedai.StreamServer

open Gateway Handlers TransitionSystems

structure SealedOnce (marshal : StreamFrame → Option (List UInt8)) (kept : List StreamFrame) (id : String)
    (g t : Stores) : Prop where
  fresh : id ∉ g.episodes.keys
  episode : ∃ ep, t.episodes.get? id = some ep ∧ ep.status = .processing ∧ ep.storagePath = some (streamPath id)
  others : ∀ other, other ≠ id → t.episodes.get? other = g.episodes.get? other
  object : ∃ frames object, frames.Perm kept ∧ frames.Pairwise (fun f g => f.seqNum ≤ g.seqNum) ∧
    encode marshal frames = some object ∧ t.objects = Function.update g.objects (streamPath id) (some object)

def StreamEvent.result? : StreamEvent → Option (Except RecvError StreamFrame)
  | .recv result => some result
  | .inactivity _ => none
  | .select _ _ => none

def lastResult (events : List StreamEvent) : Option (Except RecvError StreamFrame) :=
  (events.filterMap StreamEvent.result?).getLast?

def EndsUnsealed (sendFails : Bool) : Except RecvError StreamFrame → Prop
  | .ok frame => frame.isLast = false ∧ sendFails = true
  | .error .other => True
  | .error _ => False

def Abandons (events : List StreamEvent) : Prop :=
  ∃ before calls sendFails result, events = before ++ [.select calls sendFails] ∧
    lastResult before = some result ∧ EndsUnsealed sendFails result

variable {marshal : StreamFrame → Option (List UInt8)} {sorted : SeqSort} {g : Stores} {handled : List StreamFrame}
  {s t : StreamState} {calls : SealCalls}

theorem recvDone_onInactivity (calls : SealCalls) (s : StreamState) :
    (onInactivity marshal sorted calls s).recvDone = s.recvDone := by
  unfold onInactivity
  split <;> rfl

theorem recvDone_onClosed (calls : SealCalls) (s : StreamState) :
    (onClosed marshal sorted calls s).recvDone = none := by
  unfold onClosed
  split <;> rfl

theorem recvDone_onFrame (calls : SealCalls) (sendFails : Bool) (frame : StreamFrame) (s : StreamState) :
    (onFrame marshal sorted calls sendFails frame s).recvDone = none := by
  cases hlast : frame.isLast with
  | true => rw [onFrame, if_pos hlast]
  | false =>
    rw [onFrame, if_neg (by simp [hlast])]
    cases sendFails <;> rfl

theorem recvDone_step {e : StreamEvent} {result : Except RecvError StreamFrame}
    (hstep : step marshal sorted s e = some t) (hresult : t.recvDone = some result) :
    e = .recv result ∨ (e.result? = none ∧ s.recvDone = some result) := by
  unfold step at hstep
  split at hstep
  · cases hstep
  cases e with
  | recv received =>
    simp only [Option.ite_none_right_eq_some, Option.some.injEq] at hstep
    obtain ⟨-, rfl⟩ := hstep
    cases hresult
    exact Or.inl rfl
  | inactivity calls =>
    cases hstep
    rw [recvDone_onInactivity] at hresult
    exact Or.inr ⟨rfl, hresult⟩
  | select calls sendFails =>
    -- every turn on a result clears it
    have hcleared : t.recvDone = none := by
      cases hdone : s.recvDone with
      | none =>
        rw [hdone] at hstep
        cases hstep
      | some received =>
        rw [hdone] at hstep
        rcases received with ⟨_ | _ | _⟩ | frame
        · cases hstep
          exact recvDone_onClosed calls s
        · cases hstep
          exact recvDone_onClosed calls s
        · cases hstep
          rfl
        · cases hstep
          exact recvDone_onFrame calls sendFails frame s
    rw [hcleared] at hresult
    cases hresult

theorem recvDone_run {events : List StreamEvent}
    (hrun : run (step marshal sorted) (openStream g) events = some t) :
    ∀ result, t.recvDone = some result → lastResult events = some result := by
  refine history_run (fun events s => ∀ result, s.recvDone = some result → lastResult events = some result)
    ?_ (fun result hresult => by cases hresult) hrun
  intro events s e t ih hstep result hresult
  unfold lastResult
  rw [List.filterMap_append]
  rcases recvDone_step hstep hresult with rfl | ⟨he, hbefore⟩
  · simp [StreamEvent.result?]
  · rw [List.filterMap_cons_none he, List.filterMap_nil, List.append_nil]
    exact ih result hbefore

theorem sealedOnce_seal {buf : FrameBuffer} (sessionId : String) (hframes : buf.frames = survivors window handled)
    (hmarshal : ∀ f ∈ handled, (marshal f).isSome) (hcalls : calls.Work g) :
    SealedOnce marshal (survivors window handled) calls.episodeId g
      (sealEpisode marshal sorted calls buf sessionId g).2.2 := by
  obtain ⟨object, t, hseal, hserialize, hstored⟩ := sealEpisode_of_work sorted sessionId
    (fun f hf => hmarshal f (survivors_subset (hframes ▸ hf))) hcalls
  rw [hseal]
  refine ⟨hstored.fresh, ⟨sealedEpisode calls sessionId object, ?_, rfl, ?_⟩, fun other hother => ?_,
    sorted.sort buf.frames, object, hframes ▸ sorted.perm buf.frames, sorted.nondecreasing _, hserialize,
    hstored.objects⟩
  · rw [hstored.episodes, if_pos rfl]
  · exact nullIfEmpty_episodes calls.episodeId _
  · rw [hstored.episodes, if_neg hother]

theorem not_sealedOnce_self (kept : List StreamFrame) (id : String) : ¬ SealedOnce marshal kept id g g := by
  intro h
  obtain ⟨ep, hep, -⟩ := h.episode
  exact h.fresh (OrderedDict.mem_keys.mpr ⟨ep, hep⟩)

def Unsealed (s : StreamState) (e : StreamEvent) : Prop :=
  ∃ calls sendFails result, e = .select calls sendFails ∧ s.recvDone = some result ∧ EndsUnsealed sendFails result

theorem not_unsealed_select {sendFails : Bool} {result : Except RecvError StreamFrame}
    (hdone : s.recvDone = some result) (h : ¬ EndsUnsealed sendFails result) :
    ¬ Unsealed s (.select calls sendFails) := by
  rintro ⟨calls', sendFails', result', he, hdone', hends⟩
  cases he
  rw [hdone, Option.some.injEq] at hdone'
  subst hdone'
  exact h hends

theorem sealedOnce_onInactivity (h : Streaming g handled s) (hmarshal : ∀ f ∈ handled, (marshal f).isSome)
    (hcalls : calls.Work g) (hne : handled ≠ []) :
    SealedOnce marshal (survivors window handled) calls.episodeId g (onInactivity marshal sorted calls s).stores := by
  rw [onInactivity, if_pos (len_pos h hne), h.stores]
  exact sealedOnce_seal _ h.frames hmarshal hcalls

theorem sealedOnce_onClosed (h : Streaming g handled s) (hmarshal : ∀ f ∈ handled, (marshal f).isSome)
    (hcalls : calls.Work g) (hne : handled ≠ []) :
    SealedOnce marshal (survivors window handled) calls.episodeId g (onClosed marshal sorted calls s).stores := by
  rw [onClosed, if_pos (len_pos h hne), h.stores]
  exact sealedOnce_seal _ h.frames hmarshal hcalls

theorem sealedOnce_last {frame : StreamFrame} {sendFails : Bool} (h : Streaming g handled s)
    (hmarshal : ∀ f ∈ handled ++ [frame], (marshal f).isSome) (hcalls : calls.Work g) (hlast : frame.isLast = true) :
    SealedOnce marshal (survivors window (handled ++ [frame])) calls.episodeId g
      (onFrame marshal sorted calls sendFails frame s).stores := by
  rw [onFrame, if_pos hlast, h.stores]
  exact sealedOnce_seal _ (frames_add_survivors h frame) hmarshal hcalls

def Ending (marshal : StreamFrame → Option (List UInt8)) (g : Stores) (s : StreamState) (e : StreamEvent)
    (all : List StreamFrame) (t : StreamState) : Prop :=
  ∃ taken, taken ++ t.pending = all ∧
    ((¬ Unsealed s e ∧ (taken ≠ [] → ∃ id, SealedOnce marshal (survivors window taken) id g t.stores)) ∨
      (Unsealed s e ∧ t.stores = g))

theorem ending_inactivity (h : Streaming g handled s) (hmarshal : ∀ f ∈ handled, (marshal f).isSome)
    (hcalls : calls.Work g) :
    Ending marshal g s (.inactivity calls) (handled ++ s.pending) (onInactivity marshal sorted calls s) := by
  refine ⟨handled, ?_, Or.inl ⟨?_, fun hne => ⟨_, sealedOnce_onInactivity h hmarshal hcalls hne⟩⟩⟩
  · rw [pending_onInactivity]
  · rintro ⟨_, _, _, he, -⟩
    cases he

theorem ending_closed {sendFails : Bool} {err : RecvError} (h : Streaming g handled s)
    (hmarshal : ∀ f ∈ handled, (marshal f).isSome) (hcalls : calls.Work g) (hdone : s.recvDone = some (.error err))
    (hseals : ¬ EndsUnsealed sendFails (.error err)) :
    Ending marshal g s (.select calls sendFails) handled (onClosed marshal sorted calls s) := by
  refine ⟨handled, ?_, Or.inl ⟨not_unsealed_select hdone hseals, fun hne => ?_⟩⟩
  · rw [pending_onClosed, List.append_nil]
  · exact ⟨_, sealedOnce_onClosed h hmarshal hcalls hne⟩

theorem ending_frame {sendFails : Bool} {frame : StreamFrame} (h : Streaming g handled s)
    (hmarshal : ∀ f ∈ handled ++ [frame], (marshal f).isSome) (hcalls : calls.Work g)
    (hdone : s.recvDone = some (.ok frame)) (hreturned : s.returned = none)
    (hend : (onFrame marshal sorted calls sendFails frame s).returned ≠ none) :
    Ending marshal g s (.select calls sendFails) (handled ++ [frame])
      (onFrame marshal sorted calls sendFails frame s) := by
  refine ⟨handled ++ [frame], ?_, ?_⟩
  · rw [StreamState.pending, recvDone_onFrame, List.append_nil]
  · cases hlast : frame.isLast with
    | true =>
      refine Or.inl ⟨not_unsealed_select hdone ?_, fun _ => ⟨_, sealedOnce_last h hmarshal hcalls hlast⟩⟩
      exact fun hends => absurd (hlast.symm.trans hends.1) (by decide)
    | false =>
      have hnot : ¬ frame.isLast = true := by simp [hlast]
      cases sendFails with
      | true =>
        refine Or.inr ⟨⟨calls, true, .ok frame, rfl, hdone, hlast, rfl⟩, ?_⟩
        rw [onFrame, if_neg hnot]
        exact h.stores
      | false =>
        rw [onFrame, if_neg hnot, if_neg Bool.false_ne_true] at hend
        exact absurd hreturned hend

theorem ending_step {e : StreamEvent} (h : Streaming g handled s) (hreturned : s.returned = none)
    (hmarshal : ∀ f ∈ handled ++ s.pending, (marshal f).isSome) (he : e.StoresWork g)
    (hstep : step marshal sorted s e = some t) (hend : t.returned ≠ none) :
    Ending marshal g s e (handled ++ s.pending ++ received e) t := by
  have hhandled : ∀ f ∈ handled, (marshal f).isSome := fun f hf => hmarshal f (List.mem_append_left _ hf)
  unfold step at hstep
  rw [hreturned, Option.isSome_none, if_neg Bool.false_ne_true] at hstep
  cases e with
  | recv result =>
    simp only [Option.ite_none_right_eq_some, Option.some.injEq] at hstep
    obtain ⟨-, rfl⟩ := hstep
    exact absurd rfl hend
  | inactivity calls =>
    cases hstep
    rw [received, List.append_nil]
    exact ending_inactivity h hhandled he
  | select calls sendFails =>
    rw [received, List.append_nil]
    cases hdone : s.recvDone with
    | none =>
      rw [hdone] at hstep
      cases hstep
    | some result =>
      rw [hdone] at hstep
      cases result with
      | ok frame =>
        cases hstep
        have hpending : s.pending = [frame] := by rw [StreamState.pending, hdone]
        rw [hpending] at hmarshal ⊢
        exact ending_frame h hmarshal he hdone hreturned hend
      | error err =>
        have hpending : s.pending = [] := by rw [StreamState.pending, hdone]
        rw [hpending, List.append_nil]
        cases err with
        | eof =>
          cases hstep
          exact ending_closed h hhandled he hdone fun hends => hends.elim
        | canceled =>
          cases hstep
          exact ending_closed h hhandled he hdone fun hends => hends.elim
        | other =>
          cases hstep
          exact ⟨handled, List.append_nil _, Or.inr ⟨⟨calls, sendFails, _, rfl, hdone, trivial⟩, h.stores⟩⟩

theorem abandons_concat {before : List StreamEvent} {e : StreamEvent}
    (hrun : run (step marshal sorted) (openStream g) before = some s) (hstep : step marshal sorted s e = some t) :
    Abandons (before ++ [e]) ↔ Unsealed s e := by
  constructor
  · rintro ⟨before', calls, sendFails, result, hevents, hresult, hends⟩
    obtain ⟨rfl, he⟩ := List.append_inj' hevents rfl
    cases he
    refine ⟨calls, sendFails, result, rfl, ?_, hends⟩
    cases hdone : s.recvDone with
    | none =>
      have hreturned := returned_of_step hstep
      unfold step at hstep
      rw [hreturned, hdone] at hstep
      cases hstep
    | some result' => rw [← recvDone_run hrun result' hdone, hresult]
  · rintro ⟨calls, sendFails, result, rfl, hdone, hends⟩
    exact ⟨before, calls, sendFails, result, rfl, recvDone_run hrun result hdone, hends⟩

theorem every_ending_seals (marshal : StreamFrame → Option (List UInt8)) (sorted : SeqSort) (g : Stores)
    (events : List StreamEvent) (t : StreamState) (handled : List StreamFrame)
    (hmarshal : ∀ f ∈ receivedFrames events, (marshal f).isSome) (hcalls : ∀ e ∈ events, e.StoresWork g)
    (hrun : run (step marshal sorted) (openStream g) events = some t) (hreturned : t.returned ≠ none)
    (hhandled : receivedFrames events = handled ++ t.pending) (hne : handled ≠ []) :
    (∃ id, SealedOnce marshal (survivors window handled) id g t.stores) ↔ ¬ Abandons events := by
  rcases List.eq_nil_or_concat' events with rfl | ⟨before, e, rfl⟩
  · cases hrun
    exact absurd rfl hreturned
  obtain ⟨s, hbefore, hstep⟩ := run_concat.mp hrun
  have happend : receivedFrames (before ++ [e]) = receivedFrames before ++ received e := by
    simp [receivedFrames]
  rw [happend] at hmarshal hhandled
  have hmarshal' : ∀ f ∈ receivedFrames before, (marshal f).isSome := fun f hf => hmarshal f (List.mem_append_left _ hf)
  obtain ⟨taken, htaken, hcases⟩ := taken_run hmarshal' (fun e' he' => hcalls e' (List.mem_append_left _ he')) hbefore
  have hnone := returned_of_step hstep
  rcases hcases with ⟨-, hstreaming⟩ | ⟨hsome, -⟩
  · rw [htaken] at hmarshal' hhandled
    obtain ⟨taken', htaken', hending⟩ := ending_step hstreaming hnone hmarshal' (hcalls e (by simp)) hstep hreturned
    have hsame : taken' = handled := List.append_cancel_right (htaken'.trans hhandled)
    subst hsame
    rw [abandons_concat hbefore hstep]
    rcases hending with ⟨hsealed, hseal⟩ | ⟨hunsealed, hstores⟩
    · exact ⟨fun _ => hsealed, fun _ => hseal hne⟩
    · rw [hstores]
      refine ⟨fun hsealed => ?_, fun hnot => absurd hunsealed hnot⟩
      obtain ⟨id, h⟩ := hsealed
      exact absurd h (not_sealedOnce_self _ id)
  · exact absurd hnone hsome

def brokenOff : List StreamEvent :=
  [.recv (.ok (frameAt 1 7 [1, 2, 3] false)), .select workingCalls false, .recv (.error .other),
    .select workingCalls false]

theorem every_ending_seals_twoFrames :
    ∃ t id, run (step protoMarshal mergeSeqSort) (openStream emptyStores)
        (twoFrames (frameAt 2 7 [1] false) (frameAt 1 9 [] true)) = some t ∧
      SealedOnce protoMarshal (survivors window [frameAt 2 7 [1] false, frameAt 1 9 [] true]) id emptyStores
        t.stores := by
  have hrun : (run (step protoMarshal mergeSeqSort) (openStream emptyStores)
      (twoFrames (frameAt 2 7 [1] false) (frameAt 1 9 [] true))).any
        (fun t => t.returned ≠ none ∧ t.pending = []) := by decide +kernel
  obtain ⟨t, ht, hresult⟩ := (Option.any_eq_true _ _).mp hrun
  obtain ⟨hreturned, hpending⟩ := of_decide_eq_true hresult
  have hseals : ¬ Abandons (twoFrames (frameAt 2 7 [1] false) (frameAt 1 9 [] true)) := by
    rintro ⟨before, calls, sendFails, result, hevents, hresult, hends⟩
    have hbefore : before = (twoFrames (frameAt 2 7 [1] false) (frameAt 1 9 [] true)).dropLast := by
      rw [hevents, List.dropLast_concat]
    subst hbefore
    cases hresult
    cases hends.1
  obtain ⟨id, hid⟩ := (every_ending_seals protoMarshal mergeSeqSort emptyStores _ t
    [frameAt 2 7 [1] false, frameAt 1 9 [] true] (by decide) (storesWork_twoFrames _ _) ht hreturned
    (by rw [hpending]; rfl) (by simp)).mpr hseals
  exact ⟨t, id, ht, hid⟩

theorem brokenOff_unsealed :
    (∀ f ∈ receivedFrames brokenOff, (protoMarshal f).isSome) ∧ (∀ e ∈ brokenOff, e.StoresWork emptyStores) ∧
      ∃ t, run (step protoMarshal mergeSeqSort) (openStream emptyStores) brokenOff = some t ∧ t.returned ≠ none ∧
        receivedFrames brokenOff = [frameAt 1 7 [1, 2, 3] false] ++ t.pending ∧
        ¬ ∃ id, SealedOnce protoMarshal (survivors window [frameAt 1 7 [1, 2, 3] false]) id emptyStores t.stores := by
  refine ⟨by decide, by simp [brokenOff, StreamEvent.StoresWork, work_workingCalls], _, rfl, nofun, rfl, ?_⟩
  rintro ⟨id, hsealed⟩
  exact not_sealedOnce_self _ _ hsealed

end Embedai.StreamServer
