import Embedai.IngestPipeline
import Embedai.StreamSteps
import Embedai.UploadSteps

namespace Embedai.IngestPipeline

open Gateway StreamServer TracedHandlers

def Processing (g : Stores) (id : String) : Prop := (g.episodes.get? id).map Episode.status = some .processing

instance (g : Stores) (id : String) : Decidable (Processing g id) :=
  inferInstanceAs (Decidable (_ = _))

namespace Thread

def owes : Thread → Option String
  | complete _ .getUploadSession => none
  | complete _ (.deleteChunks ..) => none
  | complete _ (.getEpisode sess) => some sess.episodeId
  | complete _ (.assembleChunks sess _) => some sess.episodeId
  | complete _ (.completeSession sess _) => some sess.episodeId
  | complete _ (.updateEpisodeStatus sess _) => some sess.episodeId
  | complete _ (.publish sess _) => some sess.episodeId
  | sealing work _ => some work.episodeId
  | process _ _ _ .ack => none
  | process _ event _ _ => some event.episodeId

def discharges : Thread → Bool
  | complete _ (.publish ..) => true
  | sealing _ .publish => true
  | process _ _ _ .updateEpisodeReady => true
  | _ => false

def marks (g : Stores) : Thread → Bool
  | complete _ (.updateEpisodeStatus sess _) => sess.episodeId ∈ g.episodes.keys
  | sealing work .createEpisode => work.episodeId ∉ g.episodes.keys
  | sealing work .updateEpisodeStatus => work.episodeId ∈ g.episodes.keys
  | process _ event _ .updateEpisodeStatus => event.episodeId ∈ g.episodes.keys
  | _ => false

def GivesUp (projects : List String) (outcome : Outcome Unit) (g : Stores) (th : Thread) : Prop :=
  if th.discharges then outcome.takesEffect = false
  else th.onError = none ∧ ¬ (outcome.succeeds = true ∧ (th.answer projects g).isSome)

instance (projects : List String) (outcome : Outcome Unit) (g : Stores) (th : Thread) :
    Decidable (GivesUp projects outcome g th) := by
  unfold GivesUp
  infer_instance

end Thread

structure GoesOn (th : Thread) (g : Stores) (rest : Option Thread) (t : Stores) : Prop where
  events : t.events = g.events
  owes : ∀ id, th.owes = some id → rest.bind Thread.owes = some id
  stays : ∀ id, th.owes = some id → Processing g id ∨ th.marks g = true → Processing t id

structure AnswerStep (th : Thread) (g : Stores) (rest : Option Thread) (t : Stores) : Prop where
  events : g.events <+: t.events
  others : ∀ id, th.owes ≠ some id → Processing t id → Processing g id
  marked : ∀ id, th.owes = some id → Processing t id → Processing g id ∨ th.marks g = true
  goesOn : th.discharges = false → GoesOn th g rest t
  discharged : ∀ id, th.owes = some id → th.discharges = true → Processing t id →
    ∃ e ∈ t.events.drop g.events.length, e.episodeId = id

section Answers

variable {th : Thread} {g t : Stores} {rest : Option Thread} {id : String}

theorem Processing.of_episodes (h : t.episodes = g.episodes) (hp : Processing t id) : Processing g id := by
  rw [Processing, ← h]
  exact hp

theorem Processing.mem_keys (h : Processing g id) : id ∈ g.episodes.keys := by
  obtain ⟨ep, hep, -⟩ := Option.map_eq_some_iff.mp h
  exact OrderedDict.mem_keys.mpr ⟨ep, hep⟩

theorem Processing.of_modify {j : String} {f : Episode → Episode} (hj : j ≠ id)
    (h : Processing { g with episodes := g.episodes.modify id f } j) : Processing g j := by
  rw [Processing, OrderedDict.get?_modify, if_neg hj] at h
  exact h

theorem Processing.of_append {j : String} {row : Episode} (hid : id ∉ g.episodes.keys) (hj : j ≠ id)
    (h : Processing { g with episodes := g.episodes.append id row hid } j) : Processing g j := by
  rw [Processing, OrderedDict.get?_append, if_neg hj] at h
  exact h

theorem processing_modify {f : Episode → Episode} (hf : ∀ ep, (f ep).status = .processing)
    (hid : id ∈ g.episodes.keys) : Processing { g with episodes := g.episodes.modify id f } id := by
  obtain ⟨ep, hep⟩ := OrderedDict.mem_keys.mp hid
  rw [Processing, OrderedDict.get?_modify, if_pos rfl, hep, Option.map_some, Option.map_some, hf]

theorem processing_append {row : Episode} (hid : id ∉ g.episodes.keys) (hrow : row.status = .processing) :
    Processing { g with episodes := g.episodes.append id row hid } id := by
  rw [Processing, OrderedDict.get?_append, if_pos rfl, Option.map_some, hrow]

theorem not_processing_updateEpisodeReady (id : String) (metadata : Json) (g : Stores) :
    ¬ Processing (updateEpisodeReady id metadata g) id := by
  rw [Processing, updateEpisodeReady, OrderedDict.get?_modify, if_pos rfl, Option.map_map]
  intro hp
  obtain ⟨ep, -, hep⟩ := Option.map_eq_some_iff.mp hp
  cases hep

theorem Thread.eq_of_owes {j : String} (h : th.owes = some id) (hj : th.owes = some j) : j = id := by
  rw [h, Option.some.injEq] at hj
  exact hj.symm

theorem AnswerStep.frame (hepisodes : t.episodes = g.episodes) (hevents : t.events = g.events)
    (hdischarges : th.discharges = false) (hmarks : th.marks g = false)
    (hrest : rest.bind Thread.owes = th.owes ∨ th.owes = none) : AnswerStep th g rest t := by
  have hgoes : GoesOn th g rest t := by
    refine ⟨hevents, ?_, ?_⟩
    · intro id howes
      rcases hrest with hrest | hrest
      · rw [hrest, howes]
      · rw [hrest] at howes
        cases howes
    · rintro id _ (hp | hm)
      · exact Processing.of_episodes hepisodes.symm hp
      · rw [hmarks] at hm
        cases hm
  refine ⟨?_, fun _ _ hp => hp.of_episodes hepisodes, fun _ _ hp => Or.inl (hp.of_episodes hepisodes),
    fun _ => hgoes, ?_⟩
  · exact ⟨[], by rw [List.append_nil, hevents]⟩
  · intro id _ hd
    rw [hdischarges] at hd
    cases hd

theorem AnswerStep.mark {f : Episode → Episode} (hf : ∀ ep, (f ep).status = .processing) (howes : th.owes = some id)
    (hmarks : th.marks g = true ↔ id ∈ g.episodes.keys) (hdischarges : th.discharges = false)
    (hrest : rest.bind Thread.owes = some id) :
    AnswerStep th g rest { g with episodes := g.episodes.modify id f } := by
  have hgoes : GoesOn th g rest { g with episodes := g.episodes.modify id f } := by
    refine ⟨rfl, ?_, ?_⟩
    · intro j hj
      rw [hrest, Thread.eq_of_owes howes hj]
    · intro j hj h
      rw [Thread.eq_of_owes howes hj] at h ⊢
      exact processing_modify hf (h.elim Processing.mem_keys hmarks.mp)
  refine ⟨List.prefix_refl _, ?_, ?_, fun _ => hgoes, ?_⟩
  · intro j hj hp
    rw [howes] at hj
    exact hp.of_modify (fun he => hj (congrArg some he.symm))
  · intro j hj hp
    have hmem := hp.mem_keys
    rw [OrderedDict.keys_modify, Thread.eq_of_owes howes hj] at hmem
    exact Or.inr (hmarks.mpr hmem)
  · intro j _ hd
    rw [hdischarges] at hd
    cases hd

theorem AnswerStep.create {row : Episode} (hrow : row.status = .processing) (hid : id ∉ g.episodes.keys)
    (howes : th.owes = some id) (hmarks : th.marks g = true) (hdischarges : th.discharges = false)
    (hrest : rest.bind Thread.owes = some id) :
    AnswerStep th g rest { g with episodes := g.episodes.append id row hid } := by
  have hgoes : GoesOn th g rest { g with episodes := g.episodes.append id row hid } := by
    refine ⟨rfl, ?_, ?_⟩
    · intro j hj
      rw [hrest, Thread.eq_of_owes howes hj]
    · intro j hj _
      rw [Thread.eq_of_owes howes hj]
      exact processing_append hid hrow
  refine ⟨List.prefix_refl _, ?_, fun _ _ _ => Or.inr hmarks, fun _ => hgoes, ?_⟩
  · intro j hj hp
    rw [howes] at hj
    exact hp.of_append hid (fun he => hj (congrArg some he.symm))
  · intro j _ hd
    rw [hdischarges] at hd
    cases hd

theorem AnswerStep.publish {path format : String} (howes : th.owes = some id) (hdischarges : th.discharges = true) :
    AnswerStep th g rest (publishEpisodeIngested id path format g) := by
  refine ⟨List.prefix_append .., fun _ _ hp => hp.of_episodes rfl, fun _ _ hp => Or.inl (hp.of_episodes rfl), ?_, ?_⟩
  · intro hd
    rw [hdischarges] at hd
    cases hd
  · intro j hj _ _
    refine ⟨⟨id, path, format⟩, ?_, (Thread.eq_of_owes howes hj).symm⟩
    simp only [publishEpisodeIngested, List.drop_left, List.mem_singleton]

theorem AnswerStep.ready {metadata : Json} (howes : th.owes = some id) (hdischarges : th.discharges = true) :
    AnswerStep th g rest (updateEpisodeReady id metadata g) := by
  have hnot (j : String) (hj : th.owes = some j) : ¬ Processing (updateEpisodeReady id metadata g) j := by
    rw [Thread.eq_of_owes howes hj]
    exact not_processing_updateEpisodeReady id metadata g
  refine ⟨List.prefix_refl _, ?_, fun j hj hp => absurd hp (hnot j hj), ?_, fun j hj _ hp => absurd hp (hnot j hj)⟩
  · intro j hj hp
    rw [howes] at hj
    exact hp.of_modify (fun he => hj (congrArg some he.symm))
  · intro hd
    rw [hdischarges] at hd
    cases hd

end Answers

theorem owes_deleteFrom (sessionId : String) (sess : UploadSession) (chunkN : ℕ) :
    (deleteFrom sessionId sess chunkN).bind Thread.owes = none := by
  unfold deleteFrom
  split <;> rfl

theorem answerStep_complete {sessionId : String} {step : CompleteStep} {g t : Stores} {rest : Option Thread}
    (h : completeCall sessionId g step = some (rest, t)) : AnswerStep (.complete sessionId step) g rest t := by
  cases step with
  | getUploadSession =>
    obtain ⟨⟨sess, u⟩, hcall, he⟩ := Option.map_eq_some_iff.mp h
    obtain ⟨-, rfl⟩ := getUploadSession_eq_some.mp hcall
    cases he
    exact .frame rfl rfl rfl rfl (Or.inr rfl)
  | getEpisode sess =>
    obtain ⟨⟨ep, u⟩, hcall, he⟩ := Option.map_eq_some_iff.mp h
    obtain ⟨-, rfl⟩ := getEpisode_eq_some.mp hcall
    cases he
    exact .frame rfl rfl rfl rfl (Or.inl rfl)
  | assembleChunks sess ep =>
    obtain ⟨⟨x, u⟩, hcall, he⟩ := Option.map_eq_some_iff.mp h
    obtain ⟨parts, -, rfl⟩ := assembleChunks_eq_some.mp hcall
    cases he
    exact .frame rfl rfl rfl rfl (Or.inl rfl)
  | completeSession sess ep =>
    cases h
    exact .frame rfl rfl rfl rfl (Or.inl rfl)
  | updateEpisodeStatus sess ep =>
    cases h
    exact .mark (fun _ => rfl) rfl decide_eq_true_iff rfl rfl
  | publish sess ep =>
    cases h
    exact .publish rfl rfl
  | deleteChunks sess chunkN =>
    cases h
    exact .frame rfl rfl rfl rfl (Or.inr rfl)

theorem answerStep_seal {work : SealWork} {step : SealStep} {g t : Stores} {rest : Option Thread}
    (h : sealCall work g step = some (rest, t)) : AnswerStep (.sealing work step) g rest t := by
  cases step with
  | createEpisode =>
    obtain ⟨⟨x, u⟩, hcall, he⟩ := Option.map_eq_some_iff.mp h
    obtain ⟨hid, rfl⟩ := createEpisodeFromStream_eq_some.mp hcall
    cases he
    exact .create rfl hid rfl (decide_eq_true hid) rfl rfl
  | putObject =>
    cases h
    exact .frame rfl rfl rfl rfl (Or.inl rfl)
  | updateEpisodeStatus =>
    cases h
    exact .mark (fun _ => rfl) rfl decide_eq_true_iff rfl rfl
  | publish =>
    cases h
    exact .publish rfl rfl

theorem answerStep_process {projects : List String} {msgId : ℕ} {event : IngestEvent} {metadata : Json}
    {step : ProcessStep} {g t : Stores} {rest : Option Thread}
    (h : processCall projects msgId event metadata g step = some (rest, t)) :
    AnswerStep (.process msgId event metadata step) g rest t := by
  cases step with
  | updateEpisodeStatus =>
    cases h
    exact .mark (fun _ => rfl) rfl decide_eq_true_iff rfl rfl
  | download =>
    obtain ⟨data, -, he⟩ := Option.map_eq_some_iff.mp h
    cases he
    exact .frame rfl rfl rfl rfl (Or.inl rfl)
  | extract =>
    rw [processCall, Option.ite_none_right_eq_some] at h
    cases h.2
    exact .frame rfl rfl rfl rfl (Or.inl rfl)
  | getEpisodeProject =>
    obtain ⟨project, -, he⟩ := Option.map_eq_some_iff.mp h
    cases he
    exact .frame rfl rfl rfl rfl (Or.inl rfl)
  | score =>
    cases h
    exact .frame rfl rfl rfl rfl (Or.inl rfl)
  | thumbnail =>
    cases h
    exact .frame rfl rfl rfl rfl (Or.inl rfl)
  | updateEpisodeReady =>
    cases h
    exact .ready rfl rfl
  | ack =>
    cases h
    exact .frame rfl rfl rfl rfl (Or.inr rfl)

theorem answerStep_thread {projects : List String} {th : Thread} {g t : Stores} {rest : Option Thread}
    (h : th.answer projects g = some (rest, t)) : AnswerStep th g rest t := by
  cases th with
  | complete sessionId step => exact answerStep_complete h
  | sealing work step => exact answerStep_seal h
  | process msgId event metadata step => exact answerStep_process h

structure CallStep (projects : List String) (outcome : Outcome Unit) (g : Stores) (th : Thread)
    (rest : Option Thread) (t : Stores) : Prop where
  events : g.events <+: t.events
  others : ∀ id, th.owes ≠ some id → Processing t id → Processing g id
  marked : ∀ id, th.owes = some id → Processing t id →
    Processing g id ∨ (outcome.takesEffect = true ∧ th.marks g = true)
  kept : ∀ id, th.owes = some id → ¬ th.GivesUp projects outcome g → Processing t id →
    rest.bind Thread.owes = some id ∨ ∃ e ∈ t.events.drop g.events.length, e.episodeId = id

theorem owes_onError {th : Thread} (h : th.onError ≠ none) (hdischarges : th.discharges = false) :
    th.onError.bind Thread.owes = th.owes := by
  cases th with
  | complete sessionId step =>
    cases step with
    | publish sess ep => cases hdischarges
    | deleteChunks sess chunkN => exact owes_deleteFrom ..
    | _ => exact absurd rfl h
  | sealing work step => exact absurd rfl h
  | process msgId event metadata step =>
    cases step with
    | thumbnail => rfl
    | _ => exact absurd rfl h

theorem answer_of_discharges {projects : List String} {th : Thread} {g : Stores} (h : th.discharges = true) :
    th.answer projects g ≠ none := by
  cases th with
  | complete sessionId step =>
    cases step with
    | publish sess ep => exact Option.some_ne_none _
    | _ => cases h
  | sealing work step =>
    cases step with
    | publish => exact Option.some_ne_none _
    | _ => cases h
  | process msgId event metadata step =>
    cases step with
    | updateEpisodeReady => exact Option.some_ne_none _
    | _ => cases h

theorem owes_onError_of_discharges {th : Thread} (h : th.discharges = true) : th.onError.bind Thread.owes = none := by
  cases th with
  | complete sessionId step =>
    cases step with
    | publish sess ep => exact owes_deleteFrom ..
    | _ => cases h
  | sealing work step => rfl
  | process msgId event metadata step =>
    cases step with
    | thumbnail => cases h
    | _ => rfl

theorem answer_of_marks {projects : List String} {th : Thread} {g : Stores} (h : th.marks g = true) :
    th.answer projects g ≠ none := by
  cases th with
  | complete sessionId step =>
    cases step with
    | updateEpisodeStatus sess ep => exact Option.some_ne_none _
    | _ => cases h
  | sealing work step =>
    cases step with
    | createEpisode =>
      have hid : work.episodeId ∉ g.episodes.keys := of_decide_eq_true h
      simp only [Thread.answer, sealCall, createEpisodeFromStream, dif_neg hid]
      exact Option.some_ne_none _
    | updateEpisodeStatus => exact Option.some_ne_none _
    | _ => cases h
  | process msgId event metadata step =>
    cases step with
    | updateEpisodeStatus => exact Option.some_ne_none _
    | _ => cases h

section Calls

variable {projects : List String} {outcome : Outcome Unit} {th : Thread} {g t : Stores} {rest : Option Thread}

theorem CallStep.failed (h : outcome.succeeds = false ∨ th.answer projects g = none)
    (heffect : th.discharges = true → outcome.takesEffect = false) :
    CallStep projects outcome g th th.onError g := by
  refine ⟨List.prefix_refl _, fun _ _ hp => hp, fun _ _ hp => Or.inl hp, ?_⟩
  intro id howes hgives _
  left
  unfold Thread.GivesUp at hgives
  split_ifs at hgives with hdischarges
  · exact absurd (heffect hdischarges) hgives
  · have herror : th.onError ≠ none := by
      intro he
      refine hgives ⟨he, ?_⟩
      rintro ⟨hsucceeds, hsome⟩
      rcases h with h | h
      · rw [h] at hsucceeds
        cases hsucceeds
      · rw [h] at hsome
        cases hsome
    rw [owes_onError herror (Bool.eq_false_iff.mpr hdischarges), howes]

theorem AnswerStep.call_ok (h : AnswerStep th g rest t) : CallStep projects .ok g th rest t := by
  refine ⟨h.events, h.others, ?_, ?_⟩
  · intro id howes hp
    exact (h.marked id howes hp).imp_right (fun hm => ⟨rfl, hm⟩)
  · intro id howes _ hp
    cases hd : th.discharges with
    | false => exact Or.inl ((h.goesOn hd).owes id howes)
    | true => exact Or.inr (h.discharged id howes hd hp)

theorem AnswerStep.call_late (h : AnswerStep th g rest t) (u : Unit) :
    CallStep projects (.raisesLate u) g th th.onError t := by
  refine ⟨h.events, h.others, ?_, ?_⟩
  · intro id howes hp
    exact (h.marked id howes hp).imp_right (fun hm => ⟨rfl, hm⟩)
  · intro id howes hgives hp
    cases hd : th.discharges with
    | true => exact Or.inr (h.discharged id howes hd hp)
    | false =>
      left
      have herror : th.onError ≠ none := by
        intro he
        apply hgives
        rw [Thread.GivesUp, if_neg (by rw [hd]; exact nofun)]
        exact ⟨he, nofun⟩
      rw [owes_onError herror hd, howes]

theorem callStep (projects : List String) (outcome : Outcome Unit) (g : Stores) (th : Thread) :
    CallStep projects outcome g th (th.call projects outcome g).1 (th.call projects outcome g).2 := by
  unfold Thread.call
  cases hans : th.answer projects g with
  | none =>
    have hfailed : CallStep projects outcome g th th.onError g :=
      .failed (Or.inr hans) (fun hd => absurd hans (answer_of_discharges hd))
    cases outcome with
    | ok => exact hfailed
    | raises u => exact hfailed
    | raisesLate u => exact hfailed
  | some p =>
    have hstep : AnswerStep th g p.1 p.2 := answerStep_thread hans
    cases outcome with
    | ok => exact hstep.call_ok
    | raises u => exact .failed (Or.inl rfl) (fun _ => rfl)
    | raisesLate u => exact hstep.call_late u

structure GivenUp (outcome : Outcome Unit) (g : Stores) (th : Thread) (rest : Option Thread) (t : Stores) : Prop where
  owes : rest.bind Thread.owes = none
  events : t.events = g.events
  stays : ∀ id, th.owes = some id → Processing g id ∨ (outcome.takesEffect = true ∧ th.marks g = true) → Processing t id

theorem GivenUp.unchanged (howes : rest.bind Thread.owes = none)
    (hmarks : th.marks g = true → outcome.takesEffect = false) : GivenUp outcome g th rest g := by
  refine ⟨howes, rfl, ?_⟩
  rintro id _ (hp | ⟨heffect, hm⟩)
  · exact hp
  · rw [hmarks hm] at heffect
    cases heffect

theorem givenUp_call (h : th.GivesUp projects outcome g) :
    GivenUp outcome g th (th.call projects outcome g).1 (th.call projects outcome g).2 := by
  unfold Thread.GivesUp at h
  unfold Thread.call
  split_ifs at h with hdischarges
  · cases outcome with
    | ok => cases h
    | raisesLate u => cases h
    | raises u => exact .unchanged (owes_onError_of_discharges hdischarges) (fun _ => rfl)
  · obtain ⟨herror, hfails⟩ := h
    have hnone : th.onError.bind Thread.owes = none := by
      rw [herror]
      rfl
    cases hans : th.answer projects g with
    | none =>
      have hgiven : GivenUp outcome g th th.onError g :=
        .unchanged hnone (fun hm => absurd hans (answer_of_marks hm))
      cases outcome with
      | ok => exact hgiven
      | raises u => exact hgiven
      | raisesLate u => exact hgiven
    | some p =>
      cases outcome with
      | ok =>
        rw [hans] at hfails
        exact absurd ⟨rfl, rfl⟩ hfails
      | raises u => exact .unchanged hnone (fun _ => rfl)
      | raisesLate u =>
        have hstep : AnswerStep th g p.1 p.2 := answerStep_thread hans
        have hgoes := hstep.goesOn (Bool.eq_false_iff.mpr hdischarges)
        exact ⟨hnone, hgoes.events, fun id howes hp => hgoes.stays id howes (hp.imp_right And.right)⟩

end Calls

end Embedai.IngestPipeline
