import Embedai.IngestCoverage

namespace Embedai.IngestPipeline

open Gateway StreamServer TracedHandlers TransitionSystems

def Ready (g : Stores) (id : String) : Prop := (g.episodes.get? id).map Episode.status = some .ready

instance (g : Stores) (id : String) : Decidable (Ready g id) :=
  inferInstanceAs (Decidable (_ = _))

def eventsOf (g : Stores) (id : String) : List IngestEvent := g.events.filter (fun event => event.episodeId = id)

namespace Thread

def past : Thread → Bool
  | complete _ (.updateEpisodeStatus ..) => true
  | complete _ (.publish ..) => true
  | _ => false

def completes : Thread → Bool
  | complete _ (.completeSession ..) => true
  | _ => false

def isRequest : Thread → Bool
  | complete .. => true
  | _ => false

end Thread

def TakesTurns (id : String) (s : System) : Action → Prop
  | .call tid outcome => ∀ th ∈ s.threads.get? tid, th.completes = true → outcome.succeeds = true →
      (∀ other ∈ s.threads.values, other.past = false) ∧ eventsOf s.stores id = []
  | _ => True

instance (id : String) (s : System) : ∀ a, Decidable (TakesTurns id s a)
  | .call tid _ => inferInstanceAs (Decidable (∀ th ∈ s.threads.get? tid, _))
  | .request .. => isTrue trivial
  | .sealEpisode .. => isTrue trivial
  | .deliver .. => isTrue trivial
  | .crash _ => isTrue trivial

def OnSession (sessionId : String) : Action → Prop
  | .request _ requested => requested = sessionId
  | .sealEpisode .. => False
  | _ => True

instance (sessionId : String) : ∀ a, Decidable (OnSession sessionId a)
  | .request _ requested => inferInstanceAs (Decidable (requested = sessionId))
  | .sealEpisode .. => isFalse id
  | .deliver .. => isTrue trivial
  | .call .. => isTrue trivial
  | .crash _ => isTrue trivial

def Belongs (sessionId id : String) (events : List IngestEvent) (th : Thread) : Prop :=
  match th with
  | .complete requested _ => requested = sessionId ∧ ∀ owed, th.owes = some owed → owed = id
  | .sealing .. => False
  | .process _ event _ _ => event ∈ events

structure AnswerOnce (sessionId id : String) (th : Thread) (g : Stores) (rest : Option Thread) (t : Stores) :
    Prop where
  session : ∀ sess, g.sessions.get? sessionId = some sess →
    ∃ sess', t.sessions.get? sessionId = some sess' ∧ sess'.episodeId = sess.episodeId
  events : t.events = g.events ∨ (th.past = true ∧ (∀ th' ∈ rest, th'.past = false) ∧
    ∃ path format, t.events = g.events ++ [⟨id, path, format⟩])
  rest : ∀ th' ∈ rest, Belongs sessionId id t.events th' ∧ (th'.past = true → th.past = true ∨ th.completes = true)
  ready : Ready t id → Ready g id ∨ eventsOf g id ≠ []
  stays : th.isRequest = true → th.past = false → Ready g id → Ready t id

section Answers

variable {sessionId id : String} {th : Thread} {g t : Stores} {rest : Option Thread} {events : List IngestEvent}
  {sess : UploadSession}

theorem AnswerOnce.frame (hepisodes : t.episodes = g.episodes) (hsessions : t.sessions = g.sessions)
    (hevents : t.events = g.events)
    (hrest : ∀ th' ∈ rest, Belongs sessionId id g.events th' ∧
      (th'.past = true → th.past = true ∨ th.completes = true)) : AnswerOnce sessionId id th g rest t := by
  have hready : Ready t id ↔ Ready g id := by rw [Ready, Ready, hepisodes]
  refine ⟨fun sess hsess => ⟨sess, ?_, rfl⟩, Or.inl hevents, ?_, fun h => Or.inl (hready.mp h), fun _ _ => hready.mpr⟩
  · rw [hsessions, hsess]
  · rw [hevents]
    exact hrest

theorem AnswerOnce.grows (h : AnswerOnce sessionId id th g rest t) : g.events <+: t.events := by
  rcases h.events with hsame | ⟨-, -, path, format, happend⟩
  · exact hsame ▸ List.prefix_refl _
  · rw [happend]
    exact List.prefix_append ..

theorem mem_deleteFrom {chunkN : ℕ} {th' : Thread} (h : th' ∈ deleteFrom sessionId sess chunkN) :
    th' = .complete sessionId (.deleteChunks sess chunkN) := by
  unfold deleteFrom at h
  split at h
  · exact (Option.some.inj h).symm
  · cases h

theorem past_deleteFrom {chunkN : ℕ} {th' : Thread} (h : th' ∈ deleteFrom sessionId sess chunkN) :
    th'.past = false := by
  rw [mem_deleteFrom h]
  rfl

theorem belongs_deleteFrom {chunkN : ℕ} {th' : Thread} (h : th' ∈ deleteFrom sessionId sess chunkN) :
    Belongs sessionId id events th' := by
  rw [mem_deleteFrom h]
  exact ⟨rfl, fun _ howes => by cases howes⟩

theorem Belongs.mono {later : List IngestEvent} (h : Belongs sessionId id events th) (hgrows : events <+: later) :
    Belongs sessionId id later th := by
  cases th with
  | complete requested step => exact h
  | sealing work step => exact h
  | process msgId event metadata step => exact hgrows.subset h

theorem eventsOf_ne_nil {event : IngestEvent} (h : event ∈ g.events) (hid : event.episodeId = id) :
    eventsOf g id ≠ [] :=
  List.ne_nil_of_mem (List.mem_filter.mpr ⟨h, decide_eq_true hid⟩)

theorem answerOnce_complete {step : CompleteStep} (hsess : g.sessions.get? sessionId = some sess)
    (hid : sess.episodeId = id) (hbelongs : Belongs sessionId id g.events (.complete sessionId step))
    (h : completeCall sessionId g step = some (rest, t)) :
    AnswerOnce sessionId id (.complete sessionId step) g rest t := by
  cases step with
  | getUploadSession =>
    obtain ⟨⟨sess', u⟩, hcall, he⟩ := Option.map_eq_some_iff.mp h
    obtain ⟨hsess', rfl⟩ := getUploadSession_eq_some.mp hcall
    rw [hsess, Option.some.injEq] at hsess'
    subst hsess'
    cases he
    refine .frame rfl rfl rfl fun th' hth' => ?_
    split at hth'
    · cases hth'
      refine ⟨⟨rfl, fun owed howed => ?_⟩, nofun⟩
      cases howed
      exact hid
    · cases hth'
  | getEpisode sess' =>
    obtain ⟨⟨ep, u⟩, hcall, he⟩ := Option.map_eq_some_iff.mp h
    obtain ⟨-, rfl⟩ := getEpisode_eq_some.mp hcall
    cases he
    refine .frame rfl rfl rfl fun th' hth' => ?_
    cases hth'
    exact ⟨hbelongs, nofun⟩
  | assembleChunks sess' ep =>
    obtain ⟨⟨x, u⟩, hcall, he⟩ := Option.map_eq_some_iff.mp h
    obtain ⟨parts, -, rfl⟩ := assembleChunks_eq_some.mp hcall
    cases he
    refine .frame rfl rfl rfl fun th' hth' => ?_
    cases hth'
    exact ⟨hbelongs, nofun⟩
  | completeSession sess' ep =>
    cases h
    refine ⟨fun sess hsess => ⟨{ sess with status := .completed }, ?_, rfl⟩, Or.inl rfl, fun th' hth' => ?_,
      fun h => Or.inl h, fun _ _ h => h⟩
    · rw [OrderedDict.get?_modify, if_pos rfl, hsess, Option.map_some]
    · cases hth'
      exact ⟨hbelongs, fun _ => Or.inr rfl⟩
  | updateEpisodeStatus sess' ep =>
    cases h
    have howed : sess'.episodeId = id := hbelongs.2 _ rfl
    subst howed
    refine ⟨fun sess hsess => ⟨sess, hsess, rfl⟩, Or.inl rfl, fun th' hth' => ?_, fun hready => ?_, nofun⟩
    · cases hth'
      exact ⟨hbelongs, fun _ => Or.inl rfl⟩
    · -- the row has been set to `processing`
      rw [Ready, OrderedDict.get?_modify, if_pos rfl, Option.map_map] at hready
      obtain ⟨row, -, hrow⟩ := Option.map_eq_some_iff.mp hready
      cases hrow
  | publish sess' ep =>
    cases h
    have howed : sess'.episodeId = id := hbelongs.2 _ rfl
    subst howed
    refine ⟨fun sess hsess => ⟨sess, hsess, rfl⟩, Or.inr ⟨rfl, fun th' hth' => ?_, _, _, rfl⟩, fun th' hth' => ?_,
      fun h => Or.inl h, nofun⟩
    · exact past_deleteFrom hth'
    · exact ⟨belongs_deleteFrom hth', fun _ => Or.inl rfl⟩
  | deleteChunks sess' chunkN =>
    cases h
    refine .frame rfl rfl rfl fun th' hth' => ?_
    refine ⟨belongs_deleteFrom hth', fun h => ?_⟩
    rw [past_deleteFrom hth'] at h
    cases h

theorem Ready.of_modify {j : String} {f : Episode → Episode}
    (h : Ready { g with episodes := g.episodes.modify j f } id) (hj : id ≠ j) : Ready g id := by
  rw [Ready, OrderedDict.get?_modify, if_neg hj] at h
  exact h

theorem answerOnce_process {projects : List String} {msgId : ℕ} {event : IngestEvent} {metadata : Json}
    {step : ProcessStep} (hevent : event ∈ g.events)
    (h : processCall projects msgId event metadata g step = some (rest, t)) :
    AnswerOnce sessionId id (.process msgId event metadata step) g rest t := by
  have hframe {next : ProcessStep} (ht : t = g) (hrest : rest = some (.process msgId event metadata next)) :
      AnswerOnce sessionId id (.process msgId event metadata step) g rest t := by
    subst ht hrest
    refine .frame rfl rfl rfl fun th' hth' => ?_
    cases hth'
    exact ⟨hevent, fun hpast => by cases hpast⟩
  cases step with
  | updateEpisodeStatus =>
    cases h
    refine ⟨fun sess hsess => ⟨sess, hsess, rfl⟩, Or.inl rfl, fun th' hth' => ?_, fun hready => ?_,
      fun hrequest => by cases hrequest⟩
    · cases hth'
      exact ⟨hevent, fun hpast => by cases hpast⟩
    · by_cases hid : id = event.episodeId
      · subst hid
        rw [Ready, setEpisodeStatus, OrderedDict.get?_modify, if_pos rfl, Option.map_map] at hready
        obtain ⟨row, -, hrow⟩ := Option.map_eq_some_iff.mp hready
        cases hrow
      · exact Or.inl (hready.of_modify hid)
  | download =>
    obtain ⟨data, -, he⟩ := Option.map_eq_some_iff.mp h
    cases he
    exact hframe rfl rfl
  | extract =>
    rw [processCall, Option.ite_none_right_eq_some] at h
    cases h.2
    exact hframe rfl rfl
  | getEpisodeProject =>
    obtain ⟨project, -, he⟩ := Option.map_eq_some_iff.mp h
    cases he
    exact hframe rfl rfl
  | score =>
    cases h
    exact hframe rfl rfl
  | thumbnail =>
    cases h
    exact hframe rfl rfl
  | updateEpisodeReady =>
    cases h
    refine ⟨fun sess hsess => ⟨sess, hsess, rfl⟩, Or.inl rfl, fun th' hth' => ?_, fun hready => ?_,
      fun hrequest => by cases hrequest⟩
    · cases hth'
      exact ⟨hevent, fun hpast => by cases hpast⟩
    · by_cases hid : id = event.episodeId
      · exact Or.inr (eventsOf_ne_nil hevent hid.symm)
      · exact Or.inl (hready.of_modify hid)
  | ack =>
    cases h
    exact .frame rfl rfl rfl fun th' hth' => by cases hth'

theorem answerOnce_thread {projects : List String} (hsess : g.sessions.get? sessionId = some sess)
    (hid : sess.episodeId = id) (hbelongs : Belongs sessionId id g.events th)
    (h : th.answer projects g = some (rest, t)) : AnswerOnce sessionId id th g rest t := by
  cases th with
  | complete requested step =>
    have hrequested : requested = sessionId := hbelongs.1
    subst hrequested
    exact answerOnce_complete hsess hid hbelongs h
  | sealing work step => exact hbelongs.elim
  | process msgId event metadata step => exact answerOnce_process hbelongs h

theorem belongs_onError (hbelongs : Belongs sessionId id events th) {th' : Thread} (h : th' ∈ th.onError) :
    Belongs sessionId id events th' ∧ th'.past = false := by
  cases th with
  | complete requested step =>
    obtain ⟨rfl, -⟩ := hbelongs
    cases step with
    | publish sess ep => exact ⟨belongs_deleteFrom h, past_deleteFrom h⟩
    | deleteChunks sess chunkN => exact ⟨belongs_deleteFrom h, past_deleteFrom h⟩
    | _ => cases h
  | sealing work step => exact hbelongs.elim
  | process msgId event metadata step =>
    cases step with
    | thumbnail =>
      cases h
      exact ⟨hbelongs, rfl⟩
    | _ => cases h

theorem answerOnce_call (projects : List String) (outcome : Outcome Unit)
    (hsess : g.sessions.get? sessionId = some sess) (hid : sess.episodeId = id)
    (hbelongs : Belongs sessionId id g.events th) :
    AnswerOnce sessionId id th g (th.call projects outcome g).1 (th.call projects outcome g).2 ∧
      ∀ th' ∈ (th.call projects outcome g).1, th'.past = true → th.past = true ∨ outcome.succeeds = true := by
  have hfailed : AnswerOnce sessionId id th g th.onError g ∧
      ∀ th' ∈ th.onError, th'.past = true → th.past = true ∨ outcome.succeeds = true := by
    refine ⟨.frame rfl rfl rfl fun th' hth' => ?_, fun th' hth' hpast => ?_⟩
    · obtain ⟨hbelongs', hpast⟩ := belongs_onError hbelongs hth'
      refine ⟨hbelongs', fun h => ?_⟩
      rw [hpast] at h
      cases h
    · rw [(belongs_onError hbelongs hth').2] at hpast
      cases hpast
  unfold Thread.call
  cases hans : th.answer projects g with
  | none =>
    cases outcome with
    | ok => exact hfailed
    | raises u => exact hfailed
    | raisesLate u => exact hfailed
  | some p =>
    obtain ⟨rest, t⟩ := p
    have hanswer := answerOnce_thread hsess hid hbelongs hans
    cases outcome with
    | ok => exact ⟨hanswer, fun _ _ _ => Or.inr rfl⟩
    | raises u => exact hfailed
    | raisesLate u =>
      refine ⟨⟨hanswer.session, ?_, fun th' hth' => ?_, hanswer.ready, hanswer.stays⟩, fun th' hth' hpast => ?_⟩
      · refine hanswer.events.imp_right fun ⟨hpast, _, happend⟩ => ⟨hpast, fun th' hth' => ?_, happend⟩
        exact (belongs_onError hbelongs hth').2
      · obtain ⟨hbelongs', hpast⟩ := belongs_onError hbelongs hth'
        refine ⟨hbelongs'.mono hanswer.grows, fun h => ?_⟩
        rw [hpast] at h
        cases h
      · rw [(belongs_onError hbelongs hth').2] at hpast
        cases hpast

end Answers

structure OneTurn (sessionId id : String) (s : System) : Prop where
  session : ∃ sess, s.stores.sessions.get? sessionId = some sess ∧ sess.episodeId = id
  threads : ∀ tid th, s.threads.get? tid = some th → Belongs sessionId id s.stores.events th
  unpublished : ∀ tid th, s.threads.get? tid = some th → th.past = true → eventsOf s.stores id = []
  unique : ∀ tid other th th', s.threads.get? tid = some th → s.threads.get? other = some th' → th.past = true →
    th'.past = true → tid = other
  ready : Ready s.stores id → eventsOf s.stores id ≠ []
  events : (eventsOf s.stores id).length ≤ 1

section Turns

variable {sessionId id : String} {s t : System} {tid : ℕ} {th : Thread}

section Call

variable {outcome : Outcome Unit} {rest : Option Thread} {g : Stores}

def Passes (th : Thread) (outcome : Outcome Unit) : Prop :=
  th.past = true ∨ (th.completes = true ∧ outcome.succeeds = true)

theorem AnswerOnce.passes (hanswer : AnswerOnce sessionId id th s.stores rest g)
    (htold : ∀ th' ∈ rest, th'.past = true → th.past = true ∨ outcome.succeeds = true) {th' : Thread}
    (hrest : th' ∈ rest) (hp : th'.past = true) : Passes th outcome := by
  rcases htold th' hrest hp with hbefore | hsucceeds
  · exact Or.inl hbefore
  · exact ((hanswer.rest th' hrest).2 hp).imp_right fun hcompletes => ⟨hcompletes, hsucceeds⟩

theorem AnswerOnce.same_events (hanswer : AnswerOnce sessionId id th s.stores rest g)
    (h : th.past = false ∨ ∃ th' ∈ rest, th'.past = true) : g.events = s.stores.events := by
  rcases hanswer.events with hsame | ⟨hpast, hended, -⟩
  · exact hsame
  · rcases h with hnot | ⟨th', hrest, hp⟩
    · rw [hnot] at hpast
      cases hpast
    · rw [hended th' hrest] at hp
      cases hp

theorem OneTurn.no_event (hs : OneTurn sessionId id s) (hturns : TakesTurns id s (.call tid outcome))
    (hth : s.threads.get? tid = some th) (hpasses : Passes th outcome) : eventsOf s.stores id = [] := by
  rcases hpasses with hpast | ⟨hcompletes, hsucceeds⟩
  · exact hs.unpublished tid th hth hpast
  · exact (hturns th hth hcompletes hsucceeds).2

theorem OneTurn.no_other (hs : OneTurn sessionId id s) (hturns : TakesTurns id s (.call tid outcome))
    (hth : s.threads.get? tid = some th) (hpasses : Passes th outcome) {other : ℕ} {th' : Thread}
    (hother : s.threads.get? other = some th') (hp : th'.past = true) : other = tid := by
  rcases hpasses with hpast | ⟨hcompletes, hsucceeds⟩
  · exact hs.unique other tid th' th hother hth hp hpast
  · rw [(hturns th hth hcompletes hsucceeds).1 th' (OrderedDict.mem_values.mpr ⟨other, hother⟩)] at hp
    cases hp

theorem OneTurn.events_call (hs : OneTurn sessionId id s) (hth : s.threads.get? tid = some th)
    (hanswer : AnswerOnce sessionId id th s.stores rest g) : (eventsOf g id).length ≤ 1 := by
  rw [eventsOf]
  rcases hanswer.events with hsame | ⟨hpublishes, -, path, format, happend⟩
  · rw [hsame]
    exact hs.events
  · have hnone := hs.unpublished tid th hth hpublishes
    rw [eventsOf] at hnone
    rw [happend, List.filter_append, hnone, List.nil_append]
    exact List.length_filter_le ..

theorem OneTurn.ready_call (hs : OneTurn sessionId id s) (hanswer : AnswerOnce sessionId id th s.stores rest g)
    (hready : Ready g id) : eventsOf g id ≠ [] := by
  intro hnone
  have hnone' : eventsOf s.stores id = [] := by
    rw [← List.prefix_nil, ← hnone]
    exact hanswer.grows.filter _
  exact (hanswer.ready hready).elim (fun h => hs.ready h hnone') (fun h => h hnone')

theorem oneTurn_call (hs : OneTurn sessionId id s) (hturns : TakesTurns id s (.call tid outcome))
    (h : next s (.call tid outcome) = some t) : OneTurn sessionId id t := by
  obtain ⟨th, hth, rfl⟩ := Option.map_eq_some_iff.mp h
  obtain ⟨sess, hsess, hid⟩ := hs.session
  obtain ⟨hanswer, htold⟩ := answerOnce_call s.projects outcome hsess hid (hs.threads tid th hth)
  refine ⟨?_, ?_, ?_, ?_, hs.ready_call hanswer, hs.events_call hth hanswer⟩
  · obtain ⟨sess', hsess', hid'⟩ := hanswer.session sess hsess
    exact ⟨sess', hsess', hid'.trans hid⟩
  · intro other th' hother
    rw [get?_setThread] at hother
    split_ifs at hother with hne
    · exact (hanswer.rest th' hother).1
    · exact (hs.threads other th' hother).mono hanswer.grows
  · intro other th' hother hp
    rw [get?_setThread] at hother
    rw [eventsOf]
    split_ifs at hother with hne
    · rw [hanswer.same_events (Or.inr ⟨th', hother, hp⟩)]
      exact hs.no_event hturns hth (hanswer.passes htold hother hp)
    · have hnot : th.past = false := by
        by_contra hpast
        rw [Bool.not_eq_false] at hpast
        exact hne (hs.unique other tid th' th hother hth hp hpast)
      rw [hanswer.same_events (Or.inl hnot)]
      exact hs.unpublished other th' hother hp
  · intro i j thi thj hi hj hpi hpj
    rw [get?_setThread] at hi hj
    split_ifs at hi hj with hitid hjtid hjtid
    · exact hitid.trans hjtid.symm
    · exact absurd (hs.no_other hturns hth (hanswer.passes htold hi hpi) hj hpj) hjtid
    · exact absurd (hs.no_other hturns hth (hanswer.passes htold hj hpj) hi hpi) hitid
    · exact hs.unique i j thi thj hi hj hpi hpj

end Call

theorem oneTurn_spawn (hs : OneTurn sessionId id s) (h : spawn tid th s = some t)
    (hbelongs : Belongs sessionId id s.stores.events th) (hpast : th.past = false) : OneTurn sessionId id t := by
  obtain ⟨hfree, rfl⟩ := spawn_eq_some h
  have hold {other : ℕ} {th' : Thread} (hother : (setThread tid (some th) s.threads).get? other = some th') :
      th' = th ∨ s.threads.get? other = some th' := by
    rw [get?_setThread] at hother
    split_ifs at hother with hne
    · exact Or.inl (Option.some.inj hother).symm
    · exact Or.inr hother
  have hsame {th' : Thread} (he : th' = th) (hp : th'.past = true) : False := by
    rw [he, hpast] at hp
    cases hp
  refine ⟨hs.session, ?_, ?_, ?_, hs.ready, hs.events⟩
  · intro other th' hother
    rcases hold hother with rfl | hother
    · exact hbelongs
    · exact hs.threads other th' hother
  · intro other th' hother hp
    rcases hold hother with he | hother
    · exact (hsame he hp).elim
    · exact hs.unpublished other th' hother hp
  · intro i j thi thj hi hj hpi hpj
    rcases hold hi with he | hi
    · exact (hsame he hpi).elim
    · rcases hold hj with he | hj
      · exact (hsame he hpj).elim
      · exact hs.unique i j thi thj hi hj hpi hpj

theorem OneTurn.of_subset {threads : OrderedDict ℕ Thread} {delivered : ℕ} (hs : OneTurn sessionId id s)
    (hthreads : ∀ other th', threads.get? other = some th' → s.threads.get? other = some th') :
    OneTurn sessionId id { s with threads := threads, delivered := delivered } :=
  ⟨hs.session, fun other th' hother => hs.threads other th' (hthreads other th' hother),
    fun other th' hother => hs.unpublished other th' (hthreads other th' hother),
    fun i j thi thj hi hj => hs.unique i j thi thj (hthreads i thi hi) (hthreads j thj hj), hs.ready, hs.events⟩

theorem oneTurn_next {a : Action} (hs : OneTurn sessionId id s) (hsession : OnSession sessionId a)
    (hturns : TakesTurns id s a) (h : next s a = some t) : OneTurn sessionId id t := by
  cases a with
  | request tid requested =>
    have hrequested : requested = sessionId := hsession
    subst hrequested
    exact oneTurn_spawn hs h ⟨rfl, fun _ howes => by cases howes⟩ rfl
  | sealEpisode tid work => exact hsession.elim
  | deliver tid metadata =>
    obtain ⟨event, hevent, hspawn⟩ := Option.bind_eq_some_iff.mp h
    have hbefore : OneTurn sessionId id { s with delivered := s.delivered + 1 } := hs.of_subset fun _ _ h => h
    exact oneTurn_spawn hbefore hspawn (List.mem_of_getElem? hevent) rfl
  | call tid outcome => exact oneTurn_call hs hturns h
  | crash tid =>
    simp only [next] at h
    split at h
    · cases h
      refine hs.of_subset fun other th' hother => ?_
      rw [get?_setThread] at hother
      split_ifs at hother
      exact hother
    · cases h

theorem OneTurn.stays_ready {outcome : Outcome Unit} (hs : OneTurn sessionId id s)
    (hth : s.threads.get? tid = some th) (hrequest : th.isRequest = true) (h : next s (.call tid outcome) = some t)
    (hready : Ready s.stores id) : Ready t.stores id := by
  rw [next, hth, Option.map_some, Option.some.injEq] at h
  subst h
  obtain ⟨sess, hsess, hid⟩ := hs.session
  cases hpast : th.past with
  | true => exact absurd (hs.unpublished tid th hth hpast) (hs.ready hready)
  | false =>
    exact (answerOnce_call s.projects outcome hsess hid (hs.threads tid th hth)).1.stays hrequest hpast hready

theorem oneTurn_start {projects : List String} {g : Stores} {sess : UploadSession}
    (hsess : g.sessions.get? sessionId = some sess) (hid : sess.episodeId = id) (hevents : eventsOf g id = [])
    (hready : ¬ Ready g id) : OneTurn sessionId id (start projects g) := by
  have hnone {tid : ℕ} {th : Thread} (h : (start projects g).threads.get? tid = some th) : False := by cases h
  refine ⟨⟨sess, hsess, hid⟩, fun _ _ h => (hnone h).elim, fun _ _ h => (hnone h).elim,
    fun _ _ _ _ h => (hnone h).elim, fun h => absurd h hready, ?_⟩
  change (eventsOf g id).length ≤ 1
  rw [hevents]
  exact Nat.zero_le 1

end Turns

/-- The run begins before any Complete request on the session. -/
theorem complete_happens_once (projects : List String) (g : Stores) (sessionId : String) (sess : UploadSession)
    (actions : List Action) (s : System) (hsess : g.sessions.get? sessionId = some sess)
    (hevents : eventsOf g sess.episodeId = []) (hready : ¬ Ready g sess.episodeId)
    (hsession : ∀ a ∈ actions, OnSession sessionId a)
    (hturns : Along next (TakesTurns sess.episodeId) (start projects g) actions)
    (hrun : run next (start projects g) actions = some s) :
    (eventsOf s.stores sess.episodeId).length ≤ 1 ∧
      ∀ tid th outcome t, s.threads.get? tid = some th → th.isRequest = true →
        next s (.call tid outcome) = some t → Ready s.stores sess.episodeId → Ready t.stores sess.episodeId := by
  have hturn : OneTurn sessionId sess.episodeId s :=
    invariant_along (OneTurn sessionId sess.episodeId) (fun _ _ _ hs hok ht => oneTurn_next hs hok.1 hok.2 ht)
      (oneTurn_start hsess rfl hevents hready) ((along_of_mem hsession).and hturns) hrun
  exact ⟨hturn.events, fun tid th outcome t hth hrequest h hr => hturn.stays_ready hth hrequest h hr⟩

open ObjectLocations (labProject oneChunkUploaded)

def oneAfterTheOther : List Action :=
  [.request 0 "s-1"] ++ calls 0 6 ++ [.request 1 "s-1", .deliver 2 (.obj [])] ++ calls 1 1 ++ calls 2 7

theorem complete_happens_once_oneAfterTheOther :
    (run next (start [labProject] oneChunkUploaded) oneAfterTheOther).isSome ∧
      ∀ s, run next (start [labProject] oneChunkUploaded) oneAfterTheOther = some s →
        (eventsOf s.stores "ep-1").length ≤ 1 :=
  ⟨by decide +kernel, fun s hs => (complete_happens_once [labProject] oneChunkUploaded "s-1"
    ⟨"ep-1", 1, 1, uploadChunkSize, "", .inProgress, 0⟩ oneAfterTheOther s rfl rfl (by decide +kernel) (by decide)
    (by decide +kernel) hs).1⟩

def bothRead : List Action :=
  [.request 0 "s-1", .request 1 "s-1"] ++ calls 0 1 ++ calls 1 6 ++ [.deliver 2 (.obj [])] ++ calls 2 7 ++ calls 0 3

theorem bothRead_completes_twice :
    (∀ a ∈ bothRead ++ calls 0 2, OnSession "s-1" a) ∧
      (∃ s t, run next (start [labProject] oneChunkUploaded) bothRead = some s ∧ next s (.call 0 .ok) = some t ∧
        Ready s.stores "ep-1" ∧ ¬ Ready t.stores "ep-1") ∧
      ∃ u, run next (start [labProject] oneChunkUploaded) (bothRead ++ calls 0 2) = some u ∧
        (eventsOf u.stores "ep-1").length = 2 := by
  have hback : (run next (start [labProject] oneChunkUploaded) bothRead).any (fun s =>
      Ready s.stores "ep-1" ∧ (next s (.call 0 .ok)).any (fun t => ¬ Ready t.stores "ep-1")) := by decide +kernel
  have htwice : (run next (start [labProject] oneChunkUploaded) (bothRead ++ calls 0 2)).any
      (fun u => (eventsOf u.stores "ep-1").length = 2) := by decide +kernel
  obtain ⟨s, hs, hresult⟩ := (Option.any_eq_true _ _).mp hback
  obtain ⟨hready, hnext⟩ := of_decide_eq_true hresult
  obtain ⟨t, ht, hlost⟩ := (Option.any_eq_true _ _).mp hnext
  obtain ⟨u, hu, hevents⟩ := (Option.any_eq_true _ _).mp htwice
  exact ⟨by decide, ⟨s, t, hs, ht, hready, of_decide_eq_true hlost⟩, u, hu, of_decide_eq_true hevents⟩

end Embedai.IngestPipeline
