import Embedai.ProcessingAtomicity
import Embedai.TransitionSystems
import Embedai.UploadOwnership

namespace Embedai.UploadThreads

open Gateway Handlers StreamServer TracedHandlers TransitionSystems
open IngestPipeline (Thread)

inductive Other (issued : List Uuid) (uploads : OrderedDict ℕ Upload) (events : List IngestEvent) : Job → Prop
  | sealing {work : IngestPipeline.SealWork} {step : IngestPipeline.SealStep} (id : Uuid) (hid : id ∈ issued)
      (hwork : work.episodeId = id.text) (hothers : ∀ tid u, uploads.get? tid = some u → u.episodeId ≠ id) :
      Other issued uploads events (.thread (.sealing work step))
  | process {msgId : ℕ} {event : IngestEvent} {metadata : Json} {step : IngestPipeline.ProcessStep}
      (hevent : event ∈ events) : Other issued uploads events (.thread (.process msgId event metadata step))

structure Apart (u v : Upload) : Prop where
  episode : u.episodeId ≠ v.episodeId
  session : u.sessionId ≠ v.sessionId

structure Sound (s : System) : Prop where
  uploads : ∀ tid u, s.uploads.get? tid = some u → u.At s.stores (s.jobs.get? tid)
  apart : ∀ tid tid' u v, s.uploads.get? tid = some u → s.uploads.get? tid' = some v → tid ≠ tid' → Apart u v
  issued : ∀ tid u, s.uploads.get? tid = some u → u.episodeId ∈ s.issued ∧ u.sessionId ∈ s.issued
  others : ∀ tid job, s.uploads.get? tid = none → s.jobs.get? tid = some job →
    Other s.issued s.uploads s.stores.events job
  known : Known s.issued s.stores

variable {s t : System} {tid : ℕ} {u : Upload} {job : Job} {projects : List String} {as : List Action}

theorem call_cases (projects : List String) (outcome : Outcome Unit) (g : Stores) (job : Job) :
    job.call projects outcome g = (job.onError, g) ∨ ∃ rest t, job.answer projects g = some (rest, t) ∧
      (job.call projects outcome g = (rest, t) ∨ job.call projects outcome g = (job.onError, t)) := by
  unfold Job.call
  cases hanswer : job.answer projects g with
  | none => cases outcome <;> exact .inl rfl
  | some p =>
    cases outcome with
    | ok => exact .inr ⟨_, _, rfl, .inl rfl⟩
    | raises => exact .inl rfl
    | raisesLate => exact .inr ⟨_, _, rfl, .inr rfl⟩

theorem spawn_eq_some {ids : List Uuid} : spawn tid job ids s = some t ↔
    (tid ∉ s.jobs.keys ∧ tid ∉ s.uploads.keys ∧ (ids ++ s.issued).Nodup) ∧
      t = { s with issued := ids ++ s.issued, jobs := setJob tid (some job) s.jobs } := by
  unfold spawn
  rw [Option.ite_none_right_eq_some, Option.some.injEq, @eq_comm _ t]

theorem Other.mono {issued issued' : List Uuid} {uploads uploads' : OrderedDict ℕ Upload}
    {events events' : List IngestEvent} (h : Other issued uploads events job) (hissued : issued ⊆ issued')
    (hevents : events ⊆ events')
    (huploads : ∀ tid u, uploads'.get? tid = some u → uploads.get? tid = some u ∨ u.episodeId ∉ issued) :
    Other issued' uploads' events' job := by
  cases h with
  | sealing id hid hwork hothers =>
    refine .sealing id (hissued hid) hwork fun tid u hu => ?_
    rcases huploads tid u hu with hold | hnew
    · exact hothers tid u hold
    · rintro rfl
      exact hnew hid
  | process hevent => exact .process (hevents hevent)

theorem Other.events {issued : List Uuid} {uploads : OrderedDict ℕ Upload} {events events' : List IngestEvent}
    (h : Other issued uploads events job) (hevents : events ⊆ events') : Other issued uploads events' job :=
  h.mono (List.Subset.refl _) hevents fun _ _ hu => .inl hu

theorem Changes.events_subset {episodeId : Uuid} {sessionId : Option Uuid} {g h : Stores}
    (hchanges : Changes episodeId sessionId g h) : g.events ⊆ h.events := by
  cases hchanges with
  | publish => exact List.subset_append_left ..
  | _ => exact List.Subset.refl _

theorem sound_start (projects : List String) : Sound (start projects) :=
  ⟨fun _ _ h => absurd h (by simp [start, OrderedDict.get?, OrderedDict.empty]),
    fun _ _ _ _ h => absurd h (by simp [start, OrderedDict.get?, OrderedDict.empty]),
    fun _ _ h => absurd h (by simp [start, OrderedDict.get?, OrderedDict.empty]),
    fun _ _ _ h => absurd h (by simp [start, OrderedDict.get?, OrderedDict.empty]),
    ⟨fun _ h => absurd h (by simp [start, emptyStores, OrderedDict.keys, OrderedDict.empty]),
      fun _ h => absurd h (by simp [start, emptyStores, OrderedDict.keys, OrderedDict.empty]),
      fun _ h => absurd h (by simp [start, emptyStores])⟩⟩

theorem sound_spawn {ids : List Uuid} (hs : Sound s) (h : spawn tid job ids s = some t)
    (hjob : Other (ids ++ s.issued) s.uploads s.stores.events job) : Sound t := by
  obtain ⟨⟨hjobs, huploads, -⟩, rfl⟩ := spawn_eq_some.mp h
  have hsub : s.issued ⊆ ids ++ s.issued := List.subset_append_right ..
  have hne {j : ℕ} {u : Upload} (hu : s.uploads.get? j = some u) : j ≠ tid := by
    rintro rfl
    rw [OrderedDict.get?_eq_none.mpr huploads] at hu
    cases hu
  refine ⟨fun j u hu => ?_, hs.apart, fun j u hu => (hs.issued j u hu).imp (fun h => hsub h) (fun h => hsub h),
    fun j other hj hother => ?_, hs.known.mono hsub⟩
  · rw [get?_setJob, if_neg (hne hu)]
    exact hs.uploads j u hu
  · rw [get?_setJob] at hother
    split_ifs at hother with heq
    · cases hother
      exact hjob
    · exact (hs.others j other hj hother).mono hsub (List.Subset.refl _) (fun _ _ hu => .inl hu)

theorem sound_upload (hs : Sound s) (h : spawn tid (.upload u .createEpisode) [u.episodeId, u.sessionId] s = some t) :
    Sound { t with uploads := t.uploads.set tid u } := by
  obtain ⟨⟨hjobs, huploads, hnodup⟩, rfl⟩ := spawn_eq_some.mp h
  have hsub : s.issued ⊆ [u.episodeId, u.sessionId] ++ s.issued := List.subset_append_right ..
  simp only [List.cons_append, List.nil_append, List.nodup_cons, List.mem_cons, not_or] at hnodup
  obtain ⟨⟨-, hepisode⟩, hsession, -⟩ := hnodup
  have hfresh {id : Uuid} {text : String} (hid : id ∉ s.issued) (hknown : ∃ e ∈ s.issued, text = e.text) :
      text ≠ id.text := by
    obtain ⟨e, he, rfl⟩ := hknown
    intro htext
    exact hid (Uuid.text_injective htext ▸ he)
  have hat : u.At s.stores (some (.upload u .createEpisode)) := by
    refine .createEpisode (OrderedDict.get?_eq_none.mpr fun hmem => ?_)
      (OrderedDict.get?_eq_none.mpr fun hmem => ?_) ?_
    · exact hfresh hepisode (hs.known.episodes _ hmem) rfl
    · exact hfresh hsession (hs.known.sessions _ hmem) rfl
    · refine List.filter_eq_nil_iff.mpr fun event hevent he => ?_
      exact hfresh hepisode (hs.known.events event hevent) (of_decide_eq_true he)
  have hget (j : ℕ) : (s.uploads.set tid u).get? j = if j = tid then some u else s.uploads.get? j :=
    OrderedDict.get?_set ..
  have hnew {v : Upload} {j : ℕ} (hv : s.uploads.get? j = some v) : Apart u v := by
    obtain ⟨hepisode', hsession'⟩ := hs.issued j v hv
    exact ⟨fun he => hepisode (he ▸ hepisode'), fun he => hsession (he ▸ hsession')⟩
  refine ⟨fun j v hv => ?_, fun j j' v v' hv hv' hne => ?_, fun j v hv => ?_, fun j other hj hother => ?_,
    hs.known.mono hsub⟩
  · rw [hget] at hv
    rw [get?_setJob]
    split_ifs at hv ⊢ with heq
    · cases hv
      exact hat
    · exact hs.uploads j v hv
  · rw [hget] at hv hv'
    split_ifs at hv hv' with hj hj'
    · exact absurd (hj.trans hj'.symm) hne
    · cases hv
      exact hnew hv'
    · cases hv'
      exact ⟨(hnew hv).episode.symm, (hnew hv).session.symm⟩
    · exact hs.apart j j' v v' hv hv' hne
  · rw [hget] at hv
    split_ifs at hv with heq
    · cases hv
      exact ⟨by simp, by simp⟩
    · exact (hs.issued j v hv).imp (fun h => hsub h) (fun h => hsub h)
  · rw [hget] at hj
    rw [get?_setJob] at hother
    split_ifs at hj hother with heq
    refine (hs.others j other hj hother).mono hsub (List.Subset.refl _) fun k v hv => ?_
    rw [hget] at hv
    split_ifs at hv with hk
    · cases hv
      exact .inr hepisode
    · exact .inl hv

structure OtherCall (s : System) (rest : Option Job) (g : Stores) : Prop where
  rest : ∀ job, rest = some job → Other s.issued s.uploads g.events job
  uploads : ∀ tid u, s.uploads.get? tid = some u → u.At g (s.jobs.get? tid)
  events : s.stores.events ⊆ g.events
  known : Known s.issued g

theorem Other.onError {issued : List Uuid} {uploads : OrderedDict ℕ Upload} {events : List IngestEvent}
    (h : Other issued uploads events job) {rest : Job} (hrest : job.onError = some rest) :
    Other issued uploads events rest := by
  cases h with
  | sealing id hid hwork hothers => cases hrest
  | @process msgId event metadata step hevent =>
    obtain ⟨th, hth, rfl⟩ := Option.map_eq_some_iff.mp hrest
    cases step with
    | thumbnail =>
      cases hth
      exact .process hevent
    | _ => cases hth

theorem Other.answer (hs : Sound s) (h : Other s.issued s.uploads s.stores.events job) {rest : Option Job} {g : Stores}
    (hanswer : job.answer s.projects s.stores = some (rest, g)) : OtherCall s rest g := by
  cases h with
  | sealing id hid hwork hothers =>
    obtain ⟨⟨rest, g⟩, hseal, he⟩ := Option.map_eq_some_iff.mp hanswer
    cases he
    obtain ⟨hchanges, hrest⟩ := seal_answer hwork hseal
    refine ⟨fun job hjob => ?_, fun tid u hu => ?_, hchanges.events_subset, hchanges.known hs.known hid (by simp)⟩
    · obtain ⟨th, hth, rfl⟩ := Option.map_eq_some_iff.mp hjob
      obtain ⟨step, rfl⟩ := hrest th hth
      exact .sealing id hid hwork hothers
    · exact (hs.uploads tid u hu).same (hchanges.same (hothers tid u hu) (by simp))
  | @process msgId event metadata step hevent =>
    obtain ⟨⟨rest, g⟩, hprocess, he⟩ := Option.map_eq_some_iff.mp hanswer
    cases he
    obtain ⟨hstores, hrest⟩ := process_answer hprocess
    have hother (g : Stores) (hsub : s.stores.events ⊆ g.events) (job : Job) (hjob : rest.map Job.thread = some job) :
        Other s.issued s.uploads g.events job := by
      obtain ⟨th, hth, rfl⟩ := Option.map_eq_some_iff.mp hjob
      obtain ⟨step, rfl⟩ := hrest th hth
      exact .process (hsub hevent)
    rcases hstores with rfl | ⟨f, hf, rfl⟩
    · exact ⟨hother _ (List.Subset.refl _), hs.uploads, List.Subset.refl _, hs.known⟩
    · obtain ⟨id, hid, hevent'⟩ := hs.known.events event hevent
      refine ⟨hother _ (List.Subset.refl _), fun tid u hu => (hs.uploads tid u hu).worker hevent hf,
        List.Subset.refl _, ?_⟩
      have hchanges : Changes id none s.stores { s.stores with episodes := s.stores.episodes.modify id.text f } :=
        .episode f
      rw [hevent']
      exact hchanges.known hs.known hid (by simp)

theorem Other.call (hs : Sound s) (h : Other s.issued s.uploads s.stores.events job) (outcome : Outcome Unit) :
    OtherCall s (job.call s.projects outcome s.stores).1 (job.call s.projects outcome s.stores).2 := by
  rcases call_cases s.projects outcome s.stores job with hcall | ⟨rest, g, hanswer, hcall | hcall⟩
  · rw [hcall]
    exact ⟨fun job hjob => h.onError hjob, hs.uploads, List.Subset.refl _, hs.known⟩
  · rw [hcall]
    exact h.answer hs hanswer
  · rw [hcall]
    have hafter := h.answer hs hanswer
    exact ⟨fun job hjob => (h.events hafter.events).onError hjob, hafter.uploads, hafter.events, hafter.known⟩

theorem sound_call (hs : Sound s) (hjob : s.jobs.get? tid = some job) (outcome : Outcome Unit) :
    Sound { s with
      stores := (job.call s.projects outcome s.stores).2
      jobs := setJob tid (job.call s.projects outcome s.stores).1 s.jobs } := by
  cases hu : s.uploads.get? tid with
  | some u =>
    have hat := hs.uploads tid u hu
    rw [hjob] at hat
    obtain ⟨hcall, hchanges⟩ := hat.call outcome
    obtain ⟨hepisode, hsession⟩ := hs.issued tid u hu
    refine ⟨fun j v hv => ?_, hs.apart, hs.issued, fun j other hj hother => ?_, hchanges.known hs.known hepisode ?_⟩
    · rw [get?_setJob]
      split_ifs with heq
      · rw [heq, hu] at hv
        cases hv
        exact hcall
      · obtain ⟨hne, hne'⟩ := hs.apart j tid v u hv hu heq
        exact (hs.uploads j v hv).same (hchanges.same hne fun he => hne' (Option.some.inj he).symm)
    · have hne : j ≠ tid := by
        rintro rfl
        rw [hu] at hj
        cases hj
      rw [get?_setJob, if_neg hne] at hother
      exact (hs.others j other hj hother).events hchanges.events_subset
    · rintro id he
      cases he
      exact hsession
  | none =>
    have hcall := (hs.others tid job hu hjob).call hs outcome
    refine ⟨fun j v hv => ?_, hs.apart, hs.issued, fun j other hj hother => ?_, hcall.known⟩
    · have hne : j ≠ tid := by
        rintro rfl
        rw [hu] at hv
        cases hv
      rw [get?_setJob, if_neg hne]
      exact hcall.uploads j v hv
    · rw [get?_setJob] at hother
      split_ifs at hother with heq
      · exact hcall.rest other hother
      · exact (hs.others j other hj hother).events hcall.events

theorem sound_next {a : Action} (hs : Sound s) (h : next s a = some t) : Sound t := by
  cases a with
  | upload tid u =>
    obtain ⟨-, h⟩ := Option.ite_none_right_eq_some.mp h
    obtain ⟨v, hv, rfl⟩ := Option.map_eq_some_iff.mp h
    exact sound_upload hs hv
  | sealEpisode tid episodeId sessionId unixNano data =>
    have hfresh := (spawn_eq_some.mp h).1.2.2
    refine sound_spawn hs h (.sealing episodeId (List.mem_append_left _ (List.mem_singleton_self _)) rfl ?_)
    intro j u hu he
    have hmem := (hs.issued j u hu).1
    rw [he] at hmem
    exact (List.nodup_cons.mp hfresh).1 hmem
  | deliver tid metadata =>
    obtain ⟨event, hevent, h⟩ := Option.bind_eq_some_iff.mp h
    have hdelivered : Sound { s with delivered := s.delivered + 1 } :=
      ⟨hs.uploads, hs.apart, hs.issued, hs.others, hs.known⟩
    exact sound_spawn hdelivered h (.process (List.mem_of_getElem? hevent))
  | call tid outcome =>
    obtain ⟨job, hjob, rfl⟩ := Option.map_eq_some_iff.mp h
    exact sound_call hs hjob outcome
  | crash tid =>
    rw [next] at h
    split at h
    · next msgId event metadata step hjob =>
      cases h
      have hnone : s.uploads.get? tid = none := by
        by_contra hsome
        obtain ⟨u, hu⟩ := Option.ne_none_iff_exists'.mp hsome
        have hat := hs.uploads tid u hu
        rw [hjob] at hat
        cases hat
      refine ⟨fun j u hu => ?_, hs.apart, hs.issued, fun j other hj hother => ?_, hs.known⟩
      · have hne : j ≠ tid := by
          rintro rfl
          rw [hnone] at hu
          cases hu
        rw [get?_setJob, if_neg hne]
        exact hs.uploads j u hu
      · rw [get?_setJob] at hother
        split_ifs at hother
        exact hs.others j other hj hother
    · cases h

theorem sound_run (h : run next (start projects) as = some s) : Sound s :=
  invariant_run Sound (fun _ _ _ => sound_next) (sound_start projects) h

theorem published_object (h : run next (start projects) as = some s) (hu : s.uploads.get? tid = some u)
    {event : IngestEvent} (hevent : event ∈ s.stores.events) (hid : event.episodeId = u.episodeId.text) :
    s.stores.events.filter (fun e => e.episodeId = u.episodeId.text) =
        [⟨u.episodeId.text, storagePath u.episodeId.text u.file.name, fileFormat u.file.name⟩] ∧
      s.stores.objects event.storagePath = some u.file.content ∧
      ∃ ep, s.stores.episodes.get? event.episodeId = some ep ∧ ep.storagePath = some event.storagePath ∧
        ep.sizeBytes = u.file.content.length ∧ (ep.status = .processing ∨ ep.status = .ready) := by
  have hmem : event ∈ u.events s.stores := List.mem_filter.mpr ⟨hevent, decide_eq_true hid⟩
  rcases ((sound_run h).uploads tid u hu).kept with hnone | ⟨hevents, hplaced⟩
  · rw [hnone] at hmem
    cases hmem
  · rw [hevents, List.mem_singleton] at hmem
    subst hmem
    obtain ⟨status, metadata, hstatus, hrow⟩ := hplaced.episode
    refine ⟨hevents, hplaced.object, _, hrow, ?_, Float64.ofInt_of_le u.size, hstatus⟩
    change nullIfEmpty u.path = some u.path
    rw [Upload.path, storagePath, String.append_assoc, nullIfEmpty_episodes]

def threeBytes : Upload := ⟨⟨"run.mcap", [1, 2, 3]⟩, by decide, Pipeline.robotProject, ⟨1⟩, ⟨2⟩, 0⟩

def oneByte : Upload := ⟨⟨"run.h5", [9]⟩, by decide, "p-2", ⟨3⟩, ⟨4⟩, 0⟩

def inTurn : List Action :=
  .upload 1 oneByte :: (List.replicate 11 [.call 0 .ok, .call 1 .ok]).flatten ++
    [.deliver 2 (.obj []), .call 2 .ok, .call 0 .ok, .call 2 .ok]

theorem published_object_inTurn :
    ∃ s event, run next (start []) (.upload 0 threeBytes :: inTurn) = some s ∧ event ∈ s.stores.events ∧
      s.stores.events.length = 2 ∧ s.stores.objects event.storagePath = some [1, 2, 3] := by
  obtain ⟨s, hs, hu, hevents⟩ : ∃ s, run next (start []) (.upload 0 threeBytes :: inTurn) = some s ∧
      s.uploads.get? 0 = some threeBytes ∧ s.stores.events = [threeBytes.event, oneByte.event] :=
    ⟨_, rfl, rfl, rfl⟩
  have hmem : threeBytes.event ∈ s.stores.events := by
    rw [hevents]
    exact List.mem_cons_self ..
  refine ⟨s, _, hs, hmem, ?_, (published_object hs hu hmem rfl).2.1⟩
  rw [hevents]
  rfl

section Processed

open Pipeline (Readers Calls EpisodeRow World TopicRow Untouched settled_handle readyMetadata)

def values (event : IngestEvent) : List (String × String) :=
  [("episode_id", event.episodeId), ("storage_path", event.storagePath), ("format", event.format)]

def MadeOf (readers : Readers) (u : Upload) (row : EpisodeRow) (w t : World) : Prop :=
  ∃ (result : Pipeline.Result) (url : String),
    readers.extract (fileFormat u.file.name) u.file.content = .ok result.episodeMeta ∧
    (∃ schema, w.database.topicSchema u.episodeId.text = some schema ∧
      readers.score schema result.episodeMeta u.file.content = .ok (result.score, result.detail)) ∧
    t.database.episodes.get? u.episodeId.text = some { row with
      status := .ready
      durationSeconds := some result.episodeMeta.durationSeconds
      qualityScore := some result.score
      metadata := readyMetadata result.detail url result.episodeMeta.topics.length } ∧
    t.database.topics.values =
      w.database.topics.values ++ result.episodeMeta.topics.map (⟨u.episodeId.text, ·⟩)

theorem processed_upload (h : run next (start projects) as = some s) (hu : s.uploads.get? tid = some u)
    {event : IngestEvent} (hevent : event ∈ s.stores.events) (hid : event.episodeId = u.episodeId.text)
    (readers : Readers) (calls : Calls) (msgId : String) {w : World} {row : EpisodeRow}
    (hobjects : w.objects = s.stores.objects) (hrow : w.database.episodes.get? event.episodeId = some row) :
    let t := (Handlers.answer (Pipeline.handle readers calls msgId (values event)) ⟨w, []⟩).2.current
    Untouched event.episodeId row w t ∨ MadeOf readers u row w t := by
  have hlookup : (values event).lookup "episode_id" = some event.episodeId := rfl
  obtain ⟨hevents, hobject, -⟩ := published_object h hu hevent hid
  rcases (settled_handle readers calls msgId w hlookup).2 with ⟨-, hunprocessed⟩ | ⟨-, hprocessed⟩
  · exact .inl (hunprocessed.untouched hrow)
  · obtain ⟨format, content, result, url, hreads, hyields, hready, htopics⟩ := (hprocessed.madeReady hrow).row
    have hmem : event ∈ s.stores.events.filter (fun e => e.episodeId = u.episodeId.text) :=
      List.mem_filter.mpr ⟨hevent, decide_eq_true hid⟩
    rw [hevents, List.mem_singleton] at hmem
    obtain ⟨path, hpath, hcontent⟩ := hreads.content
    have hformat : format = fileFormat u.file.name := by
      have hlookup := hreads.format
      rw [hmem] at hlookup
      exact (Option.some.inj hlookup).symm
    have hfile : content = u.file.content := by
      cases hpath
      rw [hobjects, hobject] at hcontent
      exact (Option.some.inj hcontent).symm
    rw [hid] at hready htopics hyields
    rw [hformat, hfile] at hyields
    exact .inr ⟨result, url, hyields.1, hyields.2, hready, htopics⟩

def threeBytesRow : EpisodeRow :=
  { placeEpisode threeBytes.path threeBytes.opened with durationSeconds := none, qualityScore := none }

def threeBytesWorld (g : Stores) : World :=
  { database :=
      { projects := OrderedDict.empty.append Pipeline.robotProject (.obj []) List.not_mem_nil
        episodes := OrderedDict.empty.append threeBytes.episodeId.text threeBytesRow List.not_mem_nil
        topics := OrderedDict.empty }
    objects := g.objects
    files := fun _ => none
    acked := [] }

theorem processed_upload_inTurn :
    ∃ s t, run next (start []) (.upload 0 threeBytes :: inTurn) = some s ∧
      t = (Handlers.answer (Pipeline.handle (Pipeline.flatReaders [Pipeline.cameraTopic])
        (Pipeline.workingCalls fun _ => "t-1") "1-0" (values threeBytes.event))
          ⟨threeBytesWorld s.stores, []⟩).2.current ∧
      MadeOf (Pipeline.flatReaders [Pipeline.cameraTopic]) threeBytes threeBytesRow (threeBytesWorld s.stores) t := by
  obtain ⟨s, hs, hu, hevents, hready⟩ : ∃ s, run next (start []) (.upload 0 threeBytes :: inTurn) = some s ∧
      s.uploads.get? 0 = some threeBytes ∧ s.stores.events = [threeBytes.event, oneByte.event] ∧
      ((Handlers.answer (Pipeline.handle (Pipeline.flatReaders [Pipeline.cameraTopic])
        (Pipeline.workingCalls fun _ => "t-1") "1-0" (values threeBytes.event))
          ⟨threeBytesWorld s.stores, []⟩).2.current.database.episodes.get? threeBytes.episodeId.text).map
            (fun row => row.status) = some .ready :=
    ⟨_, rfl, rfl, rfl, by decide +kernel⟩
  have hmem : threeBytes.event ∈ s.stores.events := by
    rw [hevents]
    exact List.mem_cons_self ..
  have hrow : (threeBytesWorld s.stores).database.episodes.get? threeBytes.event.episodeId = some threeBytesRow := rfl
  refine ⟨s, _, hs, rfl, (processed_upload hs hu hmem rfl _ _ "1-0" rfl hrow).resolve_left fun huntouched => ?_⟩
  obtain ⟨status, hstatus, hleft⟩ := huntouched.row
  have hsame := congrArg (Option.map fun row => row.status) hleft
  rw [show threeBytes.event.episodeId = threeBytes.episodeId.text from rfl, hready] at hsame
  cases hsame
  rcases hstatus with hstatus | hstatus <;> cases hstatus

end Processed

section Undisturbed

def Job.left (chunks : ℕ) : Job → ℕ
  | upload _ .createEpisode => 3 * chunks + 8
  | upload _ .createUploadSession => 3 * chunks + 7
  | upload _ (.getUploadSession i) => 3 * (chunks - i) + 6
  | upload _ (.uploadChunk i _) => 3 * (chunks - i) + 5
  | upload _ (.incrementReceivedChunks i) => 3 * (chunks - i) + 4
  | thread (.complete _ .getUploadSession) => 6
  | thread (.complete _ (.getEpisode _)) => 5
  | thread (.complete _ (.assembleChunks ..)) => 4
  | thread (.complete _ (.completeSession ..)) => 3
  | thread (.complete _ (.updateEpisodeStatus ..)) => 2
  | thread (.complete _ (.publish ..)) => 1
  | thread _ => 0

variable {g : Stores}

theorem left_request (u : Upload) {i : ℕ} (hi : i ≤ u.chunks) :
    (u.request i).left u.chunks = 3 * (u.chunks - i) + 6 := by
  unfold Upload.request
  split_ifs with hlt
  · rfl
  · have hall : i = u.chunks := le_antisymm hi (not_lt.mp hlt)
    rw [hall, Nat.sub_self]
    rfl

theorem Upload.At.progress (projects : List String) (h : u.At g (some job)) (hleft : 0 < job.left u.chunks) :
    ∃ rest t, job.answer projects g = some (rest, t) ∧
      ((∃ next, rest = some next ∧ 0 < next.left u.chunks ∧ next.left u.chunks + 1 = job.left u.chunks) ∨
        job.left u.chunks = 1 ∧ u.events t = [u.event]) := by
  cases h with
  | createEpisode hepisode hsession hevents =>
    refine ⟨_, _, Option.map_eq_some_iff.mpr ⟨((), _), createEpisode_eq_some.mpr
      ⟨OrderedDict.get?_eq_none.mp hepisode, rfl⟩, rfl⟩, .inl ⟨_, rfl, Nat.succ_pos _, rfl⟩⟩
  | createUploadSession hepisode hsession hevents =>
    refine ⟨_, _, Option.map_eq_some_iff.mpr ⟨((), _), createUploadSession_eq_some.mpr
      ⟨OrderedDict.get?_eq_none.mp hsession, rfl⟩, rfl⟩, .inl ⟨_, rfl, ?_⟩⟩
    rw [left_request u (Nat.zero_le _)]
    exact ⟨Nat.succ_pos _, rfl⟩
  | @getUploadSession i hi h =>
    have hrange : (u.session i).status = .inProgress ∧ (i : ℤ) < (u.session i).totalChunks := by
      refine ⟨rfl, ?_⟩
      change (i : ℤ) < u.response.totalChunks
      rw [(chunks_eq u).2]
      exact Int.ofNat_lt.mpr hi
    refine ⟨some (.upload u (.uploadChunk i i)), g, ?_, .inl ⟨_, rfl, Nat.succ_pos _, rfl⟩⟩
    simp only [Job.answer, uploadCall, chunkNumber_toString hi, Gateway.getUploadSession, h.session, Option.map_some]
    rw [if_pos hrange]
  | uploadChunk hi h => exact ⟨_, _, rfl, .inl ⟨_, rfl, Nat.succ_pos _, rfl⟩⟩
  | incrementReceivedChunks hi h =>
    refine ⟨_, _, rfl, .inl ⟨_, rfl, ?_⟩⟩
    rw [left_request u hi]
    refine ⟨Nat.succ_pos _, ?_⟩
    simp only [Job.left]
    omega
  | getSession h =>
    have hreceived : (u.session u.chunks).status = .inProgress ∧
        (u.session u.chunks).receivedChunks = (u.session u.chunks).totalChunks := ⟨rfl, (chunks_eq u).2.symm⟩
    refine ⟨some (.thread (.complete u.sessionId.text (.getEpisode (u.session u.chunks)))), g, ?_,
      .inl ⟨_, rfl, Nat.succ_pos _, rfl⟩⟩
    simp only [Job.answer, Thread.answer, IngestPipeline.completeCall, Gateway.getUploadSession, h.session,
      Option.map_some]
    rw [if_pos hreceived]
    rfl
  | getEpisode h =>
    refine ⟨some (.thread (.complete u.sessionId.text (.assembleChunks (u.session u.chunks) u.opened))), g, ?_,
      .inl ⟨_, rfl, Nat.succ_pos _, rfl⟩⟩
    have hrow : g.episodes.get? (u.session u.chunks).episodeId = some u.opened := h.episode
    simp only [Job.answer, Thread.answer, IngestPipeline.completeCall, Gateway.getEpisode, hrow, Option.map_some]
  | assembleChunks h =>
    refine ⟨some (.thread (.complete u.sessionId.text (.completeSession (u.session u.chunks) u.opened))), _,
      Option.map_eq_some_iff.mpr ⟨_, Option.map_eq_some_iff.mpr ⟨((), _), assembleChunks_eq_some.mpr
        ⟨_, h.parts, rfl⟩, rfl⟩, rfl⟩, .inl ⟨_, rfl, Nat.succ_pos _, rfl⟩⟩
  | completeSession h => exact ⟨_, _, rfl, .inl ⟨_, rfl, Nat.succ_pos _, rfl⟩⟩
  | updateEpisodeStatus h => exact ⟨_, _, rfl, .inl ⟨_, rfl, Nat.succ_pos _, rfl⟩⟩
  | publish h hevents =>
    refine ⟨_, _, rfl, .inr ⟨rfl, ?_⟩⟩
    rcases h.published hevents with hnone | ⟨hevent, -⟩
    · exact absurd hnone (List.ne_nil_of_mem (List.mem_filter.mpr ⟨List.mem_append_right _ (List.mem_singleton_self _),
        decide_eq_true rfl⟩))
    · exact hevent
  | deleteChunks => exact absurd hleft (lt_irrefl 0)

def Action.isCall (tid : ℕ) : Action → Bool
  | call j _ => j = tid
  | _ => false

theorem events_call (hs : Sound s) (hjob : s.jobs.get? tid = some job) (outcome : Outcome Unit) :
    s.stores.events ⊆ (job.call s.projects outcome s.stores).2.events := by
  cases hu : s.uploads.get? tid with
  | some u =>
    have hat := hs.uploads tid u hu
    rw [hjob] at hat
    exact (hat.call outcome).2.events_subset
  | none => exact ((hs.others tid job hu hjob).call hs outcome).events

structure Keeps (s t : System) (tid : ℕ) (u : Upload) (a : Action) : Prop where
  upload : t.uploads.get? tid = some u
  job : a.isCall tid = false → t.jobs.get? tid = s.jobs.get? tid
  events : s.stores.events ⊆ t.stores.events

theorem keeps_spawn (a : Action) {ids : List Uuid} {j : ℕ} (hu : s.uploads.get? tid = some u)
    (h : spawn j job ids s = some t) : Keeps s t tid u a := by
  obtain ⟨⟨-, hfresh, -⟩, rfl⟩ := spawn_eq_some.mp h
  refine ⟨hu, fun _ => ?_, List.Subset.refl _⟩
  have hne : tid ≠ j := by
    rintro rfl
    exact hfresh (OrderedDict.mem_keys.mpr ⟨u, hu⟩)
  rw [get?_setJob, if_neg hne]

theorem keeps_next {a : Action} (hs : Sound s) (hu : s.uploads.get? tid = some u) (h : next s a = some t) :
    Keeps s t tid u a := by
  cases a with
  | upload j v =>
    obtain ⟨-, h⟩ := Option.ite_none_right_eq_some.mp h
    obtain ⟨w, hw, rfl⟩ := Option.map_eq_some_iff.mp h
    have hkeeps := keeps_spawn (.upload j v) hu hw
    obtain ⟨⟨-, hfresh, -⟩, -⟩ := spawn_eq_some.mp hw
    refine ⟨?_, hkeeps.job, hkeeps.events⟩
    have hne : tid ≠ j := by
      rintro rfl
      exact hfresh (OrderedDict.mem_keys.mpr ⟨u, hu⟩)
    exact (OrderedDict.get?_set ..).trans ((if_neg hne).trans hkeeps.upload)
  | sealEpisode => exact keeps_spawn _ hu h
  | deliver j metadata =>
    obtain ⟨event, -, h⟩ := Option.bind_eq_some_iff.mp h
    have hkeeps := keeps_spawn (s := { s with delivered := s.delivered + 1 }) (.deliver j metadata) hu h
    exact ⟨hkeeps.upload, hkeeps.job, hkeeps.events⟩
  | call j outcome =>
    obtain ⟨job, hjob, rfl⟩ := Option.map_eq_some_iff.mp h
    refine ⟨hu, fun hnot => ?_, events_call hs hjob outcome⟩
    rw [get?_setJob, if_neg (Ne.symm (of_decide_eq_false hnot))]
  | crash j =>
    rw [next] at h
    split at h
    · next msgId event metadata step hjob =>
      cases h
      refine ⟨hu, fun _ => ?_, List.Subset.refl _⟩
      have hne : tid ≠ j := by
        rintro rfl
        have hat := hs.uploads tid u hu
        rw [hjob] at hat
        cases hat
      rw [get?_setJob, if_neg hne]
    · cases h

structure Advancing (tid : ℕ) (u : Upload) (as : List Action) (s : System) : Prop where
  sound : Sound s
  upload : s.uploads.get? tid = some u
  left : (∃ job, s.jobs.get? tid = some job ∧ 0 < job.left u.chunks ∧
      as.countP (Action.isCall tid) + job.left u.chunks = 3 * u.chunks + 8) ∨
    u.events s.stores = [u.event] ∧ 3 * u.chunks + 8 ≤ as.countP (Action.isCall tid)

theorem events_of_mem (hs : Sound s) (hu : s.uploads.get? tid = some u) (hmem : u.event ∈ s.stores.events) :
    u.events s.stores = [u.event] := by
  have hne : u.events s.stores ≠ [] := List.ne_nil_of_mem (List.mem_filter.mpr ⟨hmem, decide_eq_true rfl⟩)
  exact ((hs.uploads tid u hu).kept.resolve_left hne).1

theorem advancing_call (hs : Advancing tid u as s) (hjob : s.jobs.get? tid = some job) (hpos : 0 < job.left u.chunks)
    (hleft : as.countP (Action.isCall tid) + job.left u.chunks = 3 * u.chunks + 8) (hsound : Sound t)
    (h : next s (.call tid .ok) = some t) : Advancing tid u (as ++ [.call tid .ok]) t := by
  have hcount : (as ++ [Action.call tid .ok]).countP (Action.isCall tid) = as.countP (Action.isCall tid) + 1 := by
    have hcall : Action.isCall tid (.call tid .ok) = true := decide_eq_true rfl
    rw [List.countP_append, List.countP_singleton, if_pos hcall]
  have hat := hs.sound.uploads tid u hs.upload
  rw [hjob] at hat
  obtain ⟨rest, g, hanswer, hrest⟩ := hat.progress s.projects hpos
  have hcall : job.call s.projects .ok s.stores = (rest, g) := by
    unfold Job.call
    rw [hanswer]
  rw [next, hjob, Option.map_some, hcall] at h
  cases h
  refine ⟨hsound, hs.upload, ?_⟩
  rw [hcount]
  rcases hrest with ⟨job', rfl, hpos', hleft'⟩ | ⟨hlast, hevents⟩
  · exact .inl ⟨job', by rw [get?_setJob, if_pos rfl], hpos', by omega⟩
  · exact .inr ⟨hevents, by omega⟩

theorem advancing_next {a : Action} (hs : Advancing tid u as s) (ha : ∀ outcome, a = .call tid outcome → outcome = .ok)
    (h : next s a = some t) : Advancing tid u (as ++ [a]) t := by
  have hsound := sound_next hs.sound h
  have hkeeps := keeps_next hs.sound hs.upload h
  rcases hs.left with ⟨job, hjob, hpos, hleft⟩ | ⟨hevents, hcount⟩
  · cases hcall : a.isCall tid with
    | false =>
      refine ⟨hsound, hkeeps.upload, .inl ⟨job, (hkeeps.job hcall).trans hjob, hpos, ?_⟩⟩
      rw [List.countP_append, List.countP_singleton, hcall]
      exact hleft
    | true =>
      obtain ⟨outcome, rfl⟩ : ∃ outcome, a = .call tid outcome := by
        cases a with
        | call j outcome => exact ⟨outcome, by rw [of_decide_eq_true hcall]⟩
        | _ => cases hcall
      cases ha outcome rfl
      exact advancing_call hs hjob hpos hleft hsound h
  · refine ⟨hsound, hkeeps.upload, .inr ⟨events_of_mem hsound hkeeps.upload (hkeeps.events ?_), ?_⟩⟩
    · have hmem : u.event ∈ u.events s.stores := by
        rw [hevents]
        exact List.mem_singleton_self _
      exact (List.mem_filter.mp hmem).1
    · rw [List.countP_append]
      omega

theorem upload_undisturbed {before : List Action}
    (h : run next (start projects) (before ++ .upload tid u :: as) = some t)
    (hok : ∀ outcome, .call tid outcome ∈ as → outcome = .ok) :
    if as.countP (Action.isCall tid) < 3 * u.response.totalChunks.toNat + 8 then
      (t.jobs.get? tid).isSome ∧ ∀ event ∈ t.stores.events, event.episodeId ≠ u.episodeId.text
    else
      ⟨u.episodeId.text, storagePath u.episodeId.text u.file.name, fileFormat u.file.name⟩ ∈ t.stores.events ∧
        t.stores.objects (storagePath u.episodeId.text u.file.name) = some u.file.content := by
  obtain ⟨s, hs, h⟩ := run_append.mp h
  obtain ⟨s', hs', h⟩ := run_cons.mp h
  have hbegun : Advancing tid u [] s' := by
    have hsound := sound_next (sound_run hs) hs'
    obtain ⟨-, hspawn⟩ := Option.ite_none_right_eq_some.mp hs'
    obtain ⟨v, hv, rfl⟩ := Option.map_eq_some_iff.mp hspawn
    obtain ⟨-, rfl⟩ := spawn_eq_some.mp hv
    refine ⟨hsound, (OrderedDict.get?_set ..).trans (if_pos rfl), .inl ⟨.upload u .createEpisode, ?_, ?_, ?_⟩⟩
    · rw [get?_setJob, if_pos rfl]
    · exact Nat.succ_pos _
    · exact Nat.zero_add _
  have hcalls : Along next (fun _ a => ∀ outcome, a = .call tid outcome → outcome = .ok) s' as :=
    along_of_mem fun a ha outcome he => hok outcome (he ▸ ha)
  have ht : Advancing tid u as t :=
    history_along (Advancing tid u) (fun _ _ _ _ hs ha hstep => advancing_next hs ha hstep) hbegun hcalls h
  have hat := ht.sound.uploads tid u ht.upload
  change if _ < 3 * u.chunks + 8 then _ else _
  rcases ht.left with ⟨job, hjob, hpos, hleft⟩ | ⟨hevents, hcount⟩
  · rw [if_pos (by omega), hjob]
    refine ⟨rfl, fun event hevent hid => ?_⟩
    rw [hjob] at hat
    rcases hat.unpublished_or with hnone | hnone | ⟨chunkN, hsome⟩
    · exact List.ne_nil_of_mem (List.mem_filter.mpr ⟨hevent, decide_eq_true hid⟩) hnone
    · cases hnone
    · cases hsome
      exact absurd hpos (lt_irrefl 0)
  · rw [if_neg (by omega)]
    have hmem : u.event ∈ u.events t.stores := by
      rw [hevents]
      exact List.mem_singleton_self _
    have hkept := hat.kept.resolve_left (List.ne_nil_of_mem hmem)
    exact ⟨(List.mem_filter.mp hmem).1, hkept.2.object⟩

theorem upload_undisturbed_inTurn :
    ∃ t, run next (start []) ([] ++ .upload 0 threeBytes :: inTurn) = some t ∧ inTurn.countP (Action.isCall 0) = 12 ∧
      t.stores.objects (storagePath threeBytes.episodeId.text "run.mcap") = some [1, 2, 3] := by
  obtain ⟨t, ht⟩ : ∃ t, run next (start []) ([] ++ .upload 0 threeBytes :: inTurn) = some t := ⟨_, rfl⟩
  have hcalls : ∀ outcome, Action.call 0 outcome ∈ inTurn → outcome = .ok := by
    intro outcome hmem
    simpa [inTurn] using hmem
  have hresult := upload_undisturbed ht hcalls
  have hcount : ¬ inTurn.countP (Action.isCall 0) < 3 * threeBytes.response.totalChunks.toNat + 8 := by decide +kernel
  rw [if_neg hcount] at hresult
  exact ⟨t, ht, by decide, hresult.2⟩

end Undisturbed

end Embedai.UploadThreads
