import Embedai.ExportQueue
import Embedai.TransitionSystems

namespace Embedai.ExportWorker

open DatasetService Handlers TracedHandlers TransitionSystems

inductive Thread
  | create (request : CreateRequest) (step : CreateStep)
  | handle (msgId : String) (jobId : Uuid) (calls : Calls) (step : WorkerStep)
  | skip (msgId : String)

structure System where
  stores : Stores
  delivered : ℕ
  threads : OrderedDict ℕ Thread

inductive Action
  | request (tid : ℕ) (request : CreateRequest)
  | read (tid : ℕ) (outcome : Outcome String) (calls : Calls)
  | call (tid : ℕ) (outcome : Outcome String)
  | crash (tid : ℕ)

namespace Thread

def call (dumpsLength : Json → ℕ) (settings : Settings) (outcome : Outcome String) (s : Stores) :
    Thread → Option Thread × Stores
  | create request step =>
    let p := step.call request outcome s
    (p.1.map (create request), p.2)
  | handle msgId jobId calls step =>
    let p := step.call dumpsLength settings { calls with outcome := fun _ => outcome } msgId jobId s.world
    (p.1.map (handle msgId jobId calls), { s with world := p.2 })
  | skip msgId => (none, if outcome.takesEffect then { s with world := s.world.xack msgId } else s)

/-- What a worker does with a message that it is handed; a `job_id` that is no uuid is an error at once. -/
def ofEntry (entry : Entry) (calls : Calls) : Option Thread :=
  if (entry.fields.lookup "job_id").getD "" = "" then some (skip entry.id)
  else entry.jobId.map fun jobId => handle entry.id jobId calls .getJob

def isWorker : Thread → Bool
  | create .. => false
  | _ => true

end Thread

def start (w : World) : System := ⟨⟨w, []⟩, 0, OrderedDict.empty⟩

/-- The group hands a message to a worker once, also when the worker does not get the reply. -/
def next (dumpsLength : Json → ℕ) (settings : Settings) (s : System) : Action → Option System
  | .request tid request =>
    if tid ∈ s.threads.keys then none
    else match checkFormat request.format with
      | .error _ => some s
      | .ok _ => some { s with threads := s.threads.assign tid (some (.create request .getVersion)) }
  | .read tid outcome calls =>
    if tid ∈ s.threads.keys then none
    else (s.stores.stream[s.delivered]?).map fun entry => match outcome with
      | .ok =>
        { s with
          delivered := s.delivered + 1
          threads := s.threads.assign tid (Thread.ofEntry entry calls) }
      | .raises _ => s
      | .raisesLate _ => { s with delivered := s.delivered + 1 }
  | .call tid outcome => (s.threads.get? tid).map fun th =>
      { s with
        stores := (th.call dumpsLength settings outcome s.stores).2
        threads := s.threads.assign tid (th.call dumpsLength settings outcome s.stores).1 }
  | .crash tid => (s.threads.get? tid).bind fun th =>
      if th.isWorker then some { s with threads := s.threads.assign tid none } else none

def Open (w : World) (id : Uuid) : Prop := ∃ job ∈ w.jobs.get? id, job.status = .pending ∨ job.status = .running

instance (w : World) (id : Uuid) : Decidable (Open w id) :=
  inferInstanceAs (Decidable (∃ job ∈ w.jobs.get? id, _))

def Undelivered (s : System) (id : Uuid) : Prop := ∃ m ∈ s.stores.stream.drop s.delivered, m.jobId = some id

instance (s : System) (id : Uuid) : Decidable (Undelivered s id) :=
  inferInstanceAs (Decidable (∃ m ∈ _, _))

namespace Thread

def committed : Thread → Bool
  | create _ .refresh => true
  | create _ .xadd => true
  | _ => false

def executes : Thread → Option Uuid
  | handle _ jobId _ _ => some jobId
  | _ => none

def owes : Thread → Option Uuid
  | create request .refresh => some request.jobId
  | create request .xadd => some request.jobId
  | handle _ jobId _ _ => some jobId
  | _ => none

def leaves (outcome : Outcome String) (w : World) : Thread → Option Uuid
  | create request .commit =>
    if outcome.takesEffect = true ∧ outcome.succeeds = false ∧ request.jobId ∉ w.jobs.keys then some request.jobId
    else none
  | create request .refresh => if outcome.succeeds = false ∧ Open w request.jobId then some request.jobId else none
  | create request .xadd => if outcome.takesEffect = false ∧ Open w request.jobId then some request.jobId else none
  | handle _ jobId _ .ack => if outcome.succeeds = true ∧ Open w jobId then some jobId else none
  | handle _ jobId _ (.getFailedJob _) => if outcome.succeeds = false ∧ Open w jobId then some jobId else none
  | handle _ jobId _ (.fail _) => if outcome.takesEffect = false ∧ Open w jobId then some jobId else none
  | _ => none

end Thread

def Quiet (s : System) : Prop := ∀ th ∈ s.threads.values, th.committed = false

instance (s : System) : Decidable (Quiet s) :=
  inferInstanceAs (Decidable (∀ th ∈ _, _))

def Executed (s : System) (id : Uuid) : Prop := ∃ th ∈ s.threads.values, th.executes = some id

instance (s : System) (id : Uuid) : Decidable (Executed s id) :=
  inferInstanceAs (Decidable (∃ th ∈ _, _))

def NoStuck (s : System) : Prop := Quiet s → ∀ id, Open s.stores.world id → Undelivered s id ∨ Executed s id

def CoveredWithout (s : System) (delivered tid : ℕ) (id : Uuid) : Prop :=
  (∃ m ∈ s.stores.stream.drop delivered, m.jobId = some id) ∨
    ∃ other th, other ≠ tid ∧ s.threads.get? other = some th ∧ th.owes = some id

def Spares (s : System) : Action → Prop
  | .request .. => True
  | .read tid outcome _ => outcome.takesEffect = true → outcome.succeeds = false →
      ∀ entry ∈ s.stores.stream[s.delivered]?, ∀ id ∈ entry.jobId, Open s.stores.world id →
        CoveredWithout s (s.delivered + 1) tid id
  | .call tid outcome => ∀ th ∈ s.threads.get? tid, ∀ id ∈ th.leaves outcome s.stores.world,
      CoveredWithout s s.delivered tid id
  | .crash tid => ∀ th ∈ s.threads.get? tid, ∀ id ∈ th.executes, Open s.stores.world id →
      CoveredWithout s s.delivered tid id

def Covered (s : System) (id : Uuid) : Prop :=
  Undelivered s id ∨ ∃ tid th, s.threads.get? tid = some th ∧ th.owes = some id

structure Coverage (s : System) : Prop where
  delivered : s.delivered ≤ s.stores.stream.length
  covered : ∀ id, Open s.stores.world id → Covered s id

theorem open_congr {w w' : World} {id : Uuid} (h : w'.jobs.get? id = w.jobs.get? id) : Open w' id ↔ Open w id := by
  rw [Open, Open, h]

section Calls

variable {dumpsLength : Json → ℕ} {settings : Settings} {calls : Calls} {msgId : String} {jobId id : Uuid} {w : World}
  {step : WorkerStep}

theorem turn_others {turn : Turn} (hid : id ≠ jobId)
    (h : step.turn dumpsLength settings calls msgId jobId w = .ok turn) :
    (turn.effect w).jobs.get? id = w.jobs.get? id := by
  have hmodify (f : ExportJob → ExportJob) : (w.jobs.modify jobId f).get? id = w.jobs.get? id := by
    rw [OrderedDict.get?_modify, if_neg hid]
  cases step with
  | «export» job episodeRefs =>
    obtain ⟨exported, -, rfl⟩ := except_map_eq_ok.mp h
    rfl
  | upload job result shard rest =>
    obtain ⟨content, -, rfl⟩ := except_map_eq_ok.mp h
    rfl
  | updateStatus job =>
    cases h
    exact hmodify _
  | updateProgress job result shard rest =>
    cases h
    exact hmodify _
  | complete job =>
    cases h
    exact hmodify _
  | fail error =>
    cases h
    exact hmodify _
  | _ =>
    cases h
    rfl

theorem call_others (hid : id ≠ jobId) :
    (step.call dumpsLength settings calls msgId jobId w).2.jobs.get? id = w.jobs.get? id := by
  unfold WorkerStep.call
  cases hturn : step.turn dumpsLength settings calls msgId jobId w with
  | error error => rfl
  | ok turn =>
    obtain ⟨outcome, effect, answered⟩ := turn
    have heffect := turn_others hid hturn
    cases outcome with
    | ok => cases answered <;> exact heffect
    | raises error => rfl
    | raisesLate error => exact heffect

theorem call_goes_on (herror : ∀ error, step.onError error ≠ none)
    (hnext : ∀ turn, step.turn dumpsLength settings calls msgId jobId w = .ok turn → turn.next ≠ .ok none) :
    (step.call dumpsLength settings calls msgId jobId w).1 ≠ none := by
  unfold WorkerStep.call
  cases hturn : step.turn dumpsLength settings calls msgId jobId w with
  | error error => exact herror error
  | ok turn =>
    have hgoes := hnext turn hturn
    obtain ⟨outcome, effect, answered⟩ := turn
    cases outcome with
    | ok =>
      cases answered with
      | error error => exact herror error
      | ok rest =>
        rintro hnone
        cases hnone
        exact hgoes rfl
    | raises error => exact herror error
    | raisesLate error => exact herror error

theorem turn_goes_on {turn : Turn} (h : step.turn dumpsLength settings calls msgId jobId w = .ok turn)
    (hnext : turn.next = .ok none) :
    step = .ack ∨ (∃ error, step = .getFailedJob error) ∨ ∃ error, step = .fail error := by
  cases step with
  | getJob =>
    cases h
    cases hjob : w.jobs.get? jobId with
    | none => rw [hjob] at hnext; cases hnext
    | some job => rw [hjob] at hnext; cases hnext
  | getVersion job =>
    cases h
    obtain ⟨version, -, he⟩ := except_map_eq_ok.mp hnext
    cases he
  | resolve job version =>
    cases h
    obtain ⟨episodeRefs, -, he⟩ := except_map_eq_ok.mp hnext
    cases he
  | «export» job episodeRefs =>
    obtain ⟨exported, -, rfl⟩ := except_map_eq_ok.mp h
    cases hnext
  | upload job result shard rest =>
    obtain ⟨content, -, rfl⟩ := except_map_eq_ok.mp h
    cases hnext
  | ack => exact Or.inl rfl
  | getFailedJob error => exact Or.inr (Or.inl ⟨error, rfl⟩)
  | fail error => exact Or.inr (Or.inr ⟨error, rfl⟩)
  | _ =>
    cases h
    cases hnext

theorem not_open_failJob (error : String) : ¬ Open (World.failJob jobId error w) jobId := by
  rintro ⟨job, hjob, hstatus⟩
  rw [World.failJob, World.updateJob, OrderedDict.get?_modify, if_pos rfl, Option.mem_def,
    Option.map_eq_some_iff] at hjob
  obtain ⟨row, -, rfl⟩ := hjob
  rcases hstatus with hpending | hrunning
  · cases hpending
  · cases hrunning

theorem not_open_of_none (h : w.jobs.get? jobId = none) : ¬ Open w jobId := by
  rintro ⟨job, hjob, -⟩
  rw [h] at hjob
  cases hjob

theorem call_ends {outcome : Outcome String}
    (hend : (step.call dumpsLength settings { calls with outcome := fun _ => outcome } msgId jobId w).1 = none)
    (hopen : Open (step.call dumpsLength settings { calls with outcome := fun _ => outcome } msgId jobId w).2 jobId) :
    (Thread.handle msgId jobId calls step).leaves outcome w = some jobId := by
  have hcases : step = .ack ∨ (∃ error, step = .getFailedJob error) ∨ ∃ error, step = .fail error := by
    by_contra hnot
    rw [not_or, not_or, not_exists, not_exists] at hnot
    obtain ⟨hack, hread, hfail⟩ := hnot
    refine call_goes_on (fun error => ?_) (fun turn hturn hnext => ?_) hend
    · cases step with
      | getFailedJob cause => exact absurd rfl (hread cause)
      | fail cause => exact absurd rfl (hfail cause)
      | _ => nofun
    · rcases turn_goes_on hturn hnext with h | ⟨cause, h⟩ | ⟨cause, h⟩
      · exact hack h
      · exact hread cause h
      · exact hfail cause h
  rcases hcases with rfl | ⟨error, rfl⟩ | ⟨error, rfl⟩
  · cases outcome with
    | ok => exact if_pos ⟨rfl, hopen⟩
    | raises e => cases hend
    | raisesLate e => cases hend
  · cases outcome with
    | ok =>
      have hnone : w.jobs.get? jobId = none := by
        cases hjob : w.jobs.get? jobId with
        | none => rfl
        | some job =>
          have hsome : ((w.jobs.get? jobId).map fun _ => WorkerStep.fail error) = none := hend
          rw [hjob] at hsome
          cases hsome
      exact absurd hopen (not_open_of_none hnone)
    | raises e => exact if_pos ⟨rfl, hopen⟩
    | raisesLate e => exact if_pos ⟨rfl, hopen⟩
  · cases outcome with
    | ok => exact absurd hopen (not_open_failJob error)
    | raises e => exact if_pos ⟨rfl, hopen⟩
    | raisesLate e => exact absurd hopen (not_open_failJob error)

end Calls

section Threads

variable {dumpsLength : Json → ℕ} {settings : Settings} {outcome : Outcome String} {s : Stores} {th : Thread}
  {id : Uuid}

def Accounted (outcome : Outcome String) (s : Stores) (th : Thread) (p : Option Thread × Stores) : Prop :=
  ∀ id, Open p.2.world id → th.leaves outcome s.world = some id ∨ p.1.bind Thread.owes = some id ∨
    (∃ m ∈ p.2.stream.drop s.stream.length, m.jobId = some id) ∨ (Open s.world id ∧ th.owes ≠ some id)

theorem Accounted.of_idle {p : Option Thread × Stores} (howes : th.owes = none)
    (hjobs : p.2.world.jobs = s.world.jobs) : Accounted outcome s th p := by
  intro id hopen
  refine Or.inr (Or.inr (Or.inr ⟨(open_congr ?_).mp hopen, ?_⟩))
  · rw [hjobs]
  · rw [howes]
    nofun

theorem insert_eq_some {request : CreateRequest} {t : Stores} (h : request.insert s = some t) :
    request.jobId ∉ s.world.jobs.keys ∧ t.stream = s.stream ∧
      ∀ id, id ≠ request.jobId → t.world.jobs.get? id = s.world.jobs.get? id := by
  unfold CreateRequest.insert at h
  split at h
  · cases h
  · rename_i hfresh
    cases h
    refine ⟨hfresh, rfl, fun id hid => ?_⟩
    rw [OrderedDict.get?_append, if_neg hid]

theorem accounted_commit (request : CreateRequest) :
    Accounted outcome s (.create request .commit)
      ((Thread.create request .commit).call dumpsLength settings outcome s) := by
  cases hinsert : request.insert s with
  | none =>
    have hcall : (Thread.create request .commit).call dumpsLength settings outcome s = (none, s) := by
      simp only [Thread.call, CreateStep.call, CreateStep.answer, hinsert, Option.map_none]
    rw [hcall]
    exact .of_idle rfl rfl
  | some t =>
    obtain ⟨hfresh, -, hothers⟩ := insert_eq_some hinsert
    have hothers' (id : Uuid) (hid : id ≠ request.jobId) (hopen : Open t.world id) :
        Open s.world id ∧ (Thread.create request .commit).owes ≠ some id :=
      ⟨(open_congr (hothers id hid)).mp hopen, fun howes => by cases howes⟩
    cases outcome with
    | ok =>
      have hcall : (Thread.create request .commit).call dumpsLength settings .ok s =
          (some (.create request .refresh), t) := by
        simp only [Thread.call, CreateStep.call, CreateStep.answer, hinsert, Option.map_some]
      rw [hcall]
      intro id hopen
      by_cases hid : id = request.jobId
      · exact Or.inr (Or.inl (congrArg some hid.symm))
      · exact Or.inr (Or.inr (Or.inr (hothers' id hid hopen)))
    | raises e =>
      have hcall : (Thread.create request .commit).call dumpsLength settings (.raises e) s = (none, s) := by
        simp only [Thread.call, CreateStep.call, CreateStep.answer, hinsert, Option.map_some, Option.map_none]
      rw [hcall]
      exact .of_idle rfl rfl
    | raisesLate e =>
      have hcall : (Thread.create request .commit).call dumpsLength settings (.raisesLate e) s = (none, t) := by
        simp only [Thread.call, CreateStep.call, CreateStep.answer, hinsert, Option.map_some, Option.map_none]
      rw [hcall]
      intro id hopen
      by_cases hid : id = request.jobId
      · subst hid
        exact Or.inl (if_pos ⟨rfl, rfl, hfresh⟩)
      · exact Or.inr (Or.inr (Or.inr (hothers' id hid hopen)))

theorem accounted_refresh (request : CreateRequest) :
    Accounted outcome s (.create request .refresh)
      ((Thread.create request .refresh).call dumpsLength settings outcome s) := by
  intro id hopen
  have hsame : ((Thread.create request .refresh).call dumpsLength settings outcome s).2 = s := by
    cases outcome <;> rfl
  rw [hsame] at hopen
  by_cases hid : id = request.jobId
  · subst hid
    cases outcome with
    | ok =>
      refine Or.inr (Or.inl ?_)
      obtain ⟨job, hjob, -⟩ := hopen
      simp only [Thread.call, CreateStep.call, CreateStep.answer, Option.mem_def.mp hjob, Option.map_some,
        Option.bind_some, Thread.owes]
    | raises e => exact Or.inl (if_pos ⟨rfl, hopen⟩)
    | raisesLate e => exact Or.inl (if_pos ⟨rfl, hopen⟩)
  · refine Or.inr (Or.inr (Or.inr ⟨hopen, fun howes => hid ?_⟩))
    exact (Option.some.inj howes).symm

theorem jobId_entry (msgId : String) (id : Uuid) : (Entry.mk msgId [("job_id", id.text)]).jobId = some id := by
  have hlookup : (([("job_id", id.text)] : List (String × String)).lookup "job_id").getD "" = id.text := rfl
  rw [Entry.jobId, hlookup, if_neg id.text_ne_empty, Uuid.parse_text]

theorem accounted_xadd (request : CreateRequest) :
    Accounted outcome s (.create request .xadd)
      ((Thread.create request .xadd).call dumpsLength settings outcome s) := by
  intro id hopen
  have hopen' : Open s.world id := by
    cases outcome <;> exact hopen
  by_cases hid : id = request.jobId
  · subst hid
    have hentry : ∃ m ∈ (request.publish s).stream.drop s.stream.length, m.jobId = some request.jobId := by
      refine ⟨_, ?_, jobId_entry request.msgId request.jobId⟩
      rw [CreateRequest.publish, List.drop_left]
      exact List.mem_singleton_self _
    cases outcome with
    | ok => exact Or.inr (Or.inr (Or.inl hentry))
    | raises e => exact Or.inl (if_pos ⟨rfl, hopen'⟩)
    | raisesLate e => exact Or.inr (Or.inr (Or.inl hentry))
  · refine Or.inr (Or.inr (Or.inr ⟨hopen', fun howes => hid ?_⟩))
    exact (Option.some.inj howes).symm

theorem accounted_handle (msgId : String) (jobId : Uuid) (calls : Calls) (step : WorkerStep) :
    Accounted outcome s (.handle msgId jobId calls step)
      ((Thread.handle msgId jobId calls step).call dumpsLength settings outcome s) := by
  intro id hopen
  by_cases hid : id = jobId
  · subst hid
    cases hrest : (step.call dumpsLength settings { calls with outcome := fun _ => outcome } msgId id s.world).1 with
    | none => exact Or.inl (call_ends hrest hopen)
    | some rest =>
      refine Or.inr (Or.inl ?_)
      rw [Thread.call, hrest]
      rfl
  · refine Or.inr (Or.inr (Or.inr ⟨(open_congr (call_others hid)).mp hopen, fun howes => hid ?_⟩))
    exact (Option.some.inj howes).symm

theorem accounted_call (th : Thread) : Accounted outcome s th (th.call dumpsLength settings outcome s) := by
  cases th with
  | create request step =>
    cases step with
    | getVersion =>
      refine .of_idle rfl ?_
      cases outcome <;> rfl
    | commit => exact accounted_commit request
    | refresh => exact accounted_refresh request
    | xadd => exact accounted_xadd request
  | handle msgId jobId calls step => exact accounted_handle msgId jobId calls step
  | skip msgId =>
    refine .of_idle rfl ?_
    cases outcome <;> rfl

theorem stream_call (th : Thread) : s.stream <+: (th.call dumpsLength settings outcome s).2.stream := by
  cases th with
  | create request step =>
    cases step with
    | commit =>
      cases hinsert : request.insert s with
      | none =>
        simp only [Thread.call, CreateStep.call, CreateStep.answer, hinsert, Option.map_none]
        exact List.prefix_refl _
      | some t =>
        have hstream := (insert_eq_some hinsert).2.1
        simp only [Thread.call, CreateStep.call, CreateStep.answer, hinsert, Option.map_some]
        cases outcome with
        | ok => exact hstream ▸ List.prefix_refl _
        | raises e => exact List.prefix_refl _
        | raisesLate e => exact hstream ▸ List.prefix_refl _
    | xadd =>
      cases outcome with
      | ok => exact List.prefix_append ..
      | raises e => exact List.prefix_refl _
      | raisesLate e => exact List.prefix_append ..
    | _ => cases outcome <;> exact List.prefix_refl _
  | handle msgId jobId calls step => exact List.prefix_refl _
  | skip msgId => cases outcome <;> exact List.prefix_refl _

structure Left (s : Stores) (id : Uuid) (p : Option Thread × Stores) : Prop where
  ends : p.1 = none
  stream : p.2.stream = s.stream
  stays : Open p.2.world id

theorem left_create {request : CreateRequest} {step : CreateStep}
    (h : (Thread.create request step).leaves outcome s.world = some id) :
    Left s id ((Thread.create request step).call dumpsLength settings outcome s) := by
  cases step with
  | getVersion => cases h
  | commit =>
    obtain ⟨⟨heffect, hlost, hfresh⟩, he⟩ := Option.ite_none_right_eq_some.mp h
    cases he
    have hinsert : request.insert s = some { s with
        world := { s.world with jobs := s.world.jobs.append request.jobId request.job hfresh } } := dif_neg hfresh
    cases outcome with
    | ok => cases hlost
    | raises e => cases heffect
    | raisesLate e =>
      simp only [Thread.call, CreateStep.call, CreateStep.answer, hinsert, Option.map_some, Option.map_none]
      refine ⟨rfl, rfl, request.job, ?_, Or.inl rfl⟩
      rw [OrderedDict.get?_append, if_pos rfl, Option.mem_def]
  | refresh =>
    obtain ⟨⟨hlost, hopen⟩, he⟩ := Option.ite_none_right_eq_some.mp h
    cases he
    cases outcome with
    | ok => cases hlost
    | raises e => exact ⟨rfl, rfl, hopen⟩
    | raisesLate e => exact ⟨rfl, rfl, hopen⟩
  | xadd =>
    obtain ⟨⟨hlost, hopen⟩, he⟩ := Option.ite_none_right_eq_some.mp h
    cases he
    cases outcome with
    | ok => cases hlost
    | raises e => exact ⟨rfl, rfl, hopen⟩
    | raisesLate e => cases hlost

theorem left_handle {msgId : String} {jobId : Uuid} {calls : Calls} {step : WorkerStep}
    (h : (Thread.handle msgId jobId calls step).leaves outcome s.world = some id) :
    Left s id ((Thread.handle msgId jobId calls step).call dumpsLength settings outcome s) := by
  cases step with
  | ack =>
    obtain ⟨⟨hacked, hopen⟩, he⟩ := Option.ite_none_right_eq_some.mp h
    cases he
    cases outcome with
    | ok => exact ⟨rfl, rfl, hopen⟩
    | raises e => cases hacked
    | raisesLate e => cases hacked
  | getFailedJob error =>
    obtain ⟨⟨hlost, hopen⟩, he⟩ := Option.ite_none_right_eq_some.mp h
    cases he
    cases outcome with
    | ok => cases hlost
    | raises e => exact ⟨rfl, rfl, hopen⟩
    | raisesLate e => exact ⟨rfl, rfl, hopen⟩
  | fail error =>
    obtain ⟨⟨hlost, hopen⟩, he⟩ := Option.ite_none_right_eq_some.mp h
    cases he
    cases outcome with
    | ok => cases hlost
    | raises e => exact ⟨rfl, rfl, hopen⟩
    | raisesLate e => cases hlost
  | _ => cases h

theorem left_call (h : th.leaves outcome s.world = some id) : Left s id (th.call dumpsLength settings outcome s) := by
  cases th with
  | create request step => exact left_create h
  | handle msgId jobId calls step => exact left_handle h
  | skip msgId => cases h

end Threads

section Steps

variable {dumpsLength : Json → ℕ} {settings : Settings} {s t : System} {tid : ℕ} {id : Uuid}

theorem CoveredWithout.covered {stores : Stores} {delivered : ℕ} {rest : Option Thread}
    (hstream : s.stores.stream <+: stores.stream) (h : CoveredWithout s delivered tid id) :
    Covered ⟨stores, delivered, s.threads.assign tid rest⟩ id := by
  rcases h with ⟨m, hm, hid⟩ | ⟨other, th, hne, hother, howes⟩
  · obtain ⟨new, hnew⟩ := hstream
    refine Or.inl ⟨m, ?_, hid⟩
    change m ∈ stores.stream.drop delivered
    rw [← hnew, List.drop_append]
    exact List.mem_append_left _ hm
  · refine Or.inr ⟨other, th, ?_, howes⟩
    change (s.threads.assign tid rest).get? other = some th
    rw [OrderedDict.get?_assign, if_neg hne]
    exact hother

theorem coveredWithout_of_covered {stores : Stores} {delivered : ℕ} {rest : Option Thread}
    (hstream : stores.stream = s.stores.stream) (hrest : rest.bind Thread.owes ≠ some id)
    (h : Covered ⟨stores, delivered, s.threads.assign tid rest⟩ id) : CoveredWithout s delivered tid id := by
  rcases h with ⟨m, hm, hid⟩ | ⟨other, th, hth, howes⟩
  · refine Or.inl ⟨m, ?_, hid⟩
    rw [← hstream]
    exact hm
  · change (s.threads.assign tid rest).get? other = some th at hth
    rw [OrderedDict.get?_assign] at hth
    split_ifs at hth with hne
    · rw [hth] at hrest
      exact absurd howes hrest
    · exact Or.inr ⟨other, th, hne, hth, howes⟩

theorem Covered.without (h : Covered s id) (hth : (s.threads.get? tid).bind Thread.owes ≠ some id) :
    CoveredWithout s s.delivered tid id := by
  rcases h with hwaits | ⟨other, th, hother, howes⟩
  · exact Or.inl hwaits
  · refine Or.inr ⟨other, th, ?_, hother, howes⟩
    rintro rfl
    rw [hother] at hth
    exact hth howes

theorem bind_owes_of_free (hfree : tid ∉ s.threads.keys) : (s.threads.get? tid).bind Thread.owes ≠ some id := by
  rw [OrderedDict.get?_eq_none.mpr hfree]
  nofun

theorem coverage_request {request : CreateRequest} (hs : Coverage s)
    (h : next dumpsLength settings s (.request tid request) = some t) : Coverage t := by
  obtain ⟨hfree, hnext⟩ := Option.ite_none_left_eq_some.mp h
  cases hformat : checkFormat request.format with
  | error e =>
    rw [hformat] at hnext
    cases hnext
    exact hs
  | ok u =>
    rw [hformat] at hnext
    cases hnext
    refine ⟨hs.delivered, fun id hopen => ?_⟩
    exact ((hs.covered id hopen).without (bind_owes_of_free hfree)).covered (List.prefix_refl _)

theorem owes_ofEntry {entry : Entry} (calls : Calls) (h : entry.jobId = some id) :
    (Thread.ofEntry entry calls).bind Thread.owes = some id := by
  have hne : (entry.fields.lookup "job_id").getD "" ≠ "" := by
    intro hempty
    rw [Entry.jobId, if_pos hempty] at h
    cases h
  rw [Thread.ofEntry, if_neg hne, h]
  rfl

theorem coverage_read {outcome : Outcome String} {calls : Calls} (hs : Coverage s)
    (hok : Spares s (.read tid outcome calls))
    (h : next dumpsLength settings s (.read tid outcome calls) = some t) : Coverage t := by
  obtain ⟨hfree, hnext⟩ := Option.ite_none_left_eq_some.mp h
  obtain ⟨entry, hentry, rfl⟩ := Option.map_eq_some_iff.mp hnext
  obtain ⟨hlt, hget⟩ := List.getElem?_eq_some_iff.mp hentry
  have hdrop := List.drop_eq_getElem_cons hlt
  rw [hget] at hdrop
  -- a job of a later message, or of another thread, is covered without this one
  have hwithout (id : Uuid) (hopen : Open s.stores.world id) (hother : entry.jobId ≠ some id) :
      CoveredWithout s (s.delivered + 1) tid id := by
    rcases (hs.covered id hopen).without (bind_owes_of_free hfree) with ⟨m, hm, hid⟩ | hthread
    · rw [hdrop, List.mem_cons] at hm
      rcases hm with rfl | hm
      · exact absurd hid hother
      · exact Or.inl ⟨m, hm, hid⟩
    · exact Or.inr hthread
  cases outcome with
  | ok =>
    refine ⟨hlt, fun id hopen => ?_⟩
    by_cases hid : entry.jobId = some id
    · obtain ⟨th, hth, howes⟩ := Option.bind_eq_some_iff.mp (owes_ofEntry calls hid)
      refine Or.inr ⟨tid, th, ?_, howes⟩
      rw [OrderedDict.get?_assign, if_pos rfl]
      exact hth
    · exact (hwithout id hopen hid).covered (List.prefix_refl _)
  | raises e => exact hs
  | raisesLate e =>
    refine ⟨hlt, fun id hopen => ?_⟩
    have hsafe : CoveredWithout s (s.delivered + 1) tid id := by
      by_cases hid : entry.jobId = some id
      · exact hok rfl rfl entry hentry id hid hopen
      · exact hwithout id hopen hid
    rcases hsafe with hwaits | ⟨other, th, -, hother⟩
    · exact Or.inl hwaits
    · exact Or.inr ⟨other, th, hother⟩

theorem coverage_call {outcome : Outcome String} (hs : Coverage s) (hok : Spares s (.call tid outcome))
    (h : next dumpsLength settings s (.call tid outcome) = some t) : Coverage t := by
  obtain ⟨th, hth, rfl⟩ := Option.map_eq_some_iff.mp h
  have hstream : s.stores.stream <+: (th.call dumpsLength settings outcome s.stores).2.stream := stream_call th
  refine ⟨hs.delivered.trans hstream.length_le, fun id hopen => ?_⟩
  rcases accounted_call th id hopen with hleaves | hrest | ⟨m, hm, hid⟩ | ⟨hbefore, howes⟩
  · exact (hok th hth id hleaves).covered hstream
  · obtain ⟨th', hth', howes'⟩ := Option.bind_eq_some_iff.mp hrest
    refine Or.inr ⟨tid, th', ?_, howes'⟩
    rw [OrderedDict.get?_assign, if_pos rfl]
    exact hth'
  · exact Or.inl ⟨m, (List.drop_sublist_drop_left _ hs.delivered).subset hm, hid⟩
  · refine ((hs.covered id hbefore).without ?_).covered hstream
    rw [hth]
    exact howes

theorem coverage_crash (hs : Coverage s) (hok : Spares s (.crash tid))
    (h : next dumpsLength settings s (.crash tid) = some t) : Coverage t := by
  obtain ⟨th, hth, hworker⟩ := Option.bind_eq_some_iff.mp h
  obtain ⟨hworker, he⟩ := Option.ite_none_right_eq_some.mp hworker
  cases he
  refine ⟨hs.delivered, fun id hopen => ?_⟩
  have hsafe : CoveredWithout s s.delivered tid id := by
    by_cases hexecutes : th.executes = some id
    · exact hok th hth id hexecutes hopen
    · apply (hs.covered id hopen).without
      rw [hth]
      cases th with
      | create request step => cases hworker
      | handle msgId jobId calls step => exact hexecutes
      | skip msgId => nofun
  exact hsafe.covered (List.prefix_refl _)

theorem coverage_next {a : Action} (hs : Coverage s) (hok : Spares s a)
    (h : next dumpsLength settings s a = some t) : Coverage t := by
  cases a with
  | request tid request => exact coverage_request hs h
  | read tid outcome calls => exact coverage_read hs hok h
  | call tid outcome => exact coverage_call hs hok h
  | crash tid => exact coverage_crash hs hok h

theorem coverage_next_iff {a : Action} (hs : Coverage s) (h : next dumpsLength settings s a = some t) :
    Coverage t ↔ Spares s a := by
  refine ⟨fun ht => ?_, fun hok => coverage_next hs hok h⟩
  cases a with
  | request tid request => trivial
  | read tid outcome calls =>
    intro heffect hlost entry hentry id hid hopen
    obtain ⟨hfree, hnext⟩ := Option.ite_none_left_eq_some.mp h
    obtain ⟨entry', -, rfl⟩ := Option.map_eq_some_iff.mp hnext
    cases outcome with
    | ok => cases hlost
    | raises e => cases heffect
    | raisesLate e =>
      rcases ht.covered id hopen with hwaits | ⟨other, th, hother, howes⟩
      · exact Or.inl hwaits
      · refine Or.inr ⟨other, th, ?_, hother, howes⟩
        rintro rfl
        exact hfree (OrderedDict.mem_keys.mpr ⟨th, hother⟩)
  | call tid outcome =>
    intro th hth id hleaves
    obtain ⟨th', hth', rfl⟩ := Option.map_eq_some_iff.mp h
    rw [Option.mem_def, hth', Option.some.injEq] at hth
    subst hth
    have hleft : Left s.stores id (th'.call dumpsLength settings outcome s.stores) := left_call hleaves
    refine coveredWithout_of_covered hleft.stream ?_ (ht.covered id hleft.stays)
    rw [hleft.ends]
    nofun
  | crash tid =>
    intro th hth id hexecutes hopen
    obtain ⟨th', hth', hworker⟩ := Option.bind_eq_some_iff.mp h
    obtain ⟨-, he⟩ := Option.ite_none_right_eq_some.mp hworker
    cases he
    refine coveredWithout_of_covered rfl ?_ (ht.covered id hopen)
    nofun

theorem Coverage.noStuck (h : Coverage s) : NoStuck s := by
  intro hquiet id hopen
  rcases h.covered id hopen with hwaits | ⟨tid, th, hth, howes⟩
  · exact Or.inl hwaits
  · have hmem : th ∈ s.threads.values := OrderedDict.mem_values.mpr ⟨tid, hth⟩
    refine Or.inr ⟨th, hmem, ?_⟩
    have hbetween := hquiet th hmem
    cases th with
    | create request step =>
      cases step with
      | refresh => cases hbetween
      | xadd => cases hbetween
      | _ => cases howes
    | handle msgId jobId calls step => exact howes
    | skip msgId => cases howes

end Steps

theorem coverage_start {w : World} (h : ∀ id, ¬ Open w id) : Coverage (start w) :=
  ⟨Nat.zero_le _, fun id hopen => absurd hopen (h id)⟩

theorem coverage_reached_iff {dumpsLength : Json → ℕ} {settings : Settings} {s u : System} {actions : List Action}
    (hs : Coverage s) (h : run (next dumpsLength settings) s actions = some u) :
    (∀ before t, before <+: actions → run (next dumpsLength settings) s before = some t → Coverage t) ↔
      Along (next dumpsLength settings) Spares s actions :=
  reached_iff_along (p := fun _ => True) (fun _ _ _ hs _ ht => coverage_next_iff hs ht) hs (fun _ _ => trivial) h

theorem no_stuck_export {dumpsLength : Json → ℕ} {settings : Settings} {w : World} {actions : List Action} {s : System}
    (hw : ∀ id, ¬ Open w id) (hspares : Along (next dumpsLength settings) Spares (start w) actions)
    (h : run (next dumpsLength settings) (start w) actions = some s) : NoStuck s :=
  (invariant_along Coverage (fun _ _ _ hs hok ht => coverage_next hs hok ht) (coverage_start hw) hspares h).noStuck

def Proceeds (s : System) : Action → Prop
  | .request .. => True
  | .read _ outcome _ => outcome.takesEffect = true → outcome.succeeds = true
  | .call tid outcome => ∀ th ∈ s.threads.get? tid, th.leaves outcome s.stores.world = none
  | .crash tid => ∀ th ∈ s.threads.get? tid, ∀ id ∈ th.executes, ¬ Open s.stores.world id

instance (s : System) (a : Action) : Decidable (Proceeds s a) := by
  cases a <;> unfold Proceeds <;> infer_instance

theorem spares_of_proceeds {s : System} {a : Action} (h : Proceeds s a) : Spares s a := by
  cases a with
  | request tid request => trivial
  | read tid outcome calls =>
    intro heffect hlost
    rw [h heffect] at hlost
    cases hlost
  | call tid outcome =>
    intro th hth id hleaves
    rw [h th hth] at hleaves
    cases hleaves
  | crash tid => exact fun th hth id hexecutes hopen => absurd hopen (h th hth id hexecutes)

theorem along_spares {dumpsLength : Json → ℕ} {settings : Settings} {s : System} {actions : List Action}
    (h : Along (next dumpsLength settings) Proceeds s actions) : Along (next dumpsLength settings) Spares s actions :=
  along_of_invariant (fun _ => True) (fun _ _ _ _ _ _ => trivial) (fun _ _ _ => spares_of_proceeds) trivial h

def noJobs : World := { oneJob with jobs := OrderedDict.empty }

def exportRequest : CreateRequest := ⟨⟨4⟩, "webdataset", "exports", some "v1", projectUser, ⟨5⟩, "1-0"⟩

def callsOk (tid n : ℕ) : List Action := List.replicate n (.call tid .ok)

def uploadFails : List Action :=
  [.request 0 exportRequest] ++ callsOk 0 4 ++ [.read 1 .ok (callsWith fun _ => .ok)] ++ callsOk 1 5 ++
    [.call 1 (.raises "SlowDown")] ++ callsOk 1 2

theorem no_stuck_export_oneFailure :
    (run (next (fun _ => 0) workerSettings) (start noJobs) uploadFails).isSome ∧
      ∀ s, run (next (fun _ => 0) workerSettings) (start noJobs) uploadFails = some s → NoStuck s := by
  refine ⟨by decide +kernel, fun s h => no_stuck_export ?_ (along_spares (by decide +kernel)) h⟩
  rintro id ⟨job, hjob, -⟩
  cases hjob

def exportUnpublished : List Action :=
  [.request 0 exportRequest] ++ callsOk 0 3 ++ [.call 0 (.raises "ConnectionError")]

theorem unpublished_job_stuck :
    ¬ ∀ dumpsLength settings w actions s, (∀ id, ¬ Open w id) →
      run (next dumpsLength settings) (start w) actions = some s → NoStuck s := by
  intro hall
  have hstuck : ∀ s ∈ run (next (fun _ => 0) workerSettings) (start noJobs) exportUnpublished,
      Quiet s ∧ Open s.stores.world ⟨5⟩ ∧ ¬ Undelivered s ⟨5⟩ ∧ ¬ Executed s ⟨5⟩ := by decide +kernel
  have hsome : (run (next (fun _ => 0) workerSettings) (start noJobs) exportUnpublished).isSome := by decide +kernel
  obtain ⟨s, hs⟩ := Option.isSome_iff_exists.mp hsome
  obtain ⟨hquiet, hopen, hdelivered, hidle⟩ := hstuck s hs
  have hnone : ∀ id, ¬ Open noJobs id := by
    rintro id ⟨job, hjob, -⟩
    cases hjob
  rcases hall _ _ _ _ s hnone hs hquiet ⟨5⟩ hopen with hwaits | hexecuted
  · exact hdelivered hwaits
  · exact hidle hexecuted

end Embedai.ExportWorker
