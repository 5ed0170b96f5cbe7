import Mathlib.Data.List.Chain
import Embedai.ExportJobSteps
import Embedai.TransitionSystems

namespace Embedai.ExportWorker

open DatasetService Handlers ObjectLocations TracedHandlers TransitionSystems

structure Message where
  msgId : String
  fields : List (String × String)
  calls : Calls

def Message.jobId? (m : Message) : Option Uuid := Uuid.parse ((m.fields.lookup "job_id").getD "")

def receive (dumpsLength : Json → ℕ) (settings : Settings) (t : Trace World) (m : Message) : Option (Trace World) :=
  some (answer (handleMessage dumpsLength settings m.calls m.msgId m.fields) t).2

def CompletedTerminal (t : Trace World) : Prop :=
  t.visited.IsChain fun after before => ∀ id, statusOf before id = some .completed →
    statusOf after id ≠ some .failed ∧ statusOf after id ≠ some .running

def LeavesRow (calls : Calls) : Prop :=
  (calls.outcome .getJob ≠ .ok ∨ ∃ e, calls.outcome .updateStatus = .raises e) ∧ ¬ FailTakesEffect calls

def KeepsTerminal (dumpsLength : Json → ℕ) (settings : Settings) (t : Trace World) (m : Message) : Prop :=
  ∀ jobId, m.jobId? = some jobId →
    (statusOf t.current jobId = some .completed → LeavesRow m.calls) ∧
    (statusOf t.current jobId ≠ some .completed → ¬ Undone dumpsLength settings m.calls jobId t.current)

variable {dumpsLength : Json → ℕ} {settings : Settings} {calls : Calls} {jobId : Uuid} {base : World}

def SameJobs (s t : World) : Prop := t.jobs = s.jobs

theorem SameJobs.keepsCompleted {s t : World} (h : SameJobs s t) : KeepsCompleted s t := by
  intro id hid
  rw [statusOf, h]
  exact hid

theorem triple_ack (msgId : String) :
    Triple SameJobs (SameJobs base) (call (calls.outcome .ack) (World.xack msgId)) (fun _ => SameJobs base)
      (fun _ => SameJobs base) := by
  apply triple_call
  · exact fun _ _ _ => rfl
  · exact fun _ hs _ => hs
  · exact fun _ _ hs _ => hs
  · exact fun _ _ hs _ => hs

theorem triple_row_untouched {outcome : Outcome String} {A : Prop}
    {x : Option ExportJob → Handler (Trace World) String Unit}
    (h : base.jobs.get? jobId = none ∨ (outcome = .ok → A)) (hnone : x none = pure ())
    (hsome : A → ∀ job, Triple SameJobs (SameJobs base) (x (some job)) (fun _ => SameJobs base)
      (fun _ => SameJobs base)) :
    Triple SameJobs (SameJobs base) (query outcome (fun w : World => w.jobs.get? jobId) >>= x)
      (fun _ => SameJobs base) (fun _ => SameJobs base) := by
  refine triple_bind (triple_query (fun _ _ => rfl) (fun _ _ hs _ => hs)) fun row => triple_assume fun hok => ?_
  cases row with
  | none =>
    rw [hnone]
    exact triple_pure _ (fun _ hs => hs.2)
  | some job =>
    refine triple_given (A := A) ?_ fun hA t hs => hsome hA job t hs.2
    rintro s ⟨hrow, hs⟩
    rcases h with hnone | hread
    · rw [hs, hnone] at hrow
      cases hrow
    · exact hread hok

theorem triple_executeJob_untouched (h : base.jobs.get? jobId = none ∨ LeavesRow calls) :
    Triple SameJobs (SameJobs base) (executeJob dumpsLength settings calls jobId) (fun _ => SameJobs base)
      (fun _ => SameJobs base) := by
  have hread : base.jobs.get? jobId = none ∨
      (calls.outcome .getJob = .ok → ∃ e, calls.outcome .updateStatus = .raises e) :=
    h.imp_right fun hleaves hok => hleaves.1.resolve_left fun hget => hget hok
  refine triple_row_untouched hread rfl ?_
  rintro ⟨e, he⟩ job
  exact triple_bind (triple_call_raises (Q := fun _ _ => False) he fun _ hs => hs) fun _ =>
    triple_given (fun _ hs => hs) False.elim

theorem triple_failJob_untouched (error : String) (h : base.jobs.get? jobId = none ∨ LeavesRow calls) :
    Triple SameJobs (SameJobs base) (failJob calls jobId error) (fun _ => SameJobs base) (fun _ => SameJobs base) := by
  have hread : base.jobs.get? jobId = none ∨
      (calls.outcome .getFailedJob = .ok → ∃ e, calls.outcome .fail = .raises e) := by
    refine h.imp_right fun hleaves hok => ?_
    by_contra hno
    exact hleaves.2 ⟨hok, not_exists.mp hno⟩
  refine triple_row_untouched hread rfl ?_
  rintro ⟨e, he⟩ job
  exact triple_call_raises he fun _ hs => hs

theorem handleMessage_untouched {msgId : String} {fields : List (String × String)} {t : Trace World}
    (h : ∀ jobId, Uuid.parse ((fields.lookup "job_id").getD "") = some jobId →
      t.current.jobs.get? jobId = none ∨ LeavesRow calls) :
    t.Extends SameJobs (answer (handleMessage dumpsLength settings calls msgId fields) t).2 := by
  have htriple : Triple SameJobs (SameJobs t.current) (handleMessage dumpsLength settings calls msgId fields)
      (fun _ => SameJobs t.current) (fun _ => SameJobs t.current) := by
    unfold handleMessage
    split_ifs
    · exact triple_ack msgId
    · refine triple_bind (triple_require (Q := fun id s => (t.current.jobs.get? id = none ∨ LeavesRow calls) ∧
        SameJobs t.current s) ?_ ?_) fun id => triple_assume fun hid => ?_
      · exact fun s id hs hfound => ⟨h id (found_eq_ok.mp hfound), hs⟩
      · exact fun _ _ hs _ => hs
      · apply triple_recover
        · exact triple_bind (triple_executeJob_untouched hid) fun _ => triple_ack msgId
        · exact fun e => triple_failJob_untouched e hid
  exact (htriple t rfl).visits

theorem receive_keepsCompleted {t u : Trace World} {m : Message} (hok : KeepsTerminal dumpsLength settings t m)
    (h : receive dumpsLength settings t m = some u) : t.Extends KeepsCompleted u := by
  cases h
  by_cases huntouched : ∀ jobId, m.jobId? = some jobId → t.current.jobs.get? jobId = none ∨ LeavesRow m.calls
  · exact (handleMessage_untouched huntouched).mono (fun _ _ hs => hs.keepsCompleted)
  · -- the job exists and its row is touched, so it is not yet completed
    simp only [not_forall, not_or] at huntouched
    obtain ⟨jobId, hid, hrow, hleaves⟩ := huntouched
    obtain ⟨job, hjob⟩ := Option.ne_none_iff_exists'.mp hrow
    have hopen : statusOf t.current jobId ≠ some .completed := fun hs => hleaves ((hok jobId hid).1 hs)
    have hvisits : t.Extends (MessageStep dumpsLength settings m.calls jobId job t.current)
        (answer (handleMessage dumpsLength settings m.calls m.msgId m.fields) t).2 :=
      (triple_handleMessage m.msgId hid hjob hopen t rfl).visits
    exact hvisits.mono (fun _ _ hs => hs.2 ((hok jobId hid).2 hopen))

theorem completed_terminal (dumpsLength : Json → ℕ) (settings : Settings) (w : World) (messages : List Message)
    (t : Trace World) (hok : Along (receive dumpsLength settings) (KeepsTerminal dumpsLength settings) ⟨w, []⟩ messages)
    (h : run (receive dumpsLength settings) ⟨w, []⟩ messages = some t) : CompletedTerminal t := by
  apply invariant_along CompletedTerminal _ _ hok h
  · intro u m v hu hm hstep
    apply ((receive_keepsCompleted hm hstep).mono _).chain hu
    intro r s hkeeps id hid
    rw [hkeeps id hid]
    exact ⟨nofun, nofun⟩
  · exact .singleton _

def deliveredWith (outcome : Call → Outcome String) : Message := ⟨"1-0", jobFields, callsWith outcome⟩

def withoutJobId : Message := ⟨"2-0", [], callsWith fun _ => .raises "connection lost"⟩

theorem completed_terminal_twoMessages :
    (run (receive (fun _ => 2) workerSettings) ⟨oneJob, []⟩ [deliveredWith fun _ => .ok, withoutJobId]).isSome ∧
      ∀ t, run (receive (fun _ => 2) workerSettings) ⟨oneJob, []⟩ [deliveredWith fun _ => .ok, withoutJobId] = some t →
        CompletedTerminal t := by
  refine ⟨rfl, fun t h => completed_terminal _ workerSettings oneJob _ t ?_ h⟩
  have hnone : withoutJobId.jobId? = none := by decide +kernel
  have hid : (deliveredWith fun _ => .ok).jobId? = some ⟨5⟩ := by decide +kernel
  refine ⟨?_, fun u _ => ⟨?_, fun _ _ => trivial⟩⟩
  · intro jobId hjobId
    rw [hid, Option.some.injEq] at hjobId
    subst hjobId
    refine ⟨fun hcompleted => absurd hcompleted (by decide +kernel), ?_⟩
    rintro - ⟨⟨-, ⟨e, he⟩ | ⟨-, hack⟩⟩, -⟩
    · cases he
    · exact hack rfl
  · intro jobId hjobId
    rw [hnone] at hjobId
    cases hjobId

theorem CompletedTerminal.statuses {t : Trace World} (h : CompletedTerminal t) (id : Uuid) :
    (t.visited.map (statusOf · id)).IsChain fun after before =>
      before = some .completed → after ≠ some .failed ∧ after ≠ some .running :=
  List.isChain_map_of_isChain _ (fun _ _ hstep => hstep id) h

def ackRaises : Call → Outcome String
  | .ack => .raises "connection lost"
  | _ => .ok

theorem ack_fails_completed :
    ¬ ∀ (dumpsLength : Json → ℕ) (settings : Settings) (w : World) (messages : List Message) (t : Trace World),
      run (receive dumpsLength settings) ⟨w, []⟩ messages = some t → CompletedTerminal t := by
  intro h
  have hstatuses := (h (fun _ => 2) workerSettings oneJob [deliveredWith ackRaises] _ rfl).statuses ⟨5⟩
  exact absurd hstatuses (by decide +kernel)

end Embedai.ExportWorker
