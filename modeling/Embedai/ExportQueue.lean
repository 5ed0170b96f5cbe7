import Embedai.ExportJobs

namespace Embedai.ExportWorker

open DatasetService Handlers ObjectLocations TracedHandlers

/-- The next call of `_handle_message`, with what it has read. -/
inductive WorkerStep
  | getJob
  | updateStatus (job : ExportJob)
  | getVersion (job : ExportJob)
  | resolve (job : ExportJob) (version : DatasetVersion)
  | export (job : ExportJob) (episodeRefs : List EpisodeRef)
  | upload (job : ExportJob) (result : ExportResult) (shard : ShardInfo × ℕ) (rest : List (ShardInfo × ℕ))
  | updateProgress (job : ExportJob) (result : ExportResult) (shard : ShardInfo × ℕ) (rest : List (ShardInfo × ℕ))
  | uploadManifest (job : ExportJob) (result : ExportResult)
  | complete (job : ExportJob)
  | ack
  | getFailedJob (error : String)
  | fail (error : String)

structure Turn where
  outcome : Outcome String
  effect : World → World
  next : Except String (Option WorkerStep)

def uploadFrom (job : ExportJob) (result : ExportResult) : List (ShardInfo × ℕ) → WorkerStep
  | [] => .uploadManifest job result
  | shard :: rest => .upload job result shard rest

namespace WorkerStep

/-- An error within `_execute_job` or the acknowledgement leads to `_fail_job`. -/
def onError (error : String) : WorkerStep → Option WorkerStep
  | getFailedJob _ => none
  | fail _ => none
  | _ => some (getFailedJob error)

variable (dumpsLength : Json → ℕ) (settings : Settings) (calls : Calls) (msgId : String) (jobId : Uuid)

def turn (w : World) : WorkerStep → Except String Turn
  | getJob => .ok ⟨calls.outcome .getJob, id, .ok (match w.jobs.get? jobId with
      | none => some ack
      | some job => some (updateStatus job))⟩
  | updateStatus job => .ok ⟨calls.outcome .updateStatus,
      World.updateJobStatus jobId .running (calls.clock .updateStatus), .ok (some (getVersion job))⟩
  | getVersion job => .ok ⟨calls.outcome .getVersion, id,
      (found ("DatasetVersion " ++ job.datasetVersionId.text ++ " not found")
        (w.database.versions.get? job.datasetVersionId)).map fun version => some (resolve job version)⟩
  | resolve job version => .ok ⟨calls.outcome .resolve, id,
      (found "badly formed hexadecimal UUID string" (resolveEpisodeRefs w.database version.episodeRefs)).map
        fun episodeRefs => some (.export job episodeRefs)⟩
  | .export job episodeRefs =>
      (runExporter dumpsLength settings calls jobId job episodeRefs w.files).map fun exported =>
        ⟨calls.outcome .export, fun w => { w with files := exported.2 },
          .ok (some (uploadFrom job exported.1 exported.1.shards.zipIdx))⟩
  | upload job result shard rest =>
      (found "No such file or directory" (w.files shard.1.path)).map fun content =>
        ⟨calls.outcome (.upload shard.2),
          World.putObject ⟨job.targetBucket, shardKey jobId job shard.2⟩ content,
          .ok (some (updateProgress job result shard rest))⟩
  | updateProgress job result shard rest => .ok ⟨calls.outcome (.updateProgress shard.2),
      World.updateJobProgress jobId (percent result.shards.length shard.2), .ok (some (uploadFrom job result rest))⟩
  | uploadManifest job result => .ok ⟨calls.outcome .uploadManifest,
      World.putObject (manifestLocation jobId job) (.file (.json result.manifest)), .ok (some (complete job))⟩
  | complete job => .ok ⟨calls.outcome .complete,
      World.completeJob jobId (manifestUrl jobId job) (calls.clock .complete), .ok (some ack)⟩
  | ack => .ok ⟨calls.outcome .ack, World.xack msgId, .ok none⟩
  | getFailedJob error => .ok ⟨calls.outcome .getFailedJob, id, .ok ((w.jobs.get? jobId).map fun _ => fail error)⟩
  | fail error => .ok ⟨calls.outcome .fail, World.failJob jobId error, .ok none⟩

def call (w : World) (step : WorkerStep) : Option WorkerStep × World :=
  match step.turn dumpsLength settings calls msgId jobId w with
  | .error error => (step.onError error, w)
  | .ok turn => match turn.outcome, turn.next with
    | .ok, .ok next => (next, turn.effect w)
    | .ok, .error error => (step.onError error, turn.effect w)
    | .raises error, _ => (step.onError error, w)
    | .raisesLate error, _ => (step.onError error, turn.effect w)

inductive Ends : Option WorkerStep × World → World → Prop
  | done (w : World) : Ends (none, w) w
  | step {step : WorkerStep} {w t : World} (h : Ends (step.call dumpsLength settings calls msgId jobId w) t) :
      Ends (some step, w) t

end WorkerStep

section Alone

open WorkerStep

variable {dumpsLength : Json → ℕ} {settings : Settings} {calls : Calls} {msgId : String} {jobId : Uuid}

def LeadsAt (dumpsLength : Json → ℕ) (settings : Settings) (calls : Calls) (msgId : String) (jobId : Uuid) {α : Type}
    (t : Trace World) (step : WorkerStep) (x : Handler (Trace World) String α) (next : α → Option WorkerStep) : Prop :=
  ∀ r : World,
    (∀ a u, answer x t = (.ok a, u) → Ends dumpsLength settings calls msgId jobId (next a, u.current) r →
      Ends dumpsLength settings calls msgId jobId (some step, t.current) r) ∧
    (∀ e u, answer x t = (.error e, u) →
      Ends dumpsLength settings calls msgId jobId (some (getFailedJob e), u.current) r →
        Ends dumpsLength settings calls msgId jobId (some step, t.current) r)

def Leads (dumpsLength : Json → ℕ) (settings : Settings) (calls : Calls) (msgId : String) (jobId : Uuid) {α : Type}
    (step : WorkerStep) (x : Handler (Trace World) String α) (next : α → Option WorkerStep) : Prop :=
  ∀ t : Trace World, LeadsAt dumpsLength settings calls msgId jobId t step x next

variable {α β γ : Type} {step : WorkerStep} {t : Trace World}

theorem LeadsAt.congr {x y : Handler (Trace World) String α} {next : α → Option WorkerStep}
    (h : LeadsAt dumpsLength settings calls msgId jobId t step x next) (hans : answer y t = answer x t) :
    LeadsAt dumpsLength settings calls msgId jobId t step y next := by
  intro r
  rw [hans]
  exact h r

theorem LeadsAt.bind {x : Handler (Trace World) String α} {f : α → Handler (Trace World) String β}
    {middle : α → WorkerStep} {next : β → Option WorkerStep}
    (hx : LeadsAt dumpsLength settings calls msgId jobId t step x (fun a => some (middle a)))
    (hf : ∀ a, Leads dumpsLength settings calls msgId jobId (middle a) (f a) next) :
    LeadsAt dumpsLength settings calls msgId jobId t step (x >>= f) next := by
  intro r
  obtain ⟨hok, herror⟩ := hx r
  constructor
  · intro b u hans hends
    obtain ⟨a, v, ha, hb⟩ := answer_bind_eq_ok.mp hans
    exact hok a v ha ((hf a v r).1 b u hb hends)
  · intro e u hans hends
    rcases answer_bind_eq_error.mp hans with hx | ⟨a, v, ha, hb⟩
    · exact herror e u hx hends
    · exact hok a v ha ((hf a v r).2 e u hb hends)

theorem leadsAt_returns {x : Handler (Trace World) String α} {next : α → Option WorkerStep} {a : α} {u : Trace World}
    (hans : answer x t = (.ok a, u))
    (hcall : step.call dumpsLength settings calls msgId jobId t.current = (next a, u.current)) :
    LeadsAt dumpsLength settings calls msgId jobId t step x next := by
  intro r
  rw [hans]
  constructor
  · intro b v hb hends
    cases hb
    apply Ends.step
    rw [hcall]
    exact hends
  · intro e v he
    cases he

theorem leadsAt_raises {x : Handler (Trace World) String α} {next : α → Option WorkerStep} {e : String}
    {u : Trace World} (hans : answer x t = (.error e, u))
    (hcall : step.call dumpsLength settings calls msgId jobId t.current = (some (getFailedJob e), u.current)) :
    LeadsAt dumpsLength settings calls msgId jobId t step x next := by
  intro r
  rw [hans]
  constructor
  · intro a v ha
    cases ha
  · intro e' v he hends
    cases he
    apply Ends.step
    rw [hcall]
    exact hends

theorem leadsAt_call {outcome : Outcome String} {effect : World → World} {next : Option WorkerStep}
    (herror : ∀ e, step.onError e = some (getFailedJob e))
    (hturn : step.turn dumpsLength settings calls msgId jobId t.current = .ok ⟨outcome, effect, .ok next⟩) :
    LeadsAt dumpsLength settings calls msgId jobId t step (TracedHandlers.call outcome effect) (fun _ => next) := by
  cases outcome with
  | ok =>
    refine leadsAt_returns (a := ()) rfl ?_
    rw [WorkerStep.call, hturn]
    rfl
  | raises e =>
    apply leadsAt_raises (e := e) rfl
    rw [WorkerStep.call, hturn, ← herror]
  | raisesLate e =>
    refine leadsAt_raises (e := e) rfl ?_
    rw [WorkerStep.call, hturn, ← herror]
    rfl

theorem leads_query {outcome : Outcome String} {f : World → α} {check : α → Except String β}
    {middle : β → WorkerStep} {k : β → Handler (Trace World) String γ} {next : γ → Option WorkerStep}
    (herror : ∀ e, step.onError e = some (getFailedJob e))
    (hturn : ∀ w, step.turn dumpsLength settings calls msgId jobId w =
      .ok ⟨outcome, id, (check (f w)).map fun b => some (middle b)⟩)
    (hk : ∀ b, Leads dumpsLength settings calls msgId jobId (middle b) (k b) next) :
    Leads dumpsLength settings calls msgId jobId step (query outcome f >>= fun a => require (check a) >>= k) next := by
  intro t
  have hcall := hturn t.current
  cases outcome with
  | ok =>
    have hans : answer (query .ok f >>= fun a => require (check a) >>= k) t =
        answer (require (check (f t.current)) >>= k) (t.push t.current) := answer_bind_of_ok rfl
    cases hcheck : check (f t.current) with
    | error e =>
      rw [hcheck] at hcall hans
      apply leadsAt_raises (hans.trans rfl)
      rw [WorkerStep.call, hcall, ← herror]
      rfl
    | ok b =>
      rw [hcheck] at hcall hans
      have hread : answer (query .ok f >>= fun a => require (check a)) t = (.ok b, t.push t.current) := by
        apply (answer_bind_of_ok rfl).trans
        change answer (require (check (f t.current))) (t.push t.current) = _
        rw [hcheck]
        rfl
      have hstep : step.call dumpsLength settings calls msgId jobId t.current = (some (middle b), t.current) := by
        rw [WorkerStep.call, hcall]
        rfl
      apply ((leadsAt_returns hread hstep).bind hk).congr
      rw [bind_assoc]
  | raises e =>
    apply leadsAt_raises (e := e) rfl
    rw [WorkerStep.call, hcall, ← herror]
  | raisesLate e =>
    refine leadsAt_raises (e := e) rfl ?_
    rw [WorkerStep.call, hcall, ← herror]
    rfl

theorem leads_checked {outcome : Outcome String} {check : World → Except String β} {effect : β → World → World}
    {middle : β → WorkerStep} {k : β → Handler (Trace World) String α} {next : α → Option WorkerStep}
    (herror : ∀ e, step.onError e = some (getFailedJob e))
    (hturn : ∀ w, step.turn dumpsLength settings calls msgId jobId w =
      (check w).map fun b => ⟨outcome, effect b, .ok (some (middle b))⟩)
    (hk : ∀ b, Leads dumpsLength settings calls msgId jobId (middle b) (k b) next) :
    Leads dumpsLength settings calls msgId jobId step
      (observe >>= fun w => require (check w) >>= fun b => TracedHandlers.call outcome (effect b) >>= fun _ => k b)
      next := by
  intro t
  have hcall := hturn t.current
  have hans : answer (observe >>= fun w => require (check w) >>= fun b =>
      TracedHandlers.call outcome (effect b) >>= fun _ => k b) t =
        answer (require (check t.current) >>= fun b => TracedHandlers.call outcome (effect b) >>= fun _ => k b) t :=
    answer_bind_of_ok rfl
  cases hcheck : check t.current with
  | error e =>
    rw [hcheck] at hcall hans
    apply leadsAt_raises (hans.trans rfl)
    rw [WorkerStep.call, hcall, ← herror]
    rfl
  | ok b =>
    rw [hcheck] at hcall hans
    have hbind := (leadsAt_call herror hcall).bind (fun _ => hk b)
    exact hbind.congr (hans.trans (answer_bind_of_ok rfl))

theorem leads_read {outcome : Outcome String} {f : World → α} (middle : α → WorkerStep)
    (herror : ∀ e, step.onError e = some (getFailedJob e))
    (hturn : ∀ w, step.turn dumpsLength settings calls msgId jobId w =
      .ok ⟨outcome, id, .ok (some (middle (f w)))⟩) :
    Leads dumpsLength settings calls msgId jobId step (query outcome f) (fun a => some (middle a)) := by
  intro t
  have hcall := hturn t.current
  cases outcome with
  | ok =>
    refine leadsAt_returns (a := f t.current) (u := t.push t.current) rfl ?_
    rw [WorkerStep.call, hcall]
    rfl
  | raises e =>
    apply leadsAt_raises (e := e) rfl
    rw [WorkerStep.call, hcall, ← herror]
  | raisesLate e =>
    refine leadsAt_raises (e := e) rfl ?_
    rw [WorkerStep.call, hcall, ← herror]
    rfl

section Stages

variable {job : ExportJob} {result : ExportResult}

theorem leads_uploadShard (shard : ShardInfo × ℕ) (rest : List (ShardInfo × ℕ)) :
    Leads dumpsLength settings calls msgId jobId (uploadFrom job result (shard :: rest))
      (uploadShard calls jobId job result.shards.length shard) (fun _ => some (uploadFrom job result rest)) :=
  leads_checked (fun _ => rfl) (fun _ => rfl) fun _ _ => leadsAt_call (fun _ => rfl) rfl

theorem leads_uploadShards {k : Handler (Trace World) String α} {next : α → Option WorkerStep}
    (shards : List (ShardInfo × ℕ))
    (hk : Leads dumpsLength settings calls msgId jobId (.uploadManifest job result) k next) :
    Leads dumpsLength settings calls msgId jobId (uploadFrom job result shards)
      (shards.forM (uploadShard calls jobId job result.shards.length) >>= fun _ => k) next := by
  induction shards with
  | nil =>
    rw [List.forM_eq_forM, List.forM_nil, pure_bind]
    exact hk
  | cons shard rest ih =>
    rw [List.forM_eq_forM, List.forM_cons, bind_assoc]
    exact fun t => (leads_uploadShard shard rest t).bind fun _ => ih

theorem leads_exportSamples (episodeRefs : List EpisodeRef) :
    Leads dumpsLength settings calls msgId jobId (.export job episodeRefs)
      (exportSamples dumpsLength settings calls jobId job episodeRefs) (fun _ => some .ack) := by
  refine leads_checked (fun _ => rfl) (fun _ => rfl) fun exported => leads_uploadShards _ fun t => ?_
  exact (leadsAt_call (fun _ => rfl) rfl).bind fun _ _ => leadsAt_call (fun _ => rfl) rfl

def afterGetJob : Option ExportJob → WorkerStep
  | none => .ack
  | some job => .updateStatus job

theorem leads_executeJob : Leads dumpsLength settings calls msgId jobId .getJob
    (executeJob dumpsLength settings calls jobId >>= fun _ =>
      TracedHandlers.call (calls.outcome .ack) (World.xack msgId)) (fun _ => none) := by
  have hack : Leads dumpsLength settings calls msgId jobId .ack
      (TracedHandlers.call (calls.outcome .ack) (World.xack msgId)) (fun _ => none) :=
    fun _ => leadsAt_call (fun _ => rfl) rfl
  unfold executeJob
  rw [bind_assoc]
  intro t
  refine (leads_read afterGetJob (fun _ => rfl) (fun w => ?_) t).bind fun row => ?_
  · unfold turn
    cases w.jobs.get? jobId <;> rfl
  · cases row with
    | none =>
      rw [pure_bind]
      exact hack
    | some job =>
      simp only [bind_assoc]
      refine fun t => (leadsAt_call (fun _ => rfl) rfl).bind fun _ => ?_
      refine leads_query (fun _ => rfl) (fun _ => rfl) fun version => ?_
      refine leads_query (fun _ => rfl) (fun _ => rfl) fun episodeRefs => ?_
      exact fun t => (leads_exportSamples episodeRefs t).bind fun _ => hack

theorem ends_lastCall {outcome : Outcome String} {effect : World → World} (herror : ∀ e, step.onError e = none)
    (hturn : step.turn dumpsLength settings calls msgId jobId t.current = .ok ⟨outcome, effect, .ok none⟩) :
    Ends dumpsLength settings calls msgId jobId (some step, t.current)
      (answer (TracedHandlers.call outcome effect) t).2.current := by
  apply Ends.step
  rw [WorkerStep.call, hturn]
  cases outcome with
  | ok => exact .done _
  | raises e =>
    dsimp only
    rw [herror]
    exact .done _
  | raisesLate e =>
    dsimp only
    rw [herror]
    exact .done _

theorem ends_failJob (t : Trace World) (error : String) :
    Ends dumpsLength settings calls msgId jobId (some (getFailedJob error), t.current)
      (answer (failJob calls jobId error) t).2.current := by
  have hturn : (getFailedJob error).turn dumpsLength settings calls msgId jobId t.current =
      .ok ⟨calls.outcome .getFailedJob, id, .ok ((t.current.jobs.get? jobId).map fun _ => fail error)⟩ := rfl
  have hanswer : answer (failJob calls jobId error) t = answer
      (query (calls.outcome .getFailedJob) (fun w : World => w.jobs.get? jobId) >>= fun row => match row with
        | none => pure ()
        | some _ => TracedHandlers.call (calls.outcome .fail) (World.failJob jobId error)) t := rfl
  rw [hanswer]
  cases hread : calls.outcome .getFailedJob with
  | raises e =>
    apply Ends.step
    rw [WorkerStep.call, hturn, hread]
    exact .done _
  | raisesLate e =>
    apply Ends.step
    rw [WorkerStep.call, hturn, hread]
    exact .done _
  | ok =>
    have hrow : answer (query .ok fun w : World => w.jobs.get? jobId : Handler (Trace World) String _) t =
        (.ok (t.current.jobs.get? jobId), t.push t.current) := rfl
    rw [answer_bind_of_ok hrow]
    apply Ends.step
    rw [WorkerStep.call, hturn, hread]
    cases t.current.jobs.get? jobId with
    | none => exact .done _
    | some job => exact ends_lastCall (t := t.push t.current) (fun _ => rfl) rfl

end Stages

end Alone

theorem ends_handleMessage (dumpsLength : Json → ℕ) (settings : Settings) (calls : Calls) (msgId : String)
    (jobId : Uuid) (fields : List (String × String)) (w : World) (hid : (fields.lookup "job_id").getD "" ≠ "")
    (hjob : Uuid.parse ((fields.lookup "job_id").getD "") = some jobId) :
    WorkerStep.Ends dumpsLength settings calls msgId jobId (some .getJob, w)
      (answer (handleMessage dumpsLength settings calls msgId fields) ⟨w, []⟩).2.current := by
  have hexecute : LeadsAt dumpsLength settings calls msgId jobId ⟨w, []⟩ .getJob
      (executeJob dumpsLength settings calls jobId >>= fun _ =>
        TracedHandlers.call (calls.outcome .ack) (World.xack msgId)) (fun _ => none) := leads_executeJob _
  unfold handleMessage
  rw [if_neg hid, hjob, found, answer_bind_of_ok (answer_require _ _), answer_recover]
  rcases hans : answer (executeJob dumpsLength settings calls jobId >>= fun _ =>
    TracedHandlers.call (calls.outcome .ack) (World.xack msgId)) (⟨w, []⟩ : Trace World) with ⟨r, t⟩
  cases r with
  | ok a => exact (hexecute t.current).1 a t hans (.done _)
  | error e => exact (hexecute _).2 e t hans (ends_failJob t e)

def WorkerStep.site : WorkerStep → Call
  | getJob => .getJob
  | updateStatus _ => .updateStatus
  | getVersion _ => .getVersion
  | resolve .. => .resolve
  | .export .. => .export
  | upload _ _ shard _ => .upload shard.2
  | updateProgress _ _ shard _ => .updateProgress shard.2
  | uploadManifest .. => .uploadManifest
  | complete _ => .complete
  | ack => .ack
  | getFailedJob _ => .getFailedJob
  | fail _ => .fail

theorem call_site (dumpsLength : Json → ℕ) (settings : Settings) (calls : Calls) (msgId : String) (jobId : Uuid)
    (w : World) (step : WorkerStep) :
    step.call dumpsLength settings { calls with outcome := fun _ => calls.outcome step.site } msgId jobId w =
      step.call dumpsLength settings calls msgId jobId w := by
  cases step <;> rfl

structure Entry where
  id : String
  fields : List (String × String)

def Entry.jobId (entry : Entry) : Option Uuid :=
  if (entry.fields.lookup "job_id").getD "" = "" then none
  else Uuid.parse ((entry.fields.lookup "job_id").getD "")

structure Stores where
  world : World
  stream : List Entry

/-- A request to `_create_job`, with the `uuid4` of its row and the id that Redis gives its message. -/
structure CreateRequest where
  versionId : Uuid
  format : String
  targetBucket : String
  targetPrefix : Option String
  user : CurrentUser
  jobId : Uuid
  msgId : String

inductive CreateStep
  | getVersion
  | commit
  | refresh
  | xadd

def checkFormat (format : String) : Except HttpError Unit :=
  if format = "webdataset" ∨ format = "raw" then .ok () else .error ⟨422, "format must be 'webdataset' or 'raw'"⟩

def checkVersion : Option DatasetVersion → Except HttpError Unit
  | some _ => .ok ()
  | none => .error ⟨404, "dataset version not found"⟩

namespace CreateRequest

variable (request : CreateRequest)

def job : ExportJob :=
  { datasetVersionId := request.versionId
    format := request.format
    targetBucket := request.targetBucket
    targetPrefix := some (match request.targetPrefix with
      | none => "exports/" ++ request.jobId.text
      | some path => if path = "" then "exports/" ++ request.jobId.text else path)
    status := .pending
    progressPct := some 0
    manifestUrl := none
    errorMessage := none
    startedAt := none
    completedAt := none }

def insert (s : Stores) : Option Stores :=
  if h : request.jobId ∈ s.world.jobs.keys then none
  else some { s with world := { s.world with jobs := s.world.jobs.append request.jobId request.job h } }

def publish (s : Stores) : Stores :=
  { s with stream := s.stream ++ [⟨request.msgId, [("job_id", request.jobId.text)]⟩] }

end CreateRequest

def createJob (request : CreateRequest) (outcome : CreateStep → Outcome HttpError) :
    Handler (Trace Stores) HttpError ExportJob := do
  require (checkFormat request.format)
  let version ← query (outcome .getVersion) (fun s : Stores => s.world.database.versions.get? request.versionId)
  require (checkVersion version)
  let _ ← require (parseId request.user.userId)
  let s ← observe
  let t ← require (orRaise internalError (request.insert s))
  call (outcome .commit) (fun _ => t)
  let row ← query (outcome .refresh) (fun s => s.world.jobs.get? request.jobId)
  let job ← require (orRaise internalError row)
  call (outcome .xadd) request.publish
  return job

namespace CreateStep

variable (request : CreateRequest)

def answer (s : Stores) : CreateStep → Option (Option CreateStep × Stores)
  | getVersion => some (match checkVersion (s.world.database.versions.get? request.versionId),
        parseId request.user.userId with
      | .ok _, .ok _ => some commit
      | _, _ => none, s)
  | commit => (request.insert s).map fun t => (some refresh, t)
  | refresh => some ((s.world.jobs.get? request.jobId).map fun _ => xadd, s)
  | xadd => some (none, request.publish s)

def call {ε : Type} (outcome : Outcome ε) (s : Stores) (step : CreateStep) : Option CreateStep × Stores :=
  match step.answer request s with
  | none => (none, s)
  | some (rest, t) => match outcome with
    | .ok => (rest, t)
    | .raises _ => (none, s)
    | .raisesLate _ => (none, t)

def alone (outcome : CreateStep → Outcome HttpError) : ℕ → Option CreateStep × Stores → Stores
  | 0, (_, s) => s
  | _ + 1, (none, s) => s
  | n + 1, (some step, s) => alone outcome n (step.call request (outcome step) s)

end CreateStep

section CreatesAlone

open CreateStep

variable {request : CreateRequest} {outcome : CreateStep → Outcome HttpError} {α : Type}

theorem CreateStep.alone_none (n : ℕ) (s : Stores) : alone request outcome n (none, s) = s := by
  cases n <;> rfl

theorem alone_step {n : ℕ} {step : CreateStep} {rest : Option CreateStep} (effect : Stores → Stores) {t : Trace Stores}
    {k : Handler (Trace Stores) HttpError α} (hanswer : step.answer request t.current = some (rest, effect t.current))
    (hrest : alone request outcome n (rest, effect t.current) =
      (Handlers.answer k (t.push (effect t.current))).2.current) :
    alone request outcome (n + 1) (some step, t.current) =
      (Handlers.answer (TracedHandlers.call (outcome step) effect >>= fun _ => k) t).2.current := by
  rw [alone, CreateStep.call, hanswer]
  cases outcome step with
  | ok => exact hrest
  | raises e => exact alone_none ..
  | raisesLate e => exact alone_none ..

theorem alone_query {n : ℕ} {step : CreateStep} {rest : Option CreateStep} {f : Stores → α} {t : Trace Stores}
    {k : α → Handler (Trace Stores) HttpError ExportJob}
    (hanswer : step.answer request t.current = some (rest, t.current))
    (hrest : alone request outcome n (rest, t.current) =
      (Handlers.answer (k (f t.current)) (t.push t.current)).2.current) :
    alone request outcome (n + 1) (some step, t.current) =
      (Handlers.answer (query (outcome step) f >>= k) t).2.current := by
  rw [query, bind_assoc]
  exact alone_step id hanswer hrest

theorem alone_xadd (t : Trace Stores) (job : ExportJob) :
    alone request outcome 1 (some .xadd, t.current) =
      (Handlers.answer (TracedHandlers.call (outcome .xadd) request.publish >>= fun _ => pure job) t).2.current :=
  alone_step request.publish rfl rfl

theorem alone_refresh (t : Trace Stores) :
    alone request outcome 2 (some .refresh, t.current) =
      (Handlers.answer (query (outcome .refresh) (fun s => s.world.jobs.get? request.jobId) >>= fun row =>
        require (orRaise internalError row) >>= fun job =>
          TracedHandlers.call (outcome .xadd) request.publish >>= fun _ => pure job) t).2.current := by
  apply alone_query rfl
  cases t.current.world.jobs.get? request.jobId with
  | none => exact alone_none ..
  | some job => exact alone_xadd (t.push t.current) job

theorem alone_commit (t : Trace Stores) :
    alone request outcome 3 (some .commit, t.current) =
      (Handlers.answer (require (orRaise internalError (request.insert t.current)) >>= fun u =>
        TracedHandlers.call (outcome .commit) (fun _ => u) >>= fun _ =>
          query (outcome .refresh) (fun s => s.world.jobs.get? request.jobId) >>= fun row =>
            require (orRaise internalError row) >>= fun job =>
              TracedHandlers.call (outcome .xadd) request.publish >>= fun _ => pure job) t).2.current := by
  cases hinsert : request.insert t.current with
  | none =>
    rw [alone, CreateStep.call, CreateStep.answer, hinsert]
    exact alone_none ..
  | some u =>
    refine alone_step (fun _ => u) ?_ (alone_refresh (t.push u))
    rw [CreateStep.answer, hinsert, Option.map_some]

theorem alone_createJob (s : Stores) (hformat : checkFormat request.format = .ok ()) :
    alone request outcome 4 (some .getVersion, s) =
      (Handlers.answer (createJob request outcome) ⟨s, []⟩).2.current := by
  let t : Trace Stores := ⟨s, []⟩
  unfold createJob
  rw [hformat, answer_bind_of_ok (answer_require _ _)]
  change alone request outcome 4 (some .getVersion, t.current) = _
  apply alone_query rfl
  cases checkVersion (t.current.world.database.versions.get? request.versionId) with
  | error e => exact alone_none ..
  | ok version =>
    cases parseId request.user.userId with
    | error e => exact alone_none ..
    | ok userId => exact alone_commit (t.push s)

end CreatesAlone

end Embedai.ExportWorker
