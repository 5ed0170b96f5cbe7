import Embedai.ExportJobRows

namespace Embedai.ExportWorker

open DatasetService Handlers TracedHandlers TransitionSystems

section Runs

variable (dumpsLength : Json → ℕ) (settings : Settings) (w₀ : World)

def Stores.jobIds (stores : Stores) : List Uuid := stores.stream.filterMap Entry.jobId

inductive ThreadAt (stores : Stores) (delivered : ℕ) : Thread → Prop
  | creating {request : CreateRequest} {step : CreateStep} (h : (Thread.create request step).owes = none) :
      ThreadAt stores delivered (.create request step)
  | committed {request : CreateRequest} {step : CreateStep} {row : ExportJob} (hyoung : request.jobId ∉ w₀.jobs.keys)
      (hsilent : request.jobId ∉ stores.jobIds) (hrow : stores.world.jobs.get? request.jobId = some row)
      (hnew : row.IsNew) : ThreadAt stores delivered (.create request step)
  | handling {msgId : String} {jobId : Uuid} {calls : Calls} {step : WorkerStep} {row : ExportJob}
      (hmessage : jobId ∈ (stores.stream.take delivered).filterMap Entry.jobId)
      (hrow : stores.world.jobs.get? jobId = some row)
      (hat : RowAt dumpsLength settings stores.world.database stores.world.files stores.world.uploads jobId step row) :
      ThreadAt stores delivered (.handle msgId jobId calls step)
  | skipping {msgId : String} : ThreadAt stores delivered (.skip msgId)

structure Tracked (s : System) : Prop where
  delivered : s.delivered ≤ s.stores.stream.length
  old : ∀ id ∈ w₀.jobs.keys, s.stores.world.jobs.get? id = w₀.jobs.get? id
  rows : ∀ id row, id ∉ w₀.jobs.keys → s.stores.world.jobs.get? id = some row →
    Lawful dumpsLength settings s.stores.world.database s.stores.world.uploads id row
  messages : s.stores.jobIds.Nodup
  young : ∀ id ∈ s.stores.jobIds, id ∉ w₀.jobs.keys
  published : ∀ id ∈ s.stores.jobIds, ∃ row, s.stores.world.jobs.get? id = some row
  waiting : ∀ id ∈ (s.stores.stream.drop s.delivered).filterMap Entry.jobId,
    ∃ row, s.stores.world.jobs.get? id = some row ∧ row.IsNew
  threads : ∀ tid th, s.threads.get? tid = some th → ThreadAt dumpsLength settings w₀ s.stores s.delivered th
  alone : ∀ tid tid' th th' id, s.threads.get? tid = some th → s.threads.get? tid' = some th' → th.owes = some id →
    th'.owes = some id → tid = tid'

variable {dumpsLength settings w₀} {s t : System} {stores : Stores} {delivered tid : ℕ} {th : Thread}
  {rest : Option Thread} {own : Option Uuid} {id : Uuid}

theorem jobIds_split (stores : Stores) (n : ℕ) :
    stores.jobIds = (stores.stream.take n).filterMap Entry.jobId ++ (stores.stream.drop n).filterMap Entry.jobId := by
  rw [← List.filterMap_append, List.take_append_drop, Stores.jobIds]

theorem Tracked.owned (hs : Tracked dumpsLength settings w₀ s) (hth : s.threads.get? tid = some th)
    (howes : th.owes = some id) : id ∉ w₀.jobs.keys ∧ (∃ row, s.stores.world.jobs.get? id = some row) ∧
      id ∉ (s.stores.stream.drop s.delivered).filterMap Entry.jobId := by
  have hsplit := jobIds_split s.stores s.delivered
  cases hs.threads tid th hth with
  | creating h =>
    rw [h] at howes
    cases howes
  | @committed request step row hyoung hsilent hrow hnew =>
    have hid : request.jobId = id := by
      cases step with
      | refresh => exact Option.some.inj howes
      | xadd => exact Option.some.inj howes
      | _ => cases howes
    subst hid
    rw [hsplit, List.mem_append, not_or] at hsilent
    exact ⟨hyoung, ⟨row, hrow⟩, hsilent.2⟩
  | handling hmessage hrow hat =>
    cases howes
    have hmem : id ∈ s.stores.jobIds := by
      rw [hsplit]
      exact List.mem_append_left _ hmessage
    have hnodup := hs.messages
    rw [hsplit] at hnodup
    exact ⟨hs.young id hmem, ⟨_, hrow⟩, fun hwaits => List.disjoint_of_nodup_append hnodup hmessage hwaits⟩
  | skipping => cases howes

structure OwnJob (dumpsLength : Json → ℕ) (settings : Settings) (w₀ : World) (s : System) (stores : Stores) (tid : ℕ)
    (id : Uuid) : Prop where
  young : id ∉ w₀.jobs.keys
  silent : id ∉ (s.stores.stream.drop s.delivered).filterMap Entry.jobId
  row : ∃ row, stores.world.jobs.get? id = some row ∧
    Lawful dumpsLength settings stores.world.database stores.world.uploads id row
  alone : ∀ tid' th', tid' ≠ tid → s.threads.get? tid' = some th' → th'.owes ≠ some id

structure Outside (settings : Settings) (own : Option Uuid) (w t : World) : Prop where
  database : t.database = w.database
  uploads : w.uploads ⊆ t.uploads
  jobs : ∀ id, own ≠ some id → t.jobs.get? id = w.jobs.get? id
  files : ∀ id, own ≠ some id → ∀ name,
    t.files (outputPath settings id name) = w.files (outputPath settings id name)

theorem Outside.refl (settings : Settings) (own : Option Uuid) (w : World) : Outside settings own w w :=
  ⟨rfl, List.Subset.refl _, fun _ _ => rfl, fun _ _ _ => rfl⟩

theorem ThreadAt.keep (h : ThreadAt dumpsLength settings w₀ s.stores delivered th)
    (houtside : Outside settings own s.stores.world stores.world) (hstream : stores.stream = s.stores.stream)
    (hown : ∀ id, own = some id → th.owes ≠ some id) : ThreadAt dumpsLength settings w₀ stores delivered th := by
  have hids : stores.jobIds = s.stores.jobIds := by rw [Stores.jobIds, hstream, Stores.jobIds]
  cases h with
  | creating h => exact .creating h
  | @committed request step row hyoung hsilent hrow hnew =>
    by_cases howes : (Thread.create request step).owes = none
    · exact .creating howes
    · have hid : own ≠ some request.jobId := by
        intro he
        have hnot := hown _ he
        cases step with
        | refresh => exact hnot rfl
        | xadd => exact hnot rfl
        | _ => exact howes rfl
      exact .committed hyoung (hids ▸ hsilent) ((houtside.jobs _ hid).trans hrow) hnew
  | @handling msgId jobId calls step row hmessage hrow hat =>
    have hid : own ≠ some jobId := fun he => hown _ he rfl
    refine .handling (hstream ▸ hmessage) ((houtside.jobs _ hid).trans hrow) ?_
    rw [houtside.database]
    exact hat.mono houtside.uploads (houtside.files _ hid)
  | skipping => exact .skipping

theorem Tracked.assign (hs : Tracked dumpsLength settings w₀ s)
    (houtside : Outside settings own s.stores.world stores.world) (hstream : stores.stream = s.stores.stream)
    (hown : ∀ id, own = some id → OwnJob dumpsLength settings w₀ s stores tid id)
    (hrest : ∀ th', rest = some th' → ThreadAt dumpsLength settings w₀ stores s.delivered th' ∧
      ∀ id, th'.owes = some id → own = some id) :
    Tracked dumpsLength settings w₀ ⟨stores, s.delivered, s.threads.assign tid rest⟩ := by
  have hids : stores.jobIds = s.stores.jobIds := by rw [Stores.jobIds, hstream, Stores.jobIds]
  have hget {tid' : ℕ} {th' : Thread} (h : (s.threads.assign tid rest).get? tid' = some th') :
      tid' = tid ∧ rest = some th' ∨ tid' ≠ tid ∧ s.threads.get? tid' = some th' := by
    rw [OrderedDict.get?_assign] at h
    split_ifs at h with he
    · exact .inl ⟨he, h⟩
    · exact .inr ⟨he, h⟩
  refine ⟨?_, fun id hid => ?_, fun id row hid hrow => ?_, ?_, fun id hid => ?_, fun id hid => ?_, fun id hid => ?_,
    fun tid' th' h => ?_, fun i j th₁ th₂ id hi hj h₁ h₂ => ?_⟩
  · rw [hstream]
    exact hs.delivered
  · have hne : own ≠ some id := fun he => (hown id he).young hid
    exact (houtside.jobs id hne).trans (hs.old id hid)
  · by_cases he : own = some id
    · obtain ⟨row', hrow', hlawful⟩ := (hown id he).row
      have hsame := hrow'.symm.trans hrow
      rw [Option.some.injEq] at hsame
      exact hsame ▸ hlawful
    · have hold := hs.rows id row hid ((houtside.jobs id he).symm.trans hrow)
      change Lawful dumpsLength settings stores.world.database stores.world.uploads id row
      rw [houtside.database]
      exact hold.mono houtside.uploads
  · rw [hids]
    exact hs.messages
  · rw [hids] at hid
    exact hs.young id hid
  · rw [hids] at hid
    by_cases he : own = some id
    · obtain ⟨row, hrow, -⟩ := (hown id he).row
      exact ⟨row, hrow⟩
    · obtain ⟨row, hrow⟩ := hs.published id hid
      exact ⟨row, (houtside.jobs id he).trans hrow⟩
  · rw [hstream] at hid
    have hne : own ≠ some id := fun he => (hown id he).silent hid
    obtain ⟨row, hrow, hnew⟩ := hs.waiting id hid
    exact ⟨row, (houtside.jobs id hne).trans hrow, hnew⟩
  · rcases hget h with ⟨-, hsome⟩ | ⟨hne, hold⟩
    · exact (hrest th' hsome).1
    · exact (hs.threads tid' th' hold).keep houtside hstream fun id he => (hown id he).alone tid' th' hne hold
  · rcases hget hi with ⟨hitid, hsome₁⟩ | ⟨hne₁, hold₁⟩ <;> rcases hget hj with ⟨hjtid, hsome₂⟩ | ⟨hne₂, hold₂⟩
    · rw [hitid, hjtid]
    · exact absurd h₂ ((hown id ((hrest th₁ hsome₁).2 id h₁)).alone j th₂ hne₂ hold₂)
    · exact absurd h₁ ((hown id ((hrest th₂ hsome₂).2 id h₂)).alone i th₁ hne₁ hold₁)
    · exact hs.alone i j th₁ th₂ id hold₁ hold₂ h₁ h₂

theorem Tracked.assign_same (hs : Tracked dumpsLength settings w₀ s) (hth : s.threads.get? tid = some th)
    (houtside : Outside settings none s.stores.world stores.world) (hstream : stores.stream = s.stores.stream)
    (hrest : ∀ th', rest = some th' → ThreadAt dumpsLength settings w₀ stores s.delivered th' ∧
      ∀ id, th'.owes = some id → th.owes = some id) :
    Tracked dumpsLength settings w₀ ⟨stores, s.delivered, s.threads.assign tid rest⟩ := by
  have houtside' : Outside settings th.owes s.stores.world stores.world :=
    ⟨houtside.database, houtside.uploads, fun id _ => houtside.jobs id nofun, fun id _ => houtside.files id nofun⟩
  refine hs.assign houtside' hstream (fun id hid => ?_) hrest
  obtain ⟨hyoung, ⟨row, hrow⟩, hwaits⟩ := hs.owned hth hid
  refine ⟨hyoung, hwaits, ⟨row, (houtside.jobs id nofun).trans hrow, ?_⟩, fun tid' th' hne hth' howes => hne ?_⟩
  · rw [houtside.database]
    exact (hs.rows id row hyoung hrow).mono houtside.uploads
  · exact hs.alone tid' tid th' th id hth' hth howes hid

theorem isNew_job (request : CreateRequest) : request.job.IsNew := ⟨rfl, rfl, rfl, rfl, rfl, rfl⟩

section Creates

variable {request : CreateRequest} {outcome : Outcome String} {step : CreateStep} {rest : Option CreateStep}

theorem create_call_cases (request : CreateRequest) (outcome : Outcome String) (stores : Stores) (step : CreateStep) :
    step.call request outcome stores = (none, stores) ∨
      ∃ next stores', step.answer request stores = some (next, stores') ∧
        ∃ rest, (rest = next ∨ rest = none) ∧ step.call request outcome stores = (rest, stores') := by
  unfold CreateStep.call
  cases hanswer : step.answer request stores with
  | none => exact .inl rfl
  | some p =>
    obtain ⟨next, stores'⟩ := p
    cases outcome with
    | ok => exact .inr ⟨next, stores', rfl, next, .inl rfl, rfl⟩
    | raises e => exact .inl rfl
    | raisesLate e => exact .inr ⟨next, stores', rfl, none, .inr rfl, rfl⟩

theorem tracked_commit (hs : Tracked dumpsLength settings w₀ s) (hinsert : request.insert s.stores = some stores)
    (hrest : ∀ step', rest = some step' → step' = .refresh) :
    Tracked dumpsLength settings w₀ ⟨stores, s.delivered, s.threads.assign tid (rest.map (Thread.create request))⟩ := by
  obtain ⟨hfresh, hstream, hothers⟩ := insert_eq_some hinsert
  have hrow : stores.world.jobs.get? request.jobId = some request.job := by
    unfold CreateRequest.insert at hinsert
    rw [dif_neg hfresh, Option.some.injEq] at hinsert
    rw [← hinsert, OrderedDict.get?_append, if_pos rfl]
  have houtside : Outside settings (some request.jobId) s.stores.world stores.world := by
    unfold CreateRequest.insert at hinsert
    rw [dif_neg hfresh, Option.some.injEq] at hinsert
    subst hinsert
    exact ⟨rfl, List.Subset.refl _, fun id hid => hothers id fun he => hid (congrArg some he.symm), fun _ _ _ => rfl⟩
  have hnone : s.stores.world.jobs.get? request.jobId = none := OrderedDict.get?_eq_none.mpr hfresh
  have hyoung : request.jobId ∉ w₀.jobs.keys := by
    intro hold
    obtain ⟨row, hold'⟩ := OrderedDict.mem_keys.mp hold
    rw [hs.old _ hold, hold'] at hnone
    cases hnone
  have hsilent : request.jobId ∉ s.stores.jobIds := by
    intro hmem
    obtain ⟨row, hrow⟩ := hs.published _ hmem
    rw [hrow] at hnone
    cases hnone
  have hwaits : request.jobId ∉ (s.stores.stream.drop s.delivered).filterMap Entry.jobId := by
    intro hmem
    rw [jobIds_split s.stores s.delivered, List.mem_append] at hsilent
    exact hsilent (.inr hmem)
  refine hs.assign houtside hstream (fun id hid => ?_) fun th' hth' => ?_
  · cases hid
    refine ⟨hyoung, hwaits, ⟨_, hrow, .new (isNew_job request)⟩, fun tid' th' _ hth' howes => ?_⟩
    · obtain ⟨-, ⟨row, hrow⟩, -⟩ := hs.owned hth' howes
      rw [hrow] at hnone
      cases hnone
  · obtain ⟨step', hstep', rfl⟩ := Option.map_eq_some_iff.mp hth'
    cases hrest step' hstep'
    refine ⟨.committed hyoung ?_ hrow (isNew_job request), fun id howes => howes⟩
    rw [Stores.jobIds, hstream]
    exact hsilent

theorem jobIds_publish (request : CreateRequest) (stores : Stores) :
    (request.publish stores).jobIds = stores.jobIds ++ [request.jobId] := by
  rw [Stores.jobIds, CreateRequest.publish, List.filterMap_append, List.filterMap_cons, jobId_entry, List.filterMap_nil,
    Stores.jobIds]

theorem ThreadAt.publish (h : ThreadAt dumpsLength settings w₀ stores delivered th)
    (hdelivered : delivered ≤ stores.stream.length) (howes : th.owes ≠ some request.jobId) :
    ThreadAt dumpsLength settings w₀ (request.publish stores) delivered th := by
  cases h with
  | creating h => exact .creating h
  | @committed request' step row hyoung hsilent hrow hnew =>
    by_cases hnone : (Thread.create request' step).owes = none
    · exact .creating hnone
    · refine .committed hyoung ?_ hrow hnew
      have hne : request'.jobId ≠ request.jobId := by
        intro he
        cases step with
        | refresh => exact howes (congrArg some he)
        | xadd => exact howes (congrArg some he)
        | _ => exact hnone rfl
      rw [jobIds_publish, List.mem_append, not_or, List.mem_singleton]
      exact ⟨hsilent, hne⟩
  | handling hmessage hrow hat =>
    refine .handling ?_ hrow hat
    rw [CreateRequest.publish, List.take_append_of_le_length hdelivered]
    exact hmessage
  | skipping => exact .skipping

theorem tracked_publish (hs : Tracked dumpsLength settings w₀ s)
    (hth : s.threads.get? tid = some (.create request .xadd)) :
    Tracked dumpsLength settings w₀ ⟨request.publish s.stores, s.delivered, s.threads.assign tid none⟩ := by
  obtain ⟨row, hyoung, hsilent, hrow, hnew⟩ : ∃ row, request.jobId ∉ w₀.jobs.keys ∧ request.jobId ∉ s.stores.jobIds ∧
      s.stores.world.jobs.get? request.jobId = some row ∧ row.IsNew := by
    cases hs.threads tid _ hth with
    | creating h => cases h
    | committed hyoung hsilent hrow hnew => exact ⟨_, hyoung, hsilent, hrow, hnew⟩
  have hget {tid' : ℕ} {th' : Thread} (h : (s.threads.assign tid none).get? tid' = some th') :
      tid' ≠ tid ∧ s.threads.get? tid' = some th' := by
    rw [OrderedDict.get?_assign] at h
    split_ifs at h with he
    exact ⟨he, h⟩
  have hdrop : (request.publish s.stores).stream.drop s.delivered =
      s.stores.stream.drop s.delivered ++ [⟨request.msgId, [("job_id", request.jobId.text)]⟩] :=
    List.drop_append_of_le_length hs.delivered
  refine ⟨?_, hs.old, hs.rows, ?_, fun id hid => ?_, fun id hid => ?_, fun id hid => ?_, fun tid' th' h => ?_,
    fun i j th₁ th₂ id hi hj => hs.alone i j th₁ th₂ id (hget hi).2 (hget hj).2⟩
  · change s.delivered ≤ (request.publish s.stores).stream.length
    rw [CreateRequest.publish, List.length_append]
    exact hs.delivered.trans (Nat.le_add_right ..)
  · change ((request.publish s.stores).jobIds).Nodup
    rw [jobIds_publish]
    exact hs.messages.append (List.nodup_singleton _) (List.disjoint_singleton.mpr hsilent)
  · rw [jobIds_publish, List.mem_append, List.mem_singleton] at hid
    rcases hid with hid | rfl
    · exact hs.young id hid
    · exact hyoung
  · rw [jobIds_publish, List.mem_append, List.mem_singleton] at hid
    rcases hid with hid | rfl
    · exact hs.published id hid
    · exact ⟨row, hrow⟩
  · rw [hdrop, List.filterMap_append, List.filterMap_cons, jobId_entry, List.filterMap_nil, List.mem_append,
      List.mem_singleton] at hid
    rcases hid with hid | rfl
    · exact hs.waiting id hid
    · exact ⟨row, hrow, hnew⟩
  · obtain ⟨hne, hold⟩ := hget h
    exact (hs.threads tid' th' hold).publish hs.delivered fun howes =>
      hne (hs.alone tid' tid th' _ _ hold hth howes rfl)

theorem tracked_answer {next : Option CreateStep} (hs : Tracked dumpsLength settings w₀ s)
    (hth : s.threads.get? tid = some (.create request step))
    (hanswer : step.answer request s.stores = some (next, stores)) (hrest : rest = next ∨ rest = none) :
    Tracked dumpsLength settings w₀ ⟨stores, s.delivered, s.threads.assign tid (rest.map (Thread.create request))⟩ := by
  have hstep {step' : CreateStep} (h : rest = some step') : next = some step' := by
    rcases hrest with rfl | rfl
    · exact h
    · cases h
  cases step with
  | getVersion =>
    rw [CreateStep.answer, Option.some.injEq, Prod.mk.injEq] at hanswer
    obtain ⟨hnext, rfl⟩ := hanswer
    refine hs.assign_same hth (.refl settings none _) rfl fun th' hth' => ?_
    obtain ⟨step', hstep', rfl⟩ := Option.map_eq_some_iff.mp hth'
    rw [hstep hstep'] at hnext
    split at hnext
    · cases hnext
      exact ⟨.creating rfl, fun id howes => by cases howes⟩
    · cases hnext
  | commit =>
    obtain ⟨t, hinsert, he⟩ := Option.map_eq_some_iff.mp hanswer
    cases he
    refine tracked_commit hs hinsert fun step' hstep' => ?_
    exact (Option.some.inj (hstep hstep')).symm
  | refresh =>
    rw [CreateStep.answer, Option.some.injEq, Prod.mk.injEq] at hanswer
    obtain ⟨hnext, rfl⟩ := hanswer
    refine hs.assign_same hth (.refl settings none _) rfl fun th' hth' => ?_
    obtain ⟨step', hstep', rfl⟩ := Option.map_eq_some_iff.mp hth'
    rw [hstep hstep'] at hnext
    obtain ⟨_, -, rfl⟩ := Option.map_eq_some_iff.mp hnext
    refine ⟨?_, fun id howes => howes⟩
    cases hs.threads tid _ hth with
    | creating h => cases h
    | committed hyoung hsilent hrow hnew => exact .committed hyoung hsilent hrow hnew
  | xadd =>
    cases hanswer
    have hnone : rest = none := by
      rcases hrest with rfl | rfl <;> rfl
    subst hnone
    exact tracked_publish hs hth

theorem tracked_create (hs : Tracked dumpsLength settings w₀ s) (hth : s.threads.get? tid = some (.create request step))
    (outcome : Outcome String) :
    Tracked dumpsLength settings w₀ ⟨(Thread.call dumpsLength settings outcome s.stores (.create request step)).2,
      s.delivered, s.threads.assign tid
        (Thread.call dumpsLength settings outcome s.stores (.create request step)).1⟩ := by
  rw [Thread.call]
  rcases create_call_cases request outcome s.stores step with hcall | ⟨next, stores, hanswer, rest, hrest, hcall⟩
  · rw [hcall]
    exact hs.assign_same hth (.refl settings none _) rfl fun th' hth' => by cases hth'
  · rw [hcall]
    exact tracked_answer hs hth hanswer hrest

end Creates

section Handles

theorem outside_call {calls : Calls} {msgId : String} {step : WorkerStep} {w : World} {row : ExportJob}
    (h : CallRow dumpsLength settings id w row (step.call dumpsLength settings calls msgId id w)) :
    Outside settings (some id) w (step.call dumpsLength settings calls msgId id w).2 :=
  ⟨h.database, h.uploads, fun _ hj => call_others fun he => hj (congrArg some he.symm),
    fun _ hj => call_files fun he => hj (congrArg some he.symm)⟩

theorem tracked_handle {msgId : String} {jobId : Uuid} {calls : Calls} {step : WorkerStep}
    (hs : Tracked dumpsLength settings w₀ s) (hth : s.threads.get? tid = some (.handle msgId jobId calls step))
    (outcome : Outcome String) :
    Tracked dumpsLength settings w₀
      ⟨(Thread.call dumpsLength settings outcome s.stores (.handle msgId jobId calls step)).2, s.delivered,
        s.threads.assign tid
        (Thread.call dumpsLength settings outcome s.stores (.handle msgId jobId calls step)).1⟩ := by
  cases hs.threads tid _ hth with
  | handling hmessage hrow hat =>
    have hcall := row_call { calls with outcome := fun _ => outcome } msgId hrow hat
    obtain ⟨row', hrow', -, hlawful, hrest⟩ := hcall.row
    obtain ⟨hyoung, -, hwaits⟩ := hs.owned hth rfl
    refine hs.assign (outside_call hcall) rfl (fun id hid => ?_) fun th' hth' => ?_
    · cases hid
      exact ⟨hyoung, hwaits, ⟨row', hrow', hlawful⟩, fun tid' th' hne hth' howes =>
        hne (hs.alone tid' tid th' _ _ hth' hth howes rfl)⟩
    · obtain ⟨step', hstep', rfl⟩ := Option.map_eq_some_iff.mp hth'
      exact ⟨.handling hmessage hrow' (hrest step' hstep'), fun id howes => howes⟩

theorem ThreadAt.read (h : ThreadAt dumpsLength settings w₀ stores delivered th) {delivered' : ℕ}
    (hle : delivered ≤ delivered') : ThreadAt dumpsLength settings w₀ stores delivered' th := by
  cases h with
  | creating h => exact .creating h
  | committed hyoung hsilent hrow hnew => exact .committed hyoung hsilent hrow hnew
  | handling hmessage hrow hat =>
    exact .handling (((List.take_sublist_take_left hle).filterMap _).subset hmessage) hrow hat
  | skipping => exact .skipping

theorem Tracked.deliver {entry : Entry} (hs : Tracked dumpsLength settings w₀ s)
    (hentry : s.stores.stream[s.delivered]? = some entry)
    (hrest : ∀ th', rest = some th' → ThreadAt dumpsLength settings w₀ s.stores (s.delivered + 1) th' ∧
      ∀ id, th'.owes = some id → entry.jobId = some id) :
    Tracked dumpsLength settings w₀ ⟨s.stores, s.delivered + 1, s.threads.assign tid rest⟩ := by
  obtain ⟨hlt, hget⟩ := List.getElem?_eq_some_iff.mp hentry
  have hdrop := List.drop_eq_getElem_cons hlt
  rw [hget] at hdrop
  have hother {tid' : ℕ} {th' : Thread} (h : (s.threads.assign tid rest).get? tid' = some th') :
      rest = some th' ∧ tid' = tid ∨ s.threads.get? tid' = some th' := by
    rw [OrderedDict.get?_assign] at h
    split_ifs at h with he
    · exact .inl ⟨h, he⟩
    · exact .inr h
  have hwaits {id : Uuid} (hid : entry.jobId = some id) :
      id ∈ (s.stores.stream.drop s.delivered).filterMap Entry.jobId := by
    rw [hdrop]
    exact List.mem_filterMap.mpr ⟨entry, List.mem_cons_self .., hid⟩
  refine ⟨hlt, hs.old, hs.rows, hs.messages, hs.young, hs.published, fun id hid => ?_, fun tid' th' h => ?_,
    fun i j th₁ th₂ id hi hj h₁ h₂ => ?_⟩
  · exact hs.waiting id (((List.drop_sublist_drop_left _ (Nat.le_succ _)).filterMap _).subset hid)
  · rcases hother h with ⟨hsome, -⟩ | hold
    · exact (hrest th' hsome).1
    · exact (hs.threads tid' th' hold).read (Nat.le_succ _)
  · rcases hother hi with ⟨hsome₁, hi⟩ | hold₁ <;> rcases hother hj with ⟨hsome₂, hj⟩ | hold₂
    · rw [hi, hj]
    · exact absurd (hwaits ((hrest th₁ hsome₁).2 id h₁)) (hs.owned hold₂ h₂).2.2
    · exact absurd (hwaits ((hrest th₂ hsome₂).2 id h₂)) (hs.owned hold₁ h₁).2.2
    · exact hs.alone i j th₁ th₂ id hold₁ hold₂ h₁ h₂

theorem threadAt_ofEntry {entry : Entry} (hs : Tracked dumpsLength settings w₀ s)
    (hentry : s.stores.stream[s.delivered]? = some entry) (calls : Calls) {th' : Thread}
    (h : Thread.ofEntry entry calls = some th') : ThreadAt dumpsLength settings w₀ s.stores (s.delivered + 1) th' ∧
      ∀ id, th'.owes = some id → entry.jobId = some id := by
  unfold Thread.ofEntry at h
  split_ifs at h with hempty
  · cases h
    exact ⟨.skipping, fun id howes => by cases howes⟩
  · obtain ⟨jobId, hjobId, rfl⟩ := Option.map_eq_some_iff.mp h
    obtain ⟨hlt, hget⟩ := List.getElem?_eq_some_iff.mp hentry
    have htake : entry ∈ s.stores.stream.take (s.delivered + 1) := by
      rw [← hget]
      exact List.mem_take_iff_getElem.mpr ⟨s.delivered, by omega, rfl⟩
    have hdrop : entry ∈ s.stores.stream.drop s.delivered := by
      rw [List.drop_eq_getElem_cons hlt, hget]
      exact List.mem_cons_self ..
    obtain ⟨row, hrow, hnew⟩ := hs.waiting jobId (List.mem_filterMap.mpr ⟨entry, hdrop, hjobId⟩)
    refine ⟨.handling (List.mem_filterMap.mpr ⟨entry, htake, hjobId⟩) hrow (.getJob hnew), fun id howes => ?_⟩
    cases howes
    exact hjobId

end Handles

theorem tracked_call (hs : Tracked dumpsLength settings w₀ s) (hth : s.threads.get? tid = some th)
    (outcome : Outcome String) :
    Tracked dumpsLength settings w₀ ⟨(th.call dumpsLength settings outcome s.stores).2, s.delivered,
      s.threads.assign tid (th.call dumpsLength settings outcome s.stores).1⟩ := by
  cases th with
  | create request step => exact tracked_create hs hth outcome
  | handle msgId jobId calls step => exact tracked_handle hs hth outcome
  | skip msgId =>
    refine hs.assign_same hth ?_ ?_ fun th' hth' => by cases hth'
    · cases outcome <;> exact ⟨rfl, List.Subset.refl _, fun _ _ => rfl, fun _ _ _ => rfl⟩
    · cases outcome <;> rfl

theorem tracked_next {a : Action} (hs : Tracked dumpsLength settings w₀ s)
    (h : next dumpsLength settings s a = some t) : Tracked dumpsLength settings w₀ t := by
  cases a with
  | request tid request =>
    obtain ⟨-, hnext⟩ := Option.ite_none_left_eq_some.mp h
    cases hformat : checkFormat request.format with
    | error e =>
      rw [hformat] at hnext
      cases hnext
      exact hs
    | ok u =>
      rw [hformat] at hnext
      cases hnext
      refine hs.assign (.refl settings none _) rfl (fun id hid => by cases hid) fun th' hth' => ?_
      cases hth'
      exact ⟨.creating rfl, fun id howes => by cases howes⟩
  | read tid outcome calls =>
    obtain ⟨-, hnext⟩ := Option.ite_none_left_eq_some.mp h
    obtain ⟨entry, hentry, rfl⟩ := Option.map_eq_some_iff.mp hnext
    cases outcome with
    | ok => exact hs.deliver hentry fun th' hth' => threadAt_ofEntry hs hentry calls hth'
    | raises e => exact hs
    | raisesLate e =>
      obtain ⟨hlt, -⟩ := List.getElem?_eq_some_iff.mp hentry
      refine ⟨hlt, hs.old, hs.rows, hs.messages, hs.young, hs.published, fun id hid => ?_,
        fun tid' th' h => (hs.threads tid' th' h).read (Nat.le_succ _), hs.alone⟩
      exact hs.waiting id (((List.drop_sublist_drop_left _ (Nat.le_succ _)).filterMap _).subset hid)
  | call tid outcome =>
    obtain ⟨th, hth, rfl⟩ := Option.map_eq_some_iff.mp h
    exact tracked_call hs hth outcome
  | crash tid =>
    obtain ⟨th, hth, hworker⟩ := Option.bind_eq_some_iff.mp h
    obtain ⟨-, he⟩ := Option.ite_none_right_eq_some.mp hworker
    cases he
    exact hs.assign_same hth (.refl settings none _) rfl fun th' hth' => by cases hth'

theorem tracked_start (dumpsLength : Json → ℕ) (settings : Settings) (w : World) :
    Tracked dumpsLength settings w (start w) := by
  refine ⟨le_rfl, fun id _ => rfl, fun id row hid hrow => ?_, List.nodup_nil, ?_, ?_, ?_, ?_, ?_⟩
  · exact absurd (OrderedDict.mem_keys.mpr ⟨row, hrow⟩) hid
  · intro id hid
    cases hid
  · intro id hid
    cases hid
  · intro id hid
    cases hid
  · intro tid th h
    cases h
  · intro tid tid' th th' id h
    cases h

theorem get?_create_call {request : CreateRequest} {step : CreateStep} {row : ExportJob}
    (hrow : stores.world.jobs.get? id = some row) (outcome : Outcome String) :
    (step.call request outcome stores).2.world.jobs.get? id = some row := by
  rcases create_call_cases request outcome stores step with hcall | ⟨next, stores, hanswer, rest, -, hcall⟩
  · rw [hcall]
    exact hrow
  · rw [hcall]
    cases step with
    | commit =>
      obtain ⟨t, hinsert, he⟩ := Option.map_eq_some_iff.mp hanswer
      cases he
      obtain ⟨hfresh, -, hothers⟩ := insert_eq_some hinsert
      refine (hothers id ?_).trans hrow
      rintro rfl
      exact hfresh (OrderedDict.mem_keys.mpr ⟨row, hrow⟩)
    | getVersion =>
      cases hanswer
      exact hrow
    | refresh =>
      cases hanswer
      exact hrow
    | xadd =>
      cases hanswer
      exact hrow

theorem moves_next {a : Action} {row : ExportJob} (hs : Tracked dumpsLength settings w₀ s)
    (h : next dumpsLength settings s a = some t) (hrow : s.stores.world.jobs.get? id = some row) :
    ∃ row', t.stores.world.jobs.get? id = some row' ∧ Moves row row' := by
  have hsame (hstores : t.stores = s.stores) : ∃ row', t.stores.world.jobs.get? id = some row' ∧ Moves row row' :=
    ⟨row, by rw [hstores, hrow], .refl row⟩
  cases a with
  | request tid request =>
    obtain ⟨-, hnext⟩ := Option.ite_none_left_eq_some.mp h
    split at hnext
    · cases hnext
      exact hsame rfl
    · cases hnext
      exact hsame rfl
  | read tid outcome calls =>
    obtain ⟨-, hnext⟩ := Option.ite_none_left_eq_some.mp h
    obtain ⟨entry, -, rfl⟩ := Option.map_eq_some_iff.mp hnext
    cases outcome <;> exact hsame rfl
  | call tid outcome =>
    obtain ⟨th, hth, rfl⟩ := Option.map_eq_some_iff.mp h
    cases th with
    | create request step => exact ⟨row, get?_create_call hrow outcome, .refl row⟩
    | skip msgId => cases outcome <;> exact ⟨row, hrow, .refl row⟩
    | handle msgId jobId calls step =>
      by_cases hid : id = jobId
      · subst hid
        cases hs.threads tid _ hth with
        | handling hmessage hrow' hat =>
          have hsame := hrow'.symm.trans hrow
          rw [Option.some.injEq] at hsame
          subst hsame
          obtain ⟨row', hrow', hmoves, -⟩ :=
            (row_call { calls with outcome := fun _ => outcome } msgId hrow hat).row
          exact ⟨row', hrow', hmoves⟩
      · exact ⟨row, (call_others hid).trans hrow, .refl row⟩
  | crash tid =>
    obtain ⟨th, -, hworker⟩ := Option.bind_eq_some_iff.mp h
    obtain ⟨-, he⟩ := Option.ite_none_right_eq_some.mp hworker
    cases he
    exact hsame rfl

structure Grows (w t : World) : Prop where
  database : t.database = w.database
  uploads : w.uploads ⊆ t.uploads

theorem Grows.refl (w : World) : Grows w w := ⟨rfl, List.Subset.refl _⟩

theorem Grows.trans {w u t : World} (h : Grows w u) (h' : Grows u t) : Grows w t :=
  ⟨h'.database.trans h.database, List.Subset.trans h.uploads h'.uploads⟩

theorem Lawful.grow {w t : World} {row : ExportJob} (h : Lawful dumpsLength settings w.database w.uploads id row)
    (hgrows : Grows w t) : Lawful dumpsLength settings t.database t.uploads id row := by
  rw [hgrows.database]
  exact h.mono hgrows.uploads

theorem grows_create_call (request : CreateRequest) (outcome : Outcome String) (stores : Stores) (step : CreateStep) :
    Grows stores.world (step.call request outcome stores).2.world := by
  rcases create_call_cases request outcome stores step with hcall | ⟨next, stores', hanswer, rest, -, hcall⟩
  · rw [hcall]
    exact .refl _
  · rw [hcall]
    cases step with
    | commit =>
      obtain ⟨t, hinsert, he⟩ := Option.map_eq_some_iff.mp hanswer
      cases he
      have hfresh := (insert_eq_some hinsert).1
      unfold CreateRequest.insert at hinsert
      rw [dif_neg hfresh, Option.some.injEq] at hinsert
      rw [← hinsert]
      exact ⟨rfl, List.Subset.refl _⟩
    | getVersion =>
      cases hanswer
      exact .refl _
    | refresh =>
      cases hanswer
      exact .refl _
    | xadd =>
      cases hanswer
      exact .refl _

theorem grows_next {a : Action} (hs : Tracked dumpsLength settings w₀ s) (h : next dumpsLength settings s a = some t) :
    Grows s.stores.world t.stores.world := by
  cases a with
  | request tid request =>
    obtain ⟨-, hnext⟩ := Option.ite_none_left_eq_some.mp h
    split at hnext
    · cases hnext
      exact .refl _
    · cases hnext
      exact .refl _
  | read tid outcome calls =>
    obtain ⟨-, hnext⟩ := Option.ite_none_left_eq_some.mp h
    obtain ⟨entry, -, rfl⟩ := Option.map_eq_some_iff.mp hnext
    cases outcome <;> exact .refl _
  | call tid outcome =>
    obtain ⟨th, hth, rfl⟩ := Option.map_eq_some_iff.mp h
    cases th with
    | create request step => exact grows_create_call request outcome s.stores step
    | skip msgId => cases outcome <;> exact ⟨rfl, List.Subset.refl _⟩
    | handle msgId jobId calls step =>
      cases hs.threads tid _ hth with
      | handling hmessage hrow hat =>
        have hcall := row_call { calls with outcome := fun _ => outcome } msgId hrow hat
        exact ⟨hcall.database, hcall.uploads⟩
  | crash tid =>
    obtain ⟨th, -, hworker⟩ := Option.bind_eq_some_iff.mp h
    obtain ⟨-, he⟩ := Option.ite_none_right_eq_some.mp hworker
    cases he
    exact .refl _

theorem Lawful.manifest {db : DatasetService.Database} {uploads : List Upload} {row : ExportJob} {url : String}
    (h : Lawful dumpsLength settings db uploads id row) (hurl : row.manifestUrl = some url) :
    url = manifestUrl id row ∧ Delivered dumpsLength settings db uploads id row := by
  induction h with
  | new h =>
    rw [h.manifestUrl] at hurl
    cases hurl
  | @running job startedAt progressPct h =>
    change job.manifestUrl = some url at hurl
    rw [h.manifestUrl] at hurl
    cases hurl
  | completed h hdelivered => exact ⟨(Option.some.inj hurl).symm, hdelivered⟩
  | failed h hstatus ih => exact ih hurl

end Runs

end Embedai.ExportWorker
