import Embedai.TaskEvidence

namespace Embedai.TaskService

open Handlers (except_bind_eq_ok)
open TransitionSystems

def Annotation.labelsFor (taskId : Uuid) (row : Annotation) : Option Json :=
  if row.taskId = taskId then some row.labels else none

def labelsOn (s : State) (taskId id : Uuid) : Option Json :=
  (s.annotations.get? id).bind (fun row => row.labelsFor taskId)

def ApprovedKept (s t : State) : Prop :=
  ∀ taskId, statusOf s taskId = some .approved →
    statusOf t taskId = some .approved ∧ ∀ id, labelsOn t taskId id = labelsOn s taskId id

def Reopens (driver : Driver) (s : State) : Request → Prop
  | .webhook payload newId _ commits => commits = true ∧ ∃ d t n taskId task, delivery payload = .ok (some d) ∧
      sqlInteger driver.bind d.lsTaskId = .ok t ∧ tasksOf s t = [(taskId, task)] ∧
      sqlInteger driver.bind d.lsAnnotationId = .ok n ∧
      (annotationsOf s n = [] ∧ task.status = .approved ∧ (task.assignedTo.or task.createdBy).isSome ∧
          newId ∉ s.annotations.keys ∨
        ∃ id row, annotationsOf s n = [(id, row)] ∧ statusOf s row.taskId = some .approved ∧
          driver.same row.labels d.resultLabels = false ∧ row.labels ≠ d.resultLabels)
  | _ => False

variable {driver : Driver} {s t u : State} {r : Request} {taskId : Uuid} {task : AnnotationTask}

theorem approvedKept_refl (s : State) : ApprovedKept s s := fun _ h => ⟨h, fun _ => rfl⟩

theorem ApprovedKept.trans (h : ApprovedKept s t) (h' : ApprovedKept t u) : ApprovedKept s u := by
  intro taskId hstatus
  obtain ⟨hstatus', hrows⟩ := h taskId hstatus
  obtain ⟨hstatus'', hrows'⟩ := h' taskId hstatus'
  exact ⟨hstatus'', fun id => (hrows' id).trans (hrows id)⟩

theorem approved_step (h : Step driver s r t) (hstatus : statusOf s taskId = some .approved) :
    statusOf t taskId = some .approved := by
  obtain ⟨task, ht, hstatus⟩ := Option.map_eq_some_iff.mp hstatus
  obtain ⟨task', ht', hchange⟩ := task_step h ht
  rw [statusOf, ht', Option.map_some]
  rcases status_of_taskChange hchange with hsame | hedge | ⟨-, hbefore, -⟩
  · rw [hsame, hstatus]
  · rw [hstatus] at hedge
    exact absurd hedge List.not_mem_nil
  · rw [hstatus] at hbefore
    cases hbefore

theorem labelsOn_of_same (hann : t.annotations = s.annotations) (taskId id : Uuid) :
    labelsOn t taskId id = labelsOn s taskId id := by
  rw [labelsOn, labelsOn, hann]

theorem labelsOn_append {newId : Uuid} {row : Annotation} (hnew : newId ∉ s.annotations.keys)
    (hann : t.annotations = s.annotations.append newId row hnew) (taskId id : Uuid) :
    labelsOn t taskId id = if id = newId then row.labelsFor taskId else labelsOn s taskId id := by
  rw [labelsOn, labelsOn, hann, OrderedDict.get?_append]
  split_ifs <;> rfl

theorem labelsOn_set {annId : Uuid} {row : Annotation} (hann : t.annotations = s.annotations.set annId row)
    (taskId id : Uuid) : labelsOn t taskId id = if id = annId then row.labelsFor taskId else labelsOn s taskId id := by
  rw [labelsOn, labelsOn, hann, OrderedDict.get?_set]
  split_ifs <;> rfl

theorem labelsFor_updated (same : Json → Json → Bool) (row : Annotation) (n : Option ℤ) (labels : Json)
    (now : Timestamp) (taskId : Uuid) : (updatedAnnotationRow same row n labels now).labelsFor taskId =
      if row.taskId = taskId then some (if same row.labels labels then row.labels else labels) else none :=
  rfl

theorem labelsFor_eq_none {row : Annotation} (h : row.taskId ≠ taskId) : row.labelsFor taskId = none := if_neg h

theorem annotator_of_newAnnotation {n : Option ℤ} {labels : Json} {now : Timestamp} {row : Annotation}
    (h : newAnnotation taskId task n labels now = .ok row) : (task.assignedTo.or task.createdBy).isSome := by
  unfold newAnnotation at h
  split at h
  · cases h
  · rename_i annotatorId hannotator
    rw [hannotator]
    rfl

theorem not_kept_of_reopens (h : Reopens driver s r) : ¬ ApprovedKept s (serve driver s r) := by
  cases r with
  | webhook payload newId now commits =>
    obtain ⟨rfl, d, lst, n, taskId, task, hd, ht, htask, hn, hkind⟩ := h
    have hfound := (mem_tasksOf.mp (htask ▸ List.mem_singleton_self _)).1
    intro hkept
    rcases hkind with ⟨hnone, hstatus, hsome, hnew⟩ | ⟨id, row, hone, hstatus, hsame, hlabels⟩
    · obtain ⟨row, hrow, hrowTask, -, -⟩ := newAnnotation_of_isSome taskId n d.resultLabels now hsome
      have hupsert : upsertAnnotation driver.same s taskId task none n d.resultLabels newId now =
          .ok (s.annotations.append newId row hnew) :=
        except_bind_eq_ok.mpr ⟨row, hrow, dif_neg hnew⟩
      have hexisting : scalarOneOrNone (annotationsOf s n) = .ok none := by rw [hnone, scalarOneOrNone]
      have happroved : statusOf s taskId = some .approved := by rw [statusOf, hfound, Option.map_some, hstatus]
      have hbefore : labelsOn s taskId newId = none := by
        rw [labelsOn, OrderedDict.get?_eq_none.mpr hnew, Option.bind_none]
      have hrows := (hkept taskId happroved).2 newId
      rw [webhook_of_upsert hd ht htask hn hexisting hupsert, labelsOn_append hnew rfl, if_pos rfl,
        Annotation.labelsFor, if_pos hrowTask, hbefore] at hrows
      cases hrows
    · have hget := (mem_annotationsOf.mp (hone ▸ List.mem_singleton_self _)).1
      have hexisting : scalarOneOrNone (annotationsOf s n) = .ok (some (id, row)) := by rw [hone, scalarOneOrNone]
      have hbefore : labelsOn s row.taskId id = some row.labels := by
        rw [labelsOn, hget, Option.bind_some, Annotation.labelsFor, if_pos rfl]
      have hrows := (hkept row.taskId hstatus).2 id
      rw [webhook_of_upsert hd ht htask hn hexisting rfl, labelsOn_set rfl, if_pos rfl, labelsFor_updated, if_pos rfl,
        hsame, if_neg Bool.false_ne_true, hbefore, Option.some.injEq] at hrows
      exact hlabels hrows.symm
  | create body user newId now flush lsTaskId commits => exact h.elim
  | assign taskId userId user now commits => exact h.elim
  | submit taskId quality notes user now commits => exact h.elim
  | approve taskId user now commits publishes => exact h.elim
  | reject taskId comment user now commits => exact h.elim

theorem serve_of_not_commits (driver : Driver) (s : State) (payload : List (String × Json)) (newId : Uuid)
    (now : Timestamp) : serve driver s (.webhook payload newId now false) = s := by
  simp only [serve, labelStudioWebhook]
  split
  · rfl
  · rfl
  · split <;> rfl

theorem kept_of_not_reopens (h : ¬ Reopens driver s r) : ApprovedKept s (serve driver s r) := by
  have hstep := step_serve driver s r
  intro taskId hstatus
  refine ⟨approved_step hstep hstatus, ?_⟩
  generalize hs : serve driver s r = t at hstep
  cases hstep with
  | unchanged htasks hann => exact labelsOn_of_same hann taskId
  | created hnew hcreated htasks hann => exact labelsOn_of_same hann taskId
  | moved hr ht hedge htasks hann => exact labelsOn_of_same hann taskId
  | @inserted payload newId now commits _ d lst n named task row hd ht hn htask hnone hrow hnew htasks hann =>
    cases commits with
    | false =>
      rw [serve_of_not_commits] at hs
      exact fun id => by rw [hs]
    | true =>
      intro id
      rw [labelsOn_append hnew hann]
      split_ifs with hid
      · subst hid
        have hother : row.taskId ≠ taskId := by
          rintro rfl
          rw [(newAnnotation_eq_ok hrow).1, statusOf, (mem_tasksOf.mp (htask ▸ List.mem_singleton_self _)).1,
            Option.map_some, Option.some.injEq] at hstatus
          exact h ⟨rfl, d, lst, n, named, task, hd, ht, htask, hn,
            Or.inl ⟨hnone, hstatus, annotator_of_newAnnotation hrow, hnew⟩⟩
        rw [labelsFor_eq_none hother, labelsOn, OrderedDict.get?_eq_none.mpr hnew, Option.bind_none]
      · rfl
  | @updated payload newId now commits _ d lst n named task annId row hd ht hn htask hone htasks hann =>
    cases commits with
    | false =>
      rw [serve_of_not_commits] at hs
      exact fun id => by rw [hs]
    | true =>
      intro id
      have hget := (mem_annotationsOf.mp (hone ▸ List.mem_singleton_self _)).1
      rw [labelsOn_set hann]
      split_ifs with hid
      · subst hid
        rw [labelsOn, hget, Option.bind_some, labelsFor_updated, Annotation.labelsFor]
        split_ifs with htaskId hsame
        · rfl
        · by_contra hlabels
          rw [Option.some.injEq] at hlabels
          exact h ⟨rfl, d, lst, n, named, task, hd, ht, htask, hn,
            Or.inr ⟨id, row, hone, htaskId ▸ hstatus, Bool.eq_false_iff.mpr hsame, Ne.symm hlabels⟩⟩
        · rfl
      · rfl

theorem approvedKept_serve_iff (driver : Driver) (s : State) (r : Request) :
    ApprovedKept s (serve driver s r) ↔ ¬ Reopens driver s r :=
  ⟨fun hkept h => not_kept_of_reopens h hkept, kept_of_not_reopens⟩

theorem approvedKept_iff_reopens (driver : Driver) (s u : State) (requests : List Request)
    (h : run (next driver) s requests = some u) :
    (∀ before after t v, before <+: after → after <+: requests → run (next driver) s before = some t →
      run (next driver) s after = some v → ApprovedKept t v) ↔
      Along (next driver) (fun t r => ¬ Reopens driver t r) s requests := by
  apply pairs_iff_along ApprovedKept approvedKept_refl (fun _ _ _ => ApprovedKept.trans) _ h
  intro s r t ht
  cases ht
  exact approvedKept_serve_iff driver s r

def redeliverSeven : Request :=
  .webhook [("action", .str "ANNOTATION_UPDATED"), ("annotation", .obj [("id", .int 1), ("task", .int 7),
    ("result", .arr [.str "relabelled"])])] ⟨3⟩ 3 true

def relabelled : List Request := [createLinked, deliverSeven, approveLinked, redeliverSeven]

theorem approvedKept_iff_reopens_relabelled :
    (run (next plainDriver) initial relabelled).isSome ∧ ∀ u, run (next plainDriver) initial relabelled = some u →
      ((∀ before after t v, before <+: after → after <+: relabelled → run (next plainDriver) initial before = some t →
          run (next plainDriver) initial after = some v → ApprovedKept t v) ↔
        Along (next plainDriver) (fun t r => ¬ Reopens plainDriver t r) initial relabelled) :=
  ⟨by decide +kernel, fun u h => approvedKept_iff_reopens plainDriver initial u relabelled h⟩

theorem approved_relabelled :
    ¬ ∀ (driver : Driver) (requests : List Request) (before after : List Request) (t v : State),
      (∀ r ∈ requests, r.Accepted) → before <+: after → after <+: requests →
      run (next driver) initial before = some t → run (next driver) initial after = some v → ApprovedKept t v := by
  intro hall
  have haccepted : ∀ r ∈ relabelled, r.Accepted := by
    intro r hr
    simp only [relabelled, List.mem_cons, List.not_mem_nil, or_false] at hr
    rcases hr with rfl | rfl | rfl | rfl
    · exact ⟨rfl, rfl⟩
    · rfl
    · rfl
    · rfl
  have hbefore : (run (next plainDriver) initial relabelled.dropLast).any
      (fun t => statusOf t ⟨1⟩ = some .approved ∧ (labelsOn t ⟨1⟩ ⟨2⟩).map Json.truthy = some false) = true := by
    decide +kernel
  have hafter : (run (next plainDriver) initial relabelled).any
      (fun v => (labelsOn v ⟨1⟩ ⟨2⟩).map Json.truthy = some true) = true := by decide +kernel
  obtain ⟨t, ht, hlabels⟩ := (Option.any_eq_true _ _).mp hbefore
  obtain ⟨v, hv, hlabels'⟩ := (Option.any_eq_true _ _).mp hafter
  simp only [decide_eq_true_eq] at hlabels hlabels'
  have hkept := hall plainDriver relabelled relabelled.dropLast relabelled t v haccepted (List.dropLast_prefix _)
    (List.prefix_refl _) ht hv ⟨1⟩ hlabels.1
  rw [hkept.2 ⟨2⟩, hlabels.2] at hlabels'
  cases hlabels'

end Embedai.TaskService
