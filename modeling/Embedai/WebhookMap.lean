import Embedai.TaskEvidence
import Embedai.WriteLog

namespace Embedai.TaskService

open Handlers (except_bind_eq_ok)
open TransitionSystems WriteLog

abbrev AnnotationWrite := Write ℤ Uuid Json

def knownTask (s : State) (lsTaskId : ℤ) : Option Uuid :=
  (s.tasks.items.find? (fun p => p.2.labelStudioTaskId = some lsTaskId)).map Prod.fst

/-- A handled delivery for a task that is known on arrival. An id that the driver cannot send fails before any write. -/
def write (driver : Driver) (s : State) (r : Request) : Option AnnotationWrite :=
  match r.delivery? with
  | some ⟨.int t, .int n, labels⟩ =>
    if (driver.bind (.int t)).isSome ∧ (driver.bind (.int n)).isSome then
      (knownTask s t).map (fun taskId => ⟨n, taskId, labels⟩)
    else none
  | _ => none

def writes (driver : Driver) (s : State) : List Request → List AnnotationWrite
  | [] => []
  | r :: rest => (write driver s r).toList ++ writes driver (serve driver s r) rest

def RowOf (agree : Json → Json → Prop) (rows : List (Uuid × Annotation)) : Option (Uuid × Json) → Prop
  | none => rows = []
  | some (owner, last) => ∃ id row, rows = [(id, row)] ∧ row.taskId = owner ∧ agree row.labels last

structure RowsOf (agree : Json → Json → Prop) (s : State) (log : List AnnotationWrite) : Prop where
  ids : ∀ id row, s.annotations.get? id = some row → ∃ n, row.labelStudioAnnotationId = some n
  rows : ∀ n, RowOf agree (annotationsOf s (some n)) (entry log n)

def Driver.Agree (driver : Driver) (stored last : Json) : Prop := stored = last ∨ driver.same stored last = true

def ChangesNamedTask (driver : Driver) (s : State) (r : Request) : Prop :=
  ∀ payload newId now commits, r = .webhook payload newId now commits →
    ∀ id, (serve driver s r).tasks.get? id ≠ s.tasks.get? id →
      ∃ d task t, r.delivery? = some d ∧ s.tasks.get? id = some task ∧ task.labelStudioTaskId = some t ∧
        d.lsTaskId = .int t

def isInteger : Json → Bool
  | .int _ => true
  | _ => false

def Request.IntegerIds (r : Request) : Prop :=
  ∀ d ∈ r.delivery?, isInteger d.lsTaskId ∧ isInteger d.lsAnnotationId

instance (r : Request) : Decidable r.IntegerIds := inferInstanceAs (Decidable (∀ d ∈ r.delivery?, _))

def DistinctLinks (s : State) : Prop :=
  ∀ p ∈ s.tasks.items, ∀ q ∈ s.tasks.items, p.2.labelStudioTaskId.isSome →
    p.2.labelStudioTaskId = q.2.labelStudioTaskId → p.1 = q.1

instance (s : State) : Decidable (DistinctLinks s) := inferInstanceAs (Decidable (∀ p ∈ _, _))

def RowAccepted (driver : Driver) (s : State) : Request → Prop
  | .webhook payload newId now commits => newId ∉ s.annotations.keys ∧
      ∀ w ∈ write driver s (.webhook payload newId now commits), (annotationsOf s (some w.key)).isEmpty →
        ∀ task ∈ s.tasks.get? w.owner, (task.assignedTo.or task.createdBy).isSome
  | _ => True

instance (driver : Driver) (s : State) : (r : Request) → Decidable (RowAccepted driver s r)
  | .webhook _ newId _ _ => inferInstanceAs (Decidable (newId ∉ s.annotations.keys ∧ ∀ w ∈ write driver s _, _))
  | .create .. => isTrue trivial
  | .assign .. => isTrue trivial
  | .submit .. => isTrue trivial
  | .approve .. => isTrue trivial
  | .reject .. => isTrue trivial

def Arrives (driver : Driver) (s : State) (r : Request) : Prop :=
  r.Accepted ∧ RowAccepted driver s r ∧ r.IntegerIds ∧ DistinctLinks s

variable {driver : Driver} {agree : Json → Json → Prop} {s t u : State} {r : Request} {log : List AnnotationWrite}

theorem delivery?_webhook {payload : List (String × Json)} {d : Delivery} (hd : delivery payload = .ok (some d))
    (newId : Uuid) (now : Timestamp) (commits : Bool) :
    (Request.webhook payload newId now commits).delivery? = some d := by
  rw [Request.delivery?, hd]
  rfl

theorem webhook_of_delivery? {d : Delivery} (h : r.delivery? = some d) :
    ∃ payload newId now commits, r = .webhook payload newId now commits ∧ delivery payload = .ok (some d) := by
  cases r with
  | webhook payload newId now commits =>
    refine ⟨payload, newId, now, commits, rfl, ?_⟩
    rw [Request.delivery?] at h
    cases hd : delivery payload with
    | error e =>
      rw [hd] at h
      cases h
    | ok found =>
      rw [hd, Except.toOption, Option.join_some] at h
      rw [h]
  | create body user newId now flush lsTaskId commits => cases h
  | assign taskId userId user now commits => cases h
  | submit taskId quality notes user now commits => cases h
  | approve taskId user now commits publishes => cases h
  | reject taskId comment user now commits => cases h

theorem sqlInteger_int (hbind : ∀ n m, driver.bind (.int n) = some m → m = n) {n : ℤ} {k : Option ℤ} :
    sqlInteger driver.bind (.int n) = .ok k ↔ (driver.bind (.int n)).isSome ∧ k = some n := by
  cases hn : driver.bind (.int n) with
  | none => simp [sqlInteger, hn]
  | some m => simp [sqlInteger, hn, hbind n m hn, eq_comm]

theorem knownTask_of_tasksOf {lst : ℤ} {taskId : Uuid} {task : AnnotationTask}
    (h : tasksOf s (some lst) = [(taskId, task)]) : knownTask s lst = some taskId := by
  rw [knownTask, ← List.head?_filter]
  unfold tasksOf at h
  rw [h]
  rfl

theorem tasksOf_of_knownTask {lst : ℤ} {taskId : Uuid} (hdistinct : DistinctLinks s)
    (h : knownTask s lst = some taskId) : ∃ task, tasksOf s (some lst) = [(taskId, task)] := by
  rw [knownTask, ← List.head?_filter] at h
  obtain ⟨⟨id, task⟩, hhead, rfl⟩ := Option.map_eq_some_iff.mp h
  refine ⟨task, ?_⟩
  change (tasksOf s (some lst)).head? = some (id, task) at hhead
  have hnodup : ((tasksOf s (some lst)).map Prod.fst).Nodup :=
    s.tasks.nodup.sublist (List.filter_sublist.map _)
  cases hrows : tasksOf s (some lst) with
  | nil =>
    rw [hrows] at hhead
    cases hhead
  | cons p rest =>
    rw [hrows, List.head?_cons, Option.some.injEq] at hhead
    subst hhead
    cases rest with
    | nil => rfl
    | cons q rest =>
      obtain ⟨hfirst, hlst⟩ := mem_tasksOf.mp (hrows ▸ List.mem_cons_self ..)
      obtain ⟨hsecond, hlst'⟩ := mem_tasksOf.mp (hrows ▸ List.mem_cons_of_mem _ (List.mem_cons_self ..))
      have hid := hdistinct _ (OrderedDict.mem_items.mpr hfirst) _ (OrderedDict.mem_items.mpr hsecond)
        (by rw [hlst]; rfl) (hlst.trans hlst'.symm)
      rw [hrows] at hnodup
      exact absurd (hid ▸ List.mem_cons_self ..) (List.nodup_cons.mp hnodup).1

theorem write_eq_some {w : AnnotationWrite} (h : write driver s r = some w) :
    ∃ lst, r.delivery? = some ⟨.int lst, .int w.key, w.value⟩ ∧ (driver.bind (.int lst)).isSome ∧
      (driver.bind (.int w.key)).isSome ∧ knownTask s lst = some w.owner := by
  unfold write at h
  split at h
  · rename_i lst n labels hd
    split_ifs at h with hfits
    obtain ⟨taskId, hknown, rfl⟩ := Option.map_eq_some_iff.mp h
    exact ⟨lst, hd, hfits.1, hfits.2, hknown⟩
  · cases h

theorem integer_ids {d : Delivery} (hids : r.IntegerIds) (hd : r.delivery? = some d) :
    ∃ lst n, d.lsTaskId = .int lst ∧ d.lsAnnotationId = .int n := by
  have hinteger : ∀ value, isInteger value = true → ∃ n, value = .int n := by
    intro value hvalue
    cases value with
    | int n => exact ⟨n, rfl⟩
    | _ => cases hvalue
  obtain ⟨ht, hn⟩ := hids d hd
  obtain ⟨lst, hlst⟩ := hinteger _ ht
  obtain ⟨n, hn⟩ := hinteger _ hn
  exact ⟨lst, n, hlst, hn⟩

theorem write_isSome {d : Delivery} {lst n : Option ℤ} {taskId : Uuid} {task : AnnotationTask}
    (hbind : ∀ n m, driver.bind (.int n) = some m → m = n) (hids : r.IntegerIds) (hd : r.delivery? = some d)
    (ht : sqlInteger driver.bind d.lsTaskId = .ok lst) (hn : sqlInteger driver.bind d.lsAnnotationId = .ok n)
    (htask : tasksOf s lst = [(taskId, task)]) : write driver s r ≠ none := by
  obtain ⟨t, k, hdt, hdn⟩ := integer_ids hids hd
  obtain ⟨lsTaskId, lsAnnotationId, labels⟩ := d
  dsimp only at hdt hdn
  subst hdt hdn
  obtain ⟨hfits, rfl⟩ := (sqlInteger_int hbind).mp ht
  obtain ⟨hfits', rfl⟩ := (sqlInteger_int hbind).mp hn
  simp only [write, hd, hfits, hfits', and_self, if_true, knownTask_of_tasksOf htask, Option.map_some]
  exact Option.some_ne_none _

theorem annotations_of_no_write (hbind : ∀ n m, driver.bind (.int n) = some m → m = n) (hids : r.IntegerIds)
    (h : write driver s r = none) : (serve driver s r).annotations = s.annotations := by
  have hstep := step_serve driver s r
  generalize serve driver s r = t at hstep
  cases hstep with
  | unchanged htasks hann => exact hann
  | created hnew hcreated htasks hann => exact hann
  | moved hr ht hedge htasks hann => exact hann
  | inserted hd ht hn htask hnone hrow hnew htasks hann =>
    exact absurd h (write_isSome hbind hids (delivery?_webhook hd _ _ _) ht hn htask)
  | updated hd ht hn htask hone htasks hann =>
    exact absurd h (write_isSome hbind hids (delivery?_webhook hd _ _ _) ht hn htask)

theorem rowsOf_of_same (hs : RowsOf agree s log) (hann : t.annotations = s.annotations) : RowsOf agree t log := by
  constructor
  · intro id row hrow
    rw [hann] at hrow
    exact hs.ids id row hrow
  · intro n
    rw [annotationsOf, hann]
    exact hs.rows n

theorem rowsOf_append {id : Uuid} {row : Annotation} {w : AnnotationWrite} (hnew : id ∉ s.annotations.keys)
    (hs : RowsOf agree s log) (hentry : entry log w.key = none) (htask : row.taskId = w.owner)
    (hls : row.labelStudioAnnotationId = some w.key) (hlabels : agree row.labels w.value)
    (hann : t.annotations = s.annotations.append id row hnew) : RowsOf agree t (log ++ [w]) := by
  constructor
  · intro j found hfound
    rw [hann, OrderedDict.get?_append] at hfound
    split_ifs at hfound
    · cases hfound
      exact ⟨w.key, hls⟩
    · exact hs.ids j found hfound
  · intro n
    have hrows := hs.rows n
    rw [annotationsOf_append hann, hls]
    by_cases hn : w.key = n
    · subst hn
      rw [hentry] at hrows
      rw [if_pos rfl, hrows, entry_concat_of_none hentry]
      exact ⟨id, row, rfl, htask, hlabels⟩
    · have hne : some w.key ≠ some n := fun h => hn (Option.some.inj h)
      rw [if_neg hne, entry_concat_of_ne hn, List.append_nil]
      exact hrows

theorem rowsOf_set {id : Uuid} {row : Annotation} {w : AnnotationWrite} (changed : Annotation)
    (hs : RowsOf agree s log) (hone : annotationsOf s (some w.key) = [(id, row)]) (htask : changed.taskId = row.taskId)
    (hls : changed.labelStudioAnnotationId = some w.key) (hlabels : agree changed.labels w.value)
    (hann : t.annotations = s.annotations.set id changed) : RowsOf agree t (log ++ [w]) := by
  obtain ⟨hrow, hrowLs⟩ := mem_annotationsOf.mp (hone ▸ List.mem_singleton_self _)
  constructor
  · intro j found hfound
    rw [hann, OrderedDict.get?_set] at hfound
    split_ifs at hfound
    · cases hfound
      exact ⟨w.key, hls⟩
    · exact hs.ids j found hfound
  · intro n
    have hrows := hs.rows n
    rw [annotationsOf_set hrow (hls.trans hrowLs.symm) hann]
    by_cases hn : w.key = n
    · subst hn
      rw [hone] at hrows
      cases hentry : entry log w.key with
      | none =>
        rw [hentry] at hrows
        cases hrows
      | some found =>
        obtain ⟨owner, value⟩ := found
        rw [hentry] at hrows
        obtain ⟨id', row', hrow', howner, -⟩ := hrows
        cases hrow'
        rw [entry_concat_of_some hentry, hone, List.map_singleton, if_pos rfl]
        exact ⟨id, changed, rfl, htask.trans howner, hlabels⟩
    · have hothers : (annotationsOf s (some n)).map (fun p => if p.1 = id then (p.1, changed) else p) =
          annotationsOf s (some n) := by
        calc (annotationsOf s (some n)).map (fun p => if p.1 = id then (p.1, changed) else p)
            = (annotationsOf s (some n)).map (fun p => p) := by
              apply List.map_congr_left
              intro p hp
              have hne : p.1 ≠ id := by
                intro hid
                obtain ⟨hfound, hfoundLs⟩ := mem_annotationsOf.mp hp
                rw [hid, hrow, Option.some.injEq] at hfound
                rw [← hfound, hrowLs, Option.some.injEq] at hfoundLs
                exact hn hfoundLs
              rw [if_neg hne]
          _ = annotationsOf s (some n) := List.map_id' _
      rw [entry_concat_of_ne hn, hothers]
      exact hrows

theorem agree_updated (driver : Driver) (row : Annotation) (n : Option ℤ) (labels : Json) (now : Timestamp) :
    driver.Agree (updatedAnnotationRow driver.same row n labels now).labels labels := by
  change driver.Agree (if driver.same row.labels labels then row.labels else labels) labels
  split_ifs with hsame
  · exact Or.inr hsame
  · exact Or.inl rfl

theorem rowsOf_step (hbind : ∀ n m, driver.bind (.int n) = some m → m = n) (hs : RowsOf driver.Agree s log)
    (hr : Arrives driver s r) : RowsOf driver.Agree (serve driver s r) (log ++ (write driver s r).toList) := by
  cases hw : write driver s r with
  | none =>
    rw [Option.toList_none, List.append_nil]
    exact rowsOf_of_same hs (annotations_of_no_write hbind hr.2.2.1 hw)
  | some w =>
    obtain ⟨lst, hdelivery, hfits, hfits', hknown⟩ := write_eq_some hw
    obtain ⟨payload, newId, now, commits, rfl, hd⟩ := webhook_of_delivery? hdelivery
    obtain ⟨hcommits, ⟨hnew, hannotated⟩, -, hdistinct⟩ := hr
    obtain rfl : commits = true := hcommits
    obtain ⟨task, htask⟩ := tasksOf_of_knownTask hdistinct hknown
    have ht := (sqlInteger_int hbind).mpr ⟨hfits, rfl⟩
    have hn := (sqlInteger_int hbind).mpr ⟨hfits', rfl⟩
    have hrows := hs.rows w.key
    rw [Option.toList_some]
    cases hentry : entry log w.key with
    | none =>
      rw [hentry] at hrows
      have hannotator : (task.assignedTo.or task.createdBy).isSome :=
        hannotated w hw (List.isEmpty_iff.mpr hrows) task (mem_tasksOf.mp (htask ▸ List.mem_singleton_self _)).1
      obtain ⟨row, hrow, hrowTask, hrowLs, hrowLabels⟩ :=
        newAnnotation_of_isSome w.owner (some w.key) w.value now hannotator
      have hexisting : scalarOneOrNone (annotationsOf s (some w.key)) = .ok none := by rw [hrows, scalarOneOrNone]
      have hupsert : upsertAnnotation driver.same s w.owner task none (some w.key) w.value newId now =
          .ok (s.annotations.append newId row hnew) :=
        except_bind_eq_ok.mpr ⟨row, hrow, dif_neg hnew⟩
      rw [webhook_of_upsert hd ht htask hn hexisting hupsert]
      exact rowsOf_append hnew hs hentry hrowTask hrowLs (Or.inl hrowLabels) rfl
    | some found =>
      rw [hentry] at hrows
      obtain ⟨id, row, hone, -, -⟩ := hrows
      have hexisting : scalarOneOrNone (annotationsOf s (some w.key)) = .ok (some (id, row)) := by
        rw [hone, scalarOneOrNone]
      rw [webhook_of_upsert hd ht htask hn hexisting rfl]
      exact rowsOf_set (updatedAnnotationRow driver.same row (some w.key) w.value now) hs hone rfl rfl
        (agree_updated driver row _ _ _) rfl

theorem rowsOf_run (hbind : ∀ n m, driver.bind (.int n) = some m → m = n) {requests : List Request}
    (hs : RowsOf driver.Agree s log)
    (hok : Along (next driver) (Arrives driver) s requests) (h : run (next driver) s requests = some u) :
    RowsOf driver.Agree u (log ++ writes driver s requests) := by
  induction requests generalizing s log with
  | nil =>
    cases h
    rw [writes, List.append_nil]
    exact hs
  | cons r rest ih =>
    obtain ⟨t, ht, hrest⟩ := run_cons.mp h
    cases ht
    rw [writes, ← List.append_assoc]
    exact ih (rowsOf_step hbind hs hok.1) (hok.2 _ rfl) hrest

theorem named_of_changed (hbind : ∀ n m, driver.bind (.int n) = some m → m = n) {d : Delivery} {lst : Option ℤ}
    {taskId id : Uuid} {task changed : AnnotationTask} (hids : r.IntegerIds) (hd : r.delivery? = some d)
    (ht : sqlInteger driver.bind d.lsTaskId = .ok lst) (htask : tasksOf s lst = [(taskId, task)])
    (htasks : t.tasks = s.tasks.set taskId changed) (hne : t.tasks.get? id ≠ s.tasks.get? id) :
    ∃ d task n, r.delivery? = some d ∧ s.tasks.get? id = some task ∧ task.labelStudioTaskId = some n ∧
      d.lsTaskId = .int n := by
  obtain ⟨hfound, hlst⟩ := mem_tasksOf.mp (htask ▸ List.mem_singleton_self _)
  obtain ⟨n, -, hn, -⟩ := integer_ids hids hd
  rw [htasks, OrderedDict.get?_set] at hne
  split_ifs at hne with hid
  · subst hid
    rw [hn] at ht
    exact ⟨d, task, n, hd, hfound, hlst.trans ((sqlInteger_int hbind).mp ht).2, hn⟩
  · exact absurd rfl hne

theorem changesNamedTask (hbind : ∀ n m, driver.bind (.int n) = some m → m = n) (hids : r.IntegerIds) :
    ChangesNamedTask driver s r := by
  rintro payload newId now commits rfl id hne
  have hstep := step_serve driver s (.webhook payload newId now commits)
  generalize serve driver s (.webhook payload newId now commits) = t at hstep hne
  cases hstep with
  | unchanged htasks hann => exact absurd (by rw [htasks]) hne
  | moved hr ht hedge htasks hann => cases hr
  | inserted hd ht hn htask hnone hrow hnew htasks hann =>
    exact named_of_changed hbind hids (delivery?_webhook hd _ _ _) ht htask htasks hne
  | updated hd ht hn htask hone htasks hann =>
    exact named_of_changed hbind hids (delivery?_webhook hd _ _ _) ht htask htasks hne

theorem rowsOf_nil (h : s.annotations.items = []) : RowsOf agree s [] := by
  constructor
  · intro id row hrow
    have hmem := OrderedDict.mem_items.mpr hrow
    rw [h] at hmem
    cases hmem
  · intro n
    rw [annotationsOf, h]
    rfl

theorem last_write_wins (driver : Driver) (hbind : ∀ n m, driver.bind (.int n) = some m → m = n) (s u : State)
    (requests : List Request) (hempty : s.annotations.items = [])
    (hok : Along (next driver) (Arrives driver) s requests) (h : run (next driver) s requests = some u) :
    RowsOf driver.Agree u (writes driver s requests) ∧ Along (next driver) (ChangesNamedTask driver) s requests := by
  constructor
  · exact rowsOf_run hbind (rowsOf_nil hempty) hok h
  · exact along_of_invariant (fun _ => True) (fun _ _ _ _ _ _ => trivial)
      (fun _ _ _ hr => changesNamedTask hbind hr.2.2.1) trivial hok

def deliver (action : String) (lsTaskId lsAnnotationId : ℤ) (labels : List Json) (newId : Uuid) : Request :=
  .webhook [("action", .str action), ("annotation", .obj [("id", .int lsAnnotationId), ("task", .int lsTaskId),
    ("result", .arr labels)])] newId 1 true

def deliveries : List Request :=
  [createLinked, deliver "ANNOTATION_CREATED" 7 1 [] ⟨21⟩, deliver "ANNOTATION_DELETED" 7 1 [] ⟨22⟩,
    .create ⟨none, "video_annotation", none, none, [], none⟩ engineer ⟨2⟩ 2 .accepted (some 8) true,
    deliver "ANNOTATION_CREATED" 9 2 [] ⟨23⟩, approveLinked, deliver "ANNOTATION_CREATED" 8 3 [] ⟨24⟩,
    deliver "ANNOTATION_UPDATED" 8 1 [.str "grasp"] ⟨25⟩]

theorem arrives_deliveries : Along (next plainDriver) (Arrives plainDriver) initial deliveries := by
  have haccepted : ∀ r ∈ deliveries, r.Accepted := by
    intro r hr
    simp only [deliveries, List.mem_cons, List.not_mem_nil, or_false] at hr
    rcases hr with rfl | rfl | rfl | rfl | rfl | rfl | rfl | rfl
    · exact ⟨rfl, rfl⟩
    · rfl
    · rfl
    · exact ⟨rfl, rfl⟩
    · rfl
    · rfl
    · rfl
    · rfl
  have hrest : Along (next plainDriver) (fun s r => RowAccepted plainDriver s r ∧ r.IntegerIds ∧ DistinctLinks s)
      initial deliveries := by decide +kernel
  exact (along_of_mem haccepted).and hrest

theorem bindInt_eq (n m : ℤ) (h : bindInt (.int n) = some m) : m = n := by
  cases h
  rfl

theorem last_write_wins_deliveries :
    (run (next plainDriver) initial deliveries).isSome ∧ ∀ u, run (next plainDriver) initial deliveries = some u →
      RowsOf plainDriver.Agree u (writes plainDriver initial deliveries) ∧
        Along (next plainDriver) (ChangesNamedTask plainDriver) initial deliveries :=
  ⟨by decide +kernel, fun u h =>
    last_write_wins plainDriver bindInt_eq initial u deliveries rfl arrives_deliveries h⟩

def oneThenTrue : List Request :=
  [createLinked, deliver "ANNOTATION_CREATED" 7 1 [.int 1] ⟨21⟩, deliver "ANNOTATION_UPDATED" 7 1 [.bool true] ⟨22⟩]

theorem arrives_oneThenTrue : Along (next plainDriver) (Arrives plainDriver) initial oneThenTrue := by
  have haccepted : ∀ r ∈ oneThenTrue, r.Accepted := by
    intro r hr
    simp only [oneThenTrue, List.mem_cons, List.not_mem_nil, or_false] at hr
    rcases hr with rfl | rfl | rfl
    · exact ⟨rfl, rfl⟩
    · rfl
    · rfl
  have hrest : Along (next plainDriver) (fun s r => RowAccepted plainDriver s r ∧ r.IntegerIds ∧ DistinctLinks s)
      initial oneThenTrue := by decide +kernel
  exact (along_of_mem haccepted).and hrest

def startsWithInt : Json → Bool
  | .arr (.int _ :: _) => true
  | _ => false

theorem equal_labels_kept :
    ¬ ∀ (driver : Driver) (s u : State) (requests : List Request), (∀ n m, driver.bind (.int n) = some m → m = n) →
      s.annotations.items = [] → Along (next driver) (Arrives driver) s requests →
      run (next driver) s requests = some u → RowsOf Eq u (writes driver s requests) := by
  intro hall
  have hlast : (entry (writes plainDriver initial oneThenTrue) 1).any (fun e => !startsWithInt e.2) = true := by
    decide +kernel
  have hkept : (run (next plainDriver) initial oneThenTrue).any
      (fun u => (annotationsOf u (some 1)).all (fun p => startsWithInt p.2.labels)) = true := by decide +kernel
  obtain ⟨u, hu, hkept⟩ := (Option.any_eq_true _ _).mp hkept
  obtain ⟨⟨owner, last⟩, hentry, hlast⟩ := (Option.any_eq_true _ _).mp hlast
  have hrows := (hall plainDriver initial u oneThenTrue bindInt_eq rfl arrives_oneThenTrue hu).rows 1
  rw [hentry] at hrows
  obtain ⟨id, row, hone, -, hlabels⟩ := hrows
  rw [hone, List.all_cons, List.all_nil, Bool.and_true, hlabels] at hkept
  rw [hkept] at hlast
  cases hlast

end Embedai.TaskService
