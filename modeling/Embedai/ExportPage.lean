import Mathlib.Logic.Relation
import Embedai.ExportJobPath
import Embedai.PolledQueries

namespace Embedai.ExportPage

open ExportWorker PolledQueries TransitionSystems
open Relation (ReflTransGen)

/-- What `GET /export-jobs` lists for the page; the order of the list is left out. -/
def listExportJobs (w : World) (versionId : Option Uuid) : OrderedDict Uuid ExportJob :=
  ⟨w.jobs.items.filter fun p => versionId.all (p.2.datasetVersionId = ·),
    w.jobs.nodup.sublist (List.filter_sublist.map _)⟩

/-- The query of the list, and the queries of the jobs by their ids; no job has the id of a version, whose key it would
share. -/
structure State where
  system : System
  list : Query (OrderedDict Uuid ExportJob)
  jobs : Uuid → Query ExportJob

inductive Action
  | service (a : ExportWorker.Action)
  | list (e : Event)
  | job (id : Uuid) (e : Event)
  | forget (id : Uuid)

def State.setJob (s : State) (id : Uuid) (q : Query ExportJob) : State := { s with jobs := Function.update s.jobs id q }

theorem setJob_jobs (s : State) (id : Uuid) (q : Query ExportJob) (j : Uuid) :
    (s.setJob id q).jobs j = if j = id then q else s.jobs j := Function.update_apply ..

def start (w : World) : State := ⟨ExportWorker.start w, idle, fun _ => idle⟩

def polled (job : ExportJob) : Bool := job.status = .running ∨ job.status = .pending

def enabled (s : State) (id : Uuid) : Bool := (s.list.data.bind fun items => items.get? id).any polled

/-- The page sends requests for the rows that it polls only, and the client forgets no query that is in use. -/
def next (dumpsLength : Json → ℕ) (settings : Settings) (versionId : Option Uuid) (s : State) : Action → Option State
  | .service a => (ExportWorker.next dumpsLength settings s.system a).map fun system => { s with system }
  | .list e => (step (some (listExportJobs s.system.stores.world versionId)) s.list e).map fun list => { s with list }
  | .job id e =>
    if e = .send ∧ enabled s id = false then none
    else (step (s.system.stores.world.jobs.get? id) (s.jobs id) e).map (s.setJob id)
  | .forget id => if enabled s id then none else some (s.setJob id idle)

def exportJobRow (s : State) (id : Uuid) (job : ExportJob) : ExportJob :=
  let live := if polled job then (s.jobs id).data else none
  live.getD job

def shown (s : State) : List (Uuid × ExportJob) :=
  match s.list.data with
  | none => []
  | some items => items.items.map fun p => (p.1, exportJobRow s p.1 p.2)

def Ended (job : ExportJob) : Prop := job.status = .completed ∨ job.status = .failed

section Rows

variable {row row' : ExportJob}

def Later : ExportJob → ExportJob → Prop := ReflTransGen Moves

def ListLater (items items' : OrderedDict Uuid ExportJob) : Prop :=
  ∀ id row, items.get? id = some row → ∃ row', items'.get? id = some row' ∧ Later row row'

theorem ListLater.refl (items : OrderedDict Uuid ExportJob) : ListLater items items :=
  fun _ row h => ⟨row, h, .refl⟩

theorem ListLater.trans {a b c : OrderedDict Uuid ExportJob} (hab : ListLater a b) (hbc : ListLater b c) :
    ListLater a c := by
  intro id row h
  obtain ⟨row', h', hlater⟩ := hab id row h
  obtain ⟨row'', h'', hlater'⟩ := hbc id row' h'
  exact ⟨row'', h'', hlater.trans hlater'⟩

end Rows

section Reads

variable {dumpsLength : Json → ℕ} {settings : Settings} {w : World} {versionId : Option Uuid} {s t : State} {a : Action}
  {id : Uuid} {row : ExportJob}

theorem get?_listExportJobs : (listExportJobs w versionId).get? id = some row ↔
    w.jobs.get? id = some row ∧ versionId.all (row.datasetVersionId = ·) = true := by
  rw [← OrderedDict.mem_items, ← OrderedDict.mem_items]
  exact List.mem_filter

theorem list_moves {u v : System} {a : ExportWorker.Action} (hu : Tracked dumpsLength settings w u)
    (h : ExportWorker.next dumpsLength settings u a = some v) :
    ListLater (listExportJobs u.stores.world versionId) (listExportJobs v.stores.world versionId) := by
  intro id row hrow
  obtain ⟨hrow, hversion⟩ := get?_listExportJobs.mp hrow
  obtain ⟨row', hrow', hmoves⟩ := moves_next hu h hrow
  refine ⟨row', get?_listExportJobs.mpr ⟨hrow', ?_⟩, .single hmoves⟩
  rw [hmoves.datasetVersionId]
  exact hversion

structure Mirrors (dumpsLength : Json → ℕ) (settings : Settings) (w : World) (versionId : Option Uuid) (s : State) :
    Prop where
  tracked : Tracked dumpsLength settings w s.system
  list : Behind ListLater (some (listExportJobs s.system.stores.world versionId)) s.list
  jobs : ∀ id, Behind Later (s.system.stores.world.jobs.get? id) (s.jobs id)

theorem mirrors_start : Mirrors dumpsLength settings w versionId (start w) :=
  ⟨tracked_start dumpsLength settings w, behind_idle, fun _ => behind_idle⟩

theorem mirrors_next (hs : Mirrors dumpsLength settings w versionId s)
    (h : next dumpsLength settings versionId s a = some t) : Mirrors dumpsLength settings w versionId t := by
  have hrefl (row : ExportJob) : Later row row := .refl
  cases a with
  | service a =>
    obtain ⟨system, hsystem, rfl⟩ := Option.map_eq_some_iff.mp h
    refine ⟨tracked_next hs.tracked hsystem, ?_, fun id => ?_⟩
    · refine hs.list.moves (fun _ _ _ => ListLater.trans) fun items hitems => ?_
      rw [← Option.some.inj hitems]
      exact ⟨_, rfl, list_moves hs.tracked hsystem⟩
    · refine (hs.jobs id).moves (fun _ _ _ => ReflTransGen.trans) fun row hrow => ?_
      obtain ⟨row', hrow', hmoves⟩ := moves_next hs.tracked hsystem hrow
      exact ⟨row', hrow', .single hmoves⟩
  | list e =>
    obtain ⟨list, hlist, rfl⟩ := Option.map_eq_some_iff.mp h
    exact ⟨hs.tracked, hs.list.step ListLater.refl hlist, hs.jobs⟩
  | job id e =>
    obtain ⟨-, h⟩ := Option.ite_none_left_eq_some.mp h
    obtain ⟨q, hq, rfl⟩ := Option.map_eq_some_iff.mp h
    refine ⟨hs.tracked, hs.list, fun j => ?_⟩
    rw [setJob_jobs]
    split_ifs with hj
    · subst hj
      exact (hs.jobs j).step hrefl hq
    · exact hs.jobs j
  | forget id =>
    obtain ⟨-, he⟩ := Option.ite_none_left_eq_some.mp h
    cases he
    refine ⟨hs.tracked, hs.list, fun j => ?_⟩
    rw [setJob_jobs]
    split_ifs with hj
    · exact behind_idle
    · exact hs.jobs j

structure Settled (s : State) (id : Uuid) : Prop where
  row : ∃ items job, s.list.data = some items ∧ items.get? id = some job ∧
    (Ended job ∨ ∃ live, (s.jobs id).data = some live ∧ Ended live)

end Reads

section Runs

variable (dumpsLength : Json → ℕ) (settings : Settings) (w : World) (versionId : Option Uuid)

def Recorded (actions : List Action) (id : Uuid) (row : ExportJob) : Prop :=
  ∃ before u, before <+: actions ∧ run (next dumpsLength settings versionId) (start w) before = some u ∧
    u.system.stores.world.jobs.get? id = some row

def RecordedList (actions : List Action) (items : OrderedDict Uuid ExportJob) : Prop :=
  ∀ id row, items.get? id = some row → Recorded dumpsLength settings w versionId actions id row

structure Remembered (actions : List Action) (s : State) : Prop where
  run : run (next dumpsLength settings versionId) (start w) actions = some s
  list : ∀ items, s.list.data = some items → RecordedList dumpsLength settings w versionId actions items
  listFetch : ∀ items, s.list.fetch = some (some items) → RecordedList dumpsLength settings w versionId actions items
  job : ∀ id row, (s.jobs id).data = some row → Recorded dumpsLength settings w versionId actions id row
  jobFetch : ∀ id row, (s.jobs id).fetch = some (some row) → Recorded dumpsLength settings w versionId actions id row

variable {dumpsLength settings w versionId} {s t : State} {a : Action} {actions : List Action} {id : Uuid}
  {row : ExportJob}

theorem Recorded.concat (h : Recorded dumpsLength settings w versionId actions id row) (a : Action) :
    Recorded dumpsLength settings w versionId (actions ++ [a]) id row := by
  obtain ⟨before, u, hprefix, hu, hrow⟩ := h
  exact ⟨before, u, hprefix.trans (List.prefix_append ..), hu, hrow⟩

theorem Remembered.concat (hs : Remembered dumpsLength settings w versionId actions s)
    (h : next dumpsLength settings versionId s a = some t) :
    Remembered dumpsLength settings w versionId (actions ++ [a]) t := by
  have hrun := run_concat.mpr ⟨s, hs.run, h⟩
  have hstored {id : Uuid} {row : ExportJob} (hrow : s.system.stores.world.jobs.get? id = some row) :
      Recorded dumpsLength settings w versionId (actions ++ [a]) id row :=
    ⟨actions, s, List.prefix_append .., hs.run, hrow⟩
  have hlist : ∀ items, s.list.data = some items →
      RecordedList dumpsLength settings w versionId (actions ++ [a]) items :=
    fun items hitems id row hrow => (hs.list items hitems id row hrow).concat a
  have hlistFetch : ∀ items, s.list.fetch = some (some items) →
      RecordedList dumpsLength settings w versionId (actions ++ [a]) items :=
    fun items hitems id row hrow => (hs.listFetch items hitems id row hrow).concat a
  have hjob (id : Uuid) : ∀ row, (s.jobs id).data = some row →
      Recorded dumpsLength settings w versionId (actions ++ [a]) id row :=
    fun row hrow => (hs.job id row hrow).concat a
  have hjobFetch (id : Uuid) : ∀ row, (s.jobs id).fetch = some (some row) →
      Recorded dumpsLength settings w versionId (actions ++ [a]) id row :=
    fun row hrow => (hs.jobFetch id row hrow).concat a
  cases a with
  | service a =>
    obtain ⟨system, -, rfl⟩ := Option.map_eq_some_iff.mp h
    exact ⟨hrun, hlist, hlistFetch, hjob, hjobFetch⟩
  | list e =>
    obtain ⟨list, hread, rfl⟩ := Option.map_eq_some_iff.mp h
    obtain ⟨hdata, hfetch⟩ := origin hlist hlistFetch (fun items hitems id row hrow => by
      rw [← Option.some.inj hitems] at hrow
      exact hstored (get?_listExportJobs.mp hrow).1) hread
    exact ⟨hrun, hdata, hfetch, hjob, hjobFetch⟩
  | job id e =>
    obtain ⟨-, h⟩ := Option.ite_none_left_eq_some.mp h
    obtain ⟨q, hread, rfl⟩ := Option.map_eq_some_iff.mp h
    obtain ⟨hdata, hfetch⟩ := origin (hjob id) (hjobFetch id) (fun row => hstored) hread
    refine ⟨hrun, hlist, hlistFetch, fun j => ?_, fun j => ?_⟩ <;> rw [setJob_jobs] <;> split_ifs with hj
    · exact hj ▸ hdata
    · exact hjob j
    · exact hj ▸ hfetch
    · exact hjobFetch j
  | forget id =>
    obtain ⟨-, he⟩ := Option.ite_none_left_eq_some.mp h
    cases he
    refine ⟨hrun, hlist, hlistFetch, fun j => ?_, fun j => ?_⟩ <;> rw [setJob_jobs] <;> split_ifs with hj
    · intro row hrow
      cases hrow
    · exact hjob j
    · intro row hrow
      cases hrow
    · exact hjobFetch j

theorem mirrors_run (h : run (next dumpsLength settings versionId) (start w) actions = some s) :
    Mirrors dumpsLength settings w versionId s :=
  invariant_run _ (fun _ _ _ => mirrors_next) mirrors_start h

theorem grows_page (hs : Mirrors dumpsLength settings w versionId s)
    (h : next dumpsLength settings versionId s a = some t) : Grows s.system.stores.world t.system.stores.world := by
  cases a with
  | service a =>
    obtain ⟨system, hsystem, rfl⟩ := Option.map_eq_some_iff.mp h
    exact grows_next hs.tracked hsystem
  | list e =>
    obtain ⟨list, -, rfl⟩ := Option.map_eq_some_iff.mp h
    exact .refl _
  | job id e =>
    obtain ⟨-, h⟩ := Option.ite_none_left_eq_some.mp h
    obtain ⟨q, -, rfl⟩ := Option.map_eq_some_iff.mp h
    exact .refl _
  | forget id =>
    obtain ⟨-, he⟩ := Option.ite_none_left_eq_some.mp h
    cases he
    exact .refl _

theorem Recorded.lawful (hrow : Recorded dumpsLength settings w versionId actions id row) (hid : id ∉ w.jobs.keys)
    (h : run (next dumpsLength settings versionId) (start w) actions = some s) :
    Lawful dumpsLength settings s.system.stores.world.database s.system.stores.world.uploads id row := by
  obtain ⟨before, u, ⟨after, rfl⟩, hu, hstored⟩ := hrow
  obtain ⟨u', hu', hafter⟩ := run_append.mp h
  rw [hu, Option.some.injEq] at hu'
  subst hu'
  have hmirrors := mirrors_run hu
  have hgrown : Mirrors dumpsLength settings w versionId s ∧ Grows u.system.stores.world s.system.stores.world :=
    invariant_run
      (fun t => Mirrors dumpsLength settings w versionId t ∧ Grows u.system.stores.world t.system.stores.world)
      (fun _ _ _ hs hstep => ⟨mirrors_next hs.1 hstep, hs.2.trans (grows_page hs.1 hstep)⟩)
      ⟨hmirrors, .refl _⟩ hafter
  exact (hmirrors.tracked.rows id row hid hstored).grow hgrown.2

end Runs

end Embedai.ExportPage
