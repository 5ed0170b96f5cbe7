import Embedai.Relational
import Embedai.RevisionChains

/-!
The revisions of the schema. `upgrade` and `downgrade` of a revision are scripts of statements, run in one transaction.
-/

namespace Embedai.Migrations

open Relational RevisionChains

structure Migration where
  revision : String
  downRevision : Option String
  upgrade : List Operation
  downgrade : List Operation

def column (name : String) (type : ColumnType) : Column := ⟨name, type, true, false, false, none, none⟩

def required (col : Column) : Column := { col with nullable := false }

def withDefault (text : String) (col : Column) : Column := { col with serverDefault := some text }

def foreignKey (table : String) (col : Column) : Column := { col with references := some ⟨table, "id", false⟩ }

def identifier : Column := { required (column "id" .uuid) with primaryKey := true }

def createdAt (name : String) : Column := withDefault "now()" (column name .timestamp)

def projects : List Column :=
  [identifier, required (column "name" (.varchar 255)), column "description" .text, column "topic_schema" .jsonb,
    createdAt "created_at", column "updated_at" .timestamp]

def users : List Column :=
  [identifier, { required (column "email" (.varchar 255)) with unique := true },
    required (column "name" (.varchar 255)), required (column "hashed_password" (.varchar 255)),
    required (column "role" (.varchar 50)), withDefault "[]" (column "skill_tags" .jsonb),
    foreignKey "projects" (column "project_id" .uuid), withDefault "true" (column "is_active" .boolean),
    createdAt "created_at"]

def episodes : List Column :=
  [identifier, required (foreignKey "projects" (column "project_id" .uuid)),
    required (column "filename" (.varchar 500)), required (column "format" (.varchar 10)),
    column "size_bytes" .bigInteger, column "duration_seconds" .float,
    required (withDefault "uploading" (column "status" (.varchar 20))), column "quality_score" .float,
    withDefault "{}" (column "metadata" .jsonb), column "storage_path" (.varchar 1000),
    column "recorded_at" .timestamp, column "ingested_at" .timestamp, createdAt "created_at"]

def topics : List Column :=
  [identifier, required { column "episode_id" .uuid with references := some ⟨"episodes", "id", true⟩ },
    required (column "name" (.varchar 255)), column "type" (.varchar 50), column "start_time_offset" .float,
    column "end_time_offset" .float, column "message_count" .integer, column "frequency_hz" .float,
    column "schema_name" (.varchar 255)]

def uploadSessions : List Column :=
  [identifier, required (foreignKey "episodes" (column "episode_id" .uuid)),
    foreignKey "users" (column "initiated_by" .uuid), required (column "total_chunks" .integer),
    withDefault "0" (column "received_chunks" .integer), column "chunk_size_bytes" .integer,
    column "checksum_expected" (.varchar 64), withDefault "in_progress" (column "status" (.varchar 20)),
    column "expires_at" .timestamp, createdAt "created_at"]

def datasets : List Column :=
  [identifier, required (foreignKey "projects" (column "project_id" .uuid)), required (column "name" (.varchar 255)),
    column "description" .text, withDefault "draft" (column "status" (.varchar 20)),
    foreignKey "users" (column "created_by" .uuid), createdAt "created_at"]

def datasetVersions : List Column :=
  [identifier, required (foreignKey "datasets" (column "dataset_id" .uuid)),
    required (column "version_tag" (.varchar 50)), required (withDefault "[]" (column "episode_refs" .jsonb)),
    column "episode_count" .integer, column "total_size_bytes" .bigInteger,
    withDefault "false" (column "is_immutable" .boolean), foreignKey "users" (column "created_by" .uuid),
    createdAt "created_at"]

def annotationTasks : List Column :=
  [identifier, required (foreignKey "projects" (column "project_id" .uuid)),
    foreignKey "dataset_versions" (column "dataset_version_id" .uuid), required (column "type" (.varchar 50)),
    column "guideline_url" (.varchar 500), withDefault "[]" (column "required_skills" .jsonb),
    column "deadline" .timestamp, required (withDefault "created" (column "status" (.varchar 20))),
    foreignKey "users" (column "assigned_to" .uuid), column "label_studio_task_id" .integer,
    foreignKey "users" (column "created_by" .uuid), createdAt "created_at", column "updated_at" .timestamp]

def annotations : List Column :=
  [identifier, required (foreignKey "annotation_tasks" (column "task_id" .uuid)),
    required (foreignKey "episodes" (column "episode_id" .uuid)),
    required (foreignKey "users" (column "annotator_id" .uuid)), column "time_start" .float, column "time_end" .float,
    required (withDefault "{}" (column "labels" .jsonb)), withDefault "1" (column "version" .integer),
    withDefault "draft" (column "status" (.varchar 20)), column "reviewer_comment" .text,
    column "label_studio_annotation_id" .integer, column "submitted_at" .timestamp, createdAt "created_at"]

def exportJobs : List Column :=
  [identifier, required (foreignKey "dataset_versions" (column "dataset_version_id" .uuid)),
    foreignKey "users" (column "triggered_by" .uuid), required (column "format" (.varchar 30)),
    required (column "target_bucket" (.varchar 255)), column "target_prefix" (.varchar 500),
    withDefault "pending" (column "status" (.varchar 20)), withDefault "0" (column "progress_pct" .float),
    column "manifest_url" (.varchar 1000), column "error_message" .text, column "started_at" .timestamp,
    column "completed_at" .timestamp, createdAt "created_at"]

def recordingSessions : List Column :=
  [identifier, required (foreignKey "projects" (column "project_id" .uuid)), column "robot_id" (.varchar 255),
    withDefault "active" (column "status" (.varchar 20)), withDefault "[]" (column "episode_ids" .jsonb),
    createdAt "started_at", column "ended_at" .timestamp]

def initialSchema : Migration where
  revision := "001"
  downRevision := none
  upgrade :=
    [.createTable "projects" projects, .createTable "users" users, .createTable "episodes" episodes,
      .createIndex "ix_episodes_project_status" "episodes" ["project_id", "status"],
      .createIndex "ix_episodes_recorded_at" "episodes" ["recorded_at"], .createTable "topics" topics,
      .createIndex "ix_topics_episode" "topics" ["episode_id"], .createTable "upload_sessions" uploadSessions,
      .createTable "datasets" datasets, .createTable "dataset_versions" datasetVersions,
      .createTable "annotation_tasks" annotationTasks,
      .createIndex "ix_tasks_project_status" "annotation_tasks" ["project_id", "status"],
      .createIndex "ix_tasks_assigned_to" "annotation_tasks" ["assigned_to"], .createTable "annotations" annotations,
      .createTable "export_jobs" exportJobs, .createTable "recording_sessions" recordingSessions]
  downgrade :=
    ["recording_sessions", "export_jobs", "annotations", "annotation_tasks", "dataset_versions", "datasets",
      "upload_sessions", "topics", "episodes", "users", "projects"].map .dropTable

def exportJobsUpdatedAt : Migration where
  revision := "002"
  downRevision := some "001"
  upgrade := [.addColumn "export_jobs" (column "updated_at" .timestamp)]
  downgrade := [.dropColumn "export_jobs" "updated_at"]

def annotationTasksEpisodeId : Migration where
  revision := "003"
  downRevision := some "002"
  upgrade :=
    [.addColumn "annotation_tasks" (foreignKey "episodes" (column "episode_id" .uuid)),
      .createIndex "ix_tasks_episode_id" "annotation_tasks" ["episode_id"]]
  downgrade := [.dropIndex "ix_tasks_episode_id", .dropColumn "annotation_tasks" "episode_id"]

def annotationTasksResult : Migration where
  revision := "004"
  downRevision := some "003"
  upgrade := [.addColumn "annotation_tasks" (column "annotation_result" .jsonb)]
  downgrade := [.dropColumn "annotation_tasks" "annotation_result"]

def versions : List Migration := [initialSchema, exportJobsUpdatedAt, annotationTasksEpisodeId, annotationTasksResult]

example : versions.map Migration.downRevision = none :: (versions.take 3).map fun m => some m.revision := rfl

abbrev head : ℕ := versions.length

def chain (υ : Type) : Chain (Database υ) where
  up r d := versions[r]?.bind fun m => runAll m.upgrade d
  down r d := versions[r]?.bind fun m => runAll m.downgrade d

def catalogAt (r : ℕ) : Catalog :=
  (alterAll ((versions.take r).flatMap Migration.upgrade) Catalog.empty).getD Catalog.empty

def Migration.added (m : Migration) : List (String × String) :=
  m.upgrade.filterMap fun
    | .addColumn table col => some (table, col.name)
    | _ => none

def Migration.dropped (m : Migration) : List (String × String) :=
  m.downgrade.filterMap fun
    | .dropColumn table name => some (table, name)
    | _ => none

def Migration.dropsTables (m : Migration) : Bool :=
  m.downgrade.any fun
    | .dropTable _ => true
    | _ => false

def addedBetween (q r : ℕ) : List (String × String) := ((versions.take r).drop q).flatMap Migration.added

/-- What a database may be: made by migrations, and written to in between as the constraints allow. -/
inductive Reachable {υ : Type} : ℕ → Database υ → Prop
  | fresh : Reachable 0 (Database.empty υ)
  | migrated {r q : ℕ} {d e : Database υ} (h : Reachable r d) (hq : q ≤ head)
      (hmove : (chain υ).move r q d = some e) : Reachable q e
  | written {r : ℕ} {d e : Database υ} (h : Reachable r d) (hcatalog : e.catalog = d.catalog) (he : Consistent e) :
      Reachable r e

structure Migration.Reverses (m : Migration) (c c' : Catalog) : Prop where
  up : alterAll m.upgrade c = some c'
  down : alterAll m.downgrade c' = some c
  always : ∀ op ∈ m.upgrade ++ m.downgrade, op.always = true
  spares : ∀ op ∈ m.upgrade ++ m.downgrade, op.spares c = true

theorem versions_reverse : ∀ r (h : r < head), (versions[r]).Reverses (catalogAt r) (catalogAt (r + 1)) := by
  have hup : ∀ r (h : r < head), alterAll (versions[r]).upgrade (catalogAt r) = some (catalogAt (r + 1)) := by
    decide +kernel
  have hdown : ∀ r (h : r < head), alterAll (versions[r]).downgrade (catalogAt (r + 1)) = some (catalogAt r) := by
    decide +kernel
  have hops : ∀ r (h : r < head), ∀ op ∈ (versions[r]).upgrade ++ (versions[r]).downgrade,
      op.always = true ∧ op.spares (catalogAt r) = true := by
    decide +kernel
  exact fun r h => ⟨hup r h, hdown r h, fun op hop => (hops r h op hop).1, fun op hop => (hops r h op hop).2⟩

structure Valid {υ : Type} (r : ℕ) (d : Database υ) : Prop where
  catalog : d.catalog = catalogAt r
  consistent : Consistent d

variable {υ : Type} {r q : ℕ} {d e : Database υ}

theorem up_eq (h : r < head) (d : Database υ) : (chain υ).up r d = runAll (versions[r]).upgrade d := by
  change (versions[r]?.bind fun m => runAll m.upgrade d) = _
  rw [List.getElem?_eq_getElem h, Option.bind_some]

theorem down_eq (h : r < head) (d : Database υ) : (chain υ).down r d = runAll (versions[r]).downgrade d := by
  change (versions[r]?.bind fun m => runAll m.downgrade d) = _
  rw [List.getElem?_eq_getElem h, Option.bind_some]

theorem sound_chain (υ : Type) : (chain υ).Sound Valid head where
  up r d hr hd := by
    have hrev := versions_reverse r hr
    have hspares := hrev.spares
    have hup := hrev.up
    have hdown := hrev.down
    rw [← hd.catalog] at hspares hup hdown
    obtain ⟨e, he, hcatalog, hback⟩ := runAll_undo hrev.always hspares hup hdown
    refine ⟨e, by rw [up_eq hr, he], ⟨hcatalog, consistent_runAll he hd.consistent⟩, ?_⟩
    rw [down_eq hr, hback]
  down r d hr hd := by
    have hrev := versions_reverse r hr
    have hdown := hrev.down
    rw [← hd.catalog] at hdown
    obtain ⟨e, he, hcatalog, -⟩ := exists_runAll (fun op hop => hrev.always op (List.mem_append_right _ hop)) hdown
    exact ⟨e, by rw [down_eq hr, he], hcatalog, consistent_runAll he hd.consistent⟩

theorem valid_empty (υ : Type) : Valid 0 (Database.empty υ) :=
  ⟨(by decide +kernel : Catalog.empty = catalogAt 0), consistent_empty υ⟩

theorem valid_of_reachable (h : Reachable r d) : r ≤ head ∧ Valid r d := by
  induction h with
  | fresh => exact ⟨Nat.zero_le _, valid_empty υ⟩
  | @migrated r q d e h hq hmove ih =>
    obtain ⟨e', he', hvalid⟩ := (sound_chain υ).move_valid ih.1 hq ih.2
    rw [hmove, Option.some.injEq] at he'
    subst he'
    exact ⟨hq, hvalid⟩
  | written h hcatalog he ih => exact ⟨ih.1, hcatalog.trans ih.2.catalog, he⟩

def without (columns : List (String × String)) (table : String) (row : Row υ) : Row υ :=
  fun name => if (table, name) ∈ columns then none else row name

theorem without_nil (table : String) (row : Row υ) : without [] table row = row := by
  funext name
  simp [without]

theorem without_append (columns columns' : List (String × String)) (table : String) (row : Row υ) :
    without columns table (without columns' table row) = without (columns ++ columns') table row := by
  funext name
  by_cases h : (table, name) ∈ columns <;> simp [without, h]

theorem versions_dropped :
    ∀ r (h : r < head), 1 ≤ r → (versions[r]).dropped = (versions[r]).added ∧ (versions[r]).dropsTables = false := by
  decide +kernel

theorem mem_dropped {m : Migration} {table name : String} :
    .dropColumn table name ∈ m.downgrade ↔ (table, name) ∈ m.dropped := by
  simp only [Migration.dropped, List.mem_filterMap]
  constructor
  · exact fun h => ⟨_, h, rfl⟩
  · rintro ⟨op, hop, hsome⟩
    cases op <;> cases hsome
    exact hop

theorem not_dropTable {m : Migration} (h : m.dropsTables = false) (table : String) :
    .dropTable table ∉ m.downgrade := by
  intro hmem
  rw [Migration.dropsTables, List.any_eq_false] at h
  exact h _ hmem rfl

theorem rows_up (hr : r < head) (hd : Valid r d) (h : (chain υ).up r d = some e) : e.rows = d.rows := by
  have hrev := versions_reverse r hr
  have hup := hrev.up
  have hspares := hrev.spares
  rw [← hd.catalog] at hup hspares
  obtain ⟨e', he', -, hrows⟩ := exists_runAll (fun op hop => hrev.always op (List.mem_append_left _ hop)) hup
  rw [up_eq hr, he', Option.some.injEq] at h
  rw [← h, hrows, writeAll_of_spares d fun op hop => hspares op (List.mem_append_left _ hop)]

theorem rows_down (hr : r < head) (hpos : 1 ≤ r) (hd : Valid (r + 1) d) (h : (chain υ).down r d = some e)
    (t : String) : e.rows t = (d.rows t).map (without (versions[r]).added t) := by
  have hrev := versions_reverse r hr
  have hdown := hrev.down
  obtain ⟨hdropped, htables⟩ := versions_dropped r hr hpos
  rw [← hd.catalog] at hdown
  obtain ⟨e', he', -, hrows⟩ := exists_runAll (fun op hop => hrev.always op (List.mem_append_right _ hop)) hdown
  rw [down_eq hr, he', Option.some.injEq] at h
  rw [← h, hrows, writeAll_apply, if_neg (not_dropTable htables t)]
  simp only [mem_dropped, hdropped]
  rfl

theorem rows_ups {n : ℕ} (hr : r + n ≤ head) (hd : Valid r d) (h : (chain υ).ups r n d = some e) : e.rows = d.rows := by
  induction n generalizing r d with
  | zero =>
    cases h
    rfl
  | succ n ih =>
    obtain ⟨d', hup, hups⟩ := Option.bind_eq_some_iff.mp h
    obtain ⟨d'', hup', hvalid, -⟩ := (sound_chain υ).up r d (by omega) hd
    rw [hup, Option.some.injEq] at hup'
    subst hup'
    rw [ih (by omega) hvalid hups, rows_up (by omega) hd hup]

theorem addedBetween_succ (q n : ℕ) (h : q + n < head) :
    addedBetween q (q + (n + 1)) = addedBetween q (q + n) ++ (versions[q + n]).added := by
  have htake : versions.take (q + (n + 1)) = versions.take (q + n) ++ [versions[q + n]] :=
    (List.take_append_getElem h).symm
  rw [addedBetween, addedBetween, htake, List.drop_append_of_le_length, List.flatMap_append, List.flatMap_singleton]
  rw [List.length_take, min_eq_left (Nat.le_of_lt h)]
  exact Nat.le_add_right q n

theorem addedBetween_self (q : ℕ) : addedBetween q q = [] := by
  rw [addedBetween, List.drop_eq_nil_of_le (by rw [List.length_take]; exact min_le_left _ _), List.flatMap_nil]

theorem rows_downs {n : ℕ} (hr : q + n ≤ head) (hpos : 1 ≤ q) (hd : Valid (q + n) d)
    (h : (chain υ).downs q n d = some e) (t : String) :
    e.rows t = (d.rows t).map (without (addedBetween q (q + n)) t) := by
  induction n generalizing d with
  | zero =>
    cases h
    rw [Nat.add_zero, addedBetween_self, List.map_congr_left fun row _ => without_nil t row, List.map_id']
  | succ n ih =>
    have hlt : q + n < head := hr
    obtain ⟨d', hdown, hdowns⟩ := Option.bind_eq_some_iff.mp h
    obtain ⟨d'', hdown', hvalid⟩ := (sound_chain υ).down (q + n) d hlt hd
    rw [hdown, Option.some.injEq] at hdown'
    subst hdown'
    rw [ih (Nat.le_of_lt hlt) hvalid hdowns, rows_down hlt (hpos.trans (Nat.le_add_right q n)) hd hdown,
      List.map_map, addedBetween_succ q n hlt]
    exact List.map_congr_left fun row _ => without_append _ _ t row

theorem rows_of_base (hd : Valid 0 d) (t : String) : d.rows t = [] := by
  apply d.stored t
  rw [hd.catalog]
  exact List.not_mem_nil

/-- Every path of upgrades and downgrades can be taken. It loses the values of the columns added above its lowest
revision, and where that is the base it loses all rows; nothing else changes. PostgreSQL's limit of 1600 columns of a
table, in which it counts the dropped ones, is left out. -/
theorem rows_path {qs : List ℕ} (h : Reachable r d) (hqs : ∀ q ∈ qs, q ≤ head) :
    ∃ e, (chain υ).path r qs d = some e ∧ e.catalog = catalogAt (last r qs) ∧ Consistent e ∧
      ∀ t, e.rows t = if lowest r qs = 0 then []
        else (d.rows t).map (without (addedBetween (lowest r qs) r) t) := by
  obtain ⟨hr, hd⟩ := valid_of_reachable h
  have hlow : lowest r qs ≤ r := lowest_le r qs
  have hlast : last r qs ≤ head := last_le hr hqs
  obtain ⟨low, hdown, hvalid⟩ := (sound_chain υ).move_valid hr (hlow.trans hr) hd
  obtain ⟨e, hup, he⟩ := (sound_chain υ).move_valid (hlow.trans hr) hlast hvalid
  refine ⟨e, ?_, he.catalog, he.consistent, fun t => ?_⟩
  · rw [(sound_chain υ).path_eq hr hqs hd, hdown]
    exact hup
  · obtain ⟨n, hn⟩ := Nat.exists_eq_add_of_le (lowest_le_last r qs)
    rw [hn, move_add] at hup
    rw [rows_ups (hn ▸ hlast) hvalid hup]
    obtain ⟨m, hm⟩ := Nat.exists_eq_add_of_le hlow
    split_ifs with hbase
    · rw [hbase] at hvalid
      exact rows_of_base hvalid t
    · generalize lowest r qs = k at *
      subst hm
      rw [move_down] at hdown
      exact rows_downs hr (Nat.one_le_iff_ne_zero.mpr hbase) hd hdown t

def rowOf (values : List (String × ℕ)) : Row ℕ := fun name => values.lookup name

def project : List (String × ℕ) := [("id", 1), ("name", 2)]

def ratedTask : List (String × ℕ) :=
  [("id", 3), ("project_id", 1), ("type", 4), ("status", 5), ("annotation_result", 6)]

def ratedRows (table : String) : List (Row ℕ) :=
  if table = "projects" then [rowOf project] else if table = "annotation_tasks" then [rowOf ratedTask] else []

theorem mem_ratedRows {table : String} {row : Row ℕ} (h : row ∈ ratedRows table) :
    table = "projects" ∧ row = rowOf project ∨ table = "annotation_tasks" ∧ row = rowOf ratedTask := by
  rw [ratedRows] at h
  split_ifs at h with hprojects htasks
  · exact Or.inl ⟨hprojects, List.mem_singleton.mp h⟩
  · exact Or.inr ⟨htasks, List.mem_singleton.mp h⟩
  · cases h

theorem rowOf_eq_none {values : List (String × ℕ)} {names : List String} {name : String}
    (h : ∀ p ∈ values, p.1 ∈ names) (hname : name ∉ names) : rowOf values name = none := by
  apply List.lookup_eq_none_iff.mpr
  intro p hp
  exact bne_iff_ne.mpr fun heq => hname (heq ▸ h p hp)

theorem columns_projects : (catalogAt 4).columns "projects" = projects := by decide +kernel

def taskColumns : List Column :=
  annotationTasks ++ [foreignKey "episodes" (column "episode_id" .uuid), column "annotation_result" .jsonb]

theorem columns_annotationTasks : (catalogAt 4).columns "annotation_tasks" = taskColumns := by decide +kernel

theorem mem_keys_of_columns {c : Catalog} {table : String} {col : Column} {columns : List Column}
    (h : c.columns table = col :: columns) : table ∈ c.tables.keys := by
  by_contra hnot
  rw [columns_of_not_mem hnot] at h
  cases h

def rated : Database ℕ where
  catalog := catalogAt 4
  rows := ratedRows
  stored table htable := by
    rw [ratedRows, if_neg, if_neg]
    · rintro rfl
      exact htable (mem_keys_of_columns columns_annotationTasks)
    · rintro rfl
      exact htable (mem_keys_of_columns columns_projects)
  blank table row hrow name hname := by
    rw [Catalog.columnNames] at hname
    rcases mem_ratedRows hrow with ⟨rfl, rfl⟩ | ⟨rfl, rfl⟩
    · rw [columns_projects] at hname
      exact rowOf_eq_none (by decide) hname
    · rw [columns_annotationTasks] at hname
      exact rowOf_eq_none (by decide) hname

theorem consistent_rated : Consistent rated where
  notNull table col hcol hnull row hrow := by
    rcases mem_ratedRows hrow with ⟨rfl, rfl⟩ | ⟨rfl, rfl⟩
    · rw [show rated.catalog.columns "projects" = projects from columns_projects] at hcol
      exact (by decide : ∀ col ∈ projects, col.nullable = false → rowOf project col.name ≠ none) col hcol hnull
    · rw [show rated.catalog.columns "annotation_tasks" = _ from columns_annotationTasks] at hcol
      exact (by decide : ∀ col ∈ taskColumns, col.nullable = false → rowOf ratedTask col.name ≠ none) col hcol hnull
  foreign table col hcol fk hfk row hrow v hv := by
    rcases mem_ratedRows hrow with ⟨rfl, rfl⟩ | ⟨rfl, rfl⟩
    · rw [show rated.catalog.columns "projects" = projects from columns_projects] at hcol
      have hnone : ∀ col ∈ projects, col.references = none := by decide
      rw [hnone col hcol] at hfk
      cases hfk
    · rw [show rated.catalog.columns "annotation_tasks" = _ from columns_annotationTasks] at hcol
      have hproject : ∀ col ∈ taskColumns, ∀ fk ∈ col.references, ∀ v ∈ rowOf ratedTask col.name,
          fk.table = "projects" ∧ rowOf project fk.column = some v := by
        decide
      obtain ⟨htable, hvalue⟩ := hproject col hcol fk hfk v hv
      refine ⟨rowOf project, ?_, hvalue⟩
      rw [htable]
      exact List.mem_singleton_self _
  keys table col hcol hkey := by
    change (ratedRows table).Pairwise _
    rw [ratedRows]
    split_ifs
    · exact List.pairwise_singleton _ _
    · exact List.pairwise_singleton _ _
    · exact List.Pairwise.nil

theorem reachable_rated : Reachable 4 rated := by
  obtain ⟨e, he, hvalid⟩ := (sound_chain ℕ).move_valid (Nat.zero_le head) (le_refl head) (valid_empty ℕ)
  exact .written (.migrated .fresh (le_refl head) he) hvalid.catalog.symm consistent_rated

theorem rows_path_rated :
    ∃ e, (chain ℕ).path 4 [2, 4] rated = some e ∧ e.catalog = catalogAt (last 4 [2, 4]) ∧ Consistent e ∧
      ∀ t, e.rows t = if lowest 4 [2, 4] = 0 then []
        else (rated.rows t).map (without (addedBetween (lowest 4 [2, 4]) 4) t) :=
  rows_path reachable_rated (by decide)

theorem schema_reachable (h : Reachable r d) :
    d.catalog = catalogAt r ∧ Consistent d ∧
      ∀ q ≤ head, ∃ e, (chain υ).move r q d = some e ∧ e.catalog = catalogAt q ∧ Consistent e := by
  obtain ⟨hr, hd⟩ := valid_of_reachable h
  refine ⟨hd.catalog, hd.consistent, fun q hq => ?_⟩
  obtain ⟨e, he, hvalid⟩ := (sound_chain υ).move_valid hr hq hd
  exact ⟨e, he, hvalid.catalog, hvalid.consistent⟩

theorem schema_reachable_rated :
    rated.catalog = catalogAt 4 ∧ Consistent rated ∧
      ∀ q ≤ head, ∃ e, (chain ℕ).move 4 q rated = some e ∧ e.catalog = catalogAt q ∧ Consistent e :=
  schema_reachable reachable_rated

end Embedai.Migrations
