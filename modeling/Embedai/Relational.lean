import Mathlib.Data.List.Pairwise
import Mathlib.Logic.Function.Basic
import Embedai.OrderedDict

/-!
Tables with foreign keys and indexes, the statements that change them, and the rows. A row gives each column its value,
and `none` is `NULL`.
-/

namespace Embedai.Relational

inductive ColumnType
  | uuid
  | varchar (width : ℕ)
  | text
  | jsonb
  | timestamp
  | boolean
  | integer
  | bigInteger
  | float
  deriving DecidableEq

structure ForeignKey where
  table : String
  column : String
  cascade : Bool
  deriving DecidableEq

structure Column where
  name : String
  type : ColumnType
  nullable : Bool
  primaryKey : Bool
  unique : Bool
  serverDefault : Option String
  references : Option ForeignKey
  deriving DecidableEq

/-- Tables and indexes share their names. -/
structure Catalog where
  tables : OrderedDict String (List Column)
  indexes : OrderedDict String (String × List String)

instance : DecidableEq Catalog := fun c c' =>
  if h : c.tables.items = c'.tables.items ∧ c.indexes.items = c'.indexes.items then
    isTrue (by
      obtain ⟨⟨tables, htables⟩, ⟨indexes, hindexes⟩⟩ := c
      obtain ⟨⟨tables', htables'⟩, ⟨indexes', hindexes'⟩⟩ := c'
      obtain ⟨rfl, rfl⟩ := h
      rfl)
  else isFalse (by
    rintro rfl
    exact h ⟨rfl, rfl⟩)

inductive Operation
  | createTable (table : String) (columns : List Column)
  | dropTable (table : String)
  | createIndex (name table : String) (columns : List String)
  | dropIndex (name : String)
  | addColumn (table : String) (column : Column)
  | dropColumn (table column : String)
  deriving DecidableEq

namespace Catalog

def empty : Catalog := ⟨OrderedDict.empty, OrderedDict.empty⟩

def columns (c : Catalog) (table : String) : List Column := (c.tables.get? table).getD []

def columnNames (c : Catalog) (table : String) : List String := (c.columns table).map Column.name

def relations (c : Catalog) : List String := c.tables.keys ++ c.indexes.keys

def foreignKeys (c : Catalog) : List (String × ForeignKey) :=
  c.tables.items.flatMap fun t => t.2.filterMap fun col => col.references.map fun fk => (t.1, fk)

def resolves (c : Catalog) (table : String) (columns : List Column) (col : Column) : Bool :=
  col.references.all fun fk => (if fk.table = table then columns else c.columns fk.table).any fun target =>
    target.name = fk.column && (target.primaryKey || target.unique)

def dropIndexes (c : Catalog) (p : String × List String → Bool) : OrderedDict String (String × List String) :=
  ⟨c.indexes.items.filter fun i => !p i.2, c.indexes.nodup.sublist (List.filter_sublist.map _)⟩

end Catalog

def Operation.alter (c : Catalog) : Operation → Option Catalog
  | createTable table columns =>
    if h : table ∉ c.relations ∧ (columns.map Column.name).Nodup ∧ columns.all (c.resolves table columns) then
      some { c with tables := c.tables.append table columns fun hmem => h.1 (List.mem_append_left _ hmem) }
    else none
  | dropTable table =>
    if table ∈ c.tables.keys ∧ ∀ r ∈ c.foreignKeys, r.1 = table ∨ r.2.table ≠ table then
      some ⟨c.tables.erase table, c.dropIndexes fun i => i.1 = table⟩
    else none
  | createIndex name table columns =>
    if h : name ∉ c.relations ∧ table ∈ c.tables.keys ∧ ∀ col ∈ columns, col ∈ c.columnNames table then
      some { c with indexes := c.indexes.append name (table, columns) fun hmem => h.1 (List.mem_append_right _ hmem) }
    else none
  | dropIndex name => if name ∈ c.indexes.keys then some { c with indexes := c.indexes.erase name } else none
  | addColumn table col =>
    if table ∈ c.tables.keys ∧ col.name ∉ c.columnNames table ∧ c.resolves table (c.columns table ++ [col]) col then
      some { c with tables := c.tables.modify table (· ++ [col]) }
    else none
  | dropColumn table column =>
    if column ∈ c.columnNames table ∧ ∀ r ∈ c.foreignKeys, r.2.table = table → r.2.column ≠ column then
      some ⟨c.tables.modify table (·.filter fun col => col.name ≠ column),
        c.dropIndexes fun i => i.1 = table && i.2.contains column⟩
    else none

abbrev Row (υ : Type) := String → Option υ

variable {υ : Type}

def Operation.write (rows : String → List (Row υ)) : Operation → String → List (Row υ)
  | dropTable table => Function.update rows table []
  | dropColumn table column =>
    Function.update rows table ((rows table).map fun row => Function.update row column none)
  | _ => rows

def Operation.columns (c : Catalog) (t : String) : Operation → List Column
  | createTable table columns => if t = table then columns else c.columns t
  | dropTable table => if t = table then [] else c.columns t
  | addColumn table col => if t = table then c.columns table ++ [col] else c.columns t
  | dropColumn table column =>
    if t = table then (c.columns table).filter fun col => col.name ≠ column else c.columns t
  | _ => c.columns t

section Alter

variable {c c' : Catalog} {op : Operation}

theorem columns_of_not_mem {table : String} (h : table ∉ c.tables.keys) : c.columns table = [] := by
  rw [Catalog.columns, OrderedDict.get?_eq_none.mpr h, Option.getD_none]

theorem mem_columns {table : String} {col : Column} :
    col ∈ c.columns table ↔ ∃ columns, c.tables.get? table = some columns ∧ col ∈ columns := by
  rw [Catalog.columns]
  cases c.tables.get? table <;> simp

theorem mem_foreignKeys {table : String} {fk : ForeignKey} :
    (table, fk) ∈ c.foreignKeys ↔ ∃ col ∈ c.columns table, col.references = some fk := by
  simp only [Catalog.foreignKeys, List.mem_flatMap, List.mem_filterMap, Option.map_eq_some_iff, Prod.mk.injEq,
    Prod.exists, mem_columns, OrderedDict.mem_items]
  constructor
  · rintro ⟨owner, columns, hcolumns, col, hcol, fk', hfk, rfl, rfl⟩
    exact ⟨col, ⟨columns, hcolumns, hcol⟩, hfk⟩
  · rintro ⟨col, ⟨columns, hcolumns, hcol⟩, hfk⟩
    exact ⟨table, columns, hcolumns, col, hcol, fk, hfk, rfl, rfl⟩

theorem columns_append {table : String} {columns : List Column} (h : table ∉ c.tables.keys)
    (indexes : OrderedDict String (String × List String)) (t : String) :
    (Catalog.mk (c.tables.append table columns h) indexes).columns t = if t = table then columns else c.columns t := by
  rw [Catalog.columns, OrderedDict.get?_append]
  split_ifs <;> rfl

theorem columns_erase (table : String) (indexes : OrderedDict String (String × List String)) (t : String) :
    (Catalog.mk (c.tables.erase table) indexes).columns t = if t = table then [] else c.columns t := by
  rw [Catalog.columns, OrderedDict.get?_erase]
  split_ifs <;> rfl

theorem columns_modify {table : String} {f : List Column → List Column} (h : table ∈ c.tables.keys)
    (indexes : OrderedDict String (String × List String)) (t : String) :
    (Catalog.mk (c.tables.modify table f) indexes).columns t =
      if t = table then f (c.columns table) else c.columns t := by
  rw [Catalog.columns, OrderedDict.get?_modify]
  split_ifs with ht
  · subst ht
    obtain ⟨columns, hcolumns⟩ := OrderedDict.mem_keys.mp h
    rw [Catalog.columns, hcolumns]
    rfl
  · rfl

theorem mem_keys_of_columnNames {table name : String} (h : name ∈ c.columnNames table) : table ∈ c.tables.keys := by
  by_contra hnot
  rw [Catalog.columnNames, columns_of_not_mem hnot] at h
  cases h

theorem columns_alter (h : op.alter c = some c') (t : String) : c'.columns t = op.columns c t := by
  cases op with
  | createTable table columns =>
    simp only [Operation.alter] at h
    split_ifs at h with hcheck
    cases h
    exact columns_append (fun hmem => hcheck.1 (List.mem_append_left _ hmem)) _ t
  | dropTable table =>
    simp only [Operation.alter] at h
    split_ifs at h
    cases h
    exact columns_erase table _ t
  | createIndex name table columns =>
    simp only [Operation.alter] at h
    split_ifs at h
    cases h
    rfl
  | dropIndex name =>
    simp only [Operation.alter] at h
    split_ifs at h
    cases h
    rfl
  | addColumn table col =>
    simp only [Operation.alter] at h
    split_ifs at h with hcheck
    cases h
    exact columns_modify hcheck.1 _ t
  | dropColumn table column =>
    simp only [Operation.alter] at h
    split_ifs at h with hcheck
    cases h
    exact columns_modify (mem_keys_of_columnNames hcheck.1) _ t

theorem not_mem_keys_alter (h : op.alter c = some c') {t : String} (ht : t ∉ c'.tables.keys) :
    t ∉ c.tables.keys ∨ op = .dropTable t := by
  cases op with
  | createTable table columns =>
    simp only [Operation.alter] at h
    split_ifs at h
    cases h
    rw [OrderedDict.keys_append] at ht
    exact Or.inl fun hmem => ht (List.mem_append_left _ hmem)
  | dropTable table =>
    simp only [Operation.alter] at h
    split_ifs at h
    cases h
    rw [OrderedDict.mem_keys_erase, not_and] at ht
    by_cases htable : t = table
    · exact Or.inr (by rw [htable])
    · exact Or.inl (ht htable)
  | createIndex name table columns =>
    simp only [Operation.alter] at h
    split_ifs at h
    cases h
    exact Or.inl ht
  | dropIndex name =>
    simp only [Operation.alter] at h
    split_ifs at h
    cases h
    exact Or.inl ht
  | addColumn table col =>
    simp only [Operation.alter] at h
    split_ifs at h
    cases h
    exact Or.inl (by rwa [OrderedDict.keys_modify] at ht)
  | dropColumn table column =>
    simp only [Operation.alter] at h
    split_ifs at h
    cases h
    exact Or.inl (by rwa [OrderedDict.keys_modify] at ht)

end Alter

/-- A table that does not exist has no rows, and a row has no value for a column that does not exist. -/
structure Database (υ : Type) where
  catalog : Catalog
  rows : String → List (Row υ)
  stored : ∀ table, table ∉ catalog.tables.keys → rows table = []
  blank : ∀ table, ∀ row ∈ rows table, ∀ name, name ∉ catalog.columnNames table → row name = none

def Database.empty (υ : Type) : Database υ := ⟨Catalog.empty, fun _ => [], fun _ _ => rfl, nofun⟩

theorem stored_write {c c' : Catalog} {op : Operation} {rows : String → List (Row υ)} (h : op.alter c = some c')
    (hstored : ∀ table, table ∉ c.tables.keys → rows table = []) :
    ∀ table, table ∉ c'.tables.keys → op.write rows table = [] := by
  intro t ht
  rcases not_mem_keys_alter h ht with hbefore | rfl
  · have hrows := hstored t hbefore
    cases op with
    | dropTable table =>
      rw [Operation.write, Function.update_apply]
      split_ifs
      · rfl
      · exact hrows
    | dropColumn table column =>
      rw [Operation.write, Function.update_apply]
      split_ifs with htable
      · rw [← htable, hrows, List.map_nil]
      · exact hrows
    | createTable => exact hrows
    | createIndex => exact hrows
    | dropIndex => exact hrows
    | addColumn => exact hrows
  · exact Function.update_self _ _ _

theorem not_mem_relations {c : Catalog} {table : String} (h : table ∉ c.relations) : table ∉ c.tables.keys :=
  fun hmem => h (List.mem_append_left _ hmem)

theorem blank_write {c c' : Catalog} {op : Operation} {rows : String → List (Row υ)} (h : op.alter c = some c')
    (hstored : ∀ table, table ∉ c.tables.keys → rows table = [])
    (hblank : ∀ table, ∀ row ∈ rows table, ∀ name, name ∉ c.columnNames table → row name = none) :
    ∀ table, ∀ row ∈ op.write rows table, ∀ name, name ∉ c'.columnNames table → row name = none := by
  intro t row hrow name hname
  rw [Catalog.columnNames, columns_alter h] at hname
  cases op with
  | createTable table columns =>
    rw [Operation.columns] at hname
    split_ifs at hname with ht
    · simp only [Operation.alter] at h
      split_ifs at h with hcheck
      change row ∈ rows t at hrow
      rw [ht, hstored table (not_mem_relations hcheck.1)] at hrow
      cases hrow
    · exact hblank t row hrow name hname
  | dropTable table =>
    rw [Operation.columns] at hname
    rw [Operation.write, Function.update_apply] at hrow
    split_ifs at hname hrow
    · cases hrow
    · exact hblank t row hrow name hname
  | createIndex => exact hblank t row hrow name hname
  | dropIndex => exact hblank t row hrow name hname
  | addColumn table col =>
    apply hblank t row hrow name
    rw [Operation.columns] at hname
    split_ifs at hname with ht
    · subst ht
      rw [List.map_append, List.mem_append, not_or] at hname
      exact hname.1
    · exact hname
  | dropColumn table column =>
    rw [Operation.columns] at hname
    rw [Operation.write, Function.update_apply] at hrow
    split_ifs at hname hrow with ht
    · subst ht
      obtain ⟨old, hold, rfl⟩ := List.mem_map.mp hrow
      rw [Function.update_apply]
      split_ifs with hcolumn
      · rfl
      · apply hblank t old hold name
        rintro hmem
        obtain ⟨col, hcol, hcolname⟩ := List.mem_map.mp hmem
        refine hname (List.mem_map.mpr ⟨col, List.mem_filter.mpr ⟨hcol, ?_⟩, hcolname⟩)
        rw [hcolname]
        exact decide_eq_true hcolumn
    · exact hblank t row hrow name hname

/-- A new column starts as `NULL`, so it has to allow it where there are rows. -/
def Operation.fits (rows : String → List (Row υ)) : Operation → Bool
  | addColumn table col => col.serverDefault = none && (col.nullable || (rows table).isEmpty)
  | _ => true

def Operation.run (op : Operation) (d : Database υ) : Option (Database υ) :=
  match h : op.alter d.catalog with
  | none => none
  | some c =>
    if op.fits d.rows then some ⟨c, op.write d.rows, stored_write h d.stored, blank_write h d.stored d.blank⟩ else none

def runAll : List Operation → Database υ → Option (Database υ)
  | [], d => some d
  | op :: ops, d => (op.run d).bind (runAll ops)

def alterAll : List Operation → Catalog → Option Catalog
  | [], c => some c
  | op :: ops, c => (op.alter c).bind (alterAll ops)

def writeAll (ops : List Operation) (rows : String → List (Row υ)) : String → List (Row υ) :=
  ops.foldl Operation.write rows

structure Consistent (d : Database υ) : Prop where
  notNull : ∀ table, ∀ col ∈ d.catalog.columns table, col.nullable = false → ∀ row ∈ d.rows table, row col.name ≠ none
  foreign : ∀ table, ∀ col ∈ d.catalog.columns table, ∀ fk, col.references = some fk → ∀ row ∈ d.rows table,
    ∀ v, row col.name = some v → ∃ target ∈ d.rows fk.table, target fk.column = some v
  keys : ∀ table, ∀ col ∈ d.catalog.columns table, col.primaryKey ∨ col.unique →
    (d.rows table).Pairwise fun a b => a col.name = none ∨ a col.name ≠ b col.name

section Run

variable {d d' : Database υ} {op : Operation} {ops : List Operation} {c : Catalog}

theorem database_ext (hcatalog : d.catalog = d'.catalog) (hrows : d.rows = d'.rows) : d = d' := by
  obtain ⟨catalog, rows, _, _⟩ := d
  obtain ⟨catalog', rows', _, _⟩ := d'
  cases hcatalog
  cases hrows
  rfl

theorem run_eq_some : op.run d = some d' ↔
    op.fits d.rows = true ∧ op.alter d.catalog = some d'.catalog ∧ d'.rows = op.write d.rows := by
  unfold Operation.run
  constructor
  · intro h
    split at h
    · cases h
    · next c halter =>
      split_ifs at h with hfits
      cases h
      exact ⟨hfits, halter, rfl⟩
  · rintro ⟨hfits, halter, hrows⟩
    split
    · next hnone =>
      rw [hnone] at halter
      cases halter
    · next c hsome =>
      rw [if_pos hfits, Option.some.injEq]
      rw [hsome, Option.some.injEq] at halter
      exact database_ext halter hrows.symm

theorem exists_run (hfits : op.fits d.rows = true) (h : op.alter d.catalog = some c) :
    ∃ d', op.run d = some d' ∧ d'.catalog = c ∧ d'.rows = op.write d.rows :=
  ⟨⟨c, op.write d.rows, stored_write h d.stored, blank_write h d.stored d.blank⟩, run_eq_some.mpr ⟨hfits, h, rfl⟩, rfl,
    rfl⟩

theorem consistent_empty (υ : Type) : Consistent (Database.empty υ) where
  notNull _ _ _ _ := nofun
  foreign _ _ _ _ _ := nofun
  keys _ _ _ _ := List.Pairwise.nil

theorem consistent_same (hd : Consistent d) (hrows : d'.rows = d.rows)
    (h : ∀ table, ∀ col ∈ d'.catalog.columns table, ∀ row ∈ d.rows table, col ∈ d.catalog.columns table ∨
      (col.nullable = true ∧ ∀ row ∈ d.rows table, row col.name = none)) : Consistent d' where
  notNull table col hcol hnull row hrow := by
    rw [hrows] at hrow
    rcases h table col hcol row hrow with hold | ⟨hnullable, -⟩
    · exact hd.notNull table col hold hnull row hrow
    · rw [hnull] at hnullable
      cases hnullable
  foreign table col hcol fk hfk row hrow v hv := by
    rw [hrows] at hrow ⊢
    rcases h table col hcol row hrow with hold | ⟨-, hnone⟩
    · exact hd.foreign table col hold fk hfk row hrow v hv
    · rw [hnone row hrow] at hv
      cases hv
  keys table col hcol hkey := by
    rw [hrows]
    by_cases hempty : d.rows table = []
    · rw [hempty]
      exact List.Pairwise.nil
    · obtain ⟨row, hrow⟩ := List.exists_mem_of_ne_nil _ hempty
      rcases h table col hcol row hrow with hold | ⟨-, hnone⟩
      · exact hd.keys table col hold hkey
      · exact List.Pairwise.imp_of_mem (fun ha _ _ => Or.inl (hnone _ ha)) (List.pairwise_of_forall fun _ _ => trivial)

theorem consistent_addColumn {table : String} {col : Column} (h : (Operation.addColumn table col).run d = some d')
    (hd : Consistent d) : Consistent d' := by
  obtain ⟨hfits, halter, hrows⟩ := run_eq_some.mp h
  refine consistent_same hd hrows fun t col' hcol' row hrow => ?_
  rw [columns_alter halter, Operation.columns] at hcol'
  split_ifs at hcol' with ht
  · subst ht
    rcases List.mem_append.mp hcol' with hold | hnew
    · exact Or.inl hold
    · rw [List.mem_singleton.mp hnew]
      simp only [Operation.fits, Bool.and_eq_true, Bool.or_eq_true, List.isEmpty_iff] at hfits
      rcases hfits.2 with hnullable | hempty
      · simp only [Operation.alter] at halter
        split_ifs at halter with hcheck
        exact Or.inr ⟨hnullable, fun row hrow => d.blank t row hrow col.name hcheck.2.1⟩
      · rw [hempty] at hrow
        cases hrow
  · exact Or.inl hcol'

theorem consistent_createTable {table : String} {columns : List Column}
    (h : (Operation.createTable table columns).run d = some d') (hd : Consistent d) : Consistent d' := by
  obtain ⟨-, halter, hrows⟩ := run_eq_some.mp h
  refine consistent_same hd hrows fun t col hcol row hrow => ?_
  rw [columns_alter halter, Operation.columns] at hcol
  split_ifs at hcol with ht
  · simp only [Operation.alter] at halter
    split_ifs at halter with hcheck
    rw [ht, d.stored table (not_mem_relations hcheck.1)] at hrow
    cases hrow
  · exact Or.inl hcol

theorem consistent_dropTable {table : String} (h : (Operation.dropTable table).run d = some d') (hd : Consistent d) :
    Consistent d' := by
  obtain ⟨-, halter, hrows⟩ := run_eq_some.mp h
  have hcolumns : ∀ t, ∀ col ∈ d'.catalog.columns t, t ≠ table ∧ col ∈ d.catalog.columns t := by
    intro t col hcol
    rw [columns_alter halter, Operation.columns] at hcol
    split_ifs at hcol with ht
    · cases hcol
    · exact ⟨ht, hcol⟩
  have hother : ∀ t, t ≠ table → d'.rows t = d.rows t := fun t ht => by
    rw [hrows, Operation.write, Function.update_of_ne ht]
  constructor
  · intro t col hcol hnull row hrow
    obtain ⟨ht, hold⟩ := hcolumns t col hcol
    rw [hother t ht] at hrow
    exact hd.notNull t col hold hnull row hrow
  · intro t col hcol fk hfk row hrow v hv
    obtain ⟨ht, hold⟩ := hcolumns t col hcol
    rw [hother t ht] at hrow
    simp only [Operation.alter] at halter
    split_ifs at halter with hcheck
    have hfree := (hcheck.2 (t, fk) (mem_foreignKeys.mpr ⟨col, hold, hfk⟩)).resolve_left ht
    rw [hother fk.table hfree]
    exact hd.foreign t col hold fk hfk row hrow v hv
  · intro t col hcol hkey
    obtain ⟨ht, hold⟩ := hcolumns t col hcol
    rw [hother t ht]
    exact hd.keys t col hold hkey

theorem consistent_dropColumn {table column : String} (h : (Operation.dropColumn table column).run d = some d')
    (hd : Consistent d) : Consistent d' := by
  obtain ⟨-, halter, hrows⟩ := run_eq_some.mp h
  have hcolumns : ∀ t, ∀ col ∈ d'.catalog.columns t, col ∈ d.catalog.columns t ∧ (t = table → col.name ≠ column) := by
    intro t col hcol
    rw [columns_alter halter, Operation.columns] at hcol
    split_ifs at hcol with ht
    · obtain ⟨hcol, hne⟩ := List.mem_filter.mp hcol
      exact ⟨ht ▸ hcol, fun _ => of_decide_eq_true hne⟩
    · exact ⟨hcol, fun heq => absurd heq ht⟩
  -- every row comes from a row that agrees with it where the column is not the dropped one
  have hfrom : ∀ t, ∀ row ∈ d'.rows t, ∃ old ∈ d.rows t, ∀ name, (t = table → name ≠ column) → row name = old name := by
    intro t row hrow
    rw [hrows, Operation.write, Function.update_apply] at hrow
    split_ifs at hrow with ht
    · obtain ⟨old, hold, rfl⟩ := List.mem_map.mp hrow
      exact ⟨old, ht ▸ hold, fun name hname => Function.update_of_ne (hname ht) _ _⟩
    · exact ⟨row, hrow, fun _ _ => rfl⟩
  constructor
  · intro t col hcol hnull row hrow
    obtain ⟨hold, hne⟩ := hcolumns t col hcol
    obtain ⟨old, holdrow, hsame⟩ := hfrom t row hrow
    rw [hsame col.name hne]
    exact hd.notNull t col hold hnull old holdrow
  · intro t col hcol fk hfk row hrow v hv
    obtain ⟨hold, hne⟩ := hcolumns t col hcol
    obtain ⟨old, holdrow, hsame⟩ := hfrom t row hrow
    rw [hsame col.name hne] at hv
    obtain ⟨target, htarget, hvalue⟩ := hd.foreign t col hold fk hfk old holdrow v hv
    simp only [Operation.alter] at halter
    split_ifs at halter with hcheck
    have hfree := hcheck.2 (t, fk) (mem_foreignKeys.mpr ⟨col, hold, hfk⟩)
    rw [hrows, Operation.write, Function.update_apply]
    split_ifs with ht
    · refine ⟨_, List.mem_map_of_mem (ht ▸ htarget), ?_⟩
      rw [Function.update_of_ne (hfree ht), hvalue]
    · exact ⟨target, htarget, hvalue⟩
  · intro t col hcol hkey
    obtain ⟨hold, hne⟩ := hcolumns t col hcol
    have hkeys := hd.keys t col hold hkey
    rw [hrows, Operation.write, Function.update_apply]
    split_ifs with ht
    · subst ht
      rw [List.pairwise_map]
      refine hkeys.imp fun hab => ?_
      rwa [Function.update_of_ne (hne rfl), Function.update_of_ne (hne rfl)]
    · exact hkeys

theorem consistent_run (h : op.run d = some d') (hd : Consistent d) : Consistent d' := by
  cases op with
  | createTable table columns => exact consistent_createTable h hd
  | dropTable table => exact consistent_dropTable h hd
  | createIndex name table columns =>
    obtain ⟨-, halter, hrows⟩ := run_eq_some.mp h
    refine consistent_same hd hrows fun t col hcol _ _ => ?_
    exact Or.inl (by rwa [columns_alter halter] at hcol)
  | dropIndex name =>
    obtain ⟨-, halter, hrows⟩ := run_eq_some.mp h
    refine consistent_same hd hrows fun t col hcol _ _ => ?_
    exact Or.inl (by rwa [columns_alter halter] at hcol)
  | addColumn table col => exact consistent_addColumn h hd
  | dropColumn table column => exact consistent_dropColumn h hd

theorem consistent_runAll (h : runAll ops d = some d') (hd : Consistent d) : Consistent d' := by
  induction ops generalizing d with
  | nil =>
    cases h
    exact hd
  | cons op ops ih =>
    obtain ⟨e, hop, hops⟩ := Option.bind_eq_some_iff.mp h
    exact ih hops (consistent_run hop hd)

def Operation.always : Operation → Bool
  | addColumn _ col => col.serverDefault = none && col.nullable
  | _ => true

def Operation.spares (c : Catalog) : Operation → Bool
  | dropTable table => table ∉ c.tables.keys
  | dropColumn table column => column ∉ c.columnNames table
  | _ => true

theorem fits_of_always (rows : String → List (Row υ)) (h : op.always = true) : op.fits rows = true := by
  cases op with
  | addColumn table col =>
    simp only [Operation.always, Bool.and_eq_true] at h
    simp only [Operation.fits, h.1, h.2, Bool.true_or, Bool.and_self]
  | createTable => rfl
  | dropTable => rfl
  | createIndex => rfl
  | dropIndex => rfl
  | dropColumn => rfl

theorem exists_runAll (hops : ∀ op ∈ ops, op.always = true) (h : alterAll ops d.catalog = some c) :
    ∃ d', runAll ops d = some d' ∧ d'.catalog = c ∧ d'.rows = writeAll ops d.rows := by
  induction ops generalizing d with
  | nil =>
    cases h
    exact ⟨d, rfl, rfl, rfl⟩
  | cons op ops ih =>
    obtain ⟨c', hop, hrest⟩ := Option.bind_eq_some_iff.mp h
    obtain ⟨e, hrun, rfl, hrows⟩ := exists_run (fits_of_always d.rows (hops op (List.mem_cons_self ..))) hop
    obtain ⟨d', hd', hcatalog, hwrite⟩ := ih (fun op hop => hops op (List.mem_cons_of_mem _ hop)) hrest
    refine ⟨d', ?_, hcatalog, ?_⟩
    · rw [runAll, hrun]
      exact hd'
    · rw [hwrite, hrows]
      rfl

theorem write_apply (op : Operation) (rows : String → List (Row υ)) (t : String) :
    op.write rows t = if op = .dropTable t then []
      else (rows t).map fun row name => if op = .dropColumn t name then none else row name := by
  cases op with
  | dropTable table =>
    rw [Operation.write, Function.update_apply]
    by_cases ht : t = table
    · simp [ht]
    · have ht' : ¬ table = t := fun h => ht h.symm
      simp [ht, ht']
  | dropColumn table column =>
    rw [Operation.write, Function.update_apply]
    by_cases ht : t = table
    · subst ht
      rw [if_pos rfl, if_neg nofun]
      apply List.map_congr_left
      intro row _
      funext name
      rw [Function.update_apply]
      by_cases hname : name = column
      · simp [hname]
      · have hname' : ¬ column = name := fun h => hname h.symm
        simp [hname, hname']
    · have ht' : ¬ table = t := fun h => ht h.symm
      simp [ht, ht']
  | createTable => simp [Operation.write]
  | createIndex => simp [Operation.write]
  | dropIndex => simp [Operation.write]
  | addColumn => simp [Operation.write]

theorem writeAll_apply (ops : List Operation) (rows : String → List (Row υ)) (t : String) : writeAll ops rows t =
    if .dropTable t ∈ ops then []
    else (rows t).map fun row name => if .dropColumn t name ∈ ops then none else row name := by
  induction ops generalizing rows with
  | nil => simp [writeAll]
  | cons op ops ih =>
    change writeAll ops (op.write rows) t = _
    rw [ih, write_apply]
    by_cases hlater : .dropTable t ∈ ops
    · rw [if_pos hlater, if_pos (List.mem_cons_of_mem op hlater)]
    · rw [if_neg hlater]
      by_cases hop : op = .dropTable t
      · rw [if_pos hop, hop, if_pos (List.mem_cons_self ..), List.map_nil]
      · have hmem : .dropTable t ∉ op :: ops := fun h => (List.mem_cons.mp h).elim (fun h => hop h.symm) hlater
        rw [if_neg hop, if_neg hmem, List.map_map]
        apply List.map_congr_left
        intro row _
        funext name
        simp only [Function.comp_apply, List.mem_cons]
        by_cases hcolumn : .dropColumn t name ∈ ops
        · simp [hcolumn]
        · simp [hcolumn, eq_comm]

theorem writeAll_of_spares (d : Database υ) (hops : ∀ op ∈ ops, op.spares d.catalog = true) :
    writeAll ops d.rows = d.rows := by
  funext t
  rw [writeAll_apply]
  split_ifs with hdrop
  · exact (d.stored t (of_decide_eq_true (hops _ hdrop))).symm
  · rw [List.map_congr_left (g := id), List.map_id]
    intro row hrow
    funext name
    by_cases hname : .dropColumn t name ∈ ops
    · rw [if_pos hname]
      exact (d.blank t row hrow name (of_decide_eq_true (hops _ hname))).symm
    · rw [if_neg hname]
      rfl

theorem runAll_undo {ups downs : List Operation} (halways : ∀ op ∈ ups ++ downs, op.always = true)
    (hspares : ∀ op ∈ ups ++ downs, op.spares d.catalog = true) (hup : alterAll ups d.catalog = some c)
    (hdown : alterAll downs c = some d.catalog) :
    ∃ e, runAll ups d = some e ∧ e.catalog = c ∧ runAll downs e = some d := by
  obtain ⟨e, he, rfl, hrows⟩ := exists_runAll (fun op hop => halways op (List.mem_append_left _ hop)) hup
  obtain ⟨f, hf, hcatalog, hback⟩ := exists_runAll (fun op hop => halways op (List.mem_append_right _ hop)) hdown
  refine ⟨e, he, rfl, ?_⟩
  rw [writeAll_of_spares d fun op hop => hspares op (List.mem_append_left _ hop)] at hrows
  rw [hrows, writeAll_of_spares d fun op hop => hspares op (List.mem_append_right _ hop)] at hback
  rw [hf, Option.some.injEq]
  exact database_ext hcatalog hback

end Run

end Embedai.Relational
