import ReviewRota.Catalog.Basic

/-!
# Executing statements on a catalog

What exists already is not created again.  Of queries there are those that read a whole table or
view, as a view may itself be such a query.
-/

namespace ReviewRota

open Sql (Cell Column Query Statement)

namespace StorageFault

def misfit (message : String) : StorageFault := .refused 1 message

def missingColumn (name : String) : StorageFault := misfit s!"no such column: {name}"

def missingTable (name : String) : StorageFault := misfit s!"no such table: {name}"

def nullColumn (table column : String) : StorageFault :=
  .refused 1299 s!"NOT NULL constraint failed: {table}.{column}"

def columnTwice (table : String) (c : Column) : StorageFault :=
  .refused (if c.isKey then 1555 else 2067) s!"UNIQUE constraint failed: {table}.{c.name}"

end StorageFault

namespace Relation

def nextRowId (r : Relation) (c : Column) : Int :=
  (r.cells c.name).foldl (fun n cell => match cell with | .integer m => max n (m + 1) | _ => n) 1

def cellFor (r : Relation) (given : List (String × Cell)) (c : Column) : Cell :=
  let cell := ((given.find? fun (k, _) => sameName k c.name).map (·.2)).getD c.fallback
  if c.isRowId && cell = .null then .integer (r.nextRowId c) else cell

def insert (r : Relation) (given : List (String × Cell)) : Except StorageFault Relation :=
  let row := r.columns.map (r.cellFor given)
  let filled := r.columns.zip row
  match filled.find? fun (c, cell) => c.notNull && cell = .null with
  | some (c, _) => .error (.nullColumn r.name c.name)
  | none =>
      match filled.find? fun (c, cell) =>
          (c.isUnique || c.isKey) && cell ≠ .null && (r.cells c.name).contains cell with
      | some (c, _) => .error (.columnTwice r.name c)
      | none => .ok { r with rows := r.rows ++ [row] }

def ofColumns (name : String) (rows : Nat) (columns : List (String × List Cell)) : Relation where
  name
  columns := columns.map fun (name, _) => { name }
  rows := (List.range rows).map fun i => columns.map fun (_, cells) => cells[i]?.getD .null

def select (r : Relation) (q : Query) : Except StorageFault Relation := do
  let columns ← q.shown.mapM fun
    | .all => .ok (r.columns.map fun c => (c.name, r.cells c.name))
    | .column source name =>
        if (r.column? source).isSome then .ok [(name, r.cells source)]
        else .error (.missingColumn source)
    | .value cell name => .ok [(name, r.rows.map fun _ => cell)]
  return .ofColumns r.name r.rows.length columns.flatten

end Relation

def View.title (v : View) (r : Relation) : Except StorageFault Relation :=
  match v.columns with
  | none => .ok { r with name := v.name }
  | some names =>
      if names.length = r.columns.length then
        .ok { r with name := v.name, columns := names.map fun name => { name } }
      else
        let (expected, got) := (names.length, r.columns.length)
        .error (.misfit s!"expected {expected} columns for '{v.name}' but got {got}")

namespace Catalog

/-- The table that a view stands for.  Views that read each other more often than there are views
do so in a circle; of a view with a query of another kind no column is known. -/
def readView (c : Catalog) (v : View) : Nat → Except StorageFault Relation
  | 0 => .error (.misfit s!"view {v.name} is circularly defined")
  | depth + 1 =>
      match v.query with
      | none => .ok { name := v.name, columns := [] }
      | some q => do
          let source : Relation ←
            match q.source with
            | none => .ok { name := "", columns := [], rows := [[]] }
            | some name =>
                match c.named? name with
                | some (.inl r) => .ok r
                | some (.inr w) => c.readView w depth
                | none => .error (.missingTable s!"main.{name}")
          v.title (← source.select q)

def read (c : Catalog) (name : String) : Except StorageFault Relation :=
  match c.named? name with
  | some (.inl r) => .ok r
  | some (.inr v) => c.readView v c.views.length
  | none => .error (.missingTable name)

def put (c : Catalog) (r : Relation) : Catalog :=
  { c with relations := c.relations.map fun old => if sameName old.name r.name then r else old }

def createTable (c : Catalog) (name : String) (columns : List Column) :
    Except StorageFault Catalog :=
  if c.hasRelation name || c.hasView name then .ok c
  else if c.hasIndex name then .error (.misfit s!"there is already an index named {name}")
  else .ok { c with relations := c.relations ++ [{ name, columns }] }

def createView (c : Catalog) (v : View) : Except StorageFault Catalog :=
  if c.hasRelation v.name || c.hasView v.name then .ok c
  else if c.hasIndex v.name then .error (.misfit s!"there is already an index named {v.name}")
  else .ok { c with views := c.views ++ [v] }

def createIndex (c : Catalog) (name table : String) (columns : List String) :
    Except StorageFault Catalog :=
  match c.relation? table with
  | none =>
      .error (if c.hasView table then .misfit "views may not be indexed"
        else .missingTable s!"main.{table}")
  | some r =>
      if c.hasRelation name || c.hasView name then
        .error (.misfit s!"there is already a table named {name}")
      else if c.hasIndex name then .ok c
      else
        match columns.find? fun column => (r.column? column).isNone with
        | some column => .error (.missingColumn column)
        | none => .ok { c with indexes := c.indexes ++ [name] }

/-- Puts rows into a table.  The columns of the rows are all columns of the table, in order, unless
some are named. -/
def insert (c : Catalog) (table : String) (columns : Option (List String))
    (rows : List (List Cell)) : Except StorageFault Catalog := do
  match c.relation? table with
  | none =>
      match c.view? table with
      | some v => throw (.misfit s!"cannot modify {v.name} because it is a view")
      | none => throw (.missingTable table)
  | some r =>
      let names := columns.getD (r.columns.map Column.name)
      match names.find? fun name => (r.column? name).isNone with
      | some name => throw (.misfit s!"table {r.name} has no column named {name}")
      | none =>
          match c.guards.find? fun g => sameName g.table table with
          | some g => throw (.refused 1811 g.message)
          | none => return c.put (← rows.foldlM (fun r row => r.insert (names.zip row)) r)

def drop (c : Catalog) (name : String) : Catalog where
  relations := c.relations.filter fun r => !sameName r.name name
  indexes := c.indexes.filter fun i => !sameName i name
  views := c.views.filter fun v => !sameName v.name name
  guards := c.guards.filter fun g => !(sameName g.name name || sameName g.table name)

def execute (c : Catalog) : Statement → Except StorageFault Catalog
  | .createTable name columns => c.createTable name columns
  | .createIndex name table columns => c.createIndex name table columns
  | .createView name columns query => c.createView ⟨name, columns, query⟩
  | .createGuard name table message =>
      .ok { c with guards := c.guards ++ [⟨name, table, message⟩] }
  | .drop name => .ok (c.drop name)
  | .insert table columns rows => c.insert table columns rows
  | .other => .ok c

def executeText (c : Catalog) (sql : String) : Except StorageFault Catalog :=
  c.execute (.ofText sql)

end Catalog

end ReviewRota
