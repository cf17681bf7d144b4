import ReviewRota.Error
import ReviewRota.Sql.Statement

/-!
# Catalogs

A catalog says which tables, indexes, views and triggers a database has, and which rows its tables
hold.  Names that differ in the case of letters only are the same.
-/

namespace ReviewRota

open Sql (Cell Column Query)

structure Relation where
  name : String
  columns : List Column
  rows : List (List Cell) := []
  deriving DecidableEq, Repr

structure View where
  name : String
  columns : Option (List String)
  query : Option Query
  deriving DecidableEq, Repr

/-- A trigger that rejects whatever is put into a table. -/
structure Guard where
  name : String
  table : String
  message : String
  deriving DecidableEq, Repr

structure Catalog where
  relations : List Relation := []
  indexes : List String := []
  views : List View := []
  guards : List Guard := []
  deriving DecidableEq, Repr

instance : EmptyCollection Catalog := ⟨{}⟩

instance : Inhabited Catalog := ⟨∅⟩

def sameName (a b : String) : Bool := a.toLower = b.toLower

namespace Relation

def column? (r : Relation) (name : String) : Option Column :=
  r.columns.find? fun c => sameName c.name name

def cells (r : Relation) (name : String) : List Cell :=
  match r.columns.findIdx? fun c => sameName c.name name with
  | none => []
  | some i => r.rows.map fun row => row[i]?.getD .null

end Relation

namespace Catalog

def relation? (c : Catalog) (name : String) : Option Relation :=
  c.relations.find? fun r => sameName r.name name

def hasRelation (c : Catalog) (name : String) : Bool := (c.relation? name).isSome

def view? (c : Catalog) (name : String) : Option View :=
  c.views.find? fun v => sameName v.name name

def hasView (c : Catalog) (name : String) : Bool := (c.view? name).isSome

def named? (c : Catalog) (name : String) : Option (Relation ⊕ View) :=
  match c.relation? name with
  | some r => some (.inl r)
  | none => (c.view? name).map .inr

def hasIndex (c : Catalog) (name : String) : Bool := c.indexes.any (sameName name)

def tableNames (c : Catalog) : List String := c.relations.map Relation.name

end Catalog

end ReviewRota
