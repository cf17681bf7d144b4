import ReviewRota.Catalog.Execute
import ReviewRota.Event
import ReviewRota.Sql.Script

/-!
# Migrations

A migration is a script that is applied to a database once.  The applied ones are recorded in a
table of the database itself.  The statements of a script and its record are one transaction.
-/

namespace ReviewRota

open Sql (Cell)

structure Migration where
  name : String
  script : String
  deriving DecidableEq, Repr

namespace Migration

def recordTable : String := "_migrations"

def createRecords : String :=
  "CREATE TABLE IF NOT EXISTS _migrations (
    id INTEGER PRIMARY KEY AUTOINCREMENT,
    name TEXT NOT NULL UNIQUE,
    applied_at INTEGER NOT NULL DEFAULT (strftime('%s', 'now'))
  )"

def initialSchema : Migration where
  name := "0001_initial_schema"
  script := "-- Reviewer service initial schema.
-- Timestamps are Unix seconds supplied by the application clock.

CREATE TABLE IF NOT EXISTS teams (
    name TEXT PRIMARY KEY,
    created_at INTEGER NOT NULL
);

CREATE TABLE IF NOT EXISTS users (
    id TEXT PRIMARY KEY,
    username TEXT NOT NULL,
    team_name TEXT NOT NULL REFERENCES teams(name),
    is_active INTEGER NOT NULL DEFAULT 1,
    updated_at INTEGER NOT NULL
);

CREATE INDEX IF NOT EXISTS idx_users_team_active ON users(team_name, is_active);

CREATE TABLE IF NOT EXISTS pull_requests (
    id TEXT PRIMARY KEY,
    name TEXT NOT NULL,
    author_id TEXT NOT NULL REFERENCES users(id),
    status TEXT NOT NULL DEFAULT 'OPEN' CHECK (status IN ('OPEN', 'MERGED')),
    created_at INTEGER NOT NULL,
    merged_at INTEGER
);

CREATE INDEX IF NOT EXISTS idx_pull_requests_status ON pull_requests(status);

-- One row per (pull request, reviewer); position keeps assignment order.
CREATE TABLE IF NOT EXISTS pull_request_reviewers (
    pr_id TEXT NOT NULL REFERENCES pull_requests(id),
    reviewer_id TEXT NOT NULL REFERENCES users(id),
    position INTEGER NOT NULL,
    PRIMARY KEY (pr_id, reviewer_id)
);

CREATE INDEX IF NOT EXISTS idx_pull_request_reviewers_reviewer ON pull_request_reviewers(reviewer_id);
"

def all : List Migration := [initialSchema]

end Migration

def Sql.Cell.number? : Cell → Option Int
  | .integer n => some n
  | _ => none

namespace Catalog

def records (c : Catalog) (column : String) : Except StorageFault (List Cell) := do
  let r ← c.read Migration.recordTable
  if (r.column? column).isSome then .ok (r.cells column) else .error (.missingColumn column)

def isRecorded (c : Catalog) (m : Migration) : Except StorageFault Bool := do
  let ids ← c.records "id"
  let names ← c.records "name"
  match (ids.zip names).find? fun (_, name) => name = .text m.name with
  | none => return false
  | some (.null, _) => throw (.nullResult 0)
  | some _ => return true

def recordedNames (c : Catalog) : List String :=
  match c.read Migration.recordTable with
  | .error _ => []
  | .ok r =>
      let rows := (r.cells "id").zip (r.cells "name")
      let sorted := rows.mergeSort fun a b => (compare a.1.number? b.1.number?).isLE
      sorted.filterMap fun (_, name) => match name with | .text s => some s | _ => none

def record (c : Catalog) (m : Migration) : Except StorageFault Catalog :=
  c.insert Migration.recordTable (some ["name"]) [[.text m.name]]

end Catalog

/-- The storage engine may refuse a statement for reasons of its own, which depend here on how many
statements came before. -/
abbrev Refusals := Nat → Option StorageFault

namespace Refusals

def none : Refusals := fun _ => .none

def attempt {α : Type} (r : Refusals) (count : Nat) (statement : Except StorageFault α) :
    Except StorageFault α :=
  match r count with
  | some fault => .error fault
  | .none => statement

end Refusals

namespace Catalog

variable (refusals : Refusals)

def executeAll (count : Nat) (c : Catalog) : List String → Except StorageFault Catalog
  | [] => .ok c
  | sql :: rest => do
      executeAll (count + 1) (← refusals.attempt count (c.executeText sql)) rest

def applyMigration (count : Nat) (c : Catalog) (m : Migration) : Except StorageFault Catalog := do
  refusals.attempt count (.ok ())
  let statements := Sql.statements m.script
  let c ← c.executeAll refusals (count + 1) statements
  let count := count + 1 + statements.length
  let c ← refusals.attempt count (c.record m)
  refusals.attempt (count + 1) (.ok c)

structure Opened where
  result : Except StorageFault Unit
  catalog : Catalog
  events : List Event

def applyAll (count : Nat) (c : Catalog) : List Migration → Opened
  | [] => ⟨.ok (), c, []⟩
  | m :: rest =>
      match refusals.attempt count (c.isRecorded m) with
      | .error fault => ⟨.error fault, c, []⟩
      | .ok true => applyAll (count + 1) c rest
      | .ok false =>
          match c.applyMigration refusals (count + 1) m with
          | .error fault => ⟨.error fault, c, [.migrationApplied m.name]⟩
          | .ok c =>
              let next := count + 4 + (Sql.statements m.script).length
              let opened := applyAll next c rest
              { opened with events := .migrationApplied m.name :: opened.events }

def migrate (c : Catalog) (migrations : List Migration) : Opened :=
  match refusals.attempt 0 (c.executeText Migration.createRecords) with
  | .error fault => ⟨.error fault, c, []⟩
  | .ok c => applyAll refusals 1 c migrations

end Catalog

end ReviewRota
