import ReviewRota.Config.Basic
import ReviewRota.Event
import ReviewRota.Toml.Document

/-!
# Configuration files
-/

namespace ReviewRota

open Toml (Entries)

namespace Toml.Value

def text? : Value → Option String
  | .text s => some s
  | _ => none

def natural32? : Value → Option Nat
  | .integer n => if 0 ≤ n ∧ n < UInt32.size then some n.toNat else none
  | _ => none

end Toml.Value

namespace Config

def entryOr {α : Type} (fallback : α) (read : Toml.Value → Option α) (v : Option Toml.Value) :
    Option α :=
  match v with
  | none => some fallback
  | some v => read v

/-- A value as the fields of a section: by name, or in order if it is a list.  Fields by name that
are not known must at least be sound.  A date has no known field. -/
def fields? (names : List String) : Toml.Value → Option (List (Option Toml.Value))
  | .table _ entries =>
      let unknown := entries.filter fun (k, _) => !names.contains k
      if unknown.all fun (_, v) => v.isSound then some (names.map fun k => entries.lookup k)
      else none
  | .list items => some ((List.range names.length).map fun i => items[i]?)
  | .tables closed last =>
      some ((List.range names.length).map fun i =>
        ((closed ++ [last])[i]?).map fun entries => .table .header entries)
  | .moment => some (names.map fun _ => none)
  | _ => none

def server? (v : Toml.Value) : Option ServerConfig := do
  let fallback : ServerConfig := {}
  match ← fields? ["addr"] v with
  | [addr] => return { addr := ← entryOr fallback.addr Toml.Value.text? addr }
  | _ => none

def database? (v : Toml.Value) : Option DatabaseConfig := do
  let fallback : DatabaseConfig := {}
  match ← fields? ["path", "max_connections"] v with
  | [path, maxConnections] =>
      return {
        path := ← entryOr fallback.path Toml.Value.text? path
        maxConnections :=
          ← entryOr fallback.maxConnections Toml.Value.natural32? maxConnections }
  | _ => none

def ofToml? (entries : Entries) : Option Config := do
  match ← fields? ["server", "database"] (.table .header entries) with
  | [server, database] =>
      return {
        server := ← entryOr {} server? server
        database := ← entryOr {} database? database }
  | _ => none

def parse (content : String) : Except Error Config :=
  match Toml.parse? content >>= ofToml? with
  | none => .error .badConfig
  | some config => if config.database.maxConnections = 0 then .error .noConnections else .ok config

end Config

inductive FileState where
  | missing
  | content (bytes : List UInt8)
  | unreadable (reason : String)
  deriving DecidableEq, Repr

def FileState.directory : FileState := .unreadable "Is a directory (os error 21)"

def FileState.text (path : String) : FileState → Except Error (Option String)
  | .missing => .ok none
  | .content bytes =>
      match String.fromUTF8? ⟨bytes.toArray⟩ with
      | some s => .ok s
      | none => .error (.unreadable path "stream did not contain valid UTF-8")
  | .unreadable reason => .error (.unreadable path reason)

/-- The configuration of a file; a missing file gives the defaults. -/
def Config.load (path : String) (file : FileState) : Except Error (Config × Event) := do
  match ← file.text path with
  | none => return ({}, .configMissing path)
  | some content => return (← Config.parse content, .configLoaded path)

end ReviewRota
