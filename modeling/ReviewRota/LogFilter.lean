import ReviewRota.Event
import ReviewRota.Text.Blank

/-!
# Log filters

A filter is a list of levels, each for the parts of the program whose name starts with a text or for
all of them, and may end in a text that messages must contain.
-/

namespace ReviewRota

namespace Level

def rank : Level → Nat
  | .error => 1
  | .warn => 2
  | .info => 3
  | .debug => 4
  | .trace => 5

def bound? (s : String) : Option Nat :=
  match s.toLower with
  | "off" => some 0
  | "error" => some 1
  | "warn" => some 2
  | "info" => some 3
  | "debug" => some 4
  | "trace" => some 5
  | _ => none

end Level

def Event.origin : Event → String
  | .configMissing _ | .configLoaded _ => "reviewer_service::config"
  | .migrationApplied _ => "reviewer_service::db"
  | .databaseOpened .. => "reviewer_service"
  | .listening _ | .shutdownRequested | .serverStopped => "reviewer_service::services::server"
  | _ => "reviewer_service::services"

structure LogRule where
  origin : Option String
  bound : Nat
  deriving DecidableEq, Repr

structure LogFilter where
  rules : List LogRule
  pattern : Option String := none
  deriving DecidableEq, Repr

namespace LogFilter

def trimmed (s : String) : String :=
  String.ofList (Text.trim s.toList)

def rule? (s : String) : Except String LogRule :=
  match s.splitToList (· = '=') with
  | [part] =>
      match Level.bound? part with
      | some bound => .ok ⟨none, bound⟩
      | none => .ok ⟨some part, 5⟩
  | [part, level] =>
      if trimmed level = "" then .ok ⟨some part, 5⟩
      else
        match Level.bound? (trimmed level) with
        | some bound => .ok ⟨some part, bound⟩
        | none => .error (trimmed level)
  | _ => .error s

def readRules (s : String) : List LogRule × List String :=
  let parts := ((s.splitToList (· = ',')).map trimmed).filter (· ≠ "")
  let read := parts.map rule?
  (read.filterMap fun r => match r with | .ok rule => some rule | .error _ => none,
    read.filterMap fun r =>
      match r with
      | .ok _ => none
      | .error part => some s!"warning: invalid logging spec '{part}', ignoring it")

/-- Without a rule only errors are let through. -/
def ofText (s : String) : LogFilter × List String :=
  match s.splitToList (· = '/') with
  | [spec] => let (rules, warnings) := readRules spec; (⟨rules, none⟩, warnings)
  | [spec, pattern] => let (rules, warnings) := readRules spec; (⟨rules, some pattern⟩, warnings)
  | _ =>
      (⟨[], none⟩, [s!"warning: invalid logging spec '{s}' (too many '/'s), ignoring it"])

def fallback : LogFilter := ⟨[⟨none, Level.info.rank⟩], none⟩

/-- Of the rules for an origin the one with the longest name decides, and of those the last. -/
def boundFor (f : LogFilter) (origin : String) : Nat :=
  let rules := if f.rules.isEmpty then [⟨none, Level.error.rank⟩] else f.rules
  let length (r : LogRule) : Nat := (r.origin.map fun o => o.utf8ByteSize + 1).getD 0
  let fitting := rules.filter fun r => r.origin.all fun o => origin.startsWith o
  (fitting.foldl
    (fun best r => match best with
      | some b => if length b ≤ length r then some r else some b
      | none => some r)
    (none : Option LogRule)).elim 0 LogRule.bound

def contains (pattern : List Char) : List Char → Bool
  | [] => pattern.isEmpty
  | c :: rest => pattern.isPrefixOf (c :: rest) || contains pattern rest

def passes (f : LogFilter) (e : Event) : Bool :=
  e.level.rank ≤ f.boundFor e.origin &&
    f.pattern.all fun p => contains p.toList e.message.toList

end LogFilter

end ReviewRota
