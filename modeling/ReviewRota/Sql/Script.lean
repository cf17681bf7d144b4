import ReviewRota.Text.Blank

/-!
# SQL scripts

A script is split into statements at the semicolons that stand at depth zero.  The depth counts
opening minus closing parentheses in 32 bits; it may become negative, but stays at the least value
when it has come there.  A line that starts with `--` is dropped; of any other line what follows the
first `--` is dropped.
-/

namespace ReviewRota.Sql

/-- The lines of a text, without their ends; a carriage return before the end of a line belongs to
the end. -/
def lines (cs : List Char) : List (List Char) :=
  (go cs).map fun (line, ended) =>
    if ended && line.getLast? = some '\r' then line.dropLast else line
where
  go : List Char → List (List Char × Bool)
    | [] => []
    | '\n' :: rest => ([], true) :: go rest
    | c :: rest => prependTo c (go rest)
  prependTo (c : Char) : List (List Char × Bool) → List (List Char × Bool)
    | [] => [([c], false)]
    | (line, ended) :: more => (c :: line, ended) :: more

def beforeComment : List Char → List Char
  | '-' :: '-' :: _ => []
  | c :: rest => c :: beforeComment rest
  | [] => []

def isComment (line : List Char) : Bool :=
  (Text.trim line).take 2 = ['-', '-']

structure Splitter where
  statements : List String
  current : List Char
  depth : Int32
  deriving DecidableEq, Repr

namespace Splitter

def start : Splitter := ⟨[], [], 0⟩

def close (s : Splitter) : Splitter :=
  let statement := Text.trim s.current
  { s with
    statements :=
      if statement.isEmpty then s.statements
      else s.statements ++ [String.ofList statement]
    current := [] }

def descend (depth : Int32) : Int32 :=
  if depth = Int32.minValue then depth else depth - 1

def feed (s : Splitter) (c : Char) : Splitter :=
  if c = '(' then { s with current := s.current ++ [c], depth := s.depth + 1 }
  else if c = ')' then { s with current := s.current ++ [c], depth := descend s.depth }
  else if c = ';' ∧ s.depth = 0 then s.close
  else { s with current := s.current ++ [c] }

/-- Reads a line; the next line is kept apart by a space. -/
def feedLine (s : Splitter) (line : List Char) : Splitter :=
  if isComment line then s
  else
    let s := (beforeComment line).foldl feed s
    if s.current.isEmpty then s else { s with current := s.current ++ [' '] }

end Splitter

def statements (script : String) : List String :=
  ((lines script.toList).foldl Splitter.feedLine .start).close.statements

end ReviewRota.Sql
