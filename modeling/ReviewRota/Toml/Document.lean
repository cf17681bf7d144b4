import ReviewRota.Toml.Entries
import ReviewRota.Toml.Scalar
import ReviewRota.Toml.Token

/-!
# TOML documents
-/

namespace ReviewRota.Toml

abbrev Reader (α : Type) := List Token → Option (α × List Token)

def skipBlanks (ts : List Token) : List Token :=
  ts.dropWhile fun | .blank _ => true | _ => false

def skipLines (ts : List Token) : List Token :=
  ts.dropWhile fun | .blank _ | .newline => true | _ => false

def isKeyChar (c : Char) : Bool := c.isAlphanum || c = '_' || c = '-'

def keyPart? : Reader String
  | .bare cs :: rest => if cs.all isKeyChar then some (String.ofList cs, rest) else none
  | .text s false :: rest => some (s, rest)
  | _ => none

/-- How many brackets may be open at once, and how many tables a key may pass through. -/
def maxDepth : Nat := 80

def keyParts? (ts : List Token) : Option (List String × List Token) :=
  match keyPart? ts with
  | none => none
  | some (part, rest) =>
      match skipBlanks rest with
      | .mark '.' :: rest =>
          if (skipBlanks rest).length < ts.length then
            (keyParts? (skipBlanks rest)).map fun (parts, rest) => (part :: parts, rest)
          else none
      | rest => some ([part], rest)
termination_by ts.length

def key? : Reader (List String) := fun ts => do
  let (parts, rest) ← keyParts? ts
  if parts.length ≤ maxDepth + 1 then some (parts, rest) else none

/-! ## Values -/

def joined : List Token → List Char × List Token
  | .bare cs :: rest => let (more, rest) := joined rest; (cs ++ more, rest)
  | .mark '.' :: rest => let (more, rest) := joined rest; ('.' :: more, rest)
  | rest => ([], rest)

/-- A value without brackets.  A date and a time may be one value with a space between them. -/
def scalarAt? : Reader Value
  | .text s _ :: rest => some (.text s, rest)
  | ts =>
      let (cs, rest) := joined ts
      let (cs, rest) :=
        match date? cs, rest with
        | some [], .blank [' '] :: .bare time :: more =>
            let (time, more) := joined (.bare time :: more)
            if (time.head?.map Char.isDigit).getD false then (cs ++ ' ' :: time, more)
            else (cs, rest)
        | _, _ => (cs, rest)
      (scalar? cs).map (·, rest)

/-- What stands in brackets, up to the closing one; a comma follows each item but the last, which
may have one too. -/
def items? {α : Type} (close : Char) (read : Reader α) (ts : List Token) :
    Option (List α × List Token) :=
  match skipLines ts with
  | [] => none
  | t :: after =>
      if t = .mark close then some ([], after)
      else
        match read (t :: after) with
        | none => none
        | some (a, rest) =>
            match skipLines rest with
            | [] => none
            | t :: rest =>
                if t = .mark close then some ([a], rest)
                else if t = .mark ',' ∧ rest.length < ts.length then
                  (items? close read rest).map fun (as, rest) => (a :: as, rest)
                else none
termination_by ts.length
decreasing_by rename_i h; exact h.2

/-- A key and its value; `skip` says what may stand around the `=`. -/
def pair? (skip : List Token → List Token) (value : Reader Value) :
    Reader (List String × Value) := fun ts => do
  let (key, ts) ← key? ts
  match skip ts with
  | .mark '=' :: ts =>
      let (v, ts) ← value (skip ts)
      return ((key, v), ts)
  | _ => none

def value? : Nat → Reader Value
  | 0 => scalarAt?
  | depth + 1 => fun ts =>
      match ts with
      | .mark '[' :: rest =>
          (items? ']' (value? depth) rest).map fun (vs, rest) => (.list vs, rest)
      | .mark '\x7b' :: rest => do
          let (pairs, rest) ← items? '\x7d' (pair? skipLines (value? depth)) rest
          return (.table .inline (← Entries.addAll? .inline [] pairs), rest)
      | ts => scalarAt? ts

inductive Line where
  | header (h : Header)
  | pair (key : List String) (value : Value)

def header? : Reader Header
  | .mark '[' :: .mark '[' :: ts => do
      let (path, ts) ← key? (skipBlanks ts)
      match skipBlanks ts with
      | .mark ']' :: .mark ']' :: ts => some (.element path, ts)
      | _ => none
  | .mark '[' :: ts => do
      let (path, ts) ← key? (skipBlanks ts)
      match skipBlanks ts with
      | .mark ']' :: ts => some (.table path, ts)
      | _ => none
  | _ => none

def line? : Reader Line
  | .mark '[' :: ts => (header? (.mark '[' :: ts)).map fun (h, ts) => (.header h, ts)
  | ts => (pair? skipBlanks (value? maxDepth) ts).map fun ((key, v), ts) => (.pair key v, ts)

def lines? (ts : List Token) : Option (List Line) :=
  match skipLines ts with
  | [] => some []
  | t :: after =>
      match line? (t :: after) with
      | none => none
      | some (line, rest) =>
          match skipBlanks rest with
          | [] => some [line]
          | .newline :: rest =>
              if rest.length < ts.length then (lines? rest).map (line :: ·) else none
          | _ => none
termination_by ts.length

/-- The sections of lines that follow a header and, in reverse, some of its pairs. -/
def sections (header : Header) (pairs : List (List String × Value)) : List Line → List Section
  | [] => [⟨header, pairs.reverse⟩]
  | .header next :: rest => ⟨header, pairs.reverse⟩ :: sections next [] rest
  | .pair key v :: rest => sections header ((key, v) :: pairs) rest

def withoutByteOrderMark : List Char → List Char
  | '\ufeff' :: cs => cs
  | cs => cs

def parse? (s : String) : Option Entries := do
  let tokens ← Token.all? (withoutByteOrderMark s.toList)
  (sections .root [] (← lines? tokens)).foldlM Entries.addSection? []

end ReviewRota.Toml
