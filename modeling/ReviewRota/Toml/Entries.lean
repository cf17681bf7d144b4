import ReviewRota.Toml.Value

/-!
# What may be added to a TOML table

A table is defined once: by its header, by dotted keys in one section, or inline.  A table that was
only met on the way to another may still get its header.
-/

namespace ReviewRota.Toml.Entries

def put (es : Entries) (key : String) (v : Value) : Entries :=
  es.map fun (k, old) => if k = key then (k, v) else (k, old)

/-- Changes the table at the end of a path.  Missing tables on the way are made, with the origin
`way`; dotted keys do not pass through a table with a header, and nothing passes through an inline
one. -/
def alter? (way : Origin) (change : Origin → Entries → Option Entries) :
    List String → Origin → Entries → Option Entries
  | [], origin, es => change origin es
  | key :: path, _, es =>
      match es.lookup key with
      | none => do
          let inner ← alter? way change path way []
          return es ++ [(key, .table way inner)]
      | some (.table origin inner) =>
          if origin = .inline || (way = .dotted && origin = .header) then none
          else do
            let inner ← alter? way change path origin inner
            return es.put key (.table origin inner)
      | some (.tables closed last) => do
          let last ← alter? way change path .header last
          return es.put key (.tables closed last)
      | some _ => none

/-- Adds the value of a key, which must be new.  A dotted key only adds to a table that dotted keys
have made. -/
def add? (origin : Origin) (es : Entries) (pair : List String × Value) : Option Entries := do
  let key ← pair.1.getLast?
  let path := pair.1.dropLast
  alter? .dotted (fun origin es =>
      if (origin == .dotted) == path.isEmpty || (es.lookup key).isSome then none
      else some (es ++ [(key, pair.2)]))
    path origin es

def addAll? (origin : Origin) (es : Entries) (pairs : List (List String × Value)) :
    Option Entries :=
  pairs.foldlM (add? origin) es

end Entries

inductive Header where
  | root
  | table (path : List String)
  | element (path : List String)
  deriving DecidableEq, Repr

structure Section where
  header : Header
  pairs : List (List String × Value)

namespace Entries

def addTable? (pairs : List (List String × Value)) (key : String) (es : Entries) :
    Option Entries :=
  match es.lookup key with
  | none => do return es ++ [(key, .table .header (← addAll? .header [] pairs))]
  | some (.table .implied inner) => do
      return es.put key (.table .header (← addAll? .header inner pairs))
  | some _ => none

def addElement? (pairs : List (List String × Value)) (key : String) (es : Entries) :
    Option Entries :=
  match es.lookup key with
  | none => do return es ++ [(key, .tables [] (← addAll? .header [] pairs))]
  | some (.tables closed last) => do
      return es.put key (.tables (closed ++ [last]) (← addAll? .header [] pairs))
  | some _ => none

def addSection? (es : Entries) (s : Section) : Option Entries := do
  match s.header with
  | .root => addAll? .header es s.pairs
  | .table path =>
      let key ← path.getLast?
      alter? .implied (fun _ => addTable? s.pairs key) path.dropLast .header es
  | .element path =>
      let key ← path.getLast?
      alter? .implied (fun _ => addElement? s.pairs key) path.dropLast .header es

end ReviewRota.Toml.Entries
