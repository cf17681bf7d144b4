import ReviewRota.Sql.Token

/-!
# SQL statements

Statements as far as they say which tables, indexes, views and triggers there are, and which rows
are put into tables.
-/

namespace ReviewRota.Sql

inductive Cell where
  | null
  | integer (n : Int)
  | text (s : String)
  /-- The value of an expression, of which is only known that it is not null. -/
  | computed
  deriving DecidableEq, Repr

structure Column where
  name : String
  isInteger : Bool := false
  /-- Whether the column is another name for the number of the row. -/
  isRowId : Bool := false
  notNull : Bool := false
  isKey : Bool := false
  isUnique : Bool := false
  fallback : Cell := .null
  deriving DecidableEq, Repr

inductive Shown where
  | all
  | column (source name : String)
  | value (cell : Cell) (name : String)
  deriving DecidableEq, Repr

/-- A query that reads one table or view, or none, and shows all rows of it. -/
structure Query where
  shown : List Shown
  source : Option String
  deriving DecidableEq, Repr

inductive Statement where
  | createTable (name : String) (columns : List Column)
  | createIndex (name table : String) (columns : List String)
  /-- A view; its query is not there if it is of another kind. -/
  | createView (name : String) (columns : Option (List String)) (query : Option Query)
  | createGuard (name table message : String)
  | drop (name : String)
  | insert (table : String) (columns : Option (List String)) (rows : List (List Cell))
  | other
  deriving DecidableEq, Repr

namespace Statement

open Token (mark text number word)

/-- A name, of which only the part behind the last point counts. -/
def name? : List Token → Option (String × List Token)
  | .word _ :: mark '.' :: .word s :: rest => some (s, rest)
  | .word _ :: mark '.' :: .name s :: rest => some (s, rest)
  | .word s :: rest => some (s, rest)
  | .name s :: rest => some (s, rest)
  | .text s :: rest => some (s, rest)
  | _ => none

def skipIfNotExists : List Token → List Token
  | a :: b :: c :: rest =>
      if a.isKeyword "IF" && b.isKeyword "NOT" && c.isKeyword "EXISTS" then rest
      else a :: b :: c :: rest
  | ts => ts

/-- The items between an opening bracket, which is read, and its closing one, and what follows. -/
def items? (depth : Nat) (item : List Token) (items : List (List Token)) :
    List Token → Option (List (List Token) × List Token)
  | [] => none
  | mark ')' :: rest =>
      if depth = 0 then some ((item.reverse :: items).reverse, rest)
      else items? (depth - 1) (mark ')' :: item) items rest
  | mark '(' :: rest => items? (depth + 1) (mark '(' :: item) items rest
  | mark ',' :: rest =>
      if depth = 0 then items? depth [] (item.reverse :: items) rest
      else items? depth (mark ',' :: item) items rest
  | t :: rest => items? depth (t :: item) items rest

def bracketed? : List Token → Option (List (List Token) × List Token)
  | mark '(' :: rest => items? 0 [] [] rest
  | _ => none

def afterPair? (first second : String) : List Token → Option (List Token)
  | a :: b :: rest =>
      if a.isKeyword first && b.isKeyword second then some rest
      else afterPair? first second (b :: rest)
  | _ => none

def after? (keyword : String) : List Token → Option (List Token)
  | [] => none
  | t :: rest => if t.isKeyword keyword then some rest else after? keyword rest

def cell : List Token → Cell
  | [text s] => .text s
  | [number n] => .integer n
  | [mark '-', number n] => .integer (-n)
  | [mark '+', number n] => .integer n
  | [word s] => if s.toUpper = "NULL" then .null else .computed
  | _ => .computed

def fallback (ts : List Token) : Cell :=
  match after? "DEFAULT" ts with
  | none | some [] => .null
  | some (mark '(' :: _) => .computed
  | some (mark '-' :: t :: _) => cell [mark '-', t]
  | some (t :: _) => cell [t]

def constraintWords : List String :=
  ["CONSTRAINT", "PRIMARY", "UNIQUE", "CHECK", "FOREIGN", "NOT", "NULL", "DEFAULT", "COLLATE",
    "REFERENCES", "GENERATED", "AS"]

def column? (ts : List Token) : Option Column := do
  let (name, rest) ← name? ts
  let type := rest.takeWhile fun t => !t.isOneOf constraintWords
  let isInteger := type.length = 1 && type.all (·.isKeyword "INTEGER")
  let key := afterPair? "PRIMARY" "KEY" rest
  let descends := (key.map fun after => after.head?.any (·.isKeyword "DESC")).getD false
  return {
    name
    isInteger
    isRowId := key.isSome && !descends && isInteger
    notNull := (afterPair? "NOT" "NULL" rest).isSome
    isKey := key.isSome
    isUnique := key.isSome || rest.any (·.isKeyword "UNIQUE")
    fallback := fallback rest }

def tableKey? (ts : List Token) : Option String := do
  let after ← afterPair? "PRIMARY" "KEY" ts
  let (parts, _) ← bracketed? after
  match parts with
  | [part] => (name? part).map (·.1)
  | _ => none

def columnsOf (items : List (List Token)) : List Column :=
  let isConstraint (ts : List Token) : Bool :=
    ts.head?.any (·.isOneOf ["CONSTRAINT", "PRIMARY", "UNIQUE", "CHECK", "FOREIGN"])
  let columns := items.filterMap fun ts => if isConstraint ts then none else column? ts
  let key := (items.filter isConstraint).findSome? tableKey?
  columns.map fun c =>
    if key = some c.name then
      { c with isKey := true, isUnique := true, isRowId := c.isRowId || c.isInteger }
    else c

def rejection? : List Token → Option String
  | a :: mark '(' :: _ :: mark ',' :: text message :: mark ')' :: rest =>
      if a.isKeyword "RAISE" then some message
      else rejection? (mark '(' :: mark ',' :: text message :: mark ')' :: rest)
  | _ :: rest => rejection? rest
  | [] => none

def createTable? (ts : List Token) : Option Statement := do
  let (name, rest) ← name? (skipIfNotExists ts)
  match bracketed? rest with
  | some (items, _) => return .createTable name (columnsOf items)
  | none => return .createTable name []

def createIndex? (ts : List Token) : Option Statement := do
  let (name, rest) ← name? (skipIfNotExists ts)
  let (table, rest) ← name? (← after? "ON" rest)
  let (parts, _) ← bracketed? rest
  return .createIndex name table (parts.filterMap fun part => (name? part).map (·.1))

def named (ts : List Token) : List Token × Option String :=
  match ts.reverse with
  | .word s :: t :: rest | .name s :: t :: rest =>
      if t.isKeyword "AS" then (rest.reverse, some s)
      else match t with
        | mark _ => (ts, none)
        | _ => ((t :: rest).reverse, some s)
  | _ => (ts, none)

/-- An item between `SELECT` and `FROM`.  A value that is given no name has the empty one. -/
def shown (ts : List Token) : Shown :=
  match named ts with
  | ([mark '*'], _) => .all
  | ([.name s], given) | ([.word _, mark '.', .word s], given) => .column s (given.getD s)
  | ([.word s], given) =>
      if s.toUpper = "NULL" then .value .null (given.getD "") else .column s (given.getD s)
  | (item, given) => .value (cell item) (given.getD "")

def query? : List Token → Option Query
  | [] => none
  | t :: rest => do
      if !t.isKeyword "SELECT" || rest.head?.any (·.isOneOf ["ALL", "DISTINCT"]) then none
      else
        let list := rest.takeWhile fun t => !t.isKeyword "FROM"
        let (items, _) ← items? 0 [] [] (list ++ [mark ')'])
        match rest.drop list.length with
        | [] => return ⟨items.map shown, none⟩
        | _ :: source =>
            match ← name? source with
            | (name, []) => return ⟨items.map shown, some name⟩
            | _ => none

def createView? (ts : List Token) : Option Statement := do
  let (name, rest) ← name? (skipIfNotExists ts)
  let columns := (bracketed? rest).map fun (parts, _) =>
    parts.filterMap fun part => (name? part).map (·.1)
  return .createView name columns ((after? "AS" rest).bind query?)

def createTrigger? (ts : List Token) : Option Statement := do
  let (name, rest) ← name? (skipIfNotExists ts)
  let rest ← after? "INSERT" rest
  let (table, body) ← name? (← after? "ON" rest)
  return .createGuard name table (← rejection? body)

def rows (ts : List Token) : Nat → List (List Cell)
  | 0 => []
  | fuel + 1 =>
      match bracketed? ts with
      | some (items, mark ',' :: rest) => items.map cell :: rows rest fuel
      | some (items, _) => [items.map cell]
      | none => []

def insert? (ts : List Token) : Option Statement := do
  let (table, rest) ← name? (← after? "INTO" ts)
  let (columns, rest) ←
    match bracketed? rest with
    | some (parts, rest) => do
        some (some (parts.filterMap fun part => (name? part).map (·.1)), rest)
    | none => some (none, rest)
  if (afterPair? "DEFAULT" "VALUES" rest).isSome then return .insert table (some []) [[]]
  let values ← after? "VALUES" rest
  return .insert table columns (rows values values.length)

def create? : List Token → Option Statement
  | [] => none
  | t :: rest =>
      if t.isKeyword "TABLE" then createTable? rest
      else if t.isKeyword "INDEX" then createIndex? rest
      else if t.isKeyword "UNIQUE" then createIndex? (rest.drop 1)
      else if t.isKeyword "VIEW" then createView? rest
      else if t.isKeyword "TRIGGER" then createTrigger? rest
      else none

def skipIfExists : List Token → List Token
  | a :: b :: rest =>
      if a.isKeyword "IF" && b.isKeyword "EXISTS" then rest else a :: b :: rest
  | ts => ts

def ofTokens? : List Token → Option Statement
  | [] => none
  | t :: rest =>
      if t.isKeyword "CREATE" then create? rest
      else if t.isKeyword "DROP" then do return .drop (← name? (skipIfExists (rest.drop 1))).1
      else if t.isOneOf ["INSERT", "REPLACE"] then insert? rest
      else none

def ofText (sql : String) : Statement :=
  (ofTokens? (Token.all sql.toList)).getD .other

end Statement

end ReviewRota.Sql
