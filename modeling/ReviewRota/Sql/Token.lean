/-!
# SQL tokens
-/

namespace ReviewRota.Sql

inductive Token where
  | word (s : String)
  | name (s : String)
  | text (s : String)
  | number (n : Nat)
  | mark (c : Char)
  deriving DecidableEq, Repr

namespace Token

def isWordChar (c : Char) : Bool :=
  c.isAlphanum || c = '_' || c = '$' || 0x80 ≤ c.toNat

/-- What stands before a closing quote, which stands for itself when it is doubled. -/
def quoted? (close : Char) (read : List Char) : List Char → Option (List Char × List Char)
  | [] => none
  | c :: rest =>
      if c = close then
        match rest with
        | d :: more =>
            if d = close then quoted? close (c :: read) more else some (read.reverse, d :: more)
        | [] => some (read.reverse, [])
      else quoted? close (c :: read) rest

def skipComment : List Char → List Char
  | '*' :: '/' :: rest => rest
  | _ :: rest => skipComment rest
  | [] => []

def closingOf (c : Char) : Char := if c = '[' then ']' else c

def first? (c : Char) (rest : List Char) : Option (List Token × List Char) :=
  if c.isWhitespace then some ([], rest)
  else if c = '-' && rest.head? = some '-' then some ([], rest.dropWhile (· ≠ '\n'))
  else if c = '/' && rest.head? = some '*' then some ([], skipComment (rest.drop 1))
  else if c = '\x27' then
    (quoted? c [] rest).map fun (s, rest) => ([text (String.ofList s)], rest)
  else if c = '\x22' || c = '\x60' || c = '[' then
    (quoted? (closingOf c) [] rest).map fun (s, rest) => ([name (String.ofList s)], rest)
  else if c.isDigit then
    let digits := c :: rest.takeWhile Char.isDigit
    some ([number (digits.foldl (fun n d => n * 10 + (d.toNat - 0x30)) 0)],
      rest.dropWhile Char.isDigit)
  else if isWordChar c then
    some ([word (String.ofList (c :: rest.takeWhile isWordChar))], rest.dropWhile isWordChar)
  else some ([mark c], rest)

/-- The tokens up to the first that is not closed. -/
def all : List Char → List Token
  | [] => []
  | c :: rest =>
      match first? c rest with
      | none => []
      | some (tokens, after) =>
          if after.length ≤ rest.length then tokens ++ all after else []
termination_by cs => cs.length
decreasing_by simp only [List.length_cons]; omega

def isKeyword (keyword : String) : Token → Bool
  | word s => s.toUpper = keyword
  | _ => false

def isOneOf (keywords : List String) (t : Token) : Bool :=
  keywords.any fun k => t.isKeyword k

end Token

end ReviewRota.Sql
