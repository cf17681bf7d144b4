import ReviewRota.Toml.Text

/-!
# TOML tokens
-/

namespace ReviewRota.Toml

inductive Token where
  | newline
  | blank (cs : List Char)
  | mark (c : Char)
  | bare (cs : List Char)
  | text (s : String) (lines : Bool)
  deriving DecidableEq, Repr

namespace Token

def marks : List Char := ['.', '=', ',', '[', ']', '\x7b', '\x7d']

def isBareChar (c : Char) : Bool :=
  !(isBlank c || c = '\n' || c = '\r' || c = '#' || c = quote || c = apostrophe ||
    marks.contains c)

def skipComment (cs : List Char) : Option (List Char) :=
  let comment := cs.takeWhile (· ≠ '\n')
  let rest := cs.dropWhile (· ≠ '\n')
  let comment :=
    if comment.getLast? = some '\r' && !rest.isEmpty then comment.dropLast else comment
  if comment.all isPlain then some rest else none

def text? (q : Char) (read : Bool → List Char → Option (List Char × List Char))
    (cs : List Char) : Option (List Token × List Char) :=
  match afterTwo? q cs with
  | some rest =>
      (read true (skipLineEnd rest)).map fun (s, rest) => ([text (String.ofList s) true], rest)
  | none => (read false cs).map fun (s, rest) => ([text (String.ofList s) false], rest)

def first? (c : Char) (rest : List Char) : Option (List Token × List Char) :=
  if isBlank c then some ([blank (c :: rest.takeWhile isBlank)], rest.dropWhile isBlank)
  else if c = '\n' then some ([newline], rest)
  else if c = '\r' then
    match rest with
    | '\n' :: rest => some ([newline], rest)
    | _ => none
  else if c = '#' then (skipComment rest).map ([], ·)
  else if c = quote then text? quote (fun lines => basic? lines [] .nothing) rest
  else if c = apostrophe then text? apostrophe (fun lines => literal? lines []) rest
  else if marks.contains c then some ([mark c], rest)
  else some ([bare (c :: rest.takeWhile isBareChar)], rest.dropWhile isBareChar)

def all? : List Char → Option (List Token)
  | [] => some []
  | c :: rest =>
      match first? c rest with
      | none => none
      | some (tokens, after) =>
          if after.length ≤ rest.length then (all? after).map (tokens ++ ·) else none
termination_by cs => cs.length
decreasing_by simp only [List.length_cons]; omega

end Token

end ReviewRota.Toml
