/-!
# Media types

`type/subtype+suffix`, then parameters behind semicolons.  A quoted parameter holds at least one
character, which may be a quote.
-/

namespace ReviewRota.Http

structure MediaType where
  type : String
  subtype : String
  suffix : Option String
  deriving DecidableEq, Repr

namespace MediaType

def isToken (c : Char) : Bool :=
  c.isAlphanum || "!#$%&-.^_|~".toList.contains c || c.toNat = 0x60

def isQuotable (c : Char) : Bool :=
  31 < c.toNat && c.toNat ≠ 127

def afterQuoted? : List Char → Option (List Char)
  | [] => none
  | first :: cs =>
      let rest := cs.dropWhile fun c => c ≠ '"' && isQuotable c
      if isQuotable first && rest.head? = some '"' then some (rest.drop 1) else none

/-- Whether the text after a semicolon is a list of parameters; each round takes at least one
character. -/
def areParameters : Nat → List Char → Bool
  | 0, _ => false
  | _ + 1, [] => true
  | fuel + 1, ' ' :: rest => areParameters fuel rest
  | fuel + 1, cs =>
      let name := cs.takeWhile isToken
      match cs.dropWhile isToken with
      | '=' :: '"' :: rest =>
          !name.isEmpty &&
            match (afterQuoted? rest).map (·.dropWhile (· = ' ')) with
            | some [] => true
            | some (';' :: rest) => areParameters fuel rest
            | _ => false
      | '=' :: rest =>
          !name.isEmpty &&
            match rest.dropWhile isToken with
            | [] => true
            | ';' :: more => (rest.head?.map isToken).getD false && areParameters fuel more
            | _ => false
      | _ => false

def splitSuffix (cs : List Char) : List Char × Option (List Char) :=
  if cs.contains '+' then
    let suffix := (cs.reverse.takeWhile (· ≠ '+')).reverse
    (cs.take (cs.length - suffix.length - 1), some suffix)
  else (cs, none)

def parse? (s : String) : Option MediaType :=
  let cs := s.toList
  let type := cs.takeWhile isToken
  match cs.dropWhile isToken with
  | '/' :: rest =>
      let whole := rest.takeWhile fun c => isToken c || c = '+'
      let (subtype, suffix) := splitSuffix whole
      let lower (cs : List Char) := String.ofList (cs.map Char.toLower)
      let parsed : MediaType := ⟨lower type, lower subtype, suffix.map lower⟩
      if type.isEmpty || whole.head? = some '+' then none
      else
        match rest.dropWhile fun c => isToken c || c = '+' with
        | [] => some parsed
        | ';' :: parameters =>
            if !whole.isEmpty && areParameters (parameters.length + 1) parameters then some parsed
            else none
        | _ => none
  | _ => none

def isJson (m : MediaType) : Bool :=
  m.type = "application" && (m.subtype = "json" || m.suffix = some "json")

end MediaType

end ReviewRota.Http
