import ReviewRota.Text.Hex

/-!
# Hosts to listen on

A host is written as a number of version 4 or 6 or as a name.  No interface of the network is up, so
a number of version 4 is taken as it stands, of version 6 only the one that means every interface,
and of the names only that of the machine itself is known.
-/

namespace ReviewRota

namespace Host

def notAssigned : String := "Cannot assign requested address (os error 99)"

def invalidArgument : String := "Invalid argument (os error 22)"

def lookupFailed (reason : String) : String :=
  s!"failed to lookup address information: {reason}"

def value? (base : Nat) (cs : List Char) : Option Nat :=
  if cs.isEmpty then none
  else
    cs.foldlM (fun n c => do
      let d ← if c.toNat < 0x80 then Text.hexValue? c.toUInt8 else none
      if d < base then some (n * base + d) else none) 0

/-- A part is hexadecimal after `0x`, octal after another zero, else decimal. -/
def part? : List Char → Option Nat
  | '0' :: x :: cs => if x = 'x' ∨ x = 'X' then value? 16 cs else value? 8 (x :: cs)
  | cs => value? 10 cs

/-- The bytes of up to four parts.  The last part fills the bytes that are left. -/
def fill? : Nat → List Nat → Option (List Nat)
  | room, [last] =>
      if last < 256 ^ room then
        some ((List.range room).reverse.map fun i => last / 256 ^ i % 256)
      else none
  | room + 1, byte :: rest =>
      if byte < 256 then (fill? room rest).map (byte :: ·) else none
  | _, _ => none

def version4? (host : String) : Option (List Nat) := do
  let parts ← (host.splitToList (· = '.')).mapM fun part => part? part.toList
  if parts.length ≤ 4 then fill? 4 parts else none

example : version4? "127.1" = some [127, 0, 0, 1] ∧
    version4? "0x7f.010.0" = some [127, 8, 0, 0] := by
  decide +kernel

def dotted (bytes : List Nat) : String :=
  ".".intercalate (bytes.map toString)

/-! ## Version 6 -/

def quad? (s : String) : Option (List Nat) := do
  let bytes ← (s.splitToList (· = '.')).mapM fun part => do
    let n ← value? 10 part.toList
    if n < 256 ∧ part = toString n then some n else none
  match bytes with
  | [a, b, c, d] => some [a * 256 + b, c * 256 + d]
  | _ => none

def group? (s : String) : Option Nat :=
  if s.length ≤ 4 then value? 16 s.toList else none

def groups? : List String → Option (List Nat)
  | [] => some []
  | [last] => (group? last).map ([·]) <|> quad? last
  | s :: rest => do return (← group? s) :: (← groups? rest)

def colonSplit (s : String) : List String :=
  if s.isEmpty then [] else s.splitToList (· = ':')

/-- Eight groups, of which one run of zeros may be left out between two colons. -/
def version6? (host : String) : Option (List Nat) :=
  match host.splitOn "::" with
  | [all] => do
      let groups ← groups? (colonSplit all)
      if groups.length = 8 then some groups else none
  | [before, after] => do
      let left ← (colonSplit before).mapM group?
      let right ← groups? (colonSplit after)
      if left.length + right.length < 8 then
        some (left ++ List.replicate (8 - left.length - right.length) 0 ++ right)
      else none
  | _ => none

/-- The text of a number of version 6 that can be listened on.  One that belongs to a link or to a
group is none that a listener may have. -/
def bound6 : List Nat → Except String String
  | [0, 0, 0, 0, 0, 0, 0, 0] => .ok "[::]"
  | [0, 0, 0, 0, 0, 0xFFFF, a, b] =>
      .ok s!"[::ffff:{dotted [a / 256, a % 256, b / 256, b % 256]}]"
  | first :: _ =>
      .error (if first / 64 = 0xFE80 / 64 ∨ first / 256 = 0xFF then invalidArgument else notAssigned)
  | [] => .error notAssigned

def isNameChar (c : Char) : Bool :=
  c.isAlphanum || c = '-' || c = '_'

def isLabel (s : String) : Bool :=
  0 < s.length && s.length < 64 && s.toList.all isNameChar

def isName (host : String) : Bool :=
  let labels := host.splitToList (· = '.')
  let labels := if labels.getLast? = some "" then labels.dropLast else labels
  !host.isEmpty && (host = "." || labels.all isLabel) && !host.startsWith "-" &&
    labels.foldl (fun n label => n + label.length) labels.length ≤ 254

def lookup (host : String) : Except String String :=
  match version4? host, version6? host with
  | some bytes, _ => .ok (dotted bytes)
  | none, some groups => bound6 groups
  | none, none =>
      if host.contains '\x00' then .error "file name contained an unexpected NUL byte"
      else if host.toLower = "localhost" then .ok "127.0.0.1"
      else if isName host then .error (lookupFailed "Temporary failure in name resolution")
      else .error (lookupFailed "Name or service not known")

end Host

end ReviewRota
