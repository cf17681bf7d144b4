import ReviewRota.Server.Host

/-!
# Addresses to listen on
-/

namespace ReviewRota

/-- An address that can be listened on; number zero stands for any free one. -/
structure Address where
  host : String
  number : Nat
  deriving DecidableEq, Repr

namespace Address

def text (a : Address) : String := s!"{a.host}:{a.number}"

def number? (cs : List Char) : Option Nat :=
  let digits := match cs with | '+' :: digits => digits | _ => cs
  if digits.isEmpty || !digits.all Char.isDigit then none
  else
    let n := digits.foldl (fun n d => n * 10 + (d.toNat - 0x30)) 0
    if n < UInt16.size then some n else none

def bracketed? : List Char → Option (List Nat)
  | '[' :: rest =>
      if rest.getLast? = some ']' then Host.version6? (String.ofList rest.dropLast) else none
  | _ => none

def hostText (host digits : List Char) : Except String String :=
  match bracketed? host with
  | some groups =>
      if digits.head? = some '+' then Host.lookup (String.ofList host) else Host.bound6 groups
  | none => Host.lookup (String.ofList host)

/-- Reads an address as a host, the last colon and a number.  The error is the reason why it cannot
be listened on. -/
def parse (s : String) : Except String Address :=
  let cs := s.toList
  if !cs.contains ':' then .error "invalid socket address"
  else
    let digits := (cs.reverse.takeWhile (· ≠ ':')).reverse
    match number? digits with
    | none => .error "invalid port value"
    | some n => do
        return ⟨← hostText (cs.take (cs.length - digits.length - 1)) digits, n⟩

end Address

end ReviewRota
