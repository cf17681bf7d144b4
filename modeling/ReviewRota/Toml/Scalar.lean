import ReviewRota.Toml.Text
import ReviewRota.Toml.Value

/-!
# TOML numbers, dates and times
-/

namespace ReviewRota.Toml

/-- Takes out underscores, each of which must stand between two digits of the base. -/
def digits? (base : Nat) : List Char → Option (List Nat)
  | [] => none
  | c :: rest =>
      match hexDigit? c with
      | none => none
      | some d =>
          if base ≤ d then none
          else
            match rest with
            | [] => some [d]
            | '_' :: rest => (digits? base rest).map (d :: ·)
            | rest => (digits? base rest).map (d :: ·)

def valueOf (base : Nat) (digits : List Nat) : Nat :=
  digits.foldl (fun n d => n * base + d) 0

def whole? (cs : List Char) : Option (List Nat) := do
  let digits ← digits? 10 cs
  if digits.head? = some 0 && digits.length ≠ 1 then none else some digits

def integer? : List Char → Option Int
  | '0' :: 'x' :: cs => (digits? 16 cs).map fun ds => valueOf 16 ds
  | '0' :: 'o' :: cs => (digits? 8 cs).map fun ds => valueOf 8 ds
  | '0' :: 'b' :: cs => (digits? 2 cs).map fun ds => valueOf 2 ds
  | '+' :: cs => (whole? cs).map fun ds => valueOf 10 ds
  | '-' :: cs => (whole? cs).map fun ds => -(valueOf 10 ds : Int)
  | cs => (whole? cs).map fun ds => valueOf 10 ds

def unsigned : List Char → List Char
  | '+' :: cs => cs
  | '-' :: cs => cs
  | cs => cs

def splitAt? (p : Char → Bool) (cs : List Char) : Option (List Char × List Char) :=
  match cs.dropWhile fun c => !p c with
  | _ :: after => some (cs.takeWhile fun c => !p c, after)
  | [] => none

def exponent? : List Char → Option Int
  | '+' :: cs => (digits? 10 cs).map fun ds => valueOf 10 ds
  | '-' :: cs => (digits? 10 cs).map fun ds => -(valueOf 10 ds : Int)
  | cs => (digits? 10 cs).map fun ds => valueOf 10 ds

def real? (cs : List Char) : Option Real := do
  let cs := unsigned cs
  if cs = ['i', 'n', 'f'] then return .infinite
  if cs = ['n', 'a', 'n'] then return .undefined
  let (number, exponent) ←
    match splitAt? (fun c => c = 'e' || c = 'E') cs with
    | some (number, after) => do pure (number, some (← exponent? after))
    | none => some (cs, none)
  match splitAt? (· = '.') number with
  | some (before, after) =>
      let before ← whole? before
      let after ← digits? 10 after
      return .finite (valueOf 10 (before ++ after)) (exponent.getD 0 - after.length)
  | none => return .finite (valueOf 10 (← whole? number)) (← exponent)

def boolean? (cs : List Char) : Option Bool :=
  if cs = ['t', 'r', 'u', 'e'] then some true
  else if cs = ['f', 'a', 'l', 's', 'e'] then some false
  else none

def numeral? (length least greatest : Nat) (cs : List Char) : Option (Nat × List Char) :=
  let digits := cs.take length
  if digits.length = length && digits.all Char.isDigit then
    let n := valueOf 10 (digits.filterMap hexDigit?)
    if least ≤ n && n ≤ greatest then some (n, cs.drop length) else none
  else none

def after? (c : Char) : List Char → Option (List Char)
  | d :: rest => if d = c then some rest else none
  | [] => none

def daysIn (year month : Nat) : Nat :=
  if month = 2 then if year % 4 = 0 && (year % 100 ≠ 0 || year % 400 = 0) then 29 else 28
  else if month = 4 || month = 6 || month = 9 || month = 11 then 30
  else 31

def date? (cs : List Char) : Option (List Char) := do
  let (year, cs) ← numeral? 4 0 9999 cs
  let (month, cs) ← numeral? 2 1 12 (← after? '-' cs)
  let (_, cs) ← numeral? 2 1 (daysIn year month) (← after? '-' cs)
  return cs

/-- Seconds may be left out, and may have a fraction. -/
def time? (cs : List Char) : Option (List Char) := do
  let (_, cs) ← numeral? 2 0 23 cs
  let (_, cs) ← numeral? 2 0 59 (← after? ':' cs)
  match after? ':' cs with
  | none => return cs
  | some cs =>
      let (_, cs) ← numeral? 2 0 60 cs
      match after? '.' cs with
      | none => return cs
      | some cs => if (cs.head?.map Char.isDigit).getD false then cs.dropWhile Char.isDigit else none

def offset? : List Char → Option (List Char)
  | [] => some []
  | c :: cs =>
      if c = 'Z' || c = 'z' then some cs
      else if c = '+' || c = '-' then do
        let (_, cs) ← numeral? 2 0 23 cs
        let (_, cs) ← numeral? 2 0 59 (← after? ':' cs)
        return cs
      else none

/-- A date, a time, or both; an offset is only allowed with both. -/
def isMoment (cs : List Char) : Bool :=
  match date? cs with
  | some [] => true
  | some (separator :: cs) =>
      (separator = 'T' || separator = 't' || separator = ' ') && (time? cs >>= offset?) = some []
  | none => time? cs = some []

def scalar? (cs : List Char) : Option Value :=
  match boolean? cs, integer? cs, real? cs with
  | some b, _, _ => some (.boolean b)
  | none, some n, _ => some (.integer n)
  | none, none, some r => some (.real r)
  | none, none, none => if isMoment cs then some .moment else none

end ReviewRota.Toml
