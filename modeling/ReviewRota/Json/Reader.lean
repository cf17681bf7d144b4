import ReviewRota.Json.Mismatch
import ReviewRota.Json.Value
import ReviewRota.Text.Hex

/-!
# Reading JSON

Readers go over the bytes once and stop at the first problem.  A byte sequence that is not UTF-8 is
only a problem inside a text that is used.
-/

namespace ReviewRota.Json

abbrev Reader (α : Type) := Bytes → Except Failure (α × Bytes)

def isBlankByte (b : UInt8) : Bool :=
  b = 0x20 || b = 0x09 || b = 0x0a || b = 0x0d

def skipBlank (bs : Bytes) : Bytes :=
  bs.dropWhile isBlankByte

def after? : Bytes → Bytes → Option Bytes
  | [], bs => some bs
  | w :: word, b :: bs => if w = b then after? word bs else none
  | _ :: _, [] => none

/-! ## Texts -/

def unit? (a b c d : UInt8) : Option Nat := do
  let high := (← Text.hexValue? a) * 16 + (← Text.hexValue? b)
  let low := (← Text.hexValue? c) * 16 + (← Text.hexValue? d)
  return high * 256 + low

def escaped? (b : UInt8) : Option UInt8 :=
  if b = quote || b = backslash || b = 0x2f then some b
  else if b = 0x62 then some 0x08
  else if b = 0x66 then some 0x0c
  else if b = 0x6e then some 0x0a
  else if b = 0x72 then some 0x0d
  else if b = 0x74 then some 0x09
  else none

def isLeading (unit : Nat) : Bool := 0xd800 ≤ unit && unit ≤ 0xdbff
def isTrailing (unit : Nat) : Bool := 0xdc00 ≤ unit && unit ≤ 0xdfff

def encodeChar (code : Nat) : Bytes := String.utf8EncodeChar (Char.ofNat code)

/-- The content of a text up to its closing quote, put after the reversed `read`, and what follows
the quote. -/
def content? (read : Bytes) : Bytes → Option (Bytes × Bytes)
  | [] => none
  | b :: rest =>
      if b = quote then some (read.reverse, rest)
      else if b = backslash then
        match rest with
        | [] => none
        | e :: rest =>
            if e = 0x75 then
              match rest with
              | h₁ :: h₂ :: h₃ :: h₄ :: rest =>
                  match unit? h₁ h₂ h₃ h₄ with
                  | none => none
                  | some unit =>
                      if isTrailing unit then none
                      else if isLeading unit then
                        match rest with
                        | s :: u :: l₁ :: l₂ :: l₃ :: l₄ :: rest =>
                            match unit? l₁ l₂ l₃ l₄ with
                            | none => none
                            | some low =>
                                if s = backslash && u = 0x75 && isTrailing low then
                                  let code := (unit - 0xd800) * 0x400 + (low - 0xdc00) + 0x10000
                                  content? ((encodeChar code).reverse ++ read) rest
                                else none
                        | _ => none
                      else content? ((encodeChar unit).reverse ++ read) rest
              | _ => none
            else
              match escaped? e with
              | none => none
              | some c => content? (c :: read) rest
      else if b < 0x20 then none
      else content? (b :: read) rest

def text? (bs : Bytes) : Option (String × Bytes) := do
  let (content, rest) ← content? [] bs
  return (← String.fromUTF8? ⟨content.toArray⟩, rest)

/-- Passes over a text whose opening quote is read, without a look at what the bytes mean. -/
def skipContent : Bytes → Option Bytes
  | [] => none
  | b :: rest =>
      if b = quote then some rest
      else if b = backslash then
        match rest with
        | [] => none
        | e :: rest =>
            if e = 0x75 then
              match rest with
              | a :: b :: c :: d :: rest =>
                  if (unit? a b c d).isSome then skipContent rest else none
              | _ => none
            else if (escaped? e).isSome then skipContent rest
            else none
      else if b < 0x20 then none
      else skipContent rest

/-! ## Numbers -/

inductive Number where
  | natural (n : Nat)
  | negative (n : Nat)
  | floating (bits : UInt64)
  deriving DecidableEq, Repr

def Number.found : Number → Found
  | .natural n => .integer n
  | .negative n => .integer (-n)
  | .floating bits => .floating bits

def isDigit (b : UInt8) : Bool := 0x30 ≤ b && b ≤ 0x39

/-- Takes up digits as long as the number stays below a limit, and says how many are left. -/
def accumulate (limit : Nat) (n : Nat) : Bytes → Nat × Nat
  | [] => (n, 0)
  | d :: rest =>
      let m := n * 10 + (d.toNat - 0x30)
      if m < limit then accumulate limit m rest else (n, rest.length + 1)

def powerOfTen (n : Nat) : Float := Float.ofScientific 1 false n

/-- `f * 10 ^ exponent`, by at most one multiplication; none if that is infinite. -/
def scale? (f : Float) (exponent : Int) : Nat → Option Float
  | 0 => some 0
  | fuel + 1 =>
      if exponent.natAbs ≤ 308 then
        if 0 ≤ exponent then
          let g := f * powerOfTen exponent.natAbs
          if g.isInf then none else some g
        else some (f / powerOfTen exponent.natAbs)
      else if f == 0 then some f
      else if 0 ≤ exponent then none
      else scale? (f / powerOfTen 308) (exponent + 308) fuel

def floating? (positive : Bool) (significand : Nat) (exponent : Int) : Option Number := do
  let f ← scale? significand.toUInt64.toFloat exponent 8
  return .floating (if positive then f else -f).toBits

/-- The exponent after its letter, with what follows.  An exponent beyond 31 bits is as good as
infinite: it makes zero, unless the number itself would be. -/
def exponent? (positive : Bool) (significand : Nat) (start : Int) (bs : Bytes) :
    Option (Number × Bytes) :=
  let (up, bs) :=
    match bs with
    | 0x2b :: rest => (true, rest)
    | 0x2d :: rest => (false, rest)
    | _ => (true, bs)
  let digits := bs.takeWhile isDigit
  let rest := bs.dropWhile isDigit
  let (n, left) := accumulate (Nat.pow 2 31) 0 digits
  if digits.isEmpty then none
  else if left ≠ 0 then
    if significand ≠ 0 && up then none
    else some (.floating (if positive then 0.0 else -0.0 : Float).toBits, rest)
  else do
    return (← floating? positive significand (if up then start + n else start - n), rest)

/-- A number after its sign.  Digits beyond 64 bits only count as places. -/
def number? (positive : Bool) (bs : Bytes) : Option (Number × Bytes) :=
  let digits := bs.takeWhile isDigit
  let rest := bs.dropWhile isDigit
  let (n, left) := accumulate UInt64.size 0 digits
  if digits.isEmpty || (digits.head? = some 0x30 && digits.length ≠ 1) then none
  else
    match rest with
    | 0x2e :: rest =>
        let places := rest.takeWhile isDigit
        let rest := rest.dropWhile isDigit
        let (n, ignored) := accumulate UInt64.size n places
        let exponent : Int := left - (places.length - ignored : Nat)
        if places.isEmpty then none
        else
          match rest with
          | 0x65 :: rest => exponent? positive n exponent rest
          | 0x45 :: rest => exponent? positive n exponent rest
          | _ => do return (← floating? positive n exponent, rest)
    | 0x65 :: rest => exponent? positive n left rest
    | 0x45 :: rest => exponent? positive n left rest
    | _ =>
        if left ≠ 0 then do return (← floating? positive n left, rest)
        else if positive then some (.natural n, rest)
        else if 0 < n && n ≤ Nat.pow 2 63 then some (.negative n, rest)
        else do return (← floating? false n 0, rest)

def skipDigits (bs : Bytes) : Option Bytes :=
  if (bs.head?.map isDigit).getD false then some (bs.dropWhile isDigit) else none

def skipExponent (bs : Bytes) : Option Bytes :=
  match bs with
  | 0x65 :: rest | 0x45 :: rest =>
      match rest with
      | 0x2b :: rest | 0x2d :: rest => skipDigits rest
      | _ => skipDigits rest
  | _ => some bs

def skipNumber (bs : Bytes) : Option Bytes := do
  let rest ← skipDigits bs
  if bs.head? = some 0x30 && (rest.length + 1 ≠ bs.length) then none
  else
    match rest with
    | 0x2e :: rest => skipExponent (← skipDigits rest)
    | _ => skipExponent rest

inductive Enclosing where
  | list
  | record
  deriving DecidableEq, Repr

def skipKey (bs : Bytes) : Option Bytes :=
  match skipBlank bs with
  | b :: rest =>
      if b = quote then
        match skipContent rest with
        | some rest =>
            match skipBlank rest with
            | 0x3a :: rest => some rest
            | _ => none
        | none => none
      else none
  | [] => none

def skipScalar (bs : Bytes) : Option Bytes :=
  match bs with
  | [] => none
  | b :: rest =>
      if b = quote then skipContent rest
      else if b = 0x2d then skipNumber rest
      else if isDigit b then skipNumber bs
      else if b = 0x6e then after? (utf8 "null") bs
      else if b = 0x74 then after? (utf8 "true") bs
      else if b = 0x66 then after? (utf8 "false") bs
      else none

/-- Passes over what is left of nested lists and records; `ahead` says whether a value comes next
or has just ended.  Each step takes at least one byte, which bounds their number. -/
def skipWithin : Nat → Bool → List Enclosing → Bytes → Option Bytes
  | 0, _, _, _ => none
  | fuel + 1, true, open_, bs =>
      match skipBlank bs with
      | 0x5b :: rest =>
          match skipBlank rest with
          | 0x5d :: rest => skipWithin fuel false open_ rest
          | rest => skipWithin fuel true (.list :: open_) rest
      | 0x7b :: rest =>
          match skipBlank rest with
          | 0x7d :: rest => skipWithin fuel false open_ rest
          | rest =>
              match skipKey rest with
              | some rest => skipWithin fuel true (.record :: open_) rest
              | none => none
      | rest =>
          match skipScalar rest with
          | some rest => skipWithin fuel false open_ rest
          | none => none
  | _ + 1, false, [], bs => some bs
  | fuel + 1, false, .list :: open_, bs =>
      match skipBlank bs with
      | 0x2c :: rest => skipWithin fuel true (.list :: open_) rest
      | 0x5d :: rest => skipWithin fuel false open_ rest
      | _ => none
  | fuel + 1, false, .record :: open_, bs =>
      match skipBlank bs with
      | 0x2c :: rest =>
          match skipKey rest with
          | some rest => skipWithin fuel true (.record :: open_) rest
          | none => none
      | 0x7d :: rest => skipWithin fuel false open_ rest
      | _ => none

def skipValue (bs : Bytes) : Option Bytes :=
  skipWithin (bs.length + 2) true [] bs

def orMalformed {α : Type} (x : Option α) : Except Failure α :=
  match x with
  | some a => .ok a
  | none => .error .malformed

def mismatched {α : Type} (reason : Mismatch) : Except Failure α :=
  .error (.mismatch [] reason)

/-- What stands where something else was wanted; none if it is not JSON. -/
def found? (bs : Bytes) : Option Found :=
  match bs with
  | [] => none
  | b :: rest =>
      if b = quote then (text? rest).map fun (s, _) => .text s
      else if b = 0x5b then some .sequence
      else if b = 0x7b then some .map
      else if b = 0x2d then (number? false rest).map fun (n, _) => n.found
      else if isDigit b then (number? true bs).map fun (n, _) => n.found
      else if b = 0x6e then (after? (utf8 "null") bs).map fun _ => .null
      else if b = 0x74 then (after? (utf8 "true") bs).map fun _ => .boolean true
      else if b = 0x66 then (after? (utf8 "false") bs).map fun _ => .boolean false
      else none

def wrongType {α : Type} (wanted : Wanted) (bs : Bytes) : Except Failure α :=
  match found? bs with
  | some found => mismatched (.invalidType found wanted)
  | none => .error .malformed

def readTextAs (wanted : Wanted) : Reader String := fun bs =>
  match skipBlank bs with
  | [] => .error .malformed
  | b :: rest => if b = quote then orMalformed (text? rest) else wrongType wanted (b :: rest)

def readText : Reader String := readTextAs .text

def readBoolean : Reader Bool := fun bs =>
  match skipBlank bs with
  | 0x74 :: rest => orMalformed ((after? (utf8 "rue") rest).map (true, ·))
  | 0x66 :: rest => orMalformed ((after? (utf8 "alse") rest).map (false, ·))
  | rest => wrongType .boolean rest

def readNull : Reader Unit := fun bs =>
  match skipBlank bs with
  | 0x6e :: rest => orMalformed ((after? (utf8 "ull") rest).map ((), ·))
  | rest => wrongType .unit rest

def readInteger (wanted : Wanted) (least greatest : Int) : Reader Int := fun bs =>
  let rest := skipBlank bs
  let number : Option (Option (Number × Bytes)) :=
    match rest with
    | 0x2d :: rest => some (number? false rest)
    | b :: _ => if isDigit b then some (number? true rest) else none
    | [] => none
  match number with
  | none => wrongType wanted rest
  | some none => .error .malformed
  | some (some (.floating bits, _)) => mismatched (.invalidType (.floating bits) wanted)
  | some (some (.natural n, rest)) =>
      if (n : Int) ≤ greatest then .ok (n, rest) else mismatched (.invalidValue n wanted)
  | some (some (.negative n, rest)) =>
      if least ≤ -(n : Int) then .ok (-n, rest) else mismatched (.invalidValue (-n) wanted)

def readInt64 : Reader Int64 := fun bs => do
  let (n, rest) ← readInteger .int64 Int64.minValue.toInt Int64.maxValue.toInt bs
  return (Int64.ofInt n, rest)

def readNatural32 : Reader Nat := fun bs => do
  let (n, rest) ← readInteger .natural32 0 (UInt32.size - 1) bs
  return (n.toNat, rest)

def readNullable {α : Type} (read : Reader α) : Reader (Option α) := fun bs =>
  match skipBlank bs with
  | 0x6e :: rest => orMalformed ((after? (utf8 "ull") rest).map (none, ·))
  | rest => do
      let (a, rest) ← read rest
      return (some a, rest)

/-! ## Lists and records -/

def Failure.within (segment : Segment) : Failure → Failure
  | .malformed => .malformed
  | .mismatch path reason => .mismatch (segment :: path) reason

def within {α : Type} (segment : Segment) (read : Reader α) : Reader α := fun bs =>
  (read bs).mapError (Failure.within segment)

/-- Where the next item of a list starts; none at the end of the list, which is left unread. -/
def nextItem (isFirst : Bool) (bs : Bytes) : Except Failure (Option Bytes) :=
  match skipBlank bs with
  | [] => .error .malformed
  | 0x5d :: _ => .ok none
  | b :: rest =>
      if isFirst then .ok (some (b :: rest))
      else if b = 0x2c then
        match skipBlank rest with
        | [] | 0x5d :: _ => .error .malformed
        | rest => .ok (some rest)
      else .error .malformed

def closeWith (bracket : UInt8) (bs : Bytes) : Except Failure Bytes :=
  match skipBlank bs with
  | b :: rest => if b = bracket then .ok rest else .error .malformed
  | [] => .error .malformed

def readItems {α : Type} (read : Reader α) : Nat → Nat → List α → Reader (List α)
  | 0, _, _, _ => .error .malformed
  | fuel + 1, index, items, bs => do
      match ← nextItem (index = 0) bs with
      | none => return (items.reverse, ← closeWith 0x5d bs)
      | some rest =>
          let (item, rest) ← within (.index index) read rest
          readItems read fuel (index + 1) (item :: items) rest

def readList {α : Type} (read : Reader α) : Reader (List α) := fun bs =>
  match skipBlank bs with
  | 0x5b :: rest => readItems read (rest.length + 1) 0 [] rest
  | rest => wrongType .sequence rest

structure Field (ρ : Type) where
  name : String
  defaulted : Bool
  given : ρ → Bool
  read : Reader (ρ → ρ)

/-- How records are read: from an object, or from a list of their fields in order. -/
structure Shape (ρ α : Type) where
  name : String
  empty : ρ
  fields : List (Field ρ)
  build : ρ → Except String α

def nextKey (isFirst : Bool) (bs : Bytes) : Except Failure (Option Bytes) :=
  match skipBlank bs with
  | [] => .error .malformed
  | 0x7d :: _ => .ok none
  | b :: rest =>
      if isFirst then if b = quote then .ok (some rest) else .error .malformed
      else if b = 0x2c then
        match skipBlank rest with
        | c :: rest => if c = quote then .ok (some rest) else .error .malformed
        | [] => .error .malformed
      else .error .malformed

namespace Shape

variable {ρ α : Type} (shape : Shape ρ α)

/-- Reads fields by name.  A known field must not come twice; the value of an unknown field is
passed over. -/
def readFields : Nat → Bool → ρ → Reader ρ
  | 0, _, _, _ => .error .malformed
  | fuel + 1, isFirst, draft, bs => do
      match ← nextKey isFirst bs with
      | none => return (draft, bs)
      | some rest =>
          let (key, rest) ← orMalformed (text? rest)
          match shape.fields.find? (·.name = key) with
          | none =>
              let rest ← orMalformed (skipValue (← closeWith 0x3a rest))
              readFields fuel false draft rest
          | some field =>
              if field.given draft then mismatched (.duplicateField key)
              else
                let (put, rest) ← within (.field key) field.read (← closeWith 0x3a rest)
                readFields fuel false (put draft) rest

def readInOrder (index : Nat) (draft : ρ) : List (Field ρ) → Reader ρ
  | [], bs => .ok (draft, bs)
  | field :: fields, bs => do
      match ← nextItem (index = 0) bs with
      | none =>
          match (field :: fields).findIdx? fun f => !f.defaulted with
          | none => return (draft, bs)
          | some i =>
              mismatched (.invalidLength (index + i) shape.name shape.fields.length)
      | some rest =>
          let (put, rest) ← within (.index index) field.read rest
          readInOrder (index + 1) (put draft) fields rest

def finish (draft : ρ) : Except Failure α :=
  match shape.build draft with
  | .ok a => .ok a
  | .error field => mismatched (.missingField field)

def read : Reader α := fun bs =>
  match skipBlank bs with
  | 0x5b :: rest => do
      let (draft, rest) ← shape.readInOrder 0 shape.empty shape.fields rest
      let a ← shape.finish draft
      return (a, ← closeWith 0x5d rest)
  | 0x7b :: rest => do
      let (draft, rest) ← shape.readFields (rest.length + 1) true shape.empty rest
      let a ← shape.finish draft
      return (a, ← closeWith 0x7d rest)
  | rest => wrongType (.record shape.name) rest

end Shape

def readAll {α : Type} (read : Reader α) (bs : Bytes) : Except Failure α := do
  let (a, rest) ← read bs
  if (skipBlank rest).isEmpty then return a else throw .malformed

end ReviewRota.Json
