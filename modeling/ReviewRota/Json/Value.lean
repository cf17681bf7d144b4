/-!
# JSON values and their compact text

The text of a value is a list of bytes without blanks, fields in their order.  A text is written in
UTF-8; only quotes, backslashes and control characters are escaped.
-/

namespace ReviewRota.Json

inductive Value where
  | null
  | boolean (b : Bool)
  | integer (n : Int)
  | text (s : String)
  | list (items : List Value)
  | record (fields : List (String × Value))
  deriving Repr, Inhabited

abbrev Bytes := List UInt8

def utf8 (s : String) : Bytes := s.toUTF8.toList

def quote : UInt8 := 0x22
def backslash : UInt8 := 0x5c

def hexDigit (n : Nat) : UInt8 :=
  if n < 10 then (0x30 + n).toUInt8 else (0x57 + n).toUInt8

def escapeByte (b : UInt8) : Bytes :=
  if b = quote then [backslash, quote]
  else if b = backslash then [backslash, backslash]
  else if b = 0x08 then [backslash, 0x62]
  else if b = 0x09 then [backslash, 0x74]
  else if b = 0x0a then [backslash, 0x6e]
  else if b = 0x0c then [backslash, 0x66]
  else if b = 0x0d then [backslash, 0x72]
  else if b < 0x20 then
    [backslash, 0x75, 0x30, 0x30, hexDigit (b.toNat / 16), hexDigit (b.toNat % 16)]
  else [b]

def writeText (s : String) : Bytes :=
  quote :: (utf8 s).flatMap escapeByte ++ [quote]

def writeNatural (n : Nat) : Bytes :=
  (Nat.toDigits 10 n).map fun c => c.toNat.toUInt8

def writeInteger : Int → Bytes
  | .ofNat n => writeNatural n
  | .negSucc n => 0x2d :: writeNatural (n + 1)

namespace Value

mutual

def write : Value → Bytes
  | null => utf8 "null"
  | boolean b => utf8 (if b then "true" else "false")
  | integer n => writeInteger n
  | text s => writeText s
  | list [] => utf8 "[]"
  | list (v :: rest) => 0x5b :: v.write ++ writeItems rest ++ [0x5d]
  | record [] => [0x7b, 0x7d]
  | record ((k, v) :: rest) =>
      0x7b :: writeText k ++ 0x3a :: v.write ++ writeFields rest ++ [0x7d]

def writeItems : List Value → Bytes
  | [] => []
  | v :: rest => 0x2c :: v.write ++ writeItems rest

def writeFields : List (String × Value) → Bytes
  | [] => []
  | (k, v) :: rest => 0x2c :: writeText k ++ 0x3a :: v.write ++ writeFields rest

end

def compact (v : Value) : String :=
  (String.fromUTF8? ⟨v.write.toArray⟩).getD ""

def texts (items : List String) : Value :=
  list (items.map text)

def optional (name : String) : Option Value → List (String × Value)
  | none => []
  | some v => [(name, v)]

end Value

end ReviewRota.Json
