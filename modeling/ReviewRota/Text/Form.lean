import ReviewRota.Text.Hex
import ReviewRota.Text.Utf8

/-!
# Percent signs and forms

`%` with two hexadecimal digits is a byte.  A form is a text of `key=value` pairs between
ampersands, in which a plus is a space.
-/

namespace ReviewRota.Text

def percentDecode : List UInt8 → List UInt8
  | 0x25 :: h :: l :: rest =>
      match hexValue? h, hexValue? l with
      | some h, some l => (h * 16 + l).toUInt8 :: percentDecode rest
      | _, _ => 0x25 :: percentDecode (h :: l :: rest)
  | b :: rest => b :: percentDecode rest
  | [] => []

def decodeComponent (bs : List UInt8) : String :=
  decodeLossy (percentDecode (bs.map fun b => if b = 0x2b then 0x20 else b))

def splitAtByte (separator : UInt8) : List UInt8 → List (List UInt8)
  | [] => [[]]
  | b :: rest =>
      match splitAtByte separator rest with
      | [] => [[b]]
      | piece :: more => if b = separator then [] :: piece :: more else (b :: piece) :: more

def formPairs (form : String) : List (String × String) :=
  ((splitAtByte 0x26 form.toUTF8.toList).filter fun piece => !piece.isEmpty).map fun piece =>
    (decodeComponent (piece.takeWhile (· ≠ 0x3d)),
      decodeComponent ((piece.dropWhile (· ≠ 0x3d)).drop 1))

def formValues (key form : String) : List String :=
  (formPairs form).filterMap fun (k, v) => if k = key then some v else none

end ReviewRota.Text
