/-!
# Reading bytes as UTF-8, with replacements

What is not UTF-8 is replaced by U+FFFD, once for each longest start of a character that goes wrong.
-/

namespace ReviewRota.Text

def continuations? (first : UInt8) : Option (List (UInt8 × UInt8)) :=
  if first < 0x80 then some []
  else if 0xc2 ≤ first && first ≤ 0xdf then some [(0x80, 0xbf)]
  else if first = 0xe0 then some [(0xa0, 0xbf), (0x80, 0xbf)]
  else if first = 0xed then some [(0x80, 0x9f), (0x80, 0xbf)]
  else if 0xe1 ≤ first && first ≤ 0xef then some [(0x80, 0xbf), (0x80, 0xbf)]
  else if first = 0xf0 then some [(0x90, 0xbf), (0x80, 0xbf), (0x80, 0xbf)]
  else if 0xf1 ≤ first && first ≤ 0xf3 then some [(0x80, 0xbf), (0x80, 0xbf), (0x80, 0xbf)]
  else if first = 0xf4 then some [(0x80, 0x8f), (0x80, 0xbf), (0x80, 0xbf)]
  else none

def leadBits (first : UInt8) (needed : Nat) : Nat :=
  first.toNat % Nat.pow 2 (6 - needed)

/-- Reads on from a character that is begun, as its bits so far and the ranges of the bytes it
still needs, or from between two characters. -/
def decodeFrom (decoded : List Char) (begun : Option (Nat × List (UInt8 × UInt8))) :
    List UInt8 → List Char
  | [] => (if begun.isSome then '\ufffd' :: decoded else decoded).reverse
  | b :: rest =>
      let start (decoded : List Char) : List Char :=
        match continuations? b with
        | none => decodeFrom ('\ufffd' :: decoded) none rest
        | some [] => decodeFrom (Char.ofNat b.toNat :: decoded) none rest
        | some needed => decodeFrom decoded (some (leadBits b needed.length, needed)) rest
      match begun with
      | none | some (_, []) => start decoded
      | some (code, (low, high) :: needed) =>
          if low ≤ b && b ≤ high then
            let code := code * 64 + b.toNat % 64
            if needed.isEmpty then decodeFrom (Char.ofNat code :: decoded) none rest
            else decodeFrom decoded (some (code, needed)) rest
          else start ('\ufffd' :: decoded)

/-- Where bytes stop being UTF-8: the offset of the first character that goes wrong, and the number
of its bytes, unless it only lacks the end.  The bytes follow `offset` others and the start of a
character, as the number of its bytes and the ranges of those that it still needs. -/
def utf8Fault? (offset : Nat) (begun : Nat) (needed : List (UInt8 × UInt8)) :
    List UInt8 → Option (Nat × Option Nat)
  | [] => if begun = 0 then none else some (offset, none)
  | b :: rest =>
      match needed with
      | [] =>
          match continuations? b with
          | none => some (offset, some 1)
          | some [] => utf8Fault? (offset + 1) 0 [] rest
          | some needed => utf8Fault? offset 1 needed rest
      | [(low, high)] =>
          if low ≤ b && b ≤ high then utf8Fault? (offset + begun + 1) 0 [] rest
          else some (offset, some begun)
      | (low, high) :: needed =>
          if low ≤ b && b ≤ high then utf8Fault? offset (begun + 1) needed rest
          else some (offset, some begun)

def decodeLossy (bs : List UInt8) : String :=
  String.ofList (decodeFrom [] none bs)

end ReviewRota.Text
