/-!
# TOML values
-/

namespace ReviewRota.Toml

inductive Real where
  | finite (mantissa : Nat) (exponent : Int)
  | infinite
  | undefined
  deriving DecidableEq, Repr

/-- The least number that does not round to a finite binary64 number. -/
def Real.limit : Nat := Nat.pow 2 1024 - Nat.pow 2 970

def Real.fits : Real → Bool
  | .finite mantissa exponent =>
      let digits := (Nat.toDigits 10 mantissa).length
      if mantissa = 0 then true
      else if 0 ≤ exponent then
        exponent ≤ 309 && mantissa * Nat.pow 10 exponent.toNat < limit
      else digits ≤ exponent.natAbs || mantissa < limit * Nat.pow 10 exponent.natAbs
  | .infinite | .undefined => true

/-- How a table came to be, which decides what may be added to it later. -/
inductive Origin where
  | header
  | implied
  | dotted
  | inline
  deriving DecidableEq, Repr

/-- Dates and times are all one value: nothing depends on which one it is. -/
inductive Value where
  | text (s : String)
  | integer (n : Int)
  | real (r : Real)
  | boolean (b : Bool)
  | moment
  | list (items : List Value)
  | table (origin : Origin) (entries : List (String × Value))
  /-- A list of tables, each with a header; the last one is still open. -/
  | tables (closed : List (List (String × Value))) (last : List (String × Value))
  deriving Repr

abbrev Entries := List (String × Value)

namespace Value

/-- Whether an integer has at most 128 bits, with a sign if it is negative. -/
def isSound128 (n : Int) : Bool := -Int.pow 2 127 ≤ n && n < Int.pow 2 128

mutual

def isSound : Value → Bool
  | .integer n => isSound128 n
  | .real r => r.fits
  | .list items => allSound items
  | .table _ entries => entriesSound entries
  | .tables closed last => closedSound closed && entriesSound last
  | .text _ | .boolean _ | .moment => true

def allSound : List Value → Bool
  | [] => true
  | v :: rest => v.isSound && allSound rest

def entriesSound : List (String × Value) → Bool
  | [] => true
  | (_, v) :: rest => v.isSound && entriesSound rest

def closedSound : List (List (String × Value)) → Bool
  | [] => true
  | entries :: rest => entriesSound entries && closedSound rest

end

end Value

end ReviewRota.Toml
