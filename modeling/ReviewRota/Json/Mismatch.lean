import ReviewRota.Text.Decimal
import ReviewRota.Text.Quoted

/-!
# Well-formed JSON of the wrong shape
-/

namespace ReviewRota.Json

inductive Found where
  | null
  | boolean (b : Bool)
  | integer (n : Int)
  | floating (bits : UInt64)
  | text (s : String)
  | sequence
  | map
  deriving DecidableEq, Repr

def Found.describe : Found → String
  | .null => "null"
  | .boolean b => s!"boolean `{b}`"
  | .integer n => s!"integer `{n}`"
  | .floating bits => s!"floating point `{Text.decimalOfBits bits}`"
  | .text s => s!"string {Text.quoted s}"
  | .sequence => "sequence"
  | .map => "map"

inductive Wanted where
  | text
  | boolean
  | sequence
  | int64
  | natural32
  | path
  | unit
  | variant
  | record (name : String)
  deriving DecidableEq, Repr

def Wanted.describe : Wanted → String
  | .text => "a string"
  | .boolean => "a boolean"
  | .sequence => "a sequence"
  | .int64 => "i64"
  | .natural32 => "u32"
  | .path => "path string"
  | .unit => "unit"
  | .variant => "variant identifier"
  | .record name => s!"struct {name}"

inductive Mismatch where
  | invalidType (found : Found) (wanted : Wanted)
  | invalidValue (n : Int) (wanted : Wanted)
  | invalidLength (length : Nat) (record : String) (size : Nat)
  | missingField (field : String)
  | duplicateField (field : String)
  | unknownVariant (found : String) (variants : List String)
  deriving DecidableEq, Repr

def Mismatch.describe : Mismatch → String
  | .invalidType found wanted => s!"invalid type: {found.describe}, expected {wanted.describe}"
  | .invalidValue n wanted => s!"invalid value: integer `{n}`, expected {wanted.describe}"
  | .invalidLength length record size =>
      s!"invalid length {length}, expected struct {record} with {size} " ++
        if size = 1 then "element" else "elements"
  | .missingField field => s!"missing field `{field}`"
  | .duplicateField field => s!"duplicate field `{field}`"
  | .unknownVariant found variants =>
      s!"unknown variant `{found}`, expected " ++
        " or ".intercalate (variants.map fun v => s!"`{v}`")

inductive Segment where
  | field (name : String)
  | index (n : Nat)
  deriving DecidableEq, Repr

def pathText : List Segment → String
  | [] => ""
  | .field name :: rest => name ++ restText rest
  | .index n :: rest => s!"[{n}]" ++ restText rest
where
  restText : List Segment → String
    | [] => ""
    | .field name :: rest => "." ++ name ++ restText rest
    | .index n :: rest => s!"[{n}]" ++ restText rest

/-- Why a text is not the JSON of a value: it is not JSON, or a part of it has the wrong shape. -/
inductive Failure where
  | malformed
  | mismatch (path : List Segment) (reason : Mismatch)
  deriving DecidableEq, Repr

end ReviewRota.Json
