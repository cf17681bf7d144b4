import ReviewRota.Error
import ReviewRota.Text.Form

/-!
# Where a database is

The location of a database is a path, which may be followed by a question mark and a form of
parameters.  Percent signs in the path stand for bytes.
-/

namespace ReviewRota

inductive Location where
  /-- No file: the database is gone when it is closed. -/
  | memory
  | file (path : String) (mustExist : Bool)
  deriving DecidableEq, Repr

namespace Location

def skipAll (lead : List Char) (cs : List Char) : List Char :=
  if lead.isEmpty then cs
  else if lead.isPrefixOf cs then skipAll lead (cs.drop lead.length) else cs
termination_by cs.length
decreasing_by
  rename_i hlead hprefix
  have := List.IsPrefix.length_le (List.isPrefixOf_iff_prefix.1 hprefix)
  have : 0 < lead.length := List.length_pos_iff.2 (by simpa using hlead)
  simp only [List.length_drop]
  omega

def scheme : List Char := "sqlite:".toList

/-- The name of the scheme counts for nothing, even when it is repeated. -/
def withoutScheme (cs : List Char) : List Char :=
  skipAll scheme (skipAll (scheme ++ ['/', '/']) (scheme ++ cs))

def addParameter (l : Location) (parameter : String × String) : Except StorageFault Location :=
  let (key, value) := parameter
  let oneOf (values : List String) (l : Location) : Except StorageFault Location :=
    if values.contains value then .ok l else .error (.unknownValue value key)
  match key with
  | "mode" =>
      match value, l with
      | "memory", _ => .ok .memory
      | "ro", .file path _ => .ok (.file path true)
      | _, _ => oneOf ["ro", "rw", "rwc"] l
  | "cache" => oneOf ["private", "shared"] l
  | "immutable" => oneOf ["true", "1", "false", "0"] l
  | "vfs" => .ok l
  | _ => .error (.unknownParameter key)

/-- The location that a path is read as.  Without a name a database has no file. -/
def ofPath (path : String) : Except StorageFault Location :=
  let cs := withoutScheme path.toList
  let name := String.ofList (cs.takeWhile (· ≠ '?'))
  let parameters := Text.formPairs (String.ofList ((cs.dropWhile (· ≠ '?')).drop 1))
  let bytes := Text.percentDecode name.toUTF8.toList
  match Text.utf8Fault? 0 0 [] bytes with
  | some (offset, length) => .error (.notText offset length)
  | none =>
      parameters.foldlM addParameter
        (if name = ":memory:" ∨ name = "" then .memory
          else .file (Text.decodeLossy bytes) false)

end Location

end ReviewRota
