import ReviewRota.Config.Basic
import ReviewRota.Text.Similarity

/-!
# Command-line arguments

Arguments are read from left to right.  The value of an option is only taken up when the next
option or the end is met, so that of two faults a later argument may win.
-/

namespace ReviewRota.CommandLine

inductive Flag where
  | config
  | addr
  | help
  | version
  deriving DecidableEq, Repr

namespace Flag

def all : List Flag := [.config, .addr, .help, .version]

def name : Flag → String
  | .config => "config"
  | .addr => "addr"
  | .help => "help"
  | .version => "version"

def text : Flag → String
  | .config => "--config <CONFIG>"
  | .addr => "--addr <ADDR>"
  | .help => "--help"
  | .version => "--version"

def ofName? (s : String) : Option Flag := all.find? (·.name = s)

def ofLetter? (c : Char) : Option Flag :=
  if c = 'h' then some .help else if c = 'V' then some .version else none

def similarTo? (s : String) : Option Flag :=
  let scored := (all.map fun f => (f, Text.similarity s f.name)).filter fun (_, n) => n > 0.7
  (scored.foldl (fun best scored => match best with
      | some (f, n) => if scored.2 < n then some (f, n) else some scored
      | none => some scored)
    (none : Option (Flag × Float))).map (·.1)

end Flag

structure Options where
  config : String := Config.defaultFile
  addr : Option String := none
  deriving DecidableEq, Repr

inductive Command where
  | help
  | version
  | serve (options : Options)
  deriving DecidableEq, Repr

inductive Fault where
  | unexpected (argument : String) (similar : Option Flag) (used : List Flag)
  | unexpectedValue (value : String) (flag : Flag) (used : List Flag)
  | missingValue (flag : Flag)
  | repeated (flag : Flag)
  deriving DecidableEq, Repr

/-- An option that is met but not taken up, with its value if that is met too. -/
structure Pending where
  flag : Flag
  value : Option String
  deriving DecidableEq, Repr

structure Reading where
  options : Options := {}
  used : List Flag := []
  pending : Option Pending := none
  deriving DecidableEq, Repr

namespace Reading

/-- Takes up the value of an option, which is used up to now if it comes again. -/
def give (r : Reading) (flag : Flag) (value : String) : Reading × Option Fault :=
  if r.used.contains flag then
    ({ r with used := r.used.filter (· ≠ flag) }, some (.repeated flag))
  else
    let r := { r with used := r.used ++ [flag] }
    match flag with
    | .config =>
        if value = "" then (r, some (.missingValue .config))
        else ({ r with options := { r.options with config := value } }, none)
    | .addr => ({ r with options := { r.options with addr := value } }, none)
    | .help | .version => (r, none)

def settle (r : Reading) : Reading × Option Fault :=
  match r.pending with
  | none => (r, none)
  | some ⟨flag, none⟩ => ({ r with pending := none }, some (.missingValue flag))
  | some ⟨flag, some value⟩ => { r with pending := none }.give flag value

def orFault {α : Type} (step : Reading × Option Fault) (next : Reading → Except Fault α) :
    Except Fault α :=
  match step with
  | (_, some fault) => .error fault
  | (r, none) => next r

def usedWith (r : Reading) (flag : Option Flag) : List Flag :=
  match flag with
  | none => r.used
  | some flag => if r.used.contains flag then r.used else r.used ++ [flag]

def unknownName (r : Reading) (name : String) : Fault :=
  let similar := Flag.similarTo? name
  .unexpected s!"--{name}" similar (r.settle.1.usedWith similar)

end Reading

inductive Step where
  | command (c : Command)
  | next (r : Reading)

def commandOf : Flag → Option Command
  | .help => some .help
  | .version => some .version
  | .config | .addr => none

def readLong (r : Reading) (name : String) (value : Option String) : Except Fault Step :=
  match Flag.ofName? name with
  | none => .error (r.unknownName name)
  | some flag =>
      match value, commandOf flag with
      | some value, some _ => .error (.unexpectedValue value flag (r.used ++ [flag]))
      | some value, none =>
          Reading.orFault r.settle fun r => Reading.orFault (r.give flag value) fun r => .ok (.next r)
      | none, some command => Reading.orFault r.settle fun _ => .ok (.command command)
      | none, none =>
          Reading.orFault r.settle fun r => .ok (.next { r with pending := some ⟨flag, none⟩ })

def readShort (r : Reading) (letter : Char) : Except Fault Step :=
  match Flag.ofLetter? letter >>= commandOf with
  | some command => Reading.orFault r.settle fun _ => .ok (.command command)
  | none => .error (.unexpected (String.ofList ['-', letter]) none [])

def readArgument (r : Reading) (argument : String) : Except Fault Step :=
  match argument.toList with
  | '-' :: '-' :: cs =>
      let name := String.ofList (cs.takeWhile (· ≠ '='))
      readLong r name
        (if cs.contains '=' then some (String.ofList ((cs.dropWhile (· ≠ '=')).drop 1)) else none)
  | '-' :: letter :: _ => readShort r letter
  | _ =>
      match r.pending with
      | some ⟨flag, none⟩ => .ok (.next { r with pending := some ⟨flag, some argument⟩ })
      | _ => .error (.unexpected argument none [])

/-- Reads arguments; none may follow a `--`. -/
def read (r : Reading) : List String → Except Fault Command
  | [] => Reading.orFault r.settle fun r => .ok (.serve r.options)
  | argument :: rest =>
      if argument = "--" then
        match rest with
        | [] => Reading.orFault r.settle fun r => .ok (.serve r.options)
        | argument :: _ => .error (.unexpected argument none [])
      else
        match readArgument r argument with
        | .error fault => .error fault
        | .ok (.command command) => .ok command
        | .ok (.next r) => read r rest

def parse (arguments : List String) : Except Fault Command := read {} arguments

def programName : String := "reviewer-service"

def versionText : String := s!"{programName} 0.1.0\n"

def helpText : String :=
  s!"Assigns and reassigns pull request reviewers across teams

Usage: {programName} [OPTIONS]

Options:
      --config <CONFIG>  Path to the TOML configuration file [default: {Config.defaultFile}]
      --addr <ADDR>      Override the listen address from the config file
  -h, --help             Print help
  -V, --version          Print version
"

namespace Fault

def reason : Fault → String
  | .unexpected argument _ _ => s!"unexpected argument '{argument}' found"
  | .unexpectedValue value flag _ =>
      s!"unexpected value '{value}' for '{flag.text}' found; no more were expected"
  | .missingValue flag => s!"a value is required for '{flag.text}' but none was supplied"
  | .repeated flag => s!"the argument '{flag.text}' cannot be used multiple times"

def usage (used : List Flag) : String :=
  s!"Usage: {programName} " ++
    (if used.isEmpty then "[OPTIONS]" else " ".intercalate (used.map Flag.text))

def hints : Fault → List String
  | .unexpected _ none used => [usage used]
  | .unexpected _ (some flag) used =>
      [s!"  tip: a similar argument exists: '--{flag.name}'", usage used]
  | .unexpectedValue _ _ used => [usage used]
  | .missingValue _ => []
  | .repeated _ => [usage []]

def text (f : Fault) : String :=
  "\n\n".intercalate
    (s!"error: {f.reason}" :: f.hints ++ ["For more information, try '--help'."])

end Fault

end ReviewRota.CommandLine
