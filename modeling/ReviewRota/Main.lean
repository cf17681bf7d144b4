import ReviewRota.Clock
import ReviewRota.Http.Api
import ReviewRota.Program
import Std.Time.DateTime

/-!
# The program

While the service listens, each line of standard input is a request: a method, a target and, if
there is one, a body.  What the service stores is kept until the input ends.
-/

namespace ReviewRota

def readNode (path : String) : IO (Option Node) := do
  try
    return some (.file (← IO.FS.readBinFile path).toList)
  catch e =>
    match e with
    | .noFileOrDirectory .. => return none
    | _ => return some .folder

def withFile (f : Folder) (path : String) : IO Folder := do
  match ← readNode path with
  | some node => return f.write (FilePath.ofText path) node
  | none => return f

def folderFor (arguments : List String) : IO Folder := do
  match CommandLine.parse arguments with
  | .ok (.serve options) =>
      let f ← withFile ∅ options.config
      match Config.load options.config (f.fileState options.config) with
      | .ok (config, _) => withFile f config.database.path
      | .error _ => return f
  | _ => return ∅

def requestOf (line : String) : Http.Request :=
  let cs := Text.trim line.toList
  let method := cs.takeWhile (· ≠ ' ')
  let rest := (cs.drop method.length).drop 1
  let target := rest.takeWhile (· ≠ ' ')
  let body := (rest.drop target.length).drop 1
  .ofTarget (String.ofList method) (String.ofList target) [("content-type", "application/json")]
    (Json.utf8 (String.ofList body))

def bodyText : Http.Body → String
  | .empty => ""
  | .json v => v.compact
  | .text s => s

def writeLog (filter : LogFilter) (events : List Event) : IO Unit :=
  (events.filter filter.passes).forM fun e => IO.eprintln e.line

partial def answer (filter : LogFilter) (input output : IO.FS.Stream) (store : Store)
    (selector : Selector) : IO Unit := do
  let line ← input.getLine
  if line.isEmpty then return
  let now ← Std.Time.Timestamp.now
  let clock := clockAt now.toSecondsSinceUnixEpoch.val
  let (reply, selector) := (Http.respond (requestOf line)).run clock store selector
  writeLog filter reply.events
  match reply.result with
  | .ok response => output.putStrLn s!"{response.status} {bodyText response.body}"
  | .error e => output.putStrLn s!"500 {e.report.message}"
  output.flush
  answer filter input output reply.store selector

end ReviewRota

open ReviewRota in
def main (arguments : List String) : IO UInt32 := do
  let (filter, warnings) :=
    match ← IO.getEnv "LOG_FILTER" with
    | some text => LogFilter.ofText text
    | none => (LogFilter.fallback, [])
  warnings.forM fun warning => IO.eprintln warning
  let outcome := Outcome.ofArguments .none (← folderFor arguments) arguments
  IO.print outcome.printed
  match outcome.address with
  | none => writeLog filter outcome.events
  | some _ =>
      writeLog filter (outcome.events.filter fun e => !stopping.contains e)
      let seed ← IO.rand 0 (UInt64.size - 1)
      answer filter (← IO.getStdin) (← IO.getStdout) ∅ (.ofSeed seed.toUInt64)
      writeLog filter stopping
  unless outcome.complaint.isEmpty do IO.eprintln outcome.complaint
  return outcome.exitCode.toUInt32
