import ReviewRota.CommandLine.Arguments
import ReviewRota.Files.Folder
import ReviewRota.LogFilter
import ReviewRota.Server.Address

/-!
# A run of the program

A run reads the arguments and the configuration, opens the database, listens until it is asked to
stop, and ends with an exit code.
-/

namespace ReviewRota

structure Startup where
  result : Except Error Address
  folder : Folder
  events : List Event

def Startup.of (refusals : Refusals) (f : Folder) (config : Config) : Startup :=
  let opened := f.openDatabase refusals config.database.path
  match opened.result with
  | .error fault => ⟨.error (.opening fault), opened.folder, opened.events⟩
  | .ok () =>
      let events := opened.events ++
        [.databaseOpened config.database.path config.database.maxConnections]
      match Address.parse config.server.addr with
      | .error reason => ⟨.error (.notBound config.server.addr reason), opened.folder, events⟩
      | .ok address => ⟨.ok address, opened.folder, events ++ [.listening address.text]⟩

def stopping : List Event := [.shutdownRequested, .serverStopped]

structure Outcome where
  exitCode : Nat
  printed : String := ""
  complaint : String := ""
  events : List Event := []
  folder : Folder
  address : Option Address := none

def failureText (step : String) (e : Error) : String :=
  s!"Error: {step}\n\nCaused by:\n    {e.report.message}"

namespace Outcome

/-- A run with given options, which is asked to stop as soon as it listens. -/
def ofOptions (refusals : Refusals) (f : Folder) (options : CommandLine.Options) : Outcome :=
  match Config.load options.config (f.fileState options.config) with
  | .error e =>
      { exitCode := 1, complaint := failureText s!"loading {options.config}" e, folder := f }
  | .ok (config, loaded) =>
      let addr := options.addr.getD config.server.addr
      let startup := Startup.of refusals f { config with server := { addr } }
      match startup.result with
      | .error e =>
          { exitCode := 1
            complaint := failureText "reviewer service failed" e
            events := loaded :: startup.events
            folder := startup.folder }
      | .ok address =>
          { exitCode := 0
            events := loaded :: startup.events ++ stopping
            folder := startup.folder
            address }

def ofCommand (refusals : Refusals) (f : Folder) : CommandLine.Command → Outcome
  | .help => { exitCode := 0, printed := CommandLine.helpText, folder := f }
  | .version => { exitCode := 0, printed := CommandLine.versionText, folder := f }
  | .serve options => ofOptions refusals f options

def ofArguments (refusals : Refusals) (f : Folder) (arguments : List String) : Outcome :=
  match CommandLine.parse arguments with
  | .error fault => { exitCode := 2, complaint := fault.text, folder := f }
  | .ok command => ofCommand refusals f command

end Outcome

end ReviewRota
