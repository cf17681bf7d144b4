import ReviewRota.Error

/-!
# Events worth a log line
-/

namespace ReviewRota

inductive Level where
  | error
  | warn
  | info
  | debug
  | trace
  deriving DecidableEq, Repr, Inhabited

def Level.text : Level → String
  | .error => "ERROR"
  | .warn => "WARN"
  | .info => "INFO"
  | .debug => "DEBUG"
  | .trace => "TRACE"

inductive Event where
  | teamCreated (name : String) (members : Nat)
  | activitySet (user : String) (isActive : Bool)
  | pullRequestCreated (id : String) (reviewers : List String)
  | alreadyMerged (id : String)
  | pullRequestMerged (id : String)
  | reviewerReplaced (pullRequest old new : String)
  | nobodyActive (team : String)
  | nothingAffected (team : String) (deactivated : Nat)
  | fewReviewersLeft (pullRequest : String) (reviewers : Nat) (team : String)
  | teamDeactivated (team : String) (deactivated updated : Nat)
  | requestFailed (error : Error)
  | configMissing (path : String)
  | configLoaded (path : String)
  | migrationApplied (name : String)
  | databaseOpened (path : String) (maxConnections : Nat)
  | listening (address : String)
  | shutdownRequested
  | serverStopped
  deriving DecidableEq, Repr

namespace Event

def level : Event → Level
  | .alreadyMerged _ | .configMissing _ => .debug
  | .fewReviewersLeft .. => .warn
  | .requestFailed _ => .error
  | _ => .info

def message : Event → String
  | .teamCreated name members => s!"[teams] Created team {name} with {members} members"
  | .activitySet user isActive => s!"[users] Set {user} is_active={isActive}"
  | .pullRequestCreated id reviewers =>
      s!"[reviewers] Created pull request {id} with reviewers {Text.quotedList reviewers}"
  | .alreadyMerged id => s!"[reviewers] Pull request {id} already merged"
  | .pullRequestMerged id => s!"[reviewers] Merged pull request {id}"
  | .reviewerReplaced pullRequest old new =>
      s!"[reviewers] Reassigned {old} on pull request {pullRequest} to {new}"
  | .nobodyActive team => s!"[reviewers] Team {team} had no active members"
  | .nothingAffected team deactivated =>
      s!"[reviewers] Deactivated {deactivated} members of team {team}, " ++
        "no open pull requests affected"
  | .fewReviewersLeft pullRequest reviewers team =>
      s!"[reviewers] Pull request {pullRequest} left with {reviewers} reviewer(s) " ++
        s!"after deactivating team {team}"
  | .teamDeactivated team deactivated updated =>
      s!"[reviewers] Deactivated {deactivated} members of team {team}, " ++
        s!"reassigned {updated} pull requests"
  | .requestFailed error => s!"[api] {error.report.message}"
  | .configMissing path => s!"[config] {path} not found, using defaults"
  | .configLoaded path => s!"[config] Loaded {path}"
  | .migrationApplied name => s!"[db] Applying migration {name}"
  | .databaseOpened path maxConnections =>
      s!"[db] Opened {path} (max {maxConnections} connections)"
  | .listening address => s!"[server] Listening on http://{address}"
  | .shutdownRequested => "[server] Shutdown requested, draining connections"
  | .serverStopped => "[server] Server stopped"

def line (e : Event) : String :=
  e.level.text ++ " " ++ e.message

end Event

end ReviewRota
