import ReviewRota.Json.Mismatch

/-!
# Errors

`Error` lists the causes.  `Error.report` turns a cause into the `Report` that callers see, which
carries a stable code, a message and a few details.
-/

namespace ReviewRota

inductive ErrorCode where
  | teamExists
  | prExists
  | prMerged
  | notAssigned
  | noCandidate
  | notFound
  | invalidInput
  | storeFailure
  | internal
  deriving DecidableEq, Repr, Inhabited

namespace ErrorCode

def text : ErrorCode → String
  | .teamExists => "TEAM_EXISTS"
  | .prExists => "PR_EXISTS"
  | .prMerged => "PR_MERGED"
  | .notAssigned => "NOT_ASSIGNED"
  | .noCandidate => "NO_CANDIDATE"
  | .notFound => "NOT_FOUND"
  | .invalidInput => "INVALID_INPUT"
  | .storeFailure => "STORE_FAILURE"
  | .internal => "INTERNAL"

def all : List ErrorCode :=
  [.teamExists, .prExists, .prMerged, .notAssigned, .noCandidate, .notFound, .invalidInput,
    .storeFailure, .internal]

def ofText? (s : String) : Option ErrorCode :=
  all.find? (·.text = s)

end ErrorCode

/-- What the storage engine itself reports. -/
inductive StorageFault where
  | refused (code : Nat) (message : String)
  | poolClosed
  | poolTimedOut
  | noRow
  | noColumn (name : String)
  | workerCrashed
  | nullResult (column : Nat)
  | unknownParameter (name : String)
  | unknownValue (value parameter : String)
  /-- A location that is not UTF-8 from an offset on, for a number of bytes or up to its end. -/
  | notText (offset : Nat) (length : Option Nat)
  deriving DecidableEq, Repr, Inhabited

namespace StorageFault

def foreignKey : StorageFault := .refused 787 "FOREIGN KEY constraint failed"

def reviewerTwice : StorageFault :=
  .refused 1555
    "UNIQUE constraint failed: pull_request_reviewers.pr_id, pull_request_reviewers.reviewer_id"

def rejected : StorageFault := .refused 1811 "rejected"

def tooManyParameters : StorageFault := .refused 1 "too many SQL variables"

def message : StorageFault → String
  | .refused code text => s!"error returned from database: (code: {code}) {text}"
  | .poolClosed => "attempted to acquire a connection on a closed pool"
  | .poolTimedOut => "pool timed out while waiting for an open connection"
  | .noRow => "no rows returned by a query that expected to return at least one row"
  | .noColumn name => s!"no column found for name: {name}"
  | .workerCrashed => "attempted to communicate with a crashed background worker"
  | .unknownParameter name =>
      s!"error with configuration: unknown query parameter `{name}` while parsing connection URL"
  | .unknownValue value parameter =>
      s!"error with configuration: unknown value {Text.quoted value} for `{parameter}`"
  | .notText offset (some length) =>
      s!"error with configuration: invalid utf-8 sequence of {length} bytes from index {offset}"
  | .notText offset none =>
      s!"error with configuration: incomplete utf-8 byte sequence from index {offset}"
  | .nullResult column =>
      s!"error occurred while decoding column {column}: " ++
        "unexpected null; try decoding as an `Option`"

end StorageFault

inductive OpenFault where
  | storage (fault : StorageFault)
  | migration (reason : String)
  deriving DecidableEq, Repr, Inhabited

namespace OpenFault

def directory (reason : String) : OpenFault :=
  .migration s!"Failed to create database directory: {reason}"

def message : OpenFault → String
  | .storage fault => s!"SQLite error: {fault.message}"
  | .migration reason => s!"Migration error: {reason}"

end OpenFault

inductive Operation where
  | findTeam
  | beginTeam
  | insertTeam
  | upsertUser (id : String)
  | findUser
  | listUsers
  | setActive
  | findPullRequest
  | beginPullRequest
  | insertPullRequest
  | insertReviewer (reviewer pullRequest : String)
  | beginMerge
  | setMerged
  | beginReplacement
  | replaceReviewer
  | listReviews
  | beginDeactivation
  | deactivateUsers (team : String)
  | loadReviewedBy
  | loadReviewers
  | loadUsers
  | loadActive
  | deleteReviewers
  | countByReviewer
  | countByPullRequest
  deriving DecidableEq, Repr, Inhabited

def Operation.text : Operation → String
  | .findTeam => "check team exists"
  | .beginTeam => "begin create team"
  | .insertTeam => "insert team"
  | .upsertUser id => s!"upsert user {id}"
  | .findUser => "get user by id"
  | .listUsers => "list users by team"
  | .setActive => "set user is_active"
  | .findPullRequest => "check pull request exists"
  | .beginPullRequest => "begin create pull request"
  | .insertPullRequest => "insert pull request"
  | .insertReviewer reviewer pullRequest =>
      s!"insert reviewer {reviewer} for pull request {pullRequest}"
  | .beginMerge => "begin merge"
  | .setMerged => "set merged"
  | .beginReplacement => "begin replace reviewer"
  | .replaceReviewer => "replace reviewer"
  | .listReviews => "list pull requests by reviewer"
  | .beginDeactivation => "begin deactivate team"
  | .deactivateUsers team => s!"deactivate users of team {team}"
  | .loadReviewedBy => "select affected pull requests"
  | .loadReviewers => "load current reviewers"
  | .loadUsers => "load users by id"
  | .loadActive => "load active candidates"
  | .deleteReviewers => "delete old reviewers"
  | .countByReviewer => "count assignments by reviewer"
  | .countByPullRequest => "count assignments by pull request"

inductive BodyFault where
  | contentType
  | tooLong
  | json (failure : Json.Failure)
  deriving DecidableEq, Repr

def BodyFault.message : BodyFault → String
  | .contentType => "Expected request with `Content-Type: application/json`"
  | .tooLong => "Failed to buffer the request body: length limit exceeded"
  | .json .malformed => "Failed to parse the request body as JSON"
  | .json (.mismatch path reason) =>
      "Failed to deserialize the JSON body into the target type: " ++
        (if path.isEmpty then "" else Json.pathText path ++ ": ") ++ reason.describe

inductive Error where
  | unknownTeam (name : String)
  | unknownUser (id : String)
  | unknownPullRequest (id : String)
  | teamExists (name : String)
  | pullRequestExists (id : String)
  | pullRequestMerged (id : String)
  | notAssigned (pullRequest reviewer : String)
  | noCandidate (pullRequest : String)
  | storage (fault : StorageFault) (during : Option Operation)
  | opening (fault : OpenFault)
  | blankField (name : String)
  | duplicateMember (id : String)
  | badBody (fault : BodyFault)
  | badConfig
  | noConnections
  | unknownStatus (text : String)
  | unreadable (path reason : String)
  | notBound (address reason : String)
  deriving DecidableEq, Repr

/-- An error as callers see it. -/
inductive Report where
  | notFound (resource : String) (id : Option String)
  | alreadyExists (code : ErrorCode) (message : String)
  | invalidState (code : ErrorCode) (message : String)
  | preconditionFailed (code : ErrorCode) (message : String)
  | database (message : String) (operation : Option String)
  | invalidInput (message : String) (field : Option String)
  | internal (message : String)
  deriving DecidableEq, Repr, Inhabited

namespace Report

def code : Report → ErrorCode
  | .notFound .. => .notFound
  | .alreadyExists code _ => code
  | .invalidState code _ => code
  | .preconditionFailed code _ => code
  | .database .. => .storeFailure
  | .invalidInput .. => .invalidInput
  | .internal _ => .internal

def message : Report → String
  | .notFound resource _ => s!"Not found: {resource}"
  | .alreadyExists _ text => s!"Already exists: {text}"
  | .invalidState _ text => s!"Invalid state: {text}"
  | .preconditionFailed _ text => s!"Precondition failed: {text}"
  | .database text _ => s!"Database error: {text}"
  | .invalidInput text _ => s!"Invalid input: {text}"
  | .internal text => s!"Internal error: {text}"

end Report

def Error.report : Error → Report
  | .unknownTeam name => .notFound "Team" name
  | .unknownUser id => .notFound "User" id
  | .unknownPullRequest id => .notFound "PullRequest" id
  | .teamExists name => .alreadyExists .teamExists s!"team {name} already exists"
  | .pullRequestExists id => .alreadyExists .prExists s!"pull request {id} already exists"
  | .pullRequestMerged id =>
      .invalidState .prMerged s!"cannot reassign reviewers for merged pull request {id}"
  | .notAssigned pullRequest reviewer =>
      .preconditionFailed .notAssigned s!"{reviewer} is not assigned to pull request {pullRequest}"
  | .noCandidate pullRequest =>
      .preconditionFailed .noCandidate
        s!"no available candidate for reassignment on {pullRequest}"
  | .storage fault during => .database fault.message (during.map Operation.text)
  | .opening fault => .database fault.message none
  | .blankField name => .invalidInput s!"{name} is required" name
  | .duplicateMember id => .invalidInput s!"duplicate member {id}" "members"
  | .badBody fault => .invalidInput s!"invalid JSON body: {fault.message}" none
  | .badConfig => .invalidInput "invalid config" none
  | .noConnections =>
      .invalidInput "max_connections must be at least 1" "database.max_connections"
  | .unknownStatus text => .internal s!"unknown pull request status: {text}"
  | .unreadable path reason => .internal s!"Failed to read {path}: {reason}"
  | .notBound address reason => .internal s!"Failed to bind to {address}: {reason}"

def Error.code (e : Error) : ErrorCode := e.report.code

end ReviewRota
