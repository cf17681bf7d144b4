import ReviewRota.Http.Message
import ReviewRota.Text.Form
import ReviewRota.Http.Status
import ReviewRota.Json.Decode
import ReviewRota.Json.Models
import ReviewRota.Service.PullRequests
import ReviewRota.Service.Teams
import ReviewRota.Service.Users

/-!
# The HTTP interface

Ten routes over the services.  A request is answered by a service that does not fail: errors become
responses with a code and a message.  Every response may be read from any origin.
-/

namespace ReviewRota.Http

open Json (Value Shape)

inductive Route where
  | health
  | addTeam
  | getTeam
  | deactivateTeam
  | setActive
  | getReviews
  | createPullRequest
  | merge
  | reassign
  | stats
  deriving DecidableEq, Repr

namespace Route

def all : List Route :=
  [.health, .addTeam, .getTeam, .deactivateTeam, .setActive, .getReviews, .createPullRequest,
    .merge, .reassign, .stats]

def path : Route → String
  | .health => "/healthz"
  | .addTeam => "/team/add"
  | .getTeam => "/team/get"
  | .deactivateTeam => "/team/deactivate"
  | .setActive => "/users/setIsActive"
  | .getReviews => "/users/getReview"
  | .createPullRequest => "/pullRequest/create"
  | .merge => "/pullRequest/merge"
  | .reassign => "/pullRequest/reassign"
  | .stats => "/stats/assignments"

def method : Route → String
  | .health | .getTeam | .getReviews | .stats => "GET"
  | _ => "POST"

def ofPath? (path : String) : Option Route :=
  all.find? (·.path = path)

/-- The methods to which a route answers; what can be got can also be asked for its head. -/
def allowed (r : Route) : String :=
  if r.method = "GET" then "GET,HEAD" else r.method

end Route

def teamNameShape : Shape (Option String) String where
  name := "DeactivateTeamRequest"
  empty := none
  fields := [⟨"team_name", false, Option.isSome, Json.readText.map fun s _ => some s⟩]
  build d := Json.required "team_name" d

def activityShape : Shape (Option String × Option Bool) (String × Bool) where
  name := "SetIsActiveRequest"
  empty := (none, none)
  fields :=
    [⟨"user_id", false, (·.1.isSome), Json.readText.map fun s d => (some s, d.2)⟩,
      ⟨"is_active", false, (·.2.isSome), Json.readBoolean.map fun b d => (d.1, some b)⟩]
  build d := do
    return (← Json.required "user_id" d.1, ← Json.required "is_active" d.2)

def creationShape :
    Shape (Option String × Option String × Option String) (String × String × String) where
  name := "CreatePullRequestRequest"
  empty := (none, none, none)
  fields :=
    [⟨"pull_request_id", false, (·.1.isSome), Json.readText.map fun s d => (some s, d.2)⟩,
      ⟨"pull_request_name", false, (·.2.1.isSome),
        Json.readText.map fun s d => (d.1, some s, d.2.2)⟩,
      ⟨"author_id", false, (·.2.2.isSome),
        Json.readText.map fun s d => (d.1, d.2.1, some s)⟩]
  build d := do
    return (← Json.required "pull_request_id" d.1, ← Json.required "pull_request_name" d.2.1,
      ← Json.required "author_id" d.2.2)

def mergeShape : Shape (Option String) String where
  name := "MergePullRequestRequest"
  empty := none
  fields := [⟨"pull_request_id", false, Option.isSome, Json.readText.map fun s _ => some s⟩]
  build d := Json.required "pull_request_id" d

def replacementShape : Shape (Option String × Option String) (String × String) where
  name := "ReassignRequest"
  empty := (none, none)
  fields :=
    [⟨"pull_request_id", false, (·.1.isSome), Json.readText.map fun s d => (some s, d.2)⟩,
      ⟨"old_reviewer_id", false, (·.2.isSome), Json.readText.map fun s d => (d.1, some s)⟩]
  build d := do
    return (← Json.required "pull_request_id" d.1, ← Json.required "old_reviewer_id" d.2)

def bodyLimit : Nat := 2097152

/-- The value in the body of a request: first the content type counts, then the length. -/
def Request.payload {ρ α : Type} (r : Request) (shape : Shape ρ α) : Except Error α :=
  if !r.hasJson then .error (.badBody .contentType)
  else if bodyLimit < r.body.length then .error (.badBody .tooLong)
  else (Json.readAll shape.read r.body).mapError fun f => .badBody (.json f)

def envelope (r : Report) : Value :=
  .record [("error", .record [("code", .text r.code.text), ("message", .text r.message)])]

def answered (status : Nat) (service : Service Value) : Service Response := do
  match ← service.attempt with
  | .ok v => return .ofBody status (.json v)
  | .error e =>
      if 500 ≤ e.code.status then Service.log (.requestFailed e)
      return .ofBody e.code.status (.json (envelope e.report))

/-- Answers with what a service makes of the one value of a key, which is blank if it is not
given. -/
def forKey (key : String) (r : Request) (f : String → Service Value) : Service Response :=
  match Text.formValues key r.query with
  | [] => answered 200 (f "")
  | [value] => answered 200 (f value)
  | _ =>
      return .ofBody 400 (.text
        s!"Failed to deserialize query string: {(Json.Mismatch.duplicateField key).describe}")

def forBody {ρ α : Type} (status : Nat) (shape : Shape ρ α) (r : Request)
    (f : α → Service Value) : Service Response :=
  answered status do f (← Service.ofExcept (r.payload shape))

def Route.respond (request : Request) : Route → Service Response
  | .health => return .ofBody 200 (.json (.record [("status", .text "ok")]))
  | .addTeam =>
      forBody 201 Team.shape request fun t => do
        return .record [("team", (← Service.createTeam t.name t.members).toJson)]
  | .getTeam => forKey "team_name" request fun name => do return (← Service.team name).toJson
  | .deactivateTeam =>
      forBody 200 teamNameShape request fun name => do
        return (← Service.deactivateTeam name).toJson
  | .setActive =>
      forBody 200 activityShape request fun (id, isActive) => do
        return .record [("user", (← Service.setActive id isActive).toJson)]
  | .getReviews =>
      forKey "user_id" request fun id => do
        let reviews ← Service.reviewsOf id
        return .record [("user_id", .text id),
          ("pull_requests", .list (reviews.map PullRequestSummary.toJson))]
  | .createPullRequest =>
      forBody 201 creationShape request fun (id, name, authorId) => do
        return .record [("pr", (← Service.createPullRequest id name authorId).toJson)]
  | .merge =>
      forBody 200 mergeShape request fun id => do
        return .record [("pr", (← Service.merge id).toJson)]
  | .reassign =>
      forBody 200 replacementShape request fun (id, old) => do
        return (← Service.reassign id old).toJson
  | .stats => answered 200 do return (← Service.assignmentStats).toJson

def Response.shared (r : Response) : Response :=
  { r with
    headers := r.headers ++
      [("vary", "origin, access-control-request-method, access-control-request-headers"),
        ("access-control-allow-origin", "*")] }

def withAllow (route : Route) (r : Response) : Response :=
  { r with headers := r.headers ++ [("allow", route.allowed)] }

def preflight (path : String) : Response :=
  let r : Response :=
    { status := 200
      headers := [("access-control-allow-methods", "GET,POST"),
        ("access-control-allow-headers", "content-type")]
      body := .empty }
  match Route.ofPath? path with
  | some route => withAllow route r
  | none => r

def respondUnshared (request : Request) : Service Response :=
  if request.method = "OPTIONS" then return preflight request.path
  else
    match Route.ofPath? request.path with
    | none => return .ofBody 404 .empty
    | some route =>
        if request.method = route.method then route.respond request
        else if request.method = "HEAD" ∧ route.method = "GET" then do
          return { ← route.respond request with body := .empty }
        else return withAllow route (.ofBody 405 .empty)

def respond (request : Request) : Service Response := do
  return (← respondUnshared request).shared

end ReviewRota.Http
