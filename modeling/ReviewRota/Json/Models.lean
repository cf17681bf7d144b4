import ReviewRota.Database.Basic
import ReviewRota.Json.Value
import ReviewRota.Stats

/-!
# The JSON of users, teams, pull requests and errors
-/

namespace ReviewRota

open Json (Value)

def User.toJson (u : User) : Value :=
  .record [("user_id", .text u.id), ("username", .text u.username),
    ("team_name", .text u.teamName), ("is_active", .boolean u.isActive)]

def Member.toJson (m : Member) : Value :=
  .record [("user_id", .text m.userId), ("username", .text m.username),
    ("is_active", .boolean m.isActive)]

def Team.toJson (t : Team) : Value :=
  .record [("team_name", .text t.name), ("members", .list (t.members.map Member.toJson))]

def TeamDeactivation.toJson (d : TeamDeactivation) : Value :=
  .record [("team_name", .text d.teamName), ("deactivated_users", .integer d.deactivatedUsers),
    ("updated_pull_requests", .integer d.updatedPullRequests)]

def Status.toJson (s : Status) : Value := .text s.text

def PullRequest.toJson (p : PullRequest) : Value :=
  .record <|
    [("pull_request_id", .text p.id), ("pull_request_name", .text p.name),
      ("author_id", .text p.authorId), ("status", p.status.toJson),
      ("assigned_reviewers", .texts p.reviewers), ("created_at", .integer p.createdAt.toInt)] ++
    Value.optional "merged_at" (p.mergedAt.map fun t => .integer t.toInt)

def PullRequestSummary.toJson (p : PullRequestSummary) : Value :=
  .record [("pull_request_id", .text p.id), ("pull_request_name", .text p.name),
    ("author_id", .text p.authorId), ("status", p.status.toJson)]

def Reassignment.toJson (r : Reassignment) : Value :=
  .record [("pr", r.pullRequest.toJson), ("replaced_by", .text r.replacedBy)]

def AssignmentStats.toJson (s : AssignmentStats) : Value :=
  .record [("by_user", counts "user_id" s.byUser),
    ("by_pull_request", counts "pull_request_id" s.byPullRequest)]
where
  counts (key : String) (c : Counts) : Value :=
    .list (c.map fun (id, n) => .record [(key, .text id), ("assignments", .integer n)])

def Report.toJson : Report → Value
  | .notFound resource id =>
      tagged "NotFound" (("resource", .text resource) :: Value.optional "id" (id.map .text))
  | .alreadyExists code message => coded "AlreadyExists" code message
  | .invalidState code message => coded "InvalidState" code message
  | .preconditionFailed code message => coded "PreconditionFailed" code message
  | .database message operation =>
      tagged "Database" (("message", .text message) ::
        Value.optional "operation" (operation.map .text))
  | .invalidInput message field =>
      tagged "InvalidInput" (("message", .text message) :: Value.optional "field" (field.map .text))
  | .internal message => tagged "Internal" [("message", .text message)]
where
  tagged (kind : String) (details : List (String × Value)) : Value :=
    .record [("type", .text kind), ("details", .record details)]
  coded (kind : String) (code : ErrorCode) (message : String) : Value :=
    tagged kind [("code", .text code.text), ("message", .text message)]

def Database.toJson (db : Database) : Value :=
  .record
    [("teams", .list (db.teams.rows.map fun t =>
        .record [("name", .text t.name), ("created_at", .integer t.createdAt.toInt)])),
      ("users", .list (db.users.rows.map fun r =>
        .record [("id", .text r.user.id), ("username", .text r.user.username),
          ("team_name", .text r.user.teamName),
          ("is_active", .integer (if r.user.isActive then 1 else 0)),
          ("updated_at", .integer r.updatedAt.toInt)])),
      ("pull_requests", .list (db.pullRequests.rows.map fun p =>
        .record [("id", .text p.id), ("name", .text p.name), ("author_id", .text p.authorId),
          ("status", p.status.toJson), ("created_at", .integer p.createdAt.toInt),
          ("merged_at", (p.mergedAt.map fun t => Value.integer t.toInt).getD .null)])),
      ("pull_request_reviewers", .list ((db.reviewers.rows.mergeSort fun a b =>
          (compareLex (compareOn fun r : ReviewerRow => r.slot.pullRequest)
            (compareOn ReviewerRow.position) a b).isLE).map fun r =>
        .record [("pr_id", .text r.slot.pullRequest), ("reviewer_id", .text r.slot.reviewer),
          ("position", .integer r.position)]))]

end ReviewRota
