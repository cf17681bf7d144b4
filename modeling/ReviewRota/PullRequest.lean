import ReviewRota.Error

/-!
# Pull requests

A pull request is open until it is merged, and a merged one keeps its reviewers.
-/

namespace ReviewRota

def reviewerCap : Nat := 2

inductive Status where
  | opened
  | merged
  deriving DecidableEq, Repr, Inhabited

namespace Status

def text : Status → String
  | .opened => "OPEN"
  | .merged => "MERGED"

def ofText : String → Except Error Status
  | "OPEN" => .ok .opened
  | "MERGED" => .ok .merged
  | other => .error (.unknownStatus other)

theorem ofText_text (s : Status) : ofText s.text = .ok s := by cases s <;> rfl

/-- Merging twice is allowed and changes nothing; nothing reopens. -/
def canBecome : Status → Status → Bool
  | .opened, .merged => true
  | .merged, .merged => true
  | _, .opened => false

end Status

/-- `reviewers` are user ids in the order of assignment; times are Unix seconds. -/
structure PullRequest where
  id : String
  name : String
  authorId : String
  status : Status
  reviewers : List String
  createdAt : Int64
  mergedAt : Option Int64
  deriving DecidableEq, Repr, Inhabited

structure PullRequestSummary where
  id : String
  name : String
  authorId : String
  status : Status
  deriving DecidableEq, Repr, Inhabited

structure Reassignment where
  pullRequest : PullRequest
  replacedBy : String
  deriving DecidableEq, Repr, Inhabited

namespace PullRequest

def isMerged (p : PullRequest) : Bool :=
  p.status = .merged

def requireOpen (p : PullRequest) : Except Error Unit :=
  if p.isMerged then .error (.pullRequestMerged p.id) else .ok ()

def hasReviewer (p : PullRequest) (userId : String) : Bool :=
  p.reviewers.contains userId

structure Columns where
  id : String
  name : String
  authorId : String
  status : String
  createdAt : Int64
  mergedAt : Option Int64
  deriving DecidableEq, Repr, Inhabited

def ofColumns (row : Columns) (reviewers : List String) : Except Error PullRequest := do
  let status ← Status.ofText row.status
  return ⟨row.id, row.name, row.authorId, status, reviewers, row.createdAt, row.mergedAt⟩

end PullRequest

def PullRequestSummary.ofColumns (row : PullRequest.Columns) :
    Except Error PullRequestSummary := do
  let status ← Status.ofText row.status
  return ⟨row.id, row.name, row.authorId, status⟩

end ReviewRota
