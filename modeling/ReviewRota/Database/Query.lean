import ReviewRota.Database.Basic
import ReviewRota.Error
import ReviewRota.Repair
import ReviewRota.Stats

/-!
# Reading the database
-/

namespace ReviewRota

/-- Gathers values under their keys; keys stand in the order of their first value. -/
def gather {β : Type} (entries : List (String × β)) : List (String × List β) :=
  entries.foldl add []
where
  add (groups : List (String × List β)) (entry : String × β) : List (String × List β) :=
    match groups with
    | [] => [(entry.1, [entry.2])]
    | (k, vs) :: rest =>
        if k = entry.1 then (k, vs ++ [entry.2]) :: rest else (k, vs) :: add rest entry

namespace Database

def hasTeam (db : Database) (name : String) : Bool :=
  db.teams.contains name

def user? (db : Database) (id : String) : Option User :=
  (db.users.get? id).map UserRow.user

def roster (db : Database) (teamName : String) : List User :=
  (db.users.rows.filter fun r => r.user.teamName = teamName).map UserRow.user

def hasPullRequest (db : Database) (id : String) : Bool :=
  db.pullRequests.contains id

def byPosition (rows : List ReviewerRow) : List ReviewerRow :=
  rows.mergeSort fun a b => a.position ≤ b.position

def reviewersOf (db : Database) (id : String) : List String :=
  (byPosition (db.reviewers.rows.filter fun r => r.slot.pullRequest = id)).map fun r =>
    r.slot.reviewer

def pullRequest? (db : Database) (id : String) : Option PullRequest :=
  (db.pullRequests.get? id).map fun p => p.withReviewers (db.reviewersOf id)

/-- The pull requests that a user reviews or has reviewed, newest first, then by id. -/
def reviewsOf (db : Database) (userId : String) : List PullRequestSummary :=
  let reviewed := db.pullRequests.rows.filter fun p => db.reviewers.contains ⟨p.id, userId⟩
  (reviewed.mergeSort fun a b => b.createdAt ≤ a.createdAt).map fun p =>
    ⟨p.id, p.name, p.authorId, p.status⟩

def countByReviewer (db : Database) : Counts :=
  tally (db.reviewers.rows.map fun r => r.slot.reviewer)

def countByPullRequest (db : Database) : Counts :=
  tally (db.reviewers.rows.map fun r => r.slot.pullRequest)

def usersAmong (db : Database) (ids : List String) : List User :=
  (db.users.rows.filter fun r => ids.contains r.user.id).map UserRow.user

/-- The reviewers of many pull requests; one without reviewers has no entry. -/
def reviewersAmong (db : Database) (ids : List String) : List (String × List String) :=
  gather <|
    ((db.reviewers.rows.filter fun r => ids.contains r.slot.pullRequest).mergeSort fun a b =>
      (compareLex (compareOn fun r : ReviewerRow => r.slot.pullRequest)
        (compareOn ReviewerRow.position) a b).isLE).map
      fun r => (r.slot.pullRequest, r.slot.reviewer)

def activeAmong (db : Database) (teamNames : List String) : Repair.Pools :=
  gather <|
    ((db.users.rows.filter fun r => r.user.isActive && teamNames.contains r.user.teamName).mergeSort
      fun a b => (compare a.user.teamName b.user.teamName).isLE).map
      fun r => (r.user.teamName, r.user.id)

/-! ## Queries that bind their keys

Each key of a list is a parameter of the statement, and a statement has only so many. -/

def parameterLimit : Nat := 32766

def bindKeys (keys : List String) (during : Operation) : Except Error Unit :=
  if keys.length ≤ parameterLimit then .ok ()
  else .error (.storage .tooManyParameters during)

def loadUsers (ids : List String) (db : Database) : Except Error (List User) := do
  bindKeys ids .loadUsers
  return db.usersAmong ids

def loadReviewers (ids : List String) (db : Database) :
    Except Error (List (String × List String)) := do
  bindKeys ids .loadReviewers
  return db.reviewersAmong ids

def loadActive (teamNames : List String) (db : Database) : Except Error Repair.Pools := do
  bindKeys teamNames .loadActive
  return db.activeAmong teamNames

def loadReviewedBy (userIds : List String) (db : Database) :
    Except Error (List PullRequestRow) := do
  bindKeys userIds .loadReviewedBy
  return db.pullRequests.rows.filter fun p =>
    p.status = .opened &&
      db.reviewers.rows.any fun r =>
        r.slot.pullRequest = p.id && userIds.contains r.slot.reviewer

def affected (rows : List PullRequestRow) (reviewers : List (String × List String))
    (authors : List User) : List Repair.Affected :=
  rows.map fun p =>
    { pullRequest := p.id
      authorId := p.authorId
      reviewers := (reviewers.lookup p.id).getD []
      authorTeam := (authors.find? (·.id = p.authorId)).map User.teamName }

def affectedBy (userIds : List String) (db : Database) : Except Error (List Repair.Affected) := do
  let rows ← db.loadReviewedBy userIds
  let reviewers ← db.loadReviewers (rows.map PullRequestRow.id)
  -- Nobody is asked for twice, and so there are not more authors than pull requests.
  let authors ← db.loadUsers (rows.map PullRequestRow.authorId).eraseDups
  return affected rows reviewers authors

end Database

end ReviewRota
