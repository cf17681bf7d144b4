import ReviewRota.Database.Query
import ReviewRota.Event

/-!
# Changing the database

Each change is a function from a database to an error or the database afterwards, so that a change
which fails leaves nothing behind.  A change made of several rows asks `rejects` before each row
that it touches; then it checks that keys are unique and that references point at stored rows.
-/

namespace ReviewRota

inductive RowChange where
  | insertTeam (name : String)
  | insertUser (id : String)
  | updateUser (id : String)
  | insertPullRequest (id : String)
  | updatePullRequest (id : String)
  | insertReviewer (slot : Slot)
  | updateReviewer (slot : Slot)
  | deleteReviewer (slot : Slot)
  deriving DecidableEq, Repr

/-- The row changes that are made to fail. -/
abbrev Rejects := RowChange → Bool

namespace Database

variable (rejects : Rejects)

def permit (change : RowChange) (during : Operation) : Except Error Unit :=
  if rejects change then .error (.storage .rejected during) else .ok ()

def insertTeam (name : String) (now : Int64) (db : Database) : Except Error Database := do
  permit rejects (.insertTeam name) .insertTeam
  if db.teams.contains name then throw (.teamExists name)
  return { db with teams := db.teams.insert ⟨name, now⟩ }

def upsertUser (now : Int64) (db : Database) (user : User) : Except Error Database := do
  permit rejects (.insertUser user.id) (.upsertUser user.id)
  if db.users.contains user.id then
    permit rejects (.updateUser user.id) (.upsertUser user.id)
  if !db.teams.contains user.teamName then
    throw (.storage .foreignKey (some (.upsertUser user.id)))
  return { db with users := db.users.insert ⟨user, now⟩ }

/-- Stores a new team and its members; a member that is stored already moves to the team. -/
def createTeam (name : String) (members : List User) (now : Int64) (db : Database) :
    Except Error Database := do
  let db ← insertTeam rejects name now db
  (members.map fun m => { m with teamName := name }).foldlM (upsertUser rejects now) db

def updateUser (id : String) (f : User → User) (now : Int64) (h : ∀ u, (f u).id = u.id)
    (db : Database) : Database :=
  { db with
    users := db.users.map (fun r => if r.user.id = id then ⟨f r.user, now⟩ else r) (by
      intro r
      simp only [UserRow.id]
      split <;> simp [h]) }

def setActive (id : String) (isActive : Bool) (now : Int64) (db : Database) :
    Except Error (Option User × Database) := do
  match db.user? id with
  | none => return (none, db)
  | some user =>
      permit rejects (.updateUser id) .setActive
      let db := db.updateUser id (fun u => { u with isActive }) now fun _ => rfl
      return (some { user with isActive }, db)

/-- Adds a reviewer row.  Uniqueness is checked before the references. -/
def insertReviewer (row : ReviewerRow) (db : Database) : Except Error Database := do
  let during : Operation := .insertReviewer row.slot.reviewer row.slot.pullRequest
  permit rejects (.insertReviewer row.slot) during
  if db.reviewers.contains row.slot then throw (.storage .reviewerTwice (some during))
  if !(db.pullRequests.contains row.slot.pullRequest && db.users.contains row.slot.reviewer) then
    throw (.storage .foreignKey (some during))
  return { db with reviewers := db.reviewers.insert row }

def insertReviewers (id : String) (reviewers : List String) (db : Database) :
    Except Error Database :=
  reviewers.zipIdx.foldlM (fun db (reviewer, position) =>
    insertReviewer rejects ⟨⟨id, reviewer⟩, position⟩ db) db

def insertPullRequest (p : PullRequest) (db : Database) : Except Error Database := do
  permit rejects (.insertPullRequest p.id) .insertPullRequest
  if db.pullRequests.contains p.id then throw (.pullRequestExists p.id)
  if !db.users.contains p.authorId then
    throw (.storage .foreignKey (some .insertPullRequest))
  return { db with
    pullRequests := db.pullRequests.insert
      ⟨p.id, p.name, p.authorId, p.status, p.createdAt, p.mergedAt⟩ }

def createPullRequest (p : PullRequest) (db : Database) : Except Error Database := do
  let db ← insertPullRequest rejects p db
  insertReviewers rejects p.id p.reviewers db

/-- Marks a pull request as merged.  A time of merging that is there already stays. -/
def setMerged (id : String) (now : Int64) (db : Database) :
    Except Error (Option PullRequest × Database) := do
  if !db.pullRequests.contains id then return (none, db)
  permit rejects (.updatePullRequest id) .setMerged
  let db := { db with
    pullRequests := db.pullRequests.map (fun p =>
      if p.id = id then { p with status := .merged, mergedAt := p.mergedAt.or (some now) }
      else p) (by intro p; split <;> rfl) }
  return (db.pullRequest? id, db)

def canReplace (db : Database) (id old new : String) : Bool :=
  db.reviewers.contains ⟨id, old⟩ &&
    (db.pullRequests.get? id).any (·.status = .opened) &&
    (db.users.get? new).any (·.user.isActive) &&
    !db.reviewers.contains ⟨id, new⟩

/-- Gives the row of a slot to another reviewer, at the same position. -/
def swapReviewer (slot : Slot) (new : String) (db : Database) : Database :=
  match db.reviewers.get? slot with
  | none => db
  | some row =>
      { db with
        reviewers := (db.reviewers.erase slot).insert ⟨⟨slot.pullRequest, new⟩, row.position⟩ }

/-- Gives a reviewer's place to another user, if that is possible at this moment; else says what
stands against it. -/
def replaceReviewer (id old new : String) (db : Database) :
    Except Error (Option PullRequest × Database) := do
  if db.canReplace id old new then
    permit rejects (.updateReviewer ⟨id, old⟩) .replaceReviewer
    let db := db.swapReviewer ⟨id, old⟩ new
    return (db.pullRequest? id, db)
  else
    match db.pullRequest? id with
    | none => return (none, db)
    | some p =>
        p.requireOpen
        if !p.hasReviewer old then throw (.notAssigned id old)
        throw (.noCandidate id)

def writeReviewers (id : String) (reviewers : List String) (db : Database) :
    Except Error Database := do
  (db.reviewers.rows.filter fun r => r.slot.pullRequest = id).forM fun r =>
    permit rejects (.deleteReviewer r.slot) .deleteReviewers
  insertReviewers rejects id reviewers
    { db with reviewers := db.reviewers.filter fun r => r.slot.pullRequest ≠ id }

end Database

end ReviewRota
