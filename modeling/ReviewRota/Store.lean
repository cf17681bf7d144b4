import ReviewRota.Database.Deactivation

/-!
# The store

A store is a database with the circumstances under which it is reached: which row changes are
rejected, and whether it is open.  A `StoreCall` is one access, which happens at once; whatever
fails leaves the database as it was.
-/

namespace ReviewRota

structure Store where
  database : Database
  rejects : Rejects
  isOpen : Bool

instance : EmptyCollection Store := ⟨⟨∅, fun _ => false, true⟩⟩

instance : Inhabited Store := ⟨∅⟩

inductive StoreCall where
  | hasTeam (name : String)
  | createTeam (name : String) (members : List User) (now : Int64)
  | user (id : String)
  | roster (teamName : String)
  | setActive (id : String) (isActive : Bool) (now : Int64)
  | hasPullRequest (id : String)
  | createPullRequest (pullRequest : PullRequest)
  | pullRequest (id : String)
  | setMerged (id : String) (now : Int64)
  | replaceReviewer (id old new : String)
  | reviewsOf (userId : String)
  | deactivateTeam (name : String) (now : Int64)
  | countByReviewer
  | countByPullRequest
  | usersAmong (ids : List String)
  | reviewersAmong (ids : List String)
  | writeReviewers (id : String) (reviewers : List String)
  deriving DecidableEq, Repr

namespace StoreCall

@[reducible] def Answer : StoreCall → Type
  | .hasTeam _ => Bool
  | .createTeam .. => Unit
  | .user _ => Option User
  | .roster _ => List User
  | .setActive .. => Option User
  | .hasPullRequest _ => Bool
  | .createPullRequest _ => Unit
  | .pullRequest _ => Option PullRequest
  | .setMerged .. => Option PullRequest
  | .replaceReviewer .. => Option PullRequest
  | .reviewsOf _ => List PullRequestSummary
  | .deactivateTeam .. => TeamDeactivation
  | .countByReviewer => Counts
  | .countByPullRequest => Counts
  | .usersAmong _ => List User
  | .reviewersAmong _ => List (String × List String)
  | .writeReviewers .. => Unit

def opening : StoreCall → Option Operation
  | .hasTeam _ => some .findTeam
  | .createTeam .. => some .beginTeam
  | .user _ => some .findUser
  | .roster _ => some .listUsers
  | .setActive .. => some .setActive
  | .hasPullRequest _ => some .findPullRequest
  | .createPullRequest _ => some .beginPullRequest
  | .setMerged .. => some .beginMerge
  | .replaceReviewer .. => some .beginReplacement
  | .reviewsOf _ => some .listReviews
  | .deactivateTeam .. => some .beginDeactivation
  | .countByReviewer => some .countByReviewer
  | .countByPullRequest => some .countByPullRequest
  | .pullRequest _ | .usersAmong _ | .reviewersAmong _ | .writeReviewers .. => none

def effect (rejects : Rejects) (db : Database) :
    (c : StoreCall) → Except Error (c.Answer × Database) × List Event
  | .hasTeam name => (.ok (db.hasTeam name, db), [])
  | .createTeam name members now =>
      ((db.createTeam rejects name members now).map ((), ·), [])
  | .user id => (.ok (db.user? id, db), [])
  | .roster teamName => (.ok (db.roster teamName, db), [])
  | .setActive id isActive now => (db.setActive rejects id isActive now, [])
  | .hasPullRequest id => (.ok (db.hasPullRequest id, db), [])
  | .createPullRequest p => ((db.createPullRequest rejects p).map ((), ·), [])
  | .pullRequest id => (.ok (db.pullRequest? id, db), [])
  | .setMerged id now => (db.setMerged rejects id now, [])
  | .replaceReviewer id old new => (db.replaceReviewer rejects id old new, [])
  | .reviewsOf userId => (.ok (db.reviewsOf userId, db), [])
  | .deactivateTeam name now => db.deactivateTeam rejects name now
  | .countByReviewer => (.ok (db.countByReviewer, db), [])
  | .countByPullRequest => (.ok (db.countByPullRequest, db), [])
  | .usersAmong ids => ((db.loadUsers ids).map (·, db), [])
  | .reviewersAmong ids => ((db.loadReviewers ids).map (·, db), [])
  | .writeReviewers id reviewers =>
      ((db.writeReviewers rejects id reviewers).map ((), ·), [])

end StoreCall

structure Reply (α : Type) where
  result : Except Error α
  store : Store
  events : List Event

def Store.perform (s : Store) (c : StoreCall) : Reply c.Answer :=
  if s.isOpen then
    match c.effect s.rejects s.database with
    | (.ok (answer, db), events) => ⟨.ok answer, { s with database := db }, events⟩
    | (.error e, events) => ⟨.error e, s, events⟩
  else ⟨.error (.storage .poolClosed c.opening), s, []⟩

end ReviewRota
