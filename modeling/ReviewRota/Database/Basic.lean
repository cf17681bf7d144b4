import ReviewRota.PullRequest
import ReviewRota.Table
import ReviewRota.Team

/-!
# The database

Four tables.  The reviewers of a pull request are rows of their own, ordered by a position.
-/

namespace ReviewRota

structure TeamRow where
  name : String
  createdAt : Int64
  deriving DecidableEq, Repr

structure UserRow where
  user : User
  updatedAt : Int64
  deriving DecidableEq, Repr

def UserRow.id (r : UserRow) : String := r.user.id

structure PullRequestRow where
  id : String
  name : String
  authorId : String
  status : Status
  createdAt : Int64
  mergedAt : Option Int64
  deriving DecidableEq, Repr

def PullRequestRow.withReviewers (p : PullRequestRow) (reviewers : List String) : PullRequest :=
  ⟨p.id, p.name, p.authorId, p.status, reviewers, p.createdAt, p.mergedAt⟩

structure Slot where
  pullRequest : String
  reviewer : String
  deriving DecidableEq, Repr

structure ReviewerRow where
  slot : Slot
  position : Int
  deriving DecidableEq, Repr

namespace Slot

def order : Slot → Slot → Ordering :=
  compareLex (compareOn pullRequest) (compareOn reviewer)

instance : Ord Slot := ⟨order⟩

instance : Std.TransOrd Slot := inferInstanceAs (Std.TransCmp (compareLex _ _))

instance : Std.LawfulEqOrd Slot where
  eq_of_compare {a b} h := by
    have h : order a b = .eq := h
    simp only [order, compareLex_eq_eq, compareOn, Std.LawfulEqCmp.compare_eq_iff_eq] at h
    cases a; cases b; simp_all

end Slot

structure Database where
  teams : Table TeamRow.name
  users : Table UserRow.id
  pullRequests : Table PullRequestRow.id
  reviewers : Table ReviewerRow.slot
  deriving DecidableEq

namespace Database

instance : EmptyCollection Database := ⟨⟨∅, ∅, ∅, ∅⟩⟩

instance : Inhabited Database := ⟨∅⟩

/-- Every reference points at a stored row. -/
structure Consistent (db : Database) : Prop where
  team_of_user : ∀ u ∈ db.users.rows, db.teams.contains u.user.teamName
  author_of_pullRequest : ∀ p ∈ db.pullRequests.rows, db.users.contains p.authorId
  pullRequest_of_reviewer : ∀ r ∈ db.reviewers.rows, db.pullRequests.contains r.slot.pullRequest
  user_of_reviewer : ∀ r ∈ db.reviewers.rows, db.users.contains r.slot.reviewer

theorem Consistent.empty : Consistent ∅ := by
  constructor <;> intro _ h <;> cases h

end Database

end ReviewRota
