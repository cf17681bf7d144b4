import ReviewRota.Database.Change

/-!
# Rejecting row changes by table, kind of change and key
-/

namespace ReviewRota

inductive TableName where
  | teams
  | users
  | pullRequests
  | reviewers
  deriving DecidableEq, Repr

inductive ChangeKind where
  | insert
  | update
  | delete
  deriving DecidableEq, Repr

namespace RowChange

def table : RowChange → TableName
  | .insertTeam _ => .teams
  | .insertUser _ | .updateUser _ => .users
  | .insertPullRequest _ | .updatePullRequest _ => .pullRequests
  | .insertReviewer _ | .updateReviewer _ | .deleteReviewer _ => .reviewers

def kind : RowChange → ChangeKind
  | .insertTeam _ | .insertUser _ | .insertPullRequest _ | .insertReviewer _ => .insert
  | .updateUser _ | .updatePullRequest _ | .updateReviewer _ => .update
  | .deleteReviewer _ => .delete

def rowId : RowChange → String
  | .insertTeam name => name
  | .insertUser id | .updateUser id => id
  | .insertPullRequest id | .updatePullRequest id => id
  | .insertReviewer slot | .updateReviewer slot | .deleteReviewer slot => slot.pullRequest

end RowChange

structure RowFault where
  table : TableName
  kind : ChangeKind
  rowId : Option String
  deriving DecidableEq, Repr

def RowFault.hits (f : RowFault) (c : RowChange) : Bool :=
  c.table = f.table && c.kind = f.kind && f.rowId.all (· = c.rowId)

def rejectsOf (faults : List RowFault) : Rejects :=
  fun c => faults.any (·.hits c)

end ReviewRota
