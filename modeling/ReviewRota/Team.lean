import ReviewRota.User

/-!
# Teams
-/

namespace ReviewRota

structure Team where
  name : String
  members : List Member
  deriving DecidableEq, Repr, Inhabited

def Team.ofUsers (name : String) (users : List User) : Team :=
  ⟨name, users.map User.asMember⟩

/-- What taking a whole team off duty changed.  `updatedPullRequests` counts the open pull requests
that had a reviewer of the team, whether or not their reviewers differ afterwards. -/
structure TeamDeactivation where
  teamName : String
  deactivatedUsers : Nat
  updatedPullRequests : Nat
  deriving DecidableEq, Repr, Inhabited

end ReviewRota
