/-!
# Users
-/

namespace ReviewRota

/-- Somebody who can author pull requests and review them; an inactive user is never picked. -/
structure User where
  id : String
  username : String
  teamName : String
  isActive : Bool
  deriving DecidableEq, Repr, Inhabited

structure Member where
  userId : String
  username : String
  isActive : Bool
  deriving DecidableEq, Repr, Inhabited

def Member.joining (m : Member) (teamName : String) : User :=
  ⟨m.userId, m.username, teamName, m.isActive⟩

def User.asMember (u : User) : Member :=
  ⟨u.id, u.username, u.isActive⟩

end ReviewRota
