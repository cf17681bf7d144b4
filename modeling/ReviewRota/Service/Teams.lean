import ReviewRota.Service.Basic

/-!
# Creating and looking up teams
-/

namespace ReviewRota.Service

/-- Every id must be filled in, and none may stand twice; the first offence counts. -/
def checkMembers (seen : List String) : List Member → Except Error Unit
  | [] => .ok ()
  | m :: rest => do
      require "user_id" m.userId
      if seen.contains m.userId then throw (.duplicateMember m.userId)
      checkMembers (m.userId :: seen) rest

def createTeam (name : String) (members : List Member) : Service Team := do
  ofExcept (require "team_name" name)
  ofExcept (checkMembers [] members)
  if ← ask (.hasTeam name) then fail (.teamExists name)
  else
    let users := members.map (·.joining name)
    ask (.createTeam name users (← now))
    log (.teamCreated name users.length)
    return Team.ofUsers name users

def team? (name : String) : Service (Option Team) := do
  if ← ask (.hasTeam name) then
    return some (Team.ofUsers name (← ask (.roster name)))
  else return none

def team (name : String) : Service Team := do
  ofExcept (require "team_name" name)
  orFail (.unknownTeam name) (← team? name)

end ReviewRota.Service
