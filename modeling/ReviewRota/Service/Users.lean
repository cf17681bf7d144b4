import ReviewRota.Service.Basic

/-!
# Activity of users and what they review
-/

namespace ReviewRota.Service

def setActive (id : String) (isActive : Bool) : Service User := do
  ofExcept (require "user_id" id)
  let user ← orFail (.unknownUser id) (← ask (.setActive id isActive (← now)))
  log (.activitySet id isActive)
  return user

def reviewsOf (id : String) : Service (List PullRequestSummary) := do
  ofExcept (require "user_id" id)
  ask (.reviewsOf id)

def assignmentStats : Service AssignmentStats := do
  let byUser ← ask .countByReviewer
  let byPullRequest ← ask .countByPullRequest
  return ⟨byUser, byPullRequest⟩

end ReviewRota.Service
