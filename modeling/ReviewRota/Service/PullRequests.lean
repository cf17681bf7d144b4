import ReviewRota.Candidates
import ReviewRota.Service.Basic

/-!
# Assigning reviewers to pull requests
-/

namespace ReviewRota.Service

def createPullRequest (id name authorId : String) : Service PullRequest := do
  ofExcept (require "pull_request_id" id)
  ofExcept (require "pull_request_name" name)
  ofExcept (require "author_id" authorId)
  if ← ask (.hasPullRequest id) then fail (.pullRequestExists id)
  else
    let author ← orFail (.unknownUser authorId) (← ask (.user authorId))
    let roster ← ask (.roster author.teamName)
    let reviewers ← choice (candidates author.id [] roster) reviewerCap
    let p : PullRequest :=
      { id, name, authorId := author.id, status := .opened, reviewers
        createdAt := ← now, mergedAt := none }
    ask (.createPullRequest p)
    log (.pullRequestCreated p.id p.reviewers)
    return p

def merge (id : String) : Service PullRequest := do
  ofExcept (require "pull_request_id" id)
  let p ← orFail (.unknownPullRequest id) (← ask (.pullRequest id))
  if p.isMerged then
    log (.alreadyMerged id)
    return p
  else
    let merged ← orFail (.unknownPullRequest id) (← ask (.setMerged id (← now)))
    log (.pullRequestMerged id)
    return merged

/-- Gives a reviewer's place to an active teammate of theirs who is neither the author nor a
reviewer already. -/
def reassign (id old : String) : Service Reassignment := do
  ofExcept (require "pull_request_id" id)
  ofExcept (require "old_reviewer_id" old)
  let p ← orFail (.unknownPullRequest id) (← ask (.pullRequest id))
  ofExcept p.requireOpen
  if !p.hasReviewer old then fail (.notAssigned id old)
  else
    let oldReviewer ← orFail (.unknownUser old) (← ask (.user old))
    let roster ← ask (.roster oldReviewer.teamName)
    let chosen ← choice (candidates p.authorId (old :: p.reviewers) roster) 1
    let new ← orFail (.noCandidate id) chosen.head?
    let updated ← orFail (.unknownPullRequest id) (← ask (.replaceReviewer id old new))
    log (.reviewerReplaced id old new)
    return ⟨updated, new⟩

def deactivateTeam (name : String) : Service TeamDeactivation := do
  ofExcept (require "team_name" name)
  ask (.deactivateTeam name (← now))

end ReviewRota.Service
