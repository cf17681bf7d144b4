import ReviewRota.PullRequest

/-!
# Repairing reviewer lists after a deactivation

The survivors keep their order; then candidates of the author's team follow until the list has as
many reviewers as a pull request gets.  Survivors beyond that number stay.
-/

namespace ReviewRota.Repair

structure Affected where
  pullRequest : String
  authorId : String
  reviewers : List String
  authorTeam : Option String
  deriving DecidableEq, Repr

structure Update where
  pullRequest : String
  reviewers : List String
  deriving DecidableEq, Repr

abbrev Pools := List (String × List String)

def survivors (deactivated kept : List String) : List String → List String
  | [] => kept
  | id :: rest =>
      if deactivated.contains id || kept.contains id then survivors deactivated kept rest
      else survivors deactivated (kept ++ [id]) rest

def fill (authorId : String) (reviewers : List String) : List String → List String
  | [] => reviewers
  | id :: pool =>
      if reviewerCap ≤ reviewers.length then reviewers
      else if id = authorId || reviewers.contains id then fill authorId reviewers pool
      else fill authorId (reviewers ++ [id]) pool

def pool (pools : Pools) (team : Option String) : List String :=
  (team.bind fun t => List.lookup t pools).getD []

def update (deactivated : List String) (pools : Pools) (a : Affected) : Update :=
  ⟨a.pullRequest,
    fill a.authorId (survivors deactivated [] a.reviewers) (pool pools a.authorTeam)⟩

/-- One update for each affected pull request, also where nothing changes. -/
def plan (affected : List Affected) (deactivated : List String) (pools : Pools) : List Update :=
  affected.map (update deactivated pools)

end ReviewRota.Repair
