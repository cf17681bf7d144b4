import ReviewRota.Database.Change

/-!
# Taking a team off duty

All active members of a team become inactive, and the open pull requests that they were reviewing
are repaired.  A failure leaves the database as it was, but not the events up to there.
-/

namespace ReviewRota.Database

variable (rejects : Rejects)

def activeMembers (db : Database) (team : String) : List String :=
  (db.users.rows.filter fun r => r.user.teamName = team && r.user.isActive).map UserRow.id

def deactivateMembers (team : String) (now : Int64) (db : Database) : Except Error Database := do
  (db.activeMembers team).forM fun id =>
    permit rejects (.updateUser id) (.deactivateUsers team)
  return { db with
    users := db.users.map (fun r =>
      if r.user.teamName = team && r.user.isActive then
        ⟨{ r.user with isActive := false }, now⟩
      else r) (by intro r; simp only [UserRow.id]; split <;> rfl) }

def writeUpdates (team : String) :
    List Repair.Update → Database → Except Error Database × List Event
  | [], db => (.ok db, [])
  | u :: rest, db =>
      match writeReviewers rejects u.pullRequest u.reviewers db with
      | .error e => (.error e, [])
      | .ok db =>
          let short :=
            if u.reviewers.length < reviewerCap then
              [.fewReviewersLeft u.pullRequest u.reviewers.length team]
            else []
          let (result, events) := writeUpdates team rest db
          (result, short ++ events)

def repairPlan (deactivated : List String) (db : Database) :
    Except Error (List Repair.Update) := do
  let affected ← db.affectedBy deactivated
  let pools ← db.loadActive (affected.filterMap Repair.Affected.authorTeam).eraseDups
  return Repair.plan affected deactivated pools

def repair (team : String) (deactivated : List String) (db : Database) :
    Except Error (TeamDeactivation × Database) × List Event :=
  if deactivated.isEmpty then (.ok (⟨team, 0, 0⟩, db), [.nobodyActive team])
  else
    match db.repairPlan deactivated with
    | .error e => (.error e, [])
    | .ok plan =>
        if plan.isEmpty then
          (.ok (⟨team, deactivated.length, 0⟩, db), [.nothingAffected team deactivated.length])
        else
          match writeUpdates rejects team plan db with
          | (.error e, events) => (.error e, events)
          | (.ok db, events) =>
              (.ok (⟨team, deactivated.length, plan.length⟩, db),
                events ++ [.teamDeactivated team deactivated.length plan.length])

def deactivateTeam (team : String) (now : Int64) (db : Database) :
    Except Error (TeamDeactivation × Database) × List Event :=
  match deactivateMembers rejects team now db with
  | .error e => (.error e, [])
  | .ok after =>
      if db.hasTeam team then repair rejects team (db.activeMembers team) after
      else (.error (.unknownTeam team), [])

end ReviewRota.Database
