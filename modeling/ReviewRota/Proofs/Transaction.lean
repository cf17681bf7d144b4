import ReviewRota.Proofs.Outline
import ReviewRota.Proofs.Deactivation

/-!
# Store calls statement by statement

A store call happens at once.  Here it is the transaction that it stands for: statements work one
after the other on a copy of the database, which takes the place of the stored one when it is
committed.  Every access of the engine may fail from outside; without that, a transaction has the
effect of its call.
-/

namespace ReviewRota

inductive Transaction (α : Type) : Type 1 where
  | commit (answer : α)
  | rollback (result : Except Error α)
  | statement {β : Type} (execute : Database → Except Error (β × Database))
      (next : β → Transaction α)

/-- The accesses that fail from outside, by number. -/
abbrev Outages := Nat → Option Error

structure Attempt (α : Type) where
  result : Except Error α
  database : Database
  accesses : Nat

namespace Transaction

variable {α β : Type}

def look (query : Database → β) (next : β → Transaction α) : Transaction α :=
  .statement (fun db => .ok (query db, db)) next

def ask (query : Database → Except Error β) (next : β → Transaction α) : Transaction α :=
  .statement (fun db => (query db).map (·, db)) next

def change (execute : Database → Except Error Database) (next : Transaction α) : Transaction α :=
  .statement (fun db => (execute db).map ((), ·)) fun _ => next

def changes (executes : List (Database → Except Error Database)) (next : Transaction α) :
    Transaction α :=
  executes.foldr change next

def effect (stored : Database) : Transaction α → Database → Except Error (α × Database)
  | .commit answer, copy => .ok (answer, copy)
  | .rollback result, _ => result.map (·, stored)
  | .statement execute next, copy =>
      match execute copy with
      | .error e => .error e
      | .ok (b, copy) => (next b).effect stored copy

/-- Runs a transaction on a copy from the `n`-th access on.  Whatever fails drops the copy. -/
def run (outages : Outages) (stored : Database) : Transaction α → Nat → Database → Attempt α
  | .commit answer, n, copy =>
      match outages n with
      | some e => ⟨.error e, stored, n + 1⟩
      | none => ⟨.ok answer, copy, n + 1⟩
  | .rollback result, n, _ => ⟨result, stored, n⟩
  | .statement execute next, n, copy =>
      match outages n with
      | some e => ⟨.error e, stored, n + 1⟩
      | none =>
          match execute copy with
          | .error e => ⟨.error e, stored, n + 1⟩
          | .ok (b, copy) => (next b).run outages stored (n + 1) copy

section Run

variable {outages : Outages} {stored copy : Database} {n : Nat} {tx : Transaction α}

theorem le_accesses : n ≤ (tx.run outages stored n copy).accesses := by
  induction tx generalizing n copy with
  | commit answer => unfold run; split <;> simp
  | rollback result => exact Nat.le_refl n
  | statement execute next ih =>
      unfold run
      split
      · simp
      · split
        · simp
        · exact Nat.le_of_succ_le (ih _)

theorem run_error {e : Error} (h : (tx.run outages stored n copy).result = .error e) :
    (tx.run outages stored n copy).database = stored := by
  induction tx generalizing n copy with
  | commit answer =>
      unfold run at h ⊢
      split at h
      · rfl
      · cases h
  | rollback result => rfl
  | statement execute next ih =>
      unfold run at h ⊢
      split at h
      · rfl
      · split at h
        · rfl
        · exact ih _ h

theorem run_ok {answer : α} (h : (tx.run outages stored n copy).result = .ok answer) :
    ∀ k, n ≤ k → k < (tx.run outages stored n copy).accesses → outages k = none := by
  intro k hle hlt
  induction tx generalizing n copy with
  | commit _ =>
      unfold run at h hlt
      split at h
      · cases h
      · next hnone =>
          obtain rfl : k = n := by
            simp only [hnone] at hlt
            omega
          exact hnone
  | rollback result => exact absurd hlt (Nat.not_lt.2 hle)
  | statement execute next ih =>
      unfold run at h hlt
      split at h
      · cases h
      · next hnone =>
          simp only [hnone] at hlt
          split at h
          · cases h
          · next hexecute =>
              simp only [hexecute] at hlt
              rcases Nat.eq_or_lt_of_le hle with rfl | hlater
              · exact hnone
              · exact ih _ h hlater hlt

theorem run_of_calm
    (hcalm : ∀ k, n ≤ k → k < (tx.run outages stored n copy).accesses → outages k = none) :
    (tx.run outages stored n copy).result = (tx.effect stored copy).map Prod.fst ∧
      ∀ answer db, tx.effect stored copy = .ok (answer, db) →
        (tx.run outages stored n copy).database = db := by
  have hfirst : n < (tx.run outages stored n copy).accesses → outages n = none :=
    hcalm n (Nat.le_refl n)
  induction tx generalizing n copy with
  | commit answer =>
      unfold run at hfirst ⊢
      cases hn : outages n with
      | some e => simp [hn] at hfirst
      | none =>
          refine ⟨rfl, fun answer' db h => ?_⟩
          cases h
          rfl
  | rollback result =>
      unfold run effect
      cases result with
      | error e => exact ⟨rfl, fun _ _ h => by cases h⟩
      | ok answer =>
          refine ⟨rfl, fun answer' db h => ?_⟩
          cases h
          rfl
  | statement execute next ih =>
      unfold run at hcalm hfirst ⊢
      unfold effect
      cases hn : outages n with
      | some e => simp [hn] at hfirst
      | none =>
          simp only [hn] at hcalm ⊢
          cases hexecute : execute copy with
          | error e => exact ⟨rfl, fun _ _ h => by cases h⟩
          | ok b =>
              simp only [hexecute] at hcalm ⊢
              refine ih b.1 (fun k hle => hcalm k (Nat.le_of_succ_le hle)) ?_
              exact hcalm (n + 1) (Nat.le_succ n)

end Run

section Effect

variable {stored copy : Database} {next : Transaction α}

@[simp] theorem effect_look {query : Database → β} {next : β → Transaction α} :
    (look query next).effect stored copy = (next (query copy)).effect stored copy := rfl

theorem effect_ask {query : Database → Except Error β} {next : β → Transaction α} :
    (ask query next).effect stored copy =
      query copy >>= fun b => (next b).effect stored copy := by
  rw [ask, effect]
  cases query copy <;> rfl

theorem effect_change {execute : Database → Except Error Database} :
    (change execute next).effect stored copy = execute copy >>= next.effect stored := by
  rw [change, effect]
  cases execute copy <;> simp [Except.map, bind, Except.bind]

theorem effect_changes {executes : List (Database → Except Error Database)} :
    (changes executes next).effect stored copy =
      executes.foldlM (fun db execute => execute db) copy >>= next.effect stored := by
  induction executes generalizing copy with
  | nil => rfl
  | cons execute rest ih =>
      rw [changes, List.foldr_cons, effect_change, List.foldlM_cons]
      cases execute copy with
      | error e => rfl
      | ok db => exact ih

end Effect

end Transaction

namespace Database

open Transaction

variable (rejects : Rejects)

def updateMerged (id : String) (now : Int64) (db : Database) : Except Error (Nat × Database) := do
  if !db.pullRequests.contains id then return (0, db)
  permit rejects (.updatePullRequest id) .setMerged
  return (1, db.markMerged id now)

def updateReviewer (id old new : String) (db : Database) : Except Error (Nat × Database) := do
  if !db.canReplace id old new then return (0, db)
  permit rejects (.updateReviewer ⟨id, old⟩) .replaceReviewer
  return (1, db.swapReviewer ⟨id, old⟩ new)

def deleteReviewers (id : String) (db : Database) : Except Error Database := do
  (db.rowsOf id).forM fun r => permit rejects (.deleteReviewer r.slot) .deleteReviewers
  return { db with reviewers := db.reviewers.filter fun r => r.slot.pullRequest ≠ id }

def reviewerInserts (id : String) (reviewers : List String) :
    List (Database → Except Error Database) :=
  reviewers.zipIdx.map fun (reviewer, position) =>
    insertReviewer rejects ⟨⟨id, reviewer⟩, position⟩

def reviewerWrites (id : String) (reviewers : List String) :
    List (Database → Except Error Database) :=
  deleteReviewers rejects id :: reviewerInserts rejects id reviewers

end Database

namespace Transaction

open Database

variable {α : Type}

/-! ## The transactions -/

def loadPullRequest (id : String) (next : Option PullRequest → Transaction α) : Transaction α :=
  look (·.pullRequests.get? id) fun
    | none => next none
    | some row => look (·.reviewersOf id) fun reviewers => next (some (row.withReviewers reviewers))

theorem effect_loadPullRequest {id : String} {next : Option PullRequest → Transaction α}
    {stored copy : Database} :
    (loadPullRequest id next).effect stored copy =
      (next (copy.pullRequest? id)).effect stored copy := by
  rw [loadPullRequest, effect_look, pullRequest?]
  cases copy.pullRequests.get? id <;> rfl

variable (rejects : Rejects)

def createTeam (name : String) (members : List User) (now : Int64) : Transaction Unit :=
  .change (insertTeam rejects name now) <|
    .changes (members.map fun m db => upsertUser rejects now db { m with teamName := name }) <|
      .commit ()

def createPullRequest (p : PullRequest) : Transaction Unit :=
  .change (insertPullRequest rejects p) <|
    .changes (reviewerInserts rejects p.id p.reviewers) <| .commit ()

def setMerged (id : String) (now : Int64) : Transaction (Option PullRequest) :=
  .statement (updateMerged rejects id now) fun updated =>
    if updated = 0 then .rollback (.ok none) else loadPullRequest id .commit

def replaceReviewer (id old new : String) : Transaction (Option PullRequest) :=
  .statement (updateReviewer rejects id old new) fun updated =>
    loadPullRequest id fun
      | none => .rollback (.ok none)
      | some p =>
          if updated = 1 then .commit (some p)
          else .rollback do
            p.requireOpen
            if !p.hasReviewer old then throw (.notAssigned id old)
            throw (.noCandidate id)

def repair (team : String) (deactivated : List String) : Transaction TeamDeactivation :=
  ask (loadReviewedBy deactivated) fun rows =>
    if rows.isEmpty then .commit ⟨team, deactivated.length, 0⟩
    else
      ask (loadReviewers (rows.map PullRequestRow.id)) fun reviewers =>
      ask (loadUsers (rows.map PullRequestRow.authorId).eraseDups) fun authors =>
        let affected := affected rows reviewers authors
        ask (loadActive (affected.filterMap Repair.Affected.authorTeam).eraseDups) fun pools =>
          let plan := Repair.plan affected deactivated pools
          .changes (plan.flatMap fun u => reviewerWrites rejects u.pullRequest u.reviewers) <|
            .commit ⟨team, deactivated.length, plan.length⟩

/-- The activity is taken away before it is known whether there is such a team. -/
def deactivateTeam (team : String) (now : Int64) : Transaction TeamDeactivation :=
  .statement (fun db =>
      (deactivateMembers rejects team now db).map (db.activeMembers team, ·)) fun deactivated =>
    look (·.hasTeam team) fun found =>
      if !found then .rollback (.error (.unknownTeam team))
      else if deactivated.isEmpty then .commit ⟨team, 0, 0⟩
      else repair rejects team deactivated

end Transaction

def StoreCall.transaction (rejects : Rejects) : (c : StoreCall) → Transaction c.Answer
  | .hasTeam name => .look (·.hasTeam name) .commit
  | .createTeam name members now => .createTeam rejects name members now
  | .user id => .look (·.user? id) .commit
  | .roster teamName => .look (·.roster teamName) .commit
  | .setActive id isActive now => .statement (Database.setActive rejects id isActive now) .commit
  | .hasPullRequest id => .look (·.hasPullRequest id) .commit
  | .createPullRequest p => .createPullRequest rejects p
  | .pullRequest id => .loadPullRequest id .commit
  | .setMerged id now => .setMerged rejects id now
  | .replaceReviewer id old new => .replaceReviewer rejects id old new
  | .reviewsOf userId => .look (·.reviewsOf userId) .commit
  | .deactivateTeam name now => .deactivateTeam rejects name now
  | .countByReviewer => .look Database.countByReviewer .commit
  | .countByPullRequest => .look Database.countByPullRequest .commit
  | .usersAmong ids => .ask (Database.loadUsers ids) .commit
  | .reviewersAmong ids => .ask (Database.loadReviewers ids) .commit
  | .writeReviewers id reviewers =>
      .changes (Database.reviewerWrites rejects id reviewers) (.commit ())

/-! ## The effect of a transaction is that of its call -/

namespace Database

variable {rejects : Rejects} {db : Database} {id : String} {l : List String}

theorem foldlM_reviewerInserts :
    (reviewerInserts rejects id l).foldlM (fun db execute => execute db) db =
      insertReviewers rejects id l db := by
  rw [reviewerInserts, List.foldlM_map]
  rfl

theorem foldlM_reviewerWrites :
    (reviewerWrites rejects id l).foldlM (fun db execute => execute db) db =
      writeReviewers rejects id l db := by
  rw [reviewerWrites, List.foldlM_cons, deleteReviewers, writeReviewers, rowsOf, bind_assoc]
  simp only [pure_bind, foldlM_reviewerInserts]

theorem foldlM_writes (team : String) {plan : List Repair.Update} :
    (plan.flatMap fun u => reviewerWrites rejects u.pullRequest u.reviewers).foldlM
        (fun db execute => execute db) db =
      (writeUpdates rejects team plan db).1 := by
  induction plan generalizing db with
  | nil => rfl
  | cons u rest ih =>
      rw [List.flatMap_cons, List.foldlM_append, foldlM_reviewerWrites, writeUpdates]
      cases writeReviewers rejects u.pullRequest u.reviewers db with
      | error e => rfl
      | ok db => exact ih

end Database

namespace Transaction

open Database

variable {rejects : Rejects} {db : Database}

theorem effect_createTeam {name : String} {members : List User} {now : Int64} :
    (createTeam rejects name members now).effect db db =
      (db.createTeam rejects name members now).map ((), ·) := by
  rw [createTeam, effect_change, Database.createTeam]
  cases insertTeam rejects name now db with
  | error e => rfl
  | ok db' =>
      change (changes _ _).effect db db' =
        Except.map _ ((members.map _).foldlM (upsertUser rejects now) db')
      rw [effect_changes, List.foldlM_map, List.foldlM_map]
      cases members.foldlM (fun db m => upsertUser rejects now db { m with teamName := name }) db'
        <;> rfl

theorem effect_createPullRequest {p : PullRequest} :
    (createPullRequest rejects p).effect db db =
      (db.createPullRequest rejects p).map ((), ·) := by
  rw [createPullRequest, effect_change, Database.createPullRequest]
  cases insertPullRequest rejects p db with
  | error e => rfl
  | ok db' =>
      change (changes _ _).effect db db' = Except.map _ (insertReviewers _ _ _ _)
      rw [effect_changes, foldlM_reviewerInserts]
      cases insertReviewers rejects p.id p.reviewers db' <;> rfl

theorem effect_setMerged {id : String} {now : Int64} :
    (setMerged rejects id now).effect db db = db.setMerged rejects id now := by
  rw [setMerged, effect, updateMerged, Database.setMerged]
  cases db.pullRequests.contains id with
  | false => rfl
  | true =>
      cases permit rejects (.updatePullRequest id) .setMerged with
      | error e => rfl
      | ok _ => exact effect_loadPullRequest

theorem effect_replaceReviewer {id old new : String} :
    (replaceReviewer rejects id old new).effect db db =
      db.replaceReviewer rejects id old new := by
  rw [replaceReviewer, effect, updateReviewer, Database.replaceReviewer]
  cases hcan : db.canReplace id old new with
  | false =>
      change (loadPullRequest _ _).effect db db = _
      rw [effect_loadPullRequest]
      cases db.pullRequest? id with
      | none => rfl
      | some p =>
          -- What stands against the replacement is an error on both sides.
          dsimp only
          cases p.requireOpen with
          | error e => rfl
          | ok _ => cases p.hasReviewer old <;> rfl
  | true =>
      cases permit rejects (.updateReviewer ⟨id, old⟩) .replaceReviewer with
      | error e => rfl
      | ok _ =>
          change (loadPullRequest _ _).effect db (db.swapReviewer ⟨id, old⟩ new) = _
          rw [effect_loadPullRequest]
          obtain ⟨-, ⟨row, hrow, -⟩, -⟩ := canReplace_iff.1 hcan
          simp only [pullRequest?, pullRequests_swapReviewer, hrow]
          rfl

theorem effect_repair {stored : Database} {team : String} {deactivated : List String}
    (h : deactivated.isEmpty = false) :
    (repair rejects team deactivated).effect stored db =
      (db.repair rejects team deactivated).1 := by
  rw [Database.repair, h, repair, effect_ask, repairPlan, affectedBy]
  rcases loadReviewedBy deactivated db with e | rows
  · rfl
  cases rows with
  | nil => rfl
  | cons p rest =>
      simp only [ok_bind, List.isEmpty_cons, Bool.false_eq_true, if_false, effect_ask]
      rcases loadReviewers ((p :: rest).map PullRequestRow.id) db with e | reviewers
      · rfl
      simp only [ok_bind]
      rcases loadUsers ((p :: rest).map PullRequestRow.authorId).eraseDups db with e | authors
      · rfl
      simp only [ok_bind, pure_bind]
      rcases loadActive ((affected (p :: rest) reviewers authors).filterMap
        Repair.Affected.authorTeam).eraseDups db with e | pools
      · rfl
      have hplan : (Repair.plan (affected (p :: rest) reviewers authors) deactivated
        pools).isEmpty = false := rfl
      simp only [ok_bind, pure, Except.pure, hplan, Bool.false_eq_true, if_false, effect_changes,
        foldlM_writes team]
      cases writeUpdates rejects team
          (Repair.plan (affected (p :: rest) reviewers authors) deactivated pools) db with
      | mk result events => cases result <;> rfl

theorem effect_deactivateTeam {team : String} {now : Int64} :
    (deactivateTeam rejects team now).effect db db = (db.deactivateTeam rejects team now).1 := by
  rw [deactivateTeam, effect, Database.deactivateTeam]
  cases hmembers : deactivateMembers rejects team now db with
  | error e => rfl
  | ok after =>
      have hteam : db.hasTeam team = after.hasTeam team := by
        rw [(deactivateMembers_eq_ok.1 hmembers).2]
        rfl
      simp only [Except.map, effect_look, hteam]
      cases after.hasTeam team with
      | false => rfl
      | true =>
          simp only [Bool.not_true, Bool.false_eq_true, if_false, if_true]
          cases hnobody : (db.activeMembers team).isEmpty with
          | true => simp [Database.repair, hnobody, effect]
          | false => exact effect_repair hnobody

end Transaction

theorem StoreCall.effect_transaction {rejects : Rejects} {db : Database} (c : StoreCall) :
    (c.transaction rejects).effect db db = (c.effect rejects db).1 := by
  cases c with
  | createTeam => exact Transaction.effect_createTeam
  | createPullRequest => exact Transaction.effect_createPullRequest
  | setMerged => exact Transaction.effect_setMerged
  | replaceReviewer => exact Transaction.effect_replaceReviewer
  | deactivateTeam => exact Transaction.effect_deactivateTeam
  | pullRequest => exact Transaction.effect_loadPullRequest
  | setActive id isActive now =>
      rw [transaction, Transaction.effect]
      change _ = Database.setActive rejects id isActive now db
      cases Database.setActive rejects id isActive now db <;> rfl
  | writeReviewers id l =>
      rw [transaction, Transaction.effect_changes, Database.foldlM_reviewerWrites, effect]
      cases Database.writeReviewers rejects id l db <;> rfl
  | usersAmong ids =>
      rw [transaction, Transaction.effect_ask, effect]
      cases Database.loadUsers ids db <;> rfl
  | reviewersAmong ids =>
      rw [transaction, Transaction.effect_ask, effect]
      cases Database.loadReviewers ids db <;> rfl
  | hasTeam | user | roster | hasPullRequest | reviewsOf | countByReviewer | countByPullRequest =>
      rfl

end ReviewRota
