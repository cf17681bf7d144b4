import ReviewRota.Proofs.Conduct
import ReviewRota.Proofs.Deactivation

/-!
# The steps of the database

What the store calls of the services can do to a database, said once; every invariant is derived
from it, one case for each step.
-/

namespace ReviewRota

open Database

inductive Transition (db : Database) : StoreCall → Database → Prop
  | createTeam {name : String} {members : List User} {now : Int64}
      (absent : db.teams.contains name = false) :
      Transition db (.createTeam name members now) (db.addTeam name members now)
  | setActive {id : String} {isActive : Bool} {now : Int64} {user : User}
      (found : db.user? id = some user) :
      Transition db (.setActive id isActive now)
        (db.updateUser id (fun u => { u with isActive }) now fun _ => rfl)
  | createPullRequest {p : PullRequest} (absent : db.pullRequests.contains p.id = false)
      (author : db.users.contains p.authorId = true) (nodup : p.reviewers.Nodup)
      (users : ∀ r ∈ p.reviewers, db.users.contains r = true) :
      Transition db (.createPullRequest p) (db.addPullRequest p)
  | setMerged {id : String} {now : Int64} :
      Transition db (.setMerged id now) (db.markMerged id now)
  | replaceReviewer {id old new : String} (can : db.canReplace id old new = true) :
      Transition db (.replaceReviewer id old new) (db.swapReviewer ⟨id, old⟩ new)
  | deactivateTeam {team : String} {now : Int64} (found : db.hasTeam team = true) :
      Transition db (.deactivateTeam team now) (db.standDown team now)

theorem transition_of_effect {rejects : Rejects} {db db' : Database} {c : StoreCall}
    {answer : c.Answer} (h : (c.effect rejects db).1 = .ok (answer, db'))
    (hwrite : ∀ id l, c ≠ .writeReviewers id l) : db' = db ∨ Transition db c db' := by
  cases c with
  | createTeam name members now =>
      obtain ⟨_, hok, hanswer⟩ := map_eq_ok.1 h
      cases hanswer
      obtain ⟨habsent, rfl⟩ := createTeam_ok hok
      exact .inr (.createTeam habsent)
  | setActive id isActive now =>
      rcases setActive_ok h with ⟨-, hsame, -⟩ | ⟨user, huser, -, rfl⟩
      · exact .inl hsame
      · exact .inr (.setActive huser)
  | createPullRequest p =>
      obtain ⟨_, hok, hanswer⟩ := map_eq_ok.1 h
      cases hanswer
      obtain ⟨-, habsent, hauthor, hnodup, hinsert, rfl⟩ := createPullRequest_eq_ok.1 hok
      refine .inr (.createPullRequest habsent hauthor hnodup fun r hr => ?_)
      rw [← map_reviewer_listed p.id p.reviewers] at hr
      obtain ⟨row, hrow, rfl⟩ := List.mem_map.1 hr
      exact (hinsert row hrow).2.2
  | setMerged id now =>
      rcases setMerged_ok h with ⟨-, hsame, -⟩ | ⟨_, -, rfl, -⟩
      · exact .inl hsame
      · exact .inr .setMerged
  | replaceReviewer id old new =>
      rcases replaceReviewer_ok h with ⟨-, hsame⟩ | ⟨_, -, hcan, rfl, -⟩
      · exact .inl hsame
      · exact .inr (.replaceReviewer hcan)
  | deactivateTeam name now =>
      obtain ⟨hteam, rfl, -⟩ := deactivateTeam_ok h
      exact .inr (.deactivateTeam hteam)
  | writeReviewers id l => exact absurd rfl (hwrite id l)
  | usersAmong | reviewersAmong =>
      obtain ⟨_, -, hsame⟩ := map_eq_ok.1 h
      exact .inl (Prod.mk.inj hsame).2.symm
  | hasTeam | user | roster | hasPullRequest | pullRequest | reviewsOf | countByReviewer
  | countByPullRequest => exact .inl (Prod.mk.inj (Except.ok.inj h)).2.symm

namespace Trace

variable {contract : Contract} {t : Trace contract} {i k n : Nat} {m : Move}

theorem transition_of_move? (h : t.move? i n = some m) :
    t.database (n + 1) = t.database n ∨ Transition (t.database n) m.call (t.database (n + 1)) := by
  obtain ⟨hbefore, hafter⟩ := database_of_move? h
  rw [← hbefore, ← hafter]
  cases hresult : (m.before.perform m.call).result with
  | error e => exact .inl (congrArg Store.database (Store.perform_eq_error hresult))
  | ok answer =>
      refine transition_of_effect (Store.perform_eq_ok hresult).2 fun id l hcall => ?_
      -- No service stores a reviewer list by itself.
      have hfounded := t.founded_of_move? h
      rw [hcall] at hfounded
      exact hfounded

theorem kept {P : Database → Prop} (hk : P (t.database k))
    (hstep : ∀ n i m, t.move? i n = some m → P (t.database n) →
      Transition (t.database n) m.call (t.database (n + 1)) → P (t.database (n + 1)))
    (hle : k ≤ n) : P (t.database n) := by
  induction hle with
  | refl => exact hk
  | @step n _ ih =>
      rcases t.database_succ n with hsame | ⟨i, m, hmove⟩
      · rwa [hsame]
      · rcases transition_of_move? hmove with hsame | htransition
        · rwa [hsame]
        · exact hstep n i m hmove ih htransition

end Trace

end ReviewRota
