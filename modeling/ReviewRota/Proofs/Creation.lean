import ReviewRota.Proofs.OffDuty
import ReviewRota.Proofs.Assignment

/-!
# Creating a pull request beside other clients

The reviewers of a new pull request were active when the team was looked up.  That they still are
is not checked when they are stored, so that it depends on what happened in between.
-/

namespace ReviewRota

open Database

namespace Database

variable {db db' : Database} {c : StoreCall} {userId : String}

def Active (db : Database) (userId : String) : Prop :=
  ∃ u, db.user? userId = some u ∧ u.isActive = true

def StandsDown (db : Database) (userId : String) : StoreCall → Prop
  | .setActive id isActive _ => id = userId ∧ isActive = false
  | .deactivateTeam team _ => ∃ u, db.user? userId = some u ∧ u.teamName = team
  | .createTeam _ members _ => ∃ m ∈ members, m.id = userId ∧ m.isActive = false
  | .hasTeam _ | .user _ | .roster _ | .hasPullRequest _ | .createPullRequest _ | .pullRequest _
  | .setMerged .. | .replaceReviewer .. | .reviewsOf _ | .countByReviewer | .countByPullRequest
  | .usersAmong _ | .reviewersAmong _ | .writeReviewers .. => False

theorem standsDown_of_transition (htransition : Transition db c db') (hbefore : db.Active userId)
    (hafter : ¬ db'.Active userId) : db.StandsDown userId c := by
  obtain ⟨u, hu, hactive⟩ := hbefore
  cases htransition with
  | @createTeam name members now _ =>
      have hcontains : (db.addTeam name members now).users.contains userId = true :=
        Table.contains_insertAll_of_contains (contains_of_user? hu)
      obtain ⟨v, hv⟩ := exists_of_contains_user hcontains
      have hv' : v.isActive = false := by
        rw [← Bool.not_eq_true]
        exact fun h => hafter ⟨v, hv, h⟩
      rcases user?_addTeam hv with ⟨m, hm, hid, hflag⟩ | hsame
      · exact ⟨m, hm, hid, hflag.trans hv'⟩
      · rw [hu] at hsame
        cases hsame
        rw [hactive] at hv'
        cases hv'
  | @setActive id isActive now user _ =>
      have hv : (db.updateUser id (fun u => { u with isActive }) now fun _ => rfl).user? userId =
          (db.user? userId).map _ := user?_updateUser
      rw [hu, Option.map_some, id_of_user? hu] at hv
      split at hv
      · next hid =>
          refine ⟨hid.symm, ?_⟩
          rw [← Bool.not_eq_true]
          exact fun h => hafter ⟨_, hv, h⟩
      · exact absurd ⟨u, hv, hactive⟩ hafter
  | @deactivateTeam team now _ =>
      have hv : (db.dismiss team now).user? userId = (db.user? userId).map _ := user?_dismiss
      rw [hu, Option.map_some] at hv
      split at hv
      · next hteam => exact ⟨u, hu, hteam.1⟩
      · exact absurd ⟨u, user?_standDown.trans hv, hactive⟩ hafter
  | createPullRequest _ | setMerged => exact absurd ⟨u, hu, hactive⟩ hafter
  | replaceReviewer _ =>
      refine absurd ⟨u, ?_, hactive⟩ hafter
      rwa [user?, users_swapReviewer]

end Database

namespace Trace

variable {contract : Contract} {t : Trace contract} {i k n : Nat} {userId : String}

def TakenOff (t : Trace contract) (userId : String) (n : Nat) : Prop :=
  (t.database n).Active userId ∧ ¬ (t.database (n + 1)).Active userId

def BroughtBack (t : Trace contract) (userId : String) (n : Nat) : Prop :=
  ¬ (t.database n).Active userId ∧ (t.database (n + 1)).Active userId

theorem standsDown_of_takenOff (h : t.TakenOff userId n) :
    ∃ j m, t.move? j n = some m ∧ (t.database n).StandsDown userId m.call := by
  obtain ⟨hbefore, hafter⟩ := h
  rcases t.database_succ n with hsame | ⟨j, m, hmove⟩
  · rw [hsame] at hafter
    exact absurd hbefore hafter
  · rcases transition_of_move? hmove with hsame | htransition
    · rw [hsame] at hafter
      exact absurd hbefore hafter
    · exact ⟨j, m, hmove, standsDown_of_transition htransition hbefore hafter⟩

theorem exists_broughtBack (hkn : k ≤ n) (hk : ¬ (t.database k).Active userId)
    (hn : (t.database n).Active userId) : ∃ m, k ≤ m ∧ m < n ∧ t.BroughtBack userId m := by
  induction hkn with
  | refl => exact absurd hn hk
  | @step n hkn ih =>
      by_cases hbefore : (t.database n).Active userId
      · obtain ⟨m, hkm, hmn, hback⟩ := ih hbefore
        exact ⟨m, hkm, Nat.lt_succ_of_lt hmn, hback⟩
      · exact ⟨n, hkn, Nat.lt_succ_self n, hbefore, hn⟩

theorem exists_last_takenOff (hkn : k ≤ n) (hk : (t.database k).Active userId)
    (hn : ¬ (t.database n).Active userId) :
    ∃ m, k ≤ m ∧ m < n ∧ t.TakenOff userId m ∧
      ∀ m', m < m' → m' ≤ n → ¬ (t.database m').Active userId := by
  induction hkn with
  | refl => exact absurd hk hn
  | @step n hkn ih =>
      by_cases hbefore : (t.database n).Active userId
      · refine ⟨n, hkn, Nat.lt_succ_self n, ⟨hbefore, hn⟩, fun m' hlt hle => ?_⟩
        rwa [Nat.le_antisymm hle hlt]
      · obtain ⟨m, hkm, hmn, hoff, hlast⟩ := ih hbefore
        refine ⟨m, hkm, Nat.lt_succ_of_lt hmn, hoff, fun m' hlt hle => ?_⟩
        rcases Nat.le_succ_iff.1 hle with hle | rfl
        · exact hlast m' hlt hle
        · exact hn

/-- Who was active is active again exactly if everything that took them off was undone. -/
theorem active_iff (hkn : k ≤ n) (hk : (t.database k).Active userId) :
    (t.database n).Active userId ↔ ∀ m, k ≤ m → m < n → t.TakenOff userId m →
      ∃ m', m < m' ∧ m' < n ∧ t.BroughtBack userId m' := by
  constructor
  · rintro hn m - hmn ⟨-, hoff⟩
    exact exists_broughtBack hmn hoff hn
  · intro h
    by_contra hn
    obtain ⟨m, hkm, hmn, hoff, hlast⟩ := exists_last_takenOff hkn hk hn
    obtain ⟨m', hlt, hlt', -, hback⟩ := h m hkm hmn hoff
    exact hlast (m' + 1) (Nat.lt_succ_of_lt hlt) hlt' hback

structure Stores (t : Trace contract) (i k : Nat) (p : PullRequest) : Prop where
  acts : t.Acts i k
  absent : (t.database k).pullRequests.contains p.id = false
  stored : t.database (k + 1) = (t.database k).addPullRequest p

theorem stores_of_answered {m : Move} {p : PullRequest} (hmove : t.move? i m.time = some m)
    (h : m.Answered (.createPullRequest p) ()) : t.Stores i m.time p := by
  obtain ⟨hbefore, hafter⟩ := database_of_move? hmove
  have heffect := h.effect
  rw [hbefore, hafter] at heffect
  obtain ⟨_, hok, heq⟩ := map_eq_ok.1 heffect
  cases heq
  obtain ⟨-, habsent, -, -, -, hstored⟩ := createPullRequest_eq_ok.1 hok
  exact ⟨acts_of_move? hmove, habsent, hstored⟩

theorem active_of_candidate {m : Move} {team authorId : String} {exclude : List String}
    {roster : List User} (hm : m ∈ t.history i n) (h : m.Answered (.roster team) roster)
    (hcandidate : userId ∈ candidates authorId exclude roster) :
    (t.database m.time).Active userId := by
  obtain ⟨-, hmove⟩ := mem_history.1 hm
  have hroster := h.roster_eq
  rw [(database_of_move? hmove).1] at hroster
  obtain ⟨-, -, u, hu, rfl, hactive⟩ := mem_candidates.1 hcandidate
  rw [← hroster] at hu
  exact ⟨u, (mem_roster.1 hu).1, hactive⟩

/-- Every reviewer of a new pull request was active when the team was looked up, and is still
active when the pull request is stored exactly if whatever took them off in between was undone. -/
theorem creation (t : Trace .members) (i n : Nat) (id name authorId : String) (p : PullRequest)
    (h : t.client? i n = some ⟨.createPullRequest id name authorId, .done (.ok p)⟩) :
    ∃ k₀ k team, k₀ < k ∧ k < n ∧ (t.move? i k₀).map Move.call = some (.roster team) ∧
      t.Stores i k p ∧ ∀ r ∈ p.reviewers, (t.database k₀).Active r ∧
        ((t.database (k + 1)).Active r ↔ ∀ m, k₀ < m → m < k → t.TakenOff r m →
          ∃ m', m < m' ∧ m' < k ∧ t.BroughtBack r m') ∧
        ∀ m, t.TakenOff r m → ∃ j move, t.move? j m = some move ∧
          (t.database m).StandsDown r move.call := by
  obtain ⟨m, hlt, hmove, ⟨-, -, -, hanswered⟩, hsilent⟩ := t.settled_of_ok h
  have hfounded := founded_of_move? hmove
  rw [hanswered.1] at hfounded
  obtain ⟨-, -, author, -, roster, ⟨look, hlook, hroster⟩, hchosen⟩ := hfounded
  obtain ⟨hbefore, hlookMove⟩ := mem_history.1 hlook
  have hstores := stores_of_answered hmove hanswered
  refine ⟨look.time, m.time, author.teamName, hbefore, hlt, ?_, hstores, fun r hr => ?_⟩
  · rw [hlookMove, Option.map_some, hroster.1]
  have hactive := active_of_candidate hlook hroster (hchosen hr)
  refine ⟨hactive, ?_, fun _ hoff => standsDown_of_takenOff hoff⟩
  have hsame : (t.database (m.time + 1)).Active r ↔ (t.database m.time).Active r := by
    rw [hstores.stored]
    exact Iff.rfl
  rw [hsame, active_iff (Nat.le_of_lt hbefore) hactive]
  constructor
  · exact fun h m' hle => h m' (Nat.le_of_lt hle)
  · intro h m' hle hlt' hoff
    rcases Nat.lt_or_eq_of_le hle with hlt'' | rfl
    · exact h m' hlt'' hlt' hoff
    · -- Looking up the team takes nobody off.
      have hquiet := hsilent look.time (acts_of_move? hlookMove) (Nat.ne_of_lt hbefore)
      rw [TakenOff, hquiet] at hoff
      exact absurd hoff.1 hoff.2

theorem creation_staffed :
    let t : Trace .members := staffed.weaken fun _ _ _ h => h.1
    ∃ p, t.client? 1 14 = some ⟨.createPullRequest "p" "Fix" "a", .done (.ok p)⟩ ∧
      ∃ k₀ k, k₀ < k ∧ t.Stores 1 k p ∧ ∀ r ∈ p.reviewers, (t.database k₀).Active r := by
  intro t
  have hdone : t.client? 1 14 = some ⟨.createPullRequest "p" "Fix" "a",
      .done (.ok ⟨"p", "Fix", "a", .opened, ["b", "c"], 6, none⟩)⟩ := by cbv
  obtain ⟨k₀, k, -, hlt, -, -, hstores, hactive⟩ := t.creation 1 14 _ _ _ _ hdone
  exact ⟨_, hdone, k₀, k, hlt, hstores, fun r hr => (hactive r hr).1⟩

def overtaken : Trace .distinct := .ofList
  ([Turn.arrive (.createTeam "web" [⟨"a", "Ann", true⟩, ⟨"b", "Bob", true⟩, ⟨"c", "Cid", true⟩])] ++
    List.replicate 5 (Turn.act 0 [] 5) ++ [Turn.arrive (.createPullRequest "p" "Fix" "a")] ++
    List.replicate 4 (Turn.act 1 ["b", "c"] 6) ++ [Turn.arrive (.deactivateTeam "web")] ++
    List.replicate 2 (Turn.act 2 [] 7) ++ List.replicate 3 (Turn.act 1 [] 8))
  (by decide +kernel)

/-- The pull request is stored although nobody who reviews it is active any more. -/
theorem creation_overtaken :
    ¬ ∀ (t : Trace .distinct) (i n k : Nat) (id name authorId : String) (p : PullRequest),
      t.client? i n = some ⟨.createPullRequest id name authorId, .done (.ok p)⟩ →
        t.Stores i k p → ∀ r ∈ p.reviewers, (t.database (k + 1)).Active r := by
  intro h
  have hdone : overtaken.client? 1 17 = some ⟨.createPullRequest "p" "Fix" "a",
      .done (.ok ⟨"p", "Fix", "a", .opened, ["b", "c"], 8, none⟩)⟩ := by cbv
  have hstores : overtaken.Stores 1 15 ⟨"p", "Fix", "a", .opened, ["b", "c"], 8, none⟩ :=
    ⟨⟨[], 8, rfl⟩, by decide +kernel, by decide +kernel⟩
  have huser : (overtaken.database 16).user? "b" = some ⟨"b", "Bob", "web", false⟩ := by
    decide +kernel
  obtain ⟨u, hu, hactive⟩ := h overtaken 1 17 15 _ _ _ _ hdone hstores "b" (by decide)
  rw [huser] at hu
  cases hu
  cases hactive

end Trace

end ReviewRota
