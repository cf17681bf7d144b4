import Mathlib
import ReviewRota.Proofs.Contest

/-!
# The winner of a contest

Of many clients that create the same, the first one that the store lets through wins.  Its answer is
what is stored, and whoever comes later is refused and leaves no trace.
-/

namespace ReviewRota

open Database

namespace Move.Answered

variable {m : Move}

theorem addTeam {name : String} {users : List User} {now : Int64}
    (h : m.Answered (.createTeam name users now) ()) :
    m.before.database.hasTeam name = false ∧
      m.after.database = m.before.database.addTeam name users now := by
  obtain ⟨_, hok, heq⟩ := map_eq_ok.1 h.effect
  cases heq
  exact createTeam_ok hok

theorem addPullRequest {p : PullRequest} (h : m.Answered (.createPullRequest p) ()) :
    m.before.database.hasPullRequest p.id = false ∧ p.reviewers.Nodup ∧
      m.after.database = m.before.database.addPullRequest p := by
  obtain ⟨_, hok, heq⟩ := map_eq_ok.1 h.effect
  cases heq
  obtain ⟨-, habsent, -, hnodup, -, hstored⟩ := createPullRequest_eq_ok.1 hok
  exact ⟨habsent, hnodup, hstored⟩

end Move.Answered

namespace Trace

variable {contract : Contract} {t : Trace contract} {i j k n : Nat} {item : Item} {m : Move}
  {a : Action}

structure Wins (t : Trace contract) (i j n : Nat) (item : Item) {a : Action}
    (answer : a.Answer) : Prop where
  done : t.client? i n = some ⟨a, .done (.ok answer)⟩
  settled : ∃ m, t.move? i j = some m ∧ a.Settled answer m
  absent : (t.database j).stores item = false
  stored : (t.database (j + 1)).stores item = true
  silent : ∀ l, t.Acts i l → l ≠ j → t.database (l + 1) = t.database l

theorem created_of_settled {db : Database} {answer : a.Answer} (ha : a.Creates db item)
    (hsettled : a.Settled answer m) :
    m.before.database.stores item = false ∧ m.after.database.stores item = true := by
  cases a with
  | createTeam name members =>
      obtain ⟨rfl, -⟩ := ha
      obtain ⟨-, now, hanswered⟩ := hsettled
      obtain ⟨habsent, hdb⟩ := hanswered.addTeam
      rw [hdb]
      exact ⟨habsent, stores_addTeam.2 (.inr rfl)⟩
  | createPullRequest id name authorId =>
      obtain ⟨rfl, -⟩ := ha
      obtain ⟨hid, -, -, hanswered⟩ := hsettled
      obtain ⟨habsent, -, hdb⟩ := hanswered.addPullRequest
      rw [hdb]
      refine ⟨?_, stores_addPullRequest.2 (.inr (congrArg Item.pullRequest hid))⟩
      rw [← hid]
      exact habsent
  | setActive | merge | reassign | deactivateTeam => cases ha

theorem wins_of_ok {answer : a.Answer} (hi : t.Contends k n item i)
    (hdone : t.client? i n = some ⟨a, .done (.ok answer)⟩) :
    ∃ j, k ≤ j ∧ j < n ∧ t.Wins i j n item answer := by
  obtain ⟨a', result, hended, hcreates⟩ := hi.ended
  rw [hdone] at hended
  cases hended
  obtain ⟨m, hlt, hmove, hsettled, hsilent⟩ := t.settled_of_ok hdone
  obtain ⟨habsent, hstored⟩ := created_of_settled hcreates hsettled
  obtain ⟨hbefore, hafter⟩ := database_of_move? hmove
  rw [hbefore] at habsent
  rw [hafter] at hstored
  exact ⟨m.time, le_time hi.absent (mem_history.2 ⟨hlt, hmove⟩), hlt, hdone, ⟨m, hmove, hsettled⟩,
    habsent, hstored, hsilent⟩

namespace Wins

variable {i' j' : Nat} {a' : Action} {answer : a.Answer} {answer' : a'.Answer}

theorem acts (h : t.Wins i j n item answer) : t.Acts i j := by
  obtain ⟨m, hmove, -⟩ := h.settled
  exact acts_of_move? hmove

theorem le (h : t.Wins i j n item answer) (h' : t.Wins i' j' n item answer') : j ≤ j' := by
  by_contra hlt
  have hstored := stores_of_le (Nat.lt_of_not_le hlt) h'.stored
  rw [h.absent] at hstored
  cases hstored

theorem unique (h : t.Wins i j n item answer) (h' : t.Wins i' j' n item answer') : i = i' := by
  obtain rfl := Nat.le_antisymm (h.le h') (h'.le h)
  exact eq_of_acts h.acts h'.acts

end Wins

/-- What a contest comes to: the winner changes the database in turn `j`, and the other contenders
end with the error that the item is there.  Nothing else that a contender does has an effect. -/
structure Verdict (t : Trace contract) (k n : Nat) (item : Item) (w j : Nat) : Prop where
  winner : t.Contends k n item w
  acts : t.Acts w j
  since : k ≤ j
  before : j < n
  refused : ∀ i, t.Contends k n item i → i ≠ w →
    ∃ a, t.client? i n = some ⟨a, .done (.error item.taken)⟩
  silent : ∀ i l, t.Contends k n item i → t.Acts i l → (i ≠ w ∨ l ≠ j) →
    t.database (l + 1) = t.database l
  alone : (∀ i l m, k ≤ l → l < n → t.move? i l = some m → t.Contends k n item i) →
    t.database j = t.database k ∧ t.database n = t.database (j + 1)

theorem Contends.cases (hi : t.Contends k n item i) :
    ∃ (a : Action), a.Creates (t.database k) item ∧
      ((∃ answer : a.Answer, t.client? i n = some ⟨a, .done (.ok answer)⟩) ∨
        ∃ e, t.client? i n = some ⟨a, .done (.error e)⟩) := by
  obtain ⟨a, result, hdone, hcreates⟩ := hi.ended
  cases result with
  | ok answer => exact ⟨a, hcreates, .inl ⟨answer, hdone⟩⟩
  | error e => exact ⟨a, hcreates, .inr ⟨e, hdone⟩⟩

section Contest

variable (h : t.Contest k n item)

include h

theorem exists_ok (hi : t.Contends k n item i) :
    ∃ (w : Nat) (a : Action) (answer : a.Answer), t.Contends k n item w ∧
      a.Creates (t.database k) item ∧ t.client? w n = some ⟨a, .done (.ok answer)⟩ := by
  obtain ⟨a, hcreates, ⟨answer, hdone⟩ | ⟨e, hdone⟩⟩ := hi.cases
  · exact ⟨i, a, answer, hi, hcreates, hdone⟩
  -- Whoever was refused has found the item stored; it was stored by the turn of some contender,
  -- who cannot have been refused.
  obtain ⟨-, hstored⟩ := taken_of_error h hi hdone
  obtain ⟨j, w, m, hj, hlt, hmove, hcall, habsent, hstored⟩ := exists_creation h.le h.absent hstored
  have hw := h.contends w j m hj hlt hmove hcall
  obtain ⟨a, hcreates, ⟨answer, hdone⟩ | ⟨e, hdone⟩⟩ := hw.cases
  · exact ⟨w, a, answer, hw, hcreates, hdone⟩
  · rw [database_of_error hdone (acts_of_move? hmove), habsent] at hstored
    cases hstored

theorem verdict_of_wins {w : Nat} {answer : a.Answer} (hw : t.Contends k n item w) (hj : k ≤ j)
    (hlt : j < n) (hwins : t.Wins w j n item answer) : t.Verdict k n item w j := by
  have hrefused : ∀ i, t.Contends k n item i → i ≠ w →
      ∃ a, t.client? i n = some ⟨a, .done (.error item.taken)⟩ := by
    intro i hi hne
    obtain ⟨a, -, ⟨answer, hdone⟩ | ⟨e, hdone⟩⟩ := hi.cases
    · obtain ⟨j', -, -, hwins'⟩ := wins_of_ok hi hdone
      exact absurd (hwins'.unique hwins) hne
    · obtain ⟨rfl, -⟩ := taken_of_error h hi hdone
      exact ⟨a, hdone⟩
  have hsilent : ∀ i l, t.Contends k n item i → t.Acts i l → (i ≠ w ∨ l ≠ j) →
      t.database (l + 1) = t.database l := by
    intro i l hi hacts hother
    by_cases hiw : i = w
    · subst hiw
      exact hwins.silent l hacts (hother.resolve_left fun hne => hne rfl)
    · obtain ⟨a, hdone⟩ := hrefused i hi hiw
      exact database_of_error hdone hacts
  refine ⟨hw, hwins.acts, hj, hlt, hrefused, hsilent, fun honly => ?_⟩
  have hothers : ∀ l, k ≤ l → l < n → l ≠ j → t.database (l + 1) = t.database l := by
    intro l hl hln hne
    rcases t.database_succ l with hsame | ⟨i, m, hmove⟩
    · exact hsame
    · exact hsilent i l (honly i l m hl hln hmove) (acts_of_move? hmove) (.inr hne)
  constructor
  · exact database_eq_of_silent hj fun l hl hlj =>
      hothers l hl (Nat.lt_trans hlj hlt) (Nat.ne_of_lt hlj)
  · exact database_eq_of_silent hlt fun l hl hln =>
      hothers l (Nat.le_trans hj (Nat.le_of_lt hl)) hln (Nat.ne_of_gt hl)

theorem exists_verdict (hi : t.Contends k n item i) :
    ∃ (w j : Nat) (a : Action) (answer : a.Answer), t.Verdict k n item w j ∧
      a.Creates (t.database k) item ∧ t.client? w n = some ⟨a, .done (.ok answer)⟩ ∧
        ∃ m, t.move? w j = some m ∧ a.Settled answer m := by
  obtain ⟨w, a, answer, hw, hcreates, hdone⟩ := exists_ok h hi
  obtain ⟨j, hj, hlt, hwins⟩ := wins_of_ok hw hdone
  exact ⟨w, j, a, answer, verdict_of_wins h hw hj hlt hwins, hcreates, hdone, hwins.settled⟩

end Contest

/-! ## What the winner has stored -/

theorem addPullRequest_of_settled {w : Nat} {id name authorId : String} {p : PullRequest}
    (hmove : t.move? w j = some m)
    (hsettled : (Action.createPullRequest id name authorId).Settled p m) :
    t.database (j + 1) = (t.database j).addPullRequest p ∧
      (t.database (j + 1)).pullRequest? id = some p ∧
      ((t.database (j + 1)).rowsOf id).Perm (listed id p.reviewers) := by
  obtain ⟨rfl, -, -, hanswered⟩ := hsettled
  obtain ⟨hbefore, hafter⟩ := database_of_move? hmove
  obtain ⟨habsent, hnodup, hdb⟩ := hanswered.addPullRequest
  rw [hbefore] at habsent
  rw [hbefore, hafter] at hdb
  have hrows : ((t.database (j + 1)).rowsOf p.id).Perm (listed p.id p.reviewers) := by
    rw [hdb]
    exact rowsOf_addPullRequest (t.layout j).consistent habsent hnodup
  have hget : ((t.database j).addPullRequest p).pullRequests.get? p.id =
      if p.id = p.id then some p.row else _ := Table.get?_insert
  rw [if_pos rfl, ← hdb] at hget
  refine ⟨hdb, ?_, hrows⟩
  rw [pullRequest?, hget, reviewersOf_eq_of_perm hrows]
  rfl

theorem addTeam_of_settled {w : Nat} {name : String} {members : List Member} {team : Team}
    (hmove : t.move? w j = some m) (hnodup : (members.map Member.userId).Nodup)
    (hsettled : (Action.createTeam name members).Settled team m) :
    team = ⟨name, members⟩ ∧
      (∃ now, t.database (j + 1) =
        (t.database j).addTeam name (members.map (·.joining name)) now) ∧
      (∀ m ∈ members, (t.database (j + 1)).user? m.userId = some (m.joining name)) ∧
      ∀ id, id ∉ members.map Member.userId →
        (t.database (j + 1)).user? id = (t.database j).user? id := by
  obtain ⟨rfl, now, hanswered⟩ := hsettled
  obtain ⟨hbefore, hafter⟩ := database_of_move? hmove
  obtain ⟨-, hdb⟩ := hanswered.addTeam
  rw [hbefore, hafter] at hdb
  have hids : (members.map (·.joining name)).map User.id = members.map Member.userId :=
    List.map_map
  refine ⟨?_, ⟨now, hdb⟩, fun m hm => ?_, fun id hid => ?_⟩
  · rw [Team.ofUsers, List.map_map]
    exact congrArg (Team.mk name) (List.map_id members)
  · rw [hdb]
    exact user?_addTeam_of_mem (hids.symm ▸ hnodup) (List.mem_map_of_mem hm)
  · rw [hdb]
    exact user?_addTeam_of_not_mem (hids.symm ▸ hid)

/-- Of the clients that create one pull request or one team at the same time, whatever the order of
their store calls, one gets it stored as it answers, and all others are refused without a trace. -/
theorem contest (t : Trace contract) (k n : Nat) :
    (∀ id i, t.Contest k n (.pullRequest id) → t.Contends k n (.pullRequest id) i →
      ∃ w j name authorId p, t.Verdict k n (.pullRequest id) w j ∧
        t.client? w n = some ⟨.createPullRequest id name authorId, .done (.ok p)⟩ ∧
        t.database (j + 1) = (t.database j).addPullRequest p ∧
        (t.database (j + 1)).pullRequest? id = some p ∧
        ((t.database (j + 1)).rowsOf id).Perm (listed id p.reviewers)) ∧
    ∀ name i, t.Contest k n (.team name) → t.Contends k n (.team name) i →
      ∃ w j members, t.Verdict k n (.team name) w j ∧
        t.client? w n = some ⟨.createTeam name members, .done (.ok ⟨name, members⟩)⟩ ∧
        (∃ now, t.database (j + 1) =
          (t.database j).addTeam name (members.map (·.joining name)) now) ∧
        (∀ m ∈ members, (t.database (j + 1)).user? m.userId = some (m.joining name)) ∧
        ∀ id, id ∉ members.map Member.userId →
          (t.database (j + 1)).user? id = (t.database j).user? id := by
  constructor
  · intro id i h hi
    obtain ⟨w, j, a, p, hverdict, hcreates, hdone, m, hmove, hsettled⟩ := exists_verdict h hi
    cases a with
    | createPullRequest id' name authorId =>
        obtain ⟨hid, -⟩ := hcreates
        cases hid
        exact ⟨w, j, name, authorId, p, hverdict, hdone, addPullRequest_of_settled hmove hsettled⟩
    | createTeam => cases hcreates.1
    | setActive | merge | reassign | deactivateTeam => cases hcreates
  · intro name i h hi
    obtain ⟨w, j, a, team, hverdict, hcreates, hdone, m, hmove, hsettled⟩ := exists_verdict h hi
    cases a with
    | createTeam name' members =>
        obtain ⟨hname, -, -, hnodup⟩ := hcreates
        cases hname
        obtain ⟨rfl, hstored⟩ := addTeam_of_settled hmove hnodup hsettled
        exact ⟨w, j, members, hverdict, hdone, hstored⟩
    | createPullRequest => cases hcreates.1
    | setActive | merge | reassign | deactivateTeam => cases hcreates

/-- Two clients create a team and then two others a pull request, each after all of them have found
it absent.  In both contests the one that came second wins. -/
def tied : Trace .unrepeated := .ofList
  (.flatten [
    [.arrive (.createTeam "web" [⟨"a", "Ann", true⟩, ⟨"b", "Bob", false⟩]),
      .arrive (.createTeam "web" [⟨"a", "Eve", true⟩, ⟨"c", "Cid", true⟩])],
    [.act 0 [] 4, .act 1 [] 4, .act 0 [] 5, .act 1 [] 6, .act 1 [] 6, .act 0 [] 6, .act 1 [] 6],
    [.arrive (.createPullRequest "p" "Fix" "a"), .arrive (.createPullRequest "p" "Mend" "c")],
    .replicate 4 (.act 2 ["c"] 7), .replicate 7 (.act 3 ["a"] 8), .replicate 2 (.act 2 [] 9)])
  (by decide +kernel)

theorem tied_contends_team (h : i = 0 ∨ i = 1) : tied.Contends 0 9 (.team "web") i := by
  rcases h with rfl | rfl
  · have hdone : tied.client? 0 9 = some ⟨.createTeam "web" [⟨"a", "Ann", true⟩,
        ⟨"b", "Bob", false⟩], .done (.error (.teamExists "web"))⟩ := by cbv
    exact ⟨rfl, ⟨_, _, hdone, rfl, by decide, by decide, by decide⟩, fun j _ _ _ => tied.allowed j⟩
  · have hdone : tied.client? 1 9 = some ⟨.createTeam "web" [⟨"a", "Eve", true⟩,
        ⟨"c", "Cid", true⟩],
        .done (.ok ⟨"web", [⟨"a", "Eve", true⟩, ⟨"c", "Cid", true⟩]⟩)⟩ := by cbv
    exact ⟨rfl, ⟨_, _, hdone, rfl, by decide, by decide, by decide⟩, fun j _ _ _ => tied.allowed j⟩

theorem tied_contends_pullRequest (h : i = 2 ∨ i = 3) :
    tied.Contends 9 24 (.pullRequest "p") i := by
  rcases h with rfl | rfl
  · have hdone : tied.client? 2 24 = some ⟨.createPullRequest "p" "Fix" "a",
        .done (.error (.pullRequestExists "p"))⟩ := by cbv
    have hauthor : (tied.database 9).user? "a" = some ⟨"a", "Eve", "web", true⟩ := by cbv
    have habsent : tied.client? 2 9 = none := by cbv
    exact ⟨habsent, ⟨_, _, hdone, rfl, by decide, by decide, by decide, _, hauthor⟩,
      fun j _ _ _ => tied.allowed j⟩
  · have hdone : tied.client? 3 24 = some ⟨.createPullRequest "p" "Mend" "c",
        .done (.ok ⟨"p", "Mend", "c", .opened, ["a"], 8, none⟩)⟩ := by cbv
    have hauthor : (tied.database 9).user? "c" = some ⟨"c", "Cid", "web", true⟩ := by cbv
    have habsent : tied.client? 3 9 = none := by cbv
    exact ⟨habsent, ⟨_, _, hdone, rfl, by decide, by decide, by decide, _, hauthor⟩,
      fun j _ _ _ => tied.allowed j⟩

theorem contest_tied :
    tied.Contest 0 9 (.team "web") ∧ tied.Contends 0 9 (.team "web") 0 ∧
      tied.Contends 0 9 (.team "web") 1 ∧ tied.Contest 9 24 (.pullRequest "p") ∧
      tied.Contends 9 24 (.pullRequest "p") 2 ∧ tied.Contends 9 24 (.pullRequest "p") 3 ∧
      (∃ w j, ∃ members : List Member, tied.Verdict 0 9 (.team "web") w j ∧
        ∀ m ∈ members, (tied.database (j + 1)).user? m.userId = some (m.joining "web")) ∧
      ∃ w j p, tied.Verdict 9 24 (.pullRequest "p") w j ∧
        (tied.database (j + 1)).pullRequest? "p" = some p := by
  have hteam : tied.Contest 0 9 (.team "web") := by
    refine ⟨by decide, by cbv, fun j _ _ => calm_ofList (by decide) j, ?_⟩
    intro i j m _ hlt hmove _
    apply tied_contends_team
    obtain ⟨_, _, hturn⟩ := acts_of_move? hmove
    interval_cases j <;> cases hturn <;> decide
  have hpull : tied.Contest 9 24 (.pullRequest "p") := by
    refine ⟨by decide, by cbv, fun j _ _ => calm_ofList (by decide) j, ?_⟩
    intro i j m hle hlt hmove _
    apply tied_contends_pullRequest
    obtain ⟨_, _, hturn⟩ := acts_of_move? hmove
    interval_cases j <;> cases hturn <;> decide
  obtain ⟨w, j, members, hverdict, -, -, husers, -⟩ :=
    (tied.contest 0 9).2 "web" 0 hteam (tied_contends_team (.inl rfl))
  obtain ⟨w', j', _, _, p, hverdict', -, -, hp, -⟩ :=
    (tied.contest 9 24).1 "p" 2 hpull (tied_contends_pullRequest (.inl rfl))
  exact ⟨hteam, tied_contends_team (.inl rfl), tied_contends_team (.inr rfl), hpull,
    tied_contends_pullRequest (.inl rfl), tied_contends_pullRequest (.inr rfl),
    ⟨w, j, members, hverdict, husers⟩, w', j', p, hverdict', hp⟩

end Trace

end ReviewRota
