import Mathlib
import ReviewRota.Proofs.Assignment

/-!
# Replacing a reviewer beside other clients

The replacement is chosen from what was read some time before, and checked once more when it is
written.  Not checked again is that it is not the author; but the author was excluded from the
candidates, and stays the author.
-/

namespace ReviewRota

open Database

structure Replaced (id old new : String) (db db' : Database) : Prop where
  pullRequest : ∃ p, db.pullRequest? id = some p ∧ p.status = .opened ∧ new ≠ p.authorId ∧
    new ∉ p.reviewers ∧ ∃ k, p.reviewers[k]? = some old ∧
      db'.pullRequest? id = some { p with reviewers := p.reviewers.set k new }
  active : ∃ u, db.user? new = some u ∧ u.isActive = true
  teams : db'.teams = db.teams
  users : db'.users = db.users
  pullRequests : db'.pullRequests = db.pullRequests
  reviewers : ∀ r, r ∈ db'.reviewers.rows ↔ r ∈ db.reviewers.rows ∧ r.slot ≠ ⟨id, old⟩ ∨
    ∃ position, ⟨⟨id, old⟩, position⟩ ∈ db.reviewers.rows ∧ r = ⟨⟨id, new⟩, position⟩

namespace Database

variable {db : Database} {id old new : String}

theorem exists_set_eq_replace (new : String) {l : List String} (h : old ∈ l) :
    ∃ k, l[k]? = some old ∧ l.replace old new = l.set k new := by
  induction l with
  | nil => cases h
  | cons a rest ih =>
      by_cases ha : old = a
      · exact ⟨0, by simp [ha], by simp [ha]⟩
      · have hbeq : (old == a) = false := by simpa using ha
        rcases List.mem_cons.1 h with hhead | hrest
        · exact absurd hhead ha
        · obtain ⟨k, hk, hset⟩ := ih hrest
          refine ⟨k + 1, hk, ?_⟩
          rw [List.replace_cons, hbeq, hset]
          rfl

theorem pullRequest?_swapReviewer {p : PullRequest} (hp : db.pullRequest? id = some p)
    (hold : old ∈ p.reviewers) (hnew : new ∉ p.reviewers)
    (hpos : ((db.rowsOf id).map ReviewerRow.position).Nodup) :
    ∃ k, p.reviewers[k]? = some old ∧ (db.swapReviewer ⟨id, old⟩ new).pullRequest? id =
      some { p with reviewers := p.reviewers.set k new } := by
  obtain ⟨row, hrow, rfl⟩ := Option.map_eq_some_iff.1 hp
  obtain ⟨k, hk, hset⟩ : ∃ k, (db.reviewersOf id)[k]? = some old ∧
      (db.reviewersOf id).replace old new = (db.reviewersOf id).set k new :=
    exists_set_eq_replace new hold
  refine ⟨k, hk, ?_⟩
  have hold := mem_reviewersOf.1 hold
  have hnew : db.reviewers.contains ⟨id, new⟩ = false := by
    rwa [← Bool.not_eq_true, ← mem_reviewersOf]
  rw [pullRequest?, pullRequests_swapReviewer, hrow, reviewersOf_swapReviewer hold hnew hpos, hset]
  rfl

theorem replaced_swapReviewer (hdb : db.Layout) (hcan : db.canReplace id old new = true)
    (hauthor : ∀ author, db.authorOf? id = some author → new ≠ author) :
    Replaced id old new db (db.swapReviewer ⟨id, old⟩ new) := by
  obtain ⟨hold, ⟨row, hrow, hopen⟩, hactive, hnew⟩ := canReplace_iff.1 hcan
  have hp : db.pullRequest? id = some (row.withReviewers (db.reviewersOf id)) := by
    rw [pullRequest?, hrow]
    rfl
  have hfresh : new ∉ db.reviewersOf id := by
    rw [mem_reviewersOf, hnew]
    exact Bool.false_ne_true
  constructor
  case pullRequest =>
    exact ⟨_, hp, hopen, hauthor _ (authorOf?_of_pullRequest? hp), hfresh,
      pullRequest?_swapReviewer hp (mem_reviewersOf.2 hold) hfresh hdb.positions_nodup⟩
  case active => exact hactive
  case teams => exact teams_swapReviewer
  case users => exact users_swapReviewer
  case pullRequests => exact pullRequests_swapReviewer
  case reviewers => exact fun _ => mem_swapReviewer hold hnew

end Database

namespace Replaced

variable {db db' : Database} {id old new : String}

theorem not_mem_old (h : Replaced id old new db db') : old ∉ db'.reviewersOf id := by
  obtain ⟨p, hp, -, -, hfresh, k, hk, -⟩ := h.pullRequest
  obtain ⟨row, -, -, rfl⟩ := pullRequest?_eq_some_iff.1 hp
  rw [mem_reviewersOf, Table.contains_iff]
  rintro ⟨r, hr, hslot⟩
  rcases (h.reviewers r).1 hr with ⟨-, hne⟩ | ⟨position, -, rfl⟩
  · exact hne hslot
  · cases hslot
    exact hfresh (List.mem_of_getElem? hk)

theorem reviewersOf_eq (h : Replaced id old new db db') :
    new ∉ db.reviewersOf id ∧ ∃ k, (db.reviewersOf id)[k]? = some old ∧
      db'.reviewersOf id = (db.reviewersOf id).set k new := by
  obtain ⟨p, hp, -, -, hfresh, k, hk, hp'⟩ := h.pullRequest
  obtain ⟨row, -, -, rfl⟩ := pullRequest?_eq_some_iff.1 hp
  obtain ⟨row', -, -, heq⟩ := pullRequest?_eq_some_iff.1 hp'
  exact ⟨hfresh, k, hk, congrArg PullRequest.reviewers heq⟩

end Replaced

namespace Service

variable {α : Type}

def chooses : Service α → Bool
  | .choose .. => true
  | .done _ | .call .. | .readClock _ | .note .. => false

def succeeds : Service α → Bool
  | .done result => result.isOk
  | .choose .. | .call .. | .readClock _ | .note .. => false

end Service

namespace Trace

variable {i j n k k' : Nat} {id old old' : String} {r r' : Reassignment}

/-- In its turn `k` a client replaced a reviewer, and in no other turn it changed anything. -/
structure Replaces {contract : Contract} (t : Trace contract) (i k : Nat) (id old : String)
    (r : Reassignment) : Prop where
  acts : t.Acts i k
  replaced : Replaced id old r.replacedBy (t.database k) (t.database (k + 1))
  answer : (t.database (k + 1)).pullRequest? id = some r.pullRequest
  silent : ∀ k', t.Acts i k' → k' ≠ k → t.database (k' + 1) = t.database k'

variable {t : Trace .members}

theorem replaces_of_ok (h : t.client? i n = some ⟨.reassign id old, .done (.ok r)⟩) :
    ∃ k < n, t.Replaces i k id old r := by
  obtain ⟨m, hlt, hmove, hsettled, hsilent⟩ := t.settled_of_ok h
  obtain ⟨hbefore, hafter⟩ := database_of_move? hmove
  have heffect := hsettled.effect
  rw [hbefore, hafter] at heffect
  rcases replaceReviewer_ok heffect with ⟨hnone, -⟩ | ⟨p, hp, hcan, hswap, hanswer⟩
  · cases hnone
  · cases hp
    refine ⟨m.time, hlt, acts_of_move? hmove, ?_, hanswer, hsilent⟩
    rw [hswap]
    refine replaced_swapReviewer (t.layout m.time) hcan fun author hauthor => ?_
    exact replacement_ne_author hmove hsettled.1 hauthor

/-- Between two turns nobody but two clients changes the reviewers of a pull request. -/
def OnlyThey {contract : Contract} (t : Trace contract) (i j k k' : Nat) (id : String) : Prop :=
  ∀ n, k < n → n < k' → ∀ l, t.Acts l n → l ≠ i → l ≠ j →
    (t.database (n + 1)).reviewersOf id = (t.database n).reviewersOf id

theorem kept_between {P : Database → Prop} (hi : t.Replaces i k id old r)
    (hj : t.Replaces j k' id old' r') (hfirst : P (t.database (k + 1)))
    (hothers : ∀ n, k < n → n < k' → ∀ l, t.Acts l n → l ≠ i → l ≠ j →
      P (t.database n) → P (t.database (n + 1)))
    (hlt : k < n) (hle : n ≤ k') : P (t.database n) := by
  -- The two clients have their one change each outside these turns.
  induction hlt with
  | refl => exact hfirst
  | @step n hlt ih =>
      have hbefore := ih (Nat.le_of_lt hle)
      rcases t.database_succ n with hsame | ⟨l, m, hmove⟩
      · rwa [hsame]
      · have hacts := acts_of_move? hmove
        by_cases hli : l = i
        · rwa [hi.silent n (hli ▸ hacts) (Nat.ne_of_gt hlt)]
        · by_cases hlj : l = j
          · rwa [hj.silent n (hlj ▸ hacts) (Nat.ne_of_lt hle)]
          · exact hothers n hlt hle l hacts hli hlj hbefore

theorem exists_bringing_back (hi : t.Replaces i k id old r) (hj : t.Replaces j k' id old r')
    (hkk' : k < k') : ∃ n l, k < n ∧ n < k' ∧ t.Acts l n ∧ l ≠ i ∧ l ≠ j ∧
      old ∉ (t.database n).reviewersOf id ∧ old ∈ (t.database (n + 1)).reviewersOf id := by
  by_contra hnobody
  have hgone : old ∉ (t.database k').reviewersOf id := by
    refine kept_between (P := fun db => old ∉ db.reviewersOf id) hi hj hi.replaced.not_mem_old ?_
      hkk' (Nat.le_refl k')
    intro n hlt hle l hacts hli hlj hbefore hafter
    exact hnobody ⟨n, l, hlt, hle, hacts, hli, hlj, hbefore, hafter⟩
  obtain ⟨-, b, hb, -⟩ := hj.replaced.reviewersOf_eq
  exact hgone (List.mem_of_getElem? hb)

theorem reviewersOf_after_both (hi : t.Replaces i k id old r) (hj : t.Replaces j k' id old' r')
    (hkk' : k < k') (hothers : t.OnlyThey i j k k' id)
    (hold' : old' ∈ (t.database k).reviewersOf id) :
    ∃ a b, a ≠ b ∧ ((t.database k).reviewersOf id)[a]? = some old ∧
      ((t.database k).reviewersOf id)[b]? = some old' ∧
      (t.database (k' + 1)).reviewersOf id =
        (((t.database k).reviewersOf id).set a r.replacedBy).set b r'.replacedBy := by
  have hbetween : (t.database k').reviewersOf id = (t.database (k + 1)).reviewersOf id :=
    kept_between (P := fun db => db.reviewersOf id = _) hi hj rfl
      (fun n hlt hle l hacts hli hlj hbefore =>
        (hothers n hlt hle l hacts hli hlj).trans hbefore) hkk' (Nat.le_refl k')
  obtain ⟨hfresh, a, ha, hfirst⟩ := hi.replaced.reviewersOf_eq
  obtain ⟨-, b, hb, hlast⟩ := hj.replaced.reviewersOf_eq
  rw [hbetween, hfirst] at hb hlast
  have hab : a ≠ b := by
    -- Else the second would replace whom the first put there, who was not on the list before.
    rintro rfl
    rw [List.getElem?_set_self (List.getElem?_eq_some_iff.1 ha).1] at hb
    cases hb
    exact hfresh hold'
  rw [List.getElem?_set_ne hab] at hb
  exact ⟨a, b, hab, ha, hb, hlast⟩

/-- A reassignment that returns an error leaves no trace.  One that succeeds gives away the place in
one turn, on the pull request as it is then.  Of two that give away the same place the second finds
that somebody else has brought the reviewer back; two that give away different places both take
effect. -/
theorem reassignment (t : Trace .members) (i n : Nat) (id old : String)
    (result : Except Error Reassignment)
    (h : t.client? i n = some ⟨.reassign id old, .done result⟩) :
    (∀ e, result = .error e → ∀ k, t.Acts i k → t.database (k + 1) = t.database k) ∧
      ∀ r, result = .ok r → ∃ k < n, t.Replaces i k id old r ∧
        ∀ j k' old' r', k < k' → t.Replaces j k' id old' r' →
          (old' = old → ∃ n l, k < n ∧ n < k' ∧ t.Acts l n ∧ l ≠ i ∧ l ≠ j ∧
            old ∉ (t.database n).reviewersOf id ∧ old ∈ (t.database (n + 1)).reviewersOf id) ∧
          (t.OnlyThey i j k k' id → old' ∈ (t.database k).reviewersOf id →
            ∃ a b, a ≠ b ∧ ((t.database k).reviewersOf id)[a]? = some old ∧
              ((t.database k).reviewersOf id)[b]? = some old' ∧
              (t.database (k' + 1)).reviewersOf id =
                (((t.database k).reviewersOf id).set a r.replacedBy).set b r'.replacedBy) := by
  refine ⟨?_, ?_⟩
  · rintro e rfl k hk
    exact t.database_of_error h hk
  · rintro r rfl
    obtain ⟨k, hlt, hi⟩ := replaces_of_ok h
    refine ⟨k, hlt, hi, fun j k' old' r' hkk' hj => ⟨?_, ?_⟩⟩
    · rintro rfl
      exact exists_bringing_back hi hj hkk'
    · exact reviewersOf_after_both hi hj hkk'

def crossing : Trace .members := .ofList
  ([Turn.arrive (.createTeam "web" [⟨"a", "Ann", true⟩, ⟨"b", "Bob", true⟩, ⟨"c", "Cid", true⟩,
      ⟨"d", "Dan", true⟩, ⟨"e", "Eve", true⟩])] ++ List.replicate 5 (Turn.act 0 [] 5) ++
    [Turn.arrive (.createPullRequest "p" "Fix" "a")] ++
    List.replicate 7 (Turn.act 1 ["b", "c"] 6) ++
    [Turn.arrive (.reassign "p" "b"), Turn.arrive (.reassign "p" "c")] ++
    List.replicate 4 (Turn.act 2 ["d"] 7) ++ List.replicate 6 (Turn.act 3 ["e"] 7) ++
    List.replicate 2 (Turn.act 2 [] 7))
  (of_decide_eq_true (by cbv))

theorem reassignment_crossing :
    ∃ r, crossing.client? 2 28 = some ⟨.reassign "p" "b", .done (.ok r)⟩ ∧ r.replacedBy = "d" ∧
      r.pullRequest.reviewers = ["d", "e"] ∧
      ∃ k < 28, crossing.Replaces 2 k "p" "b" r := by
  have hdone : crossing.client? 2 28 = some ⟨.reassign "p" "b",
      .done (.ok ⟨⟨"p", "Fix", "a", .opened, ["d", "e"], 6, none⟩, "d"⟩)⟩ := by cbv
  obtain ⟨k, hlt, hk, -⟩ := (crossing.reassignment 2 28 "p" "b" _ hdone).2 _ rfl
  exact ⟨_, hdone, rfl, rfl, k, hlt, hk⟩

/-- A reassignment that has looked up all there is and is about to choose who gets the place. -/
def choosing {contract : Contract} (t : Trace contract) (i n : Nat) (id old : String) : Bool :=
  (t.client? i n).any fun client => client.action = .reassign id old && client.rest.chooses

def reassigned {contract : Contract} (t : Trace contract) (i n : Nat) (id old : String) : Bool :=
  (t.client? i n).any fun client => client.action = .reassign id old && client.rest.succeeds

theorem exists_ok_of_reassigned (h : t.reassigned i n id old = true) :
    ∃ r, t.client? i n = some ⟨.reassign id old, .done (.ok r)⟩ := by
  obtain ⟨⟨action, rest⟩, hclient, h⟩ := (Option.any_eq_true _ _).1 h
  obtain ⟨haction, hsucceeds⟩ := Bool.and_eq_true_iff.1 h
  cases of_decide_eq_true haction
  match rest, hsucceeds with
  | .done (.ok r), _ => exact ⟨r, hclient⟩

def returning : Trace .members := .ofList
  (.flatten [
    [.arrive (.createTeam "web" [⟨"a", "Ann", true⟩, ⟨"b", "Bob", true⟩, ⟨"c", "Cid", true⟩])],
    .replicate 5 (.act 0 [] 5),
    [.arrive (.createPullRequest "p" "Fix" "a")], .replicate 7 (.act 1 ["b"] 6),
    [.arrive (.reassign "p" "b"), .arrive (.reassign "p" "b")],
    .replicate 3 (.act 2 [] 7), .replicate 6 (.act 3 ["c"] 7),
    [.arrive (.reassign "p" "c")], .replicate 6 (.act 4 ["b"] 8), .replicate 3 (.act 2 ["c"] 9)])
  (by decide +kernel)

/-- Of two clients that are about to give away the same place both may succeed. -/
theorem place_given_away_twice :
    ¬ ∀ (t : Trace .members) (i j m n : Nat) (id old : String) (r r' : Reassignment), i ≠ j →
      t.choosing i m id old = true → t.choosing j m id old = true →
      t.client? i n = some ⟨.reassign id old, .done (.ok r)⟩ →
      t.client? j n ≠ some ⟨.reassign id old, .done (.ok r')⟩ := by
  intro hclaim
  have hchoosing : returning.choosing 2 22 "p" "b" = true := by decide +kernel
  have hchoosing' : returning.choosing 3 22 "p" "b" = true := by decide +kernel
  have hdone : returning.reassigned 2 35 "p" "b" = true := by decide +kernel
  have hdone' : returning.reassigned 3 35 "p" "b" = true := by decide +kernel
  obtain ⟨r, hr⟩ := exists_ok_of_reassigned hdone
  obtain ⟨r', hr'⟩ := exists_ok_of_reassigned hdone'
  exact hclaim returning 2 3 22 35 "p" "b" r r' (by decide) hchoosing hchoosing' hr hr'

end Trace

end ReviewRota
