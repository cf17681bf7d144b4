import Mathlib
import ReviewRota.Proofs.Assignment
import ReviewRota.Proofs.Calls
import ReviewRota.Proofs.OffDuty

/-!
# Merging is final

Whether a pull request is merged is asked on a stale read, by those who merge and by those who
replace reviewers.  It is final all the same: the first time of merging stays, and both a
replacement and a deactivation look only at pull requests that are open when they write.
-/

namespace ReviewRota

open Database

namespace Database

variable {db db' db'' : Database} {c : StoreCall} {id : String} {p q : PullRequest}

theorem get?_pullRequests_transition (htransition : Transition db c db') (id : String) :
    db'.pullRequests.get? id = db.pullRequests.get? id ∨
      (∃ p, c = .createPullRequest p ∧ p.id = id ∧ db.pullRequests.get? id = none ∧
        db'.pullRequests.get? id = some p.row) ∨
      ∃ now, c = .setMerged id now ∧
        db'.pullRequests.get? id = (db.pullRequests.get? id).map (merging id now) := by
  cases htransition with
  | createTeam _ | setActive _ => exact .inl rfl
  | @createPullRequest p habsent _ _ _ =>
      have hget : (db.addPullRequest p).pullRequests.get? id =
          if p.id = id then some p.row else db.pullRequests.get? id := Table.get?_insert
      by_cases hid : p.id = id
      · rw [if_pos hid] at hget
        exact .inr (.inl ⟨p, rfl, hid, Table.get?_eq_none_iff.2 (hid ▸ habsent), hget⟩)
      · rw [if_neg hid] at hget
        exact .inl hget
  | @setMerged other now =>
      have hget : (db.markMerged other now).pullRequests.get? id =
          (db.pullRequests.get? id).map (merging other now) := by
        rw [markMerged, Table.get?_map]
      by_cases hid : other = id
      · subst hid
        exact .inr (.inr ⟨now, rfl, hget⟩)
      · left
        rw [hget]
        cases hrow : db.pullRequests.get? id with
        | none => rfl
        | some row =>
            have hne : row.id ≠ other := fun h => hid (h ▸ (Table.get?_eq_some_iff.1 hrow).2)
            rw [Option.map_some, merging, if_neg hne]
  | replaceReviewer _ => exact .inl (by rw [pullRequests_swapReviewer])
  | deactivateTeam _ => exact .inl (by rw [pullRequests_standDown])

theorem pullRequest?_eq_some_iff_get? :
    db.pullRequest? id = some p ↔
      ∃ row, db.pullRequests.get? id = some row ∧ row.withReviewers (db.reviewersOf id) = p :=
  Option.map_eq_some_iff

/-! ## Nothing disappears -/

/-- What is stored in the one database is stored in the other, and pull requests agree in what
they were created with. -/
structure Grows (db db' : Database) : Prop where
  teams : ∀ name, db.hasTeam name = true → db'.hasTeam name = true
  users : ∀ id u, db.user? id = some u → ∃ u', db'.user? id = some u'
  pullRequests : ∀ id p, db.pullRequest? id = some p → ∃ p', db'.pullRequest? id = some p' ∧
    p'.name = p.name ∧ p'.authorId = p.authorId ∧ p'.createdAt = p.createdAt

theorem Grows.refl (db : Database) : db.Grows db where
  teams _ h := h
  users _ u h := ⟨u, h⟩
  pullRequests _ p h := ⟨p, h, rfl, rfl, rfl⟩

theorem Grows.trans (h : db.Grows db') (h' : db'.Grows db'') : db.Grows db'' where
  teams name hname := h'.teams name (h.teams name hname)
  users id u hu := by
    obtain ⟨u', hu'⟩ := h.users id u hu
    exact h'.users id u' hu'
  pullRequests id p hp := by
    obtain ⟨p', hp', hname, hauthor, hcreated⟩ := h.pullRequests id p hp
    obtain ⟨p'', hp'', hname', hauthor', hcreated'⟩ := h'.pullRequests id p' hp'
    exact ⟨p'', hp'', hname'.trans hname, hauthor'.trans hauthor, hcreated'.trans hcreated⟩

theorem contains_users_transition {userId : String} (htransition : Transition db c db')
    (h : db.users.contains userId = true) : db'.users.contains userId = true := by
  cases htransition with
  | createTeam _ => exact Table.contains_insertAll_of_contains h
  | setActive _ => rwa [updateUser, Table.contains_map]
  | createPullRequest _ | setMerged => exact h
  | replaceReviewer _ => rwa [users_swapReviewer]
  | deactivateTeam _ => rwa [contains_standDown]

theorem hasTeam_transition {name : String} (htransition : Transition db c db')
    (h : db.hasTeam name = true) : db'.hasTeam name = true := by
  cases htransition with
  | createTeam _ => exact Table.contains_insert.2 (.inr h)
  | setActive _ | createPullRequest _ | setMerged => exact h
  | replaceReviewer _ => rwa [hasTeam, teams_swapReviewer]
  | deactivateTeam _ => rwa [hasTeam, teams_standDown]

theorem grows_of_transition (htransition : Transition db c db') : db.Grows db' where
  teams _ := hasTeam_transition htransition
  users _ _ hu :=
    exists_of_contains_user (contains_users_transition htransition (contains_of_user? hu))
  pullRequests id p hp := by
    obtain ⟨row, hrow, rfl⟩ := pullRequest?_eq_some_iff_get?.1 hp
    rcases get?_pullRequests_transition htransition id with hsame | ⟨-, -, -, habsent, -⟩ |
      ⟨now, -, hmerging⟩
    · exact ⟨_, pullRequest?_eq_some_iff_get?.2 ⟨row, hsame.trans hrow, rfl⟩, rfl, rfl, rfl⟩
    · rw [hrow] at habsent
      cases habsent
    · rw [hrow, Option.map_some] at hmerging
      refine ⟨_, pullRequest?_eq_some_iff_get?.2 ⟨_, hmerging, rfl⟩, ?_⟩
      unfold merging
      split <;> exact ⟨rfl, rfl, rfl⟩

/-! ## Merged pull requests -/

theorem reviewersOf_transition_of_merged (htransition : Transition db c db')
    (hp : db.pullRequest? id = some p) (hmerged : p.status = .merged) :
    db'.reviewersOf id = db.reviewersOf id := by
  obtain ⟨row, hrow, rfl⟩ := pullRequest?_eq_some_iff_get?.1 hp
  obtain ⟨hstored, rfl⟩ := Table.get?_eq_some_iff.1 hrow
  change row.status = .merged at hmerged
  cases htransition with
  | createTeam _ | setActive _ | setMerged => rfl
  | @createPullRequest q habsent _ _ _ =>
      refine reviewersOf_addPullRequest_of_ne ?_
      rintro hid
      rw [← hid, ← Table.get?_eq_none_iff, hrow] at habsent
      cases habsent
  | @replaceReviewer other old new hcan =>
      refine reviewersOf_swapReviewer_of_ne ?_
      rintro rfl
      obtain ⟨-, ⟨row', hrow', hopen⟩, -⟩ := canReplace_iff.1 hcan
      rw [hrow] at hrow'
      cases hrow'
      rw [hmerged] at hopen
      cases hopen
  | @deactivateTeam team now _ =>
      have hunaffected : ¬ db.affects (db.activeMembers team) row = true := by
        simp [affects, hmerged]
      rw [reviewersOf_standDown hstored, if_neg hunaffected]

theorem pullRequest?_transition_of_merged (hdb : db.Layout) (htransition : Transition db c db')
    (hp : db.pullRequest? id = some p) (hmerged : p.status = .merged) :
    db'.pullRequest? id = some p := by
  have hreviewers := reviewersOf_transition_of_merged htransition hp hmerged
  obtain ⟨row, hrow, rfl⟩ := pullRequest?_eq_some_iff_get?.1 hp
  suffices hrow' : db'.pullRequests.get? id = some row from
    pullRequest?_eq_some_iff_get?.2 ⟨row, hrow', by rw [hreviewers]⟩
  rcases get?_pullRequests_transition htransition id with hsame | ⟨-, -, -, habsent, -⟩ |
    ⟨now, -, hmerging⟩
  · rwa [hsame]
  · rw [hrow] at habsent
    cases habsent
  · obtain ⟨hstored, rfl⟩ := Table.get?_eq_some_iff.1 hrow
    change row.status = .merged at hmerged
    obtain ⟨time, htime⟩ := Option.isSome_iff_exists.1 ((hdb.status row hstored).1 hmerged)
    -- The time that is there wins over the new one.
    have hsame : merging row.id now row = row := by
      obtain ⟨_, _, _, _, _, _⟩ := row
      simp_all [merging]
    rw [hmerging, hrow, Option.map_some, hsame]

theorem merged_of_transition {contract : Contract} {h : List Move} (hdb : db.Layout)
    (htransition : Transition db c db') (hfounded : c.Founded contract h)
    (hp : db'.pullRequest? id = some p) (hmerged : p.status = .merged)
    (hbefore : ∀ q, db.pullRequest? id = some q → q.status ≠ .merged) :
    ∃ q now, db.pullRequest? id = some q ∧ c = .setMerged id now ∧
      p = { q with status := .merged, mergedAt := some now } := by
  obtain ⟨row', hrow', rfl⟩ := pullRequest?_eq_some_iff_get?.1 hp
  change row'.status = .merged at hmerged
  rcases get?_pullRequests_transition htransition id with hsame | ⟨p, rfl, -, -, hnew⟩ |
    ⟨now, rfl, hmerging⟩
  · rw [hsame] at hrow'
    exact absurd hmerged (hbefore _ (pullRequest?_eq_some_iff_get?.2 ⟨row', hrow', rfl⟩))
  · obtain ⟨hopen, -⟩ := hfounded
    rw [hnew] at hrow'
    cases hrow'
    change p.status = .merged at hmerged
    rw [hopen] at hmerged
    cases hmerged
  · cases hrow : db.pullRequests.get? id with
    | none =>
        rw [hmerging, hrow] at hrow'
        cases hrow'
    | some row =>
        have hq := pullRequest?_eq_some_iff_get?.2 ⟨row, hrow, rfl⟩
        refine ⟨_, now, hq, rfl, ?_⟩
        rw [hmerging, hrow] at hrow'
        cases hrow'
        obtain ⟨hstored, rfl⟩ := Table.get?_eq_some_iff.1 hrow
        have hnever : row.mergedAt = none := by
          rw [← Option.not_isSome_iff_eq_none, ← hdb.status row hstored]
          exact hbefore _ hq
        have hlist : db'.reviewersOf row.id = db.reviewersOf row.id := by
          cases htransition
          rfl
        simp [merging, hnever, hlist, PullRequestRow.withReviewers]

theorem status_of_markMerged {now : Int64} (hp : (db.markMerged id now).pullRequest? id = some p) :
    p.status = .merged := by
  obtain ⟨row', hrow', rfl⟩ := pullRequest?_eq_some_iff_get?.1 hp
  obtain ⟨hstored, hid⟩ := Table.get?_eq_some_iff.1 hrow'
  obtain ⟨row, -, rfl⟩ := List.mem_map.1 hstored
  rw [merging_id] at hid
  simp [merging, hid, PullRequestRow.withReviewers]

theorem replaceReviewer_of_merged {rejects : Rejects} {old new : String}
    (hp : db.pullRequest? id = some p) (hmerged : p.status = .merged) :
    db.replaceReviewer rejects id old new = .error (.pullRequestMerged id) := by
  have hcannot : ¬ db.canReplace id old new = true := by
    rw [canReplace_iff]
    rintro ⟨-, ⟨row, hrow, hopen⟩, -⟩
    rw [pullRequest?_eq_some_iff_get?.2 ⟨row, hrow, rfl⟩] at hp
    cases hp
    change row.status = .merged at hmerged
    rw [hopen] at hmerged
    cases hmerged
  have hrefused : p.requireOpen = .error (.pullRequestMerged id) := by
    simp [PullRequest.requireOpen, PullRequest.isMerged, hmerged, id_of_pullRequest? hp]
  unfold replaceReviewer
  rw [if_neg hcannot, hp]
  simp only [hrefused]
  rfl

end Database

namespace Trace

variable {contract : Contract} {t : Trace contract} {i k k' n : Nat} {id : String}
  {p p' : PullRequest}

theorem grows (t : Trace contract) (hle : k ≤ n) : (t.database k).Grows (t.database n) :=
  t.kept (P := (t.database k).Grows) (.refl _)
    (fun _ _ _ _ h htransition => h.trans (grows_of_transition htransition)) hle

theorem pullRequest?_of_merged (hle : k ≤ n) (hp : (t.database k).pullRequest? id = some p)
    (hmerged : p.status = .merged) : (t.database n).pullRequest? id = some p :=
  t.kept (P := fun db => db.pullRequest? id = some p) hp
    (fun n _ _ _ h htransition =>
      pullRequest?_transition_of_merged (t.layout n) htransition h hmerged) hle

structure Merges (t : Trace contract) (k : Nat) (id : String) (p : PullRequest) : Prop where
  merged : ∃ q now, (t.database k).pullRequest? id = some q ∧ q.status = .opened ∧
    p = { q with status := .merged, mergedAt := some now } ∧
      ∃ i m, t.move? i k = some m ∧ m.call = .setMerged id now
  stored : (t.database (k + 1)).pullRequest? id = some p

namespace Merges

theorem status_eq (h : t.Merges k id p) : p.status = .merged := by
  obtain ⟨q, now, -, -, rfl, -⟩ := h.merged
  rfl

theorem stays (h : t.Merges k id p) (hlt : k < n) : (t.database n).pullRequest? id = some p :=
  pullRequest?_of_merged hlt h.stored h.status_eq

theorem le (h : t.Merges k id p) (h' : t.Merges k' id p') : k' ≤ k := by
  by_contra hlt
  obtain ⟨q, now, hq, hopen, -⟩ := h'.merged
  rw [h.stays (Nat.lt_of_not_le hlt)] at hq
  cases hq
  rw [h.status_eq] at hopen
  cases hopen

theorem unique (h : t.Merges k id p) (h' : t.Merges k' id p') : p' = p := by
  obtain rfl := Nat.le_antisymm (h'.le h) (h.le h')
  have hstored := h'.stored
  rw [h.stored] at hstored
  cases hstored
  rfl

end Merges

theorem exists_merges (hp : (t.database n).pullRequest? id = some p)
    (hmerged : p.status = .merged) :
    ∃ k < n, t.Merges k id p := by
  induction n with
  | zero => cases hp
  | succ n ih =>
      by_cases hbefore : ∃ q, (t.database n).pullRequest? id = some q ∧ q.status = .merged
      · obtain ⟨q, hq, hmerged'⟩ := hbefore
        rw [pullRequest?_of_merged (Nat.le_succ n) hq hmerged'] at hp
        cases hp
        obtain ⟨k, hlt, hk⟩ := ih hq
        exact ⟨k, Nat.lt_succ_of_lt hlt, hk⟩
      · have hbefore : ∀ q, (t.database n).pullRequest? id = some q → q.status ≠ .merged :=
          fun q hq hmerged' => hbefore ⟨q, hq, hmerged'⟩
        rcases t.database_succ n with hsame | ⟨i, m, hmove⟩
        · rw [hsame] at hp
          exact absurd hmerged (hbefore p hp)
        rcases transition_of_move? hmove with hsame | htransition
        · rw [hsame] at hp
          exact absurd hmerged (hbefore p hp)
        obtain ⟨q, now, hq, hcall, rfl⟩ := merged_of_transition (t.layout n) htransition
          (founded_of_move? hmove) hp hmerged hbefore
        have hopen : q.status = .opened := by
          cases hstatus : q.status with
          | opened => rfl
          | merged => exact absurd hstatus (hbefore q hq)
        exact ⟨n, Nat.lt_succ_self n, ⟨q, now, hq, hopen, rfl, i, m, hmove, hcall⟩, hp⟩

theorem merges_of_ok (h : t.client? i n = some ⟨.merge id, .done (.ok p)⟩) :
    ∃ k < n, t.Merges k id p := by
  obtain ⟨m, hlt, hmove, hsettled, -⟩ := t.settled_of_ok h
  obtain ⟨hbefore, hafter⟩ := database_of_move? hmove
  rcases hsettled with ⟨hread, hmerged⟩ | ⟨now, hwrite⟩
  · have hp := hread.pullRequest?_eq
    rw [hbefore] at hp
    obtain ⟨k, hk, hmerges⟩ := exists_merges hp (of_decide_eq_true hmerged)
    exact ⟨k, Nat.lt_trans hk hlt, hmerges⟩
  · have heffect := hwrite.effect
    rw [hafter] at heffect
    rcases setMerged_ok heffect with ⟨hnone, -⟩ | ⟨q, hq, hdb, hp⟩
    · cases hnone
    cases hq
    have hmerged : p.status = .merged := status_of_markMerged (hdb ▸ hp)
    obtain ⟨k, hk, hmerges⟩ := exists_merges hp hmerged
    exact ⟨k, Nat.lt_of_lt_of_le hk hlt, hmerges⟩

theorem replacement_refused {m : Move} {old new : String} (hk : t.Merges k id p) (hlt : k < n)
    (hmove : t.move? i n = some m) (hcall : m.call = .replaceReviewer id old new) :
    t.database (n + 1) = t.database n ∧
      ∃ e, t.client? i (n + 1) = some ⟨.reassign id old, .done (.error e)⟩ ∧
        (m.before.isOpen = true → e = .pullRequestMerged id) := by
  obtain ⟨hbefore, hafter⟩ := database_of_move? hmove
  have hp := hk.stays hlt
  rw [← hbefore] at hp
  obtain ⟨e, herror, he⟩ : ∃ e, (m.before.perform m.call).result = .error e ∧
      (m.before.isOpen = true → e = .pullRequestMerged id) := by
    rw [hcall]
    unfold Store.perform
    split
    · simp only [StoreCall.effect, replaceReviewer_of_merged hp hk.status_eq]
      exact ⟨_, rfl, fun _ => rfl⟩
    · next hclosed => exact ⟨_, rfl, fun hopen => absurd hopen hclosed⟩
  obtain ⟨⟨action, rest⟩, hclient, hasks⟩ := asks_of_move? hmove
  have hdone := client?_of_failed hmove herror hclient
  rw [hcall] at hasks
  cases hasks
  refine ⟨?_, e, hdone, he⟩
  rw [← hbefore, ← hafter]
  exact congrArg Store.database (Store.perform_eq_error herror)

theorem counted_of_answered {m : Move} {team : String} {now : Int64} {summary : TeamDeactivation}
    (hmove : t.move? i n = some m) (h : m.Answered (.deactivateTeam team now) summary) :
    ∃ counted : List String, counted.Nodup ∧ summary.updatedPullRequests = counted.length ∧
      ∀ other, other ∈ counted ↔ ∃ q, (t.database n).pullRequest? other = some q ∧
        q.status = .opened ∧ ∃ r ∈ q.reviewers, r ∈ (t.database n).activeMembers team := by
  have heffect := h.effect
  rw [(database_of_move? hmove).1] at heffect
  rw [(deactivateTeam_ok heffect).2.2]
  generalize t.database n = db
  refine ⟨(db.pullRequests.rows.filter (db.affects (db.activeMembers team))).map PullRequestRow.id,
    ?_, ?_, fun other => ?_⟩
  · exact db.pullRequests.keys_nodup.sublist (List.filter_sublist.map _)
  · rw [List.length_map, ← List.countP_eq_length_filter]
  · simp only [List.mem_map, List.mem_filter, affects_iff_of_mem]
    constructor
    · rintro ⟨row, ⟨hrow, hopen, r, hr, hgone⟩, rfl⟩
      exact ⟨_, pullRequest?_eq_some_iff.2 ⟨row, hrow, rfl, rfl⟩, hopen, r, hr, hgone⟩
    · rintro ⟨q, hq, hopen, r, hr, hgone⟩
      obtain ⟨row, hrow, rfl, rfl⟩ := pullRequest?_eq_some_iff.1 hq
      exact ⟨row, ⟨hrow, hopen, r, hr, hgone⟩, rfl⟩

/-- From turn `k` on a pull request is exactly `p`, whatever is tried. -/
structure Final (t : Trace contract) (k : Nat) (id : String) (p : PullRequest) : Prop where
  stays : ∀ n, k < n → (t.database n).pullRequest? id = some p
  merges : ∀ i n p', t.client? i n = some ⟨.merge id, .done (.ok p')⟩ → p' = p
  replacements : ∀ i n m old new, k < n → t.move? i n = some m →
    m.call = .replaceReviewer id old new → t.database (n + 1) = t.database n ∧
      ∃ e, t.client? i (n + 1) = some ⟨.reassign id old, .done (.error e)⟩ ∧
        (m.before.isOpen = true → e = .pullRequestMerged id)
  deactivations : ∀ i n m team now summary, k < n → t.move? i n = some m →
    m.Answered (.deactivateTeam team now) summary →
      ∃ counted : List String, counted.Nodup ∧ summary.updatedPullRequests = counted.length ∧
        id ∉ counted ∧ ∀ other, other ∈ counted ↔ ∃ q, (t.database n).pullRequest? other = some q ∧
          q.status = .opened ∧ ∃ r ∈ q.reviewers, r ∈ (t.database n).activeMembers team

theorem Merges.final (h : t.Merges k id p) : t.Final k id p where
  stays _ hlt := h.stays hlt
  merges i n p' hdone := by
    obtain ⟨k', -, h'⟩ := merges_of_ok hdone
    exact h.unique h'
  replacements _ _ _ _ _ hlt hmove hcall := replacement_refused h hlt hmove hcall
  deactivations i n m team now summary hlt hmove hanswered := by
    obtain ⟨counted, hnodup, hcount, hmem⟩ := counted_of_answered hmove hanswered
    refine ⟨counted, hnodup, hcount, fun hid => ?_, hmem⟩
    obtain ⟨q, hq, hopen, -⟩ := (hmem id).1 hid
    rw [h.stays hlt] at hq
    cases hq
    rw [h.status_eq] at hopen
    cases hopen

/-- Whoever finds a pull request merged, or merges it, gets what the first merge stored, which is
final.  What a pull request was created with never changes, and nothing stored disappears. -/
theorem merging_final (t : Trace contract) (id : String) :
    (∀ n p, (t.database n).pullRequest? id = some p → p.status = .merged →
        ∃ k < n, t.Merges k id p) ∧
      (∀ i n p, t.client? i n = some ⟨.merge id, .done (.ok p)⟩ → ∃ k < n, t.Merges k id p) ∧
      (∀ k p, t.Merges k id p → t.Final k id p) ∧
      ∀ k n, k ≤ n → (t.database k).Grows (t.database n) :=
  ⟨fun _ _ => exists_merges, fun _ _ _ => merges_of_ok, fun _ _ => Merges.final,
    fun _ _ => t.grows⟩

/-- Two clients merge a pull request that both have found open, the later one at an earlier time;
a third one replaces a reviewer after that. -/
def raced : Trace .members := .ofList
  (.flatten [
    [.arrive (.createTeam "web" [⟨"a", "Ann", true⟩, ⟨"b", "Bob", true⟩, ⟨"c", "Cid", true⟩,
      ⟨"d", "Dan", true⟩])], .replicate 4 (.act 0 [] 5),
    [.arrive (.createPullRequest "p" "Fix" "a")], .replicate 7 (.act 1 ["b", "c"] 6),
    [.arrive (.reassign "p" "b")], .replicate 4 (.act 2 ["d"] 7),
    [.arrive (.merge "p"), .act 3 [] 8, .arrive (.merge "p")], .replicate 4 (.act 4 [] 9),
    .replicate 3 (.act 3 [] 4), [.act 2 [] 10]])
  (of_decide_eq_true (by cbv))

theorem merging_final_raced :
    ∃ p, raced.client? 3 29 = some ⟨.merge "p", .done (.ok p)⟩ ∧ p.mergedAt = some 9 ∧
      raced.client? 2 29 = some ⟨.reassign "p" "b", .done (.error (.pullRequestMerged "p"))⟩ ∧
      ∃ k < 29, raced.Final k "p" p := by
  have hmerge : raced.client? 3 29 = some ⟨.merge "p",
      .done (.ok ⟨"p", "Fix", "a", .merged, ["b", "c"], 6, some 9⟩)⟩ := by cbv
  have hrefused : raced.client? 2 29 = some ⟨.reassign "p" "b",
      .done (.error (.pullRequestMerged "p"))⟩ := by cbv
  obtain ⟨-, hmerges, hfinal, -⟩ := raced.merging_final "p"
  obtain ⟨k, hlt, hk⟩ := hmerges 3 29 _ hmerge
  exact ⟨_, hmerge, rfl, hrefused, k, hlt, hfinal k _ hk⟩

end Trace

end ReviewRota
