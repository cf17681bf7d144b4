import Mathlib
import ReviewRota.Proofs.Alone
import ReviewRota.Proofs.Calls
import ReviewRota.Proofs.Layout
import ReviewRota.Proofs.Lookup
import ReviewRota.Proofs.Reassignment

/-!
# What the views show

The listing of a user, the counts of users and the counts of pull requests are queries of their own.
In every state they show the same as the pull requests when these are read one by one.
-/

namespace ReviewRota

section Tally

variable {keys : List String} {k : String} {n : Nat}

theorem keys_tally :
    (tally keys).map Prod.fst = (keys.mergeSort (compare · · |>.isLE)).eraseDups := by
  simp [tally, Function.comp_def]

theorem tally_ascending (keys : List String) : ((tally keys).map Prod.fst).Pairwise (· < ·) := by
  have hle : ∀ {a b : String}, (compare a b).isLE = true ↔ a ≤ b := Std.LawfulBCmp.isLE_iff_le
  have hsorted : (keys.mergeSort (compare · · |>.isLE)).Pairwise (compare · · |>.isLE) :=
    List.pairwise_mergeSort (fun _ _ _ => Std.TransCmp.isLE_trans)
      (fun a b => by simp [hle, le_total]) keys
  rw [keys_tally]
  exact (pairwise_eraseDups hsorted).imp fun h => lt_of_le_of_ne (hle.1 h.1) h.2

theorem mem_tally : (k, n) ∈ tally keys ↔ k ∈ keys ∧ n = keys.count k := by
  simp only [tally, List.mem_map, List.mem_eraseDups, List.mem_mergeSort, Prod.mk.injEq]
  constructor
  · rintro ⟨_, hmem, rfl, rfl⟩
    exact ⟨hmem, rfl⟩
  · rintro ⟨hmem, rfl⟩
    exact ⟨k, hmem, rfl, rfl⟩

theorem sum_tally (keys : List String) : ((tally keys).map Prod.snd).sum = keys.length := by
  have hperm : (keys.mergeSort (compare · · |>.isLE)).eraseDups.Perm keys.dedup := by
    rw [List.perm_ext_iff_of_nodup _ keys.nodup_dedup]
    · simp
    · rw [← keys_tally]
      exact (tally_ascending keys).imp ne_of_lt
  rw [← List.sum_map_count_dedup_eq_length keys, ← (hperm.map _).sum_eq]
  simp [tally, Function.comp_def]

end Tally

namespace Database

variable {db db' : Database} {id userId : String} {k : Nat} {c : StoreCall}

/-! ## Counting reviewer rows -/

theorem count_pullRequest :
    (db.reviewers.rows.map fun r => r.slot.pullRequest).count id = (db.reviewersOf id).length := by
  rw [length_reviewersOf, List.count_eq_countP, List.countP_map, List.countP_eq_length_filter,
    rowsOf]
  congr 1

theorem count_reviewer (hdb : db.Consistent) :
    (db.reviewers.rows.map fun r => r.slot.reviewer).count userId =
      (db.reviewsOf userId).length := by
  have hrows : ((db.reviewers.rows.filter fun r => r.slot.reviewer = userId).map
      fun r => r.slot.pullRequest).Nodup := by
    refine List.Nodup.map_on (fun a ha b hb hab => ?_) (db.reviewers.rows_nodup.filter _)
    simp only [List.mem_filter, decide_eq_true_eq] at ha hb
    refine Table.eq_of_key_eq ha.1 hb.1 ?_
    obtain ⟨⟨_, _⟩, _⟩ := a
    obtain ⟨⟨_, _⟩, _⟩ := b
    simp_all
  have hperm : ((db.reviewers.rows.filter fun r => r.slot.reviewer = userId).map
      fun r => r.slot.pullRequest).Perm
      ((db.pullRequests.rows.filter fun p => db.reviewers.contains ⟨p.id, userId⟩).map
        PullRequestRow.id) := by
    refine (List.perm_ext_iff_of_nodup hrows ?_).2 fun id => ?_
    · exact db.pullRequests.keys_nodup.sublist (List.filter_sublist.map _)
    · simp only [List.mem_map, List.mem_filter, decide_eq_true_eq, Table.contains_iff]
      constructor
      · rintro ⟨r, ⟨hr, rfl⟩, rfl⟩
        obtain ⟨p, hp, hid⟩ := Table.contains_iff.1 (hdb.pullRequest_of_reviewer r hr)
        exact ⟨p, ⟨hp, r, hr, by rw [hid]⟩, hid⟩
      · rintro ⟨p, ⟨hp, r, hr, hslot⟩, rfl⟩
        exact ⟨r, ⟨hr, by rw [hslot]⟩, by rw [hslot]⟩
  have hlength := hperm.length_eq
  simp only [List.length_map] at hlength
  rw [List.count_eq_countP, List.countP_map, List.countP_eq_length_filter]
  simpa [reviewsOf, Function.comp_def, beq_eq_decide] using hlength

theorem mem_countByReviewer (hdb : db.Consistent) :
    (userId, k) ∈ db.countByReviewer ↔
      db.reviewsOf userId ≠ [] ∧ k = (db.reviewsOf userId).length := by
  rw [countByReviewer, mem_tally, ← List.count_pos_iff, count_reviewer hdb, List.length_pos_iff]

theorem mem_countByPullRequest (hdb : db.Consistent) :
    (id, k) ∈ db.countByPullRequest ↔
      ∃ p, db.pullRequest? id = some p ∧ p.reviewers ≠ [] ∧ k = p.reviewers.length := by
  rw [countByPullRequest, mem_tally, ← List.count_pos_iff, count_pullRequest, List.length_pos_iff]
  constructor
  · rintro ⟨hne, rfl⟩
    obtain ⟨r, hr⟩ := List.exists_mem_of_ne_nil _ hne
    obtain ⟨row, hrow, hslot⟩ := Table.contains_iff.1 (mem_reviewersOf.1 hr)
    have hpull := hdb.pullRequest_of_reviewer row hrow
    rw [hslot] at hpull
    obtain ⟨p, hp, hid⟩ := Table.contains_iff.1 hpull
    exact ⟨_, pullRequest?_eq_some_iff.2 ⟨p, hp, hid, rfl⟩, hne, rfl⟩
  · rintro ⟨p, hp, hne, rfl⟩
    obtain ⟨row, -, -, rfl⟩ := pullRequest?_eq_some_iff.1 hp
    exact ⟨hne, rfl⟩

theorem exists_user_of_reviewsOf (hdb : db.Consistent) (h : db.reviewsOf userId ≠ []) :
    ∃ u, db.user? userId = some u := by
  obtain ⟨summary, hsummary⟩ := List.exists_mem_of_ne_nil _ h
  simp only [reviewsOf, List.mem_map, List.mem_mergeSort, List.mem_filter] at hsummary
  obtain ⟨p, ⟨-, hreviews⟩, -⟩ := hsummary
  exact exists_of_contains_user (hdb.contains_reviewer (mem_reviewersOf.2 hreviews))

theorem sum_counts (db : Database) :
    (db.countByReviewer.map Prod.snd).sum = (db.countByPullRequest.map Prod.snd).sum := by
  rw [countByReviewer, countByPullRequest, sum_tally, sum_tally, List.length_map, List.length_map]

end Database

/-! ## Listings -/

def PullRequest.summary (p : PullRequest) : PullRequestSummary :=
  ⟨p.id, p.name, p.authorId, p.status⟩

structure Listing (db : Database) (userId : String) (listed : List PullRequest) : Prop where
  mem_iff : ∀ p, p ∈ listed ↔ db.pullRequest? p.id = some p ∧ userId ∈ p.reviewers
  once : (listed.map PullRequest.id).Nodup
  ordered : listed.Pairwise fun p q =>
    q.createdAt < p.createdAt ∨ q.createdAt = p.createdAt ∧ p.id < q.id

namespace Database

variable {db : Database} {userId : String}

theorem newest_first {rows : List PullRequestRow} (hrows : rows.Pairwise fun p q => p.id < q.id) :
    (rows.mergeSort fun a b => b.createdAt ≤ a.createdAt).Pairwise fun p q =>
      q.createdAt < p.createdAt ∨ q.createdAt = p.createdAt ∧ p.id < q.id := by
  have htrans : ∀ a b c : PullRequestRow, decide (b.createdAt ≤ a.createdAt) = true →
      decide (c.createdAt ≤ b.createdAt) = true → decide (c.createdAt ≤ a.createdAt) = true := by
    simp only [decide_eq_true_eq]
    exact fun a b c hab hbc => Int64.le_trans hbc hab
  have htotal : ∀ a b : PullRequestRow,
      (decide (b.createdAt ≤ a.createdAt) || decide (a.createdAt ≤ b.createdAt)) = true := by
    simp [Int64.le_total]
  refine (pairwise_mergeSort_of_ties htrans htotal hrows).imp fun {p q} h => ?_
  rcases Int64.lt_or_eq_of_le (of_decide_eq_true h.1) with hlt | heq
  · exact .inl hlt
  · exact .inr ⟨heq, h.2 (decide_eq_true (Int64.le_of_eq heq.symm))⟩

theorem listing_reviewsOf (db : Database) (userId : String) :
    ∃ listed, db.reviewsOf userId = listed.map PullRequest.summary ∧ Listing db userId listed := by
  let reviewed := db.pullRequests.rows.filter fun p => db.reviewers.contains ⟨p.id, userId⟩
  let read (p : PullRequestRow) := p.withReviewers (db.reviewersOf p.id)
  have hascending : reviewed.Pairwise fun p q => p.id < q.id :=
    (db.pullRequests.ascending.imp compare_lt_iff_lt.1).filter _
  have hordered : ((reviewed.mergeSort fun a b => b.createdAt ≤ a.createdAt).map read).Pairwise
      fun p q => q.createdAt < p.createdAt ∨ q.createdAt = p.createdAt ∧ p.id < q.id :=
    List.pairwise_map.2 (newest_first hascending)
  refine ⟨_, ?_, ?_, ?_, hordered⟩
  · rw [reviewsOf, List.map_map]
    rfl
  · intro p
    simp only [List.mem_map, List.mem_mergeSort, reviewed, List.mem_filter, ← mem_reviewersOf]
    constructor
    · rintro ⟨row, ⟨hrow, hreviews⟩, rfl⟩
      exact ⟨pullRequest?_eq_some_iff.2 ⟨row, hrow, rfl, rfl⟩, hreviews⟩
    · rintro ⟨hp, hreviews⟩
      obtain ⟨row, hrow, hid, hread⟩ := pullRequest?_eq_some_iff.1 hp
      rw [← hid] at hread
      rw [← hread] at hreviews
      exact ⟨row, ⟨hrow, hreviews⟩, hread⟩
  · have hids : (reviewed.map PullRequestRow.id).Nodup :=
      List.pairwise_map.2 (hascending.imp ne_of_lt)
    rw [List.map_map]
    exact ((List.mergeSort_perm reviewed _).map _).nodup_iff.2 hids

end Database

def StoreCall.Filled : StoreCall → Prop
  | .createTeam _ users _ => ∀ u ∈ users, Text.isBlank u.id = false
  | _ => True

namespace Action

theorem filled_createTeam {name : String} {members : List Member} :
    (Service.createTeam name members).Heeds StoreCall.Filled := by
  refine Service.heeds_bind Service.heeds_ofExcept fun _ => ?_
  cases hcheck : Service.checkMembers [] members with
  | error e => trivial
  | ok _ =>
      refine Service.heeds_bind Service.heeds_ofExcept fun _ => ?_
      refine Service.heeds_bind (Service.heeds_ask trivial) fun found => ?_
      split
      · trivial
      refine Service.heeds_bind Service.heeds_now fun _ => ?_
      refine Service.heeds_bind (Service.heeds_ask ?_) fun _ => ?_
      · intro u hu
        obtain ⟨m, hm, rfl⟩ := List.mem_map.1 hu
        exact ((Service.checkMembers_eq_ok.1 hcheck).1 m hm).1
      · exact Service.heeds_bind Service.heeds_log fun _ => trivial

theorem filled_service (a : Action) : a.service.Heeds StoreCall.Filled := by
  cases a with
  | createTeam => exact filled_createTeam
  | setActive | createPullRequest | merge | reassign | deactivateTeam =>
      exact (heeds_service _).mono fun c hc => by cases hc <;> trivial

end Action

namespace Database

def Filled (db : Database) : Prop :=
  ∀ r ∈ db.users.rows, Text.isBlank r.id = false

theorem Filled.transition {db db' : Database} {c : StoreCall} (hdb : db.Filled)
    (htransition : Transition db c db') (hc : c.Filled) : db'.Filled := by
  intro r hr
  cases htransition with
  | createTeam _ =>
      rcases Table.mem_of_mem_insertAll hr with hnew | hold
      · obtain ⟨u, hu, rfl⟩ := List.mem_map.1 hnew
        exact hc u hu
      · exact hdb r hold
  | setActive _ =>
      obtain ⟨row, hrow, rfl⟩ := List.mem_map.1 hr
      have hid := hdb row hrow
      split <;> exact hid
  | createPullRequest _ _ _ _ | setMerged => exact hdb r hr
  | replaceReviewer _ =>
      rw [users_swapReviewer] at hr
      exact hdb r hr
  | deactivateTeam _ =>
      rw [users_standDown] at hr
      obtain ⟨row, hrow, rfl⟩ := List.mem_map.1 hr
      rw [offDuty_id]
      exact hdb row hrow

end Database

theorem Trace.filled {contract : Contract} (t : Trace contract) (n : Nat) :
    (t.database n).Filled := by
  refine t.kept (P := Database.Filled) (k := 0) (fun _ h => by cases h)
    (fun n i m hmove ih htransition => ?_) (Nat.zero_le n)
  exact ih.transition htransition
    (t.call_of_move? (fun a => (Action.filled_service a).outline) hmove)

/-! ## The answers of the services -/

namespace Service

variable {clock : Int64} {s : Store} {selector : Selector} {id : String}

theorem outcome_reviewsOf (hid : Text.isBlank id = false) (hopen : s.isOpen = true) :
    (reviewsOf id).outcome clock s selector = (.ok (s.database.reviewsOf id), s) := by
  have hlist := Store.perform_look hopen (c := .reviewsOf id) rfl
  simp [reviewsOf, require, hid, outcome_look hlist]

theorem outcome_assignmentStats (hopen : s.isOpen = true) :
    assignmentStats.outcome clock s selector =
      (.ok ⟨s.database.countByReviewer, s.database.countByPullRequest⟩, s) := by
  have hreviewer := Store.perform_look hopen (c := .countByReviewer) rfl
  have hpullRequest := Store.perform_look hopen (c := .countByPullRequest) rfl
  rw [assignmentStats, outcome_look_bind hreviewer, outcome_look_bind hpullRequest, outcome_pure]

end Service

namespace Trace

open Database

variable {contract : Contract}

/-- In every state that clients can bring about, whoever asks first, the listings of users and the
counts describe the pull requests as they are read one by one. -/
theorem views_agree (t : Trace contract) (n : Nat) (clock : Int64) (selector : Selector)
    (hopen : (t.store n).isOpen = true) :
    let db := t.database n
    let listing userId := ((Service.reviewsOf userId).run clock (t.store n) selector).1.result
    (∀ userId u, db.user? userId = some u →
        ∃ listed, listing userId = .ok (listed.map PullRequest.summary) ∧
          Listing db userId listed) ∧
      ∃ stats, (Service.assignmentStats.run clock (t.store n) selector).1.result = .ok stats ∧
        (stats.byUser.map Prod.fst).Pairwise (· < ·) ∧
        (∀ userId k, (userId, k) ∈ stats.byUser ↔ ∃ u, db.user? userId = some u ∧
          ∃ listed, listing userId = .ok listed ∧ listed ≠ [] ∧ k = listed.length) ∧
        (stats.byPullRequest.map Prod.fst).Pairwise (· < ·) ∧
        (∀ id k, (id, k) ∈ stats.byPullRequest ↔
          ∃ p, db.pullRequest? id = some p ∧ p.reviewers ≠ [] ∧ k = p.reviewers.length) ∧
        (stats.byUser.map Prod.snd).sum = (stats.byPullRequest.map Prod.snd).sum := by
  have hdb := (t.layout n).consistent
  have hlisting : ∀ userId u, (t.database n).user? userId = some u →
      ((Service.reviewsOf userId).run clock (t.store n) selector).1.result =
        .ok ((t.database n).reviewsOf userId) := by
    intro userId u hu
    obtain ⟨r, hr, rfl, rfl⟩ := user?_eq_some_iff.1 hu
    exact congrArg Prod.fst (Service.outcome_reviewsOf (t.filled n r hr) hopen)
  refine ⟨fun userId u hu => ?_, _, congrArg Prod.fst (Service.outcome_assignmentStats hopen),
    tally_ascending _, fun userId k => ?_, tally_ascending _, fun id k => ?_, sum_counts _⟩
  · obtain ⟨listed, heq, hlisted⟩ := listing_reviewsOf (t.database n) userId
    exact ⟨listed, (hlisting userId u hu).trans (congrArg Except.ok heq), hlisted⟩
  · refine (mem_countByReviewer hdb).trans ⟨?_, ?_⟩
    · rintro ⟨hne, hk⟩
      obtain ⟨u, hu⟩ := exists_user_of_reviewsOf hdb hne
      exact ⟨u, hu, _, hlisting userId u hu, hne, hk⟩
    · rintro ⟨u, hu, listed, hlisted, hne, hk⟩
      cases (hlisting userId u hu).symm.trans hlisted
      exact ⟨hne, hk⟩
  · exact mem_countByPullRequest hdb

theorem views_agree_crossing :
    (crossing.store 28).isOpen = true ∧
      ∃ stats, (Service.assignmentStats.run 8 (crossing.store 28) .first).1.result = .ok stats ∧
        stats.byUser = [("d", 1), ("e", 1)] ∧
        (stats.byUser.map Prod.snd).sum = (stats.byPullRequest.map Prod.snd).sum := by
  have hcalm : (crossing.store 28).Calm := calm_ofList (by decide) 28
  obtain ⟨-, stats, hstats, -, -, -, -, hsum⟩ := crossing.views_agree 28 8 .first hcalm.isOpen
  have hresult : (Service.assignmentStats.run 8 (crossing.store 28) .first).1.result =
      .ok ⟨[("d", 1), ("e", 1)], [("p", 2)]⟩ := by cbv
  rw [hresult] at hstats
  cases hstats
  exact ⟨hcalm.isOpen, _, hresult, rfl, hsum⟩

end Trace

end ReviewRota
