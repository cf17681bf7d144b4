import ReviewRota.Proofs.Transition

/-!
# The layout of the database

References point at stored rows, the reviewers of a pull request stand at positions 0, 1, 2, …, and
a pull request has a time of merging exactly when it is merged.  Every step keeps this, whoever
chose the reviewers.
-/

namespace ReviewRota

namespace Database

variable {db db' : Database} {id userId team : String} {now : Int64} {c : StoreCall}

structure Layout (db : Database) : Prop where
  consistent : db.Consistent
  positions : ∀ id, ((db.rowsOf id).map ReviewerRow.position).Perm
    ((List.range (db.rowsOf id).length).map Int.ofNat)
  status : ∀ p ∈ db.pullRequests.rows, p.status = .merged ↔ p.mergedAt.isSome = true

theorem Layout.empty : Layout ∅ where
  consistent := .empty
  positions _ := .nil
  status _ h := by cases h

theorem Layout.positions_nodup (h : db.Layout) :
    ((db.rowsOf id).map ReviewerRow.position).Nodup :=
  (h.positions id).nodup_iff.2 (List.nodup_range.map fun _ _ h => Int.ofNat_inj.1 h)

theorem positions_of_perm_listed {l : List String} (h : (db.rowsOf id).Perm (listed id l)) :
    ((db.rowsOf id).map ReviewerRow.position).Perm
      ((List.range (db.rowsOf id).length).map Int.ofNat) := by
  have hlength : (db.rowsOf id).length = l.length := by
    rw [h.length_eq, listed, List.length_map, List.length_zipIdx]
  rw [hlength, ← map_position_listed id]
  exact h.map _

theorem Consistent.addTeam {name : String} {members : List User} (h : db.Consistent) :
    (db.addTeam name members now).Consistent where
  team_of_user u hu := by
    rw [Database.addTeam, Table.contains_insert]
    rcases Table.mem_of_mem_insertAll hu with hnew | hold
    · obtain ⟨m, -, rfl⟩ := List.mem_map.1 hnew
      exact .inl rfl
    · exact .inr (h.team_of_user u hold)
  author_of_pullRequest p hp := Table.contains_insertAll_of_contains (h.author_of_pullRequest p hp)
  pullRequest_of_reviewer := h.pullRequest_of_reviewer
  user_of_reviewer r hr := Table.contains_insertAll_of_contains (h.user_of_reviewer r hr)

theorem Consistent.updateUser {f : User → User} {hid : ∀ u, (f u).id = u.id}
    (hf : ∀ u, (f u).teamName = u.teamName) (h : db.Consistent) :
    (db.updateUser userId f now hid).Consistent where
  team_of_user u hu := by
    obtain ⟨r, hr, rfl⟩ := List.mem_map.1 hu
    have hteam := h.team_of_user r hr
    split
    · rwa [hf]
    · exact hteam
  author_of_pullRequest p hp := by
    rw [Database.updateUser, Table.contains_map]
    exact h.author_of_pullRequest p hp
  pullRequest_of_reviewer := h.pullRequest_of_reviewer
  user_of_reviewer r hr := by
    rw [Database.updateUser, Table.contains_map]
    exact h.user_of_reviewer r hr

theorem Consistent.addPullRequest {p : PullRequest} (hauthor : db.users.contains p.authorId = true)
    (husers : ∀ r ∈ p.reviewers, db.users.contains r = true) (h : db.Consistent) :
    (db.addPullRequest p).Consistent where
  team_of_user := h.team_of_user
  author_of_pullRequest q hq := by
    rcases Table.mem_insert.1 hq with rfl | ⟨hold, -⟩
    · exact hauthor
    · exact h.author_of_pullRequest q hold
  pullRequest_of_reviewer r hr := by
    rw [Database.addPullRequest, Table.contains_insert]
    rcases Table.mem_of_mem_insertAll hr with hnew | hold
    · exact .inl (pullRequest_of_mem_listed hnew).symm
    · exact .inr (h.pullRequest_of_reviewer r hold)
  user_of_reviewer r hr := by
    rcases Table.mem_of_mem_insertAll hr with hnew | hold
    · exact husers _ (mem_of_mem_listed hnew)
    · exact h.user_of_reviewer r hold

theorem Consistent.markMerged (h : db.Consistent) : (db.markMerged id now).Consistent where
  team_of_user := h.team_of_user
  author_of_pullRequest p hp := by
    obtain ⟨q, hq, rfl⟩ := List.mem_map.1 hp
    have hauthor := h.author_of_pullRequest q hq
    unfold merging
    split <;> exact hauthor
  pullRequest_of_reviewer r hr := by
    rw [contains_markMerged]
    exact h.pullRequest_of_reviewer r hr
  user_of_reviewer := h.user_of_reviewer

theorem Consistent.swapReviewer {old new : String} (hcan : db.canReplace id old new = true)
    (h : db.Consistent) : (db.swapReviewer ⟨id, old⟩ new).Consistent := by
  obtain ⟨hold, ⟨p, hp, -⟩, ⟨u, hu, -⟩, hnew⟩ := canReplace_iff.1 hcan
  have hpull : db.pullRequests.contains id = true :=
    Table.contains_iff.2 ⟨p, Table.get?_eq_some_iff.1 hp⟩
  constructor
  · rw [teams_swapReviewer, users_swapReviewer]
    exact h.team_of_user
  · rw [pullRequests_swapReviewer, users_swapReviewer]
    exact h.author_of_pullRequest
  · intro r hr
    rw [pullRequests_swapReviewer]
    rcases (mem_swapReviewer hold hnew).1 hr with ⟨hstays, -⟩ | ⟨position, -, rfl⟩
    · exact h.pullRequest_of_reviewer r hstays
    · exact hpull
  · intro r hr
    rw [users_swapReviewer]
    rcases (mem_swapReviewer hold hnew).1 hr with ⟨hstays, -⟩ | ⟨position, -, rfl⟩
    · exact h.user_of_reviewer r hstays
    · exact contains_of_user? hu

theorem mem_standDown {r : ReviewerRow} (hdb : db.Consistent)
    (h : r ∈ (db.standDown team now).reviewers.rows) :
    db.pullRequests.contains r.slot.pullRequest = true ∧
      db.users.contains r.slot.reviewer = true := by
  have hrow : r ∈ (db.standDown team now).rowsOf r.slot.pullRequest := mem_rowsOf.2 ⟨h, rfl⟩
  rcases rowsOf_standDown_cases db team now r.slot.pullRequest with ⟨p, hp, hid, hperm⟩ | hsame
  · rw [hperm.mem_iff] at hrow
    refine ⟨Table.contains_iff.2 ⟨p, hp, hid⟩, ?_⟩
    exact hdb.contains_of_mem_refill (mem_of_mem_listed hrow)
  · rw [hsame] at hrow
    have hold := (mem_rowsOf.1 hrow).1
    exact ⟨hdb.pullRequest_of_reviewer r hold, hdb.user_of_reviewer r hold⟩

theorem Consistent.standDown (h : db.Consistent) : (db.standDown team now).Consistent where
  team_of_user u hu := by
    rw [users_standDown] at hu
    obtain ⟨r, hr, rfl⟩ := List.mem_map.1 hu
    have hteam := h.team_of_user r hr
    rw [teams_standDown]
    unfold offDuty
    split <;> exact hteam
  author_of_pullRequest p hp := by
    rw [pullRequests_standDown] at hp
    rw [contains_standDown]
    exact h.author_of_pullRequest p hp
  pullRequest_of_reviewer r hr := by
    rw [pullRequests_standDown]
    exact (mem_standDown h hr).1
  user_of_reviewer r hr := by
    rw [contains_standDown]
    exact (mem_standDown h hr).2

/-! ## Every step keeps the layout -/

theorem rowsOf_addPullRequest {p : PullRequest} (hdb : db.Consistent)
    (habsent : db.pullRequests.contains p.id = false) (hnodup : p.reviewers.Nodup) :
    ((db.addPullRequest p).rowsOf p.id).Perm (listed p.id p.reviewers) := by
  have hrows : db.rowsOf p.id = [] := by
    rw [List.eq_nil_iff_forall_not_mem]
    intro r hr
    obtain ⟨hr, hid⟩ := mem_rowsOf.1 hr
    have hpull := hdb.pullRequest_of_reviewer r hr
    rw [hid, habsent] at hpull
    cases hpull
  have hrewrite : ((db.rewrite p.id p.reviewers).rowsOf p.id).Perm (listed p.id p.reviewers) :=
    rowsOf_rewrite hnodup
  rwa [rewrite_eq_insertAll hrows] at hrewrite

theorem rowsOf_addPullRequest_of_ne {p : PullRequest} (h : id ≠ p.id) :
    (db.addPullRequest p).rowsOf id = db.rowsOf id := by
  rw [rowsOf, addPullRequest, Table.filter_insertAll_of_neg]
  · rfl
  · intro r hr r' hslot
    rw [hslot, pullRequest_of_mem_listed hr]
    exact decide_eq_false h.symm

theorem Layout.transition {contract : Contract} {h : List Move} (hdb : db.Layout)
    (htransition : Transition db c db') (hfounded : c.Founded contract h) : db'.Layout := by
  cases htransition with
  | createTeam _ => exact ⟨hdb.consistent.addTeam, hdb.positions, hdb.status⟩
  | setActive _ => exact ⟨hdb.consistent.updateUser fun _ => rfl, hdb.positions, hdb.status⟩
  | @createPullRequest p habsent hauthor hnodup husers =>
      refine ⟨hdb.consistent.addPullRequest hauthor husers, fun id => ?_, fun q hq => ?_⟩
      · by_cases hid : id = p.id
        · subst hid
          exact positions_of_perm_listed (rowsOf_addPullRequest hdb.consistent habsent hnodup)
        · rw [rowsOf_addPullRequest_of_ne hid]
          exact hdb.positions id
      · rcases Table.mem_insert.1 hq with rfl | ⟨hold, -⟩
        · obtain ⟨hopen, hnever, -⟩ := hfounded
          simp [PullRequest.row, hopen, hnever]
        · exact hdb.status q hold
  | @setMerged id now =>
      refine ⟨hdb.consistent.markMerged, hdb.positions, fun p hp => ?_⟩
      obtain ⟨q, hq, rfl⟩ := List.mem_map.1 hp
      unfold merging
      split
      · cases q.mergedAt <;> simp
      · exact hdb.status q hq
  | @replaceReviewer id old new hcan =>
      refine ⟨hdb.consistent.swapReviewer hcan, fun other => ?_, ?_⟩
      · by_cases hid : other = id
        · obtain ⟨hold, -, -, hnew⟩ := canReplace_iff.1 hcan
          -- A name is exchanged and no position.
          have hperm := rowsOf_swapReviewer hold hnew
          have hpositions := hperm.map ReviewerRow.position
          rw [map_position_handOver] at hpositions
          rw [hid, hperm.length_eq, List.length_map]
          exact hpositions.trans (hdb.positions id)
        · rw [rowsOf_swapReviewer_of_ne hid]
          exact hdb.positions other
      · rw [pullRequests_swapReviewer]
        exact hdb.status
  | @deactivateTeam team now _ =>
      refine ⟨hdb.consistent.standDown, fun id => ?_, ?_⟩
      · rcases rowsOf_standDown_cases db team now id with ⟨p, -, -, hperm⟩ | hsame
        · exact positions_of_perm_listed hperm
        · rw [hsame]
          exact hdb.positions id
      · rw [pullRequests_standDown]
        exact hdb.status

end Database

theorem Trace.layout {contract : Contract} (t : Trace contract) (n : Nat) :
    (t.database n).Layout :=
  t.kept (P := Database.Layout) (k := 0) .empty (fun _ _ _ hmove hdb htransition =>
    hdb.transition htransition (founded_of_move? hmove)) (Nat.zero_le n)

end ReviewRota
