import ReviewRota.Proofs.Layout

/-!
# What holds of every assignment

With a selector that keeps to the candidates, no author reviews their own pull request: the author
is not looked up again when a reviewer is replaced, but authors do not change.  With one that keeps
to the number as well, no pull request has more than two reviewers.
-/

namespace ReviewRota

namespace Database

variable {db db' : Database} {id userId team : String} {now : Int64} {c : StoreCall}

def authorOf? (db : Database) (id : String) : Option String :=
  (db.pullRequests.get? id).map PullRequestRow.authorId

theorem authorOf?_eq_some_iff {author : String} :
    db.authorOf? id = some author ↔
      ∃ p ∈ db.pullRequests.rows, p.id = id ∧ p.authorId = author := by
  simp only [authorOf?, Option.map_eq_some_iff, Table.get?_eq_some_iff, and_assoc]

theorem authorOf?_of_pullRequest? {p : PullRequest} (h : db.pullRequest? id = some p) :
    db.authorOf? id = some p.authorId := by
  obtain ⟨row, hrow, hid, rfl⟩ := pullRequest?_eq_some_iff.1 h
  exact authorOf?_eq_some_iff.2 ⟨row, hrow, hid, rfl⟩

theorem authorOf?_addPullRequest {p : PullRequest} :
    (db.addPullRequest p).authorOf? id =
      if p.id = id then some p.authorId else db.authorOf? id := by
  rw [authorOf?, addPullRequest, Table.get?_insert, apply_ite (Option.map PullRequestRow.authorId)]
  rfl

theorem authorOf?_markMerged {other : String} :
    (db.markMerged id now).authorOf? other = db.authorOf? other := by
  have hauthor : PullRequestRow.authorId ∘ merging id now = PullRequestRow.authorId := by
    funext p
    rw [Function.comp_apply, merging]
    split <;> rfl
  rw [authorOf?, markMerged, Table.get?_map, Option.map_map, hauthor, authorOf?]

theorem authorOf?_swapReviewer {slot : Slot} {new : String} :
    (db.swapReviewer slot new).authorOf? id = db.authorOf? id := by
  rw [authorOf?, pullRequests_swapReviewer, authorOf?]

theorem authorOf?_standDown : (db.standDown team now).authorOf? id = db.authorOf? id := by
  rw [authorOf?, pullRequests_standDown, authorOf?]

theorem authorOf?_transition {author : String} (htransition : Transition db c db')
    (h : db.authorOf? id = some author) : db'.authorOf? id = some author := by
  cases htransition with
  | createTeam _ | setActive _ => exact h
  | @createPullRequest p habsent _ _ _ =>
      rw [authorOf?_addPullRequest, if_neg]
      · exact h
      · rintro rfl
        rw [authorOf?, Table.get?_eq_none_iff.2 habsent] at h
        cases h
  | setMerged => rwa [authorOf?_markMerged]
  | replaceReviewer _ => rwa [authorOf?_swapReviewer]
  | deactivateTeam _ => rwa [authorOf?_standDown]

theorem reviewersOf_addPullRequest {p : PullRequest} (hdb : db.Consistent)
    (habsent : db.pullRequests.contains p.id = false) (hnodup : p.reviewers.Nodup) :
    (db.addPullRequest p).reviewersOf p.id = p.reviewers :=
  reviewersOf_eq_of_perm (rowsOf_addPullRequest hdb habsent hnodup)

theorem reviewersOf_addPullRequest_of_ne {p : PullRequest} (h : id ≠ p.id) :
    (db.addPullRequest p).reviewersOf id = db.reviewersOf id := by
  rw [reviewersOf, ← rowsOf, rowsOf_addPullRequest_of_ne h]
  rfl

/-! ## Authors and numbers -/

def Apart (db : Database) : Prop :=
  ∀ id author, db.authorOf? id = some author → author ∉ db.reviewersOf id

theorem Apart.transition (hdb : db.Layout) (hapart : db.Apart) (htransition : Transition db c db')
    (hcreate : ∀ p, c = .createPullRequest p → p.authorId ∉ p.reviewers)
    (hreplace : ∀ id old new author, c = .replaceReviewer id old new →
      db.authorOf? id = some author → new ≠ author) : db'.Apart := by
  intro id author hauthor
  cases htransition with
  | createTeam _ | setActive _ => exact hapart id author hauthor
  | @createPullRequest p habsent _ hnodup _ =>
      rw [authorOf?_addPullRequest] at hauthor
      split at hauthor
      · next hid =>
          cases hauthor
          rw [← hid, reviewersOf_addPullRequest hdb.consistent habsent hnodup]
          exact hcreate p rfl
      · next hne =>
          rw [reviewersOf_addPullRequest_of_ne (Ne.symm hne)]
          exact hapart id author hauthor
  | setMerged =>
      rw [authorOf?_markMerged] at hauthor
      exact hapart id author hauthor
  | @replaceReviewer id' old new hcan =>
      rw [authorOf?_swapReviewer] at hauthor
      by_cases hid : id = id'
      · subst hid
        obtain ⟨hold, -, -, hnew⟩ := canReplace_iff.1 hcan
        rw [reviewersOf_swapReviewer hold hnew hdb.positions_nodup]
        intro hmem
        rcases mem_of_mem_replace hmem with rfl | hmem
        · exact hreplace id old author author rfl hauthor rfl
        · exact hapart id author hauthor hmem
      · rw [reviewersOf_swapReviewer_of_ne hid]
        exact hapart id author hauthor
  | @deactivateTeam team now _ =>
      rw [authorOf?_standDown] at hauthor
      rcases reviewersOf_standDown_cases db team now id with ⟨p, hp, hid, hrefilled⟩ | hsame
      · have hauthor' := authorOf?_eq_some_iff.2 ⟨p, hp, hid, rfl⟩
        rw [hauthor] at hauthor'
        cases hauthor'
        rw [hrefilled]
        intro hmem
        -- Only the places that are filled anew could go to the author, and they do not.
        rcases mem_refill hmem with ⟨hmem, -⟩ | ⟨-, hne⟩
        · exact hapart id p.authorId hauthor hmem
        · exact hne rfl
      · rw [hsame]
        exact hapart id author hauthor

def Capped (db : Database) : Prop :=
  ∀ id, (db.reviewersOf id).length ≤ reviewerCap

theorem Capped.empty : Capped ∅ := by
  intro id
  have hnil : (∅ : Database).reviewersOf id = [] := by
    rw [reviewersOf, byPosition]
    exact congrArg (List.map _) List.mergeSort_nil
  rw [hnil]
  exact Nat.zero_le _

theorem Capped.transition (hdb : db.Layout) (hcapped : db.Capped)
    (htransition : Transition db c db')
    (hcreate : ∀ p, c = .createPullRequest p → p.reviewers.length ≤ reviewerCap) :
    db'.Capped := by
  intro id
  cases htransition with
  | createTeam _ | setActive _ | setMerged => exact hcapped id
  | @createPullRequest p habsent _ hnodup _ =>
      by_cases hid : id = p.id
      · rw [hid, reviewersOf_addPullRequest hdb.consistent habsent hnodup]
        exact hcreate p rfl
      · rw [reviewersOf_addPullRequest_of_ne hid]
        exact hcapped id
  | @replaceReviewer id' old new hcan =>
      by_cases hid : id = id'
      · subst hid
        obtain ⟨hold, -, -, hnew⟩ := canReplace_iff.1 hcan
        rw [reviewersOf_swapReviewer hold hnew hdb.positions_nodup, List.length_replace]
        exact hcapped id
      · rw [reviewersOf_swapReviewer_of_ne hid]
        exact hcapped id
  | @deactivateTeam team now _ =>
      rcases reviewersOf_standDown_cases db team now id with ⟨p, -, -, hrefilled⟩ | hsame
      · rw [hrefilled]
        exact length_refill_le (hcapped id)
      · rw [hsame]
        exact hcapped id

end Database

namespace Trace

open Database

variable {contract : Contract} {i n k : Nat} {m : Move} {id old new author : String}

theorem authorOf?_of_le {t : Trace contract} (hle : k ≤ n)
    (h : (t.database k).authorOf? id = some author) :
    (t.database n).authorOf? id = some author :=
  t.kept (P := fun db => db.authorOf? id = some author) h
    (fun _ _ _ _ h htransition => authorOf?_transition htransition h) hle

theorem authorOf?_of_answered {t : Trace contract} {p : PullRequest} (hm : m ∈ t.history i n)
    (h : m.Answered (.pullRequest id) (some p)) :
    (t.database n).authorOf? id = some p.authorId := by
  obtain ⟨hlt, hmove⟩ := mem_history.1 hm
  have hp := h.pullRequest?_eq
  rw [(database_of_move? hmove).1] at hp
  exact authorOf?_of_le (Nat.le_of_lt hlt) (authorOf?_of_pullRequest? hp)

section Members

variable {t : Trace .members}

theorem replacement_ne_author (hmove : t.move? i n = some m)
    (hcall : m.call = .replaceReviewer id old new)
    (hauthor : (t.database n).authorOf? id = some author) : new ≠ author := by
  have hfounded := founded_of_move? hmove
  rw [hcall] at hfounded
  obtain ⟨p, ⟨read, hread, hp⟩, team, roster, -, chosen, hchosen, hnew⟩ := hfounded
  -- The candidates left out the author that was read then, who is the author now.
  rw [authorOf?_of_answered hread hp] at hauthor
  cases hauthor
  exact (mem_candidates.1 (hchosen (List.mem_of_mem_head? hnew))).1

theorem apart (t : Trace .members) (n : Nat) : (t.database n).Apart := by
  refine t.kept (P := Apart) (k := 0) (fun _ _ h => by cases h)
    (fun n i m hmove ih htransition => ?_) (Nat.zero_le n)
  refine ih.transition (t.layout n) htransition (fun p hcall => ?_)
    fun id old new author hcall => ?_
  · have hfounded := founded_of_move? hmove
    rw [hcall] at hfounded
    obtain ⟨-, -, _, -, _, -, hchosen⟩ := hfounded
    exact fun hmem => (mem_candidates.1 (hchosen hmem)).1 rfl
  · exact replacement_ne_author hmove hcall

end Members

theorem capped (t : Trace .distinct) (n : Nat) : (t.database n).Capped := by
  refine t.kept (P := Capped) (k := 0) .empty (fun n i m hmove ih htransition => ?_) (Nat.zero_le n)
  refine ih.transition (t.layout n) htransition fun p hcall => ?_
  have hfounded := founded_of_move? hmove
  rw [hcall] at hfounded
  obtain ⟨-, -, _, -, _, -, hchosen⟩ := hfounded
  exact hchosen.2.2

structure WellAssigned (db : Database) (p : PullRequest) : Prop where
  author_apart : p.authorId ∉ p.reviewers
  nodup : p.reviewers.Nodup
  few : p.reviewers.length ≤ 2
  author_stored : ∃ u, db.user? p.authorId = some u
  reviewers_stored : ∀ r ∈ p.reviewers, ∃ u, db.user? r = some u
  positions : ((db.rowsOf p.id).map ReviewerRow.position).Perm
    ((List.range p.reviewers.length).map Int.ofNat)
  merged_iff : p.status = .merged ↔ ∃ time, p.mergedAt = some time

/-- Whatever clients do at once, in every state every pull request is assigned well and every user
is in a stored team. -/
theorem well_assigned (t : Trace .distinct) (n : Nat) :
    (∀ id p, (t.database n).pullRequest? id = some p → WellAssigned (t.database n) p) ∧
      ∀ id u, (t.database n).user? id = some u → (t.database n).hasTeam u.teamName = true := by
  obtain ⟨hconsistent, hpositions, hstatus⟩ := t.layout n
  have hapart : (t.database n).Apart := (t.weaken fun _ _ _ h => h.1).apart n
  have hcapped := t.capped n
  generalize t.database n = db at *
  refine ⟨fun id p hp => ?_, fun id u hu => ?_⟩
  · have hauthor := authorOf?_of_pullRequest? hp
    obtain ⟨row, hrow, rfl, rfl⟩ := pullRequest?_eq_some_iff.1 hp
    constructor
    case author_apart => exact hapart row.id row.authorId hauthor
    case nodup => exact reviewersOf_nodup
    case few => exact hcapped row.id
    case author_stored =>
      exact exists_of_contains_user (hconsistent.author_of_pullRequest row hrow)
    case reviewers_stored =>
      intro r hr
      exact exists_of_contains_user (hconsistent.contains_reviewer hr)
    case positions =>
      change ((db.rowsOf row.id).map _).Perm ((List.range (db.reviewersOf row.id).length).map _)
      rw [length_reviewersOf]
      exact hpositions row.id
    case merged_iff =>
      rw [← Option.isSome_iff_exists]
      exact hstatus row hrow
  · obtain ⟨r, hr, rfl, -⟩ := user?_eq_some_iff.1 hu
    exact hconsistent.team_of_user r hr

end Trace

end ReviewRota
