import Mathlib.Data.String.Basic
import ReviewRota.Proofs.Layout

/-!
# A team off duty, as seen by readers

The outcome of a deactivation without failures, told with what the queries return before and after.
-/

namespace ReviewRota

namespace Database

variable {db : Database} {id userId team authorId : String} {now : Int64}
  {deactivated l : List String}

theorem roster_ascending : ((db.roster team).map User.id).Pairwise (· < ·) := by
  rw [roster, List.map_map, List.pairwise_map]
  exact (db.users.ascending.imp compare_lt_iff_lt.1).filter _

theorem teammates_eq {author : User} (h : db.user? userId = some author) :
    db.teammates userId = ((db.roster author.teamName).filter (·.isActive)).map User.id := by
  simp only [teammates, h, activeMembers_eq]

theorem refill_eq {author : User} (h : db.user? authorId = some author) :
    db.refill deactivated authorId l =
      let kept := l.filter (· ∉ deactivated)
      kept ++ (candidates authorId kept (db.roster author.teamName)).take (2 - kept.length) := by
  have hkept : (l.filter fun id => !deactivated.contains id) = l.filter (· ∉ deactivated) := by
    apply List.filter_congr
    intro r _
    simp
  simp only [refill, hkept, teammates_eq h, candidates, List.filter_map, List.filter_filter]
  congr 3
  apply List.filter_congr
  intro u _
  simp only [Function.comp_apply]
  cases u.isActive <;> simp

end Database

open Database

/-- What taking a team off duty did, given those who were active in it. -/
structure OffDuty (team : String) (gone : List String) (summary : TeamDeactivation)
    (db db' : Database) : Prop where
  gone_nodup : gone.Nodup
  mem_gone : ∀ id, id ∈ gone ↔
    ∃ u, db.user? id = some u ∧ u.teamName = team ∧ u.isActive = true
  users : ∀ id, db'.user? id =
    (db.user? id).map fun u => if id ∈ gone then { u with isActive := false } else u
  rosters : ∀ name, ((db'.roster name).map User.id).Pairwise (· < ·) ∧
    ∀ u, u ∈ db'.roster name ↔ db'.user? u.id = some u ∧ u.teamName = name
  refilled : ∀ id p, db.pullRequest? id = some p → p.status = .opened →
    (∃ r ∈ p.reviewers, r ∈ gone) → ∃ author, db'.user? p.authorId = some author ∧
      let kept := p.reviewers.filter (· ∉ gone)
      let pool := candidates p.authorId kept (db'.roster author.teamName)
      db'.pullRequest? id = some { p with reviewers := kept ++ pool.take (2 - kept.length) }
  unaffected : ∀ id, (∀ p, db.pullRequest? id = some p → p.status = .opened →
    ∀ r ∈ p.reviewers, r ∉ gone) → db'.pullRequest? id = db.pullRequest? id
  summary_eq : summary = ⟨team, gone.length, db.pullRequests.rows.countP fun p =>
    p.status = .opened ∧ ∃ r ∈ db.reviewersOf p.id, r ∈ gone⟩
  nobody_left : ∀ id p, db'.pullRequest? id = some p → p.status = .opened →
    ∀ r ∈ p.reviewers, r ∉ gone
  short_only_if : ∀ id p p', db.pullRequest? id = some p → p.status = .opened →
    (∃ r ∈ p.reviewers, r ∈ gone) → db'.pullRequest? id = some p' → p'.reviewers.length < 2 →
      ∀ author, db'.user? p.authorId = some author → ∀ u ∈ db'.roster author.teamName,
        u.isActive = true → u.id = p.authorId ∨ u.id ∈ p'.reviewers

namespace Database

variable {db : Database} {id team : String} {now : Int64} {p : PullRequest}

theorem affects_iff_of_mem {userIds : List String} {row : PullRequestRow} :
    db.affects userIds row = true ↔
      row.status = .opened ∧ ∃ r ∈ db.reviewersOf row.id, r ∈ userIds := by
  rw [affects_iff]
  exact and_congr_right fun _ => exists_congr fun r => and_comm

theorem user?_standDown_eq :
    (db.standDown team now).user? id = (db.user? id).map fun u =>
      if id ∈ db.activeMembers team then { u with isActive := false } else u := by
  rw [user?_standDown, user?_dismiss]
  cases huser : db.user? id with
  | none => rfl
  | some u =>
      have hgone : id ∈ db.activeMembers team ↔ u.teamName = team ∧ u.isActive = true := by
        rw [mem_activeMembers, huser]
        constructor
        · rintro ⟨_, hu, h⟩
          cases hu
          exact h
        · exact fun h => ⟨u, rfl, h⟩
      simp only [Option.map_some, hgone]

theorem pullRequest?_standDown {row : PullRequestRow} (hrow : row ∈ db.pullRequests.rows) :
    (db.standDown team now).pullRequest? row.id =
      some (row.withReviewers ((db.standDown team now).reviewersOf row.id)) := by
  refine pullRequest?_eq_some_iff.2 ⟨row, ?_, rfl, rfl⟩
  rwa [pullRequests_standDown]

theorem standDown_refilled (now : Int64) (hdb : db.Consistent) (hp : db.pullRequest? id = some p)
    (hopen : p.status = .opened) (hgone : ∃ r ∈ p.reviewers, r ∈ db.activeMembers team) :
    ∃ author, (db.standDown team now).user? p.authorId = some author ∧
      let kept := p.reviewers.filter (· ∉ db.activeMembers team)
      let pool := candidates p.authorId kept ((db.standDown team now).roster author.teamName)
      (db.standDown team now).pullRequest? id =
        some { p with reviewers := kept ++ pool.take (2 - kept.length) } := by
  obtain ⟨row, hrow, rfl, rfl⟩ := pullRequest?_eq_some_iff.1 hp
  have hcontains := hdb.author_of_pullRequest row hrow
  rw [← contains_standDown] at hcontains
  obtain ⟨author, hauthor⟩ := exists_of_contains_user hcontains
  have haffected := affects_iff_of_mem.2 ⟨hopen, hgone⟩
  have hauthor' := user?_standDown.symm.trans hauthor
  have hroster : (db.standDown team now).roster author.teamName =
      (db.dismiss team now).roster author.teamName := by
    rw [roster, users_standDown, roster]
  refine ⟨author, hauthor, ?_⟩
  rw [pullRequest?_standDown hrow, reviewersOf_standDown hrow, if_pos haffected, refill_eq hauthor',
    hroster]
  rfl

theorem standDown_unaffected (h : ∀ p, db.pullRequest? id = some p → p.status = .opened →
    ∀ r ∈ p.reviewers, r ∉ db.activeMembers team) :
    (db.standDown team now).pullRequest? id = db.pullRequest? id := by
  cases hp : db.pullRequest? id with
  | none =>
      rw [pullRequest?_eq_none_iff] at hp ⊢
      rwa [pullRequests_standDown]
  | some p =>
      have hnot := h p hp
      obtain ⟨row, hrow, rfl, rfl⟩ := pullRequest?_eq_some_iff.1 hp
      have hunaffected : ¬ db.affects (db.activeMembers team) row = true := by
        rw [affects_iff_of_mem]
        rintro ⟨hopen, r, hr, hgone⟩
        exact hnot hopen r hr hgone
      rw [pullRequest?_standDown hrow, reviewersOf_standDown hrow, if_neg hunaffected]

theorem standDown_nobody_left (hp : (db.standDown team now).pullRequest? id = some p)
    (hopen : p.status = .opened) : ∀ r ∈ p.reviewers, r ∉ db.activeMembers team := by
  obtain ⟨row, hrow, rfl, rfl⟩ := pullRequest?_eq_some_iff.1 hp
  rw [pullRequests_standDown] at hrow
  intro r hr hgone
  have hr : r ∈ (db.standDown team now).reviewersOf row.id := hr
  rw [reviewersOf_standDown hrow] at hr
  split at hr
  · rcases mem_refill hr with ⟨-, hstays⟩ | ⟨hnew, -⟩
    · exact hstays hgone
    · exact not_mem_teammates_of_dismissed hgone hnew
  · next hnot => exact hnot (affects_iff_of_mem.2 ⟨hopen, r, hr, hgone⟩)

end Database

theorem mem_of_short {authorId : String} {kept : List String} {pool : List User} {u : User}
    (hshort : (kept ++ (candidates authorId kept pool).take (2 - kept.length)).length < 2)
    (hu : u ∈ pool) (hactive : u.isActive = true) :
    u.id = authorId ∨ u.id ∈ kept ++ (candidates authorId kept pool).take (2 - kept.length) := by
  rw [List.length_append, List.length_take] at hshort
  rw [List.take_of_length_le (by omega), List.mem_append, mem_candidates]
  by_cases hauthor : u.id = authorId
  · exact .inl hauthor
  · by_cases hkept : u.id ∈ kept
    · exact .inr (.inl hkept)
    · exact .inr (.inr ⟨hauthor, hkept, u, hu, rfl, hactive⟩)

theorem offDuty_standDown {db : Database} {team : String} {now : Int64} (hdb : db.Consistent) :
    OffDuty team (db.activeMembers team) ⟨team, (db.activeMembers team).length,
      db.pullRequests.rows.countP (db.affects (db.activeMembers team))⟩ db
        (db.standDown team now) := by
  constructor
  case gone_nodup => exact activeMembers_nodup
  case mem_gone => exact fun _ => mem_activeMembers
  case users => exact fun _ => user?_standDown_eq
  case rosters => exact fun _ => ⟨roster_ascending, fun _ => mem_roster⟩
  case refilled => exact fun _ _ => standDown_refilled now hdb
  case unaffected => exact fun _ => standDown_unaffected
  case nobody_left => exact fun _ _ => standDown_nobody_left
  case summary_eq =>
    have hcount : db.affects (db.activeMembers team) = fun p =>
        decide (p.status = .opened ∧ ∃ r ∈ db.reviewersOf p.id, r ∈ db.activeMembers team) := by
      funext row
      rw [Bool.eq_iff_iff, affects_iff_of_mem, decide_eq_true_iff]
    rw [hcount]
  case short_only_if =>
    intro id p p' hp hstatus hgone hp' hshort author hauthor u hu hactive
    obtain ⟨author', hauthor', hrefilled⟩ := standDown_refilled now hdb hp hstatus hgone
    rw [hauthor] at hauthor'
    cases hauthor'
    rw [hp'] at hrefilled
    cases hrefilled
    exact mem_of_short hshort hu hactive

def Trace.staffed : Trace .distinct := .ofList
  ([Turn.arrive (.createTeam "web" [⟨"a", "Ann", true⟩, ⟨"b", "Bob", true⟩, ⟨"c", "Cid", true⟩])] ++
    List.replicate 5 (Turn.act 0 [] 5) ++ [Turn.arrive (.createPullRequest "p" "Fix" "a")] ++
    List.replicate 7 (Turn.act 1 ["b", "c"] 6))
  (by decide +kernel)

end ReviewRota
