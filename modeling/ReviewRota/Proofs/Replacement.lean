import Mathlib
import ReviewRota.Proofs.Decision

/-!
# Giving away a place in one statement

One conditional update decides whether a place is given away, and which error it is otherwise is
found out from what is read after it.  Together they report the first condition that is not met,
whatever is stored and whichever of the ids coincide.
-/

namespace ReviewRota

open Database

namespace Database

variable {db db' db'' : Database} {id old new : String} {slot : Slot} {p : PullRequest}
  {result : Except Error (Option PullRequest)} {rejects : Rejects}

/-- The condition of the update, which every row of a reviewer is held against. -/
def isMeant (db : Database) (id old new : String) (r : ReviewerRow) : Bool :=
  r.slot.pullRequest = id && r.slot.reviewer = old &&
    (db.pullRequests.get? id).any (·.status = .opened) &&
    (db.users.get? new).any (·.user.isActive) && !db.reviewers.contains ⟨id, new⟩

theorem isMeant_iff {r : ReviewerRow} (hr : r ∈ db.reviewers.rows) :
    db.isMeant id old new r = true ↔ r.slot = ⟨id, old⟩ ∧ db.canReplace id old new = true := by
  have hslot : r.slot.pullRequest = id ∧ r.slot.reviewer = old ↔ r.slot = ⟨id, old⟩ := by
    obtain ⟨⟨_, _⟩, _⟩ := r
    simp
  have hcontains : r.slot = ⟨id, old⟩ → db.reviewers.contains ⟨id, old⟩ = true :=
    fun h => Table.contains_iff.2 ⟨r, hr, h⟩
  simp only [isMeant, canReplace, Bool.and_eq_true, decide_eq_true_eq, hslot]
  tauto

theorem countP_isMeant : db.reviewers.rows.countP (db.isMeant id old new) =
    if db.canReplace id old new = true then 1 else 0 := by
  split
  · next hcan =>
      have hmem : (⟨id, old⟩ : Slot) ∈ db.reviewers.rows.map ReviewerRow.slot := by
        obtain ⟨r, hr, hslot⟩ := Table.contains_iff.1 (canReplace_iff.1 hcan).1
        exact List.mem_map.2 ⟨r, hr, hslot⟩
      have hcount := List.count_eq_one_of_mem db.reviewers.keys_nodup hmem
      rw [List.count, List.countP_map] at hcount
      rw [← hcount]
      refine List.countP_congr fun r hr => ?_
      simp [isMeant_iff hr, hcan]
  · next hcan =>
      refine List.countP_eq_zero.2 fun r hr hmeant => ?_
      exact hcan ((isMeant_iff hr).1 hmeant).2

def updateRows (db : Database) (id old new : String) : List ReviewerRow :=
  db.reviewers.rows.map fun r => if db.isMeant id old new r = true then handOver old new r else r

theorem updateRows_of_not_canReplace (h : ¬ db.canReplace id old new = true) :
    db.updateRows id old new = db.reviewers.rows := by
  have hsame : ∀ r ∈ db.reviewers.rows,
      (if db.isMeant id old new r = true then handOver old new r else r) = r :=
    fun r hr => if_neg fun hmeant => h ((isMeant_iff hr).1 hmeant).2
  rw [updateRows, List.map_congr_left hsame, List.map_id']

theorem rows_swapReviewer (h : db.canReplace id old new = true) :
    (db.swapReviewer ⟨id, old⟩ new).reviewers.rows.Perm (db.updateRows id old new) := by
  obtain ⟨hold, -, -, hnew⟩ := canReplace_iff.1 h
  have hchanged : ∀ r ∈ db.reviewers.rows, r.slot = ⟨id, old⟩ →
      (if db.isMeant id old new r = true then handOver old new r else r) =
        ⟨⟨id, new⟩, r.position⟩ := by
    intro r hr hslot
    rw [if_pos ((isMeant_iff hr).2 ⟨hslot, h⟩), handOver, hslot, if_pos rfl]
  have hstays : ∀ r ∈ db.reviewers.rows, r.slot ≠ ⟨id, old⟩ →
      (if db.isMeant id old new r = true then handOver old new r else r) = r :=
    fun r hr hslot => if_neg fun hmeant => hslot ((isMeant_iff hr).1 hmeant).1
  have hfresh : ∀ r ∈ db.reviewers.rows, r.slot ≠ ⟨id, new⟩ := by
    intro r hr hslot
    rw [Table.contains_iff.2 ⟨r, hr, hslot⟩] at hnew
    cases hnew
  refine (List.perm_ext_iff_of_nodup (Table.rows_nodup _) ?_).2 fun r => ?_
  · refine db.reviewers.rows_nodup.map_on fun a ha b hb hab => ?_
    by_cases haslot : a.slot = ⟨id, old⟩ <;> by_cases hbslot : b.slot = ⟨id, old⟩
    · exact Table.eq_of_key_eq ha hb (haslot.trans hbslot.symm)
    · rw [hchanged a ha haslot, hstays b hb hbslot] at hab
      exact absurd (congrArg ReviewerRow.slot hab.symm) (hfresh b hb)
    · rw [hstays a ha haslot, hchanged b hb hbslot] at hab
      exact absurd (congrArg ReviewerRow.slot hab) (hfresh a ha)
    · rwa [hstays a ha haslot, hstays b hb hbslot] at hab
  · rw [mem_swapReviewer hold hnew, updateRows, List.mem_map]
    constructor
    · rintro (⟨hr, hslot⟩ | ⟨position, hposition, rfl⟩)
      · exact ⟨r, hr, hstays r hr hslot⟩
      · exact ⟨_, hposition, hchanged _ hposition rfl⟩
    · rintro ⟨a, ha, rfl⟩
      by_cases hslot : a.slot = ⟨id, old⟩
      · rw [hchanged a ha hslot]
        exact .inr ⟨a.position, hslot ▸ ha, rfl⟩
      · rw [hstays a ha hslot]
        exact .inl ⟨ha, hslot⟩

structure Rewritten (slot : Slot) (new : String) (db db' : Database) : Prop where
  row : ∃ position, ⟨slot, position⟩ ∈ db.reviewers.rows ∧
    ∀ r, r ∈ db'.reviewers.rows ↔
      r = ⟨⟨slot.pullRequest, new⟩, position⟩ ∨ r ∈ db.reviewers.rows ∧ r.slot ≠ slot
  teams : db'.teams = db.teams
  users : db'.users = db.users
  pullRequests : db'.pullRequests = db.pullRequests

theorem Rewritten.unique (h : Rewritten slot new db db') (h' : Rewritten slot new db db'') :
    db' = db'' := by
  obtain ⟨position, hmem, hrows⟩ := h.row
  obtain ⟨position', hmem', hrows'⟩ := h'.row
  have hposition : position = position' :=
    congrArg ReviewerRow.position (Table.eq_of_key_eq hmem hmem' rfl)
  have hreviewers : db'.reviewers = db''.reviewers := by
    refine Table.ext_mem fun r => ?_
    rw [hrows, hrows', hposition]
  obtain ⟨_, _, _, _⟩ := db'
  obtain ⟨_, _, _, _⟩ := db''
  rw [mk.injEq]
  exact ⟨h.teams.trans h'.teams.symm, h.users.trans h'.users.symm,
    h.pullRequests.trans h'.pullRequests.symm, hreviewers⟩

theorem rewritten_swapReviewer (h : db.canReplace id old new = true) :
    Rewritten ⟨id, old⟩ new db (db.swapReviewer ⟨id, old⟩ new) where
  row := by
    obtain ⟨hold, -, -, hnew⟩ := canReplace_iff.1 h
    obtain ⟨⟨slot, position⟩, hr, rfl⟩ := Table.contains_iff.1 hold
    refine ⟨position, hr, fun r => ?_⟩
    rw [mem_swapReviewer hold hnew, or_comm]
    refine or_congr_left ⟨?_, fun h => ⟨position, hr, h⟩⟩
    rintro ⟨position', hr', rfl⟩
    rw [ReviewerRow.mk.inj (Table.eq_of_key_eq hr hr' rfl) |>.2]
  teams := teams_swapReviewer
  users := users_swapReviewer
  pullRequests := pullRequests_swapReviewer

/-- The first condition that is not met, or the change when all are. -/
inductive Replacement (db : Database) (id old new : String) :
    Except Error (Option PullRequest) → Database → Prop
  | absent (absent : db.pullRequest? id = none) : Replacement db id old new (.ok none) db
  | merged {p : PullRequest} (stored : db.pullRequest? id = some p) (merged : p.status = .merged) :
      Replacement db id old new (.error (.pullRequestMerged id)) db
  | unassigned {p : PullRequest} (stored : db.pullRequest? id = some p)
      (opened : p.status = .opened) (missing : old ∉ p.reviewers) :
      Replacement db id old new (.error (.notAssigned id old)) db
  | unavailable {p : PullRequest} (stored : db.pullRequest? id = some p)
      (opened : p.status = .opened) (assigned : old ∈ p.reviewers)
      (unfit : (¬ ∃ u, db.user? new = some u ∧ u.isActive = true) ∨ new ∈ p.reviewers) :
      Replacement db id old new (.error (.noCandidate id)) db
  | replaced {p : PullRequest} {u : User} {k : Nat} {db' : Database}
      (stored : db.pullRequest? id = some p) (opened : p.status = .opened)
      (assigned : p.reviewers[k]? = some old) (candidate : db.user? new = some u)
      (active : u.isActive = true) (fresh : new ∉ p.reviewers)
      (rewritten : Rewritten ⟨id, old⟩ new db db')
      (loaded : db'.pullRequest? id = some { p with reviewers := p.reviewers.set k new }) :
      Replacement db id old new (.ok (some { p with reviewers := p.reviewers.set k new })) db'

theorem canReplace_iff_of_pullRequest? (hp : db.pullRequest? id = some p) :
    db.canReplace id old new = true ↔ p.status = .opened ∧ old ∈ p.reviewers ∧
      (∃ u, db.user? new = some u ∧ u.isActive = true) ∧ new ∉ p.reviewers := by
  obtain ⟨row, hrow, rfl⟩ := pullRequest?_eq_some_iff_get?.1 hp
  have hreviewer : ∀ r, r ∈ (row.withReviewers (db.reviewersOf id)).reviewers ↔
      db.reviewers.contains ⟨id, r⟩ = true := fun r => mem_reviewersOf
  rw [canReplace_iff, hreviewer, hreviewer, Bool.not_eq_true, hrow]
  simp only [Option.some.injEq, exists_eq_left']
  exact and_left_comm

theorem not_canReplace_of_absent (hp : db.pullRequest? id = none) :
    ¬ db.canReplace id old new = true := by
  intro hcan
  obtain ⟨-, ⟨row, hrow, -⟩, -⟩ := canReplace_iff.1 hcan
  rw [pullRequest?, hrow] at hp
  cases hp

theorem replaceReviewer_of_absent (hp : db.pullRequest? id = none) :
    db.replaceReviewer rejects id old new = .ok (none, db) := by
  unfold replaceReviewer
  rw [if_neg (not_canReplace_of_absent hp), hp]
  rfl

theorem replaceReviewer_of_opened (hp : db.pullRequest? id = some p) (hopened : p.status = .opened)
    (hcannot : ¬ db.canReplace id old new = true) :
    db.replaceReviewer rejects id old new =
      if old ∈ p.reviewers then .error (.noCandidate id) else .error (.notAssigned id old) := by
  have hpasses : p.requireOpen = .ok () := by
    simp [PullRequest.requireOpen, PullRequest.isMerged, hopened]
  unfold replaceReviewer
  rw [if_neg hcannot, hp]
  simp only [hpasses, PullRequest.hasReviewer, List.contains_eq_mem]
  by_cases hold : old ∈ p.reviewers <;> simp only [hold] <;> rfl

theorem exists_replacement (hpos : ((db.rowsOf id).map ReviewerRow.position).Nodup) :
    ∃ result db', Replacement db id old new result db' := by
  cases hp : db.pullRequest? id with
  | none => exact ⟨_, _, .absent hp⟩
  | some p =>
      cases hstatus : p.status with
      | merged => exact ⟨_, _, .merged hp hstatus⟩
      | opened =>
          by_cases hold : old ∈ p.reviewers
          · by_cases hfit : (∃ u, db.user? new = some u ∧ u.isActive = true) ∧ new ∉ p.reviewers
            · obtain ⟨⟨u, hu, hactive⟩, hnew⟩ := hfit
              have hcan : db.canReplace id old new = true :=
                (canReplace_iff_of_pullRequest? hp).2 ⟨hstatus, hold, ⟨u, hu, hactive⟩, hnew⟩
              obtain ⟨k, hk, hloaded⟩ := pullRequest?_swapReviewer hp hold hnew hpos
              exact ⟨_, _, .replaced hp hstatus hk hu hactive hnew (rewritten_swapReviewer hcan)
                hloaded⟩
            · rw [not_and_or, not_not] at hfit
              exact ⟨_, _, .unavailable hp hstatus hold hfit⟩
          · exact ⟨_, _, .unassigned hp hstatus hold⟩

theorem Replacement.changes (h : Replacement db id old new result db') :
    db.canReplace id old new = true ∧ db' = db.swapReviewer ⟨id, old⟩ new ∧
        (∃ p, result = .ok (some p)) ∨
      ¬ db.canReplace id old new = true ∧ db' = db ∧ ¬ ∃ p, result = .ok (some p) := by
  cases h with
  | absent hp => exact .inr ⟨not_canReplace_of_absent hp, rfl, by rintro ⟨_, ⟨⟩⟩⟩
  | merged hp hmerged =>
      refine .inr ⟨fun hcan => ?_, rfl, by rintro ⟨_, ⟨⟩⟩⟩
      have hopened := ((canReplace_iff_of_pullRequest? hp).1 hcan).1
      rw [hmerged] at hopened
      cases hopened
  | unassigned hp _ hmissing =>
      exact .inr ⟨fun hcan => hmissing ((canReplace_iff_of_pullRequest? hp).1 hcan).2.1, rfl,
        by rintro ⟨_, ⟨⟩⟩⟩
  | unavailable hp _ _ hunfit =>
      refine .inr ⟨fun hcan => ?_, rfl, by rintro ⟨_, ⟨⟩⟩⟩
      obtain ⟨-, -, hactive, hfresh⟩ := (canReplace_iff_of_pullRequest? hp).1 hcan
      exact hunfit.elim (fun hinactive => hinactive hactive) hfresh
  | replaced hp hopened hk hu hactive hfresh hrewritten _ =>
      have hcan : db.canReplace id old new = true := (canReplace_iff_of_pullRequest? hp).2
        ⟨hopened, List.mem_of_getElem? hk, ⟨_, hu, hactive⟩, hfresh⟩
      exact .inl ⟨hcan, hrewritten.unique (rewritten_swapReviewer hcan), _, rfl⟩

theorem Replacement.countP_isMeant_eq_one_iff (h : Replacement db id old new result db') :
    db.reviewers.rows.countP (db.isMeant id old new) = 1 ↔ ∃ p, result = .ok (some p) := by
  rw [countP_isMeant]
  obtain ⟨hcan, -, hsome⟩ | ⟨hcannot, -, hnone⟩ := h.changes
  · simp [hcan, hsome]
  · simp [hcannot, hnone]

theorem Replacement.rows_perm (h : Replacement db id old new result db') :
    db'.reviewers.rows.Perm (db.updateRows id old new) := by
  obtain ⟨hcan, rfl, -⟩ | ⟨hcannot, rfl, -⟩ := h.changes
  · exact rows_swapReviewer hcan
  · rw [updateRows_of_not_canReplace hcannot]

end Database

namespace Store

variable {s : Store} {id old new : String} {result : Except Error (Option PullRequest)}
  {db' : Database}

theorem perform_of_replacement (hcalm : s.Calm)
    (h : Replacement s.database id old new result db') :
    (s.perform (.replaceReviewer id old new)).result = result ∧
      (s.perform (.replaceReviewer id old new)).store = { s with database := db' } := by
  have hchanges := h.changes
  cases h with
  | absent hp =>
      obtain ⟨hresult, hdb⟩ := perform_of_effect (c := .replaceReviewer id old new) hcalm.isOpen
        (replaceReviewer_of_absent hp)
      exact ⟨hresult, by rw [store_perform, hdb]⟩
  | merged hp hmerged =>
      exact perform_of_error (c := .replaceReviewer id old new) hcalm.isOpen
        (replaceReviewer_of_merged hp hmerged)
  | unassigned hp hopened hmissing =>
      obtain ⟨-, -, -, ⟨⟩⟩ | ⟨hcannot, -⟩ := hchanges
      exact perform_of_error (c := .replaceReviewer id old new) hcalm.isOpen
        ((replaceReviewer_of_opened hp hopened hcannot).trans (if_neg hmissing))
  | unavailable hp hopened hold hunfit =>
      obtain ⟨-, -, -, ⟨⟩⟩ | ⟨hcannot, -⟩ := hchanges
      exact perform_of_error (c := .replaceReviewer id old new) hcalm.isOpen
        ((replaceReviewer_of_opened hp hopened hcannot).trans (if_pos hold))
  | replaced _ _ _ _ _ _ _ hloaded =>
      obtain ⟨hcan, rfl, -⟩ | ⟨-, -, hnone⟩ := hchanges
      · obtain ⟨hresult, hdb⟩ := perform_of_effect (c := .replaceReviewer id old new) hcalm.isOpen
          (replaceReviewer_of_canReplace hcalm.permits hcan)
        rw [hloaded] at hresult
        exact ⟨hresult, by rw [store_perform, hdb]⟩
      · exact absurd ⟨_, rfl⟩ hnone

/-- Giving a place away reports the first condition that is not met; only if all are met does
anything change, and then one row. -/
theorem replacement (s : Store) (hcalm : s.Calm) (id old new : String)
    (hpos : ((s.database.rowsOf id).map ReviewerRow.position).Nodup) :
    let reply := s.perform (.replaceReviewer id old new)
    (∀ result db', Replacement s.database id old new result db' ↔
      reply.result = result ∧ reply.store = { s with database := db' }) ∧
    s.database.reviewers.rows.countP (s.database.isMeant id old new) ≤ 1 ∧
    (s.database.reviewers.rows.countP (s.database.isMeant id old new) = 1 ↔
      ∃ p, reply.result = .ok (some p)) ∧
    reply.store.database.reviewers.rows.Perm (s.database.updateRows id old new) := by
  intro reply
  obtain ⟨result, db', h⟩ := exists_replacement hpos
  obtain ⟨hresult, hstore⟩ : reply.result = result ∧ reply.store = { s with database := db' } :=
    perform_of_replacement hcalm h
  refine ⟨fun result' db'' => ⟨perform_of_replacement hcalm, ?_⟩, ?_, ?_, ?_⟩
  · rintro ⟨hresult', hstore'⟩
    have hdb : db' = db'' := congrArg Store.database (hstore.symm.trans hstore')
    rwa [← hresult', ← hdb, hresult]
  · rw [countP_isMeant]
    split <;> decide
  · rw [hresult]
    exact h.countP_isMeant_eq_one_iff
  · rw [hstore]
    exact h.rows_perm

theorem replacement_crossing :
    (Trace.crossing.store 14).Calm ∧
      (((Trace.crossing.database 14).rowsOf "p").map ReviewerRow.position).Nodup ∧
      (∃ db', Replacement (Trace.crossing.database 14) "p" "b" "d"
        (.ok (some ⟨"p", "Fix", "a", .opened, ["d", "c"], 6, none⟩)) db') ∧
      Replacement (Trace.crossing.database 14) "p" "b" "b" (.error (.noCandidate "p"))
        (Trace.crossing.database 14) := by
  have hcalm : (Trace.crossing.store 14).Calm := Trace.calm_ofList (by decide) 14
  have hpos : (((Trace.crossing.database 14).rowsOf "p").map ReviewerRow.position).Nodup :=
    (Trace.crossing.layout 14).positions_nodup
  have hother : ((Trace.crossing.store 14).perform (.replaceReviewer "p" "b" "d")).result =
      .ok (some ⟨"p", "Fix", "a", .opened, ["d", "c"], 6, none⟩) := by cbv
  have hsame : ((Trace.crossing.store 14).perform (.replaceReviewer "p" "b" "b")).result =
      .error (.noCandidate "p") := by cbv
  exact ⟨hcalm, hpos,
    ⟨_, ((replacement _ hcalm "p" "b" "d" hpos).1 _ _).2 ⟨hother, store_perform⟩⟩,
    ((replacement _ hcalm "p" "b" "b" hpos).1 _ _).2 ⟨hsame, perform_eq_error hsame⟩⟩

end Store

end ReviewRota
