import Mathlib
import ReviewRota.Proofs.Batches
import ReviewRota.Proofs.Storing

/-!
# Rewriting a reviewer list

The rows of a pull request are deleted and the rows of a list are inserted one by one.  What was
there before does not matter, and a reviewer who is listed twice or not stored is the only thing
that stands against it.
-/

namespace ReviewRota

namespace Database

variable {rejects : Rejects} {db db' : Database} {id other : String} {l l' : List String}
  {e : Error}

theorem writeReviewers_eq_insertReviewers (hrejects : ∀ c, rejects c = false) :
    writeReviewers rejects id l db = insertReviewers rejects id l (db.withoutReviewers id) := by
  have hdelete : ((db.reviewers.rows.filter fun r => r.slot.pullRequest = id).forM fun r =>
      permit rejects (.deleteReviewer r.slot) .deleteReviewers) = .ok () :=
    forM_permit_eq_ok.2 fun _ _ => hrejects _
  rw [writeReviewers, hdelete]
  rfl

theorem writeReviewers_rewrite (hrejects : ∀ c, rejects c = false) :
    writeReviewers rejects id l' (db.rewrite id l) = writeReviewers rejects id l' db := by
  rw [writeReviewers_eq_insertReviewers hrejects, withoutReviewers_rewrite,
    writeReviewers_eq_insertReviewers hrejects]

section Permitted

variable (hrejects : ∀ c, rejects c = false) (hp : db.hasPullRequest id = true)

include hrejects hp

theorem writeReviewers_of_fit (h : db.Fit l) :
    writeReviewers rejects id l db = .ok (db.rewrite id l) := by
  rw [writeReviewers_eq_insertReviewers hrejects]
  exact insertReviewers_of_fit hrejects (fun _ => contains_withoutReviewers rfl) hp (h.congr rfl)

theorem writeReviewers_of_misfit (h : Misfit db id l e) :
    writeReviewers rejects id l db = .error e := by
  rw [writeReviewers_eq_insertReviewers hrejects]
  exact insertReviewers_of_misfit hrejects (fun _ => contains_withoutReviewers rfl) hp (h.congr rfl)

theorem writeReviewers_eq_ok_iff :
    writeReviewers rejects id l db = .ok db' ↔ db.Fit l ∧ db' = db.rewrite id l := by
  by_cases hfit : db.Fit l
  · rw [writeReviewers_of_fit hrejects hp hfit]
    simp [hfit, eq_comm]
  · obtain ⟨e, he⟩ := exists_misfit id hfit
    rw [writeReviewers_of_misfit hrejects hp he]
    simp [hfit]

theorem writeReviewers_eq_error_iff :
    writeReviewers rejects id l db = .error e ↔ Misfit db id l e := by
  refine ⟨fun herror => ?_, writeReviewers_of_misfit hrejects hp⟩
  by_cases hfit : db.Fit l
  · rw [writeReviewers_of_fit hrejects hp hfit] at herror
    cases herror
  · obtain ⟨e', he'⟩ := exists_misfit id hfit
    rw [writeReviewers_of_misfit hrejects hp he'] at herror
    cases herror
    exact he'

end Permitted

theorem mem_rewrite (hl : l.Nodup) {r : ReviewerRow} :
    r ∈ (db.rewrite id l).reviewers.rows ↔
      r ∈ listed id l ∨ r ∈ db.reviewers.rows ∧ r.slot.pullRequest ≠ id := by
  by_cases hid : r.slot.pullRequest = id
  · have hrow : r ∈ (db.rewrite id l).reviewers.rows ↔ r ∈ listed id l := by
      rw [← (rowsOf_rewrite hl).mem_iff, mem_rowsOf, and_iff_left hid]
    simp [hrow, hid]
  · have hout : r ∉ listed id l := fun hr => hid (pullRequest_of_mem_listed hr)
    have hrow : r ∈ (db.rewrite id l).reviewers.rows ↔ r ∈ db.reviewers.rows := by
      have hsame : r ∈ (db.rewrite id l).rowsOf r.slot.pullRequest ↔
          r ∈ db.rowsOf r.slot.pullRequest := by rw [rowsOf_rewrite_of_ne hid]
      simpa [mem_rowsOf] using hsame
    simp [hrow, hout, hid]

structure Written (id : String) (l : List String) (db db' : Database) : Prop where
  reviewers : db'.reviewersOf id = l
  positions : (byPosition (db'.rowsOf id)).map ReviewerRow.position =
    (List.range l.length).map Int.ofNat
  others : ∀ other, other ≠ id → db'.rowsOf other = db.rowsOf other
  pullRequests : db'.pullRequests = db.pullRequests
  users : db'.users = db.users
  teams : db'.teams = db.teams

theorem written_rewrite (hl : l.Nodup) : Written id l db (db.rewrite id l) where
  reviewers := reviewersOf_rewrite hl
  positions := by rw [byPosition_eq_of_perm (rowsOf_rewrite hl), map_position_listed]
  others _ := rowsOf_rewrite_of_ne
  pullRequests := rfl
  users := rfl
  teams := rfl

theorem Consistent.rewrite (hdb : db.Consistent) (hp : db.hasPullRequest id = true)
    (hfit : db.Fit l) : (db.rewrite id l).Consistent where
  team_of_user := hdb.team_of_user
  author_of_pullRequest := hdb.author_of_pullRequest
  pullRequest_of_reviewer r hr := by
    rcases (mem_rewrite hfit.distinct).1 hr with hnew | ⟨hold, -⟩
    · rw [pullRequest_of_mem_listed hnew]
      exact hp
    · exact hdb.pullRequest_of_reviewer r hold
  user_of_reviewer r hr := by
    rcases (mem_rewrite hfit.distinct).1 hr with hnew | ⟨hold, -⟩
    · obtain ⟨u, hu⟩ := hfit.known _ (mem_of_mem_listed hnew)
      exact contains_of_user? hu
    · exact hdb.user_of_reviewer r hold

theorem fit_rewrite : (db.rewrite id l).Fit l' ↔ db.Fit l' :=
  ⟨fun h => h.congr rfl, fun h => h.congr rfl⟩

theorem hasPullRequest_rewrite :
    (db.rewrite id l).hasPullRequest other = db.hasPullRequest other := rfl

theorem rewrite_comm (h : other ≠ id) (hl : l.Nodup) (hl' : l'.Nodup) :
    (db.rewrite id l).rewrite other l' = (db.rewrite other l').rewrite id l := by
  have hrows : ((db.rewrite id l).rewrite other l').reviewers =
      ((db.rewrite other l').rewrite id l).reviewers := by
    apply Table.ext_mem
    intro r
    -- A row tells by its pull request which of the lists it belongs to.
    have hid : r ∈ listed id l → r.slot.pullRequest ≠ other := fun hr => by
      rw [pullRequest_of_mem_listed hr]
      exact h.symm
    have hother : r ∈ listed other l' → r.slot.pullRequest ≠ id := fun hr => by
      rw [pullRequest_of_mem_listed hr]
      exact h
    simp only [mem_rewrite hl, mem_rewrite hl']
    tauto
  exact congrArg (fun reviewers => { db with reviewers }) hrows

section TwoLists

variable (hrejects : ∀ c, rejects c = false) (hp : db.hasPullRequest id = true)
  (hp' : db.hasPullRequest other = true)

include hrejects hp hp'

theorem writeReviewers_bind_eq_ok_iff :
    (writeReviewers rejects id l db >>= writeReviewers rejects other l') = .ok db' ↔
      db.Fit l ∧ db.Fit l' ∧ db' = (db.rewrite id l).rewrite other l' := by
  have hlater : writeReviewers rejects other l' (db.rewrite id l) = .ok db' ↔
      db.Fit l' ∧ db' = (db.rewrite id l).rewrite other l' := by
    rw [writeReviewers_eq_ok_iff hrejects (hasPullRequest_rewrite.trans hp'), fit_rewrite]
  rw [bind_eq_ok, ← hlater]
  constructor
  · rintro ⟨_, hfirst, hsecond⟩
    obtain ⟨hfit, rfl⟩ := (writeReviewers_eq_ok_iff hrejects hp).1 hfirst
    exact ⟨hfit, hsecond⟩
  · rintro ⟨hfit, hsecond⟩
    exact ⟨_, writeReviewers_of_fit hrejects hp hfit, hsecond⟩

theorem writeReviewers_comm (h : other ≠ id) :
    (writeReviewers rejects id l db >>= writeReviewers rejects other l') = .ok db' ↔
      (writeReviewers rejects other l' db >>= writeReviewers rejects id l) = .ok db' := by
  rw [writeReviewers_bind_eq_ok_iff hrejects hp hp', writeReviewers_bind_eq_ok_iff hrejects hp' hp]
  constructor
  · rintro ⟨hfit, hfit', rfl⟩
    exact ⟨hfit', hfit, rewrite_comm h hfit.distinct hfit'.distinct⟩
  · rintro ⟨hfit', hfit, rfl⟩
    exact ⟨hfit, hfit', (rewrite_comm h hfit.distinct hfit'.distinct).symm⟩

end TwoLists

theorem rewriteAll_perm {updates updates' : List Repair.Update} (hperm : updates.Perm updates')
    (hids : (updates.map (·.pullRequest)).Nodup) (hl : ∀ u ∈ updates, u.reviewers.Nodup) :
    db.rewriteAll updates = db.rewriteAll updates' := by
  refine hperm.foldl_eq' (fun u hu v hv db => ?_) db
  by_cases huv : v.pullRequest = u.pullRequest
  · rw [List.inj_on_of_nodup_map hids hv hu huv]
  · exact rewrite_comm huv (hl u hu) (hl v hv)

theorem writeUpdates_eq_ok_iff {team : String} {updates : List Repair.Update}
    (hrejects : ∀ c, rejects c = false)
    (hp : ∀ u ∈ updates, db.hasPullRequest u.pullRequest = true) :
    (writeUpdates rejects team updates db).1 = .ok db' ↔
      (∀ u ∈ updates, db.Fit u.reviewers) ∧ db' = db.rewriteAll updates := by
  induction updates generalizing db with
  | nil => simp [writeUpdates, rewriteAll, eq_comm]
  | cons u rest ih =>
      obtain ⟨hu, hrest⟩ := List.forall_mem_cons.1 hp
      by_cases hfit : db.Fit u.reviewers
      · -- Writing one list changes neither who is stored nor which pull requests are.
        have hlater : (writeUpdates rejects team rest (db.rewrite u.pullRequest u.reviewers)).1 =
            .ok db' ↔ (∀ v ∈ rest, db.Fit v.reviewers) ∧
              db' = (db.rewrite u.pullRequest u.reviewers).rewriteAll rest := by
          rw [ih fun v hv => hasPullRequest_rewrite.trans (hrest v hv)]
          simp only [fit_rewrite]
        simp only [writeUpdates, writeReviewers_of_fit hrejects hu hfit, List.forall_mem_cons,
          hfit, true_and]
        exact hlater
      · obtain ⟨e, he⟩ := exists_misfit u.pullRequest hfit
        simp [writeUpdates, writeReviewers_of_misfit hrejects hu he, hfit]

theorem writeUpdates_perm {team : String} {updates updates' : List Repair.Update}
    (hrejects : ∀ c, rejects c = false) (hperm : updates.Perm updates')
    (hids : (updates.map (·.pullRequest)).Nodup)
    (hp : ∀ u ∈ updates, db.hasPullRequest u.pullRequest = true) :
    (writeUpdates rejects team updates db).1 = .ok db' ↔
      (writeUpdates rejects team updates' db).1 = .ok db' := by
  have hp' : ∀ u ∈ updates', db.hasPullRequest u.pullRequest = true :=
    fun u hu => hp u (hperm.mem_iff.2 hu)
  rw [writeUpdates_eq_ok_iff hrejects hp, writeUpdates_eq_ok_iff hrejects hp']
  have hfits : (∀ u ∈ updates, db.Fit u.reviewers) ↔ ∀ u ∈ updates', db.Fit u.reviewers :=
    ⟨fun h u hu => h u (hperm.mem_iff.2 hu), fun h u hu => h u (hperm.mem_iff.1 hu)⟩
  rw [← hfits]
  refine and_congr_right fun hfit => ?_
  rw [rewriteAll_perm hperm hids fun u hu => (hfit u hu).distinct]

/-- Which lists can be written, what stands against another, and what is there afterwards: the
list that was written last, whatever was there before and whichever came first elsewhere. -/
theorem rewriting (rejects : Rejects) (hrejects : ∀ c, rejects c = false) (db : Database)
    (hdb : db.Consistent) (id : String) (hp : db.hasPullRequest id = true) :
    (∀ l, (∃ db', writeReviewers rejects id l db = .ok db') ↔ db.Fit l) ∧
      (∀ l e, writeReviewers rejects id l db = .error e ↔ Misfit db id l e) ∧
      (∀ l db', writeReviewers rejects id l db = .ok db' →
        Written id l db db' ∧ db'.Consistent ∧
          ∀ l', writeReviewers rejects id l' db' = writeReviewers rejects id l' db) ∧
      (∀ other, other ≠ id → db.hasPullRequest other = true → ∀ l l' db',
        (writeReviewers rejects id l db >>= writeReviewers rejects other l') = .ok db' ↔
          (writeReviewers rejects other l' db >>= writeReviewers rejects id l) = .ok db') ∧
      ∀ (team : String) (updates updates' : List Repair.Update), updates.Perm updates' →
        (updates.map (·.pullRequest)).Nodup →
        (∀ u ∈ updates, db.hasPullRequest u.pullRequest = true) → ∀ db',
          (writeUpdates rejects team updates db).1 = .ok db' ↔
            (writeUpdates rejects team updates' db).1 = .ok db' := by
  refine ⟨fun l => ?_, fun l e => writeReviewers_eq_error_iff hrejects hp, fun l db' hwrite => ?_,
    fun other hother hp' l l' db' => writeReviewers_comm hrejects hp hp' hother,
    fun team updates updates' hperm hids hp' db' => writeUpdates_perm hrejects hperm hids hp'⟩
  · simp only [writeReviewers_eq_ok_iff hrejects hp, exists_and_left, exists_eq, and_true]
  · obtain ⟨hfit, rfl⟩ := (writeReviewers_eq_ok_iff hrejects hp).1 hwrite
    exact ⟨written_rewrite hfit.distinct, hdb.rewrite hp hfit,
      fun l' => writeReviewers_rewrite hrejects⟩

theorem rewriting_scattered :
    scattered.Consistent ∧ scattered.hasPullRequest "p" = true ∧
      (∃ db', writeReviewers (fun _ => false) "p" ["c", "b"] scattered = .ok db' ∧
        Written "p" ["c", "b"] scattered db') ∧
      Misfit scattered "p" ["b", "b"] (.storage .reviewerTwice (some (.insertReviewer "b" "p"))) := by
  have hdb : scattered.Consistent := by constructor <;> decide +kernel
  have hp : scattered.hasPullRequest "p" = true := by decide +kernel
  obtain ⟨-, herror, hwritten, -⟩ := rewriting (fun _ => false) (fun _ => rfl) scattered hdb "p" hp
  have hok : (writeReviewers (fun _ => false) "p" ["c", "b"] scattered).isOk = true := by
    decide +kernel
  have htwice : writeReviewers (fun _ => false) "p" ["b", "b"] scattered =
      .error (.storage .reviewerTwice (some (.insertReviewer "b" "p"))) := by decide +kernel
  refine ⟨hdb, hp, ?_, (herror _ _).1 htwice⟩
  cases hwrite : writeReviewers (fun _ => false) "p" ["c", "b"] scattered with
  | error e => rw [hwrite] at hok; cases hok
  | ok db' => exact ⟨db', rfl, (hwritten _ _ hwrite).1⟩

end Database

end ReviewRota
