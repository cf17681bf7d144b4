import ReviewRota.Proofs.Change
import ReviewRota.Proofs.Lookup

/-!
# Refilling reviewer lists

What remains of a list after a deactivation, who follows, and the database in which all planned
lists are stored.
-/

namespace ReviewRota

theorem pairwise_eraseDups {α : Type} [BEq α] [LawfulBEq α] {R : α → α → Prop} :
    ∀ {l : List α}, l.Pairwise R → l.eraseDups.Pairwise fun a b => R a b ∧ a ≠ b
  | [], _ => .nil
  | a :: l, h => by
      obtain ⟨ha, hl⟩ := List.pairwise_cons.1 h
      rw [List.eraseDups_cons, List.pairwise_cons]
      refine ⟨fun b hb => ?_, pairwise_eraseDups (hl.filter _)⟩
      rw [List.mem_eraseDups, List.mem_filter] at hb
      have hne : b ≠ a := by simpa using hb.2
      exact ⟨ha b hb.1, hne.symm⟩
termination_by l => l.length
decreasing_by exact Nat.lt_succ_of_le (List.length_filter_le _ l)

theorem nodup_eraseDups (l : List String) : l.eraseDups.Nodup := by
  have h : l.Pairwise fun _ _ => True := List.pairwise_iff_forall_sublist.2 fun _ => trivial
  exact (pairwise_eraseDups h).imp And.right

theorem length_eraseDups_le : ∀ {l : List String}, l.eraseDups.length ≤ l.length
  | [] => Nat.le_refl 0
  | a :: l => by
      have ih := length_eraseDups_le (l := l.filter fun b => !b == a)
      rw [List.eraseDups_cons, List.length_cons, List.length_cons]
      exact Nat.succ_le_succ (Nat.le_trans ih (List.length_filter_le _ l))
termination_by l => l.length
decreasing_by exact Nat.lt_succ_of_le (List.length_filter_le _ l)

theorem eraseDups_filter {p : String → Bool} :
    ∀ {l : List String}, (l.filter p).eraseDups = l.eraseDups.filter p
  | [] => rfl
  | a :: l => by
      have ih := eraseDups_filter (p := p) (l := l.filter fun b => !b == a)
      rw [List.filter_filter] at ih
      cases ha : p a with
      | true =>
          rw [List.filter_cons_of_pos ha, List.eraseDups_cons, List.filter_filter,
            List.eraseDups_cons, List.filter_cons_of_pos ha, ← ih]
          simp only [Bool.and_comm]
      | false =>
          have hskip : (l.filter fun b => p b && !b == a) = l.filter p := by
            apply List.filter_congr
            intro b _
            by_cases hb : b = a <;> simp [hb, ha]
          rw [hskip] at ih
          simp [List.eraseDups_cons, ha, ih]
termination_by l => l.length
decreasing_by exact Nat.lt_succ_of_le (List.length_filter_le _ l)

namespace Repair

variable {authorId : String} {deactivated kept reviewers pool : List String}

/-! ## The planner on arbitrary lists -/

theorem survivors_eq :
    survivors deactivated kept reviewers =
      kept ++ (reviewers.filter fun id =>
        !deactivated.contains id && !kept.contains id).eraseDups := by
  induction reviewers generalizing kept with
  | nil => simp [survivors]
  | cons id rest ih =>
      unfold survivors
      split
      · next hgone =>
          have hout : (!deactivated.contains id && !kept.contains id) = false := by
            rw [← Bool.not_or, hgone, Bool.not_true]
          rw [ih, List.filter_cons, hout]
          rfl
      · next hstays =>
          have hin : (!deactivated.contains id && !kept.contains id) = true := by
            rw [← Bool.not_or, Bool.not_eq_true', ← Bool.not_eq_true]
            exact hstays
          rw [ih, List.filter_cons, hin, if_pos rfl, List.eraseDups_cons, List.filter_filter,
            List.append_assoc, List.singleton_append]
          congr 3
          apply List.filter_congr
          intro id' _
          by_cases hid : id' = id <;> simp [hid, Bool.and_comm]

theorem fill_eq :
    fill authorId reviewers pool =
      reviewers ++ ((pool.filter fun id => id ≠ authorId && !reviewers.contains id).eraseDups).take
        (reviewerCap - reviewers.length) := by
  induction pool generalizing reviewers with
  | nil => simp [fill]
  | cons id rest ih =>
      unfold fill
      split
      · next hfull => simp [Nat.sub_eq_zero_of_le hfull]
      · next hroom =>
          split
          · next hskip =>
              have hout : (decide (id ≠ authorId) && !reviewers.contains id) = false := by
                simpa [← Bool.not_or] using hskip
              rw [ih, List.filter_cons, hout]
              rfl
          · next htake =>
              have hin : (decide (id ≠ authorId) && !reviewers.contains id) = true := by
                simpa [← Bool.not_or] using htake
              have hlength : reviewerCap - reviewers.length =
                  reviewerCap - (reviewers ++ [id]).length + 1 := by
                rw [List.length_append, List.length_singleton]
                omega
              rw [ih, List.filter_cons, hin, if_pos rfl, List.eraseDups_cons, List.filter_filter,
                hlength, List.take_succ_cons, List.append_assoc, List.singleton_append]
              congr 4
              apply List.filter_congr
              intro id' _
              by_cases hid : id' = id <;> simp [hid, Bool.and_comm]

theorem eraseDups_of_nodup {l : List String} (h : l.Nodup) : l.eraseDups = l := by
  induction l with
  | nil => rfl
  | cons id rest ih =>
      obtain ⟨hid, hrest⟩ := List.nodup_cons.1 h
      have hkeep : (rest.filter fun b => !b == id) = rest := by
        rw [List.filter_eq_self]
        intro b hb
        simpa using fun hbid : b = id => hid (hbid ▸ hb)
      rw [List.eraseDups_cons, hkeep, ih hrest]

theorem survivors_of_nodup (h : reviewers.Nodup) :
    survivors deactivated [] reviewers = reviewers.filter fun id => !deactivated.contains id := by
  rw [survivors_eq, List.nil_append, eraseDups_of_nodup (h.filter _)]
  simp

theorem fill_of_nodup (h : pool.Nodup) :
    fill authorId reviewers pool =
      reviewers ++ (pool.filter fun id => id ≠ authorId && !reviewers.contains id).take
        (reviewerCap - reviewers.length) := by
  rw [fill_eq, eraseDups_of_nodup (h.filter _)]

end Repair

namespace Database

variable {rejects : Rejects} {db : Database} {id team userId authorId : String} {now : Int64}
  {deactivated l : List String}

/-! ## The list that is planned -/

/-- The reviewers who stay, then active teammates of the author as far as there is room. -/
def refill (db : Database) (deactivated : List String) (authorId : String)
    (reviewers : List String) : List String :=
  let kept := reviewers.filter fun id => !deactivated.contains id
  kept ++ ((db.teammates authorId).filter fun id => id ≠ authorId && !kept.contains id).take
    (reviewerCap - kept.length)

theorem activeMembers_nodup : (db.activeMembers team).Nodup :=
  db.users.keys_nodup.sublist (List.filter_sublist.map _)

theorem mem_activeMembers :
    userId ∈ db.activeMembers team ↔
      ∃ u, db.user? userId = some u ∧ u.teamName = team ∧ u.isActive = true := by
  simp only [activeMembers, List.mem_map, List.mem_filter, Bool.and_eq_true, decide_eq_true_eq,
    user?_eq_some_iff]
  constructor
  · rintro ⟨r, ⟨hr, hteam, hactive⟩, rfl⟩
    exact ⟨r.user, ⟨r, hr, rfl, rfl⟩, hteam, hactive⟩
  · rintro ⟨u, ⟨r, hr, rfl, hid⟩, hteam, hactive⟩
    exact ⟨r, ⟨hr, hteam, hactive⟩, hid⟩

theorem teammates_nodup : (db.teammates userId).Nodup := by
  unfold teammates
  split
  · exact .nil
  · exact activeMembers_nodup

theorem exists_of_mem_teammates (h : userId ∈ db.teammates authorId) :
    ∃ u, db.user? userId = some u ∧ u.isActive = true := by
  unfold teammates at h
  split at h
  · cases h
  · obtain ⟨u, hu, -, hactive⟩ := mem_activeMembers.1 h
    exact ⟨u, hu, hactive⟩

theorem mem_refill (h : userId ∈ db.refill deactivated authorId l) :
    userId ∈ l ∧ userId ∉ deactivated ∨ userId ∈ db.teammates authorId ∧ userId ≠ authorId := by
  rcases List.mem_append.1 h with hkept | hadded
  · left
    simpa using hkept
  · right
    have hmem := List.mem_filter.1 (List.mem_of_mem_take hadded)
    simp only [Bool.and_eq_true, decide_eq_true_eq] at hmem
    exact ⟨hmem.1, hmem.2.1⟩

theorem refill_nodup (h : l.Nodup) : (db.refill deactivated authorId l).Nodup := by
  refine List.nodup_append.2 ⟨h.filter _, ?_, ?_⟩
  · exact (teammates_nodup.filter _).sublist (List.take_sublist _ _)
  · rintro a ha _ hb rfl
    have hout := (List.mem_filter.1 (List.mem_of_mem_take hb)).2
    rw [Bool.and_eq_true, Bool.not_eq_true', List.contains_eq_mem, decide_eq_false_iff_not] at hout
    exact hout.2 ha

theorem length_refill_le (h : l.length ≤ reviewerCap) :
    (db.refill deactivated authorId l).length ≤ reviewerCap := by
  have hkept : (l.filter fun id => !deactivated.contains id).length ≤ l.length :=
    List.length_filter_le _ _
  rw [refill, List.length_append, List.length_take]
  omega

/-- The queries of a repair that may get more keys than can be bound. -/
def bindRepair (db : Database) (deactivated : List String) : Except Error Unit := do
  bindKeys deactivated .loadReviewedBy
  bindKeys ((db.pullRequests.rows.filter (db.affects deactivated)).map (·.id)) .loadReviewers

theorem bindRepair_eq_ok {u : Unit} : db.bindRepair deactivated = .ok u ↔
    deactivated.length ≤ parameterLimit ∧
      db.pullRequests.rows.countP (db.affects deactivated) ≤ parameterLimit := by
  rw [bindRepair, bind_eq_ok, List.countP_eq_length_filter]
  simp only [bindKeys_eq_ok, List.length_map]
  exact ⟨fun ⟨_, h⟩ => h, fun h => ⟨(), h⟩⟩

theorem bindRepair_of_lt (h : parameterLimit < deactivated.length ∨
      parameterLimit < db.pullRequests.rows.countP (db.affects deactivated)) :
    ∃ during, db.bindRepair deactivated = .error (.storage .tooManyParameters (some during)) := by
  rw [List.countP_eq_length_filter] at h
  rw [bindRepair]
  by_cases hmany : parameterLimit < deactivated.length
  · exact ⟨.loadReviewedBy, by rw [bindKeys_of_lt hmany]; rfl⟩
  · refine ⟨.loadReviewers, ?_⟩
    rw [bindKeys_eq_ok (u := ()) |>.2 (Nat.not_lt.1 hmany), ← bindKeys_of_lt]
    · rfl
    · rw [List.length_map]
      exact h.resolve_left hmany

theorem bindKeys_eraseDups {keys : List String} (during : Operation)
    (h : keys.length ≤ parameterLimit) : bindKeys keys.eraseDups during = .ok () :=
  bindKeys_eq_ok.2 (Nat.le_trans length_eraseDups_le h)

def lookedUp (db : Database) (p : PullRequestRow) : Repair.Affected :=
  ⟨p.id, p.authorId, db.reviewersOf p.id, (db.user? p.authorId).map User.teamName⟩

theorem affectedBy_eq : db.affectedBy deactivated = (db.bindRepair deactivated).map fun _ =>
    (db.pullRequests.rows.filter (db.affects deactivated)).map db.lookedUp := by
  rw [affectedBy, bindRepair, loadReviewedBy_eq]
  generalize db.pullRequests.rows.filter (db.affects deactivated) = rows
  cases bindKeys deactivated .loadReviewedBy with
  | error e => rfl
  | ok u =>
      change (do
        let reviewers ← db.loadReviewers (rows.map (·.id))
        let authors ← db.loadUsers (rows.map (·.authorId)).eraseDups
        return affected rows reviewers authors) = (bindKeys (rows.map (·.id)) .loadReviewers).map _
      unfold loadReviewers
      cases hbind : bindKeys (rows.map (·.id)) .loadReviewers with
      | error e => rfl
      | ok u =>
          -- There are not more authors than pull requests: this query is never refused.
          have hauthors : bindKeys (rows.map (·.authorId)).eraseDups .loadUsers = .ok () := by
            rw [bindKeys_eq_ok, List.length_map] at hbind
            exact bindKeys_eraseDups _ (by rwa [List.length_map])
          rw [loadUsers, hauthors]
          refine congrArg Except.ok (List.map_congr_left fun p hp => ?_)
          rw [lookup_reviewersAmong (List.mem_map_of_mem hp),
            find?_usersAmong (List.mem_eraseDups.2 (List.mem_map_of_mem hp)), lookedUp]

theorem pool_eq {affected : List Repair.Affected} {a : Repair.Affected} (ha : a ∈ affected)
    (hteam : a.authorTeam = (db.user? a.authorId).map User.teamName) :
    Repair.pool (db.activeAmong (affected.filterMap Repair.Affected.authorTeam).eraseDups)
        a.authorTeam = db.teammates a.authorId := by
  unfold Repair.pool teammates
  cases huser : db.user? a.authorId with
  | none => simp [hteam, huser]
  | some u =>
      have hmem : u.teamName ∈ (affected.filterMap Repair.Affected.authorTeam).eraseDups :=
        List.mem_eraseDups.2 (List.mem_filterMap.2 ⟨a, ha, by rw [hteam, huser]; rfl⟩)
      rw [hteam, huser]
      exact lookup_activeAmong hmem

theorem plan_eq (rows : List PullRequestRow) :
    Repair.plan (rows.map db.lookedUp) deactivated
        (db.activeAmong ((rows.map db.lookedUp).filterMap Repair.Affected.authorTeam).eraseDups) =
      rows.map fun p => ⟨p.id, db.refill deactivated p.authorId (db.reviewersOf p.id)⟩ := by
  rw [Repair.plan, List.map_map]
  apply List.map_congr_left
  intro p hp
  -- Lists from the database repeat nobody, so that the planner has nothing to skip.
  rw [Function.comp_apply, Repair.update, pool_eq (List.mem_map_of_mem hp) rfl, lookedUp,
    Repair.survivors_of_nodup reviewersOf_nodup, Repair.fill_of_nodup teammates_nodup]
  rfl

def repairs (db : Database) (deactivated : List String) : List Repair.Update :=
  (db.pullRequests.rows.filter (db.affects deactivated)).map fun p =>
    ⟨p.id, db.refill deactivated p.authorId (db.reviewersOf p.id)⟩

theorem repairPlan_eq : db.repairPlan deactivated =
    (db.bindRepair deactivated).map fun _ => db.repairs deactivated := by
  rw [repairPlan, affectedBy_eq]
  cases hbind : db.bindRepair deactivated with
  | error e => rfl
  | ok u =>
      have hrows := (bindRepair_eq_ok.1 hbind).2
      rw [List.countP_eq_length_filter] at hrows
      rw [repairs, ← plan_eq]
      generalize db.pullRequests.rows.filter (db.affects deactivated) = rows at *
      -- Nor are there more teams of authors than pull requests.
      have hteams : bindKeys ((rows.map db.lookedUp).filterMap Repair.Affected.authorTeam).eraseDups
          .loadActive = .ok () := by
        refine bindKeys_eraseDups _ (Nat.le_trans (List.length_filterMap_le _ _) ?_)
        rwa [List.length_map]
      change (do
        let pools ← db.loadActive
          ((rows.map db.lookedUp).filterMap Repair.Affected.authorTeam).eraseDups
        return Repair.plan (rows.map db.lookedUp) deactivated pools) = _
      rw [loadActive, hteams]
      rfl

def rewriteAll (updates : List Repair.Update) (db : Database) : Database :=
  updates.foldl (fun db u => db.rewrite u.pullRequest u.reviewers) db

structure Storable (db : Database) (u : Repair.Update) : Prop where
  nodup : u.reviewers.Nodup
  pullRequest : ∀ r ∈ u.reviewers, db.pullRequests.contains u.pullRequest = true
  users : ∀ r ∈ u.reviewers, db.users.contains r = true

theorem writeUpdates_ok {team : String} {updates : List Repair.Update}
    (h : (writeUpdates rejects team updates db).1 = .ok db') : db' = db.rewriteAll updates := by
  induction updates generalizing db with
  | nil => cases h; rfl
  | cons u rest ih =>
      unfold writeUpdates at h
      cases hwrite : writeReviewers rejects u.pullRequest u.reviewers db with
      | error e => simp [hwrite] at h
      | ok db₁ =>
          simp only [hwrite] at h
          obtain ⟨-, -, -, rfl⟩ := writeReviewers_eq_ok.1 hwrite
          exact ih h

theorem writeUpdates_of_storable (team : String) {updates : List Repair.Update}
    (hrejects : ∀ c, rejects c = false) (h : ∀ u ∈ updates, Storable db u) :
    (writeUpdates rejects team updates db).1 = .ok (db.rewriteAll updates) := by
  induction updates generalizing db with
  | nil => rfl
  | cons u rest ih =>
      obtain ⟨hu, hrest⟩ := List.forall_mem_cons.1 h
      have hwrite : writeReviewers rejects u.pullRequest u.reviewers db =
          .ok (db.rewrite u.pullRequest u.reviewers) := by
        refine writeReviewers_eq_ok.2 ⟨fun _ _ => hrejects _, hu.nodup, fun r hr => ?_, rfl⟩
        have hmem := mem_of_mem_listed hr
        exact ⟨hrejects _, hu.pullRequest _ hmem, hu.users _ hmem⟩
      have hrest' : ∀ u' ∈ rest, Storable (db.rewrite u.pullRequest u.reviewers) u' := fun u' hu' =>
        ⟨(hrest u' hu').nodup, (hrest u' hu').pullRequest, (hrest u' hu').users⟩
      simp only [writeUpdates, hwrite]
      exact ih hrest'

section RewriteAll

variable {updates : List Repair.Update} {u : Repair.Update}

@[simp] theorem teams_rewriteAll : (db.rewriteAll updates).teams = db.teams := by
  induction updates generalizing db with
  | nil => rfl
  | cons u rest ih => exact ih

@[simp] theorem users_rewriteAll : (db.rewriteAll updates).users = db.users := by
  induction updates generalizing db with
  | nil => rfl
  | cons u rest ih => exact ih

@[simp] theorem pullRequests_rewriteAll :
    (db.rewriteAll updates).pullRequests = db.pullRequests := by
  induction updates generalizing db with
  | nil => rfl
  | cons u rest ih => exact ih

theorem rowsOf_rewriteAll_of_not_mem (h : id ∉ updates.map (·.pullRequest)) :
    (db.rewriteAll updates).rowsOf id = db.rowsOf id := by
  induction updates generalizing db with
  | nil => rfl
  | cons u rest ih =>
      rw [List.map_cons, List.mem_cons, not_or] at h
      exact (ih h.2).trans (rowsOf_rewrite_of_ne h.1)

theorem rowsOf_rewriteAll (hids : (updates.map (·.pullRequest)).Nodup) (hu : u ∈ updates)
    (hl : u.reviewers.Nodup) :
    ((db.rewriteAll updates).rowsOf u.pullRequest).Perm (listed u.pullRequest u.reviewers) := by
  induction updates generalizing db with
  | nil => cases hu
  | cons u' rest ih =>
      rw [List.map_cons, List.nodup_cons] at hids
      rcases List.mem_cons.1 hu with rfl | hu
      · -- A plan has one update for a pull request, which those after it do not touch.
        have hrest : ((db.rewrite u.pullRequest u.reviewers).rewriteAll rest).rowsOf u.pullRequest =
            (db.rewrite u.pullRequest u.reviewers).rowsOf u.pullRequest :=
          rowsOf_rewriteAll_of_not_mem hids.1
        exact (List.Perm.of_eq hrest).trans (rowsOf_rewrite hl)
      · exact ih hids.2 hu

end RewriteAll

end Database

end ReviewRota
