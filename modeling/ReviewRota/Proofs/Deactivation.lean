import ReviewRota.Proofs.Refill

/-!
# Taking a team off duty

The outcome of a deactivation in terms of the database before it.  That nobody was active, or that
nothing was affected, needs no case of its own: the plan is empty then.
-/

namespace ReviewRota.Database

variable {rejects : Rejects} {db db' : Database} {id team userId : String} {now : Int64}

def offDuty (team : String) (now : Int64) (r : UserRow) : UserRow :=
  if r.user.teamName = team && r.user.isActive then ⟨{ r.user with isActive := false }, now⟩ else r

theorem offDuty_id (team : String) (now : Int64) (r : UserRow) :
    (offDuty team now r).id = r.id := by
  simp only [offDuty, UserRow.id]
  split <;> rfl

def dismiss (team : String) (now : Int64) (db : Database) : Database :=
  { db with users := db.users.map (offDuty team now) (offDuty_id team now) }

theorem deactivateMembers_eq_ok :
    deactivateMembers rejects team now db = .ok db' ↔
      (∀ id ∈ db.activeMembers team, rejects (.updateUser id) = false) ∧
        db' = db.dismiss team now := by
  simp only [deactivateMembers, bind_eq_ok, forM_permit_eq_ok, pure_eq_ok]
  constructor
  · rintro ⟨-, h⟩
    exact h
  · exact fun h => ⟨(), h⟩

theorem affects_nil : db.affects [] = fun _ => false := by
  funext p
  simp [affects]

theorem bindRepair_nil : db.bindRepair [] = .ok () := by
  rw [bindRepair_eq_ok, affects_nil]
  simp

theorem repairs_nil : db.repairs [] = [] := by
  rw [repairs, affects_nil]
  simp

/-- The early returns are the general way with an empty plan. -/
theorem repair_eq {deactivated : List String} :
    (repair rejects team deactivated db).1 = (do
      db.bindRepair deactivated
      (writeUpdates rejects team (db.repairs deactivated) db).1.map fun db' =>
        (⟨team, deactivated.length, (db.repairs deactivated).length⟩, db')) := by
  unfold repair
  cases deactivated with
  | nil => rw [bindRepair_nil, repairs_nil]; rfl
  | cons userId rest =>
      simp only [List.isEmpty_cons, Bool.false_eq_true, if_false, repairPlan_eq]
      cases db.bindRepair (userId :: rest) with
      | error e => rfl
      | ok u =>
          change Prod.fst (if (db.repairs (userId :: rest)).isEmpty then _ else _) =
            (writeUpdates rejects team (db.repairs (userId :: rest)) db).1.map _
          split
          · next hplan =>
              rw [List.isEmpty_iff.1 hplan]
              rfl
          · split
            · next hwrite => rw [hwrite]; rfl
            · next hwrite => rw [hwrite]; rfl

def standDown (team : String) (now : Int64) (db : Database) : Database :=
  (db.dismiss team now).rewriteAll ((db.dismiss team now).repairs (db.activeMembers team))

theorem length_repairs {deactivated : List String} :
    (db.repairs deactivated).length = db.pullRequests.rows.countP (db.affects deactivated) := by
  rw [repairs, List.length_map, List.countP_eq_length_filter]

theorem deactivateTeam_ok {summary : TeamDeactivation}
    (h : (deactivateTeam rejects team now db).1 = .ok (summary, db')) :
    db.hasTeam team = true ∧ db' = db.standDown team now ∧
      summary = ⟨team, (db.activeMembers team).length,
        db.pullRequests.rows.countP (db.affects (db.activeMembers team))⟩ := by
  unfold deactivateTeam at h
  cases hmembers : deactivateMembers rejects team now db with
  | error e => simp [hmembers] at h
  | ok after =>
      obtain ⟨-, rfl⟩ := deactivateMembers_eq_ok.1 hmembers
      simp only [hmembers] at h
      split at h
      · next hteam =>
          rw [repair_eq, bind_eq_ok] at h
          obtain ⟨-, -, h⟩ := h
          obtain ⟨after, hwrite, hafter⟩ := map_eq_ok.1 h
          cases hafter
          refine ⟨hteam, writeUpdates_ok hwrite, ?_⟩
          rw [length_repairs]
          rfl
      · cases h

/-! ## Users and pull requests afterwards -/

@[simp] theorem teams_standDown : (db.standDown team now).teams = db.teams :=
  teams_rewriteAll

@[simp] theorem pullRequests_standDown : (db.standDown team now).pullRequests = db.pullRequests :=
  pullRequests_rewriteAll

@[simp] theorem users_standDown : (db.standDown team now).users = (db.dismiss team now).users :=
  users_rewriteAll

theorem contains_dismiss :
    (db.dismiss team now).users.contains userId = db.users.contains userId := by
  rw [dismiss, Table.contains_map]

theorem contains_standDown :
    (db.standDown team now).users.contains userId = db.users.contains userId := by
  rw [users_standDown, contains_dismiss]

theorem user?_dismiss :
    (db.dismiss team now).user? userId =
      (db.user? userId).map fun u =>
        if u.teamName = team ∧ u.isActive = true then { u with isActive := false } else u := by
  rw [user?, dismiss, Table.get?_map, user?, Option.map_map, Option.map_map]
  congr 1
  funext r
  simp only [Function.comp_apply, offDuty, Bool.and_eq_true, decide_eq_true_eq]
  split <;> rfl

theorem user?_standDown :
    (db.standDown team now).user? userId = (db.dismiss team now).user? userId := by
  rw [user?, users_standDown, user?]

theorem not_mem_teammates_of_dismissed {authorId : String} (h : userId ∈ db.activeMembers team) :
    userId ∉ (db.dismiss team now).teammates authorId := by
  intro hmem
  obtain ⟨u, hu, hactive⟩ := exists_of_mem_teammates hmem
  obtain ⟨v, hv, hteam, hv'⟩ := mem_activeMembers.1 h
  rw [user?_dismiss, hv, Option.map_some, if_pos ⟨hteam, hv'⟩] at hu
  cases hu
  cases hactive

theorem affects_dismiss {userIds : List String} {p : PullRequestRow} :
    (db.dismiss team now).affects userIds p = db.affects userIds p := rfl

theorem rowsOf_standDown {p : PullRequestRow} (hp : p ∈ db.pullRequests.rows)
    (haffected : db.affects (db.activeMembers team) p = true) :
    ((db.standDown team now).rowsOf p.id).Perm (listed p.id
      ((db.dismiss team now).refill (db.activeMembers team) p.authorId (db.reviewersOf p.id))) := by
  rw [standDown, repairs]
  refine rowsOf_rewriteAll (u := ⟨p.id, _⟩) ?_ ?_ (refill_nodup reviewersOf_nodup)
  · rw [List.map_map]
    exact db.pullRequests.keys_nodup.sublist (List.filter_sublist.map _)
  · exact List.mem_map.2 ⟨p, List.mem_filter.2 ⟨hp, haffected⟩, rfl⟩

theorem rowsOf_standDown_of_not
    (h : ∀ p ∈ db.pullRequests.rows, p.id = id → db.affects (db.activeMembers team) p = false) :
    (db.standDown team now).rowsOf id = db.rowsOf id := by
  rw [standDown, repairs, rowsOf_rewriteAll_of_not_mem]
  · rfl
  · rw [List.map_map]
    intro hmem
    obtain ⟨p, hp, hid⟩ := List.mem_map.1 hmem
    obtain ⟨hp, haffected⟩ := List.mem_filter.1 hp
    rw [affects_dismiss, h p hp hid] at haffected
    cases haffected

theorem rowsOf_standDown_cases (db : Database) (team : String) (now : Int64) (id : String) :
    (∃ p ∈ db.pullRequests.rows, p.id = id ∧ ((db.standDown team now).rowsOf id).Perm (listed id
      ((db.dismiss team now).refill (db.activeMembers team) p.authorId (db.reviewersOf id)))) ∨
      (db.standDown team now).rowsOf id = db.rowsOf id := by
  by_cases haffected : ∃ p ∈ db.pullRequests.rows, p.id = id ∧
      db.affects (db.activeMembers team) p = true
  · obtain ⟨p, hp, rfl, haffected⟩ := haffected
    exact .inl ⟨p, hp, rfl, rowsOf_standDown hp haffected⟩
  · refine .inr (rowsOf_standDown_of_not fun p hp hid => ?_)
    rw [← Bool.not_eq_true]
    exact fun h => haffected ⟨p, hp, hid, h⟩

theorem reviewersOf_standDown {p : PullRequestRow} (hp : p ∈ db.pullRequests.rows) :
    (db.standDown team now).reviewersOf p.id =
      if db.affects (db.activeMembers team) p then
        (db.dismiss team now).refill (db.activeMembers team) p.authorId (db.reviewersOf p.id)
      else db.reviewersOf p.id := by
  split
  · next haffected => exact reviewersOf_eq_of_perm (rowsOf_standDown hp haffected)
  · next hnot =>
      rw [reviewersOf, ← rowsOf, rowsOf_standDown_of_not]
      · rfl
      · intro p' hp' hid
        rw [Table.eq_of_key_eq hp' hp hid]
        exact Bool.not_eq_true _ ▸ hnot

theorem reviewersOf_standDown_cases (db : Database) (team : String) (now : Int64) (id : String) :
    (∃ p ∈ db.pullRequests.rows, p.id = id ∧ (db.standDown team now).reviewersOf id =
      (db.dismiss team now).refill (db.activeMembers team) p.authorId (db.reviewersOf id)) ∨
      (db.standDown team now).reviewersOf id = db.reviewersOf id := by
  rcases rowsOf_standDown_cases db team now id with ⟨p, hp, hid, hperm⟩ | hsame
  · exact .inl ⟨p, hp, hid, reviewersOf_eq_of_perm hperm⟩
  · refine .inr ?_
    rw [reviewersOf, ← rowsOf, hsame]
    rfl

theorem Consistent.contains_of_mem_refill {deactivated : List String} {authorId : String}
    (hdb : db.Consistent)
    (h : userId ∈ (db.dismiss team now).refill deactivated authorId (db.reviewersOf id)) :
    db.users.contains userId = true := by
  rcases mem_refill h with ⟨hold, -⟩ | ⟨hnew, -⟩
  · exact hdb.contains_reviewer hold
  · obtain ⟨u, hu, -⟩ := exists_of_mem_teammates hnew
    rw [← contains_dismiss]
    exact contains_of_user? hu

def Bindable (db : Database) (team : String) : Prop :=
  (db.activeMembers team).length ≤ parameterLimit ∧
    db.pullRequests.rows.countP (db.affects (db.activeMembers team)) ≤ parameterLimit

instance : Decidable (db.Bindable team) := inferInstanceAs (Decidable (_ ∧ _))

theorem deactivateTeam_of_consistent (hdb : db.Consistent) (hrejects : ∀ c, rejects c = false)
    (hteam : db.hasTeam team = true) :
    (deactivateTeam rejects team now db).1 = (db.bindRepair (db.activeMembers team)).map fun _ =>
      (⟨team, (db.activeMembers team).length,
        db.pullRequests.rows.countP (db.affects (db.activeMembers team))⟩,
        db.standDown team now) := by
  have hmembers : deactivateMembers rejects team now db = .ok (db.dismiss team now) :=
    deactivateMembers_eq_ok.2 ⟨fun _ _ => hrejects _, rfl⟩
  have hstorable : ∀ u ∈ (db.dismiss team now).repairs (db.activeMembers team),
      Storable (db.dismiss team now) u := by
    intro u hu
    obtain ⟨p, hp, rfl⟩ := List.mem_map.1 hu
    refine ⟨refill_nodup reviewersOf_nodup, fun _ _ => ?_, fun r hr => ?_⟩
    · exact Table.contains_iff.2 ⟨p, (List.mem_filter.1 hp).1, rfl⟩
    · rw [contains_dismiss]
      exact hdb.contains_of_mem_refill hr
  have hwrite := writeUpdates_of_storable team hrejects hstorable
  have hbind : (db.dismiss team now).bindRepair (db.activeMembers team) =
      db.bindRepair (db.activeMembers team) := rfl
  unfold deactivateTeam
  simp only [hmembers, hteam, if_true, repair_eq, hwrite, length_repairs, hbind]
  cases db.bindRepair (db.activeMembers team) <;> rfl

theorem deactivateTeam_of_bindable (hdb : db.Consistent) (hrejects : ∀ c, rejects c = false)
    (hteam : db.hasTeam team = true) (hbindable : db.Bindable team) :
    (deactivateTeam rejects team now db).1 =
      .ok (⟨team, (db.activeMembers team).length,
        db.pullRequests.rows.countP (db.affects (db.activeMembers team))⟩,
        db.standDown team now) := by
  rw [deactivateTeam_of_consistent hdb hrejects hteam, bindRepair_eq_ok (u := ()) |>.2 hbindable]
  rfl

theorem deactivateTeam_of_not_bindable (now : Int64) (hdb : db.Consistent)
    (hrejects : ∀ c, rejects c = false) (hteam : db.hasTeam team = true)
    (hbindable : ¬ db.Bindable team) :
    ∃ during, (deactivateTeam rejects team now db).1 =
      .error (.storage .tooManyParameters (some during)) := by
  rw [Bindable, not_and_or, Nat.not_le, Nat.not_le] at hbindable
  obtain ⟨during, hbind⟩ := bindRepair_of_lt hbindable
  refine ⟨during, ?_⟩
  rw [deactivateTeam_of_consistent hdb hrejects hteam, hbind]
  rfl

end ReviewRota.Database
