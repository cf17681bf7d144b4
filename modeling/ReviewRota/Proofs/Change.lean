import Mathlib.Data.List.Induction
import ReviewRota.Proofs.Reviewers

/-!
# When a change succeeds, and what it leaves

One lemma for each change: the conditions under which it succeeds and the database afterwards.
The injected rejections appear as conditions like any other.
-/

namespace ReviewRota

theorem bind_eq_ok {ε α β : Type} {x : Except ε α} {f : α → Except ε β} {b : β} :
    (x >>= f) = .ok b ↔ ∃ a, x = .ok a ∧ f a = .ok b := by
  cases x <;> simp [bind, Except.bind]

theorem pure_eq_ok {ε α : Type} {a b : α} : (pure a : Except ε α) = .ok b ↔ b = a := by
  simp [pure, Except.pure, eq_comm]

theorem ok_bind {ε α β : Type} {a : α} {f : α → Except ε β} :
    (Except.ok a : Except ε α) >>= f = f a := rfl

theorem throw_bind {ε α β : Type} {e : ε} {f : α → Except ε β} :
    ((throw e : Except ε α) >>= f) = .error e := rfl

theorem map_eq_ok {ε α β : Type} {x : Except ε α} {f : α → β} {b : β} :
    x.map f = .ok b ↔ ∃ a, x = .ok a ∧ f a = b := by
  cases x <;> simp [Except.map]

theorem mapError_eq_ok {ε δ α : Type} {x : Except ε α} {f : ε → δ} {a : α} :
    x.mapError f = .ok a ↔ x = .ok a := by
  cases x <;> simp [Except.mapError]

theorem exists_first_failing {α : Type} {P : List α → Prop} {l : List α} (hnil : P []) (h : ¬ P l) :
    ∃ earlier a later, l = earlier ++ a :: later ∧ P earlier ∧ ¬ P (earlier ++ [a]) := by
  induction l using List.reverseRecOn with
  | nil => exact absurd hnil h
  | append_singleton init last ih =>
      by_cases hinit : P init
      · exact ⟨init, last, [], rfl, hinit, h⟩
      · obtain ⟨earlier, a, later, rfl, hearlier, hfails⟩ := ih hinit
        exact ⟨earlier, a, later ++ [last], by simp, hearlier, hfails⟩

namespace Database

variable {rejects : Rejects} {db db' : Database}

theorem permit_eq_ok {c : RowChange} {during : Operation} {u : Unit} :
    permit rejects c during = .ok u ↔ rejects c = false := by
  unfold permit
  split <;> simp_all

theorem forM_permit_eq_ok {α : Type} {items : List α} {c : α → RowChange} {during : Operation}
    {u : Unit} :
    (items.forM fun a => permit rejects (c a) during) = .ok u ↔
      ∀ a ∈ items, rejects (c a) = false := by
  induction items with
  | nil => simp [pure, Except.pure]
  | cons a rest ih =>
      rw [List.forM, bind_eq_ok, List.forall_mem_cons]
      simp only [permit_eq_ok]
      constructor
      · rintro ⟨-, ha, hrest⟩
        exact ⟨ha, ih.1 hrest⟩
      · rintro ⟨ha, hrest⟩
        exact ⟨(), ha, ih.2 hrest⟩

/-! ## Teams and users -/

theorem user?_eq_some_iff {id : String} {u : User} :
    db.user? id = some u ↔ ∃ r ∈ db.users.rows, r.user = u ∧ u.id = id := by
  simp only [user?, Option.map_eq_some_iff, Table.get?_eq_some_iff, UserRow.id]
  constructor
  · rintro ⟨r, ⟨hr, hid⟩, rfl⟩
    exact ⟨r, hr, rfl, hid⟩
  · rintro ⟨r, hr, rfl, hid⟩
    exact ⟨r, ⟨hr, hid⟩, rfl⟩

theorem contains_of_user? {id : String} {u : User} (h : db.user? id = some u) :
    db.users.contains id = true := by
  obtain ⟨r, hr, rfl, hid⟩ := user?_eq_some_iff.1 h
  exact Table.contains_iff.2 ⟨r, hr, hid⟩

theorem exists_of_contains_user {id : String} (h : db.users.contains id = true) :
    ∃ u, db.user? id = some u := by
  obtain ⟨r, hr, hid⟩ := Table.contains_iff.1 h
  exact ⟨r.user, user?_eq_some_iff.2 ⟨r, hr, rfl, hid⟩⟩

theorem id_of_user? {id : String} {u : User} (h : db.user? id = some u) : u.id = id := by
  obtain ⟨-, -, -, hid⟩ := user?_eq_some_iff.1 h
  exact hid

theorem mem_roster {team : String} {u : User} :
    u ∈ db.roster team ↔ db.user? u.id = some u ∧ u.teamName = team := by
  simp only [roster, List.mem_map, List.mem_filter, decide_eq_true_eq, user?_eq_some_iff]
  constructor
  · rintro ⟨r, ⟨hr, hteam⟩, rfl⟩
    exact ⟨⟨r, hr, rfl, trivial⟩, hteam⟩
  · rintro ⟨⟨r, hr, rfl, -⟩, hteam⟩
    exact ⟨r, ⟨hr, hteam⟩, rfl⟩

theorem insertTeam_eq_ok {name : String} {now : Int64} :
    insertTeam rejects name now db = .ok db' ↔
      rejects (.insertTeam name) = false ∧ db.teams.contains name = false ∧
        db' = { db with teams := db.teams.insert ⟨name, now⟩ } := by
  simp only [insertTeam, bind_eq_ok, permit_eq_ok, throw_bind]
  cases db.teams.contains name <;> simp [pure_eq_ok]

theorem upsertUser_eq_ok {now : Int64} {user : User} :
    upsertUser rejects now db user = .ok db' ↔
      rejects (.insertUser user.id) = false ∧
        (db.users.contains user.id = true → rejects (.updateUser user.id) = false) ∧
        db.teams.contains user.teamName = true ∧
        db' = { db with users := db.users.insert ⟨user, now⟩ } := by
  simp only [upsertUser, bind_eq_ok, permit_eq_ok, throw_bind]
  cases db.users.contains user.id <;> cases db.teams.contains user.teamName <;>
    simp [-bind_pure_comp, bind_eq_ok, permit_eq_ok, pure_eq_ok]

theorem upsertUsers_ok {now : Int64} {users : List User}
    (h : users.foldlM (upsertUser rejects now) db = .ok db') :
    db' = { db with users := db.users.insertAll (users.map fun u => ⟨u, now⟩) } := by
  induction users generalizing db with
  | nil => cases h; rfl
  | cons u rest ih =>
      rw [List.foldlM_cons, bind_eq_ok] at h
      obtain ⟨db₁, h₁, hrest⟩ := h
      obtain ⟨-, -, -, rfl⟩ := upsertUser_eq_ok.1 h₁
      exact ih hrest

def addTeam (name : String) (members : List User) (now : Int64) (db : Database) : Database :=
  { db with
    teams := db.teams.insert ⟨name, now⟩
    users := db.users.insertAll (members.map fun m => ⟨{ m with teamName := name }, now⟩) }

theorem createTeam_ok {name : String} {members : List User} {now : Int64}
    (h : createTeam rejects name members now db = .ok db') :
    db.teams.contains name = false ∧ db' = db.addTeam name members now := by
  rw [createTeam, bind_eq_ok] at h
  obtain ⟨db₁, h₁, hrest⟩ := h
  obtain ⟨-, habsent, rfl⟩ := insertTeam_eq_ok.1 h₁
  have hdb' := upsertUsers_ok hrest
  rw [List.map_map] at hdb'
  exact ⟨habsent, hdb'⟩

theorem upsertUsers_of_permitted {now : Int64} {users : List User}
    (hrejects : ∀ c, rejects c = false)
    (hteams : ∀ u ∈ users, db.teams.contains u.teamName = true) :
    ∃ db', users.foldlM (upsertUser rejects now) db = .ok db' := by
  induction users generalizing db with
  | nil => exact ⟨db, rfl⟩
  | cons u rest ih =>
      obtain ⟨hu, hrest⟩ := List.forall_mem_cons.1 hteams
      have hfirst : upsertUser rejects now db u =
          .ok { db with users := db.users.insert ⟨u, now⟩ } :=
        upsertUser_eq_ok.2 ⟨hrejects _, fun _ => hrejects _, hu, rfl⟩
      rw [List.foldlM_cons, hfirst]
      exact ih hrest

theorem createTeam_of_permitted {name : String} {members : List User} {now : Int64}
    (hrejects : ∀ c, rejects c = false) :
    createTeam rejects name members now db =
      if db.hasTeam name then .error (.teamExists name) else .ok (db.addTeam name members now) := by
  cases hteam : db.teams.contains name with
  | true =>
      have hrefused : insertTeam rejects name now db = .error (.teamExists name) := by
        simp [insertTeam, permit, hrejects, hteam, bind, Except.bind, throw, throwThe,
          MonadExceptOf.throw]
      rw [createTeam, hrefused, hasTeam, hteam]
      rfl
  | false =>
      have hinsert : insertTeam rejects name now db =
          .ok { db with teams := db.teams.insert ⟨name, now⟩ } :=
        insertTeam_eq_ok.2 ⟨hrejects _, hteam, rfl⟩
      obtain ⟨db', hdb'⟩ : ∃ db', createTeam rejects name members now db = .ok db' := by
        rw [createTeam, hinsert]
        refine upsertUsers_of_permitted hrejects fun u hu => ?_
        obtain ⟨m, -, rfl⟩ := List.mem_map.1 hu
        exact Table.contains_insert.2 (.inl rfl)
      rw [hdb', (createTeam_ok hdb').2, hasTeam, hteam]
      rfl

theorem setActive_ok {id : String} {isActive : Bool} {now : Int64} {answer : Option User}
    (h : setActive rejects id isActive now db = .ok (answer, db')) :
    answer = none ∧ db' = db ∧ db.user? id = none ∨
      ∃ user, db.user? id = some user ∧ answer = some { user with isActive } ∧
        db' = db.updateUser id (fun u => { u with isActive }) now fun _ => rfl := by
  unfold setActive at h
  cases huser : db.user? id with
  | none =>
      rw [huser] at h
      cases h
      exact .inl ⟨rfl, rfl, rfl⟩
  | some user =>
      simp only [huser, bind_eq_ok, permit_eq_ok] at h
      obtain ⟨-, -, h⟩ := h
      cases h
      exact .inr ⟨user, rfl, rfl, rfl⟩

theorem user?_updateUser {id userId : String} {f : User → User} {hid : ∀ u, (f u).id = u.id}
    {now : Int64} :
    (db.updateUser id f now hid).user? userId =
      (db.user? userId).map fun u => if u.id = id then f u else u := by
  rw [user?, updateUser, Table.get?_map, user?, Option.map_map, Option.map_map]
  congr 1
  funext r
  simp only [Function.comp_apply]
  split <;> rfl

theorem user?_addTeam {name userId : String} {members : List User} {now : Int64} {u : User}
    (h : (db.addTeam name members now).user? userId = some u) :
    (∃ m ∈ members, m.id = userId ∧ m.isActive = u.isActive) ∨ db.user? userId = some u := by
  obtain ⟨r, hr, rfl, hid⟩ := user?_eq_some_iff.1 h
  rcases Table.mem_of_mem_insertAll hr with hnew | hold
  · obtain ⟨m, hm, rfl⟩ := List.mem_map.1 hnew
    exact .inl ⟨m, hm, hid, rfl⟩
  · exact .inr (user?_eq_some_iff.2 ⟨r, hold, rfl, hid⟩)

theorem user?_addTeam_of_mem {name : String} {members : List User} {now : Int64} {m : User}
    (hnodup : (members.map User.id).Nodup) (hm : m ∈ members) :
    (db.addTeam name members now).user? m.id = some { m with teamName := name } := by
  let row (m : User) : UserRow := ⟨{ m with teamName := name }, now⟩
  have hids : (members.map row).map UserRow.id = members.map User.id := List.map_map
  have hget : (db.addTeam name members now).users.get? m.id = some (row m) :=
    Table.get?_insertAll_of_mem (hids.symm ▸ hnodup) (List.mem_map_of_mem hm)
  rw [user?, hget]
  rfl

theorem user?_addTeam_of_not_mem {name userId : String} {members : List User} {now : Int64}
    (h : userId ∉ members.map User.id) :
    (db.addTeam name members now).user? userId = db.user? userId := by
  rw [user?, addTeam, Table.get?_insertAll_of_not_mem]
  · rfl
  · rwa [List.map_map]

/-! ## Reviewer rows -/

structure CanInsert (rejects : Rejects) (db : Database) (r : ReviewerRow) : Prop where
  permitted : rejects (.insertReviewer r.slot) = false
  fresh : db.reviewers.contains r.slot = false
  pullRequest : db.pullRequests.contains r.slot.pullRequest = true
  reviewer : db.users.contains r.slot.reviewer = true

theorem insertReviewer_eq_ok {r : ReviewerRow} :
    insertReviewer rejects r db = .ok db' ↔
      CanInsert rejects db r ∧ db' = { db with reviewers := db.reviewers.insert r } := by
  simp only [insertReviewer, bind_eq_ok, permit_eq_ok, throw_bind]
  constructor
  · rintro ⟨-, hpermitted, h⟩
    cases hfresh : db.reviewers.contains r.slot <;>
      cases hpull : db.pullRequests.contains r.slot.pullRequest <;>
        cases huser : db.users.contains r.slot.reviewer <;>
          simp [hfresh, hpull, huser, pure_eq_ok] at h
    exact ⟨⟨hpermitted, hfresh, hpull, huser⟩, h⟩
  · rintro ⟨h, rfl⟩
    exact ⟨(), h.permitted, by simp [h.fresh, h.pullRequest, h.reviewer, pure_eq_ok]⟩

theorem insertRows_eq_ok {rows : List ReviewerRow} :
    rows.foldlM (fun db r => insertReviewer rejects r db) db = .ok db' ↔
      (rows.map ReviewerRow.slot).Nodup ∧ (∀ r ∈ rows, CanInsert rejects db r) ∧
        db' = { db with reviewers := db.reviewers.insertAll rows } := by
  induction rows generalizing db with
  | nil => simp [pure_eq_ok]
  | cons r rest ih =>
      simp only [List.foldlM_cons, bind_eq_ok, insertReviewer_eq_ok, List.map_cons,
        List.nodup_cons, List.forall_mem_cons]
      constructor
      · rintro ⟨_, ⟨hr, rfl⟩, h⟩
        obtain ⟨hnodup, hrest, rfl⟩ := ih.1 h
        have hfresh : ∀ r' ∈ rest, r.slot ≠ r'.slot ∧ db.reviewers.contains r'.slot = false := by
          intro r' hr'
          have h' := (hrest r' hr').fresh
          rw [← Bool.not_eq_true, Table.contains_insert, not_or, Bool.not_eq_true] at h'
          exact h'
        refine ⟨⟨?_, hnodup⟩, ⟨hr, fun r' hr' => ?_⟩, rfl⟩
        · intro hmem
          obtain ⟨r', hr', hslot⟩ := List.mem_map.1 hmem
          exact (hfresh r' hr').1 hslot.symm
        · have h' := hrest r' hr'
          exact ⟨h'.permitted, (hfresh r' hr').2, h'.pullRequest, h'.reviewer⟩
      · rintro ⟨⟨hout, hnodup⟩, ⟨hr, hrest⟩, rfl⟩
        refine ⟨_, ⟨hr, rfl⟩, ih.2 ⟨hnodup, fun r' hr' => ?_, rfl⟩⟩
        have h' := hrest r' hr'
        refine ⟨h'.permitted, ?_, h'.pullRequest, h'.reviewer⟩
        rw [← Bool.not_eq_true, Table.contains_insert, not_or, Bool.not_eq_true]
        exact ⟨fun hslot => hout (hslot ▸ List.mem_map_of_mem hr'), h'.fresh⟩

theorem insertReviewers_eq_ok {id : String} {l : List String} :
    insertReviewers rejects id l db = .ok db' ↔
      l.Nodup ∧ (∀ r ∈ listed id l, CanInsert rejects db r) ∧
        db' = { db with reviewers := db.reviewers.insertAll (listed id l) } := by
  have hslots : ((listed id l).map ReviewerRow.slot).Nodup ↔ l.Nodup := by
    rw [map_slot_listed]
    exact List.nodup_map_iff fun _ _ h => (Slot.mk.inj h).2
  rw [← hslots, ← insertRows_eq_ok, insertReviewers, listed, List.foldlM_map]

theorem writeReviewers_eq_ok {id : String} {l : List String} :
    writeReviewers rejects id l db = .ok db' ↔
      (∀ r ∈ db.rowsOf id, rejects (.deleteReviewer r.slot) = false) ∧ l.Nodup ∧
        (∀ r ∈ listed id l, rejects (.insertReviewer r.slot) = false ∧
          db.pullRequests.contains id = true ∧ db.users.contains r.slot.reviewer = true) ∧
        db' = db.rewrite id l := by
  simp only [writeReviewers, bind_eq_ok, forM_permit_eq_ok, insertReviewers_eq_ok, rewrite]
  refine ⟨?_, ?_⟩
  · rintro ⟨-, hdelete, hnodup, hinsert, rfl⟩
    refine ⟨hdelete, hnodup, fun r hr => ?_, rfl⟩
    have h := hinsert r hr
    exact ⟨h.permitted, pullRequest_of_mem_listed hr ▸ h.pullRequest, h.reviewer⟩
  · rintro ⟨hdelete, hnodup, hinsert, rfl⟩
    refine ⟨(), hdelete, hnodup, fun r hr => ?_, rfl⟩
    obtain ⟨hpermitted, hpull, huser⟩ := hinsert r hr
    have hid := pullRequest_of_mem_listed hr
    exact ⟨hpermitted, contains_withoutReviewers hid, hid.symm ▸ hpull, huser⟩

/-! ## Pull requests -/

end Database

def PullRequest.row (p : PullRequest) : PullRequestRow :=
  ⟨p.id, p.name, p.authorId, p.status, p.createdAt, p.mergedAt⟩

namespace Database

variable {rejects : Rejects} {db db' : Database}

theorem insertPullRequest_eq_ok {p : PullRequest} :
    insertPullRequest rejects p db = .ok db' ↔
      rejects (.insertPullRequest p.id) = false ∧ db.pullRequests.contains p.id = false ∧
        db.users.contains p.authorId = true ∧
        db' = { db with pullRequests := db.pullRequests.insert p.row } := by
  simp only [insertPullRequest, bind_eq_ok, permit_eq_ok, throw_bind, PullRequest.row]
  cases db.pullRequests.contains p.id <;> cases db.users.contains p.authorId <;>
    simp [pure_eq_ok]

theorem insertPullRequest_of_stored {p : PullRequest} (hrejects : ∀ c, rejects c = false)
    (hp : db.pullRequests.contains p.id = true) :
    insertPullRequest rejects p db = .error (.pullRequestExists p.id) := by
  simp [insertPullRequest, permit, hrejects, hp, bind, Except.bind, throw, throwThe,
    MonadExceptOf.throw]

theorem insertPullRequest_of_unknown {p : PullRequest} (hrejects : ∀ c, rejects c = false)
    (hp : db.pullRequests.contains p.id = false) (hu : db.users.contains p.authorId = false) :
    insertPullRequest rejects p db = .error (.storage .foreignKey (some .insertPullRequest)) := by
  simp [insertPullRequest, permit, hrejects, hp, hu, bind, Except.bind, throw, throwThe,
    MonadExceptOf.throw]

def addPullRequest (p : PullRequest) (db : Database) : Database :=
  { db with
    pullRequests := db.pullRequests.insert p.row
    reviewers := db.reviewers.insertAll (listed p.id p.reviewers) }

theorem createPullRequest_eq_ok {p : PullRequest} :
    createPullRequest rejects p db = .ok db' ↔
      rejects (.insertPullRequest p.id) = false ∧ db.pullRequests.contains p.id = false ∧
        db.users.contains p.authorId = true ∧ p.reviewers.Nodup ∧
        (∀ r ∈ listed p.id p.reviewers, rejects (.insertReviewer r.slot) = false ∧
          db.reviewers.contains r.slot = false ∧ db.users.contains r.slot.reviewer = true) ∧
        db' = db.addPullRequest p := by
  simp only [createPullRequest, bind_eq_ok, insertPullRequest_eq_ok, insertReviewers_eq_ok]
  constructor
  · rintro ⟨_, ⟨hpermitted, habsent, hauthor, rfl⟩, hnodup, hinsert, rfl⟩
    refine ⟨hpermitted, habsent, hauthor, hnodup, fun r hr => ?_, rfl⟩
    have h := hinsert r hr
    exact ⟨h.permitted, h.fresh, h.reviewer⟩
  · rintro ⟨hpermitted, habsent, hauthor, hnodup, hinsert, rfl⟩
    refine ⟨_, ⟨hpermitted, habsent, hauthor, rfl⟩, hnodup, fun r hr => ?_, rfl⟩
    obtain ⟨hpermitted, hfresh, huser⟩ := hinsert r hr
    refine ⟨hpermitted, hfresh, ?_, huser⟩
    rw [Table.contains_insert, pullRequest_of_mem_listed hr]
    exact .inl rfl

theorem Consistent.not_contains_reviewer {slot : Slot} (hdb : db.Consistent)
    (habsent : db.pullRequests.contains slot.pullRequest = false) :
    db.reviewers.contains slot = false := by
  rw [← Bool.not_eq_true, Table.contains_iff]
  rintro ⟨row, hrow, rfl⟩
  rw [hdb.pullRequest_of_reviewer row hrow] at habsent
  cases habsent

theorem createPullRequest_of_permitted {p : PullRequest} (hrejects : ∀ c, rejects c = false)
    (hdb : db.Consistent) (hauthor : db.users.contains p.authorId = true)
    (hnodup : p.reviewers.Nodup) (husers : ∀ r ∈ p.reviewers, db.users.contains r = true) :
    createPullRequest rejects p db =
      if db.hasPullRequest p.id then .error (.pullRequestExists p.id)
      else .ok (db.addPullRequest p) := by
  cases hpull : db.pullRequests.contains p.id with
  | true =>
      rw [createPullRequest, insertPullRequest_of_stored hrejects hpull, hasPullRequest, hpull]
      rfl
  | false =>
      rw [hasPullRequest, hpull]
      refine createPullRequest_eq_ok.2
        ⟨hrejects _, hpull, hauthor, hnodup, fun r hr => ⟨hrejects _, ?_, ?_⟩, rfl⟩
      · exact hdb.not_contains_reviewer (pullRequest_of_mem_listed hr ▸ hpull)
      · exact husers _ (mem_of_mem_listed hr)

def merging (id : String) (now : Int64) (p : PullRequestRow) : PullRequestRow :=
  if p.id = id then { p with status := .merged, mergedAt := p.mergedAt.or (some now) } else p

theorem merging_id (id : String) (now : Int64) (p : PullRequestRow) :
    (merging id now p).id = p.id := by
  unfold merging
  split <;> rfl

def markMerged (id : String) (now : Int64) (db : Database) : Database :=
  { db with pullRequests := db.pullRequests.map (merging id now) (merging_id id now) }

theorem contains_markMerged {id other : String} {now : Int64} :
    (db.markMerged id now).pullRequests.contains other = db.pullRequests.contains other := by
  rw [markMerged, Table.contains_map]

theorem pullRequest?_eq_some_iff {id : String} {p : PullRequest} :
    db.pullRequest? id = some p ↔
      ∃ row ∈ db.pullRequests.rows, row.id = id ∧ row.withReviewers (db.reviewersOf id) = p := by
  simp only [pullRequest?, Option.map_eq_some_iff, Table.get?_eq_some_iff, and_assoc]

theorem id_of_pullRequest? {id : String} {p : PullRequest} (h : db.pullRequest? id = some p) :
    p.id = id := by
  obtain ⟨row, -, hid, rfl⟩ := pullRequest?_eq_some_iff.1 h
  exact hid

theorem pullRequest?_eq_none_iff {id : String} :
    db.pullRequest? id = none ↔ db.pullRequests.contains id = false := by
  rw [pullRequest?, Option.map_eq_none_iff, Table.get?_eq_none_iff]

theorem setMerged_ok {id : String} {now : Int64} {answer : Option PullRequest}
    (h : setMerged rejects id now db = .ok (answer, db')) :
    answer = none ∧ db' = db ∧ db.pullRequests.contains id = false ∨
      ∃ p, answer = some p ∧ db' = db.markMerged id now ∧ db'.pullRequest? id = some p := by
  unfold setMerged at h
  cases hcontains : db.pullRequests.contains id with
  | false =>
      simp only [hcontains, Bool.not_false, if_true] at h
      cases h
      exact .inl ⟨rfl, rfl, rfl⟩
  | true =>
      simp only [hcontains, Bool.not_true, Bool.false_eq_true, if_false, bind_eq_ok] at h
      obtain ⟨-, -, h⟩ := h
      cases h
      change _ ∨ ∃ p, (db.markMerged id now).pullRequest? id = some p ∧ _
      cases hp : (db.markMerged id now).pullRequest? id with
      | none => rw [pullRequest?_eq_none_iff, contains_markMerged, hcontains] at hp; cases hp
      | some p => exact .inr ⟨p, rfl, rfl, hp⟩

theorem canReplace_iff {id old new : String} :
    db.canReplace id old new = true ↔
      db.reviewers.contains ⟨id, old⟩ = true ∧
        (∃ p, db.pullRequests.get? id = some p ∧ p.status = .opened) ∧
        (∃ u, db.user? new = some u ∧ u.isActive = true) ∧
        db.reviewers.contains ⟨id, new⟩ = false := by
  simp [canReplace, user?, Option.any_eq_true, and_assoc]

theorem teams_swapReviewer {slot : Slot} {new : String} :
    (swapReviewer slot new db).teams = db.teams := by
  unfold swapReviewer
  split <;> rfl

theorem users_swapReviewer {slot : Slot} {new : String} :
    (swapReviewer slot new db).users = db.users := by
  unfold swapReviewer
  split <;> rfl

theorem pullRequests_swapReviewer {slot : Slot} {new : String} :
    (swapReviewer slot new db).pullRequests = db.pullRequests := by
  unfold swapReviewer
  split <;> rfl

theorem replaceReviewer_ok {id old new : String} {answer : Option PullRequest}
    (h : replaceReviewer rejects id old new db = .ok (answer, db')) :
    answer = none ∧ db' = db ∨
      ∃ p, answer = some p ∧ db.canReplace id old new = true ∧
        db' = swapReviewer ⟨id, old⟩ new db ∧ db'.pullRequest? id = some p := by
  unfold replaceReviewer at h
  split at h
  · next hcan =>
      rw [bind_eq_ok] at h
      obtain ⟨-, -, h⟩ := h
      cases h
      cases hp : (swapReviewer ⟨id, old⟩ new db).pullRequest? id with
      | none =>
          obtain ⟨-, ⟨p, hget, -⟩, -⟩ := canReplace_iff.1 hcan
          rw [pullRequest?, pullRequests_swapReviewer, hget] at hp
          cases hp
      | some p => exact .inr ⟨p, rfl, hcan, rfl, rfl⟩
  · split at h
    · cases h
      exact .inl ⟨rfl, rfl⟩
    · next p _ =>
        rw [bind_eq_ok] at h
        obtain ⟨-, -, h⟩ := h
        split at h <;> cases h

end Database

end ReviewRota
