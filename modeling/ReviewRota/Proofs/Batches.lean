import Mathlib
import ReviewRota.Proofs.Change
import ReviewRota.Proofs.Lookup

/-!
# Queries about one key and about many

A query about many keys answers for each of them what the query about that key alone answers, once
and nothing else.  The order that a query asks for leaves no rows to chance, so that it does not
matter how they are found.
-/

namespace ReviewRota

/-! ## What a query may answer -/

/-- A query selects rows, asks for an order and is answered by what is read off the rows. -/
structure Selection (α β : Type) where
  selected : List α
  order : α → α → Ordering
  read : List α → β

namespace Selection

variable {α β : Type}

/-- Rows that are equal in the order of a query may arrive in any order. -/
def Answers (q : Selection α β) (answer : β) : Prop :=
  ∃ rows, rows.Perm q.selected ∧ (rows.Pairwise fun a b => (q.order a b).isLE = true) ∧
    q.read rows = answer

theorem answers_iff {cmp : α → α → Ordering} [Std.OrientedCmp cmp] {selected rows : List α}
    {read : List α → β} {answer : β} (hperm : rows.Perm selected)
    (hrows : rows.Pairwise fun a b => (cmp a b).isLE = true)
    (hdistinct : ∀ a ∈ rows, ∀ b ∈ rows, cmp a b = .eq → a = b) :
    (Selection.mk selected cmp read).Answers answer ↔ answer = read rows := by
  constructor
  · rintro ⟨rows', hperm', hrows', rfl⟩
    have hsame : rows'.Perm rows := hperm'.trans hperm.symm
    -- Rows that the order leaves equal are one row, so that no two can change places.
    refine congrArg read (hsame.eq_of_pairwise (fun a b ha hb hab hba => ?_) hrows' hrows)
    exact hdistinct a (hsame.mem_iff.1 ha) b hb (Std.OrientedCmp.isLE_antisymm hab hba)
  · rintro rfl
    exact ⟨rows, hperm, hrows, rfl⟩

end Selection

/-- Each key that has values is there once, with the values that it has alone. -/
structure Groups (keys : List String) (single : String → List String)
    (groups : List (String × List String)) : Prop where
  once : (groups.map Prod.fst).Nodup
  mem_iff : ∀ k values, (k, values) ∈ groups ↔ k ∈ keys ∧ values = single k ∧ values ≠ []

theorem groups_gather {keys : List String} {single : String → List String}
    {entries : List (String × String)} (hkeys : ∀ e ∈ entries, e.1 ∈ keys)
    (hsingle : ∀ k ∈ keys, ((gather entries).lookup k).getD [] = single k) :
    Groups keys single (gather entries) where
  once := keys_nodup_gather
  mem_iff k values := by
    rw [← lookup_eq_some_iff keys_nodup_gather]
    constructor
    · intro hlookup
      have hentry : k ∈ entries.map Prod.fst := by
        rw [← mem_keys_gather]
        exact List.mem_map.2 ⟨_, (lookup_eq_some_iff keys_nodup_gather).1 hlookup, rfl⟩
      -- A key is there because of an entry, whose value is among its values.
      obtain ⟨e, he, rfl⟩ := List.mem_map.1 hentry
      have hvalues := lookup_gather entries e.1
      rw [hlookup, Option.getD_some] at hvalues
      have hsame := hsingle e.1 (hkeys e he)
      rw [hlookup, Option.getD_some] at hsame
      refine ⟨hkeys e he, hsame, ?_⟩
      rw [hvalues]
      exact List.ne_nil_of_mem
        (List.mem_map_of_mem (List.mem_filter.2 ⟨he, decide_eq_true rfl⟩))
    · rintro ⟨hk, rfl, hne⟩
      have hsame := hsingle k hk
      cases hlookup : (gather entries).lookup k with
      | none =>
          rw [hlookup, Option.getD_none] at hsame
          exact absurd hsame.symm hne
      | some values => rw [hlookup, Option.getD_some] at hsame; rw [hsame]

namespace Database

variable {db : Database} {id : String} {ids teams : List String}

def Placed (db : Database) : Prop :=
  ∀ a ∈ db.reviewers.rows, ∀ b ∈ db.reviewers.rows,
    a.slot.pullRequest = b.slot.pullRequest → a.position = b.position → a = b

instance : Decidable db.Placed := inferInstanceAs (Decidable (∀ a ∈ _, ∀ b ∈ _, _ → _ → _))

def selectReviewers (db : Database) (id : String) : Selection ReviewerRow (List String) where
  selected := db.reviewers.rows.filter fun r => r.slot.pullRequest = id
  order := compareOn ReviewerRow.position
  read rows := rows.map fun r => r.slot.reviewer

def selectReviewersAmong (db : Database) (ids : List String) :
    Selection ReviewerRow (List (String × List String)) where
  selected := db.reviewers.rows.filter fun r => ids.contains r.slot.pullRequest
  order := compareLex (compareOn fun r => r.slot.pullRequest) (compareOn ReviewerRow.position)
  read rows := gather (rows.map fun r => (r.slot.pullRequest, r.slot.reviewer))

def selectUsersAmong (db : Database) (ids : List String) : Selection UserRow (List User) where
  selected := db.users.rows.filter fun r => ids.contains r.user.id
  order := compareOn UserRow.id
  read rows := rows.map UserRow.user

def selectRoster (db : Database) (team : String) : Selection UserRow (List User) where
  selected := db.users.rows.filter fun r => r.user.teamName = team
  order := compareOn UserRow.id
  read rows := rows.map UserRow.user

def selectActiveAmong (db : Database) (teams : List String) :
    Selection UserRow (List (String × List String)) where
  selected := db.users.rows.filter fun r => r.user.isActive && teams.contains r.user.teamName
  order := compareLex (compareOn fun r => r.user.teamName) (compareOn UserRow.id)
  read rows := gather (rows.map fun r => (r.user.teamName, r.user.id))

theorem answers_selectReviewers (hdb : db.Placed) {answer : List String} :
    (db.selectReviewers id).Answers answer ↔ answer = db.reviewersOf id := by
  have hperm : (byPosition (db.rowsOf id)).Perm (db.rowsOf id) := List.mergeSort_perm _ _
  refine Selection.answers_iff hperm ?_ fun a ha b hb hab => ?_
  · exact (byPosition_pairwise _).imp fun hab => Std.isLE_compare.2 hab
  · obtain ⟨ha, haid⟩ := mem_rowsOf.1 (hperm.mem_iff.1 ha)
    obtain ⟨hb, hbid⟩ := mem_rowsOf.1 (hperm.mem_iff.1 hb)
    exact hdb a ha b hb (haid.trans hbid.symm) (Std.LawfulEqCmp.compare_eq_iff_eq.1 hab)

theorem answers_selectReviewersAmong (hdb : db.Placed) {answer : List (String × List String)} :
    (db.selectReviewersAmong ids).Answers answer ↔ answer = db.reviewersAmong ids := by
  refine Selection.answers_iff (List.mergeSort_perm _ _)
    (List.pairwise_mergeSort (fun _ _ _ => Std.TransCmp.isLE_trans) isLE_total _)
    fun a ha b hb hab => ?_
  simp only [compareLex_eq_eq, compareOn, Std.LawfulEqCmp.compare_eq_iff_eq] at hab
  rw [List.mem_mergeSort, List.mem_filter] at ha hb
  exact hdb a ha.1 b hb.1 hab.1 hab.2

/-! Users are stored by id, so that what is selected among them is in order already. -/

theorem pairwise_compareOn_id {p : UserRow → Bool} :
    (db.users.rows.filter p).Pairwise fun a b => (compareOn UserRow.id a b).isLE = true :=
  (db.users.ascending.imp fun hab => by rw [compareOn, hab]; rfl).filter p

theorem eq_of_compareOn_id {p : UserRow → Bool} {a b : UserRow}
    (ha : a ∈ db.users.rows.filter p) (hb : b ∈ db.users.rows.filter p)
    (hab : compareOn UserRow.id a b = .eq) : a = b :=
  Table.eq_of_key_eq (List.mem_filter.1 ha).1 (List.mem_filter.1 hb).1
    (Std.LawfulEqCmp.compare_eq_iff_eq.1 hab)

theorem answers_selectUsersAmong {answer : List User} :
    (db.selectUsersAmong ids).Answers answer ↔ answer = db.usersAmong ids :=
  Selection.answers_iff .rfl pairwise_compareOn_id fun _ ha _ hb => eq_of_compareOn_id ha hb

theorem answers_selectRoster {team : String} {answer : List User} :
    (db.selectRoster team).Answers answer ↔ answer = db.roster team :=
  Selection.answers_iff .rfl pairwise_compareOn_id fun _ ha _ hb => eq_of_compareOn_id ha hb

theorem answers_selectActiveAmong {answer : List (String × List String)} :
    (db.selectActiveAmong teams).Answers answer ↔ answer = db.activeAmong teams := by
  refine Selection.answers_iff (List.mergeSort_perm _ _)
    (pairwise_mergeSort_lex pairwise_compareOn_id) fun a ha b hb hab => ?_
  rw [compareLex_eq_eq] at hab
  rw [List.mem_mergeSort] at ha hb
  exact eq_of_compareOn_id ha hb hab.2

/-! ## Many keys at once -/

structure Determinate (db : Database) : Prop where
  reviewersOf : ∀ id answer, (db.selectReviewers id).Answers answer ↔ answer = db.reviewersOf id
  reviewersAmong : ∀ ids answer,
    (db.selectReviewersAmong ids).Answers answer ↔ answer = db.reviewersAmong ids
  usersAmong : ∀ ids answer, (db.selectUsersAmong ids).Answers answer ↔ answer = db.usersAmong ids
  roster : ∀ team answer, (db.selectRoster team).Answers answer ↔ answer = db.roster team
  activeAmong : ∀ teams answer,
    (db.selectActiveAmong teams).Answers answer ↔ answer = db.activeAmong teams

theorem determinate_of_placed (hdb : db.Placed) : db.Determinate where
  reviewersOf _ _ := answers_selectReviewers hdb
  reviewersAmong _ _ := answers_selectReviewersAmong hdb
  usersAmong _ _ := answers_selectUsersAmong
  roster _ _ := answers_selectRoster
  activeAmong _ _ := answers_selectActiveAmong

theorem bindKeys_bind_eq_ok {β : Type} {keys : List String} {during : Operation} {b answer : β} :
    (do bindKeys keys during; return b) = .ok answer ↔
      keys.length ≤ parameterLimit ∧ answer = b := by
  rw [bind_eq_ok]
  simp only [bindKeys_eq_ok, pure_eq_ok]
  exact ⟨fun ⟨_, h⟩ => h, fun h => ⟨(), h⟩⟩

structure Loads (db : Database) : Prop where
  reviewers : ∀ ids answer, db.loadReviewers ids = .ok answer ↔
    ids.length ≤ parameterLimit ∧ answer = db.reviewersAmong ids
  users : ∀ ids answer, db.loadUsers ids = .ok answer ↔
    ids.length ≤ parameterLimit ∧ answer = db.usersAmong ids
  active : ∀ teams answer, db.loadActive teams = .ok answer ↔
    teams.length ≤ parameterLimit ∧ answer = db.activeAmong teams

theorem loads (db : Database) : db.Loads where
  reviewers _ _ := bindKeys_bind_eq_ok
  users _ _ := bindKeys_bind_eq_ok
  active _ _ := bindKeys_bind_eq_ok

theorem groups_reviewersAmong : Groups ids db.reviewersOf (db.reviewersAmong ids) := by
  refine groups_gather (fun e he => ?_) fun _ => lookup_reviewersAmong
  obtain ⟨r, hr, rfl⟩ := List.mem_map.1 he
  rw [List.mem_mergeSort, List.mem_filter, List.contains_iff_mem] at hr
  exact hr.2

theorem usersAmong_ascending : ((db.usersAmong ids).map User.id).Pairwise (· < ·) := by
  rw [usersAmong, List.map_map, List.pairwise_map]
  exact (db.users.ascending.imp compare_lt_iff_lt.1).filter _

theorem mem_usersAmong {u : User} :
    u ∈ db.usersAmong ids ↔ u.id ∈ ids ∧ db.user? u.id = some u := by
  simp only [usersAmong, List.mem_map, List.mem_filter, List.contains_iff_mem, user?_eq_some_iff]
  constructor
  · rintro ⟨r, ⟨hr, hid⟩, rfl⟩
    exact ⟨hid, r, hr, rfl, trivial⟩
  · rintro ⟨hid, r, hr, rfl, -⟩
    exact ⟨r, ⟨hr, hid⟩, rfl⟩

theorem groups_activeAmong :
    Groups teams (fun team => ((db.roster team).filter (·.isActive)).map User.id)
      (db.activeAmong teams) := by
  refine groups_gather (fun e he => ?_) fun _ hteam => ?_
  · obtain ⟨r, hr, rfl⟩ := List.mem_map.1 he
    rw [List.mem_mergeSort, List.mem_filter, Bool.and_eq_true, List.contains_iff_mem] at hr
    exact hr.2.2
  · rw [← activeMembers_eq]
    exact lookup_activeAmong hteam

/-- What is asked about many keys at once, as long as they can be bound, is what is asked about them
one by one.  Where no two reviewers of a pull request stand at the same position, this is so in
whatever order the rows are found. -/
theorem batches_agree (db : Database) (hdb : db.Placed) :
    db.Determinate ∧ db.Loads ∧ (∀ ids, Groups ids db.reviewersOf (db.reviewersAmong ids)) ∧
      (∀ ids, ((db.usersAmong ids).map User.id).Pairwise (· < ·) ∧
        ∀ u, u ∈ db.usersAmong ids ↔ u.id ∈ ids ∧ db.user? u.id = some u) ∧
      ∀ teams, Groups teams (fun team => ((db.roster team).filter (·.isActive)).map User.id)
        (db.activeAmong teams) :=
  ⟨determinate_of_placed hdb, loads db, fun _ => groups_reviewersAmong,
    fun _ => ⟨usersAmong_ascending, fun _ => mem_usersAmong⟩, fun _ => groups_activeAmong⟩

def scattered : Database where
  teams := Table.insertAll ∅ [⟨"ops", 0⟩, ⟨"web", 0⟩]
  users := Table.insertAll ∅
    [⟨⟨"a", "Ann", "web", true⟩, 0⟩, ⟨⟨"b", "Bob", "ops", true⟩, 0⟩,
      ⟨⟨"c", "Cid", "web", false⟩, 0⟩, ⟨⟨"d", "Dan", "web", true⟩, 0⟩]
  pullRequests := Table.insertAll ∅
    [⟨"p", "Fix", "a", .opened, 0, none⟩, ⟨"q", "New", "b", .merged, 0, some 5⟩]
  reviewers := Table.insertAll ∅ [⟨⟨"p", "b"⟩, 7⟩, ⟨⟨"p", "d"⟩, -2⟩, ⟨⟨"q", "a"⟩, 7⟩]

theorem batches_agree_scattered :
    scattered.Placed ∧
      scattered.loadReviewers ["q", "p", "q", "z"] = .ok [("p", ["d", "b"]), ("q", ["a"])] ∧
      Groups ["q", "p", "q", "z"] scattered.reviewersOf [("p", ["d", "b"]), ("q", ["a"])] ∧
      (∀ u ∈ scattered.usersAmong ["d", "z", "a", "d"], scattered.user? u.id = some u) ∧
      Groups ["web", "sea", "web"]
        (fun team => ((scattered.roster team).filter (·.isActive)).map User.id)
        [("web", ["a", "d"])] := by
  have hplaced : scattered.Placed := by decide +kernel
  have hreviewers : scattered.reviewersAmong ["q", "p", "q", "z"] =
      [("p", ["d", "b"]), ("q", ["a"])] := by cbv
  have hactive : scattered.activeAmong ["web", "sea", "web"] = [("web", ["a", "d"])] := by cbv
  obtain ⟨-, hloads, hlists, husers, hteams⟩ := batches_agree scattered hplaced
  have hanswer : scattered.loadReviewers ["q", "p", "q", "z"] =
      .ok [("p", ["d", "b"]), ("q", ["a"])] :=
    (hloads.reviewers _ _).2 ⟨by decide, hreviewers.symm⟩
  exact ⟨hplaced, hanswer, hreviewers ▸ hlists _, fun u hu => (((husers _).2 u).1 hu).2,
    hactive ▸ hteams _⟩

end Database

end ReviewRota
