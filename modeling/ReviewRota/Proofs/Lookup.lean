import Mathlib.Data.List.Induction
import ReviewRota.Database.Deactivation
import ReviewRota.Proofs.Reviewers

/-!
# Queries about many keys at once

A query about many keys sorts the rows by key, gathers them, and is then looked up key by key.
Sorting is stable, so that what is found under a key is what a query about that key alone returns.
-/

namespace ReviewRota

/-! ## Stable sorting and filters -/

section Sorting

variable {α : Type} {le : α → α → Bool} {p : α → Bool} {l l' r r' : List α}

private theorem append_cancel_of_filter (h : l ++ r = l' ++ r') (hl : ∀ a ∈ l, p a = true)
    (hl' : ∀ a ∈ l', p a = true) (hr : ∀ a ∈ r, p a = false) (hr' : ∀ a ∈ r', p a = false) :
    l = l' ∧ r = r' := by
  have hfilter := congrArg (List.filter p) h
  have hnone : ∀ {r : List α}, (∀ a ∈ r, p a = false) → r.filter p = [] := fun hr =>
    List.filter_eq_nil_iff.2 fun a ha => by simp [hr a ha]
  rw [List.filter_append, List.filter_append, hnone hr, hnone hr', List.filter_eq_self.2 hl,
    List.filter_eq_self.2 hl', List.append_nil, List.append_nil] at hfilter
  subst hfilter
  exact ⟨rfl, List.append_cancel_left h⟩

theorem filter_mergeSort (trans : ∀ a b c, le a b = true → le b c = true → le a c = true)
    (total : ∀ a b, (le a b || le b a) = true) (l : List α) :
    (l.mergeSort le).filter p = (l.filter p).mergeSort le := by
  induction l with
  | nil => simp
  | cons a l ih =>
      obtain ⟨l₁, l₂, hcons, hrest, hbefore⟩ := List.mergeSort_cons trans total a l
      rw [hrest, List.filter_append] at ih
      rw [hcons, List.filter_append]
      by_cases ha : p a = true
      · obtain ⟨m₁, m₂, hcons', hrest', hbefore'⟩ := List.mergeSort_cons trans total a (l.filter p)
        have hafter : ∀ b ∈ l₂, le a b = true := by
          have hsorted := List.pairwise_mergeSort trans total (a :: l)
          rw [hcons, List.pairwise_append, List.pairwise_cons] at hsorted
          exact hsorted.2.1.1
        have hafter' : ∀ b ∈ m₂, le a b = true := by
          have hsorted := List.pairwise_mergeSort trans total (a :: l.filter p)
          rw [hcons', List.pairwise_append, List.pairwise_cons] at hsorted
          exact hsorted.2.1.1
        -- What goes before `a` and what goes after it can be told apart by comparing with `a`.
        obtain ⟨h₁, h₂⟩ := append_cancel_of_filter (p := fun b => !le a b) (ih.trans hrest')
          (fun b hb => hbefore b (List.mem_filter.1 hb).1) hbefore'
          (fun b hb => by simp [hafter b (List.mem_filter.1 hb).1])
          (fun b hb => by simp [hafter' b hb])
        rw [List.filter_cons_of_pos ha, List.filter_cons_of_pos ha, hcons', h₁, h₂]
      · rw [List.filter_cons_of_neg ha, List.filter_cons_of_neg ha, ih]

/-- Sorting keeps the order of entries that are equal in the order that is sorted by. -/
theorem pairwise_mergeSort_of_ties {r : α → α → Prop}
    (trans : ∀ a b c, le a b = true → le b c = true → le a c = true)
    (total : ∀ a b, (le a b || le b a) = true) (h : l.Pairwise r) :
    (l.mergeSort le).Pairwise fun a b => le a b = true ∧ (le b a = true → r a b) := by
  have hsorted := List.pairwise_mergeSort trans total l
  rw [List.pairwise_iff_forall_sublist] at h hsorted ⊢
  intro a b hab
  refine ⟨hsorted hab, fun hba => ?_⟩
  have haa : le a a = true := by simpa using total a a
  have hties := hab.filter fun c => le a c && le c a
  rw [filter_mergeSort trans total, List.mergeSort_of_pairwise] at hties
  · have hpair : [a, b].Sublist (l.filter fun c => le a c && le c a) := by
      simpa [haa, hsorted hab, hba] using hties
    exact h (hpair.trans List.filter_sublist)
  · refine List.pairwise_of_forall_mem_list fun c hc d hd => ?_
    simp only [List.mem_filter, Bool.and_eq_true] at hc hd
    exact trans c a d hc.2.2 hd.2.1

theorem isLE_total {cmp : α → α → Ordering} [Std.OrientedCmp cmp] (a b : α) :
    ((cmp a b).isLE || (cmp b a).isLE) = true := by
  have hswap : cmp a b = (cmp b a).swap := Std.OrientedCmp.eq_swap
  rw [hswap]
  cases cmp b a <;> rfl

theorem pairwise_mergeSort_lex {cmp cmp' : α → α → Ordering} [Std.TransCmp cmp]
    (h : l.Pairwise fun a b => (cmp' a b).isLE = true) :
    (l.mergeSort fun a b => (cmp a b).isLE).Pairwise fun a b =>
      (compareLex cmp cmp' a b).isLE = true := by
  refine (pairwise_mergeSort_of_ties (fun _ _ _ => Std.TransCmp.isLE_trans) isLE_total h).imp
    fun {a b} hab => ?_
  obtain ⟨hle, hties⟩ := hab
  have hswap : cmp b a = (cmp a b).swap := Std.OrientedCmp.eq_swap
  rw [hswap] at hties
  rw [compareLex]
  cases hcmp : cmp a b with
  | lt => rfl
  | eq => exact hties (by rw [hcmp]; rfl)
  | gt => rw [hcmp] at hle; cases hle

theorem filter_mergeSort_cmp {cmp : α → α → Ordering} [Std.TransCmp cmp] (l : List α) :
    (l.mergeSort fun a b => (cmp a b).isLE).filter p =
      (l.filter p).mergeSort fun a b => (cmp a b).isLE :=
  filter_mergeSort (fun _ _ _ => Std.TransCmp.isLE_trans) isLE_total l

end Sorting

section Gather

variable {β : Type} {groups : List (String × List β)} {entries : List (String × β)} {k : String}
  {values : List β}

theorem lookup_add (e : String × β) (k : String) :
    (gather.add groups e).lookup k =
      if k = e.1 then some ((groups.lookup k).getD [] ++ [e.2]) else groups.lookup k := by
  induction groups with
  | nil =>
      by_cases hk : k = e.1
      · simp [gather.add, hk]
      · have hbeq : (k == e.1) = false := by simpa using hk
        simp [gather.add, List.lookup_cons, hk, hbeq]
  | cons g rest ih =>
      obtain ⟨k', vs⟩ := g
      unfold gather.add
      by_cases hk : k = k'
      · subst hk
        split
        · next heq => simp [heq]
        · simp
      · have hbeq : (k == k') = false := by simpa using hk
        split
        · next heq =>
            subst heq
            simp [List.lookup_cons, hbeq, hk]
        · simp only [List.lookup_cons, hbeq, ih]

theorem lookup_eq_some_iff (h : (groups.map Prod.fst).Nodup) :
    groups.lookup k = some values ↔ (k, values) ∈ groups := by
  induction groups with
  | nil => simp
  | cons g rest ih =>
      obtain ⟨k', values'⟩ := g
      obtain ⟨hk', hrest⟩ := List.nodup_cons.1 h
      by_cases hk : k = k'
      · subst hk
        have hout : (k, values) ∉ rest := fun hmem => hk' (List.mem_map.2 ⟨_, hmem, rfl⟩)
        simp [hout, eq_comm]
      · have hbeq : (k == k') = false := by simpa using hk
        simp [List.lookup_cons, hbeq, hk, ih hrest]

theorem mem_keys_add {e : String × β} :
    k ∈ (gather.add groups e).map Prod.fst ↔ k ∈ groups.map Prod.fst ∨ k = e.1 := by
  induction groups with
  | nil => simp [gather.add]
  | cons g rest ih =>
      obtain ⟨k', values'⟩ := g
      unfold gather.add
      split
      · next hk' =>
          subst hk'
          simp only [List.map_cons, List.mem_cons]
          rw [or_right_comm, or_self]
      · simp only [List.map_cons, List.mem_cons, ih, or_assoc]

theorem keys_nodup_add {e : String × β} (h : (groups.map Prod.fst).Nodup) :
    ((gather.add groups e).map Prod.fst).Nodup := by
  induction groups with
  | nil => simp [gather.add]
  | cons g rest ih =>
      obtain ⟨k', values'⟩ := g
      obtain ⟨hk', hrest⟩ := List.nodup_cons.1 h
      unfold gather.add
      split
      · exact h
      · next hne =>
          refine List.nodup_cons.2 ⟨?_, ih hrest⟩
          rw [mem_keys_add]
          exact not_or.2 ⟨hk', hne⟩

theorem gather_append_singleton {e : String × β} :
    gather (entries ++ [e]) = gather.add (gather entries) e := by
  rw [gather, List.foldl_append]
  rfl

theorem lookup_gather (entries : List (String × β)) (k : String) :
    ((gather entries).lookup k).getD [] =
      (entries.filter fun e => e.1 = k).map Prod.snd := by
  induction entries using List.reverseRecOn with
  | nil => rfl
  | append_singleton init e ih =>
      rw [gather_append_singleton, lookup_add, List.filter_append, List.map_append, ← ih]
      by_cases hk : k = e.1
      · simp [hk]
      · simp [hk, Ne.symm hk]

theorem mem_keys_gather : k ∈ (gather entries).map Prod.fst ↔ k ∈ entries.map Prod.fst := by
  induction entries using List.reverseRecOn with
  | nil => simp [gather]
  | append_singleton init e ih =>
      rw [gather_append_singleton, mem_keys_add, ih, List.map_append, List.mem_append]
      simp

theorem keys_nodup_gather : ((gather entries).map Prod.fst).Nodup := by
  induction entries using List.reverseRecOn with
  | nil => exact .nil
  | append_singleton init e ih =>
      rw [gather_append_singleton]
      exact keys_nodup_add ih

end Gather

namespace Database

variable {db : Database} {id : String} {ids teams : List String}

theorem lookup_reviewersAmong (hid : id ∈ ids) :
    ((db.reviewersAmong ids).lookup id).getD [] = db.reviewersOf id := by
  have hrows : ((db.reviewers.rows.filter fun r => ids.contains r.slot.pullRequest).filter fun r =>
      r.slot.pullRequest = id) = db.rowsOf id := by
    rw [List.filter_filter, rowsOf]
    apply List.filter_congr
    intro r _
    by_cases hr : r.slot.pullRequest = id
    · simp [hr, hid]
    · simp [hr]
  -- Among rows of one pull request only the position is left to compare.
  have hsort : (db.rowsOf id).mergeSort (fun a b =>
      (compareLex (compareOn fun r : ReviewerRow => r.slot.pullRequest)
        (compareOn ReviewerRow.position) a b).isLE) = byPosition (db.rowsOf id) := by
    rw [byPosition, ← List.map_id (List.mergeSort _ _), List.map_mergeSort, List.map_id]
    intro a ha b hb
    have hab : compare a.slot.pullRequest b.slot.pullRequest = .eq := by
      rw [(mem_rowsOf.1 ha).2, (mem_rowsOf.1 hb).2]
      exact Std.ReflCmp.compare_self
    simp only [compareLex, compareOn, hab, Ordering.then]
    rw [Bool.eq_iff_iff, Std.isLE_compare, decide_eq_true_iff]
    exact Iff.rfl
  rw [reviewersAmong, lookup_gather, List.filter_map, List.map_map]
  change List.map _ ((List.mergeSort _ _).filter fun r : ReviewerRow =>
    r.slot.pullRequest = id) = _
  rw [filter_mergeSort_cmp, hrows, hsort]
  rfl

theorem find?_usersAmong (hid : id ∈ ids) :
    (db.usersAmong ids).find? (fun u => u.id = id) = db.user? id := by
  rw [usersAmong, List.find?_map, List.find?_filter, user?, Table.get?, ← List.head?_filter,
    ← List.head?_filter]
  congr 2
  apply List.filter_congr
  intro r _
  by_cases hr : r.user.id = id
  · simp [hr, hid, UserRow.id]
  · simp [hr, UserRow.id]

theorem lookup_activeAmong {team : String} (hteam : team ∈ teams) :
    ((db.activeAmong teams).lookup team).getD [] = db.activeMembers team := by
  have hrows : ((db.users.rows.filter fun r =>
      r.user.isActive && teams.contains r.user.teamName).filter fun r => r.user.teamName = team) =
      db.users.rows.filter fun r => r.user.teamName = team && r.user.isActive := by
    rw [List.filter_filter]
    apply List.filter_congr
    intro r _
    by_cases hr : r.user.teamName = team
    · simp [hr, hteam]
    · simp [hr]
  rw [activeAmong, lookup_gather, List.filter_map, List.map_map]
  change List.map _ ((List.mergeSort _ fun a b =>
    (compareOn (fun r : UserRow => r.user.teamName) a b).isLE).filter fun r : UserRow =>
      r.user.teamName = team) = _
  rw [filter_mergeSort_cmp, hrows, List.mergeSort_of_pairwise]
  · rfl
  · apply List.pairwise_of_forall_mem_list
    intro a ha b hb
    have hteams : a.user.teamName = b.user.teamName := by
      have ha := (List.mem_filter.1 ha).2
      have hb := (List.mem_filter.1 hb).2
      simp only [Bool.and_eq_true, decide_eq_true_eq] at ha hb
      exact ha.1.trans hb.1.symm
    simp [compareOn, hteams, Std.ReflCmp.compare_self]

theorem activeMembers_eq {team : String} :
    db.activeMembers team = ((db.roster team).filter (·.isActive)).map User.id := by
  rw [activeMembers, roster, List.filter_map, List.map_map, List.filter_filter]
  congr 1
  apply List.filter_congr
  intro r _
  exact Bool.and_comm _ _

/-! ## What a deactivation looks up -/

def teammates (db : Database) (userId : String) : List String :=
  match db.user? userId with
  | none => []
  | some u => db.activeMembers u.teamName

def affects (db : Database) (userIds : List String) (p : PullRequestRow) : Bool :=
  p.status = .opened && (db.reviewersOf p.id).any userIds.contains

theorem affects_iff {userIds : List String} {p : PullRequestRow} :
    db.affects userIds p = true ↔
      p.status = .opened ∧ ∃ userId ∈ userIds, userId ∈ db.reviewersOf p.id := by
  simp only [affects, Bool.and_eq_true, decide_eq_true_eq, List.any_eq_true, List.contains_eq_mem]
  exact and_congr_right fun _ => exists_congr fun r => and_comm

theorem bindKeys_eq_ok {keys : List String} {during : Operation} {u : Unit} :
    bindKeys keys during = .ok u ↔ keys.length ≤ parameterLimit := by
  unfold bindKeys
  split <;> simp [*]

theorem bindKeys_of_lt {keys : List String} {during : Operation}
    (h : parameterLimit < keys.length) :
    bindKeys keys during = .error (.storage .tooManyParameters during) :=
  if_neg (Nat.not_le.2 h)

theorem loadReviewedBy_eq {userIds : List String} :
    db.loadReviewedBy userIds = (bindKeys userIds .loadReviewedBy).map fun _ =>
      db.pullRequests.rows.filter (db.affects userIds) := by
  have hrows : (db.pullRequests.rows.filter fun p =>
      p.status = .opened && db.reviewers.rows.any fun r =>
        r.slot.pullRequest = p.id && userIds.contains r.slot.reviewer) =
      db.pullRequests.rows.filter (db.affects userIds) := by
    apply List.filter_congr
    intro p _
    rw [Bool.eq_iff_iff, affects_iff]
    simp only [mem_reviewersOf, Table.contains_iff, Bool.and_eq_true, decide_eq_true_eq,
      List.any_eq_true, List.contains_eq_mem]
    refine and_congr_right fun _ => ⟨?_, ?_⟩
    · rintro ⟨r, hr, hid, hmem⟩
      exact ⟨r.slot.reviewer, hmem, r, hr, by rw [← hid]⟩
    · rintro ⟨userId, hmem, r, hr, hslot⟩
      exact ⟨r, hr, by rw [hslot], by rwa [hslot]⟩
  rw [loadReviewedBy, hrows]
  cases bindKeys userIds .loadReviewedBy <;> rfl

end Database

end ReviewRota
