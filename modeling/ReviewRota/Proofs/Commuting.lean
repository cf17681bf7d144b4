import Mathlib
import ReviewRota.Proofs.Layout

/-!
# Teams go off duty in any order

A team that goes off duty may be replaced by members of another one, who are replaced in turn when
that one follows; in the other order they are not considered at all.  The lists come out the same:
what is left of the first filling is a beginning of what is filled in when both teams are gone.
-/

namespace ReviewRota

/-! ## Beginnings of lists -/

section Take

variable {α : Type} {p : α → Bool} {l : List α} {m j : Nat}

theorem filter_take_eq_take_filter (p : α → Bool) (l : List α) (m : Nat) :
    ∃ j ≤ m, (l.take m).filter p = (l.filter p).take j := by
  induction l generalizing m with
  | nil => exact ⟨0, Nat.zero_le m, by simp⟩
  | cons a rest ih =>
      cases m with
      | zero => exact ⟨0, Nat.le_refl 0, by simp⟩
      | succ m =>
          obtain ⟨j, hle, hj⟩ := ih m
          by_cases ha : p a = true
          · exact ⟨j + 1, by omega, by simp [ha, hj]⟩
          · exact ⟨j, by omega, by simp [ha, hj]⟩

theorem take_eq_take_filter (h : ∀ a ∈ l.take m, p a = true) : l.take m = (l.filter p).take m := by
  induction l generalizing m with
  | nil => simp
  | cons a rest ih =>
      cases m with
      | zero => simp
      | succ m =>
          rw [List.take_succ_cons, List.forall_mem_cons] at h
          simp [h.1, ih h.2]

theorem filter_not_mem_take [DecidableEq α] (h : l.Nodup) (j : Nat) :
    (l.filter fun a => !(l.take j).contains a) = l.drop j := by
  have hsplit := List.take_append_drop j l
  generalize l.take j = front at *
  generalize l.drop j = back at *
  subst hsplit
  have hdisjoint : ∀ a ∈ back, a ∉ front := fun a ha ha' =>
    (List.nodup_append.1 h).2.2 a ha' a ha rfl
  have hfront : front.filter (fun a => !front.contains a) = [] := by simp
  have hback : back.filter (fun a => !front.contains a) = back := by simpa using hdisjoint
  rw [List.filter_append, hfront, hback, List.nil_append]

theorem take_append_take_drop (h : j ≤ m) :
    l.take j ++ (l.drop j).take (m - (l.take j).length) = l.take m := by
  conv_rhs => rw [← List.take_append_drop j l, List.take_append]
  simp [List.take_take, h]

end Take

namespace Repair

variable {gone gone' : String → Bool} {authorId : String} {pool kept l : List String}

def eligible (authorId : String) (kept pool : List String) : List String :=
  pool.filter fun id => id ≠ authorId && !kept.contains id

def topUp (authorId : String) (pool kept : List String) : List String :=
  kept ++ (eligible authorId kept pool).take (reviewerCap - kept.length)

/-- What becomes of a list when those who are gone leave it, with the pool that is left. -/
def patch (gone : String → Bool) (authorId : String) (pool l : List String) : List String :=
  if l.any gone then topUp authorId pool (l.filter (!gone ·)) else l

theorem eligible_nodup (h : pool.Nodup) : (eligible authorId kept pool).Nodup :=
  h.filter _

theorem eligible_filter :
    eligible authorId (kept.filter (!gone ·)) (pool.filter (!gone ·)) =
      (eligible authorId kept pool).filter (!gone ·) := by
  simp only [eligible, List.filter_filter]
  apply List.filter_congr
  intro id _
  by_cases hgone : gone id = true <;> simp [hgone]

theorem eligible_append_take {j : Nat} (h : pool.Nodup) :
    eligible authorId (kept ++ (eligible authorId kept pool).take j) pool =
      (eligible authorId kept pool).drop j := by
  rw [← filter_not_mem_take (eligible_nodup h)]
  generalize (eligible authorId kept pool).take j = front
  rw [eligible, eligible, List.filter_filter]
  apply List.filter_congr
  intro id _
  by_cases hfront : id ∈ front <;> simp [hfront]

theorem topUp_append_take {j : Nat} (h : pool.Nodup) (hj : j ≤ reviewerCap - kept.length) :
    topUp authorId pool (kept ++ (eligible authorId kept pool).take j) =
      topUp authorId pool kept := by
  rw [topUp, eligible_append_take h, topUp, List.append_assoc, List.length_append, Nat.sub_add_eq,
    take_append_take_drop hj]

theorem filter_topUp (gone : String → Bool) (authorId : String) (pool kept : List String) :
    ∃ j ≤ reviewerCap - kept.length, (topUp authorId pool kept).filter (!gone ·) =
      kept.filter (!gone ·) ++
        (eligible authorId (kept.filter (!gone ·)) (pool.filter (!gone ·))).take j := by
  obtain ⟨j, hj, htake⟩ := filter_take_eq_take_filter (!gone ·) (eligible authorId kept pool)
    (reviewerCap - kept.length)
  exact ⟨j, hj, by rw [topUp, List.filter_append, htake, eligible_filter]⟩

theorem filter_not_or (l : List String) :
    (l.filter fun id => !(gone id || gone' id)) = (l.filter (!gone ·)).filter (!gone' ·) := by
  rw [List.filter_filter]
  apply List.filter_congr
  intro id _
  rw [Bool.not_or, Bool.and_comm]

theorem any_or_of_any (h : l.any gone = true) : (l.any fun id => gone id || gone' id) = true := by
  rw [List.any_eq_true] at h ⊢
  obtain ⟨id, hid, hgone⟩ := h
  exact ⟨id, hid, by simp [hgone]⟩

theorem any_or_of_not_any (h : ∀ id ∈ l, gone id = false) :
    (l.any fun id => gone id || gone' id) = l.any gone' := by
  rw [Bool.eq_iff_iff, List.any_eq_true, List.any_eq_true]
  refine exists_congr fun id => and_congr_right fun hid => ?_
  rw [h id hid, Bool.false_or]

/-- A list that was topped up is patched as if those who are gone had never been considered. -/
theorem patch_topUp (h : pool.Nodup) :
    patch gone authorId (pool.filter (!gone ·)) (topUp authorId pool kept) =
      topUp authorId (pool.filter (!gone ·)) (kept.filter (!gone ·)) := by
  unfold patch
  split
  · obtain ⟨j, hj, hleft⟩ := filter_topUp gone authorId pool kept
    have hlength := List.length_filter_le (!gone ·) kept
    rw [hleft]
    exact topUp_append_take (h.filter _) (by omega)
  · next hstay =>
    have hstay : ∀ id ∈ topUp authorId pool kept, (!gone id) = true := by
      simpa using hstay
    rw [topUp, List.forall_mem_append] at hstay
    have hkept : kept.filter (!gone ·) = kept := List.filter_eq_self.2 hstay.1
    rw [hkept, topUp, topUp, take_eq_take_filter hstay.2, ← eligible_filter, hkept]

/-- Two patches with what each leaves of the pool are one patch with what both leave. -/
theorem patch_patch (h : pool.Nodup) :
    patch gone' authorId ((pool.filter (!gone ·)).filter (!gone' ·))
        (patch gone authorId (pool.filter (!gone ·)) l) =
      patch (fun id => gone id || gone' id) authorId
        (pool.filter fun id => !(gone id || gone' id)) l := by
  by_cases hgone : l.any gone = true
  · have hone : patch gone authorId (pool.filter (!gone ·)) l =
        topUp authorId (pool.filter (!gone ·)) (l.filter (!gone ·)) := if_pos hgone
    rw [hone, patch_topUp (h.filter _), patch, if_pos (any_or_of_any hgone), filter_not_or,
      filter_not_or]
  · have hnone : ∀ id ∈ l, gone id = false := by simpa using hgone
    have hkept : l.filter (!gone ·) = l := List.filter_eq_self.2 (by simpa using hnone)
    have hone : patch gone authorId (pool.filter (!gone ·)) l = l := if_neg hgone
    rw [hone, patch, patch, any_or_of_not_any hnone, filter_not_or, filter_not_or, hkept]

end Repair

namespace Database

variable {db : Database} {id team other userId authorId : String} {now now' : Int64}

theorem eq_listed {rows : List ReviewerRow} (hid : ∀ r ∈ rows, r.slot.pullRequest = id)
    (hpositions : rows.map ReviewerRow.position = (List.range rows.length).map Int.ofNat) :
    rows = listed id (rows.map fun r => r.slot.reviewer) := by
  refine List.ext_getElem (by simp [listed]) fun i hi _ => ?_
  have hposition : rows[i].position = Int.ofNat i := by
    have hget := congrArg (·[i]?) hpositions
    simpa [hi] using hget
  have hslot := hid rows[i] (List.getElem_mem hi)
  have hrow : rows[i] = ⟨⟨id, rows[i].slot.reviewer⟩, Int.ofNat i⟩ := by
    rw [← hslot, ← hposition]
  rw [hrow]
  simp [listed]

theorem Layout.rowsOf_perm (hdb : db.Layout) :
    (db.rowsOf id).Perm (listed id (db.reviewersOf id)) := by
  have hperm : (byPosition (db.rowsOf id)).Perm (db.rowsOf id) := List.mergeSort_perm _ _
  suffices hsorted : byPosition (db.rowsOf id) = listed id (db.reviewersOf id) from
    hsorted ▸ hperm.symm
  refine eq_listed (fun r hr => (mem_rowsOf.1 (hperm.mem_iff.1 hr)).2) ?_
  have hpositions := (hperm.map ReviewerRow.position).trans (hdb.positions id)
  rw [hperm.length_eq]
  refine hpositions.eq_of_pairwise (fun a b _ _ => Int.le_antisymm) ?_ ?_
  · exact List.pairwise_map.2 (byPosition_pairwise _)
  · rw [List.pairwise_map]
    exact List.pairwise_le_range.imp fun hab => Int.ofNat_le.2 hab

theorem Layout.reviewers_eq {db' : Database} (hdb : db.Layout) (hdb' : db'.Layout)
    (h : ∀ id, db.reviewersOf id = db'.reviewersOf id) : db.reviewers = db'.reviewers := by
  apply Table.ext_mem
  intro r
  have hrows : (db.rowsOf r.slot.pullRequest).Perm (db'.rowsOf r.slot.pullRequest) := by
    refine hdb.rowsOf_perm.trans ?_
    rw [h]
    exact hdb'.rowsOf_perm.symm
  have hmem := hrows.mem_iff (a := r)
  simpa [mem_rowsOf] using hmem

/-! ## Users after a deactivation -/

theorem contains_activeMembers {r : UserRow} (hr : r ∈ db.users.rows) :
    (db.activeMembers team).contains r.id = (r.user.teamName = team && r.user.isActive) := by
  rw [Bool.eq_iff_iff, List.contains_iff_mem, activeMembers, List.mem_map]
  simp only [List.mem_filter]
  constructor
  · rintro ⟨r', ⟨hr', hgone⟩, hid⟩
    rwa [Table.eq_of_key_eq hr' hr hid] at hgone
  · exact fun hgone => ⟨r, ⟨hr, hgone⟩, rfl⟩

theorem activeMembers_dismiss :
    (db.dismiss team now).activeMembers other =
      (db.activeMembers other).filter (!(db.activeMembers team).contains ·) := by
  have hids : UserRow.id ∘ offDuty team now = UserRow.id := funext (offDuty_id team now)
  have hcontains : ∀ r ∈ db.users.rows, (db.activeMembers team).contains r.id =
      (r.user.teamName = team && r.user.isActive) := fun r hr => contains_activeMembers hr
  generalize db.activeMembers team = gone at *
  rw [activeMembers, activeMembers, List.filter_map, List.filter_filter]
  change ((db.users.rows.map (offDuty team now)).filter _).map _ = _
  rw [List.filter_map, List.map_map, hids]
  congr 1
  apply List.filter_congr
  intro r hr
  rw [Function.comp_apply, Function.comp_apply, hcontains r hr, offDuty]
  cases hgone : r.user.teamName = team && r.user.isActive <;> simp

theorem teammates_dismiss :
    (db.dismiss team now).teammates authorId =
      (db.teammates authorId).filter (!(db.activeMembers team).contains ·) := by
  unfold teammates
  rw [user?_dismiss]
  cases db.user? authorId with
  | none => rfl
  | some u =>
      simp only [Option.map_some, activeMembers_dismiss]
      split <;> rfl

theorem activeMembers_standDown :
    (db.standDown team now).activeMembers other = (db.dismiss team now).activeMembers other := by
  rw [activeMembers, users_standDown, activeMembers]

theorem teammates_standDown :
    (db.standDown team now).teammates authorId = (db.dismiss team now).teammates authorId := by
  simp only [teammates, user?_standDown, activeMembers_standDown]

theorem activeMembers_standDown_of_ne (h : other ≠ team) :
    (db.standDown team now).activeMembers other = db.activeMembers other := by
  rw [activeMembers_standDown, activeMembers_dismiss, List.filter_eq_self]
  intro id hid
  have hstays : id ∉ db.activeMembers team := by
    intro hgone
    obtain ⟨u, hu, hother, -⟩ := mem_activeMembers.1 hid
    obtain ⟨v, hv, hteam, -⟩ := mem_activeMembers.1 hgone
    rw [hu] at hv
    cases hv
    exact h (hother.symm.trans hteam)
  simpa using hstays

theorem teamName_offDuty {r : UserRow} : (offDuty team now r).user.teamName = r.user.teamName := by
  unfold offDuty
  split <;> rfl

theorem offDuty_of_ne {r : UserRow} (h : r.user.teamName ≠ team) : offDuty team now r = r := by
  simp [offDuty, h]

theorem offDuty_comm (h : team ≠ other) (r : UserRow) :
    offDuty team now (offDuty other now' r) = offDuty other now' (offDuty team now r) := by
  by_cases hteam : r.user.teamName = team
  · have hother : r.user.teamName ≠ other := fun hother => h (hteam.symm.trans hother)
    have hother' : (offDuty team now r).user.teamName ≠ other := by
      rwa [teamName_offDuty]
    rw [offDuty_of_ne hother, offDuty_of_ne hother']
  · have hteam' : (offDuty other now' r).user.teamName ≠ team := by
      rwa [teamName_offDuty]
    rw [offDuty_of_ne hteam, offDuty_of_ne hteam']

theorem users_standDown_comm (h : team ≠ other) :
    ((db.standDown team now).standDown other now').users =
      ((db.standDown other now').standDown team now).users := by
  apply Table.ext
  simp only [users_standDown, dismiss, Table.map, List.map_map]
  exact List.map_congr_left fun r _ => offDuty_comm h.symm r

theorem reviewersOf_standDown_eq_patch {p : PullRequestRow} (hp : p ∈ db.pullRequests.rows)
    (hopen : p.status = .opened) :
    (db.standDown team now).reviewersOf p.id =
      Repair.patch (db.activeMembers team).contains p.authorId
        ((db.teammates p.authorId).filter (!(db.activeMembers team).contains ·))
        (db.reviewersOf p.id) := by
  rw [reviewersOf_standDown hp, affects, hopen, ← teammates_dismiss]
  rfl

theorem reviewersOf_standDown_standDown {p : PullRequestRow} (hp : p ∈ db.pullRequests.rows)
    (hopen : p.status = .opened) (h : other ≠ team) :
    ((db.standDown team now).standDown other now').reviewersOf p.id =
      Repair.patch
        (fun id => (db.activeMembers team).contains id || (db.activeMembers other).contains id)
        p.authorId
        ((db.teammates p.authorId).filter fun id =>
          !((db.activeMembers team).contains id || (db.activeMembers other).contains id))
        (db.reviewersOf p.id) := by
  have hp' : p ∈ (db.standDown team now).pullRequests.rows := by rwa [pullRequests_standDown]
  rw [reviewersOf_standDown_eq_patch hp' hopen, reviewersOf_standDown_eq_patch hp hopen,
    activeMembers_standDown_of_ne h, teammates_standDown, teammates_dismiss,
    Repair.patch_patch teammates_nodup]

theorem reviewersOf_standDown_of_closed
    (h : ∀ p ∈ db.pullRequests.rows, p.id = id → p.status ≠ .opened) :
    (db.standDown team now).reviewersOf id = db.reviewersOf id := by
  rw [reviewersOf, ← rowsOf, rowsOf_standDown_of_not]
  · rfl
  · intro p hp hid
    simp [affects, h p hp hid]

theorem reviewersOf_standDown_comm (h : team ≠ other) (id : String) :
    ((db.standDown team now).standDown other now').reviewersOf id =
      ((db.standDown other now').standDown team now).reviewersOf id := by
  by_cases hopen : ∃ p ∈ db.pullRequests.rows, p.id = id ∧ p.status = .opened
  · obtain ⟨p, hp, rfl, hopen⟩ := hopen
    rw [reviewersOf_standDown_standDown hp hopen h.symm, reviewersOf_standDown_standDown hp hopen h]
    simp only [Bool.or_comm]
  · have hclosed : ∀ p ∈ db.pullRequests.rows, p.id = id → p.status ≠ .opened :=
      fun p hp hid hstatus => hopen ⟨p, hp, hid, hstatus⟩
    rw [reviewersOf_standDown_of_closed, reviewersOf_standDown_of_closed hclosed,
      reviewersOf_standDown_of_closed, reviewersOf_standDown_of_closed hclosed]
    · rwa [pullRequests_standDown]
    · rwa [pullRequests_standDown]

/-! ## Databases after deactivations -/

theorem Layout.standDown (hdb : db.Layout) (hteam : db.hasTeam team = true) :
    (db.standDown team now).Layout := by
  have hfounded : (StoreCall.deactivateTeam team now).Founded .members [] := trivial
  exact hdb.transition (.deactivateTeam hteam) hfounded

theorem hasTeam_standDown : (db.standDown team now).hasTeam other = db.hasTeam other := by
  rw [hasTeam, teams_standDown, hasTeam]

theorem standDown_comm (hdb : db.Layout) (h : team ≠ other) (hteam : db.hasTeam team = true)
    (hother : db.hasTeam other = true) :
    (db.standDown team now).standDown other now' =
      (db.standDown other now').standDown team now := by
  have hleft : ((db.standDown team now).standDown other now').Layout :=
    (hdb.standDown hteam).standDown (hasTeam_standDown.trans hother)
  have hright : ((db.standDown other now').standDown team now).Layout :=
    (hdb.standDown hother).standDown (hasTeam_standDown.trans hteam)
  have hteams : ((db.standDown team now).standDown other now').teams =
      ((db.standDown other now').standDown team now).teams := by simp
  have husers : ((db.standDown team now).standDown other now').users =
      ((db.standDown other now').standDown team now).users := users_standDown_comm h
  have hpulls : ((db.standDown team now).standDown other now').pullRequests =
      ((db.standDown other now').standDown team now).pullRequests := by simp
  have hreviewers := hleft.reviewers_eq hright (reviewersOf_standDown_comm h)
  generalize (db.standDown team now).standDown other now' = left at *
  generalize (db.standDown other now').standDown team now = right at *
  obtain ⟨_, _, _, _⟩ := left
  obtain ⟨_, _, _, _⟩ := right
  simp_all

def standDownAll (off : List (String × Int64)) (db : Database) : Database :=
  off.foldl (fun db (team, now) => db.standDown team now) db

theorem standDownAll_perm {off off' : List (String × Int64)} (hperm : off.Perm off')
    (hdb : db.Layout) (hteams : ∀ d ∈ off, db.hasTeam d.1 = true)
    (hnodup : (off.map Prod.fst).Nodup) : db.standDownAll off = db.standDownAll off' := by
  induction hperm generalizing db with
  | nil => rfl
  | cons d _ ih =>
      rw [List.forall_mem_cons] at hteams
      rw [List.map_cons, List.nodup_cons] at hnodup
      refine ih (hdb.standDown hteams.1) (fun d' hd' => ?_) hnodup.2
      rw [hasTeam_standDown]
      exact hteams.2 d' hd'
  | swap d d' rest =>
      rw [List.forall_mem_cons, List.forall_mem_cons] at hteams
      have hne : d'.1 ≠ d.1 := by
        rw [List.map_cons, List.map_cons, List.nodup_cons, List.mem_cons, not_or] at hnodup
        exact hnodup.1.1
      change ((db.standDown d'.1 d'.2).standDown d.1 d.2).standDownAll rest =
        ((db.standDown d.1 d.2).standDown d'.1 d'.2).standDownAll rest
      rw [standDown_comm hdb hne hteams.1 hteams.2.1]
  | trans hfirst _ ih ih' =>
      rw [ih hdb hteams hnodup]
      refine ih' hdb (fun d hd => hteams d (hfirst.mem_iff.2 hd)) ?_
      exact (hfirst.map Prod.fst).nodup_iff.1 hnodup

end Database

def Store.takeOffDuty (s : Store) : List (String × Int64) → Except Error Store
  | [] => .ok s
  | (team, now) :: rest => do
      let reply := s.perform (.deactivateTeam team now)
      let _ ← reply.result
      reply.store.takeOffDuty rest

def Store.Bindable (s : Store) : List (String × Int64) → Prop
  | [] => True
  | (team, now) :: rest =>
      s.database.Bindable team ∧ (s.perform (.deactivateTeam team now)).store.Bindable rest

namespace Trace

open Database

variable {contract : Contract}

theorem takeOffDuty_eq_ok {s : Store} {off : List (String × Int64)} (hopen : s.isOpen = true)
    (hrejects : ∀ c, s.rejects c = false) (hdb : s.database.Layout)
    (hteams : ∀ d ∈ off, s.database.hasTeam d.1 = true) (hbindable : s.Bindable off) :
    s.takeOffDuty off = .ok { s with database := s.database.standDownAll off } := by
  induction off generalizing s with
  | nil => rfl
  | cons d rest ih =>
      rw [List.forall_mem_cons] at hteams
      obtain ⟨hresult, hafter⟩ := Store.perform_of_effect (c := .deactivateTeam d.1 d.2) hopen
        (deactivateTeam_of_bindable hdb.consistent hrejects hteams.1 hbindable.1)
      have hstore : (s.perform (.deactivateTeam d.1 d.2)).store =
          { s with database := s.database.standDown d.1 d.2 } := by
        rw [Store.store_perform, hafter]
      have hrest : { s with database := s.database.standDown d.1 d.2 }.Bindable rest :=
        hstore ▸ hbindable.2
      rw [Store.takeOffDuty, hresult, hstore]
      refine ih hopen hrejects (hdb.standDown hteams.1) (fun d' hd' => ?_) hrest
      exact hasTeam_standDown.trans (hteams.2 d' hd')

/-- In every state teams can be taken off duty in any order, and the outcome is the same. -/
theorem deactivations_commute (t : Trace contract) (n : Nat) (off off' : List (String × Int64))
    (hopen : (t.store n).isOpen = true) (hrejects : ∀ c, (t.store n).rejects c = false)
    (hteams : ∀ d ∈ off, (t.database n).hasTeam d.1 = true) (hnodup : (off.map Prod.fst).Nodup)
    (hperm : off.Perm off') (hbindable : (t.store n).Bindable off)
    (hbindable' : (t.store n).Bindable off') :
    ∃ s, (t.store n).takeOffDuty off = .ok s ∧ (t.store n).takeOffDuty off' = .ok s := by
  have hdb := t.layout n
  have hteams' : ∀ d ∈ off', (t.database n).hasTeam d.1 = true := fun d hd =>
    hteams d (hperm.mem_iff.2 hd)
  refine ⟨_, takeOffDuty_eq_ok hopen hrejects hdb hteams hbindable, ?_⟩
  rw [takeOffDuty_eq_ok hopen hrejects hdb hteams' hbindable']
  change Except.ok { t.store n with database := (t.database n).standDownAll off' } =
    .ok { t.store n with database := (t.database n).standDownAll off }
  rw [standDownAll_perm hperm hdb hteams hnodup]

def regrouped : Trace .distinct := .ofList
  (.flatten [
    [.arrive (.createTeam "web" [⟨"a", "Ann", true⟩, ⟨"b", "Bob", true⟩, ⟨"c", "Cid", true⟩,
      ⟨"d", "Dan", true⟩])], .replicate 4 (.act 0 [] 5),
    [.arrive (.createPullRequest "p" "Fix" "a")], .replicate 7 (.act 1 ["b", "c"] 6),
    [.arrive (.createTeam "ops" [⟨"b", "Bob", true⟩])], .replicate 4 (.act 2 [] 7)])
  (by decide +kernel)

/-- If the new team goes first then it is replaced from the old one, which is replaced in turn; if
the old one goes first then nobody follows. -/
theorem deactivations_commute_regrouped :
    (regrouped.store 18).isOpen = true ∧ (∀ c, (regrouped.store 18).rejects c = false) ∧
      (∀ d ∈ [("ops", (9 : Int64)), ("web", 8)], (regrouped.database 18).hasTeam d.1 = true) ∧
      ([("ops", (9 : Int64)), ("web", 8)].map Prod.fst).Nodup ∧
      [("ops", (9 : Int64)), ("web", 8)].Perm [("web", 8), ("ops", 9)] ∧
      (regrouped.store 18).Bindable [("ops", 9), ("web", 8)] ∧
      (regrouped.store 18).Bindable [("web", 8), ("ops", 9)] ∧
      ((regrouped.store 18).takeOffDuty [("ops", 9)]).map (·.database.reviewersOf "p") =
        .ok ["c", "d"] ∧
      ((regrouped.store 18).takeOffDuty [("web", 8)]).map (·.database.reviewersOf "p") =
        .ok ["b"] ∧
      ∃ s, (regrouped.store 18).takeOffDuty [("ops", 9), ("web", 8)] = .ok s ∧
        (regrouped.store 18).takeOffDuty [("web", 8), ("ops", 9)] = .ok s := by
  have hopen : (regrouped.store 18).isOpen = true := by decide +kernel
  have hrejects : ∀ c, (regrouped.store 18).rejects c = false := fun _ => rfl
  have hteams : ∀ d ∈ [("ops", (9 : Int64)), ("web", 8)],
      (regrouped.database 18).hasTeam d.1 = true := by decide +kernel
  have hnodup : ([("ops", (9 : Int64)), ("web", 8)].map Prod.fst).Nodup := by decide
  have hperm : [("ops", (9 : Int64)), ("web", 8)].Perm [("web", 8), ("ops", 9)] := .swap ..
  have hbindable : (regrouped.store 18).Bindable [("ops", 9), ("web", 8)] :=
    ⟨of_decide_eq_true (by cbv), of_decide_eq_true (by cbv), trivial⟩
  have hbindable' : (regrouped.store 18).Bindable [("web", 8), ("ops", 9)] :=
    ⟨of_decide_eq_true (by cbv), of_decide_eq_true (by cbv), trivial⟩
  refine ⟨hopen, hrejects, hteams, hnodup, hperm, hbindable, hbindable', by cbv, by cbv, ?_⟩
  exact regrouped.deactivations_commute 18 _ _ hopen hrejects hteams hnodup hperm hbindable
    hbindable'

end Trace

end ReviewRota
