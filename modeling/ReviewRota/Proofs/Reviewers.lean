import ReviewRota.Database.Change
import ReviewRota.Proofs.Table

/-!
# Reviewer rows and reviewer lists

The reviewers of a pull request are stored as rows and read back as a list.  A list and its rows at
positions 0, 1, 2, … determine each other; replacing the rows, or giving one slot to another user,
is described by what it does to the list.
-/

namespace ReviewRota.Database

variable {db : Database} {id other old new userId : String} {l : List String}

def rowsOf (db : Database) (id : String) : List ReviewerRow :=
  db.reviewers.rows.filter fun r => r.slot.pullRequest = id

def listed (id : String) (reviewers : List String) : List ReviewerRow :=
  reviewers.zipIdx.map fun (reviewer, position) => ⟨⟨id, reviewer⟩, position⟩

theorem mem_rowsOf {r : ReviewerRow} :
    r ∈ db.rowsOf id ↔ r ∈ db.reviewers.rows ∧ r.slot.pullRequest = id := by
  simp [rowsOf]

theorem rowsOf_nodup : (db.rowsOf id).Nodup :=
  db.reviewers.rows_nodup.filter _

theorem mem_reviewersOf : userId ∈ db.reviewersOf id ↔ db.reviewers.contains ⟨id, userId⟩ := by
  rw [Table.contains_iff]
  simp only [reviewersOf, byPosition, List.mem_map, List.mem_mergeSort, List.mem_filter,
    decide_eq_true_eq]
  constructor
  · rintro ⟨⟨⟨_, _⟩, _⟩, ⟨hr, rfl⟩, rfl⟩
    exact ⟨_, hr, rfl⟩
  · rintro ⟨⟨slot, _⟩, hr, rfl⟩
    exact ⟨_, ⟨hr, rfl⟩, rfl⟩

theorem Consistent.contains_reviewer (h : db.Consistent) (huser : userId ∈ db.reviewersOf id) :
    db.users.contains userId = true := by
  obtain ⟨r, hr, hslot⟩ := Table.contains_iff.1 (mem_reviewersOf.1 huser)
  have hcontains := h.user_of_reviewer r hr
  rwa [hslot] at hcontains

theorem length_reviewersOf : (db.reviewersOf id).length = (db.rowsOf id).length := by
  rw [reviewersOf, List.length_map, byPosition, List.length_mergeSort, rowsOf]

theorem reviewersOf_nodup : (db.reviewersOf id).Nodup := by
  have hrows : ((db.rowsOf id).map fun r => r.slot.reviewer).Nodup := by
    apply List.Nodup.map_on _ rowsOf_nodup
    intro a ha b hb hab
    rw [mem_rowsOf] at ha hb
    apply Table.eq_of_key_eq ha.1 hb.1
    obtain ⟨⟨_, _⟩, _⟩ := a
    obtain ⟨⟨_, _⟩, _⟩ := b
    simp_all
  exact ((List.mergeSort_perm _ _).map _).nodup_iff.2 hrows

/-! ## Rows at distinct positions read back in one order only -/

theorem byPosition_pairwise (rows : List ReviewerRow) :
    (byPosition rows).Pairwise fun a b => a.position ≤ b.position := by
  have h : (byPosition rows).Pairwise fun a b => decide (a.position ≤ b.position) = true :=
    List.pairwise_mergeSort (fun a b c => by simpa using Int.le_trans)
      (fun a b => by simpa using Int.le_total _ _) rows
  simpa using h

theorem byPosition_congr {rows rows' : List ReviewerRow} (h : rows.Perm rows')
    (hpos : (rows.map ReviewerRow.position).Nodup) : byPosition rows = byPosition rows' := by
  have hperm : (byPosition rows).Perm (byPosition rows') :=
    (List.mergeSort_perm _ _).trans (h.trans (List.mergeSort_perm _ _).symm)
  apply hperm.eq_of_pairwise _ (byPosition_pairwise rows) (byPosition_pairwise rows')
  intro a b ha hb hab hba
  have ha : a ∈ rows := List.mem_mergeSort.1 ha
  have hb : b ∈ rows := h.mem_iff.2 (List.mem_mergeSort.1 hb)
  exact List.inj_on_of_nodup_map hpos ha hb (Int.le_antisymm hab hba)

theorem byPosition_map {f : ReviewerRow → ReviewerRow} (hf : ∀ r, (f r).position = r.position)
    (rows : List ReviewerRow) : byPosition (rows.map f) = (byPosition rows).map f := by
  refine (List.map_mergeSort ?_).symm
  intro a _ b _
  rw [hf, hf]

theorem map_position_listed (id : String) (l : List String) :
    (listed id l).map ReviewerRow.position = (List.range l.length).map Int.ofNat := by
  rw [listed, List.map_map, List.range_eq_range', ← List.zipIdx_map_snd, List.map_map]
  rfl

theorem map_reviewer_listed (id : String) (l : List String) :
    (listed id l).map (fun r => r.slot.reviewer) = l := by
  rw [listed, List.map_map]
  exact List.zipIdx_map_fst 0 l

theorem pullRequest_of_mem_listed {r : ReviewerRow} (h : r ∈ listed id l) :
    r.slot.pullRequest = id := by
  obtain ⟨_, -, rfl⟩ := List.mem_map.1 h
  rfl

theorem mem_of_mem_listed {r : ReviewerRow} (h : r ∈ listed id l) : r.slot.reviewer ∈ l := by
  have hmem := List.mem_map_of_mem (f := fun r : ReviewerRow => r.slot.reviewer) h
  rwa [map_reviewer_listed] at hmem

theorem map_slot_listed : (listed id l).map ReviewerRow.slot = l.map (Slot.mk id) := by
  conv_rhs => rw [← map_reviewer_listed id l, List.map_map]
  apply List.map_congr_left
  intro r hr
  rw [Function.comp_apply, ← pullRequest_of_mem_listed hr]

theorem positions_nodup_listed : ((listed id l).map ReviewerRow.position).Nodup := by
  rw [map_position_listed]
  exact List.nodup_range.map fun a b h => Int.ofNat_inj.1 h

theorem byPosition_listed : byPosition (listed id l) = listed id l := by
  apply List.mergeSort_of_pairwise
  have hrange : (List.range l.length).Pairwise (· < ·) := List.pairwise_lt_range
  have h : ((listed id l).map ReviewerRow.position).Pairwise (· < ·) := by
    rw [map_position_listed, List.pairwise_map]
    exact hrange.imp Int.ofNat_lt.2
  rw [List.pairwise_map] at h
  exact h.imp fun hab => decide_eq_true (Int.le_of_lt hab)

theorem byPosition_eq_of_perm (h : (db.rowsOf id).Perm (listed id l)) :
    byPosition (db.rowsOf id) = listed id l := by
  rw [← byPosition_congr h.symm positions_nodup_listed, byPosition_listed]

theorem reviewersOf_eq_of_perm (h : (db.rowsOf id).Perm (listed id l)) : db.reviewersOf id = l := by
  rw [reviewersOf, ← rowsOf, byPosition_eq_of_perm h, map_reviewer_listed]

def withoutReviewers (id : String) (db : Database) : Database :=
  { db with reviewers := db.reviewers.filter fun r => r.slot.pullRequest ≠ id }

theorem contains_withoutReviewers {slot : Slot} (h : slot.pullRequest = id) :
    (db.withoutReviewers id).reviewers.contains slot = false := by
  rw [← Bool.not_eq_true, Table.contains_iff]
  rintro ⟨r, hr, rfl⟩
  exact of_decide_eq_true (List.mem_filter.1 hr).2 h

def rewrite (id : String) (reviewers : List String) (db : Database) : Database :=
  { db with
    reviewers :=
      (db.reviewers.filter fun r => r.slot.pullRequest ≠ id).insertAll (listed id reviewers) }

theorem rewrite_eq_insertAll (h : db.rowsOf id = []) :
    db.rewrite id l = { db with reviewers := db.reviewers.insertAll (listed id l) } := by
  have hfilter : (db.reviewers.filter fun r => r.slot.pullRequest ≠ id) = db.reviewers := by
    apply Table.ext
    rw [Table.filter, List.filter_eq_self]
    intro r hr
    apply decide_eq_true
    intro hid
    have hmem := mem_rowsOf.2 ⟨hr, hid⟩
    rw [h] at hmem
    cases hmem
  rw [rewrite, hfilter]

theorem rowsOf_rewrite (hl : l.Nodup) : ((db.rewrite id l).rowsOf id).Perm (listed id l) := by
  have hslots : ((listed id l).map ReviewerRow.slot).Nodup := by
    rw [map_slot_listed]
    exact hl.map fun _ _ h => (Slot.mk.inj h).2
  have habsent : ∀ r ∈ listed id l, (db.withoutReviewers id).reviewers.contains r.slot = false :=
    fun r hr => contains_withoutReviewers (pullRequest_of_mem_listed hr)
  have hnew : (listed id l).filter (fun r => r.slot.pullRequest = id) = listed id l :=
    List.filter_eq_self.2 fun r hr => decide_eq_true (pullRequest_of_mem_listed hr)
  have hold : (db.withoutReviewers id).reviewers.rows.filter (fun r => r.slot.pullRequest = id) =
      [] := by
    rw [withoutReviewers, Table.filter, List.filter_filter, List.filter_eq_nil_iff]
    simp
  have h := (Table.insertAll_perm hslots habsent).filter fun r => r.slot.pullRequest = id
  rwa [List.filter_append, hnew, hold, List.append_nil] at h

theorem rowsOf_rewrite_of_ne (h : other ≠ id) :
    (db.rewrite id l).rowsOf other = db.rowsOf other := by
  rw [rowsOf, rewrite, Table.filter_insertAll_of_neg]
  · rw [Table.filter, List.filter_filter, rowsOf]
    apply List.filter_congr
    intro r _
    by_cases hr : r.slot.pullRequest = other
    · simp [hr, h]
    · simp [hr]
  · intro r hr r' hslot
    rw [hslot, pullRequest_of_mem_listed hr]
    exact decide_eq_false h.symm

theorem withoutReviewers_rewrite :
    (db.rewrite id l).withoutReviewers id = db.withoutReviewers id := by
  have hrows : ((db.rewrite id l).reviewers.filter fun r => r.slot.pullRequest ≠ id) =
      db.reviewers.filter fun r => r.slot.pullRequest ≠ id := by
    apply Table.ext
    refine (Table.filter_insertAll_of_neg fun r hr r' hslot => ?_).trans ?_
    · rw [hslot, pullRequest_of_mem_listed hr]
      simp
    · simp [Table.filter]
  rw [withoutReviewers, hrows]
  rfl

theorem reviewersOf_rewrite (hl : l.Nodup) : (db.rewrite id l).reviewersOf id = l :=
  reviewersOf_eq_of_perm (rowsOf_rewrite hl)

/-! ## Giving one slot to another user -/

def handOver (old new : String) (r : ReviewerRow) : ReviewerRow :=
  if r.slot.reviewer = old then ⟨⟨r.slot.pullRequest, new⟩, r.position⟩ else r

theorem rowsOf_perm_cons {r : ReviewerRow} (hr : r ∈ db.rowsOf id) :
    (db.rowsOf id).Perm
      (r :: (db.reviewers.erase r.slot).rows.filter fun r => r.slot.pullRequest = id) := by
  rw [mem_rowsOf] at hr
  have hout : r ∉ (db.reviewers.erase r.slot).rows.filter fun r => r.slot.pullRequest = id := by
    rw [List.mem_filter, Table.mem_erase]
    exact fun h => h.1.2 rfl
  have hrest := (Table.rows_nodup (db.reviewers.erase r.slot)).filter
    fun r => r.slot.pullRequest = id
  refine (List.perm_ext_iff_of_nodup rowsOf_nodup (List.nodup_cons.2 ⟨hout, hrest⟩)).2 ?_
  intro r'
  rw [mem_rowsOf, List.mem_cons, List.mem_filter, Table.mem_erase]
  constructor
  · rintro ⟨hr', hid⟩
    by_cases hslot : r'.slot = r.slot
    · exact .inl (Table.eq_of_key_eq hr' hr.1 hslot)
    · exact .inr ⟨⟨hr', hslot⟩, decide_eq_true hid⟩
  · rintro (rfl | ⟨⟨hr', -⟩, hid⟩)
    · exact hr
    · exact ⟨hr', of_decide_eq_true hid⟩

theorem rowsOf_swapReviewer (hold : db.reviewers.contains ⟨id, old⟩ = true)
    (hnew : db.reviewers.contains ⟨id, new⟩ = false) :
    ((swapReviewer ⟨id, old⟩ new db).rowsOf id).Perm ((db.rowsOf id).map (handOver old new)) := by
  rw [Table.contains_eq_isSome_get?] at hold
  obtain ⟨⟨slot, position⟩, hget⟩ := Option.isSome_iff_exists.1 hold
  obtain ⟨hrow, rfl⟩ := Table.get?_eq_some_iff.1 hget
  have hfresh : (db.reviewers.erase ⟨id, old⟩).contains ⟨id, new⟩ = false := by
    rw [← Bool.not_eq_true, Table.contains_iff] at hnew ⊢
    rintro ⟨r, hr, hslot⟩
    exact hnew ⟨r, (Table.mem_erase.1 hr).1, hslot⟩
  -- The row of `old` occurs once; the others stay as they are.
  have hrest : ∀ r ∈ (db.reviewers.erase ⟨id, old⟩).rows.filter fun r => r.slot.pullRequest = id,
      handOver old new r = r := by
    intro r hr
    obtain ⟨hr, hid⟩ := List.mem_filter.1 hr
    have hne := (Table.mem_erase.1 hr).2
    apply if_neg
    intro hold
    apply hne
    obtain ⟨⟨_, _⟩, _⟩ := r
    simp_all
  have hswap : (swapReviewer ⟨id, old⟩ new db).reviewers =
      (db.reviewers.erase ⟨id, old⟩).insert ⟨⟨id, new⟩, position⟩ := by
    rw [swapReviewer, hget]
  have hperm := (Table.insert_perm (a := (⟨⟨id, new⟩, position⟩ : ReviewerRow)) hfresh).filter
    fun r => r.slot.pullRequest = id
  rw [List.filter_cons_of_pos (by simp)] at hperm
  have hsplit := (rowsOf_perm_cons (mem_rowsOf.2 ⟨hrow, rfl⟩)).map (handOver old new)
  rw [rowsOf, hswap]
  refine hperm.trans (.trans ?_ hsplit.symm)
  rw [List.map_cons, List.map_congr_left hrest, List.map_id']
  simp [handOver]

theorem rowsOf_swapReviewer_of_ne {slot : Slot} (h : other ≠ slot.pullRequest) :
    (swapReviewer slot new db).rowsOf other = db.rowsOf other := by
  unfold swapReviewer
  split
  · rfl
  · rw [rowsOf, Table.filter_insert_of_neg, Table.erase, Table.filter, List.filter_filter, rowsOf]
    · apply List.filter_congr
      intro r _
      by_cases hr : r.slot.pullRequest = other
      · have hne : r.slot ≠ slot := fun hslot => h (hslot ▸ hr.symm)
        simp [hr, hne]
      · simp [hr]
    · intro r hslot
      rw [hslot]
      exact decide_eq_false h.symm

theorem mem_swapReviewer {slot : Slot} {r : ReviewerRow}
    (hold : db.reviewers.contains slot = true)
    (hnew : db.reviewers.contains ⟨slot.pullRequest, new⟩ = false) :
    r ∈ (db.swapReviewer slot new).reviewers.rows ↔ r ∈ db.reviewers.rows ∧ r.slot ≠ slot ∨
      ∃ position, ⟨slot, position⟩ ∈ db.reviewers.rows ∧
        r = ⟨⟨slot.pullRequest, new⟩, position⟩ := by
  rw [Table.contains_eq_isSome_get?] at hold
  obtain ⟨row, hget⟩ := Option.isSome_iff_exists.1 hold
  obtain ⟨hrow, rfl⟩ := Table.get?_eq_some_iff.1 hget
  rw [swapReviewer]
  simp only [hget]
  rw [Table.mem_insert, Table.mem_erase]
  constructor
  · rintro (rfl | ⟨hstays, -⟩)
    · exact .inr ⟨row.position, hrow, rfl⟩
    · exact .inl hstays
  · rintro (hstays | ⟨position, hposition, rfl⟩)
    · refine .inr ⟨hstays, fun hslot => ?_⟩
      rw [Table.contains_iff.2 ⟨r, hstays.1, hslot⟩] at hnew
      cases hnew
    · rw [Table.eq_of_key_eq hrow hposition rfl]
      exact .inl rfl

theorem map_handOver {rows : List ReviewerRow} (h : (rows.map fun r => r.slot.reviewer).Nodup) :
    (rows.map (handOver old new)).map (fun r => r.slot.reviewer) =
      (rows.map fun r => r.slot.reviewer).replace old new := by
  induction rows with
  | nil => rfl
  | cons r rest ih =>
      rw [List.map_cons, List.nodup_cons] at h
      obtain ⟨hr, hrest⟩ := h
      by_cases hold : r.slot.reviewer = old
      · have hkeep : ∀ r' ∈ rest, handOver old new r' = r' := by
          intro r' hr'
          apply if_neg
          intro h'
          exact hr (hold.trans h'.symm ▸ List.mem_map_of_mem hr')
        rw [List.map_cons, List.map_congr_left hkeep, List.map_id']
        simp [handOver, hold]
      · have hne : (old == r.slot.reviewer) = false := by simpa using fun h' => hold h'.symm
        simp only [List.map_cons, List.replace_cons, hne, ih hrest]
        simp [handOver, hold]

theorem position_handOver (r : ReviewerRow) : (handOver old new r).position = r.position := by
  unfold handOver
  split <;> rfl

theorem map_position_handOver (old new : String) (rows : List ReviewerRow) :
    (rows.map (handOver old new)).map ReviewerRow.position = rows.map ReviewerRow.position := by
  rw [List.map_map]
  exact List.map_congr_left fun r _ => position_handOver r

theorem mem_of_mem_replace (h : userId ∈ l.replace old new) : userId = new ∨ userId ∈ l := by
  induction l with
  | nil => cases h
  | cons id rest ih =>
      rw [List.replace_cons] at h
      split at h
      · exact (List.mem_cons.1 h).imp_right (.tail _)
      · rcases List.mem_cons.1 h with rfl | h
        · exact .inr (.head _)
        · exact (ih h).imp_right (.tail _)

theorem reviewersOf_swapReviewer (hold : db.reviewers.contains ⟨id, old⟩ = true)
    (hnew : db.reviewers.contains ⟨id, new⟩ = false)
    (hpos : ((db.rowsOf id).map ReviewerRow.position).Nodup) :
    (swapReviewer ⟨id, old⟩ new db).reviewersOf id = (db.reviewersOf id).replace old new := by
  rw [← map_position_handOver old new] at hpos
  have hsorted := byPosition_congr (rowsOf_swapReviewer hold hnew).symm hpos
  rw [reviewersOf, ← rowsOf, ← hsorted, byPosition_map position_handOver, map_handOver]
  · rfl
  · exact reviewersOf_nodup

theorem reviewersOf_swapReviewer_of_ne {slot : Slot} (h : other ≠ slot.pullRequest) :
    (swapReviewer slot new db).reviewersOf other = db.reviewersOf other := by
  rw [reviewersOf, ← rowsOf, rowsOf_swapReviewer_of_ne h]
  rfl

end ReviewRota.Database
