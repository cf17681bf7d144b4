import ReviewRota.Table
import Mathlib.Data.List.Nodup

/-!
# What tables hold

A key determines its row, so a table is known by its members; inserting, erasing and filtering are
described by what they do to the members.
-/

namespace ReviewRota.Table

variable {α κ : Type} [Ord κ] {key : α → κ}

section Members

variable [DecidableEq κ] {t : Table key} {a : α} {k : κ}

theorem contains_iff : t.contains k = true ↔ ∃ a ∈ t.rows, key a = k := by
  simp [contains]

theorem mem_erase : a ∈ (t.erase k).rows ↔ a ∈ t.rows ∧ key a ≠ k := by
  simp [erase, filter]

theorem contains_map {f : α → α} {h : ∀ a, key (f a) = key a} :
    (t.map f h).contains k = t.contains k := by
  simp only [contains, map, List.any_map, Function.comp_def, h]

theorem get?_map {f : α → α} {h : ∀ a, key (f a) = key a} :
    (t.map f h).get? k = (t.get? k).map f := by
  simp only [get?, map, List.find?_map, Function.comp_def, h]

end Members

variable [Std.TransOrd κ]

theorem ne_of_compare_lt {j k : κ} (h : compare j k = .lt) : j ≠ k := by
  rintro rfl
  have hself : compare j j = .eq := Std.ReflCmp.compare_self
  rw [hself] at h
  cases h

theorem keys_nodup (t : Table key) : (t.rows.map key).Nodup :=
  List.pairwise_map.2 (t.ascending.imp ne_of_compare_lt)

theorem rows_nodup (t : Table key) : t.rows.Nodup :=
  t.keys_nodup.of_map

theorem eq_of_key_eq {t : Table key} {a b : α} (ha : a ∈ t.rows) (hb : b ∈ t.rows)
    (h : key a = key b) : a = b :=
  List.inj_on_of_nodup_map t.keys_nodup ha hb h

theorem ext_mem {t t' : Table key} (h : ∀ a, a ∈ t.rows ↔ a ∈ t'.rows) : t = t' := by
  have hperm : t.rows.Perm t'.rows :=
    (List.perm_ext_iff_of_nodup t.rows_nodup t'.rows_nodup).2 h
  apply Table.ext
  refine hperm.eq_of_pairwise ?_ t.ascending t'.ascending
  intro a b _ _ hab hba
  have hswap : compare (key a) (key b) = (compare (key b) (key a)).swap := Std.OrientedCmp.eq_swap
  rw [hba, hab] at hswap
  cases hswap

theorem get?_eq_some_iff [DecidableEq κ] {t : Table key} {a : α} {k : κ} :
    t.get? k = some a ↔ a ∈ t.rows ∧ key a = k := by
  constructor
  · intro h
    exact ⟨List.mem_of_find?_eq_some h, by simpa using List.find?_some h⟩
  · rintro ⟨ha, rfl⟩
    have hsome : (t.get? (key a)).isSome := by
      simp only [get?, List.find?_isSome, decide_eq_true_eq]
      exact ⟨a, ha, rfl⟩
    obtain ⟨b, hb⟩ := Option.isSome_iff_exists.1 hsome
    have hkey : key b = key a := by simpa using List.find?_some hb
    rw [hb, eq_of_key_eq (List.mem_of_find?_eq_some hb) ha hkey]

theorem contains_eq_isSome_get? [DecidableEq κ] {t : Table key} {k : κ} :
    t.contains k = (t.get? k).isSome := by
  rw [Bool.eq_iff_iff, contains_iff, Option.isSome_iff_exists]
  simp only [get?_eq_some_iff]

theorem get?_eq_none_iff [DecidableEq κ] {t : Table key} {k : κ} :
    t.get? k = none ↔ t.contains k = false := by
  rw [contains_eq_isSome_get?, Option.isSome_eq_false_iff, Option.isNone_iff_eq_none]

def insertAll (t : Table key) (rows : List α) : Table key :=
  rows.foldl insert t

@[simp] theorem insertAll_nil (t : Table key) : t.insertAll [] = t := rfl

@[simp] theorem insertAll_cons (t : Table key) (a : α) (rows : List α) :
    t.insertAll (a :: rows) = (t.insert a).insertAll rows := rfl

variable [Std.LawfulEqOrd κ] {t : Table key}

section Insert

variable {a b : α}

theorem mem_insertRow {rows : List α} (h : rows.Pairwise fun a b => compare (key a) (key b) = .lt) :
    b ∈ insertRow key a rows ↔ b = a ∨ b ∈ rows ∧ key b ≠ key a := by
  induction rows with
  | nil => simp [insertRow]
  | cons c rest ih =>
      obtain ⟨hc, hrest⟩ := List.pairwise_cons.1 h
      have later : ∀ d ∈ rest, key d ≠ key c := fun d hd => (ne_of_compare_lt (hc d hd)).symm
      unfold insertRow
      split
      · next hlt =>
          have hne : ∀ d ∈ c :: rest, key d ≠ key a := by
            intro d hd
            rcases List.mem_cons.1 hd with rfl | hd
            · exact (ne_of_compare_lt hlt).symm
            · exact (ne_of_compare_lt (Std.TransCmp.lt_trans hlt (hc d hd))).symm
          rw [List.mem_cons]
          exact or_congr_right ⟨fun hb => ⟨hb, hne b hb⟩, And.left⟩
      · next heq =>
          have hac : key a = key c := Std.LawfulEqCmp.compare_eq_iff_eq.1 heq
          rw [List.mem_cons, List.mem_cons, hac]
          constructor
          · rintro (rfl | hb)
            · exact .inl rfl
            · exact .inr ⟨.inr hb, later b hb⟩
          · rintro (rfl | ⟨rfl | hb, hne⟩)
            · exact .inl rfl
            · exact absurd rfl hne
            · exact .inr hb
      · next hgt =>
          have hca : key c ≠ key a := ne_of_compare_lt (Std.OrientedCmp.lt_of_gt hgt)
          rw [List.mem_cons, List.mem_cons, ih hrest]
          constructor
          · rintro (rfl | rfl | ⟨hb, hne⟩)
            · exact .inr ⟨.inl rfl, hca⟩
            · exact .inl rfl
            · exact .inr ⟨.inr hb, hne⟩
          · rintro (rfl | ⟨rfl | hb, hne⟩)
            · exact .inr (.inl rfl)
            · exact .inl rfl
            · exact .inr (.inr ⟨hb, hne⟩)

theorem mem_insert : b ∈ (t.insert a).rows ↔ b = a ∨ b ∈ t.rows ∧ key b ≠ key a :=
  mem_insertRow t.ascending

theorem filter_insert_of_neg {p : α → Bool} (hp : ∀ b, key b = key a → p b = false) :
    (t.insert a).rows.filter p = t.rows.filter p := by
  suffices h : ∀ rows, (insertRow key a rows).filter p = rows.filter p from h t.rows
  intro rows
  induction rows with
  | nil => simp [insertRow, hp a rfl]
  | cons c rest ih =>
      unfold insertRow
      split
      · simp [hp a rfl]
      · next heq =>
          have hac : key a = key c := Std.LawfulEqCmp.compare_eq_iff_eq.1 heq
          simp [hp a rfl, hp c hac.symm]
      · simp [List.filter_cons, ih]

theorem contains_insert [DecidableEq κ] {k : κ} :
    (t.insert a).contains k = true ↔ key a = k ∨ t.contains k = true := by
  simp only [contains_iff, mem_insert]
  constructor
  · rintro ⟨b, rfl | ⟨hb, -⟩, hk⟩
    · exact .inl hk
    · exact .inr ⟨b, hb, hk⟩
  · rintro (hk | ⟨b, hb, hk⟩)
    · exact ⟨a, .inl rfl, hk⟩
    · by_cases hba : key b = key a
      · exact ⟨a, .inl rfl, hba.symm.trans hk⟩
      · exact ⟨b, .inr ⟨hb, hba⟩, hk⟩

theorem get?_insert [DecidableEq κ] {k : κ} :
    (t.insert a).get? k = if key a = k then some a else t.get? k := by
  rw [Option.ext_iff]
  intro b
  split
  · next hk =>
      rw [get?_eq_some_iff, mem_insert, Option.some_inj]
      constructor
      · rintro ⟨rfl | ⟨-, hne⟩, hb⟩
        · rfl
        · exact absurd (hb.trans hk.symm) hne
      · rintro rfl
        exact ⟨.inl rfl, hk⟩
  · next hk =>
      rw [get?_eq_some_iff, mem_insert, get?_eq_some_iff]
      constructor
      · rintro ⟨rfl | ⟨hb, -⟩, hkey⟩
        · exact absurd hkey hk
        · exact ⟨hb, hkey⟩
      · rintro ⟨hb, hkey⟩
        exact ⟨.inr ⟨hb, fun hba => hk (hba.symm.trans hkey)⟩, hkey⟩

theorem insert_perm [DecidableEq κ] (h : t.contains (key a) = false) :
    (t.insert a).rows.Perm (a :: t.rows) := by
  have absent : ∀ b ∈ t.rows, key b ≠ key a := by
    intro b hb hk
    rw [contains_iff.2 ⟨b, hb, hk⟩] at h
    cases h
  have ha : a ∉ t.rows := fun ha => absent a ha rfl
  rw [List.perm_ext_iff_of_nodup (rows_nodup _) (List.nodup_cons.2 ⟨ha, t.rows_nodup⟩)]
  intro b
  rw [mem_insert, List.mem_cons]
  exact or_congr_right (and_iff_left_of_imp (absent b))

end Insert

section InsertAll

variable {rows : List α}

theorem mem_of_mem_insertAll {a : α} (h : a ∈ (t.insertAll rows).rows) : a ∈ rows ∨ a ∈ t.rows := by
  induction rows generalizing t with
  | nil => exact .inr h
  | cons b rest ih =>
      rcases ih h with hrest | ht
      · exact .inl (.tail _ hrest)
      · rcases mem_insert.1 ht with rfl | ⟨ht, -⟩
        · exact .inl (.head _)
        · exact .inr ht

theorem contains_insertAll_of_contains [DecidableEq κ] {k : κ} (h : t.contains k = true) :
    (t.insertAll rows).contains k = true := by
  induction rows generalizing t with
  | nil => exact h
  | cons a rest ih => exact ih (contains_insert.2 (.inr h))

theorem get?_insertAll_of_not_mem [DecidableEq κ] {k : κ} (hk : k ∉ rows.map key) :
    (t.insertAll rows).get? k = t.get? k := by
  induction rows generalizing t with
  | nil => rfl
  | cons a rest ih =>
      rw [List.map_cons, List.mem_cons, not_or] at hk
      rw [insertAll_cons, ih hk.2, get?_insert, if_neg (Ne.symm hk.1)]

theorem get?_insertAll_of_mem [DecidableEq κ] {a : α} (hnodup : (rows.map key).Nodup)
    (ha : a ∈ rows) : (t.insertAll rows).get? (key a) = some a := by
  induction rows generalizing t with
  | nil => cases ha
  | cons b rest ih =>
      obtain ⟨hb, hrest⟩ := List.nodup_cons.1 hnodup
      rcases List.mem_cons.1 ha with rfl | ha
      · rw [insertAll_cons, get?_insertAll_of_not_mem hb, get?_insert, if_pos rfl]
      · exact ih hrest ha

theorem filter_insertAll_of_neg {p : α → Bool}
    (hp : ∀ a ∈ rows, ∀ b, key b = key a → p b = false) :
    (t.insertAll rows).rows.filter p = t.rows.filter p := by
  induction rows generalizing t with
  | nil => rfl
  | cons a rest ih =>
      rw [insertAll_cons, ih fun b hb => hp b (.tail _ hb), filter_insert_of_neg (hp a (.head _))]

theorem insertAll_perm [DecidableEq κ] (hnodup : (rows.map key).Nodup)
    (habsent : ∀ a ∈ rows, t.contains (key a) = false) :
    (t.insertAll rows).rows.Perm (rows ++ t.rows) := by
  induction rows generalizing t with
  | nil => rfl
  | cons a rest ih =>
      rw [List.map_cons, List.nodup_cons] at hnodup
      obtain ⟨ha, hrest⟩ := hnodup
      have habsent' : ∀ b ∈ rest, (t.insert a).contains (key b) = false := by
        intro b hb
        rw [← Bool.not_eq_true, contains_insert, habsent b (.tail _ hb)]
        rintro (hab | hfalse)
        · exact ha (hab ▸ List.mem_map_of_mem hb)
        · cases hfalse
      have hhead := insert_perm (habsent a (.head _))
      exact (ih hrest habsent').trans ((hhead.append_left rest).trans List.perm_middle)

end InsertAll

end ReviewRota.Table
