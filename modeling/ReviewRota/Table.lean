/-!
# Keyed tables

A `Table key` holds rows whose keys ascend strictly.  Rows are therefore found by key, each key
occurs once, and a query that keeps the order of rows is already ordered by key.
-/

namespace ReviewRota

structure Table {α κ : Type} [Ord κ] (key : α → κ) where
  rows : List α
  ascending : rows.Pairwise fun a b => compare (key a) (key b) = .lt

namespace Table

variable {α κ : Type} [Ord κ] {key : α → κ}

instance : EmptyCollection (Table key) := ⟨⟨[], .nil⟩⟩

instance : Inhabited (Table key) := ⟨∅⟩

@[ext] theorem ext {s t : Table key} (h : s.rows = t.rows) : s = t := by
  cases s; cases t; cases h; rfl

instance [DecidableEq α] : DecidableEq (Table key) := fun s t =>
  if h : s.rows = t.rows then .isTrue (ext h) else .isFalse fun e => h (e ▸ rfl)

section Lookup

variable [DecidableEq κ]

@[inline] def get? (t : Table key) (k : κ) : Option α :=
  t.rows.find? fun a => key a = k

@[inline] def contains (t : Table key) (k : κ) : Bool :=
  t.rows.any fun a => key a = k

end Lookup

def filter (t : Table key) (p : α → Bool) : Table key :=
  ⟨t.rows.filter p, t.ascending.filter p⟩

/-- Changes rows in place; the change must not touch the key. -/
def map (t : Table key) (f : α → α) (h : ∀ a, key (f a) = key a := by intro _; rfl) :
    Table key :=
  ⟨t.rows.map f, by
    rw [List.pairwise_map]
    exact t.ascending.imp fun hab => by rwa [h, h]⟩

def insertRow (key : α → κ) (a : α) : List α → List α
  | [] => [a]
  | b :: rest =>
      match compare (key a) (key b) with
      | .lt => a :: b :: rest
      | .eq => a :: rest
      | .gt => b :: insertRow key a rest

theorem eq_or_mem_of_mem_insertRow {a c : α} {rows : List α} (h : c ∈ insertRow key a rows) :
    c = a ∨ c ∈ rows := by
  induction rows with
  | nil => simpa [insertRow] using h
  | cons b rest ih =>
      unfold insertRow at h
      split at h
      · simpa using h
      · rcases List.mem_cons.1 h with rfl | h
        · exact .inl rfl
        · exact .inr (.tail _ h)
      · rcases List.mem_cons.1 h with rfl | h
        · exact .inr (.head _)
        · exact (ih h).imp_right (.tail _)

theorem pairwise_insertRow [Std.TransOrd κ] {rows : List α} (a : α)
    (h : rows.Pairwise fun a b => compare (key a) (key b) = .lt) :
    (insertRow key a rows).Pairwise fun a b => compare (key a) (key b) = .lt := by
  induction rows with
  | nil => simp [insertRow]
  | cons b rest ih =>
      obtain ⟨hb, hrest⟩ := List.pairwise_cons.1 h
      unfold insertRow
      split
      · next hlt =>
          refine List.pairwise_cons.2 ⟨fun c hc => ?_, h⟩
          rcases List.mem_cons.1 hc with rfl | hc
          · exact hlt
          · exact Std.TransCmp.lt_trans hlt (hb c hc)
      · next heq =>
          refine List.pairwise_cons.2 ⟨fun c hc => ?_, hrest⟩
          exact Std.TransCmp.lt_of_eq_of_lt heq (hb c hc)
      · next hgt =>
          refine List.pairwise_cons.2 ⟨fun c hc => ?_, ih hrest⟩
          rcases eq_or_mem_of_mem_insertRow hc with rfl | hc
          · exact Std.OrientedCmp.lt_of_gt hgt
          · exact hb c hc

def insert [Std.TransOrd κ] (t : Table key) (a : α) : Table key :=
  ⟨insertRow key a t.rows, pairwise_insertRow a t.ascending⟩

def erase [DecidableEq κ] (t : Table key) (k : κ) : Table key :=
  t.filter fun a => key a ≠ k

end Table

end ReviewRota
