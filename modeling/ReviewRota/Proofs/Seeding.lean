import ReviewRota.Proofs.Sampling

/-!
# What a seeded selector depends on

A seeded selector sees how many candidates there are and how many to pick, and nothing else.  A call
that needs no draw leaves the generator as it is, so that the other calls do not notice it.
-/

namespace ReviewRota

namespace SelectorCall

def draws (c : SelectorCall) : Bool :=
  0 < c.max && c.max < c.candidates.length

theorem draws_eq_false_iff {c : SelectorCall} :
    c.draws = false ↔ c.max = 0 ∨ c.candidates.length ≤ c.max := by
  simp only [draws, Bool.and_eq_false_iff, decide_eq_false_iff_not]
  omega

def size (c : SelectorCall) : Nat × Nat :=
  (c.candidates.length, c.max)

def rename (f : String → String) (c : SelectorCall) : SelectorCall :=
  { c with candidates := c.candidates.map f }

end SelectorCall

def only {α : Type} : List Bool → List α → List α
  | true :: marks, a :: items => a :: only marks items
  | false :: marks, _ :: items => only marks items
  | [], _ | _, [] => []

section Only

variable {α β : Type}

@[simp] theorem only_nil (marks : List Bool) : only marks ([] : List α) = [] := by
  cases marks with
  | nil => rfl
  | cons mark marks => cases mark <;> rfl

theorem only_map (p : α → Bool) (items : List α) : only (items.map p) items = items.filter p := by
  induction items with
  | nil => rfl
  | cons a items ih => cases ha : p a <;> simp [only, ha, ih]

end Only

namespace Random

variable {γ : Type} {draw : Draw γ} {g : γ} {n max : Nat}

def positionsEach (draw : Draw γ) : List (Nat × Nat) → γ → List (List Nat)
  | [], _ => []
  | (n, max) :: rest, g =>
      let (l, g) := positions draw n max g
      l :: positionsEach draw rest g

theorem pickEach_eq (draw : Draw γ) (calls : List SelectorCall) (g : γ) :
    pickEach draw calls g =
      List.zipWith (fun c l => standing c.candidates l) calls
        (positionsEach draw (calls.map SelectorCall.size) g) := by
  induction calls generalizing g with
  | nil => rfl
  | cons c rest ih =>
      simp only [pickEach, List.map_cons, SelectorCall.size, positionsEach, pickSubset_eq,
        List.zipWith_cons_cons, ih]

theorem standing_map (f : String → String) (candidates : List String) (l : List Nat) :
    standing (candidates.map f) l = (standing candidates l).map f := by
  simp [standing, List.map_filterMap]

theorem pickEach_rename (draw : Draw γ) (calls : List SelectorCall) (fs : List (String → String))
    (g : γ) :
    pickEach draw (List.zipWith SelectorCall.rename fs calls) g =
      List.zipWith List.map fs (pickEach draw calls g) := by
  induction calls generalizing fs g with
  | nil => simp [pickEach]
  | cons c rest ih =>
      cases fs with
      | nil => rfl
      | cons f fs => simp [pickEach, pickSubset_eq, SelectorCall.rename, standing_map, ih]

theorem positions_of_not_draws {c : SelectorCall} (h : c.draws = false) :
    (positions draw c.candidates.length c.max g).2 = g := by
  rcases SelectorCall.draws_eq_false_iff.1 h with hzero | hfits
  · rw [hzero, positions_of_zero]
  · rw [positions_of_le hfits]

theorem pickEach_only (keep : List Bool) (calls : List SelectorCall)
    (h : ∀ c ∈ only (keep.map (!·)) calls, c.draws = false) (g : γ) :
    pickEach draw (only keep calls) g = only keep (pickEach draw calls g) := by
  induction calls generalizing keep g with
  | nil => simp [pickEach]
  | cons c rest ih =>
      cases keep with
      | nil => rfl
      | cons kept keep =>
          cases kept with
          | true =>
              simp only [only, pickEach]
              rw [ih keep h]
          | false =>
              -- The rest starts from the same state of the generator as without this call.
              obtain ⟨hc, hrest⟩ := List.forall_mem_cons.1 h
              simp only [only, pickEach, pickSubset_eq, positions_of_not_draws hc]
              exact ih keep hrest g

end Random

/-- What a seeded selector picks depends on the seed and on the sizes of the calls that draw:
without other calls the picks are the same, other names at the same places are picked in place of
the old ones, and the sizes of the calls that draw determine at which places they pick. -/
theorem seeded_picks (seed : UInt64) :
    (∀ (calls : List SelectorCall) (keep : List Bool),
        (∀ c ∈ only (keep.map (!·)) calls, c.max = 0 ∨ c.candidates.length ≤ c.max) →
          (Selector.ofSeed seed).selectEach (only keep calls) =
            only keep ((Selector.ofSeed seed).selectEach calls)) ∧
      (∀ (calls : List SelectorCall) (fs : List (String → String)),
        (Selector.ofSeed seed).selectEach (List.zipWith SelectorCall.rename fs calls) =
          List.zipWith List.map fs ((Selector.ofSeed seed).selectEach calls)) ∧
      ∃ places : List (Nat × Nat) → List (List Nat), ∀ calls : List SelectorCall,
        only (calls.map SelectorCall.draws) ((Selector.ofSeed seed).selectEach calls) =
          List.zipWith (fun c l => Random.standing c.candidates l)
            (calls.filter SelectorCall.draws)
            (places ((calls.filter SelectorCall.draws).map SelectorCall.size)) := by
  simp only [Selector.ofSeed, Selector.selectEach_seeded]
  refine ⟨fun calls keep h => ?_, fun calls fs => ?_, ?_⟩
  · apply Random.pickEach_only
    intro c hc
    exact SelectorCall.draws_eq_false_iff.2 (h c hc)
  · exact Random.pickEach_rename _ calls fs _
  · refine ⟨fun sizes => Random.positionsEach Random.Stream.below sizes (.ofSeed seed), ?_⟩
    intro calls
    rw [← Random.pickEach_eq, ← only_map, Random.pickEach_only]
    intro c hc
    rw [List.map_map] at hc
    have hquiet := only_map (fun c : SelectorCall => !c.draws) calls
    have hmem : c ∈ calls.filter fun c => !c.draws := hquiet ▸ hc
    simpa using (List.mem_filter.1 hmem).2

theorem seeded_picks_interrupted :
    let calls : List SelectorCall := [⟨["a", "b", "c"], 1⟩, ⟨["a", "b", "c"], 0⟩,
      ⟨["d", "e"], 2⟩, ⟨["a", "b", "c", "d"], 1⟩]
    let keep := [true, false, false, true]
    (∀ c ∈ only (keep.map (!·)) calls, c.max = 0 ∨ c.candidates.length ≤ c.max) ∧
      (Selector.ofSeed 42).selectEach calls = [["a"], [], ["d", "e"], ["c"]] ∧
      (Selector.ofSeed 42).selectEach (only keep calls) = [["a"], ["c"]] := by
  intro calls keep
  have hquiet : ∀ c ∈ only (keep.map (!·)) calls, c.max = 0 ∨ c.candidates.length ≤ c.max := by
    decide
  have hpicks : (Selector.ofSeed 42).selectEach calls = [["a"], [], ["d", "e"], ["c"]] := by
    decide +kernel
  have hremaining := (seeded_picks 42).1 calls keep hquiet
  rw [hpicks] at hremaining
  exact ⟨hquiet, hpicks, hremaining⟩

end ReviewRota
