import Mathlib.Data.List.Forall2
import Mathlib.Data.List.Nodup
import ReviewRota.Selector

/-!
# Nobody is picked twice

A sample is built up position by position, or it is the start of a partial shuffle.  Either way its
positions are different from each other, whatever the generator answers, as long as each bounded
draw stays below its bound.
-/

namespace ReviewRota

namespace Random

/-- Every draw below a positive bound stays below it. -/
def Draw.Bounded {γ : Type} (draw : Draw γ) : Prop :=
  ∀ n g, 0 < n → (draw n g).1 < n

theorem Stream.below_bounded : Draw.Bounded Stream.below :=
  fun _ s hn => below_lt hn s

variable {γ : Type} {draw : Draw γ} {g : γ} {i j k n t max : Nat} {l l' chosen : List Nat}

structure Sample (n k : Nat) (l : List Nat) : Prop where
  nodup : l.Nodup
  below : ∀ i ∈ l, i < n
  length : l.length = k

theorem Sample.nil (n : Nat) : Sample n 0 [] := by
  constructor <;> simp

theorem Sample.range (n : Nat) : Sample n n (List.range n) := by
  constructor <;> simp [List.nodup_range]

theorem Sample.perm (h : Sample n k l) (hperm : l'.Perm l) : Sample n k l' where
  nodup := hperm.nodup_iff.2 h.nodup
  below i hi := h.below i (hperm.mem_iff.1 hi)
  length := hperm.length_eq.trans h.length

theorem Sample.take (h : Sample n j l) (hk : k ≤ j) : Sample n k (l.take k) where
  nodup := h.nodup.sublist (List.take_sublist k l)
  below i hi := h.below i (List.mem_of_mem_take hi)
  length := by
    rw [List.length_take, h.length]
    omega

/-! ## Partial shuffles -/

theorem swapIfInBounds_perm (xs : Array Nat) (i j : Nat) :
    (xs.swapIfInBounds i j).toList.Perm xs.toList := by
  unfold Array.swapIfInBounds
  split
  · split
    · exact (Array.swap_perm _ _).toList
    · exact .refl _
  · exact .refl _

theorem shuffleFrom_perm (draw : Draw γ) (i count : Nat) (xs : Array Nat) (g : γ) :
    (shuffleFrom draw i count xs g).1.toList.Perm xs.toList := by
  induction count generalizing i xs g with
  | zero => exact .refl _
  | succ count ih => exact (ih _ _ _).trans (swapIfInBounds_perm _ _ _)

theorem shuffleDown_perm (draw : Draw γ) (count : Nat) (xs : Array Nat) (g : γ) :
    (shuffleDown draw count xs g).1.toList.Perm xs.toList := by
  induction count generalizing xs g with
  | zero => exact .refl _
  | succ count ih => exact (ih _ _).trans (swapIfInBounds_perm _ _ _)

theorem sample_inPlace (hk : k ≤ n) : Sample n k (sampleInPlace draw n k g).1 := by
  have hshuffled : Sample n n (shuffleFrom draw 0 k (Array.range n) g).1.toList := by
    apply (Sample.range n).perm
    simpa using shuffleFrom_perm draw 0 k (Array.range n) g
  exact hshuffled.take hk

/-! ## Samples that grow -/

/-- Of the position that was drawn and the one that is new, the one that is not there yet. -/
def newcomer (t j : Nat) (chosen : List Nat) : Nat :=
  if t ∈ chosen then j else t

theorem placeBefore_perm (t j : Nat) (chosen : List Nat) :
    (placeBefore t j chosen).Perm (newcomer t j chosen :: chosen) := by
  unfold placeBefore newcomer
  split
  · -- The newcomer stands where the list was cut, in front of the position that came up again.
    have hsplit := List.takeWhile_append_dropWhile (p := (· ≠ t)) (l := chosen)
    conv_rhs => rw [← hsplit]
    exact List.perm_middle
  · exact List.perm_append_singleton t chosen

theorem placeLast_perm (t j : Nat) (chosen : List Nat) :
    (placeLast t j chosen).Perm (newcomer t j chosen :: chosen) := by
  unfold placeLast newcomer
  split <;> exact List.perm_append_singleton _ chosen

theorem Sample.newcomer (h : Sample j k chosen) (ht : t ≤ j) :
    Sample (j + 1) (k + 1) (newcomer t j chosen :: chosen) := by
  unfold Random.newcomer
  constructor
  case nodup =>
    refine List.nodup_cons.2 ⟨?_, h.nodup⟩
    split
    · intro hj
      exact Nat.lt_irrefl j (h.below j hj)
    · assumption
  case below =>
    intro i hi
    rcases List.mem_cons.1 hi with rfl | hi
    · split <;> omega
    · have := h.below i hi
      omega
  case length => rw [List.length_cons, h.length]

theorem sample_growing {place : Nat → Nat → List Nat → List Nat}
    (hplace : ∀ t j chosen, (place t j chosen).Perm (newcomer t j chosen :: chosen))
    (hdraw : draw.Bounded) (count : Nat) (h : Sample j k chosen) :
    Sample (j + count) (k + count) (sampleGrowing draw place j count chosen g).1 := by
  induction count generalizing j k chosen g with
  | zero => exact h
  | succ count ih =>
      -- One draw raises the bound and the number of positions by one each.
      have ht : (draw (j + 1) g).1 ≤ j := Nat.le_of_lt_succ (hdraw _ g (Nat.succ_pos j))
      have hgrown := ih (g := (draw (j + 1) g).2) ((h.newcomer ht).perm (hplace _ j chosen))
      rwa [Nat.add_right_comm j, Nat.add_right_comm k] at hgrown

theorem sample_byGrowth (hdraw : draw.Bounded) (hk : k ≤ n) :
    Sample n k (sampleByGrowth draw n k g).1 := by
  have hgrown {place : Nat → Nat → List Nat → List Nat}
      (hplace : ∀ t j chosen, (place t j chosen).Perm (newcomer t j chosen :: chosen)) :
      Sample n k (sampleGrowing draw place (n - k) k [] g).1 := by
    have h := sample_growing (g := g) hplace hdraw k (Sample.nil (n - k))
    rwa [Nat.sub_add_cancel hk, Nat.zero_add] at h
  unfold sampleByGrowth
  split
  · exact hgrown placeBefore_perm
  · exact (hgrown placeLast_perm).perm (shuffleDown_perm draw _ _ _)

theorem sample_indices (hdraw : draw.Bounded) (hk : k ≤ n) : Sample n k (indices draw n k g).1 := by
  unfold indices
  split
  · exact sample_inPlace hk
  · exact sample_byGrowth hdraw hk

def positions (draw : Draw γ) (n max : Nat) (g : γ) : List Nat × γ :=
  if max = 0 ∨ n = 0 then ([], g)
  else if n ≤ max then (List.range n, g)
  else indices draw n max g

theorem positions_of_le (h : n ≤ max) : positions draw n max g = (List.range n, g) := by
  unfold positions
  by_cases hnone : max = 0 ∨ n = 0
  · have hzero : n = 0 := by omega
    rw [if_pos hnone, hzero, List.range_zero]
  · rw [if_neg hnone, if_pos h]

theorem positions_of_zero : positions draw n 0 g = ([], g) := by
  simp [positions]

theorem positions_of_lt (hmax : 0 < max) (h : max < n) :
    positions draw n max g = indices draw n max g := by
  unfold positions
  rw [if_neg (by omega), if_neg (by omega)]

theorem sample_positions (hdraw : draw.Bounded) (n max : Nat) (g : γ) :
    Sample n (min max n) (positions draw n max g).1 := by
  by_cases hfits : n ≤ max
  · rw [positions_of_le hfits, Nat.min_eq_right hfits]
    exact .range n
  · have hle : max ≤ n := by omega
    rw [Nat.min_eq_left hle]
    rcases Nat.eq_zero_or_pos max with rfl | hmax
    · rw [positions_of_zero]
      exact .nil n
    · rw [positions_of_lt hmax (by omega)]
      exact sample_indices hdraw hle

def standing (candidates : List String) (places : List Nat) : List String :=
  places.filterMap fun i => candidates[i]?

variable {candidates : List String}

theorem standing_range (candidates : List String) :
    standing candidates (List.range candidates.length) = candidates := by
  have hall : (List.range candidates.length).map (fun i => candidates[i]?) =
      candidates.map some := by
    apply List.ext_getElem <;> simp
  have hid : standing candidates (List.range candidates.length) =
      ((List.range candidates.length).map fun i => candidates[i]?).filterMap id := by
    simp [standing, List.filterMap_map]
  rw [hid, hall]
  simp [List.filterMap_map]

/-- The candidates matter by their number when positions are drawn, and afterwards by what stands
there. -/
theorem pickSubset_eq (draw : Draw γ) (candidates : List String) (max : Nat) (g : γ) :
    pickSubset draw candidates max g =
      (standing candidates (positions draw candidates.length max g).1,
        (positions draw candidates.length max g).2) := by
  unfold pickSubset positions
  simp only [List.length_eq_zero_iff]
  split
  · rfl
  · split
    · rw [standing_range]
    · rfl

theorem map_some_standing (h : Sample candidates.length k l) :
    (standing candidates l).map some = l.map fun i => candidates[i]? := by
  have hbelow := h.below
  clear h
  induction l with
  | nil => rfl
  | cons i rest ih =>
      obtain ⟨hi, hrest⟩ := List.forall_mem_cons.1 hbelow
      rw [List.map_cons, ← ih hrest, standing, List.filterMap_cons, List.getElem?_eq_getElem hi]
      rfl

theorem standing_nodup (h : Sample candidates.length k l) (hcandidates : candidates.Nodup) :
    (standing candidates l).Nodup := by
  have hplaces : (l.map fun i => candidates[i]?).Nodup := by
    apply h.nodup.map_on
    intro i hi j _ hij
    exact (List.getElem?_inj (h.below i hi) hcandidates).1 hij
  rw [← map_some_standing h] at hplaces
  exact hplaces.of_map some

end Random

structure SelectorCall where
  candidates : List String
  max : Nat
  deriving DecidableEq, Repr

structure WithoutReplacement (c : SelectorCall) (picked : List String) : Prop where
  positions : ∃ l, Random.Sample c.candidates.length (min c.max c.candidates.length) l ∧
    picked.map some = l.map fun i => c.candidates[i]?
  length : picked.length = min c.max c.candidates.length
  nodup : c.candidates.Nodup → picked.Nodup
  subset : picked ⊆ c.candidates
  all : c.candidates.length ≤ c.max → picked = c.candidates

namespace Random

variable {γ : Type} {draw : Draw γ}

theorem withoutReplacement (hdraw : draw.Bounded) (c : SelectorCall) (g : γ) :
    WithoutReplacement c (pickSubset draw c.candidates c.max g).1 := by
  have hsample := sample_positions hdraw c.candidates.length c.max g
  have hpicked := map_some_standing hsample
  rw [pickSubset_eq]
  constructor
  case positions => exact ⟨_, hsample, hpicked⟩
  case length =>
    have hlength := congrArg List.length hpicked
    rwa [List.length_map, List.length_map, hsample.length] at hlength
  case nodup => exact standing_nodup hsample
  case subset =>
    intro r hr
    obtain ⟨i, -, hi⟩ := List.mem_filterMap.1 hr
    exact List.mem_of_getElem? hi
  case all =>
    intro hfits
    rw [positions_of_le hfits]
    exact standing_range c.candidates

def pickEach (draw : Draw γ) : List SelectorCall → γ → List (List String)
  | [], _ => []
  | c :: rest, g =>
      let (picked, g) := pickSubset draw c.candidates c.max g
      picked :: pickEach draw rest g

theorem withoutReplacement_pickEach (hdraw : draw.Bounded) (calls : List SelectorCall) (g : γ) :
    List.Forall₂ WithoutReplacement calls (pickEach draw calls g) := by
  induction calls generalizing g with
  | nil => exact .nil
  | cons c rest ih => exact .cons (withoutReplacement hdraw c g) (ih _)

end Random

namespace Selector

def selectEach : List SelectorCall → Selector → List (List String)
  | [], _ => []
  | c :: rest, selector =>
      let (picked, selector) := selector.select c.candidates c.max
      picked :: selectEach rest selector

theorem selectEach_seeded (calls : List SelectorCall) (stream : Random.Stream) :
    (seeded stream).selectEach calls = Random.pickEach Random.Stream.below calls stream := by
  induction calls generalizing stream with
  | nil => rfl
  | cons c rest ih => exact congrArg _ (ih _)

end Selector

/-- Every pick of a sequence of calls is without replacement, with any generator whose draws stay
below their bounds, and with a seeded selector in any state. -/
theorem picks_without_replacement {γ : Type} (draw : Random.Draw γ) (hdraw : draw.Bounded)
    (calls : List SelectorCall) (g : γ) (stream : Random.Stream) :
    List.Forall₂ WithoutReplacement calls (Random.pickEach draw calls g) ∧
      List.Forall₂ WithoutReplacement calls ((Selector.seeded stream).selectEach calls) := by
  constructor
  · exact Random.withoutReplacement_pickEach hdraw calls g
  · rw [Selector.selectEach_seeded]
    exact Random.withoutReplacement_pickEach Random.Stream.below_bounded calls stream

theorem picks_without_replacement_cyclic :
    let draw : Random.Draw Nat := fun n g => (g % n, g + 1)
    let calls : List SelectorCall := [⟨["a", "b", "c", "d"], 2⟩, ⟨["a", "b"], 3⟩,
      ⟨["a", "b", "c", "d", "e", "f", "g", "h", "i", "j", "k", "l", "m"], 12⟩]
    draw.Bounded ∧
      Random.pickEach draw calls 5 = [["d", "c"], ["a", "b"],
        ["h", "j", "l", "d", "g", "b", "m", "f", "i", "a", "e", "c"]] ∧
      List.Forall₂ WithoutReplacement calls (Random.pickEach draw calls 5) := by
  intro draw calls
  have hdraw : draw.Bounded := fun n g hn => Nat.mod_lt g hn
  exact ⟨hdraw, by decide +kernel, (picks_without_replacement draw hdraw calls 5 (.ofSeed 42)).1⟩

end ReviewRota
