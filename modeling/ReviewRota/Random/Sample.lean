/-!
# Sampling without replacement

`indices` chooses `k` of the positions below `n`, by a generator of which only bounded draws are
used.  Short samples are built up one position at a time; long ones, and those that take a large
share, are the start of a partial shuffle.
-/

namespace ReviewRota.Random

abbrev Draw (γ : Type) := Nat → γ → Nat × γ

variable {γ : Type} (draw : Draw γ)

def shuffleFrom (i : Nat) : Nat → Array Nat → γ → Array Nat × γ
  | 0, xs, g => (xs, g)
  | count + 1, xs, g =>
      let (r, g) := draw (xs.size - i) g
      shuffleFrom (i + 1) count (xs.swapIfInBounds i (i + r)) g

def sampleInPlace (n k : Nat) (g : γ) : List Nat × γ :=
  let (xs, g) := shuffleFrom draw 0 k (Array.range n) g
  (xs.toList.take k, g)

/-- Puts `j` before `t` if that is there already, else `t` at the end. -/
def placeBefore (t j : Nat) (chosen : List Nat) : List Nat :=
  if t ∈ chosen then chosen.takeWhile (· ≠ t) ++ j :: chosen.dropWhile (· ≠ t)
  else chosen ++ [t]

def placeLast (t j : Nat) (chosen : List Nat) : List Nat :=
  if t ∈ chosen then chosen ++ [j] else chosen ++ [t]

/-- For each `j` of `count` positions from `j` on, draws `t` up to `j` and places one of the two. -/
def sampleGrowing (place : Nat → Nat → List Nat → List Nat) (j : Nat) :
    Nat → List Nat → γ → List Nat × γ
  | 0, chosen, g => (chosen, g)
  | count + 1, chosen, g =>
      let (t, g) := draw (j + 1) g
      sampleGrowing place (j + 1) count (place t j chosen) g

def shuffleDown : Nat → Array Nat → γ → Array Nat × γ
  | 0, xs, g => (xs, g)
  | i + 1, xs, g =>
      let (r, g) := draw (i + 2) g
      shuffleDown i (xs.swapIfInBounds (i + 1) r) g

/-- Samples below this length keep their order while they grow; longer ones are shuffled after. -/
def orderedGrowth : Nat := 50

def sampleByGrowth (n k : Nat) (g : γ) : List Nat × γ :=
  if k < orderedGrowth then sampleGrowing draw placeBefore (n - k) k [] g
  else
    let (chosen, g) := sampleGrowing draw placeLast (n - k) k [] g
    let (xs, g) := shuffleDown draw (k - 1) chosen.toArray g
    (xs.toList, g)

/-- Whether a partial shuffle is preferred, for fewer than 500000 positions: the bound for `n` is
`(10 + 1.6 * k) * k` for samples of 12 to 162, and `270 * k` for longer ones. -/
def prefersShuffle (n k : Nat) : Bool :=
  if k < 163 then 11 < k && 5 * n < (50 + 8 * k) * k else n < 270 * k

def indices (n k : Nat) (g : γ) : List Nat × γ :=
  if prefersShuffle n k then sampleInPlace draw n k g else sampleByGrowth draw n k g

def pickSubset (candidates : List String) (max : Nat) (g : γ) : List String × γ :=
  if max = 0 ∨ candidates = [] then ([], g)
  else if candidates.length ≤ max then (candidates, g)
  else
    let (chosen, g) := indices draw candidates.length max g
    (chosen.filterMap (candidates[·]?), g)

end ReviewRota.Random
