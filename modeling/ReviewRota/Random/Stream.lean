import ReviewRota.Random.ChaCha

/-!
# A seeded stream of bounded draws
-/

namespace ReviewRota.Random

def seedStep (s : UInt64) : UInt32 × UInt64 :=
  let s := s * 6364136223846793005 + 11634580027462260723
  let x := (((s >>> 18) ^^^ s) >>> 27).toUInt32
  let turn := (s >>> 59).toUInt32
  ((x >>> turn) ||| (x <<< ((32 - turn) % 32)), s)

def keyOfSeed (seed : UInt64) : Key :=
  let step (state : Key × UInt64) (i : Fin 8) : Key × UInt64 :=
    let (w, s) := seedStep state.2
    (state.1.set i w, s)
  ((List.finRange 8).foldl step (Vector.replicate 8 0, seed)).1

structure Stream where
  key : Key
  position : Nat
  deriving DecidableEq, Repr

instance : Inhabited Stream := ⟨⟨Vector.replicate 8 0, 0⟩⟩

namespace Stream

def ofSeed (seed : UInt64) : Stream := ⟨keyOfSeed seed, 0⟩

def next (s : Stream) : Nat × Stream :=
  ((streamWord s.key s.position).toNat, { s with position := s.position + 1 })

/-- How often a draw is repeated at most; each repetition is needed with probability under one
half. -/
def patience : Nat := 10000

/-- Draws words `w` until `w * n` falls into a zone that all results share evenly, and keeps the
upper half of the product. -/
def belowWithin (n : Nat) : Nat → Stream → Nat × Stream
  | 0, s => let (w, s) := s.next; (w * n / UInt32.size, s)
  | tries + 1, s =>
      let (w, s) := s.next
      let zone := n * Nat.pow 2 (31 - n.log2) - 1
      if w * n % UInt32.size ≤ zone then (w * n / UInt32.size, s) else belowWithin n tries s

def below (n : Nat) (s : Stream) : Nat × Stream :=
  belowWithin n patience s

theorem belowWithin_lt {n : Nat} (hn : 0 < n) (tries : Nat) (s : Stream) :
    (belowWithin n tries s).1 < n := by
  have bound (s : Stream) : s.next.1 * n / UInt32.size < n := by
    have : s.next.1 < UInt32.size := (streamWord s.key s.position).toNat_lt
    rw [Nat.div_lt_iff_lt_mul (by decide), Nat.mul_comm]
    exact Nat.mul_lt_mul_of_pos_left this hn
  induction tries generalizing s with
  | zero => exact bound s
  | succ tries ih =>
      unfold belowWithin
      simp only
      split
      · exact bound s
      · exact ih _

theorem below_lt {n : Nat} (hn : 0 < n) (s : Stream) : (s.below n).1 < n :=
  belowWithin_lt hn patience s

end Stream

end ReviewRota.Random
