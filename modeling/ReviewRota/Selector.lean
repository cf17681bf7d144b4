import ReviewRota.Random.Sample
import ReviewRota.Random.Stream

/-!
# Choosing reviewers among the candidates
-/

namespace ReviewRota

inductive Selector where
  | first
  | last
  /-- Each choice in turn, whatever the candidates; afterwards like `first`. -/
  | scripted (choices : List (List String))
  | seeded (stream : Random.Stream)
  deriving Repr, Inhabited

def Selector.ofSeed (seed : UInt64) : Selector :=
  .seeded (.ofSeed seed)

def Selector.select (candidates : List String) (max : Nat) :
    Selector → List String × Selector
  | .first => (candidates.take max, .first)
  | .last => (candidates.reverse.take max, .last)
  | .scripted [] => (candidates.take max, .scripted [])
  | .scripted (choice :: rest) => (choice, .scripted rest)
  | .seeded stream =>
      let (chosen, stream) := Random.pickSubset Random.Stream.below candidates max stream
      (chosen, .seeded stream)

end ReviewRota
