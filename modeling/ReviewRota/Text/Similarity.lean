/-!
# How similar two words are

Letters match if they are equal and their places are less than half of the longer word apart.  The
similarity is the mean of three parts: of the letters of either word those that match, and of the
matching letters those that have the same order in both.
-/

namespace ReviewRota.Text

def matchingPlace? (c : Char) (word : List Char) (taken : List Nat) (start stop : Nat) :
    Option Nat :=
  (List.range word.length).find? fun j =>
    start ≤ j && j < stop && word[j]? = some c && !taken.contains j

/-- The places of matching letters, those of the second word in the order of the first. -/
def matchingPlaces (a b : List Char) : List (Nat × Nat) :=
  let reach := max a.length b.length / 2 - 1
  (List.range a.length).foldl (fun found i =>
      match a[i]? with
      | none => found
      | some c =>
          match matchingPlace? c b (found.map (·.2)) (i - reach) (i + reach + 1) with
          | none => found
          | some j => found ++ [(i, j)])
    []

def similarity (first second : String) : Float :=
  let a := first.toList
  let b := second.toList
  let places := matchingPlaces a b
  let inFirst := places.map fun (i, _) => a[i]?
  let inSecond := ((places.map (·.2)).mergeSort (· ≤ ·)).map fun j => b[j]?
  let displaced := ((inFirst.zip inSecond).filter fun (c, d) => c ≠ d).length / 2
  let matching := places.length.toFloat
  if a.isEmpty && b.isEmpty then 1
  else if places.isEmpty then 0
  else
    (matching / a.length.toFloat + matching / b.length.toFloat +
      (places.length - displaced).toFloat / matching) / 3

end ReviewRota.Text
