/-!
# Assignment counts
-/

namespace ReviewRota

abbrev Counts := List (String × Nat)

def tally (keys : List String) : Counts :=
  (keys.mergeSort (compare · · |>.isLE)).eraseDups.map fun k => (k, keys.count k)

structure AssignmentStats where
  byUser : Counts
  byPullRequest : Counts
  deriving DecidableEq, Repr, Inhabited

end ReviewRota
