import ReviewRota.Error

/-!
# Response statuses
-/

namespace ReviewRota

def ErrorCode.status : ErrorCode → Nat
  | .notFound => 404
  | .teamExists | .invalidInput => 400
  | .prExists | .prMerged | .notAssigned | .noCandidate => 409
  | .storeFailure | .internal => 500

end ReviewRota
