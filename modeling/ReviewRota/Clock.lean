/-!
# Clocks in Unix seconds
-/

namespace ReviewRota

/-- The first second of the calendar, in the year -262143. -/
def firstSecond : Int := -8334601228800

/-- The last second of the calendar, in the year 262142. -/
def lastSecond : Int := 8210266876799

/-- The reading of a clock that stands at a time; outside the calendar it stands at zero. -/
def clockAt (unix : Int) : Int64 :=
  if firstSecond ≤ unix ∧ unix ≤ lastSecond then Int64.ofInt unix else 0

end ReviewRota
