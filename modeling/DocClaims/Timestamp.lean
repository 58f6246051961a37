/-!
# Timestamps

A moment in universal time is written with its date in the Gregorian calendar,
to the second.
-/

namespace DocClaims
namespace Timestamp

def daySeconds : Nat := 86400

/-- Days in four hundred years, after which the calendar repeats itself. -/
def eraDays : Nat := 146097

/-- Days from the first of March of year 0 to the first of January 1970. -/
def epochDays : Nat := 719468

/-- The year, counted from March on, and the day in it, of a day of an era. -/
def yearAndDay (day : Nat) : Nat × Nat :=
  let year := (day - day / 1460 + day / 36524 - day / 146096) / 365
  (year, day - (365 * year + year / 4 - year / 100))

/-- The year, month and day of the day so many days after the first of January 1970. -/
def date (days : Nat) : Nat × Nat × Nat :=
  let days := days + epochDays
  let (year, day) := yearAndDay (days % eraDays)
  let fromMarch := (5 * day + 2) / 153
  let month := if fromMarch < 10 then fromMarch + 3 else fromMarch - 9
  let year := days / eraDays * 400 + year + (if month ≤ 2 then 1 else 0)
  (year, month, day - (153 * fromMarch + 2) / 5 + 1)

def digits (width n : Nat) : String :=
  let text := toString n
  String.ofList (List.replicate (width - text.length) '0') ++ text

def text (seconds : Nat) : String :=
  let (year, month, day) := date (seconds / daySeconds)
  let rest := seconds % daySeconds
  digits 4 year ++ "-" ++ digits 2 month ++ "-" ++ digits 2 day ++ "T" ++
    digits 2 (rest / 3600) ++ ":" ++ digits 2 (rest / 60 % 60) ++ ":" ++ digits 2 (rest % 60) ++
    "Z"

end Timestamp
end DocClaims
