namespace Retest

/-- Milliseconds since the start of 1970, in universal time. -/
structure Moment where
  millis : Int
  deriving Repr, DecidableEq, Inhabited

namespace Moment

/-- Year, month and day, from the days since the start of 1970. Years are taken to begin in March,
so that the leap day comes last; 400 of them have 146097 days. -/
def civil (days : Int) : Int × Nat × Nat :=
  let z := days + 719468
  let era := z.fdiv 146097
  let dayOfEra := (z.fmod 146097).toNat
  let yearOfEra :=
    (dayOfEra - dayOfEra / 1460 + dayOfEra / 36524 - dayOfEra / 146096) / 365
  let dayOfYear := dayOfEra - (365 * yearOfEra + yearOfEra / 4 - yearOfEra / 100)
  let m := (5 * dayOfYear + 2) / 153
  let day := dayOfYear - (153 * m + 2) / 5 + 1
  let month := if m < 10 then m + 3 else m - 9
  let year := (yearOfEra : Int) + era * 400
  (if month ≤ 2 then year + 1 else year, month, day)

def padded (width n : Nat) : String :=
  let s := toString n
  String.ofList (List.replicate (width - s.length) '0') ++ s

def yearText (year : Int) : String :=
  if 0 ≤ year ∧ year ≤ 9999 then padded 4 year.toNat
  else if year < 0 then "-" ++ padded 4 year.natAbs
  else "+" ++ padded 4 year.natAbs

def text (t : Moment) : String :=
  let seconds := t.millis.fdiv 1000
  let millis := (t.millis.fmod 1000).toNat
  let (year, month, day) := civil (seconds.fdiv 86400)
  let second := (seconds.fmod 86400).toNat
  let clock := padded 2 (second / 3600) ++ ":" ++ padded 2 (second / 60 % 60) ++ ":" ++
    padded 2 (second % 60)
  let part := if millis = 0 then "" else "." ++ padded 3 millis
  yearText year ++ "-" ++ padded 2 month ++ "-" ++ padded 2 day ++ "T" ++ clock ++ part ++ "Z"

end Moment

end Retest
