/-!
The time of day as it stands in file names: date and time in UTC, such as
`2024-02-29_23-59-07`.
-/

namespace VmMetadata.Stamp

/-- Year, month and day of a day counted from 1970-01-01. Years are counted from March, so that the
leap day ends a year; 400 years have 146097 days. -/
def civil (days : Nat) : Nat × Nat × Nat :=
  let fromMarch := days + 719468
  let era := fromMarch / 146097
  let dayOfEra := fromMarch % 146097
  let yearOfEra := (dayOfEra - dayOfEra / 1460 + dayOfEra / 36524 - dayOfEra / 146096) / 365
  let dayOfYear := dayOfEra - (365 * yearOfEra + yearOfEra / 4 - yearOfEra / 100)
  let monthFromMarch := (5 * dayOfYear + 2) / 153
  let day := dayOfYear - (153 * monthFromMarch + 2) / 5 + 1
  let month := if monthFromMarch < 10 then monthFromMarch + 3 else monthFromMarch - 9
  let year := yearOfEra + 400 * era + if month ≤ 2 then 1 else 0
  (year, month, day)

example : civil 0 = (1970, 1, 1) ∧ civil 19782 = (2024, 2, 29) ∧ civil 47541 = (2100, 3, 1) := by
  decide

/-- A number in at least so many digits. -/
def digits (width n : Nat) : String :=
  let ds := Nat.toDigits 10 n
  String.ofList (List.replicate (width - ds.length) '0' ++ ds)

/-- The time so many seconds after the beginning of 1970. -/
def text (seconds : Nat) : String :=
  let (year, month, day) := civil (seconds / 86400)
  let rest := seconds % 86400
  digits 4 year ++ "-" ++ digits 2 month ++ "-" ++ digits 2 day ++ "_" ++
    digits 2 (rest / 3600) ++ "-" ++ digits 2 (rest / 60 % 60) ++ "-" ++ digits 2 (rest % 60)

end VmMetadata.Stamp
