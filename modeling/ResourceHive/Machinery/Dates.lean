import ResourceHive.Machinery.Text

/-!
# Machinery/Dates — instants as JavaScript writes them

`Date.prototype.toISOString`: the date of the proleptic Gregorian calendar and the time of day in
UTC of a number of milliseconds since 1970.  A year of more than four digits is written with a sign
and six.
-/

/-- The last `k` decimal digits of a number. -/
def digits : ℕ → ℕ → List Char
  | 0, _ => []
  | k + 1, n => digits k (n / 10) ++ [Nat.digitChar (n % 10)]

/-- A date of the Gregorian calendar. -/
structure CivilDate where
  year : ℤ
  month : ℕ
  day : ℕ
  deriving DecidableEq, Repr

/-- The date that is so many days after the first of January, 1970.  Years are counted from the
first of March here, in eras of 400, so that a leap day comes last. -/
def civilDate (days : ℤ) : CivilDate :=
  let era := (days + 719468) / 146097
  let dayOfEra := ((days + 719468) % 146097).toNat
  let yearOfEra :=
    (dayOfEra - dayOfEra / 1460 + dayOfEra / 36524 - dayOfEra / 146096) / 365
  let dayOfYear := dayOfEra - (365 * yearOfEra + yearOfEra / 4 - yearOfEra / 100)
  let m := (5 * dayOfYear + 2) / 153
  let month := if m < 10 then m + 3 else m - 9
  { year := yearOfEra + era * 400 + if month ≤ 2 then 1 else 0
    month
    day := dayOfYear - (153 * m + 2) / 5 + 1 }

/-- The year, as it is written. -/
def yearText (year : ℤ) : List Char :=
  if 0 ≤ year ∧ year ≤ 9999 then digits 4 year.toNat
  else (if year < 0 then '-' else '+') :: digits 6 year.natAbs

/-- **`toISOString`**, of milliseconds since 1970. -/
def toISOString (ms : ℤ) : String :=
  let date := civilDate (ms / 86400000)
  let time := (ms % 86400000).toNat
  String.ofList (yearText date.year ++ '-' :: digits 2 date.month ++ '-' :: digits 2 date.day
    ++ 'T' :: digits 2 (time / 3600000) ++ ':' :: digits 2 (time / 60000 % 60)
    ++ ':' :: digits 2 (time / 1000 % 60) ++ '.' :: digits 3 (time % 1000) ++ ['Z'])

example : toISOString 1788249600000 = "2026-09-01T08:00:00.000Z" := by decide
