/-
ReservoirPlot/Summary/Date.lean

Calendar dates.  A date is a day of the Gregorian calendar, extended to years
before its introduction and to the year 0 and negative years before 1.  The
years go from -262143 to 262142.
-/

namespace ReservoirPlot

/-- Whether a year has a 29th of February. -/
def isLeapYear (year : Int) : Bool :=
  year % 4 = 0 && (year % 100 != 0 || year % 400 = 0)

/-- The days of a month of a year; a number that is no month has none. -/
def daysInMonth (year month : Int) : Int :=
  if month = 2 then (if isLeapYear year then 29 else 28)
  else if month ∈ [4, 6, 9, 11] then 30
  else if month ∈ [1, 3, 5, 7, 8, 10, 12] then 31
  else 0

/-- The first and the last year of the calendar. -/
def yearRange : Int × Int := (-262143, 262142)

/-- A day of the calendar. -/
structure Date where
  year : Int
  month : Int
  day : Int
  year_mem : yearRange.1 ≤ year ∧ year ≤ yearRange.2
  day_mem : 1 ≤ day ∧ day ≤ daysInMonth year month
deriving DecidableEq

namespace Date

/-- The date with the given year, month and day, if there is one. -/
def of? (year month day : Int) : Option Date :=
  if h : (yearRange.1 ≤ year ∧ year ≤ yearRange.2) ∧ 1 ≤ day ∧ day ≤ daysInMonth year month
  then some ⟨year, month, day, h.1, h.2⟩
  else none

/-- A month with a day in it is one of the twelve. -/
theorem month_mem (d : Date) : 1 ≤ d.month ∧ d.month ≤ 12 := by
  have h := d.day_mem
  unfold daysInMonth at h
  split at h
  · omega
  · split at h
    · next hm => simp only [List.mem_cons, List.not_mem_nil, or_false] at hm; omega
    · split at h
      · next hm => simp only [List.mem_cons, List.not_mem_nil, or_false] at hm; omega
      · omega

/-- A natural number in at least so many digits. -/
def padded (width n : Nat) : String :=
  let digits := Nat.toDigits 10 n
  String.ofList (List.replicate (width - digits.length) '0' ++ digits)

/-- A year in at least four digits, with its sign if it is negative or has more. -/
def yearText (year : Int) : String :=
  let sign := if year < 0 then "-" else if 9999 < year then "+" else ""
  sign ++ padded 4 year.natAbs

/-- Year, month and day with hyphens between them. -/
def text (d : Date) : String :=
  yearText d.year ++ "-" ++ padded 2 d.month.toNat ++ "-" ++ padded 2 d.day.toNat

end Date

end ReservoirPlot
