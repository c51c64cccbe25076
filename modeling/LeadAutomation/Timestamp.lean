import LeadAutomation.Text

/-!
# Points in time

A timestamp is a whole second since 1970 in UTC and a fraction in nanoseconds. A leap second is the
second before it with a fraction of a second or more, so that order is the order of the pair.

Dates follow the Gregorian calendar in both directions. Timestamps are written as in RFC 3339 with a
final `Z` and as few of 0, 3, 6 or 9 fraction digits as hold the fraction; `ofText?` is more lenient
than that standard: numbers may lack leading zeros, blanks may stand between the parts, and the zone
may be `Z`, `UTC` or an offset.
-/

namespace LeadAutomation

namespace Calendar

/-- Days from the first of January of the year one to that of a year. -/
def daysBeforeYear (year : Int) : Int :=
  let past := year - 1
  365 * past + past / 4 - past / 100 + past / 400

def isLeapYear (year : Int) : Bool := daysBeforeYear (year + 1) - daysBeforeYear year == 366

/-- Days of the months of a year. -/
def monthLengths (year : Int) : List Nat :=
  [31, if isLeapYear year then 29 else 28, 31, 30, 31, 30, 31, 31, 30, 31, 30, 31]

/-- Days from the start of a year to that of a month, counted from one. -/
def daysBeforeMonth (year : Int) (month : Nat) : Nat :=
  ((monthLengths year).take (month - 1)).foldr (· + ·) 0

/-- Days from the first of January 1970 to a date. -/
def dayNumber (year : Int) (month day : Nat) : Int :=
  daysBeforeYear year + daysBeforeMonth year month + day - 1 - daysBeforeYear 1970

/-- The year that a day, counted from the first of January of the year one, lies in. -/
def yearOfDay (day : Int) : Int :=
  let estimate := day * 400 / 146097 + 1
  if daysBeforeYear (estimate + 1) ≤ day then estimate + 1
  else if daysBeforeYear estimate ≤ day then estimate
  else estimate - 1

/-- The month and day of the month of a day of the year, counted from zero, given the lengths of the
months. -/
def monthDay (month : Nat) (dayOfYear : Nat) : List Nat → Nat × Nat
  | [] => (month, dayOfYear + 1)
  | length :: rest =>
    if dayOfYear < length then (month, dayOfYear + 1)
      else monthDay (month + 1) (dayOfYear - length) rest

/-- The year, month and day of a day counted from the first of January 1970. -/
def date (number : Int) : Int × Nat × Nat :=
  let day := number + daysBeforeYear 1970
  let year := yearOfDay day
  let (month, dayOfMonth) := monthDay 1 (day - daysBeforeYear year).toNat (monthLengths year)
  (year, month, dayOfMonth)

def isDate (year : Int) (month day : Nat) : Bool :=
  1 ≤ day && match (monthLengths year)[month - 1]? with
    | some length => 1 ≤ month && day ≤ length
    | none => false

end Calendar

/-- A point in time: `seconds` since 1970 in UTC and `nanos` nanoseconds. -/
structure Timestamp where
  seconds : Int
  nanos : Nat
  /-- A fraction of a second or more stands for a leap second and so only at the end of a minute. -/
  nanos_lt : nanos < 1000000000 ∨ nanos < 2000000000 ∧ seconds % 60 = 59
  /-- Time runs from the start of the year -262143 to the end of the year 262142. -/
  range : -8334601228800 ≤ seconds ∧ seconds ≤ 8210266876799

namespace Timestamp

def firstYear : Int := -262143

def lastYear : Int := 262142

@[ext]
theorem ext {s t : Timestamp} (hseconds : s.seconds = t.seconds) (hnanos : s.nanos = t.nanos) :
    s = t := by
  cases s
  cases t
  simp_all

instance : DecidableEq Timestamp := fun s t =>
  if h : s.seconds = t.seconds ∧ s.nanos = t.nanos then .isTrue (ext h.1 h.2)
  else .isFalse fun heq => h (heq ▸ ⟨rfl, rfl⟩)

def epoch : Timestamp := ⟨0, 0, by decide, by decide⟩

instance : Inhabited Timestamp := ⟨epoch⟩

/-- Whether one point in time lies before another. -/
def before (s t : Timestamp) : Bool :=
  s.seconds < t.seconds || (s.seconds == t.seconds && s.nanos < t.nanos)

theorem before_iff {s t : Timestamp} :
    s.before t = true ↔ s.seconds < t.seconds ∨ s.seconds = t.seconds ∧ s.nanos < t.nanos := by
  simp [before]

theorem before_asymm {s t : Timestamp} (h : s.before t = true) : t.before s = false := by
  rw [← Bool.not_eq_true, before_iff]
  rw [before_iff] at h
  omega

/-- Where one point in time lies before another, every third one lies after the former or before the
latter. -/
theorem before_or_before {s u : Timestamp} (h : s.before u = true) (t : Timestamp) :
    s.before t = true ∨ t.before u = true := by
  rw [before_iff, before_iff]
  rw [before_iff] at h
  omega

/-- The timestamp of a second and a fraction, if there is one. -/
def ofParts? (seconds : Int) (nanos : Nat) : Option Timestamp :=
  if hnanos : nanos < 1000000000 ∨ nanos < 2000000000 ∧ seconds % 60 = 59 then
    if hrange : -8334601228800 ≤ seconds ∧
      seconds ≤ 8210266876799 then some ⟨seconds, nanos, hnanos, hrange⟩
    else none
  else none

/-- The point in time a number of seconds later; `none` past the range of time. -/
def addSeconds? (t : Timestamp) (seconds : Int) : Option Timestamp :=
  if seconds = 0 then some t
  else if t.nanos < 1000000000 then ofParts? (t.seconds + seconds) t.nanos
  else if 0 < seconds then ofParts? (t.seconds + seconds) (t.nanos - 1000000000)
  else ofParts? (t.seconds + seconds + 1) (t.nanos - 1000000000)

/-! ### Writing -/

def padded (width n : Nat) : String :=
  let digits := toString n
  String.ofList (List.replicate (width - digits.length) '0') ++ digits

/-- A year: four digits, with a sign outside 0 to 9999. -/
def yearText (year : Int) : String :=
  if 0 ≤ year && year ≤ 9999 then padded 4 year.toNat
  else if year < 0 then "-" ++ padded 4 year.natAbs
  else "+" ++ padded 4 year.natAbs

/-- The fraction of a second, with as few of 0, 3, 6 or 9 digits as hold it. -/
def fractionText (nanos : Nat) : String :=
  if nanos = 0 then ""
  else if nanos % 1000000 = 0 then "." ++ padded 3 (nanos / 1000000)
  else if nanos % 1000 = 0 then "." ++ padded 6 (nanos / 1000)
  else "." ++ padded 9 nanos

def text (t : Timestamp) : String :=
  let (year, month, day) := Calendar.date (t.seconds / 86400)
  let second := (t.seconds % 86400).toNat
  let leap := t.nanos / 1000000000
  yearText year ++ "-" ++ padded 2 month ++ "-" ++ padded 2 day ++ "T" ++
    padded 2 (second / 3600) ++ ":" ++ padded 2 (second / 60 % 60) ++ ":" ++
      padded 2 (second % 60 + leap) ++
    fractionText (t.nanos % 1000000000) ++ "Z"

/-! ### Reading -/

/-- A number of at least one and at most `width` digits after any blanks. -/
def number? (width : Nat) (cs : List Char) : Option (Nat × List Char) :=
  let cs := Text.trimFront cs
  let digits := (cs.takeWhile Char.isDigit).take width
  (Text.natural? digits).map fun n => (n, cs.drop digits.length)

/-- A number of at least one digit, with no blanks before it. -/
def digits? (cs : List Char) : Option (Nat × List Char) :=
  (Text.natural? (cs.takeWhile Char.isDigit)).map fun n => (n, cs.dropWhile Char.isDigit)

/-- A year: up to four digits, or any number of them after a sign. -/
def year? (cs : List Char) : Option (Int × List Char) :=
  match Text.trimFront cs with
  | '-' :: rest => (digits? rest).map fun (n, rest) => (-(n : Int), rest)
  | '+' :: rest => (digits? rest).map fun (n, rest) => ((n : Int), rest)
  | rest => (number? 4 rest).map fun (n, rest) => ((n : Int), rest)

/-- A mark after any blanks. -/
def mark? (mark : Char) (cs : List Char) : Option (List Char) :=
  match Text.trimFront cs with
  | c :: rest => if c = mark then some rest else none
  | [] => none

/-- The fraction of a second, if there is one, in nanoseconds; digits past the ninth are dropped. -/
def fraction? : List Char → Option (Nat × List Char)
  | '.' :: rest =>
    let digits := (rest.takeWhile Char.isDigit).take 9
    if digits.isEmpty then none
    else
      let padding := List.replicate (9 - digits.length) '0'
      (Text.natural? (digits ++ padding)).map fun n => (n, rest.dropWhile Char.isDigit)
  | rest => some (0, rest)

/-- The zone in seconds east of UTC: `Z`, `UTC`, or a sign and two digits each of hours and
minutes. -/
def zone? (cs : List Char) : Option (Int × List Char) :=
  if Text.lowerAscii (String.ofList (cs.take 3)) = "utc" then some (0, cs.drop 3)
  else match cs with
    | [] => none
    | c :: rest =>
      if c = 'Z' || c = 'z' then some (0, rest)
      else if c = '+' || c = '-' || c = '\u2212' then do
        let hours ← Text.natural? (rest.take 2)
        let rest := (rest.drop 2).dropWhile fun c => c = ':' || Text.isBlank c
        let minutes ← Text.natural? (rest.take 2)
        if (rest.take 2).length = 2 && minutes < 60 then
          let offset : Int := hours * 3600 + minutes * 60
          some (if c = '+' then offset else -offset, rest.drop 2)
        else none
      else none

/-- A timestamp from its text, in any zone. Both its own date and the one in UTC lie in the range of
time. -/
def ofText? (s : String) : Option Timestamp := do
  let (year, rest) ← year? s.toList
  let rest ← mark? '-' rest
  let (month, rest) ← number? 2 rest
  let rest ← mark? '-' rest
  let (day, rest) ← number? 2 rest
  let rest ← match rest with
    | c :: rest => if c = 'T' || c = 't' || c = ' ' then some rest else none
    | [] => none
  let (hour, rest) ← number? 2 rest
  let rest ← mark? ':' rest
  let (minute, rest) ← number? 2 rest
  let rest ← mark? ':' rest
  let (second, rest) ← number? 2 rest
  let (nanos, rest) ← fraction? rest
  let (offset, rest) ← zone? (Text.trimFront rest)
  if !(Text.trimFront rest).isEmpty || year < firstYear || lastYear < year ||
    !Calendar.isDate year month day ||
      23 < hour || 59 < minute || 60 < second || 86399 < offset.natAbs then none
  else
    let leap := second == 60
    let clock : Int := hour * 3600 + minute * 60 + (if leap then 59 else second)
    ofParts? (Calendar.dayNumber year month day * 86400 + clock - offset)
      (if leap then nanos + 1000000000 else nanos)

end Timestamp

end LeadAutomation
