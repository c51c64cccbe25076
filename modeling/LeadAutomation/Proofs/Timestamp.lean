import LeadAutomation.Timestamp
import Mathlib.Data.Nat.Digits.Defs

/-!
# Points in time as text

A point in time is read back from the text that is written for it: `Timestamp.ofText?_text`. The
text names a date of the Gregorian calendar, so this takes that the date of a day leads back to the
day (`Calendar.dayNumber_date`).
-/

namespace LeadAutomation

namespace Text

theorem isBlank_of_isDigit {c : Char} (h : c.isDigit = true) : isBlank c = false := by
  obtain ⟨hlow, hhigh⟩ := Char.isDigit_iff_toNat.1 h
  change 48 ≤ c.toNat at hlow
  change c.toNat ≤ 57 at hhigh
  simp only [isBlank, Bool.or_eq_false_iff, Bool.and_eq_false_iff, decide_eq_false_iff_not,
    beq_eq_false_iff_ne]
  omega

theorem natural?_of_digits {cs : List Char} (hne : cs ≠ []) (hdigits : ∀ c ∈ cs, c.isDigit = true) :
    natural? cs = some (Nat.ofDigitChars 10 cs 0) := by
  have hall : cs.all Char.isDigit = true := List.all_eq_true.2 hdigits
  rw [natural?, hall, Nat.ofDigitChars_eq_foldl]
  simp [hne]

theorem trimFront_cons {c : Char} {rest : List Char} (hc : isBlank c = false) :
    trimFront (c :: rest) = c :: rest :=
  List.dropWhile_cons_of_neg (by simp [hc])

end Text

namespace Calendar

/-! ### Dates -/

theorem daysBeforeYear_le_of_estimate (day : Int) : daysBeforeYear (day * 400 / 146097) ≤ day := by
  unfold daysBeforeYear
  simp only
  omega

theorem lt_daysBeforeYear_of_estimate (day : Int) :
    day < daysBeforeYear (day * 400 / 146097 + 3) := by
  unfold daysBeforeYear
  simp only
  omega

theorem yearOfDay_spec (day : Int) :
    daysBeforeYear (yearOfDay day) ≤ day ∧ day < daysBeforeYear (yearOfDay day + 1) := by
  have hlow := daysBeforeYear_le_of_estimate day
  have hhigh := lt_daysBeforeYear_of_estimate day
  unfold yearOfDay
  simp only
  split
  · rename_i h
    exact ⟨h, by rwa [Int.add_assoc, Int.add_assoc]⟩
  · split
    · rename_i h hlater
      exact ⟨hlater, Int.not_le.1 h⟩
    · rename_i h
      rw [Int.sub_add_cancel, Int.add_sub_cancel]
      exact ⟨hlow, Int.not_le.1 h⟩

theorem daysBeforeYear_mono {earlier later : Int} (h : earlier ≤ later) :
    daysBeforeYear earlier ≤ daysBeforeYear later := by
  rcases Int.lt_or_eq_of_le h with hlt | rfl
  · unfold daysBeforeYear
    simp only
    omega
  · exact Int.le_refl _

theorem length_monthLengths (year : Int) : (monthLengths year).length = 12 := rfl

/-- A year is as long as its months together. -/
theorem sum_monthLengths (year : Int) :
    ((monthLengths year).foldr (· + ·) 0 : Nat) =
      daysBeforeYear (year + 1) - daysBeforeYear year := by
  have hlength : daysBeforeYear (year + 1) - daysBeforeYear year = 365 ∨
      daysBeforeYear (year + 1) - daysBeforeYear year = 366 := by
    unfold daysBeforeYear
    simp only
    omega
  rcases hlength with h | h <;> simp [monthLengths, isLeapYear, h]

/-- Counting off months finds the month in which a day lies. -/
theorem monthDay_spec (lengths : List Nat) (month day : Nat) (h : day < lengths.foldr (· + ·) 0) :
    ∃ passed length, monthDay month day lengths =
      (month + passed, day - (lengths.take passed).foldr (· + ·) 0 + 1) ∧
      lengths[passed]? = some length ∧ (lengths.take passed).foldr (· + ·) 0 ≤ day ∧
      day < (lengths.take passed).foldr (· + ·) 0 + length := by
  induction lengths generalizing month day with
  | nil => exact absurd h (Nat.not_lt_zero day)
  | cons length rest ih =>
    rw [monthDay]
    split
    · rename_i hday
      exact ⟨0, length, rfl, rfl, Nat.zero_le _, by simpa using hday⟩
    · rename_i hday
      rw [List.foldr_cons] at h
      obtain ⟨passed, found, heq, hfound, hle, hlt⟩ := ih (month + 1) (day - length) (by omega)
      refine ⟨passed + 1, found, ?_, hfound, ?_, ?_⟩
      · rw [heq, List.take_succ_cons, List.foldr_cons, Nat.sub_sub, Nat.add_assoc, Nat.add_comm 1]
      · rw [List.take_succ_cons, List.foldr_cons]
        omega
      · rw [List.take_succ_cons, List.foldr_cons]
        omega

/-- The day of the year that a day is, counted from zero. -/
theorem dayOfYear_lt (day : Int) :
    (day - daysBeforeYear (yearOfDay day)).toNat <
      (monthLengths (yearOfDay day)).foldr (· + ·) 0 := by
  obtain ⟨hlow, hhigh⟩ := yearOfDay_spec day
  have hsum := sum_monthLengths (yearOfDay day)
  omega

theorem isDate_date (number : Int) :
    isDate (date number).1 (date number).2.1 (date number).2.2 = true := by
  obtain ⟨passed, length, heq, hlength, hle, hlt⟩ :=
    monthDay_spec _ 1 _ (dayOfYear_lt (number + daysBeforeYear 1970))
  simp only [date, heq, isDate, Nat.add_sub_cancel_left, hlength]
  simp only [Bool.and_eq_true, decide_eq_true_eq]
  omega

theorem dayNumber_date (number : Int) :
    dayNumber (date number).1 (date number).2.1 (date number).2.2 = number := by
  obtain ⟨hlow, hhigh⟩ := yearOfDay_spec (number + daysBeforeYear 1970)
  obtain ⟨passed, length, heq, hlength, hle, hlt⟩ :=
    monthDay_spec _ 1 _ (dayOfYear_lt (number + daysBeforeYear 1970))
  simp only [date, heq, dayNumber, daysBeforeMonth, Nat.add_sub_cancel_left]
  omega

theorem le_of_isDate {year : Int} {month day : Nat} (h : isDate year month day = true) :
    month ≤ 12 ∧ day ≤ 31 := by
  unfold isDate at h
  rw [Bool.and_eq_true] at h
  obtain ⟨-, h⟩ := h
  split at h
  · rename_i length hlength
    obtain ⟨hlt, hget⟩ := List.getElem?_eq_some_iff.1 hlength
    rw [length_monthLengths] at hlt
    have hmax : ∀ length ∈ monthLengths year, length ≤ 31 := by
      simp only [monthLengths]
      split <;> decide
    have hle := hmax length (hget ▸ List.getElem_mem _)
    simp only [Bool.and_eq_true, decide_eq_true_eq] at h
    omega
  · cases h

end Calendar

namespace Timestamp

/-! ### Numbers -/

variable {width n : Nat} {rest : List Char}

theorem toList_padded (width n : Nat) :
    (padded width n).toList = List.replicate (width - (Nat.toDigits 10 n).length) '0' ++
      Nat.toDigits 10 n := by
  rw [padded, show toString n = String.ofList (Nat.toDigits 10 n) from Nat.repr_eq_ofList_toDigits]
  simp

theorem isDigit_of_mem_padded {c : Char} (h : c ∈ (padded width n).toList) : c.isDigit = true := by
  rw [toList_padded] at h
  rcases List.mem_append.1 h with h | h
  · rw [List.eq_of_mem_replicate h]
    rfl
  · exact Nat.isDigit_of_mem_toDigits (by decide) (by decide) h

theorem padded_ne_nil : (padded width n).toList ≠ [] := by
  rw [toList_padded]
  exact List.append_ne_nil_of_right_ne_nil _ Nat.toDigits_ne_nil

theorem length_padded (hwidth : 0 < width) (hn : n < 10 ^ width) :
    (padded width n).toList.length = width := by
  have hle := Nat.toDigits_length 10 n width hwidth hn
  rw [toList_padded, List.length_append, List.length_replicate, Nat.sub_add_cancel hle]

theorem ofDigitChars_padded : Nat.ofDigitChars 10 (padded width n).toList 0 = n := by
  rw [toList_padded, Nat.ofDigitChars_append, Nat.ofDigitChars_replicate_zero, Nat.mul_zero,
    Nat.ofDigitChars_ten_toDigits]

/-- A text that begins with a number begins with a digit. -/
theorem isDigit_of_head?_padded {c : Char} (h : ((padded width n).toList ++ rest).head? = some c) :
    c.isDigit = true := by
  cases hdigits : (padded width n).toList with
  | nil => exact absurd hdigits padded_ne_nil
  | cons first others =>
    rw [hdigits] at h
    obtain rfl : first = c := Option.some.inj h
    exact isDigit_of_mem_padded (hdigits ▸ List.mem_cons_self)

theorem trimFront_padded :
    Text.trimFront ((padded width n).toList ++ rest) = (padded width n).toList ++ rest :=
  Text.trimFront_of_head? fun _ hc => Text.isBlank_of_isDigit (isDigit_of_head?_padded hc)

theorem number?_padded (hwidth : 0 < width) (hn : n < 10 ^ width) :
    number? width ((padded width n).toList ++ rest) = some (n, rest) := by
  have hlength := length_padded hwidth hn
  have htake : (((padded width n).toList ++ rest).takeWhile Char.isDigit).take width =
      (padded width n).toList := by
    rw [List.takeWhile_append_of_pos fun c => isDigit_of_mem_padded,
      List.take_append_of_le_length hlength.ge, List.take_of_length_le hlength.le]
  simp only [number?, trimFront_padded]
  rw [htake, Text.natural?_of_digits padded_ne_nil fun c => isDigit_of_mem_padded,
    ofDigitChars_padded, Option.map_some, List.drop_left]

theorem digits?_padded {c : Char} (hc : c.isDigit = false) :
    digits? ((padded width n).toList ++ c :: rest) = some (n, c :: rest) := by
  have htake : ((padded width n).toList ++ c :: rest).takeWhile Char.isDigit =
      (padded width n).toList := by
    rw [List.takeWhile_append_of_pos fun c => isDigit_of_mem_padded,
      List.takeWhile_cons_of_neg (by simp [hc]), List.append_nil]
  rw [digits?, htake, Text.natural?_of_digits padded_ne_nil fun c => isDigit_of_mem_padded,
    ofDigitChars_padded, Option.map_some, List.dropWhile_append_of_pos fun c =>
      isDigit_of_mem_padded, List.dropWhile_cons_of_neg (by simp [hc])]

/-! ### Parts -/

theorem year?_padded {n : Nat} (hn : n < 10 ^ 4) :
    year? ((padded 4 n).toList ++ rest) = some ((n : Int), rest) := by
  unfold year?
  rw [trimFront_padded]
  split
  · rename_i tail heq
    exact absurd (isDigit_of_head?_padded (congrArg List.head? heq)) (by decide)
  · rename_i tail heq
    exact absurd (isDigit_of_head?_padded (congrArg List.head? heq)) (by decide)
  · rw [number?_padded (Nat.zero_lt_succ 3) hn, Option.map_some]

theorem year?_minus {n : Nat} :
    year? ('-' :: ((padded 4 n).toList ++ '-' :: rest)) = some (-(n : Int), '-' :: rest) := by
  simp only [year?, Text.trimFront_cons (show Text.isBlank '-' = false by decide),
    digits?_padded (show '-'.isDigit = false by decide), Option.map_some]

theorem year?_plus {n : Nat} :
    year? ('+' :: ((padded 4 n).toList ++ '-' :: rest)) = some ((n : Int), '-' :: rest) := by
  simp only [year?, Text.trimFront_cons (show Text.isBlank '+' = false by decide),
    digits?_padded (show '-'.isDigit = false by decide), Option.map_some]

theorem year?_yearText {year : Int} :
    year? ((yearText year).toList ++ '-' :: rest) = some (year, '-' :: rest) := by
  unfold yearText
  split
  · rename_i h
    simp only [Bool.and_eq_true, decide_eq_true_eq] at h
    rw [year?_padded (by omega), Int.toNat_of_nonneg h.1]
  · rename_i h
    simp only [Bool.and_eq_true, decide_eq_true_eq] at h
    split
    · rw [String.toList_append, List.append_assoc, show "-".toList = ['-'] from rfl,
        List.singleton_append, year?_minus]
      rw [show -(year.natAbs : Int) = year by omega]
    · rw [String.toList_append, List.append_assoc, show "+".toList = ['+'] from rfl,
        List.singleton_append, year?_plus]
      rw [show (year.natAbs : Int) = year by omega]

theorem fraction?_padded {c : Char} (hc : c.isDigit = false) (hwidth : 0 < width) (hle : width ≤ 9)
    (hn : n < 10 ^ width) :
    fraction? ('.' :: ((padded width n).toList ++ c :: rest)) =
      some (n * 10 ^ (9 - width), c :: rest) := by
  have hlength := length_padded hwidth hn
  have htake : (((padded width n).toList ++ c :: rest).takeWhile Char.isDigit).take 9 =
      (padded width n).toList := by
    rw [List.takeWhile_append_of_pos fun c => isDigit_of_mem_padded,
      List.takeWhile_cons_of_neg (by simp [hc]), List.append_nil, List.take_of_length_le (by omega)]
  have hdigits : ∀ d ∈ (padded width n).toList ++ List.replicate (9 - width) '0',
      d.isDigit = true := by
    intro d hd
    rcases List.mem_append.1 hd with hd | hd
    · exact isDigit_of_mem_padded hd
    · rw [List.eq_of_mem_replicate hd]
      rfl
  have hnatural :=
    Text.natural?_of_digits (List.append_ne_nil_of_left_ne_nil padded_ne_nil _) hdigits
  have hrest : ((padded width n).toList ++ c :: rest).dropWhile Char.isDigit = c :: rest := by
    rw [List.dropWhile_append_of_pos fun c => isDigit_of_mem_padded,
      List.dropWhile_cons_of_neg (by simp [hc])]
  have hvalue : Nat.ofDigitChars 10 ((padded width n).toList ++ List.replicate (9 - width) '0') 0 =
      n * 10 ^ (9 - width) := by
    rw [Nat.ofDigitChars_append, ofDigitChars_padded, Nat.ofDigitChars_replicate_zero, Nat.mul_comm]
  simp only [fraction?, htake, hlength, hnatural, hvalue, hrest,
    List.isEmpty_eq_false_iff.2 padded_ne_nil, Option.map_some]
  rfl

theorem toList_point (width n : Nat) :
    ("." ++ padded width n).toList = '.' :: (padded width n).toList := by
  rw [String.toList_append]
  rfl

theorem fraction?_fractionText {nanos : Nat} (h : nanos < 1000000000) (rest : List Char) :
    fraction? ((fractionText nanos).toList ++ 'Z' :: rest) = some (nanos, 'Z' :: rest) := by
  have hz : 'Z'.isDigit = false := by decide
  unfold fractionText
  split
  · rename_i hzero
    rw [hzero]
    rfl
  · split
    · rw [toList_point, List.cons_append, fraction?_padded hz (by decide) (by decide) (by omega)]
      simp only [Option.some.injEq, Prod.mk.injEq, and_true]
      omega
    · split
      · rw [toList_point, List.cons_append, fraction?_padded hz (by decide) (by decide) (by omega)]
        simp only [Option.some.injEq, Prod.mk.injEq, and_true]
        omega
      · rw [toList_point, List.cons_append, fraction?_padded hz (by decide) (by decide) (by omega)]
        simp only [Option.some.injEq, Prod.mk.injEq, and_true]
        omega

theorem mark?_cons {mark : Char} (h : Text.isBlank mark = false) :
    mark? mark (mark :: rest) = some rest := by
  simp only [mark?, Text.trimFront_cons h, if_true]

/-! ### Whole texts -/

theorem year_range (t : Timestamp) :
    firstYear ≤ (Calendar.date (t.seconds / 86400)).1 ∧
    (Calendar.date (t.seconds / 86400)).1 ≤ lastYear := by
  obtain ⟨hlow, hhigh⟩ := Calendar.yearOfDay_spec (t.seconds / 86400 + Calendar.daysBeforeYear 1970)
  have hrange := t.range
  have hepoch : Calendar.daysBeforeYear 1970 = 719162 := by decide
  have hfirst : Calendar.daysBeforeYear firstYear = -95746130 := by decide
  have hlast : Calendar.daysBeforeYear (lastYear + 1) = 95745399 := by decide
  change firstYear ≤ Calendar.yearOfDay _ ∧ Calendar.yearOfDay _ ≤ lastYear
  constructor
  · refine Int.not_lt.1 fun hlt => ?_
    have hmono := Calendar.daysBeforeYear_mono (Int.add_one_le_of_lt hlt)
    omega
  · refine Int.not_lt.1 fun hlt => ?_
    have hmono := Calendar.daysBeforeYear_mono (Int.add_one_le_of_lt hlt)
    omega

/-- The second that is written, which is the sixtieth in a leap second, is read back with its
fraction. -/
theorem ofParts?_leap (t : Timestamp) (second : Nat)
    (hsecond : second = (t.seconds % 60).toNat + t.nanos / 1000000000) (minutes : Int)
    (hminutes : minutes = t.seconds - t.seconds % 60) :
    second ≤ 60 ∧ ofParts? (minutes + (if second == 60 then 59 else second : Nat))
      (if second == 60 then t.nanos % 1000000000 + 1000000000 else t.nanos % 1000000000) =
        some t := by
  have hnanos := t.nanos_lt
  have hrange := t.range
  refine ⟨by omega, ?_⟩
  have hparts : minutes + ((if second == 60 then 59 else second : Nat) : Int) = t.seconds ∧
      (if second == 60 then t.nanos % 1000000000 + 1000000000 else t.nanos % 1000000000) =
        t.nanos := by
    by_cases hleap : second = 60
    · simp only [hleap, beq_self_eq_true, if_true]
      omega
    · simp only [beq_eq_false_iff_ne.2 hleap, Bool.false_eq_true, if_false]
      omega
  rw [hparts.1, hparts.2, ofParts?, dif_pos hnanos, dif_pos hrange]

@[simp]
theorem ofText?_text (t : Timestamp) : ofText? t.text = some t := by
  have hdate := Calendar.isDate_date (t.seconds / 86400)
  have hnumber := Calendar.dayNumber_date (t.seconds / 86400)
  obtain ⟨hfirst, hlast⟩ := year_range t
  obtain ⟨hmonth, hday⟩ := Calendar.le_of_isDate hdate
  generalize hdateof : Calendar.date (t.seconds / 86400) = date at *
  obtain ⟨year, month, day⟩ := date
  simp only at hdate hnumber hfirst hlast hmonth hday
  generalize hclock : (t.seconds % 86400).toNat = clock
  obtain ⟨hsecond, hparts⟩ := ofParts?_leap t (clock % 60 + t.nanos / 1000000000) (by omega)
    (t.seconds / 86400 * 86400 + (clock / 3600 * 3600 + clock / 60 % 60 * 60 : Nat)) (by omega)
  have htext : t.text.toList =
    (yearText year).toList ++ '-' :: ((padded 2 month).toList ++ '-' :: ((padded 2 day).toList ++
      'T' :: ((padded 2 (clock / 3600)).toList ++ ':' :: ((padded 2 (clock / 60 % 60)).toList ++
      ':' :: ((padded 2 (clock % 60 + t.nanos / 1000000000)).toList ++
      ((fractionText (t.nanos % 1000000000)).toList ++ ['Z'])))))) := by
    simp [text, hdateof, hclock]
  have hdash : Text.isBlank '-' = false := by decide
  have hcolon : Text.isBlank ':' = false := by decide
  have htwo : ∀ {n rest}, n < 100 → number? 2 ((padded 2 n).toList ++ rest) = some (n, rest) :=
    number?_padded Nat.two_pos
  have hzone : zone? (Text.trimFront ['Z']) = some (0, []) := by decide +kernel
  have hfraction := fraction?_fractionText (Nat.mod_lt t.nanos (show 0 < 1000000000 by decide)) []
  unfold ofText?
  rw [htext]
  refine Option.bind_eq_some_iff.2 ⟨_, year?_yearText, ?_⟩
  refine Option.bind_eq_some_iff.2 ⟨_, mark?_cons hdash, ?_⟩
  refine Option.bind_eq_some_iff.2 ⟨_, htwo (show month < 100 by omega), ?_⟩
  refine Option.bind_eq_some_iff.2 ⟨_, mark?_cons hdash, ?_⟩
  refine Option.bind_eq_some_iff.2 ⟨_, htwo (show day < 100 by omega), ?_⟩
  dsimp only
  rw [if_pos (by decide)]
  refine Option.bind_eq_some_iff.2 ⟨_, rfl, ?_⟩
  refine Option.bind_eq_some_iff.2 ⟨_, htwo (show clock / 3600 < 100 by omega), ?_⟩
  refine Option.bind_eq_some_iff.2 ⟨_, mark?_cons hcolon, ?_⟩
  refine Option.bind_eq_some_iff.2 ⟨_, htwo (show clock / 60 % 60 < 100 by omega), ?_⟩
  refine Option.bind_eq_some_iff.2 ⟨_, mark?_cons hcolon, ?_⟩
  refine Option.bind_eq_some_iff.2
    ⟨_, htwo (show clock % 60 + t.nanos / 1000000000 < 100 by omega), ?_⟩
  refine Option.bind_eq_some_iff.2 ⟨_, hfraction, ?_⟩
  refine Option.bind_eq_some_iff.2 ⟨_, hzone, ?_⟩
  dsimp only
  rw [if_neg, hnumber, ← hparts]
  · refine congrArg (ofParts? · _) ?_
    push_cast
    omega
  · have hclock' : clock / 3600 ≤ 23 := by omega
    have hminute : clock / 60 % 60 ≤ 59 := by omega
    rw [hdate, show Text.trimFront [] = [] from rfl, decide_eq_false (Int.not_lt.2 hfirst),
      decide_eq_false (Int.not_lt.2 hlast), decide_eq_false (Nat.not_lt.2 hclock'),
      decide_eq_false (Nat.not_lt.2 hminute), decide_eq_false (Nat.not_lt.2 hsecond)]
    decide

end Timestamp

end LeadAutomation
