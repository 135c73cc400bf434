import Mathlib.Algebra.Order.Group.Unbundled.Int
import Mathlib.Data.Nat.Digits.Defs
import Mathlib.Tactic.Ring

/-!
# Dates and times as texts

A `datetime` of the Gregorian calendar with its offset from UTC, the text that
`isoformat` gives it, and the texts that `fromisoformat` reads: calendar and week
dates, basic and extended, with any character between the date and the time.
-/
namespace Ekip.Lib

/-! ## The calendar -/

def isLeap (year : Nat) : Bool := year % 4 = 0 && (year % 100 ≠ 0 || year % 400 = 0)

def daysInMonth (year month : Nat) : Nat :=
  if month = 2 then (if isLeap year then 29 else 28)
  else if month ∈ [4, 6, 9, 11] then 30
  else 31

def daysBeforeYear (year : Nat) : Nat :=
  (year - 1) * 365 + (year - 1) / 4 - (year - 1) / 100 + (year - 1) / 400

def daysBeforeMonth (year month : Nat) : Nat :=
  ((List.range' 1 (month - 1)).map (daysInMonth year)).sum

/-- Day 1 is the first of January of the year 1, a Monday. -/
def ordinal (year month day : Nat) : Nat :=
  daysBeforeYear year + daysBeforeMonth year month + day

/-- The month and the day of a day of the year. -/
def monthDay (year : Nat) : Nat → Nat → Nat → Nat × Nat
  | 0, month, day => (month, day)
  | fuel + 1, month, day =>
    if day ≤ daysInMonth year month then (month, day)
    else monthDay year fuel (month + 1) (day - daysInMonth year month)

/-- The Monday of the week with the first Thursday of the year. -/
def isoWeek1Monday (year : Nat) : Nat :=
  let firstday := ordinal year 1 1
  let weekday := (firstday + 6) % 7
  if 3 < weekday then firstday - weekday + 7 else firstday - weekday

/-- Python's `_isoweek_to_gregorian`. -/
def isoweekToGregorian (year week day : Nat) : Option (Nat × Nat × Nat) :=
  let firstWeekday := ordinal year 1 1 % 7
  if ¬ (1 ≤ year ∧ year ≤ 9999) then none
  else if ¬ (1 ≤ week ∧ week ≤ 52) ∧
      ¬ (week = 53 ∧ (firstWeekday = 4 ∨ firstWeekday = 3 ∧ isLeap year)) then none
  else if ¬ (1 ≤ day ∧ day ≤ 7) then none
  else
    -- the week may reach into the year before, or into the next
    let days := isoWeek1Monday year + (week - 1) * 7 + (day - 1)
    let own := if days ≤ daysBeforeYear year then year - 1
      else if daysBeforeYear (year + 1) < days then year + 1 else year
    let (month, day) := monthDay own 12 1 (days - daysBeforeYear own)
    some (own, month, day)

/-! ## Values -/

/-- The offset from UTC is in microseconds; a naive value has none. -/
structure Datetime where
  year : Nat
  month : Nat
  day : Nat
  hour : Nat
  minute : Nat
  second : Nat
  microsecond : Nat
  utcoffset : Option Int
  date_valid : (1 ≤ year ∧ year ≤ 9999) ∧ (1 ≤ month ∧ month ≤ 12) ∧
    1 ≤ day ∧ day ≤ daysInMonth year month
  time_valid : hour < 24 ∧ minute < 60 ∧ second < 60 ∧ microsecond < 1000000
  offset_valid : ∀ offset ∈ utcoffset, offset.natAbs < 86400000000

namespace Datetime

/-- The constructor, which raises a `ValueError` on what is out of range. -/
def make (date : Nat × Nat × Nat) (time : Nat × Nat × Nat × Nat) (utcoffset : Option Int) :
    Option Datetime :=
  if hdate : (1 ≤ date.1 ∧ date.1 ≤ 9999) ∧ (1 ≤ date.2.1 ∧ date.2.1 ≤ 12) ∧
      1 ≤ date.2.2 ∧ date.2.2 ≤ daysInMonth date.1 date.2.1 then
    if htime : time.1 < 24 ∧ time.2.1 < 60 ∧ time.2.2.1 < 60 ∧ time.2.2.2 < 1000000 then
      if hoffset : ∀ offset ∈ utcoffset, offset.natAbs < 86400000000 then
        some
          { year := date.1, month := date.2.1, day := date.2.2
            hour := time.1, minute := time.2.1, second := time.2.2.1, microsecond := time.2.2.2
            utcoffset, date_valid := hdate, time_valid := htime, offset_valid := hoffset }
      else none
    else none
  else none

theorem make_self (d : Datetime) :
    make (d.year, d.month, d.day) (d.hour, d.minute, d.second, d.microsecond) d.utcoffset =
      some d := by
  unfold make
  rw [dif_pos d.date_valid, dif_pos d.time_valid, dif_pos d.offset_valid]

/-- What the calendar and the clock show, in microseconds. -/
def wall (d : Datetime) : Int :=
  ((ordinal d.year d.month d.day * 86400 + d.hour * 3600 + d.minute * 60 + d.second) * 1000000 +
    d.microsecond : Nat)

/-- `a - b` in microseconds; a `TypeError` where one of the two is naive. -/
def subtract (a b : Datetime) : Option Int :=
  match a.utcoffset, b.utcoffset with
  | some offset, some offset' => some ((a.wall - offset) - (b.wall - offset'))
  | none, none => some (a.wall - b.wall)
  | _, _ => none

end Datetime

/-! ## Numbers of a fixed width -/

/-- `%0{width}d`. -/
def padded : Nat → Nat → List Char
  | 0, _ => []
  | width + 1, n => padded width (n / 10) ++ [Nat.digitChar (n % 10)]

/-- The number that so many ASCII digits spell, and the text behind them. -/
def takeNumber : Nat → Nat → List Char → Option (Nat × List Char)
  | 0, value, text => some (value, text)
  | width + 1, value, c :: text =>
    if c.isDigit then takeNumber width (10 * value + (c.toNat - 48)) text else none
  | _ + 1, _, [] => none

theorem digitChar_digit : ∀ d < 10, (Nat.digitChar d).isDigit = true ∧
    (Nat.digitChar d).toNat - 48 = d := by decide

theorem takeNumber_append {width rest : Nat} : ∀ {text : List Char} {value n : Nat} {tail : List Char},
    takeNumber width value text = some (n, tail) →
    takeNumber (width + rest) value text = takeNumber rest n tail := by
  induction width with
  | zero =>
    intro text value n tail h
    cases h
    rw [Nat.zero_add]
  | succ width ih =>
    intro text value n tail h
    cases text with
    | nil => cases h
    | cons c text =>
      rw [takeNumber] at h
      rw [Nat.succ_add, takeNumber]
      by_cases hc : c.isDigit
      · rw [if_pos hc] at h ⊢
        exact ih h
      · rw [if_neg hc] at h
        cases h

theorem takeNumber_padded {width n : Nat} (h : n < 10 ^ width) (value : Nat) (tail : List Char) :
    takeNumber width value (padded width n ++ tail) = some (value * 10 ^ width + n, tail) := by
  induction width generalizing n tail with
  | zero =>
    obtain rfl : n = 0 := by simpa using h
    simp [padded, takeNumber]
  | succ width ih =>
    have hshort : n / 10 < 10 ^ width := by
      rw [pow_succ] at h
      omega
    obtain ⟨hdigit, hvalue⟩ := digitChar_digit (n % 10) (Nat.mod_lt _ (by decide))
    rw [padded, List.append_assoc, takeNumber_append (ih hshort _), List.cons_append,
      List.nil_append, takeNumber, if_pos hdigit, takeNumber, hvalue]
    have hsum : 10 * (value * 10 ^ width + n / 10) + n % 10 = value * 10 ^ (width + 1) + n := by
      have hsplit := Nat.div_add_mod n 10
      rw [pow_succ, Nat.mul_add, Nat.add_assoc, hsplit]
      ring
    rw [hsum]

theorem padded_length (width n : Nat) : (padded width n).length = width := by
  induction width generalizing n with
  | zero => rfl
  | succ width ih => simp [padded, ih]

theorem isDigit_padded {width n : Nat} : ∀ c ∈ padded width n, c.isDigit = true := by
  induction width generalizing n with
  | zero =>
    intro c hc
    cases hc
  | succ width ih =>
    intro c hc
    rcases List.mem_append.mp hc with hc | hc
    · exact ih c hc
    · obtain rfl := List.mem_singleton.mp hc
      exact (digitChar_digit _ (Nat.mod_lt _ (by decide))).1

/-! ## Formatting -/

namespace Datetime

def fraction (microsecond : Nat) : List Char :=
  if microsecond = 0 then [] else '.' :: padded 6 microsecond

def dateText (d : Datetime) : List Char :=
  padded 4 d.year ++ '-' :: (padded 2 d.month ++ '-' :: padded 2 d.day)

def clockText (hour minute second microsecond : Nat) : List Char :=
  padded 2 hour ++ ':' :: (padded 2 minute ++ ':' :: (padded 2 second ++ fraction microsecond))

/-- Seconds are written where there are any. -/
def zoneText (n : Nat) : List Char :=
  let hour := n / 3600000000
  let minute := n / 60000000 % 60
  if n % 60000000 = 0 then padded 2 hour ++ ':' :: padded 2 minute
  else clockText hour minute (n / 1000000 % 60) (n % 1000000)

def offsetText : Option Int → List Char
  | none => []
  | some offset => (if offset < 0 then '-' else '+') :: zoneText offset.natAbs

def isoformat (d : Datetime) : List Char :=
  d.dateText ++ 'T' :: (clockText d.hour d.minute d.second d.microsecond ++ offsetText d.utcoffset)

/-! ## Parsing -/

/-- A separator, where the text has separators. -/
def skip (separator : Char) (hasSep : Bool) (text : List Char) : Option (List Char) :=
  if hasSep then
    if text.head? = some separator then some text.tail else none
  else some text

/-- `YYYY-MM-DD`, `YYYYMMDD`, `YYYY-Www`, `YYYYWww`, `YYYY-Www-D` and `YYYYWwwD`. -/
def parseDate (text : List Char) : Option (Nat × Nat × Nat) := do
  let (year, text) ← takeNumber 4 0 text
  let hasSep := text.head? = some '-'
  let text ← skip '-' hasSep text
  if text.head? = some 'W' then
    let (week, text) ← takeNumber 2 0 text.tail
    if text = [] then isoweekToGregorian year week 1
    else
      let text ← skip '-' hasSep text
      let (day, text) ← takeNumber 1 0 text
      if text = [] then isoweekToGregorian year week day else none
  else
    let (month, text) ← takeNumber 2 0 text
    let text ← skip '-' hasSep text
    let (day, text) ← takeNumber 2 0 text
    if text = [] then some (year, month, day) else none

/-- Digits behind the sixth are dropped. -/
def parseFraction : List Char → Option Nat
  | [] => some 0
  | point :: digits =>
    if (point = '.' ∨ point = ',') ∧ digits ≠ [] ∧ digits.all Char.isDigit then
      (takeNumber 6 0 (digits ++ List.replicate 6 '0')).map Prod.fst
    else none

/-- `HH[:MM[:SS[.f+]]]`, with all the colons or with none. -/
def parseClock (text : List Char) : Option (Nat × Nat × Nat × Nat) := do
  let (hour, text) ← takeNumber 2 0 text
  let hasSep := text.head? = some ':'
  if text = [] then some (hour, 0, 0, 0)
  else
    let text ← skip ':' hasSep text
    let (minute, text) ← takeNumber 2 0 text
    if text = [] then some (hour, minute, 0, 0)
    else
      let text ← skip ':' hasSep text
      let (second, text) ← takeNumber 2 0 text
      let microsecond ← parseFraction text
      some (hour, minute, second, microsecond)

def inClock (c : Char) : Bool := c ∉ ['+', '-', 'Z']

def microseconds (clock : Nat × Nat × Nat × Nat) : Nat :=
  ((clock.1 * 60 + clock.2.1) * 60 + clock.2.2.1) * 1000000 + clock.2.2.2

/-- Nothing, `Z`, or a signed clock. -/
def parseZone : List Char → Option (Option Int)
  | [] => some none
  | sign :: zone =>
    if sign = 'Z' then (if zone = [] then some (some 0) else none)
    else (parseClock zone).map fun clock =>
      some (if sign = '-' then -(microseconds clock : Int) else microseconds clock)

def parseTime (text : List Char) : Option ((Nat × Nat × Nat × Nat) × Option Int) := do
  let clock ← parseClock (text.takeWhile inClock)
  let utcoffset ← parseZone (text.dropWhile inClock)
  some (clock, utcoffset)

/-- Where the date ends. A week date may be followed by its day, with or without a
hyphen; what else the digits behind it can be decides. -/
def separator (text : List Char) : Nat :=
  if text.length = 7 then 7
  else if text[4]? = some '-' then
    if text[5]? = some 'W' then
      if text[8]? = some '-' then
        if text[10]?.any Char.isDigit then 8 else 10
      else 8
    else 10
  else if text[4]? = some 'W' then
    let index := 7 + ((text.drop 7).takeWhile Char.isDigit).length
    if index < 9 then index
    else if index % 2 = 0 then 7
    else 8
  else 8

/-- A `ValueError` is `none`. Any character may stand before the time. -/
def fromisoformat (text : List Char) : Option Datetime :=
  if text.length < 7 then none
  else do
    let date ← parseDate (text.take (separator text))
    match text.drop (separator text) with
    | [] => make date (0, 0, 0, 0) none
    | _ :: time =>
      let (clock, utcoffset) ← parseTime time
      make date clock utcoffset

/-! ## What is written can be read -/

theorem takeNumber_padded_zero {width n : Nat} (h : n < 10 ^ width) (tail : List Char) :
    takeNumber width 0 (padded width n ++ tail) = some (n, tail) := by
  rw [takeNumber_padded h, Nat.zero_mul, Nat.zero_add]

theorem digits_not_in_signs {width n : Nat} : ∀ c ∈ padded width n, inClock c = true := by
  intro c hc
  have hdigit := isDigit_padded c hc
  have hne : ∀ d : Char, d.isDigit = false → c ≠ d := by
    intro d hd heq
    rw [heq, hd] at hdigit
    cases hdigit
  simp [inClock, hne]

theorem parseFraction_fraction {microsecond : Nat} (h : microsecond < 1000000) :
    parseFraction (fraction microsecond) = some microsecond := by
  unfold fraction
  by_cases hzero : microsecond = 0
  · rw [if_pos hzero, hzero]
    rfl
  · have hdigits : padded 6 microsecond ≠ [] := by
      intro hnil
      have hlength := padded_length 6 microsecond
      rw [hnil] at hlength
      cases hlength
    have hall : (padded 6 microsecond).all Char.isDigit = true :=
      List.all_eq_true.mpr isDigit_padded
    rw [if_neg hzero, parseFraction, if_pos ⟨.inl rfl, hdigits, hall⟩, takeNumber_padded_zero h]
    rfl

theorem parseClock_clockText {hour minute second microsecond : Nat} (hhour : hour < 100)
    (hminute : minute < 100) (hsecond : second < 100) (hmicrosecond : microsecond < 1000000) :
    parseClock (clockText hour minute second microsecond) =
      some (hour, minute, second, microsecond) := by
  unfold parseClock clockText
  rw [takeNumber_padded_zero hhour]
  simp only [bind, Option.bind, List.head?_cons, decide_true, skip, if_true, List.tail_cons,
    reduceCtorEq, if_false]
  rw [takeNumber_padded_zero hminute]
  simp only [List.head?_cons, if_true, List.tail_cons, reduceCtorEq, if_false]
  rw [takeNumber_padded_zero hsecond]
  simp only []
  rw [parseFraction_fraction hmicrosecond]

theorem parseClock_zoneText {n : Nat} (h : n < 86400000000) :
    ∃ clock, parseClock (zoneText n) = some clock ∧ microseconds clock = n := by
  unfold zoneText
  dsimp only
  by_cases hwhole : n % 60000000 = 0
  · have hminutes := @takeNumber_padded_zero 2 (n / 60000000 % 60) (by omega) []
    have hsum : microseconds (n / 3600000000, n / 60000000 % 60, 0, 0) = n := by
      unfold microseconds
      dsimp only
      omega
    rw [List.append_nil] at hminutes
    rw [if_pos hwhole]
    refine ⟨_, ?_, hsum⟩
    unfold parseClock
    rw [takeNumber_padded_zero (by omega)]
    simp only [bind, Option.bind, List.head?_cons, decide_true, skip, if_true, List.tail_cons,
      reduceCtorEq, if_false]
    rw [hminutes]
    rfl
  · have hsum : microseconds (n / 3600000000, n / 60000000 % 60, n / 1000000 % 60, n % 1000000) =
        n := by
      unfold microseconds
      dsimp only
      omega
    rw [if_neg hwhole]
    exact ⟨_, parseClock_clockText (by omega) (by omega) (by omega) (by omega), hsum⟩

theorem parseZone_offsetText {utcoffset : Option Int}
    (h : ∀ offset ∈ utcoffset, offset.natAbs < 86400000000) :
    parseZone (offsetText utcoffset) = some utcoffset := by
  cases utcoffset with
  | none => rfl
  | some offset =>
    obtain ⟨clock, hclock, hsum⟩ := parseClock_zoneText (h offset rfl)
    rw [offsetText, parseZone, hclock, Option.map_some, hsum]
    by_cases hneg : offset < 0
    · have hback : -(offset.natAbs : Int) = offset := by omega
      rw [if_pos hneg, if_neg (by decide), if_pos rfl, hback]
    · have hback : (offset.natAbs : Int) = offset := by omega
      rw [if_neg hneg, if_neg (by decide), if_neg (by decide), hback]

theorem inClock_clockText {hour minute second microsecond : Nat} :
    ∀ c ∈ clockText hour minute second microsecond, inClock c = true := by
  intro c hc
  have hfraction : ∀ c ∈ fraction microsecond, inClock c = true := by
    intro c hc
    unfold fraction at hc
    split at hc
    · cases hc
    · rcases List.mem_cons.mp hc with rfl | hc
      · rfl
      · exact digits_not_in_signs c hc
  unfold clockText at hc
  simp only [List.mem_append, List.mem_cons] at hc
  rcases hc with hc | rfl | hc | rfl | hc | hc
  · exact digits_not_in_signs c hc
  · rfl
  · exact digits_not_in_signs c hc
  · rfl
  · exact digits_not_in_signs c hc
  · exact hfraction c hc

theorem takeWhile_clock {clock rest : List Char} (hclock : ∀ c ∈ clock, inClock c = true)
    (hrest : ∀ c ∈ rest.head?, inClock c = false) :
    (clock ++ rest).takeWhile inClock = clock ∧ (clock ++ rest).dropWhile inClock = rest := by
  have hstop : rest.takeWhile inClock = [] ∧ rest.dropWhile inClock = rest := by
    cases rest with
    | nil => exact ⟨rfl, rfl⟩
    | cons c rest =>
      have hc := hrest c rfl
      exact ⟨List.takeWhile_cons_of_neg (by simp [hc]), List.dropWhile_cons_of_neg (by simp [hc])⟩
  constructor
  · rw [List.takeWhile_append_of_pos hclock, hstop.1, List.append_nil]
  · rw [List.dropWhile_append_of_pos hclock, hstop.2]

theorem parseTime_text {hour minute second microsecond : Nat} {utcoffset : Option Int}
    (hhour : hour < 100) (hminute : minute < 100) (hsecond : second < 100)
    (hmicrosecond : microsecond < 1000000)
    (hoffset : ∀ offset ∈ utcoffset, offset.natAbs < 86400000000) :
    parseTime (clockText hour minute second microsecond ++ offsetText utcoffset) =
      some ((hour, minute, second, microsecond), utcoffset) := by
  have hhead : ∀ c ∈ (offsetText utcoffset).head?, inClock c = false := by
    intro c hc
    cases utcoffset with
    | none => cases hc
    | some offset =>
      obtain rfl := Option.some.inj hc
      split <;> rfl
  obtain ⟨htake, hdrop⟩ := takeWhile_clock (@inClock_clockText hour minute second microsecond) hhead
  unfold parseTime
  rw [htake, hdrop, parseClock_clockText hhour hminute hsecond hmicrosecond,
    parseZone_offsetText hoffset]
  rfl

theorem parseDate_dateText (d : Datetime) : parseDate d.dateText = some (d.year, d.month, d.day) := by
  obtain ⟨⟨_, hyear⟩, ⟨_, hmonth⟩, _, hday⟩ := d.date_valid
  have hmonthDays : daysInMonth d.year d.month ≤ 31 := by
    unfold daysInMonth
    split
    · split <;> omega
    · split <;> omega
  have hdayText := @takeNumber_padded_zero 2 d.day (by omega) []
  rw [List.append_nil] at hdayText
  have hmonthHead : (padded 2 d.month ++ '-' :: padded 2 d.day).head? ≠ some 'W' := by
    intro hhead
    have hdigit := @isDigit_padded 2 d.month 'W' (List.mem_of_mem_head? hhead)
    cases hdigit
  unfold parseDate dateText
  rw [takeNumber_padded_zero (by omega)]
  simp only [bind, Option.bind, List.head?_cons, decide_true, skip, if_true, List.tail_cons]
  rw [if_neg hmonthHead, takeNumber_padded_zero (by omega)]
  simp only [List.head?_cons, if_true, List.tail_cons]
  rw [hdayText]
  rfl

theorem separator_isoformat (d : Datetime) : separator d.isoformat = 10 := by
  have hdigit : Nat.digitChar (d.month / 10 % 10) ≠ 'W' := by
    intro heq
    have hdigit := (digitChar_digit (d.month / 10 % 10) (Nat.mod_lt _ (by decide))).1
    rw [heq] at hdigit
    cases hdigit
  have hlength : d.isoformat.length ≠ 7 := by
    simp only [isoformat, dateText, List.length_append, List.length_cons, padded_length]
    omega
  have hhyphen : d.isoformat[4]? = some '-' := by
    simp [isoformat, dateText, padded]
  have hmonth : d.isoformat[5]? = some (Nat.digitChar (d.month / 10 % 10)) := by
    simp [isoformat, dateText, padded]
  unfold separator
  rw [if_neg hlength, if_pos hhyphen, if_neg]
  rw [hmonth]
  intro heq
  exact hdigit (Option.some.inj heq)

/-- `fromisoformat` undoes `isoformat`. -/
theorem fromisoformat_isoformat (d : Datetime) : fromisoformat d.isoformat = some d := by
  obtain ⟨hhour, hminute, hsecond, hmicrosecond⟩ := d.time_valid
  have hdate : d.dateText.length = 10 := by
    simp [dateText, padded_length]
  have hlength : ¬ d.isoformat.length < 7 := by
    simp only [isoformat, List.length_append, hdate]
    omega
  have htake : d.isoformat.take 10 = d.dateText := by
    unfold isoformat
    rw [← hdate, List.take_left]
  have hdrop : d.isoformat.drop 10 =
      'T' :: (clockText d.hour d.minute d.second d.microsecond ++ offsetText d.utcoffset) := by
    unfold isoformat
    rw [← hdate, List.drop_left]
  unfold fromisoformat
  rw [if_neg hlength, separator_isoformat, htake, hdrop, parseDate_dateText]
  simp only [bind, Option.bind]
  rw [parseTime_text (by omega) (by omega) (by omega) hmicrosecond d.offset_valid]
  exact make_self d

end Datetime

end Ekip.Lib
