import FxDealManager.Domain.Values
import FxDealManager.Text.DecimalTexts
import Mathlib.Tactic.Linarith

/-!
# Dates as texts

A date is printed as `YYYY-MM-DD`. The reader takes year, month and day from such a text, and
counts the days of the proleptic Gregorian calendar up to this one, if it is a day of the calendar.

## Main definitions

* `Date.ofParts`: the date of a year, a month and a day
* `Date.read`: the reader

## Main results

* `ofParts_yearMonthDay`: a date is the one of its year, month and day
* `read_isoformat`: a date is read back from its text
-/

namespace FxDealManager

namespace Date

/-! ## Year, month and day -/

/-- The number of days before a year. -/
def daysBeforeYear (year : ℕ) : ℕ :=
  (year - 1) * 365 + (year - 1) / 4 - (year - 1) / 100 + (year - 1) / 400

/-- The number of days before a month of a year. -/
def daysBeforeMonth (year month : ℕ) : ℕ := ((monthLengths year).take (month - 1)).sum

/-- The number of days of a month; none for what is no month. -/
def daysInMonth (year month : ℕ) : ℕ := ((monthLengths year)[month - 1]?).getD 0

/-- The date of a year, a month and a day. -/
def ofParts (year month day : ℕ) : Option Date :=
  let ordinal := daysBeforeYear year + daysBeforeMonth year month + day
  if h : 1 ≤ ordinal ∧ ordinal ≤ maxOrdinal then
    if 1 ≤ year ∧ year ≤ 9999 ∧ 1 ≤ month ∧ 1 ≤ day ∧ day ≤ daysInMonth year month then
      some ⟨ordinal, h⟩
    else none
  else none

/-- Month and day of a day of a year are found by the lengths of the months before. -/
theorem monthAndDay_spec (month : ℕ) {day : ℕ} {lengths : List ℕ} (h : day < lengths.sum) :
    ∃ k, (monthAndDay month day lengths).1 = month + k ∧ k < lengths.length ∧
      1 ≤ (monthAndDay month day lengths).2 ∧
      (monthAndDay month day lengths).2 ≤ (lengths[k]?).getD 0 ∧
      (lengths.take k).sum + (monthAndDay month day lengths).2 = day + 1 := by
  induction lengths generalizing month day with
  | nil => simp at h
  | cons len lengths ih =>
    rw [monthAndDay]
    by_cases hday : day < len
    · rw [if_pos hday]
      exact ⟨0, rfl, by simp, by simp, by simpa using Nat.succ_le_of_lt hday, by simp⟩
    · rw [if_neg hday]
      rw [List.sum_cons] at h
      obtain ⟨k, hmonth, hk, hpos, hle, hsum⟩ := ih (month + 1) (by omega : day - len < _)
      refine ⟨k + 1, by rw [hmonth]; omega, by simpa using hk, hpos, by simpa using hle, ?_⟩
      rw [List.take_succ_cons, List.sum_cons]
      omega

theorem sum_monthLengths (year : ℕ) :
    (monthLengths year).sum = if isLeap year then 366 else 365 := by
  cases h : isLeap year <;> simp [monthLengths, h]

theorem isLeap_iff {year : ℕ} :
    isLeap year = true ↔ year % 4 = 0 ∧ (year % 100 ≠ 0 ∨ year % 400 = 0) := by
  simp [isLeap]

/-- The parts of a date that is the `n`-th after the first one. -/
structure Parts (n year month day : ℕ) : Prop where
  year_bounds : 1 ≤ year ∧ year ≤ 9999
  month_bounds : 1 ≤ month ∧ month ≤ 12
  day_bounds : 1 ≤ day ∧ day ≤ daysInMonth year month
  ordinal : daysBeforeYear year + daysBeforeMonth year month + day = n + 1

/-- The days before a year, by cycles of 400, 100, 4 and 1 years. -/
theorem daysBeforeYear_cycles (n400 : ℕ) {n100 n4 n1 : ℕ} (h100 : n100 ≤ 3) (h4 : n4 ≤ 24)
    (h1 : n1 ≤ 3) : daysBeforeYear (n400 * 400 + n100 * 100 + n4 * 4 + n1 + 1) =
      n400 * 146097 + n100 * 36524 + n4 * 1461 + n1 * 365 := by
  have hquarter : (n400 * 400 + n100 * 100 + n4 * 4 + n1) / 4 = n400 * 100 + n100 * 25 + n4 := by
    omega
  have hcentury : (n400 * 400 + n100 * 100 + n4 * 4 + n1) / 100 = n400 * 4 + n100 := by omega
  have hcycle : (n400 * 400 + n100 * 100 + n4 * 4 + n1) / 400 = n400 := by omega
  rw [daysBeforeYear, Nat.add_sub_cancel, hquarter, hcentury, hcycle]
  omega

/-- The last day of a leap year is the last of a cycle. -/
theorem parts_last {n : ℕ} (hn : n < maxOrdinal)
    (hlast : n % 146097 % 36524 % 1461 / 365 = 4 ∨ n % 146097 / 36524 = 4) :
    Parts n (n / 146097 * 400 + n % 146097 / 36524 * 100 + n % 146097 % 36524 / 1461 * 4 +
      n % 146097 % 36524 % 1461 / 365) 12 31 := by
  rw [maxOrdinal] at hn
  obtain ⟨a, b, c, hb, hc, hyear, hday⟩ : ∃ a b c, b ≤ 3 ∧ c ≤ 24 ∧
      n / 146097 * 400 + n % 146097 / 36524 * 100 + n % 146097 % 36524 / 1461 * 4 +
        n % 146097 % 36524 % 1461 / 365 = a * 400 + b * 100 + c * 4 + 3 + 1 ∧
      n = a * 146097 + b * 36524 + c * 1461 + 1460 ∧ (c = 24 → b = 3) := by
    rcases hlast with h1 | h100
    · exact ⟨n / 146097, n % 146097 / 36524, n % 146097 % 36524 / 1461, by omega, by omega,
        by omega, by omega, by omega⟩
    · exact ⟨n / 146097, 3, 24, by omega, by omega, by omega, by omega, fun _ => rfl⟩
  have hleap : isLeap (a * 400 + b * 100 + c * 4 + 3 + 1) = true := by
    rw [isLeap_iff]
    omega
  have hbefore : daysBeforeMonth (a * 400 + b * 100 + c * 4 + 3 + 1) 12 = 335 := by
    simp [daysBeforeMonth, monthLengths, hleap]
  rw [hyear]
  refine ⟨by omega, by decide, ⟨by decide, le_rfl⟩, ?_⟩
  rw [hbefore, daysBeforeYear_cycles a hb hc le_rfl, hday.1]

/-- The other days are found in their year. -/
theorem parts_other {n : ℕ} (hn : n < maxOrdinal)
    (hother : ¬ (n % 146097 % 36524 % 1461 / 365 = 4 ∨ n % 146097 / 36524 = 4)) {year : ℕ}
    (hyear : n / 146097 * 400 + n % 146097 / 36524 * 100 + n % 146097 % 36524 / 1461 * 4 +
      n % 146097 % 36524 % 1461 / 365 + 1 = year) :
    Parts n year (monthAndDay 1 (n % 146097 % 36524 % 1461 % 365) (monthLengths year)).1
      (monthAndDay 1 (n % 146097 % 36524 % 1461 % 365) (monthLengths year)).2 := by
  rw [maxOrdinal] at hn
  have hparts : n = n / 146097 * 146097 + n % 146097 / 36524 * 36524 +
      n % 146097 % 36524 / 1461 * 1461 + n % 146097 % 36524 % 1461 / 365 * 365 +
      n % 146097 % 36524 % 1461 % 365 := by
    omega
  have hsum : n % 146097 % 36524 % 1461 % 365 < (monthLengths year).sum := by
    rw [sum_monthLengths]
    split <;> omega
  obtain ⟨k, hmonth, hk, hpos, hle, hday⟩ := monthAndDay_spec 1 hsum
  have htwelve : (monthLengths year).length = 12 := rfl
  have hindex : 1 + k - 1 = k := by omega
  generalize monthAndDay 1 (n % 146097 % 36524 % 1461 % 365) (monthLengths year) = found at *
  obtain ⟨month, day⟩ := found
  obtain rfl : month = 1 + k := hmonth
  have hyears := daysBeforeYear_cycles (n / 146097)
    (by omega : n % 146097 / 36524 ≤ 3) (by omega : n % 146097 % 36524 / 1461 ≤ 24)
    (by omega : n % 146097 % 36524 % 1461 / 365 ≤ 3)
  rw [hyear] at hyears
  refine ⟨by omega, by omega, ⟨hpos, ?_⟩, ?_⟩
  · rwa [daysInMonth, hindex]
  · rw [daysBeforeMonth, hindex, hyears]
    dsimp only at hday
    linarith

/-- The parts of a date. -/
theorem parts_yearMonthDay (d : Date) :
    Parts (d.ordinal - 1) d.yearMonthDay.1 d.yearMonthDay.2.1 d.yearMonthDay.2.2 := by
  have hn : d.ordinal - 1 < maxOrdinal := by
    have hrange := d.inRange
    omega
  simp only [yearMonthDay]
  split
  next hlast => exact parts_last hn hlast
  next hother => exact parts_other hn hother rfl

/-- **A date is the one of its year, month and day.** -/
theorem ofParts_yearMonthDay (d : Date) :
    ofParts d.yearMonthDay.1 d.yearMonthDay.2.1 d.yearMonthDay.2.2 = some d := by
  obtain ⟨hyear, hmonth, hday, hordinal⟩ := parts_yearMonthDay d
  have hrange := d.inRange
  have hsame : d.ordinal - 1 + 1 = d.ordinal := by omega
  rw [hsame] at hordinal
  simp only [ofParts, hordinal]
  rw [dif_pos hrange, if_pos ⟨hyear.1, hyear.2, hmonth.1, hday⟩]

/-! ## Texts -/

/-- The date of a text `YYYY-MM-DD`. -/
def read (text : String) : Option Date :=
  match text.toList with
  | [y₃, y₂, y₁, y₀, '-', m₁, m₀, '-', d₁, d₀] =>
    if [y₃, y₂, y₁, y₀, m₁, m₀, d₁, d₀].all Char.isDigit then
      ofParts (Nat.ofDigitChars 10 [y₃, y₂, y₁, y₀] 0) (Nat.ofDigitChars 10 [m₁, m₀] 0)
        (Nat.ofDigitChars 10 [d₁, d₀] 0)
    else none
  | _ => none

/-- A number that fits the width is printed with as many digits. -/
theorem padded_spec {width n : ℕ} (hwidth : 0 < width) (h : n < 10 ^ width) :
    (padded 10 width n).toList.length = width ∧
      (∀ c ∈ (padded 10 width n).toList, c.isDigit = true) ∧
      Nat.ofDigitChars 10 (padded 10 width n).toList 0 = n := by
  have hle : (Nat.toDigits 10 n).length ≤ width :=
    (Nat.length_toDigits_le_iff (by decide) hwidth).mpr h
  rw [padded, String.toList_ofList]
  refine ⟨?_, fun c hc => ?_, ?_⟩
  · rw [List.length_append, List.length_replicate]
    omega
  · rcases List.mem_append.mp hc with hzero | hdigit
    · exact DecimalText.isDigit_zeros c hzero
    · exact DecimalText.isDigit_toDigits c hdigit
  · rw [← DecimalText.ofDigits_digitsOf, DecimalText.ofDigits_zeros, DecimalText.ofDigits_toDigits]

/-- Two digits. -/
theorem padded_two {n : ℕ} (h : n < 100) : ∃ c₁ c₀, (padded 10 2 n).toList = [c₁, c₀] ∧
    c₁.isDigit = true ∧ c₀.isDigit = true ∧ Nat.ofDigitChars 10 [c₁, c₀] 0 = n := by
  obtain ⟨hlength, hdigits, hvalue⟩ := padded_spec (by decide : 0 < 2) h
  obtain ⟨c₁, c₀, hcs⟩ := List.length_eq_two.mp hlength
  rw [hcs] at hdigits hvalue
  exact ⟨c₁, c₀, hcs, hdigits c₁ (by simp), hdigits c₀ (by simp), hvalue⟩

/-- Four digits. -/
theorem padded_four {n : ℕ} (h : n < 10000) : ∃ c₃ c₂ c₁ c₀,
    (padded 10 4 n).toList = [c₃, c₂, c₁, c₀] ∧ c₃.isDigit = true ∧ c₂.isDigit = true ∧
      c₁.isDigit = true ∧ c₀.isDigit = true ∧ Nat.ofDigitChars 10 [c₃, c₂, c₁, c₀] 0 = n := by
  obtain ⟨hlength, hdigits, hvalue⟩ := padded_spec (by decide : 0 < 4) h
  generalize (padded 10 4 n).toList = cs at hlength hdigits hvalue
  match cs, hlength with
  | [c₃, c₂, c₁, c₀], _ =>
    exact ⟨c₃, c₂, c₁, c₀, rfl, hdigits c₃ (by simp), hdigits c₂ (by simp), hdigits c₁ (by simp),
      hdigits c₀ (by simp), hvalue⟩

theorem daysInMonth_le (year month : ℕ) : daysInMonth year month ≤ 31 := by
  have hall : ∀ len ∈ monthLengths year, len ≤ 31 := by
    cases hleap : isLeap year <;> simp [monthLengths, hleap]
  rw [daysInMonth]
  cases hlen : (monthLengths year)[month - 1]? with
  | none => exact Nat.zero_le _
  | some len => exact hall len (List.mem_of_getElem? hlen)

/-- **A date is read back from its text.** -/
theorem read_isoformat (d : Date) : read d.isoformat = some d := by
  obtain ⟨hyear, hmonth, hday, -⟩ := parts_yearMonthDay d
  have hlength := daysInMonth_le d.yearMonthDay.1 d.yearMonthDay.2.1
  obtain ⟨y₃, y₂, y₁, y₀, hy, hy₃, hy₂, hy₁, hy₀, hyvalue⟩ := padded_four (by omega :
    d.yearMonthDay.1 < 10000)
  obtain ⟨m₁, m₀, hm, hm₁, hm₀, hmvalue⟩ := padded_two (by omega : d.yearMonthDay.2.1 < 100)
  obtain ⟨d₁, d₀, hd, hd₁, hd₀, hdvalue⟩ := padded_two (by omega : d.yearMonthDay.2.2 < 100)
  have htext : d.isoformat.toList = [y₃, y₂, y₁, y₀, '-', m₁, m₀, '-', d₁, d₀] := by
    have hparts : d.isoformat = padded 10 4 d.yearMonthDay.1 ++ "-" ++
        padded 10 2 d.yearMonthDay.2.1 ++ "-" ++ padded 10 2 d.yearMonthDay.2.2 := rfl
    have hhyphen : ("-" : String).toList = ['-'] := rfl
    simp only [hparts, String.toList_append, hy, hm, hd, hhyphen, List.cons_append, List.nil_append]
  rw [read, htext]
  simp only [List.all_cons, hy₃, hy₂, hy₁, hy₀, hm₁, hm₀, hd₁, hd₀, List.all_nil, Bool.and_self,
    if_true, hyvalue, hmvalue, hdvalue, ofParts_yearMonthDay]

end Date

end FxDealManager
