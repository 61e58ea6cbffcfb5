import FxDealManager.Validation.Window

/-!
# Value dates

The search for a value date counts the business days after the trade date, up to 366 days ahead. It
ends with the day asked for, with an error if there are too few business days up to there, or with
an overflow if the last date comes first. The dates it finds are in the order of the trade dates,
and of the numbers of business days asked for.

## Main definitions

* `businessDaysIn`: how many business days there are in a range of days
* `IsValueDate`: the day that is so many business days after another one

## Main results

* `rollForward_loop`, `stepBusinessDays_loop`: the loops, with their test of the horizon
* `addBusinessDays_exact`: what the search finds, and when it fails
* `value_dates_ordered`: the order of the value dates
-/

namespace FxDealManager

open Search

/-! ## The loops -/

section Loops

variable (cal : Calendar) (start : Date) {current : Date}

/-- The loop that rolls forward, with the days left until the test of the horizon fails. -/
theorem rollForward_loop (hle : start ≤ current) (hbound : current.ordinal ≤ start.ordinal + 366) :
    rollForward cal start (start.ordinal + 366 - current.ordinal) current =
      if cal.isBusinessDay current then .ok current
      else
        match current.addDays 1 with
        | none => .error .overflowError
        | some next =>
          if 366 < next.ordinal - start.ordinal then
            .error (.valueError s!"No business day found on or after {start.isoformat}")
          else rollForward cal start (start.ordinal + 366 - next.ordinal) next := by
  have hle : start.ordinal ≤ current.ordinal := hle
  rcases addDays_one_cases current with ⟨hnone, -⟩ | ⟨next, hnext, hord, -⟩
  · rw [rollForward.eq_def]
    simp [hnone]
  · generalize hleft : start.ordinal + 366 - current.ordinal = left
    cases left with
    | zero =>
      have hbeyond : 366 < next.ordinal - start.ordinal := by omega
      simp [rollForward, hnext, hbeyond]
    | succ left =>
      have hwithin : ¬ 366 < next.ordinal - start.ordinal := by omega
      have hleft' : start.ordinal + 366 - next.ordinal = left := by omega
      simp [rollForward, hnext, hwithin, hleft']

/-- The loop that steps over business days, with the days left and the business days missing. -/
theorem stepBusinessDays_loop (n added : ℕ) (hle : start ≤ current)
    (hbound : current.ordinal ≤ start.ordinal + 366) :
    stepBusinessDays cal start n (start.ordinal + 366 - current.ordinal) (n - added) current =
      if added < n then
        match current.addDays 1 with
        | none => .error .overflowError
        | some next =>
          if 366 < next.ordinal - start.ordinal then
            .error (.valueError s!"Could not add {n} business days from {start.isoformat}")
          else
            stepBusinessDays cal start n (start.ordinal + 366 - next.ordinal)
              (n - if cal.isBusinessDay next then added + 1 else added) next
      else .ok current := by
  have hle : start.ordinal ≤ current.ordinal := hle
  by_cases hadded : added < n
  · obtain ⟨missing, hmissing⟩ : ∃ missing, n - added = missing + 1 := ⟨n - added - 1, by omega⟩
    rw [if_pos hadded, hmissing]
    rcases addDays_one_cases current with ⟨hnone, -⟩ | ⟨next, hnext, hord, -⟩
    · rw [stepBusinessDays.eq_def]
      simp [hnone]
    · generalize hleft : start.ordinal + 366 - current.ordinal = left
      have hcount : n - (if cal.isBusinessDay next then added + 1 else added) =
          if cal.isBusinessDay next then missing else missing + 1 := by
        split <;> omega
      cases left with
      | zero =>
        have hbeyond : 366 < next.ordinal - start.ordinal := by omega
        simp [stepBusinessDays, hnext, hbeyond]
      | succ left =>
        have hwithin : ¬ 366 < next.ordinal - start.ordinal := by omega
        have hleft' : start.ordinal + 366 - next.ordinal = left := by omega
        simp [stepBusinessDays, hnext, hwithin, hleft', hcount]
  · rw [if_neg hadded, show n - added = 0 by omega]
    cases start.ordinal + 366 - current.ordinal <;> rfl

end Loops

/-! ## Exactly so many business days -/

/-- How many business days there are among the given days, by their ordinals. -/
def businessDaysIn (cal : Calendar) (days : Finset ℕ) : ℕ := (days.filter cal.Business).card

/-- The first business day from `start` on for no days, and for `n` days the business day after
`start` up to which there are `n` of them. -/
def IsValueDate (cal : Calendar) (start : Date) (n : ℕ) (d : Date) : Prop :=
  cal.isBusinessDay d = true ∧
    if n = 0 then start ≤ d ∧ ∀ e, start ≤ e → cal.isBusinessDay e = true → d ≤ e
    else start.ordinal < d.ordinal ∧ businessDaysIn cal (Finset.Ioc start.ordinal d.ordinal) = n

/-- There are too few business days up to the horizon of 366 days. -/
def TooFew (cal : Calendar) (start : Date) (n : ℕ) : Prop :=
  if n = 0 then businessDaysIn cal (Finset.Icc start.ordinal (start.ordinal + 366)) = 0
  else businessDaysIn cal (Finset.Ioc start.ordinal (start.ordinal + 366)) < n

section Exact

variable {cal : Calendar} {start d : Date} {n : ℕ}

/-- Where the search for `n` business days starts. -/
def searchFrom (start : Date) (n : ℕ) : ℕ := if n = 0 then start.ordinal else start.ordinal + 1

theorem addBusinessDays_spec (start : Date) (n : ℕ) (cal : Calendar) :
    Searched cal.Business (searchFrom start n) (n - 1) (start.ordinal + 366)
      (addBusinessDays start n cal) := by
  cases n with
  | zero => exact rollForward_spec cal start 366 start
  | succ n => exact stepBusinessDays_spec cal start (n + 1) 366 n start

theorem isValueDate_iff :
    IsValueDate cal start n d ↔ IsNth cal.Business (searchFrom start n) (n - 1) d.ordinal := by
  cases n with
  | zero =>
    rw [IsValueDate, if_pos rfl, searchFrom, if_pos rfl, Nat.zero_sub, isNth_zero_iff,
      cal.business_ordinal]
    have hdates : (∀ e : Date, start ≤ e → cal.isBusinessDay e = true → d ≤ e) ↔
        ∀ e, start.ordinal ≤ e → cal.Business e → d.ordinal ≤ e :=
      ⟨fun h e hle he => h ⟨e, he.1⟩ hle he.2,
        fun h e hle he => h e.ordinal hle ((cal.business_ordinal e).mpr he)⟩
    rw [hdates]
    exact and_left_comm
  | succ n =>
    rw [IsValueDate, if_neg n.succ_ne_zero, searchFrom, if_neg n.succ_ne_zero, Nat.add_sub_cancel,
      isNth_iff_countIn, businessDaysIn, cal.business_ordinal]
    constructor
    · rintro ⟨hd, hlt, hcount⟩
      exact ⟨hlt, hd, by rw [countIn_eq_card (by omega), Finset.Icc_add_one_left_eq_Ioc, hcount]⟩
    · rintro ⟨hlt, hd, hcount⟩
      rw [countIn_eq_card (by omega), Finset.Icc_add_one_left_eq_Ioc] at hcount
      exact ⟨hd, hlt, hcount⟩

theorem tooFew_iff : TooFew cal start n ↔
    ∀ d, IsNth cal.Business (searchFrom start n) (n - 1) d → start.ordinal + 366 < d := by
  cases n with
  | zero =>
    rw [TooFew, if_pos rfl, searchFrom, if_pos rfl, Nat.zero_sub,
      forall_isNth_gt_iff (by omega), countIn_eq_card (by omega), businessDaysIn, Nat.le_zero]
  | succ n =>
    rw [TooFew, if_neg n.succ_ne_zero, searchFrom, if_neg n.succ_ne_zero, Nat.add_sub_cancel,
      forall_isNth_gt_iff (by omega), countIn_eq_card (by omega), businessDaysIn,
      Finset.Icc_add_one_left_eq_Ioc, Nat.lt_succ_iff]

end Exact

section Failures

variable {p : ℕ → Prop} [DecidablePred p] {first n bound : ℕ}
  {result : Except SettlementError Date}

/-- A search runs into the last date if what it looks for is not there before. -/
theorem Searched.eq_overflow_iff (h : Searched p first n bound result) :
    result = .error .overflowError ↔
      (∀ d, IsNth p first n d → bound < d) ∧ maxOrdinal ≤ bound := by
  rcases result with (text | _) | d
  · exact iff_of_false nofun fun hoverflow => absurd h.2 (not_lt.mpr hoverflow.2)
  · exact iff_of_true rfl h
  · exact iff_of_false nofun fun hoverflow => absurd h.2 (not_le.mpr (hoverflow.1 _ h.1))

/-- A search gives up if what it looks for is not there up to the bound. -/
theorem Searched.eq_valueError_iff (h : Searched p first n bound result) :
    (∃ text, result = .error (.valueError text)) ↔
      (∀ d, IsNth p first n d → bound < d) ∧ bound < maxOrdinal := by
  rcases result with (text | _) | d
  · exact iff_of_true ⟨text, rfl⟩ h
  · exact iff_of_false nofun fun hfailed => absurd h.2 (not_le.mpr hfailed.2)
  · exact iff_of_false nofun fun hfailed => absurd h.2 (not_le.mpr (hfailed.1 _ h.1))

end Failures

/-- **Counting business days is exact up to the horizon**: the search ends with a date if and only
if it is the business day asked for and within 366 days, which is the only one; with a value error
if and only if there are too few business days within 366 days; and with an overflow if and only if
there are too few of them and the horizon is not before the last date. -/
theorem addBusinessDays_exact (start : Date) (n : ℕ) (cal : Calendar) :
    (∀ d, addBusinessDays start n cal = .ok d ↔
      IsValueDate cal start n d ∧ d.ordinal ≤ start.ordinal + 366) ∧
    (∀ d e, IsValueDate cal start n d → IsValueDate cal start n e → d = e) ∧
    ((∃ text, addBusinessDays start n cal = .error (.valueError text)) ↔
      TooFew cal start n ∧ start.ordinal + 366 < maxOrdinal) ∧
    (addBusinessDays start n cal = .error .overflowError ↔
      TooFew cal start n ∧ maxOrdinal ≤ start.ordinal + 366) := by
  have hspec := addBusinessDays_spec start n cal
  refine ⟨fun d => ?_, fun d e hd he => ?_, ?_, ?_⟩
  · rw [hspec.eq_ok_iff, isValueDate_iff]
  · rw [isValueDate_iff] at hd he
    have heq := hd.unique he
    cases d
    cases e
    cases heq
    rfl
  · rw [hspec.eq_valueError_iff, tooFew_iff]
  · rw [hspec.eq_overflow_iff, tooFew_iff]

/-! ## The order of the value dates -/

/-- Trade dates in order have value dates in order. -/
theorem calculateValueDate_mono {dealType : DealType} (htype : dealType ≠ .forward) {s t : Date}
    (hle : s ≤ t) {cal : Calendar} {given given' : Option Date} {d e : Date}
    (hd : calculateValueDate s dealType cal given = .ok d)
    (he : calculateValueDate t dealType cal given' = .ok e) : d ≤ e := by
  have hd := ((calculateValueDate_spec htype s cal given).eq_ok_iff.mp hd).1
  have he := ((calculateValueDate_spec htype t cal given').eq_ok_iff.mp he).1
  have hfirst : firstDay s dealType ≤ firstDay t dealType := by
    cases dealType with
    | tod => exact hle
    | tom | spot | forward => exact Nat.succ_le_succ hle
  exact (hd.le_iff he).mpr (Nat.add_le_add_right (Nat.count_monotone cal.Business hfirst) _)

/-- **Value dates are ordered**: for one type, the value date of an earlier trade date is not later
than that of a later one; and for one trade date, that of `TOD` is not later than that of `TOM`,
which is strictly earlier than that of `SPOT`. -/
theorem value_dates_ordered (cal : Calendar) :
    (∀ dealType ≠ DealType.forward, ∀ (s t : Date) (given given' : Option Date) (d e : Date),
      s ≤ t → calculateValueDate s dealType cal given = .ok d →
        calculateValueDate t dealType cal given' = .ok e → d ≤ e) ∧
    (∀ (t : Date) (given given' : Option Date) (tod tom : Date),
      calculateValueDate t .tod cal given = .ok tod →
        calculateValueDate t .tom cal given' = .ok tom → tod ≤ tom) ∧
    ∀ (t : Date) (given given' : Option Date) (tom spot : Date),
      calculateValueDate t .tom cal given = .ok tom →
        calculateValueDate t .spot cal given' = .ok spot → tom.ordinal < spot.ordinal := by
  refine ⟨fun dealType htype s t given given' d e hle hd he =>
    calculateValueDate_mono htype hle hd he, fun t given given' tod tom htod htom => ?_,
    fun t given given' tom spot htom hspot => ?_⟩
  · have htod := ((calculateValueDate_spec (by decide) t cal given).eq_ok_iff.mp htod).1
    have htom := ((calculateValueDate_spec (by decide) t cal given').eq_ok_iff.mp htom).1
    exact (htod.le_iff htom).mpr (Nat.count_monotone cal.Business (Nat.le_succ _))
  · have htom := ((calculateValueDate_spec (by decide) t cal given).eq_ok_iff.mp htom).1
    have hspot := ((calculateValueDate_spec (by decide) t cal given').eq_ok_iff.mp hspot).1
    exact (htom.lt_iff hspot).mpr (Nat.lt_succ_self _)

/-- The value dates for the trade date of the desk, a Monday, and for the day after. -/
theorem value_dates_ordered_desk :
    ∃ tod tod' tom spot : Date,
      calculateValueDate ⟨738900, by decide⟩ .tod Desk.nsi.effectiveCalendar none = .ok tod ∧
      calculateValueDate ⟨738901, by decide⟩ .tod Desk.nsi.effectiveCalendar none = .ok tod' ∧
      calculateValueDate ⟨738900, by decide⟩ .tom Desk.nsi.effectiveCalendar none = .ok tom ∧
      calculateValueDate ⟨738900, by decide⟩ .spot Desk.nsi.effectiveCalendar none = .ok spot ∧
      tod ≤ tod' ∧ tod ≤ tom ∧ tom.ordinal < spot.ordinal := by
  obtain ⟨tod, htod⟩ := exists_ok_of_toBool (x := calculateValueDate ⟨738900, by decide⟩ .tod
    Desk.nsi.effectiveCalendar none) (by decide +kernel)
  obtain ⟨tod', htod'⟩ := exists_ok_of_toBool (x := calculateValueDate ⟨738901, by decide⟩ .tod
    Desk.nsi.effectiveCalendar none) (by decide +kernel)
  obtain ⟨tom, htom⟩ := exists_ok_of_toBool (x := calculateValueDate ⟨738900, by decide⟩ .tom
    Desk.nsi.effectiveCalendar none) (by decide +kernel)
  obtain ⟨spot, hspot⟩ := exists_ok_of_toBool (x := calculateValueDate ⟨738900, by decide⟩ .spot
    Desk.nsi.effectiveCalendar none) (by decide +kernel)
  obtain ⟨hdates, htypes, hstrict⟩ := value_dates_ordered Desk.nsi.effectiveCalendar
  exact ⟨tod, tod', tom, spot, htod, htod', htom, hspot,
    hdates .tod (by decide) _ _ _ _ _ _ (by decide) htod htod', htypes _ _ _ _ _ htod htom,
    hstrict _ _ _ _ _ htom hspot⟩

end FxDealManager
