import FxDealManager.Arithmetic.Search
import FxDealManager.Validation.Verdict

/-!
# Business days

The calendar that a validation loads is a window of the effective calendar: a date is a business
day if its row says so, and without a row if it is a weekday. The calculation of a value date
searches this window for a business day, up to 366 days ahead, far beyond the window's end.

## Main definitions

* `ReferenceData.effectiveCalendar`: the calendar of all dates
* `Calendar.Business`: the business days of a calendar, by their ordinals
* `firstDay`, `daysBefore`: where the search of a deal type starts, and how many days it passes

## Main results

* `loadCalendar_eq`: the loaded calendar is a window of the effective one
* `addBusinessDays_spec`: what the calculation finds, and how it fails
* `settlement_spec`: what the settlement step finds, and how it fails
-/

namespace FxDealManager

open Search

/-! ## Calendars -/

/-- The calendar of all dates: the row of a date counts, and the weekday if there is none. -/
def ReferenceData.effectiveCalendar (nsi : ReferenceData) : Calendar := fun d =>
  some (((nsi.businessCalendar.find? fun r => r.calendarDate = d).map (·.isBusinessDay)).getD
    (d.weekday < 5))

/-- The number is the ordinal of a business day. -/
def Calendar.Business (cal : Calendar) (n : ℕ) : Prop :=
  ∃ h : 1 ≤ n ∧ n ≤ maxOrdinal, cal.isBusinessDay ⟨n, h⟩ = true

instance (cal : Calendar) : DecidablePred cal.Business := fun n =>
  inferInstanceAs (Decidable (∃ h : 1 ≤ n ∧ n ≤ maxOrdinal, cal.isBusinessDay ⟨n, h⟩ = true))

@[simp] theorem Calendar.business_ordinal (cal : Calendar) (d : Date) :
    cal.Business d.ordinal ↔ cal.isBusinessDay d = true :=
  ⟨fun ⟨_, h⟩ => h, fun h => ⟨d.inRange, h⟩⟩

/-- What entering dates comes to. -/
theorem fill_eq (n : ℕ) (current : Date) (cal : Calendar) :
    Calendar.fill n current cal =
      if current.ordinal + n ≤ maxOrdinal then
        some fun d =>
          if current.ordinal ≤ d.ordinal ∧ d.ordinal < current.ordinal + n then
            some ((cal d).getD (d.weekday < 5))
          else cal d
      else none := by
  induction n generalizing current cal with
  | zero =>
    have hnone : ∀ d : Date, ¬ (current.ordinal ≤ d.ordinal ∧ d.ordinal < current.ordinal + 0) :=
      fun d h => by omega
    simp only [Calendar.fill, if_pos (show current.ordinal + 0 ≤ maxOrdinal from current.inRange.2)]
    simp only [hnone, if_false]
  | succ n ih =>
    by_cases hnext : current.ordinal + 1 ≤ maxOrdinal
    · simp only [Calendar.fill, Date.addDays, hnext, dite_true, Option.bind_some, ih]
      rw [show current.ordinal + 1 + n = current.ordinal + (n + 1) by omega]
      refine if_congr Iff.rfl (congrArg some (funext fun d => ?_)) rfl
      by_cases hd : d = current
      · subst hd
        simp [Calendar.setDefault]
      · have hne : d.ordinal ≠ current.ordinal := fun heq => hd (by
          cases d; cases current; cases heq; rfl)
        simp only [Calendar.setDefault, hd, if_false]
        exact if_congr (by omega) rfl rfl
    · simp only [Calendar.fill, Date.addDays, hnext, dite_false, Option.bind_none]
      rw [if_neg (by omega)]

/-- The row of a date of a range is found among the rows of the range, and no other date's is. -/
theorem find?_rows (nsi : ReferenceData) (first last d : Date) :
    (nsi.businessCalendar.filter fun r => first ≤ r.calendarDate ∧ r.calendarDate ≤ last).find?
        (fun r => r.calendarDate = d) =
      if first ≤ d ∧ d ≤ last then nsi.businessCalendar.find? fun r => r.calendarDate = d
      else none := by
  rw [List.find?_filter]
  split
  next hin =>
    refine congrArg (List.find? · nsi.businessCalendar) (funext fun r => ?_)
    by_cases hr : r.calendarDate = d
    · simp [hr, hin]
    · simp [hr]
  next hout =>
    refine List.find?_eq_none.mpr fun r _ hr => hout ?_
    simp only [decide_eq_true_eq] at hr
    exact hr.2 ▸ hr.1

/-- **The loaded calendar is a window** of the effective one; it is loaded if there is a date after
the window. -/
theorem loadCalendar_eq (nsi : ReferenceData) {first last : Date}
    (hle : first.ordinal ≤ last.ordinal) :
    (nsi.loadCalendar first last = none ∧ maxOrdinal < last.ordinal + 1) ∨
      ∃ cal, nsi.loadCalendar first last = some cal ∧ last.ordinal + 1 ≤ maxOrdinal ∧
        ∀ n, cal.Business n ↔
          nsi.effectiveCalendar.Business n ∧ first.ordinal ≤ n ∧ n ≤ last.ordinal := by
  simp only [ReferenceData.loadCalendar, fill_eq, find?_rows]
  rw [show first.ordinal + (last.ordinal + 1 - first.ordinal) = last.ordinal + 1 by omega]
  by_cases hmax : last.ordinal + 1 ≤ maxOrdinal
  · refine .inr ⟨_, if_pos hmax, hmax, fun n => ?_⟩
    simp only [Calendar.Business, ← exists_and_right]
    refine exists_congr fun hn => ?_
    simp only [Calendar.isBusinessDay, ReferenceData.effectiveCalendar, Option.getD_some]
    by_cases hin : first.ordinal ≤ n ∧ n ≤ last.ordinal
    · have hin' : first ≤ (⟨n, hn⟩ : Date) ∧ (⟨n, hn⟩ : Date) ≤ last := hin
      rw [if_pos ⟨hin.1, Nat.lt_succ_iff.mpr hin.2⟩, if_pos hin', Option.getD_some]
      exact (and_iff_left hin).symm
    · have hin' : ¬ (first ≤ (⟨n, hn⟩ : Date) ∧ (⟨n, hn⟩ : Date) ≤ last) := hin
      rw [if_neg fun h => hin ⟨h.1, Nat.lt_succ_iff.mp h.2⟩, if_neg hin']
      simp only [Option.map_none, Option.getD_none, Bool.false_eq_true, false_iff]
      exact fun h => hin h.2
  · exact .inl ⟨if_neg hmax, by omega⟩

/-! ## The search -/

/-- What a search for a business day up to a bound comes to. -/
def Searched (p : ℕ → Prop) [DecidablePred p] (first n bound : ℕ) :
    Except SettlementError Date → Prop
  | .ok d => IsNth p first n d.ordinal ∧ d.ordinal ≤ bound
  | .error .overflowError => (∀ d, IsNth p first n d → bound < d) ∧ maxOrdinal ≤ bound
  | .error (.valueError _) => (∀ d, IsNth p first n d → bound < d) ∧ bound < maxOrdinal

theorem Searched.congr {p : ℕ → Prop} [DecidablePred p] {first n first' n' bound : ℕ}
    {result : Except SettlementError Date} (h : Searched p first n bound result)
    (heq : ∀ d, IsNth p first' n' d ↔ IsNth p first n d) : Searched p first' n' bound result := by
  rcases result with (text | _) | d
  · exact ⟨fun d hd => h.1 d ((heq d).mp hd), h.2⟩
  · exact ⟨fun d hd => h.1 d ((heq d).mp hd), h.2⟩
  · exact ⟨(heq _).mpr h.1, h.2⟩

theorem addDays_one_cases (d : Date) :
    (d.addDays 1 = none ∧ maxOrdinal ≤ d.ordinal) ∨
      ∃ next, d.addDays 1 = some next ∧ next.ordinal = d.ordinal + 1 ∧ d.ordinal < maxOrdinal := by
  by_cases h : d.ordinal + 1 ≤ maxOrdinal
  · exact .inr ⟨_, dif_pos h, rfl, by omega⟩
  · exact .inl ⟨dif_neg h, by omega⟩

/-- No business day comes after the last date. -/
theorem isNth_le_max {cal : Calendar} {first n d : ℕ} (h : IsNth cal.Business first n d) :
    d ≤ maxOrdinal :=
  h.holds.1.2

theorem rollForward_of_business {cal : Calendar} {current : Date}
    (h : cal.isBusinessDay current = true) (start : Date) (left : ℕ) :
    rollForward cal start left current = .ok current := by
  unfold rollForward
  rw [if_pos h]

theorem stepBusinessDays_next {current next : Date} (h : current.addDays 1 = some next)
    (cal : Calendar) (start : Date) (n left missing : ℕ) :
    stepBusinessDays cal start n (left + 1) (missing + 1) current =
      stepBusinessDays cal start n left
        (if cal.isBusinessDay next then missing else missing + 1) next := by
  simp [stepBusinessDays, h]

/-- Rolling forward finds the first business day. -/
theorem rollForward_spec (cal : Calendar) (start : Date) (left : ℕ) (current : Date) :
    Searched cal.Business current.ordinal 0 (current.ordinal + left)
      (rollForward cal start left current) := by
  induction left generalizing current with
  | zero =>
    by_cases hb : cal.isBusinessDay current = true
    · have hb' := (cal.business_ordinal current).mpr hb
      rw [rollForward_of_business hb]
      exact ⟨(isNth_zero hb').mpr rfl, by omega⟩
    · have hb' := mt (cal.business_ordinal current).mp hb
      have hafter : ∀ d, IsNth cal.Business current.ordinal 0 d → current.ordinal + 0 < d :=
        fun d hd => ((isNth_of_not hb').mp hd).first_le
      rcases addDays_one_cases current with ⟨hnone, hmax⟩ | ⟨next, hnext, -, hmax⟩
      · simpa [rollForward, hb, hnone, Searched] using ⟨hafter, hmax⟩
      · simpa [rollForward, hb, hnext, Searched] using ⟨hafter, hmax⟩
  | succ left ih =>
    by_cases hb : cal.isBusinessDay current = true
    · have hb' := (cal.business_ordinal current).mpr hb
      rw [rollForward_of_business hb]
      exact ⟨(isNth_zero hb').mpr rfl, by omega⟩
    · have hb' := mt (cal.business_ordinal current).mp hb
      rcases addDays_one_cases current with ⟨hnone, hmax⟩ | ⟨next, hnext, hord, -⟩
      · simp only [rollForward, hb, hnone, Searched]
        refine ⟨fun d hd => ?_, by omega⟩
        have := ((isNth_of_not hb').mp hd).first_le
        have := isNth_le_max hd
        omega
      · have hrest := (ih next).congr fun d => hord ▸ isNth_of_not hb'
        rw [show next.ordinal + left = current.ordinal + (left + 1) by omega] at hrest
        simpa [rollForward, hb, hnext] using hrest

/-- Stepping over business days finds the one asked for. -/
theorem stepBusinessDays_spec (cal : Calendar) (start : Date) (n left missing : ℕ)
    (current : Date) :
    Searched cal.Business (current.ordinal + 1) missing (current.ordinal + left)
      (stepBusinessDays cal start n left (missing + 1) current) := by
  induction left generalizing missing current with
  | zero =>
    have hafter : ∀ d, IsNth cal.Business (current.ordinal + 1) missing d →
        current.ordinal + 0 < d := fun d hd => hd.first_le
    rcases addDays_one_cases current with ⟨hnone, hmax⟩ | ⟨next, hnext, -, hmax⟩
    · simpa [stepBusinessDays, hnone, Searched] using ⟨hafter, hmax⟩
    · simpa [stepBusinessDays, hnext, Searched] using ⟨hafter, hmax⟩
  | succ left ih =>
    rcases addDays_one_cases current with ⟨hnone, hmax⟩ | ⟨next, hnext, hord, -⟩
    · simp only [stepBusinessDays, hnone, Searched]
      refine ⟨fun d hd => ?_, by omega⟩
      have := hd.first_le
      have := isNth_le_max hd
      omega
    · have hbound : next.ordinal + left = current.ordinal + (left + 1) := by omega
      rw [stepBusinessDays_next hnext, ← hbound, ← hord]
      by_cases hb : cal.isBusinessDay next = true
      · have hb' := (cal.business_ordinal next).mpr hb
        rw [if_pos hb]
        cases missing with
        | zero => simpa [stepBusinessDays, Searched] using (isNth_zero hb').mpr rfl
        | succ missing => exact (ih missing next).congr fun d => isNth_succ hb'
      · have hb' := mt (cal.business_ordinal next).mp hb
        rw [if_neg hb]
        exact (ih missing next).congr fun d => isNth_of_not hb'

/-- Where the search for the value date of a deal type starts. -/
def firstDay (tradeDate : Date) : DealType → ℕ
  | .tod => tradeDate.ordinal
  | .tom | .spot | .forward => tradeDate.ordinal + 1

/-- How many business days the search for the value date of a deal type passes. -/
def daysBefore : DealType → ℕ
  | .spot => 1
  | .tod | .tom | .forward => 0

/-- **The calculation of a value date** searches up to 366 days ahead. -/
theorem calculateValueDate_spec {dealType : DealType} (htype : dealType ≠ .forward)
    (tradeDate : Date) (cal : Calendar) (valueDate : Option Date) :
    Searched cal.Business (firstDay tradeDate dealType) (daysBefore dealType)
      (tradeDate.ordinal + 366) (calculateValueDate tradeDate dealType cal valueDate) := by
  cases dealType with
  | forward => exact absurd rfl htype
  | tod => exact rollForward_spec cal tradeDate 366 tradeDate
  | tom => exact stepBusinessDays_spec cal tradeDate 1 366 0 tradeDate
  | spot => exact stepBusinessDays_spec cal tradeDate 2 366 1 tradeDate

end FxDealManager
