import FxDealManager.Validation.BusinessDays
import FxDealManager.Validation.Recording

/-!
# The settlement window

The settlement step knows the business days of 31 days only, from the trade date on. Within this
window it agrees with the calculation over the effective calendar of all dates; beyond it, a value
date that this calculation accepts is refused.

## Main definitions

* `wholeValueDate`: the value date of a deal by the effective calendar of all dates
* `InWindow`: the window holds the business days that the deal asks for

## Main results

* `settlement_eq_ok_iff_whole`: the settlement step finds the value dates within the window
* `settlement_eq_overflow_iff`: when the settlement step leaves the range of dates
* `settle_whole_iff`: the settlement step agrees with the whole calendar, within the window only
* `forward_refused`: a `FORWARD` deal that is settled on a business day and refused
-/

namespace FxDealManager

open Search Transactional

section Window

variable {nsi : ReferenceData} {deal : FXDeal}

/-- The value date of a deal by the effective calendar of all dates. -/
def wholeValueDate (nsi : ReferenceData) (deal : FXDeal) : Except SettlementError Date :=
  calculateValueDate deal.tradeDate deal.loadedDealType nsi.effectiveCalendar deal.valueDate

/-- The settlement step calculates over a window of the effective calendar, if this can be
loaded. -/
theorem settlement_cases (nsi : ReferenceData) (deal : FXDeal) :
    (settlement nsi deal = .error .overflowError ∧ maxOrdinal < deal.tradeDate.ordinal + 31) ∨
      ∃ cal : Calendar, deal.tradeDate.ordinal + 31 ≤ maxOrdinal ∧
        (∀ n, cal.Business n ↔ nsi.effectiveCalendar.Business n ∧
          deal.tradeDate.ordinal ≤ n ∧ n ≤ deal.tradeDate.ordinal + 30) ∧
        settlement nsi deal =
          calculateValueDate deal.tradeDate deal.loadedDealType cal deal.valueDate := by
  by_cases hlast : deal.tradeDate.ordinal + 30 ≤ maxOrdinal
  · have hsome : deal.tradeDate.addDays 30 = some ⟨deal.tradeDate.ordinal + 30, by
        have := deal.tradeDate.inRange; omega, hlast⟩ := dif_pos hlast
    generalize hd : (⟨deal.tradeDate.ordinal + 30, _⟩ : Date) = last at hsome
    have hord : last.ordinal = deal.tradeDate.ordinal + 30 := by rw [← hd]
    rcases loadCalendar_eq nsi (show deal.tradeDate.ordinal ≤ last.ordinal by omega) with
      ⟨hnone, hmax⟩ | ⟨cal, hcal, hmax, hbusiness⟩
    · exact .inl ⟨by simp only [settlement, hsome, hnone], by omega⟩
    · rw [hord] at hmax hbusiness
      exact .inr ⟨cal, hmax, hbusiness, by simp only [settlement, hsome, hcal]⟩
  · have hnone : deal.tradeDate.addDays 30 = none := dif_neg hlast
    exact .inl ⟨by simp only [settlement, hnone], by omega⟩

/-- The search starts on the trade date or the day after. -/
theorem le_firstDay (tradeDate : Date) (dealType : DealType) :
    tradeDate.ordinal ≤ firstDay tradeDate dealType ∧
      firstDay tradeDate dealType ≤ tradeDate.ordinal + 1 := by
  cases dealType <;> simp [firstDay]

/-- The search in the window finds what the whole search finds there. -/
theorem isNth_loaded_iff {cal : Calendar} {d : ℕ} (hbusiness : ∀ n, cal.Business n ↔
      nsi.effectiveCalendar.Business n ∧
        deal.tradeDate.ordinal ≤ n ∧ n ≤ deal.tradeDate.ordinal + 30) :
    IsNth cal.Business (firstDay deal.tradeDate deal.loadedDealType)
        (daysBefore deal.loadedDealType) d ↔
      IsNth nsi.effectiveCalendar.Business (firstDay deal.tradeDate deal.loadedDealType)
        (daysBefore deal.loadedDealType) d ∧ d ≤ deal.tradeDate.ordinal + 30 := by
  refine isNth_window_iff fun k hk => ?_
  have := (le_firstDay deal.tradeDate deal.loadedDealType).1
  rw [hbusiness k, and_congr_right_iff]
  exact fun _ => and_iff_right (by omega)

/-- A search finds the number that is there. -/
theorem Searched.eq_ok_iff {p : ℕ → Prop} [DecidablePred p] {first n bound : ℕ}
    {result : Except SettlementError Date} (h : Searched p first n bound result) {d : Date} :
    result = .ok d ↔ IsNth p first n d.ordinal ∧ d.ordinal ≤ bound := by
  constructor
  · rintro rfl
    exact h
  · rintro ⟨hd, hbound⟩
    rcases result with (text | _) | d'
    · exact absurd hbound (not_le.mpr (h.1 _ hd))
    · exact absurd hbound (not_le.mpr (h.1 _ hd))
    · have heq : d'.ordinal = d.ordinal := h.1.unique hd
      cases d
      cases d'
      cases heq
      rfl

/-- The value date of a forward deal is the given one, if the calendar confirms it. -/
theorem forward_eq_ok_iff {tradeDate d : Date} {cal : Calendar} {explicitValueDate : Option Date} :
    calculateValueDate tradeDate .forward cal explicitValueDate = .ok d ↔
      explicitValueDate = some d ∧ cal.isBusinessDay d = true := by
  cases explicitValueDate with
  | none => simp [calculateValueDate]
  | some v =>
    by_cases hv : cal.isBusinessDay v = true
    · simp only [calculateValueDate, if_pos hv, Except.ok.injEq, Option.some.injEq]
      exact ⟨by rintro rfl; exact ⟨rfl, hv⟩, fun h => h.1⟩
    · simp only [calculateValueDate, if_neg hv, Option.some.injEq, reduceCtorEq, false_iff]
      rintro ⟨rfl, hd⟩
      exact hv hd

theorem forward_ne_overflow {tradeDate : Date} {cal : Calendar} {explicitValueDate : Option Date} :
    calculateValueDate tradeDate .forward cal explicitValueDate ≠ .error .overflowError := by
  cases explicitValueDate with
  | none => simp [calculateValueDate]
  | some v =>
    simp only [calculateValueDate]
    split <;> simp

/-- **The settlement step finds the value dates within the window**, and those only. -/
theorem settlement_eq_ok_iff_whole {d : Date} :
    settlement nsi deal = .ok d ↔ wholeValueDate nsi deal = .ok d ∧
      deal.tradeDate.ordinal + 31 ≤ maxOrdinal ∧ deal.tradeDate ≤ d ∧
      d.ordinal ≤ deal.tradeDate.ordinal + 30 := by
  have hle : ∀ d : Date, deal.tradeDate ≤ d ↔ deal.tradeDate.ordinal ≤ d.ordinal := fun _ => Iff.rfl
  rcases settlement_cases nsi deal with ⟨herr, hmax⟩ | ⟨cal, hmax, hbusiness, heq⟩
  · rw [herr]
    exact ⟨nofun, fun h => by omega⟩
  · rw [heq, wholeValueDate, hle]
    by_cases hforward : deal.loadedDealType = .forward
    · have hd := hbusiness d.ordinal
      rw [Calendar.business_ordinal, Calendar.business_ordinal] at hd
      rw [hforward, forward_eq_ok_iff, forward_eq_ok_iff, hd]
      tauto
    · rw [(calculateValueDate_spec hforward _ cal _).eq_ok_iff,
        (calculateValueDate_spec hforward _ nsi.effectiveCalendar _).eq_ok_iff,
        isNth_loaded_iff hbusiness]
      constructor
      · rintro ⟨⟨hd, hwindow⟩, -⟩
        have := hd.first_le
        have := (le_firstDay deal.tradeDate deal.loadedDealType).1
        exact ⟨⟨hd, by omega⟩, hmax, by omega, hwindow⟩
      · rintro ⟨⟨hd, -⟩, -, -, hwindow⟩
        exact ⟨⟨hd, hwindow⟩, by omega⟩

/-- **The settlement step leaves the range of dates** if the window does, or if the search for a
business day goes on to the last date. -/
theorem settlement_eq_overflow_iff :
    settlement nsi deal = .error .overflowError ↔
      maxOrdinal < deal.tradeDate.ordinal + 31 ∨
        (deal.loadedDealType ≠ .forward ∧ maxOrdinal ≤ deal.tradeDate.ordinal + 366 ∧
          countIn nsi.effectiveCalendar.Business (firstDay deal.tradeDate deal.loadedDealType)
            (deal.tradeDate.ordinal + 30) ≤ daysBefore deal.loadedDealType) := by
  rcases settlement_cases nsi deal with ⟨herr, hmax⟩ | ⟨cal, hmax, hbusiness, heq⟩
  · exact iff_of_true herr (.inl hmax)
  · rw [heq, or_iff_right (by omega)]
    by_cases hforward : deal.loadedDealType = .forward
    · rw [hforward]
      exact iff_of_false forward_ne_overflow fun h => h.1 rfl
    · have hspec := calculateValueDate_spec hforward deal.tradeDate cal deal.valueDate
      have hfirst := (le_firstDay deal.tradeDate deal.loadedDealType).2
      have hcount := exists_isNth_le_iff (p := nsi.effectiveCalendar.Business)
        (n := daysBefore deal.loadedDealType) (show firstDay deal.tradeDate deal.loadedDealType ≤
          deal.tradeDate.ordinal + 30 + 1 by omega)
      rw [and_iff_right hforward, ← not_lt (a := daysBefore _), ← hcount]
      generalize calculateValueDate deal.tradeDate deal.loadedDealType cal deal.valueDate = result
        at hspec
      have hnone : (∀ d, IsNth cal.Business (firstDay deal.tradeDate deal.loadedDealType)
          (daysBefore deal.loadedDealType) d → deal.tradeDate.ordinal + 366 < d) →
          ¬ ∃ d, IsNth nsi.effectiveCalendar.Business
            (firstDay deal.tradeDate deal.loadedDealType) (daysBefore deal.loadedDealType) d ∧
              d ≤ deal.tradeDate.ordinal + 30 := by
        rintro h ⟨d, hd⟩
        have := h d ((isNth_loaded_iff hbusiness).mpr hd)
        omega
      rcases result with (text | _) | d
      · exact iff_of_false (by simp) fun h => by have := hspec.2; omega
      · exact iff_of_true rfl ⟨hspec.2, hnone hspec.1⟩
      · exact iff_of_false (by simp) fun h =>
          h.2 ⟨d.ordinal, (isNth_loaded_iff hbusiness).mp hspec.1⟩

/-- The window of the settlement step can be loaded, and it holds the business days that the deal
asks for. -/
def InWindow (nsi : ReferenceData) (deal : FXDeal) : Prop :=
  deal.tradeDate.ordinal + 31 ≤ maxOrdinal ∧
    if deal.loadedDealType = .forward then
      ∀ v ∈ deal.valueDate, v.ordinal ≤ deal.tradeDate.ordinal + 30
    else
      daysBefore deal.loadedDealType <
        countIn nsi.effectiveCalendar.Business (firstDay deal.tradeDate deal.loadedDealType)
          (deal.tradeDate.ordinal + 30)

/-- A value date of the whole calendar is in the window if the deal is. -/
theorem inWindow_iff {d : Date} (h : wholeValueDate nsi deal = .ok d) :
    InWindow nsi deal ↔ deal.tradeDate.ordinal + 31 ≤ maxOrdinal ∧
      d.ordinal ≤ deal.tradeDate.ordinal + 30 := by
  refine and_congr_right fun _ => ?_
  by_cases hforward : deal.loadedDealType = .forward
  · rw [wholeValueDate, hforward, forward_eq_ok_iff] at h
    rw [if_pos hforward, h.1]
    simp
  · rw [if_neg hforward]
    have hspec := calculateValueDate_spec hforward deal.tradeDate nsi.effectiveCalendar
      deal.valueDate
    obtain ⟨hd, -⟩ := hspec.eq_ok_iff.mp h
    have hfirst := (le_firstDay deal.tradeDate deal.loadedDealType).2
    rw [← exists_isNth_le_iff (show firstDay deal.tradeDate deal.loadedDealType ≤
      deal.tradeDate.ordinal + 30 + 1 by omega)]
    constructor
    · rintro ⟨e, he, hwindow⟩
      rw [hd.unique he]
      exact hwindow
    · exact fun hwindow => ⟨d.ordinal, hd, hwindow⟩

/-- No value date is before the trade date, if none is given that is. -/
theorem tradeDate_le_whole {d : Date} (hdate : ∀ v ∈ deal.valueDate, deal.tradeDate ≤ v)
    (h : wholeValueDate nsi deal = .ok d) : deal.tradeDate ≤ d := by
  by_cases hforward : deal.loadedDealType = .forward
  · rw [wholeValueDate, hforward, forward_eq_ok_iff] at h
    exact hdate d h.1
  · have hspec := calculateValueDate_spec hforward deal.tradeDate nsi.effectiveCalendar
      deal.valueDate
    have hfirst := (hspec.eq_ok_iff.mp h).1.first_le
    exact (le_firstDay deal.tradeDate deal.loadedDealType).1.trans hfirst

end Window

/-- The settlement step answers what the loaded calendar says. -/
theorem settle_run_eq_ok_iff {env : Env} {db : Database} {deal : FXDeal} {d : Date}
    (hcalm : ∀ n, rejects env n = false) :
    ((settle deal).run env db).1 = .ok d ↔ settlement db.nsi deal = .ok d := by
  have h : (settle deal).EnsuresFrom env (Progress.start db) 0 fun result _ =>
      result = .ok d ↔ settlement db.nsi deal = .ok d := by
    have hnsi : (Progress.start db : ServiceProgress).work.nsi = db.nsi := rfl
    refine .of_bind_pure (settle_from hnsi (.of_calm hcalm) ?_ ?_ ?_)
    · intro text htext
      simp [htext]
    · intro hoverflow
      simp [hoverflow]
    · intro d' hd
      exact .pure (by simp [hd])
  exact h.run

/-- **The settlement step agrees with the whole calendar within the window only**: it gives every
value date that the calculation over the effective calendar of all dates gives, if and only if this
gives none or the window holds the business days that the deal asks for. -/
theorem settle_whole_iff {env : Env} {db : Database} {deal : FXDeal}
    (hcalm : ∀ n, rejects env n = false) (hdate : ∀ v ∈ deal.valueDate, deal.tradeDate ≤ v) :
    (∀ d, wholeValueDate db.nsi deal = .ok d → ((settle deal).run env db).1 = .ok d) ↔
      (∀ d, wholeValueDate db.nsi deal ≠ .ok d) ∨ InWindow db.nsi deal := by
  simp only [settle_run_eq_ok_iff hcalm, settlement_eq_ok_iff_whole]
  constructor
  · intro h
    by_cases hwhole : ∃ d, wholeValueDate db.nsi deal = .ok d
    · obtain ⟨d, hd⟩ := hwhole
      obtain ⟨-, hmax, -, hwindow⟩ := h d hd
      exact .inr ((inWindow_iff hd).mpr ⟨hmax, hwindow⟩)
    · exact .inl fun d hd => hwhole ⟨d, hd⟩
  · rintro (hnone | hwindow) d hd
    · exact absurd hd (hnone d)
    · obtain ⟨hmax, hle⟩ := (inWindow_iff hd).mp hwindow
      exact ⟨hd, hmax, tradeDate_le_whole hdate hd, hle⟩

namespace Desk

/-- A `FORWARD` deal for settlement on the given date. -/
def forwardDeal (valueDate : Date) : FXDeal :=
  newDeal dealId { forwardPayload with valueDate := some valueDate } trader

end Desk

/-- A `FORWARD` deal for the next day settles as on the whole calendar. -/
theorem settle_whole_desk :
    ((settle (Desk.forwardDeal ⟨738901, by decide⟩)).run (Desk.env 0)
      (Database.initial Desk.nsi)).1 = .ok ⟨738901, by decide⟩ :=
  (settle_whole_iff (fun _ => rfl) (by decide)).mpr
    (.inr ⟨by decide, by simp [Desk.forwardDeal, newDeal, Desk.forwardPayload, Desk.payload]⟩) _
    (by decide +kernel)

/-- A `FORWARD` deal that settles on Friday, 15 March 2024, two months ahead, is refused. -/
theorem forward_refused :
    ¬ ∀ (env : Env) (db : Database) (deal : FXDeal), (∀ n, rejects env n = false) →
      (∀ v ∈ deal.valueDate, deal.tradeDate ≤ v) →
        ∀ d, wholeValueDate db.nsi deal = .ok d → ((settle deal).run env db).1 = .ok d := by
  intro h
  have hsettled := h (Desk.env 0) (Database.initial Desk.nsi)
    (Desk.forwardDeal ⟨738960, by decide⟩) (fun _ => rfl) (by decide) ⟨738960, by decide⟩
    (by decide +kernel)
  rw [settle_run_eq_ok_iff fun _ => rfl] at hsettled
  have hrefused : (settlement (Database.initial Desk.nsi).nsi
      (Desk.forwardDeal ⟨738960, by decide⟩)).toBool = false := by decide +kernel
  rw [hsettled] at hrefused
  cases hrefused

end FxDealManager
