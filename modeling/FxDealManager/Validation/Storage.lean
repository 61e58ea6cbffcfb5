import FxDealManager.Arithmetic.Rounding
import FxDealManager.Validation.History
import FxDealManager.Validation.Window

/-!
# When a validation can be stored

A validation whose calculations stay within the range of the decimal context, of the dates and of
the columns ends with success or with complaints. The ranges are those of the stored deal and of
the reference data: the product of amount and rate, the trade date with the business days after
it, and the account numbers, which may be longer than the column that the payments keep them in.

## Main definitions

* `product`: amount times rate, in units of `10^-8`
* `Checked`, `Passed`, `Booked`: how far a validation gets
* `WithinRange`: the deal and the reference data stay within every range that is reached

## Main results

* `counterAmount_isSome_iff`, `counterAmount_fits_iff`: the range of the counter amount
* `withinRange_iff`: within its ranges, a validation gives a verdict that can be recorded
-/

namespace FxDealManager

open DecimalArithmetic Search Transactional

/-! ## The counter amount -/

/-- Amount times rate, in units of `10^-8`. -/
def product (row : FXDealRow) : ℕ := row.amount.unscaled.natAbs * row.rate.unscaled.natAbs

section Counter

variable (nsi : ReferenceData) (id : UUID) {r : DealRecord}

/-- The counter amount is the product, rounded twice. -/
theorem counterAmount_eq (r : DealRecord) :
    counterAmount (FXDeal.ofRecord nsi id r) =
      ((⟨xor (decide (r.row.amount.unscaled < 0)) (decide (r.row.rate.unscaled < 0)),
        product r.row, -8⟩ : Decimal).fix 28).quantize 28 .halfUp (-8 + (5 + 1 : ℕ)) := rfl

/-- **The counter amount fits the decimal context** if the rounded product has 28 digits. -/
theorem counterAmount_isSome_iff :
    (counterAmount (FXDeal.ofRecord nsi id r)).isSome ↔ product r.row + 500000 < 10 ^ 34 := by
  rw [counterAmount_eq]
  exact Decimal.quantize_fix_isSome_iff (by decide)

/-- **The counter amount fits its column** if the rounded product has 18 digits. -/
theorem counterAmount_fits_iff {nsi : ReferenceData} {id : UUID} {counter : Decimal}
    (h : counterAmount (FXDeal.ofRecord nsi id r) = some counter) :
    (Numeric.ofDecimal counter : Option (Numeric 18 2)).isSome ↔
      product r.row + 500000 < 10 ^ 24 := by
  have hexponent : counter.exponent = -(2 : ℕ) := Decimal.quantize_exponent h
  have hrescale : counter.rescale .halfUp (-(2 : ℕ)) = counter.coefficient :=
    hexponent ▸ Decimal.rescale_self .halfUp counter
  rw [counterAmount_eq] at h
  have hlt := Decimal.quantize_fix_lt_iff (w := 18) (by decide) h
  simp only [Numeric.ofDecimal, hrescale, Numeric.ofMagnitude]
  by_cases hfits : counter.coefficient < 10 ^ 18
  · rw [dif_pos hfits]
    exact iff_of_true rfl (hlt.mp hfits)
  · rw [dif_neg hfits]
    exact iff_of_false Bool.false_ne_true (mt hlt.mpr hfits)

end Counter

/-! ## How far a validation gets -/

/-- The deal passes the format checks. -/
def Checked (nsi : ReferenceData) (deal : FXDeal) : Prop :=
  validate deal (nsi.counterparty? deal.counterpartyId) nsi.currency? = []

/-- The deal passes its limits, too. -/
def Passed (nsi : ReferenceData) (deal : FXDeal) : Prop :=
  Checked nsi deal ∧ checkLimits (nsi.activeLimits deal.counterpartyId) deal = some []

/-- The deal has a value date and accounts for both of its currencies as well. -/
structure Booked (nsi : ReferenceData) (deal : FXDeal) (buy sell : NostroAccount) : Prop where
  passed : Passed nsi deal
  settled : ∃ valueDate, settlement nsi deal = .ok valueDate
  buy : nsi.nostroByCurrency deal.buyCurrency = some buy
  sell : nsi.nostroByCurrency deal.sellCurrency = some sell

/-- **The ranges**: what a validation reaches stays within the decimal context, the dates and the
columns. -/
structure WithinRange (nsi : ReferenceData) (id : UUID) (r : DealRecord) (email : String) :
    Prop where
  /-- With limits, the counter amount is computed. -/
  limits : Checked nsi (FXDeal.ofRecord nsi id r) →
    nsi.activeLimits r.row.counterpartyId.val ≠ [] → product r.row + 500000 < 10 ^ 34
  /-- The calendar of 31 days is filled up to the day after. -/
  calendar : Passed nsi (FXDeal.ofRecord nsi id r) → r.row.tradeDate.ordinal + 31 ≤ maxOrdinal
  /-- Without enough business days in the calendar, the search goes on for 366 days. -/
  search : Passed nsi (FXDeal.ofRecord nsi id r) → r.row.dealType ≠ .forward →
    r.row.tradeDate.ordinal + 366 < maxOrdinal ∨ daysBefore r.row.dealType <
      countIn nsi.effectiveCalendar.Business (firstDay r.row.tradeDate r.row.dealType)
        (r.row.tradeDate.ordinal + 30)
  /-- With a value date, the counter amount is computed. -/
  counter : Passed nsi (FXDeal.ofRecord nsi id r) →
    (∃ valueDate, settlement nsi (FXDeal.ofRecord nsi id r) = .ok valueDate) →
      product r.row + 500000 < 10 ^ 34
  /-- The counter amount is stored in a column of 18 digits. -/
  column : ∀ buy sell, Booked nsi (FXDeal.ofRecord nsi id r) buy sell →
    product r.row + 500000 < 10 ^ 24
  /-- The account numbers are stored in a column of 30 characters. -/
  accounts : ∀ buy sell, Booked nsi (FXDeal.ofRecord nsi id r) buy sell →
    buy.accountNumber.val.length ≤ 30 ∧ sell.accountNumber.val.length ≤ 30
  /-- Whatever is recorded names the user. -/
  email : ¬ Unsettled nsi (FXDeal.ofRecord nsi id r) → email.length ≤ 320

/-! ## Verdicts within range -/

/-- What a verdict records can be stored. -/
def Verdict.Recordable (v : Verdict) (email : String) : Prop :=
  match v with
  | .failed _ => False
  | .refused _ => True
  | .invalid _ => email.length ≤ 320
  | .valid _ assigned => (∀ a ∈ assigned, Bookable a) ∧ email.length ≤ 320

/-- In fair circumstances the answer is a verdict if what it records can be stored. -/
theorem isVerdict_iff_of_yields {v : Verdict} {email : String}
    {result : Except ServiceError DealResponse} (h : v.Yields email result) :
    isVerdict result = true ↔ v.Recordable email := by
  cases v with
  | failed err =>
    cases h
    cases err <;> exact iff_of_false Bool.false_ne_true id
  | refused text =>
    cases h
    exact iff_of_true rfl trivial
  | invalid issues =>
    simp only [Verdict.Yields] at h
    split at h
    next hfits => cases h; exact iff_of_true rfl hfits
    next hlong => cases h; exact iff_of_false Bool.false_ne_true hlong
  | valid valueDate assigned =>
    simp only [Verdict.Yields] at h
    split at h
    next hstored => obtain ⟨response, rfl⟩ := h; exact iff_of_true rfl hstored
    next hstored => cases h; exact iff_of_false Bool.false_ne_true hstored

/-- The last step of a verdict: both currencies have an account, or the deal is invalid. -/
theorem accountsVerdict_cases (nsi : ReferenceData) {deal : FXDeal} {counter : Decimal}
    (hcounter : counterAmount deal = some counter) (valueDate : Date) :
    (∃ buy sell d₁ d₂, nsi.nostroByCurrency deal.buyCurrency = some buy ∧
        nsi.nostroByCurrency deal.sellCurrency = some sell ∧
        accountsVerdict nsi deal valueDate = .valid valueDate
          [(⟨deal.amount, deal.buyCurrency, d₁, valueDate⟩, buy.accountNumber.val),
            (⟨counter, deal.sellCurrency, d₂, valueDate⟩, sell.accountNumber.val)]) ∨
      ((∀ buy sell, nsi.nostroByCurrency deal.buyCurrency = some buy →
          nsi.nostroByCurrency deal.sellCurrency ≠ some sell) ∧
        ∃ issues, accountsVerdict nsi deal valueDate = .invalid issues) := by
  simp only [accountsVerdict, calculatePayments, hcounter, Option.map_some]
  cases hdirection : deal.operationDirection <;>
    cases hbuy : nsi.nostroByCurrency deal.buyCurrency <;>
      cases hsell : nsi.nostroByCurrency deal.sellCurrency <;>
        simp [assignNostro, hbuy, hsell]

section Range

variable (nsi : ReferenceData) (id : UUID) (r : DealRecord) (email : String)

/-- The limit check fails only where it computes a counter amount that does not fit. -/
theorem checkLimits_ne_none_iff :
    checkLimits (nsi.activeLimits r.row.counterpartyId.val) (FXDeal.ofRecord nsi id r) ≠ none ↔
      (nsi.activeLimits r.row.counterpartyId.val ≠ [] → product r.row + 500000 < 10 ^ 34) := by
  rw [← counterAmount_isSome_iff nsi id]
  cases hlimits : nsi.activeLimits r.row.counterpartyId.val with
  | nil => simp [checkLimits]
  | cons limit limits =>
    cases hc : counterAmount (FXDeal.ofRecord nsi id r) <;> simp [checkLimits, hc]

/-- The settlement step stays within the dates. -/
theorem settlement_ne_overflow_iff :
    settlement nsi (FXDeal.ofRecord nsi id r) ≠ .error .overflowError ↔
      r.row.tradeDate.ordinal + 31 ≤ maxOrdinal ∧ (r.row.dealType ≠ .forward →
        r.row.tradeDate.ordinal + 366 < maxOrdinal ∨ daysBefore r.row.dealType <
          countIn nsi.effectiveCalendar.Business (firstDay r.row.tradeDate r.row.dealType)
            (r.row.tradeDate.ordinal + 30)) := by
  rw [Ne, settlement_eq_overflow_iff, FXDeal.ofRecord_tradeDate, FXDeal.ofRecord_loadedDealType,
    not_or, not_and, not_and, not_lt]
  refine and_congr_right fun _ => forall_congr' fun _ => ?_
  rw [← not_lt, not_le]
  exact or_iff_not_imp_left.symm

variable {nsi id r email}

/-- A deal for which no payment is booked stays within range if the dates and the counter amount
do. -/
theorem WithinRange.of_unbooked
    (hlimits : Checked nsi (FXDeal.ofRecord nsi id r) →
      nsi.activeLimits r.row.counterpartyId.val ≠ [] → product r.row + 500000 < 10 ^ 34)
    (hdates : Passed nsi (FXDeal.ofRecord nsi id r) →
      settlement nsi (FXDeal.ofRecord nsi id r) ≠ .error .overflowError)
    (hcounter : Passed nsi (FXDeal.ofRecord nsi id r) →
      (∃ valueDate, settlement nsi (FXDeal.ofRecord nsi id r) = .ok valueDate) →
        product r.row + 500000 < 10 ^ 34)
    (hunbooked : ∀ buy sell, ¬ Booked nsi (FXDeal.ofRecord nsi id r) buy sell)
    (hemail : ¬ Unsettled nsi (FXDeal.ofRecord nsi id r) → email.length ≤ 320) :
    WithinRange nsi id r email where
  limits := hlimits
  calendar h := ((settlement_ne_overflow_iff nsi id r).mp (hdates h)).1
  search h := ((settlement_ne_overflow_iff nsi id r).mp (hdates h)).2
  counter := hcounter
  column buy sell h := absurd h (hunbooked buy sell)
  accounts buy sell h := absurd h (hunbooked buy sell)
  email := hemail

/-- A deal that does not pass the checks is recorded as invalid. -/
theorem withinRange_of_not_passed (hnot : ¬ Passed nsi (FXDeal.ofRecord nsi id r))
    (hlimits : Checked nsi (FXDeal.ofRecord nsi id r) →
      nsi.activeLimits r.row.counterpartyId.val ≠ [] → product r.row + 500000 < 10 ^ 34) :
    WithinRange nsi id r email ↔ email.length ≤ 320 := by
  constructor
  · exact fun h => h.email fun hu => hnot ⟨hu.1, hu.2.1⟩
  · exact fun hemail => .of_unbooked hlimits (fun h => absurd h hnot) (fun h => absurd h hnot)
      (fun _ _ h => hnot h.passed) fun _ => hemail

/-- A deal with a value date is within range if what is left to do is. -/
theorem withinRange_of_settled {valueDate : Date} (hpassed : Passed nsi (FXDeal.ofRecord nsi id r))
    (hlimits : nsi.activeLimits r.row.counterpartyId.val ≠ [] → product r.row + 500000 < 10 ^ 34)
    (hsettled : settlement nsi (FXDeal.ofRecord nsi id r) = .ok valueDate) :
    WithinRange nsi id r email ↔
      (accountsVerdict nsi (FXDeal.ofRecord nsi id r) valueDate).Recordable email := by
  obtain ⟨hcalendar, hsearch⟩ := (settlement_ne_overflow_iff nsi id r).mp (by rw [hsettled]; simp)
  have hunsettled : ¬ Unsettled nsi (FXDeal.ofRecord nsi id r) := by
    rintro ⟨-, -, text, h⟩
    rw [hsettled] at h
    cases h
  cases hcounter : counterAmount (FXDeal.ofRecord nsi id r) with
  | none =>
    have hverdict : accountsVerdict nsi (FXDeal.ofRecord nsi id r) valueDate =
        .failed .invalidOperation := by
      simp [accountsVerdict, calculatePayments, hcounter]
    rw [hverdict]
    refine iff_of_false (fun h => ?_) not_false
    have hsome := (counterAmount_isSome_iff nsi id).mpr (h.counter hpassed ⟨_, hsettled⟩)
    rw [hcounter] at hsome
    cases hsome
  | some counter =>
    have hproduct : product r.row + 500000 < 10 ^ 34 :=
      (counterAmount_isSome_iff nsi id).mp (Option.isSome_of_eq_some hcounter)
    rcases accountsVerdict_cases nsi hcounter valueDate with
      ⟨buy, sell, d₁, d₂, hbuy, hsell, hverdict⟩ | ⟨hmissing, issues, hverdict⟩
    · rw [hverdict]
      have hbooked : Booked nsi (FXDeal.ofRecord nsi id r) buy sell :=
        ⟨hpassed, ⟨_, hsettled⟩, hbuy, hsell⟩
      have hfits := counterAmount_fits_iff hcounter
      constructor
      · intro h
        obtain ⟨haccount, haccount'⟩ := h.accounts buy sell hbooked
        refine ⟨?_, h.email hunsettled⟩
        refine List.forall_mem_cons.mpr ⟨⟨?_, r.row.buyCurrency.fits, haccount⟩,
          List.forall_mem_singleton.mpr ⟨?_, r.row.sellCurrency.fits, haccount'⟩⟩
        · exact Option.isSome_of_eq_some (Numeric.ofDecimal_toDecimal r.row.amount)
        · exact hfits.mpr (h.column buy sell hbooked)
      · rintro ⟨hbookable, hemail⟩
        obtain ⟨hfirst, hsecond⟩ := List.forall_mem_cons.mp hbookable
        have hsecond := List.forall_mem_singleton.mp hsecond
        have hsame : ∀ {buy' sell'}, Booked nsi (FXDeal.ofRecord nsi id r) buy' sell' →
            buy' = buy ∧ sell' = sell := fun h =>
          ⟨Option.some.inj (h.buy.symm.trans hbuy), Option.some.inj (h.sell.symm.trans hsell)⟩
        exact {
          limits := fun _ => hlimits
          calendar := fun _ => hcalendar
          search := fun _ => hsearch
          counter := fun _ _ => hproduct
          column := fun _ _ _ => hfits.mp hsecond.amount
          accounts := fun _ _ h => by
            obtain ⟨rfl, rfl⟩ := hsame h
            exact ⟨hfirst.accountCode, hsecond.accountCode⟩
          email := fun _ => hemail }
    · rw [hverdict]
      constructor
      · exact fun h => h.email hunsettled
      · exact fun hemail => .of_unbooked (fun _ => hlimits) (fun _ => by rw [hsettled]; simp)
          (fun _ _ => hproduct) (fun buy sell h => hmissing buy sell h.buy h.sell) fun _ => hemail

/-- **Within its ranges**, a validation gives a verdict that can be recorded. -/
theorem withinRange_iff :
    WithinRange nsi id r email ↔ (verdict nsi (FXDeal.ofRecord nsi id r)).Recordable email := by
  by_cases hchecked : Checked nsi (FXDeal.ofRecord nsi id r)
  case neg =>
    rw [verdict_of_issues hchecked]
    exact withinRange_of_not_passed (fun h => hchecked h.1) fun h => absurd h hchecked
  rw [verdict_of_checked hchecked]
  have hrange := checkLimits_ne_none_iff nsi id r
  rw [← FXDeal.ofRecord_counterpartyId nsi id r] at hrange
  cases hlimits : checkLimits (nsi.activeLimits (FXDeal.ofRecord nsi id r).counterpartyId)
      (FXDeal.ofRecord nsi id r) with
  | none => exact iff_of_false (fun h => hrange.mpr (h.limits hchecked) hlimits) not_false
  | some issues =>
    have hrange := hrange.mp (by rw [hlimits]; exact Option.some_ne_none _)
    cases issues with
    | cons issue issues =>
      refine withinRange_of_not_passed (fun h => ?_) fun _ => hrange
      have := h.2
      rw [hlimits] at this
      cases this
    | nil =>
      have hpassed : Passed nsi (FXDeal.ofRecord nsi id r) := ⟨hchecked, hlimits⟩
      cases hsettlement : settlement nsi (FXDeal.ofRecord nsi id r) with
      | ok valueDate => exact withinRange_of_settled hpassed hrange hsettlement
      | error err =>
        cases err with
        | overflowError =>
          exact iff_of_false (fun h => (settlement_ne_overflow_iff nsi id r).mpr
            ⟨h.calendar hpassed, h.search hpassed⟩ hsettlement) not_false
        | valueError text =>
          have hnone : ¬ ∃ valueDate,
              settlement nsi (FXDeal.ofRecord nsi id r) = .ok valueDate := by
            rintro ⟨d, hd⟩
            rw [hsettlement] at hd
            cases hd
          exact iff_of_true (.of_unbooked (fun _ => hrange) (fun _ => by rw [hsettlement]; simp)
            (fun _ h => absurd h hnone) (fun _ _ h => hnone h.settled)
            fun h => absurd ⟨hchecked, hlimits, text, hsettlement⟩ h) trivial

end Range

end FxDealManager
