import FxDealManager.Validation.Storage

/-!
# What a successful validation leaves

A successful validation stores a value date and two payments. The value date is a business day of
the effective calendar, within 30 days from the trade date on, and both payments have it. The
first payment has the amount of the deal; the amount of the second one is rounded to cents, and
comes to nothing if amount times rate is less than half a cent.

## Main definitions

* `PaymentRow.MovesMoney`: the amount of a payment is positive

## Main results

* `settled_of_ok`: the payments that a successful validation has stored
* `value_date_business`: the value date and the payments after a successful validation
* `payments_positive_iff`: when both payments move money
* `payment_of_nothing`: a validation that stores a payment of 0.00
-/

namespace FxDealManager

open DecimalArithmetic Search Transactional

section Stored

variable {env : Env} {user : UserClaims} {db : Database} {id : UUID} {r : DealRecord}
  {response : DealResponse}

/-- A successful validation has found the deal valid and stored its payments. -/
theorem settled_of_ok (hr : db.deals.lookup id = some r)
    (h : (execute env user (.validate id) db).result = .ok response) :
    ∃ valueDate assigned s, Validation db.nsi (FXDeal.ofRecord db.nsi id r) valueDate assigned ∧
      (execute env user (.validate id) db).database.deals.lookup id = some s ∧
      s.row.valueDate = some valueDate ∧ Settled db.nsi id s ∧ SameDeal r.row s.row := by
  obtain ⟨valueDate, assigned, s, hverdict, hs, -, hdate, hbooks, hterms, htrade, htype,
    hcounterparty, -⟩ := saved_of_ok hr h
  have hvalid := verdict_eq_valid_iff.mp hverdict
  exact ⟨valueDate, assigned, s, hvalid, hs, hdate, settled_of_books hvalid hbooks hterms hdate,
    sameDeal_of_ok hverdict hdate hterms htrade htype hcounterparty⟩

/-! ## The value date -/

/-- **No value date lies in the past or on a holiday**: after a successful validation the deal and
both its payments have one value date, a business day of the effective calendar within 30 days from
the trade date on; for `TOD` the first one from the trade date on, for `TOM` the first and for
`SPOT` the second one after it. -/
theorem value_date_business (hr : db.deals.lookup id = some r)
    (h : (execute env user (.validate id) db).result = .ok response) :
    ∃ (d : Date) (s : DealRecord) (p₁ p₂ : PaymentRow),
      (execute env user (.validate id) db).database.deals.lookup id = some s ∧
      s.row.valueDate = some d ∧ s.payments = [p₁, p₂] ∧ p₁.valueDate = some d ∧
      p₂.valueDate = some d ∧ s.row.tradeDate = r.row.tradeDate ∧ r.row.tradeDate ≤ d ∧
      d.ordinal ≤ r.row.tradeDate.ordinal + 30 ∧
      db.nsi.effectiveCalendar.isBusinessDay d = true ∧
      (r.row.dealType = .tod →
        IsNth db.nsi.effectiveCalendar.Business r.row.tradeDate.ordinal 0 d.ordinal) ∧
      (r.row.dealType = .tom →
        IsNth db.nsi.effectiveCalendar.Business (r.row.tradeDate.ordinal + 1) 0 d.ordinal) ∧
      (r.row.dealType = .spot →
        IsNth db.nsi.effectiveCalendar.Business (r.row.tradeDate.ordinal + 1) 1 d.ordinal) := by
  obtain ⟨d, assigned, s, hvalid, hs, hdate, hsettled, hsame⟩ := settled_of_ok hr h
  obtain ⟨d', c₁, c₂, p₁, p₂, hdate', -, hpayments, -, -, hd₁, hd₂, -⟩ := hsettled
  rw [hdate] at hdate'
  cases hdate'
  obtain ⟨hwhole, -, htrade, hwindow⟩ :=
    settlement_eq_ok_iff_whole.mp (settlement_eq_ok_iff.mpr hvalid.settled)
  rw [wholeValueDate] at hwhole
  have hnth : r.row.dealType ≠ .forward → IsNth db.nsi.effectiveCalendar.Business
      (firstDay r.row.tradeDate r.row.dealType) (daysBefore r.row.dealType) d.ordinal :=
    fun htype => ((calculateValueDate_spec htype _ _ _).eq_ok_iff.mp hwhole).1
  have hbusiness : db.nsi.effectiveCalendar.isBusinessDay d = true := by
    by_cases htype : r.row.dealType = .forward
    · rw [show (FXDeal.ofRecord db.nsi id r).loadedDealType = .forward from htype,
        forward_eq_ok_iff] at hwhole
      exact hwhole.2
    · exact (Calendar.business_ordinal _ d).mp (hnth htype).holds
  refine ⟨d, s, p₁, p₂, hs, hdate, hpayments, hd₁, hd₂, hsame.tradeDate, htrade, hwindow,
    hbusiness, fun htype => ?_, fun htype => ?_, fun htype => ?_⟩
  all_goals
    have hnth := hnth (by rw [htype]; decide)
    rw [htype] at hnth
    exact hnth

/-! ## The amounts -/

/-- The amount of the payment is positive. -/
def PaymentRow.MovesMoney (p : PaymentRow) : Prop := 0 < p.amount.unscaled

theorem positive_toDecimal_iff {p s : ℕ} {n : Numeric p s} :
    n.toDecimal.positive = true ↔ 0 < n.unscaled := by
  have hpositive : n.toDecimal.positive = true ↔ ¬ n.unscaled < 0 ∧ n.unscaled.natAbs ≠ 0 := by
    simp [Decimal.positive, Numeric.toDecimal]
  rw [hpositive]
  omega

/-- **The counter amount is positive** if and only if amount times rate comes to half a cent. -/
theorem counterAmount_positive_iff {nsi : ReferenceData} {counter : Decimal}
    (hamount : 0 < r.row.amount.unscaled) (hrate : 0 < r.row.rate.unscaled)
    (h : counterAmount (FXDeal.ofRecord nsi id r) = some counter) :
    counter.positive = true ↔ 500000 ≤ product r.row := by
  have hnegative : counter.negative = false := by
    rw [Decimal.quantize_negative h]
    exact Decimal.mul_negative (positive_toDecimal_iff.mpr hamount)
      (positive_toDecimal_iff.mpr hrate)
  rw [counterAmount_eq] at h
  have hlt : counter.coefficient < 10 ^ 0 ↔ product r.row + 5 * 10 ^ 5 < 10 ^ (0 + 5 + 1) :=
    Decimal.quantize_fix_lt_iff (w := 0) (by decide) h
  simp only [Decimal.positive, hnegative, Bool.not_false, Bool.true_and, decide_eq_true_eq]
  omega

/-- **When both payments move money**: after a successful validation, the amounts of both payments
are positive if and only if amount times rate comes to half a cent. -/
theorem payments_positive_iff (hr : db.deals.lookup id = some r)
    (h : (execute env user (.validate id) db).result = .ok response) :
    ∃ s p₁ p₂, (execute env user (.validate id) db).database.deals.lookup id = some s ∧
      s.payments = [p₁, p₂] ∧ (p₁.MovesMoney ∧ p₂.MovesMoney ↔ 500000 ≤ product r.row) := by
  obtain ⟨d, assigned, s, hvalid, hs, -, hsettled, hsame⟩ := settled_of_ok hr h
  obtain ⟨_, c₁, c₂, p₁, p₂, -, hcalc, hpayments, hm₁, hm₂, -⟩ := hsettled
  obtain ⟨counter, _, _, hcounter, hlist, h₁, h₂, -⟩ := calculatePayments_eq_some hcalc
  cases hlist
  obtain ⟨-, hamount, hrate⟩ := of_validate_eq_nil hvalid.issues
  have hproduct : product s.row = product r.row := by
    rw [product, product, hsame.amount, hsame.rate]
  have hamount : 0 < s.row.amount.unscaled := by
    rw [hsame.amount]
    exact positive_toDecimal_iff.mp hamount
  have hrate : 0 < s.row.rate.unscaled := by
    rw [hsame.rate]
    exact positive_toDecimal_iff.mp hrate
  refine ⟨s, p₁, p₂, hs, hpayments, ?_⟩
  rw [PaymentRow.MovesMoney, PaymentRow.MovesMoney, ← positive_toDecimal_iff,
    ← positive_toDecimal_iff, hm₁.amount, hm₂.amount, h₁, h₂,
    counterAmount_positive_iff hamount hrate hcounter, hproduct]
  exact and_iff_right (positive_toDecimal_iff.mpr hamount)

end Stored

namespace Desk

/-- The trader creates a purchase of 0.01 USD for EUR at 0.1. -/
def smallCreation : List Input :=
  [.request (env 1) trader
    (.create { payload with
      amount := ⟨false, 1, -2⟩, rate := ⟨false, 1, -1⟩
      amount_pos := by decide, rate_pos := by decide })]

/-- The deal of 0.01 USD. -/
def small : DealRecord := ((after smallCreation).deals.lookup dealId).get (by decide +kernel)

end Desk

/-- The value date of the deal of the desk. -/
theorem value_date_business_desk : ∃ (d : Date) (s : DealRecord) (p₁ p₂ : PaymentRow),
    (execute (Desk.env 2) Desk.trader (.validate Desk.dealId)
      (Desk.after Desk.creation)).database.deals.lookup Desk.dealId = some s ∧
    s.row.valueDate = some d ∧ s.payments = [p₁, p₂] ∧ p₁.valueDate = some d ∧
    p₂.valueDate = some d ∧ s.row.tradeDate = Desk.created.row.tradeDate ∧
    Desk.created.row.tradeDate ≤ d ∧ d.ordinal ≤ Desk.created.row.tradeDate.ordinal + 30 ∧
    (Desk.after Desk.creation).nsi.effectiveCalendar.isBusinessDay d = true := by
  obtain ⟨response, hok⟩ := exists_ok_of_toBool (x := (execute (Desk.env 2) Desk.trader
    (.validate Desk.dealId) (Desk.after Desk.creation)).result) (by decide +kernel)
  obtain ⟨d, s, p₁, p₂, hs, hdate, hp, h₁, h₂, htrade, hle, hwindow, hbusiness, -⟩ :=
    value_date_business (r := Desk.created) (Option.some_get _).symm hok
  exact ⟨d, s, p₁, p₂, hs, hdate, hp, h₁, h₂, htrade, hle, hwindow, hbusiness⟩

/-- Both payments of the deal of the desk move money. -/
theorem payments_positive_desk : ∃ s p₁ p₂,
    (execute (Desk.env 2) Desk.trader (.validate Desk.dealId)
      (Desk.after Desk.creation)).database.deals.lookup Desk.dealId = some s ∧
    s.payments = [p₁, p₂] ∧ p₁.MovesMoney ∧ p₂.MovesMoney := by
  obtain ⟨response, hok⟩ := exists_ok_of_toBool (x := (execute (Desk.env 2) Desk.trader
    (.validate Desk.dealId) (Desk.after Desk.creation)).result) (by decide +kernel)
  obtain ⟨s, p₁, p₂, hs, hpayments, hiff⟩ :=
    payments_positive_iff (r := Desk.created) (Option.some_get _).symm hok
  exact ⟨s, p₁, p₂, hs, hpayments, hiff.mpr (by decide +kernel)⟩

/-- A purchase of 0.01 USD at 0.1 is valid, with a payment of 0.00 EUR. -/
theorem payment_of_nothing :
    ¬ ∀ (env : Env) (user : UserClaims) (db : Database) (id : UUID) (r : DealRecord) response,
      db.deals.lookup id = some r → 0 < r.row.amount.unscaled → 0 < r.row.rate.unscaled →
        (execute env user (.validate id) db).result = .ok response →
          ∀ s, (execute env user (.validate id) db).database.deals.lookup id = some s →
            ∀ p ∈ s.payments, p.MovesMoney := by
  intro h
  have hr : (Desk.after Desk.smallCreation).deals.lookup Desk.dealId = some Desk.small :=
    (Option.some_get _).symm
  obtain ⟨response, hok⟩ := exists_ok_of_toBool (x := (execute (Desk.env 2) Desk.trader
    (.validate Desk.dealId) (Desk.after Desk.smallCreation)).result) (by decide +kernel)
  have hamounts : (((execute (Desk.env 2) Desk.trader (.validate Desk.dealId)
      (Desk.after Desk.smallCreation)).database.deals.lookup Desk.dealId).map
        fun s => s.payments.map (·.amount.unscaled)) = some [1, 0] := by
    decide +kernel
  obtain ⟨s, hs, hstored⟩ := Option.map_eq_some_iff.mp hamounts
  have hmoves := h _ _ _ _ _ _ hr (by decide +kernel) (by decide +kernel) hok s hs
  have hmem : (0 : ℤ) ∈ s.payments.map (·.amount.unscaled) := by rw [hstored]; decide
  obtain ⟨p, hp, hzero⟩ := List.mem_map.mp hmem
  exact absurd (hmoves p hp) (by rw [PaymentRow.MovesMoney, hzero]; decide)

end FxDealManager
