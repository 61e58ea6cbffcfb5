import FxDealManager.Validation.Payments

/-!
# Limits and payments

The limit check computes the amounts of both legs on its own, from the terms of the deal. It covers
what is paid: after a successful validation, and again after a successful submission, every stored
payment stays within the limit that is found for it among the limits that are active then.

## Main definitions

* `DealLimit.Applies`: a limit is active and meant for a counterparty and a currency
* `ReferenceData.Covers`: a payment to a counterparty has no limit, or stays within the best one

## Main results

* `findBestLimit_eq_none_iff`: no limit is found if and only if none applies
* `covers_of_checkLimits`: the limit check covers the payments that match the terms
* `limits_cover_payments`: what is covered after a validation and after a submission
-/

namespace FxDealManager

open DecimalArithmetic Transactional

/-! ## The limit of a payment -/

/-- The limit is active, and meant for the counterparty and the currency. -/
structure DealLimit.Applies (l : DealLimit) (counterpartyId currencyCode : String) : Prop where
  active : l.isActive = true
  counterpartyId : ∀ c ∈ l.counterpartyId, c.val = counterpartyId
  currencyCode : ∀ c ∈ l.currencyCode, c.val = currencyCode

/-- No active limit applies to the payment, or its amount is not above the best one. -/
def ReferenceData.Covers (nsi : ReferenceData) (counterpartyId : String) (p : PaymentRow) : Prop :=
  (∀ l ∈ nsi.dealLimits, ¬ l.Applies counterpartyId p.currencyCode.val) ∨
    ∃ l, findBestLimit (nsi.activeLimits counterpartyId) counterpartyId p.currencyCode.val =
      some l ∧ p.amount.unscaled ≤ l.maxAmount.unscaled

section Limits

variable {nsi : ReferenceData} {counterpartyId currencyCode : String}

/-- **No limit is found** if and only if none applies. -/
theorem findBestLimit_eq_none_iff :
    findBestLimit (nsi.activeLimits counterpartyId) counterpartyId currencyCode = none ↔
      ∀ l ∈ nsi.dealLimits, ¬ l.Applies counterpartyId currencyCode := by
  have hmax : ∀ (key : DealLimit → ℕ × ℕ) (limits : List DealLimit),
      maxByKey key limits = none ↔ limits = [] := by
    intro key limits
    cases limits <;> simp [maxByKey]
  rw [findBestLimit, hmax, ReferenceData.activeLimits, List.filter_filter,
    List.filter_eq_nil_iff]
  refine forall₂_congr fun l _ => not_congr ?_
  simp only [Bool.and_eq_true, Option.all_eq_true, decide_eq_true_eq]
  constructor
  · rintro ⟨⟨hcounterparty, hcurrency⟩, hactive, -⟩
    exact ⟨hactive, hcounterparty, hcurrency⟩
  · rintro ⟨hactive, hcounterparty, hcurrency⟩
    exact ⟨⟨hcounterparty, hcurrency⟩, hactive, hcounterparty⟩

theorem limitIssue_eq_nil_iff {limits : List DealLimit} {label : String} {amount : Decimal} :
    limitIssue limits counterpartyId currencyCode label amount = [] ↔
      ∀ l ∈ findBestLimit limits counterpartyId currencyCode,
        l.maxAmount.toDecimal.lt amount = false := by
  rw [limitIssue]
  cases findBestLimit limits counterpartyId currencyCode with
  | none => simp
  | some l => cases hlt : l.maxAmount.toDecimal.lt amount <;> simp [hlt]

theorem toDecimal_lt {p s : ℕ} {m n : Numeric p s} :
    m.toDecimal.lt n.toDecimal = decide (m.unscaled < n.unscaled) := by
  have hscaled : ∀ k : Numeric p s, k.toDecimal.scaled (-s) = k.unscaled := by
    intro k
    simp only [Decimal.scaled, Numeric.toDecimal, sub_self, Int.toNat_zero, pow_zero, mul_one,
      decide_eq_true_eq]
    split <;> omega
  rw [Decimal.lt, show min m.toDecimal.exponent n.toDecimal.exponent = -(s : ℤ) from min_self _,
    hscaled, hscaled]

/-- Without limits there are no complaints either, so that the short cut changes nothing. -/
theorem checkLimits_eq_nil_iff {limits : List DealLimit} {deal : FXDeal} {counter : Decimal}
    (hcounter : counterAmount deal = some counter) :
    checkLimits limits deal = some [] ↔
      limitIssue limits deal.counterpartyId deal.buyCurrency "Deal" deal.amount = [] ∧
        limitIssue limits deal.counterpartyId deal.sellCurrency "Counter" counter = [] := by
  rw [checkLimits, hcounter]
  cases limits with
  | nil => simp [limitIssue, findBestLimit, maxByKey]
  | cons l limits => simp

/-- A payment of the amount that a limit check passed is covered. -/
theorem covers_of_limitIssue {p : PaymentRow} {label : String} {amount : Decimal}
    (hcurrency : p.currencyCode.val = currencyCode) (hamount : p.amount.toDecimal = amount)
    (h : limitIssue (nsi.activeLimits counterpartyId) counterpartyId currencyCode label amount =
      []) : nsi.Covers counterpartyId p := by
  subst hcurrency hamount
  rw [limitIssue_eq_nil_iff] at h
  cases hbest : findBestLimit (nsi.activeLimits counterpartyId) counterpartyId
      p.currencyCode.val with
  | none => exact .inl (findBestLimit_eq_none_iff.mp hbest)
  | some l =>
    have hle := h l hbest
    rw [toDecimal_lt, decide_eq_false_iff_not, not_lt] at hle
    exact .inr ⟨l, hbest, hle⟩

/-- The two payments are one of the amount in the currency bought and one of the counter amount in
the currency sold, whatever the direction. -/
theorem currencies_of_calculatePayments {deal : FXDeal} {valueDate : Date}
    {c₁ c₂ : CalculatedPayment} (h : calculatePayments deal valueDate = some [c₁, c₂]) :
    counterAmount deal = some c₂.amount ∧ c₁.amount = deal.amount ∧
      c₁.currencyCode = deal.buyCurrency ∧ c₂.currencyCode = deal.sellCurrency := by
  obtain ⟨counter, hcounter, hlist⟩ := Option.map_eq_some_iff.mp h
  cases hdirection : deal.operationDirection with
  | buy | sell =>
    rw [hdirection] at hlist
    cases hlist
    exact ⟨hcounter, rfl, rfl, rfl⟩

/-- **The limit check covers the payments** that match the terms it has read. -/
theorem covers_of_checkLimits {nsi' : ReferenceData} {id : UUID} {r : DealRecord}
    (h : checkLimits (nsi.activeLimits r.row.counterpartyId.val) (FXDeal.ofRecord nsi' id r) =
      some []) (hsettled : Settled nsi' id r) :
    ∀ p ∈ r.payments, nsi.Covers r.row.counterpartyId.val p := by
  obtain ⟨_, c₁, c₂, p₁, p₂, -, hcalc, hpayments, hm₁, hm₂, -⟩ := hsettled
  obtain ⟨hcounter, hamount, hbuy, hsell⟩ := currencies_of_calculatePayments hcalc
  obtain ⟨hdeal, hcounterLeg⟩ := (checkLimits_eq_nil_iff hcounter).mp h
  rw [hpayments]
  refine List.forall_mem_cons.mpr ⟨?_, List.forall_mem_singleton.mpr ?_⟩
  · exact covers_of_limitIssue (hm₁.currencyCode.trans hbuy) (hm₁.amount.trans hamount) hdeal
  · exact covers_of_limitIssue (hm₂.currencyCode.trans hsell) hm₂.amount hcounterLeg

end Limits

/-! ## After a validation and after a submission -/

/-- **What is paid is what was checked**, in every run: after a validation and after a submission
that succeed, each stored payment of the deal has no active limit that applies to it, or is not
above the one that is found for its counterparty and its currency. -/
theorem limits_cover_payments {nsi : ReferenceData} {history : List ServiceTurn} {db : Database}
    (h : Run step (Database.initial nsi) history db) {env : Env} {user : UserClaims}
    {op : Operation} {id : UUID} (hop : op = .validate id ∨ op = .submit id)
    {response : DealResponse} (hok : (execute env user op db).result = .ok response) :
    ∃ s, (execute env user op db).database.deals.lookup id = some s ∧ s.payments ≠ [] ∧
      ∀ p ∈ s.payments, db.nsi.Covers s.row.counterpartyId.val p := by
  obtain ⟨id', log, sends, after, -, hexit, hreplay, hexec⟩ := exit_of_ok hok
  rcases hop with rfl | rfl
  · cases hexit with
    | validated hr _ _ _ _ =>
      obtain ⟨_, _, s, hvalid, hs, -, hsettled, hsame⟩ := settled_of_ok hr hok
      have hlimits := hvalid.limits
      rw [FXDeal.ofRecord_counterpartyId, ← hsame.counterpartyId,
        ← checkLimits_congr db.nsi id id hsame] at hlimits
      exact ⟨s, hs, hsettled.ne_nil, covers_of_checkLimits hlimits hsettled⟩
    | moved hr hmoves _ _ _ => cases hmoves
    | declined _ hdeclines _ _ _ _ _ => cases hdeclines
  · cases hexit with
    | declined _ hdeclines _ _ _ _ _ => cases hdeclines
    | moved hr hmoves _ hlimits _ =>
      cases hmoves with
      | submit hstate hvalid =>
        have hinv := paymentsInv_run h _ _ hr db.nsi
        have hne := hinv.valid hvalid
        have hcovers := covers_of_checkLimits (hlimits rfl) (hinv.settled.resolve_left hne)
        rw [hexec]
        exact ⟨_, lookup_moved hreplay hr, hne, hcovers⟩

/-- What the submission of the deal of the desk has checked. -/
theorem limits_cover_payments_desk :
    ∃ s, (execute (Desk.env 3) Desk.trader (.submit Desk.dealId)
        (Desk.after Desk.validation)).database.deals.lookup Desk.dealId = some s ∧
      s.payments ≠ [] ∧
      ∀ p ∈ s.payments, (Desk.after Desk.validation).nsi.Covers s.row.counterpartyId.val p := by
  obtain ⟨response, hok⟩ := exists_ok_of_toBool (x := (execute (Desk.env 3) Desk.trader
    (.submit Desk.dealId) (Desk.after Desk.validation)).result) (by decide +kernel)
  have hrun : Run step (Database.initial Desk.nsi) _ (Desk.after Desk.validation) :=
    run_serveAll step (Database.initial Desk.nsi) Desk.validation
  exact limits_cover_payments hrun (.inr rfl) hok

end FxDealManager
