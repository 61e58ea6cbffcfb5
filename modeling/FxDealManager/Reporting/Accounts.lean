import FxDealManager.Lifecycle.Run
import FxDealManager.Services.RegulatoryReport

/-!
# Accounts written and read back

A payment is assigned the number of the first active account of its currency; a report looks the
number up among all accounts, where the last one counts. The two agree on the accounts whose number
no later account has.

## Main definitions

* `ReferenceData.forReport`: the dictionaries of a report
* `ReferenceData.Superseded`: a later account has the number of this one

## Main results

* `resolveNostro_number`: the account that the number of an account stands for
* `resolved_iff`: when the assigned accounts are found again
-/

namespace FxDealManager

open DecimalArithmetic Transactional

namespace ReferenceData

/-- The dictionaries that a report reads from the tables. -/
def forReport (nsi : ReferenceData) : ReportNsi where
  currencies := nsi.currency?
  nostroByNumber := nsi.nostroByAccountNumber
  nostroById := nsi.nostroById

/-- A later account in the order of the ids, active or not, has the number of this one. -/
def Superseded (nsi : ReferenceData) (account : NostroAccount) : Prop :=
  ∃ before later, nsi.nostroAccounts = before ++ account :: later ∧
    ∃ other ∈ later, other.accountNumber.val = account.accountNumber.val

variable {nsi : ReferenceData} {account : NostroAccount}

theorem nodup_nostroAccounts (nsi : ReferenceData) : nsi.nostroAccounts.Nodup :=
  .of_map _ nsi.nostro_key

/-- The dictionary of the numbers holds the last account of a number. -/
theorem nostroByAccountNumber_eq_some_iff {number : String} :
    nsi.nostroByAccountNumber number = some account ↔ account.accountNumber.val = number ∧
      ∃ before later, nsi.nostroAccounts = before ++ account :: later ∧
        ∀ other ∈ later, other.accountNumber.val ≠ number := by
  simp only [nostroByAccountNumber, List.find?_eq_some_iff_append, decide_eq_true_eq,
    Bool.not_eq_true', decide_eq_false_iff_not]
  refine and_congr_right fun _ => ⟨?_, ?_⟩
  · rintro ⟨later, before, hsplit, hlater⟩
    refine ⟨before.reverse, later.reverse, ?_,
      fun other hother => hlater other (by simpa using hother)⟩
    simpa using congrArg List.reverse hsplit
  · rintro ⟨before, later, hsplit, hlater⟩
    exact ⟨later.reverse, before.reverse, by simp [hsplit], fun other hother =>
      hlater other (by simpa using hother)⟩

/-- An account that is not superseded is the one its number stands for, and no other is. -/
theorem nostroByAccountNumber_self_iff (hmem : account ∈ nsi.nostroAccounts) :
    nsi.nostroByAccountNumber account.accountNumber.val = some account ↔
      ¬ nsi.Superseded account := by
  rw [nostroByAccountNumber_eq_some_iff]
  constructor
  · rintro ⟨-, before, later, hsplit, hlater⟩ ⟨before', later', hsplit', other, hother, hnumber⟩
    have hnodup : (before ++ account :: later).Nodup := hsplit ▸ nsi.nodup_nostroAccounts
    have hnotMem : account ∉ before ++ later := (List.nodup_middle.mp hnodup).notMem
    rw [List.mem_append, not_or] at hnotMem
    rw [hsplit, List.append_cons_inj_of_notMem hnotMem.1 hnotMem.2] at hsplit'
    obtain ⟨-, -, rfl⟩ := hsplit'
    exact hlater other hother hnumber
  · intro hnot
    obtain ⟨before, later, hsplit⟩ := List.append_of_mem hmem
    refine ⟨rfl, before, later, hsplit, fun other hother hnumber => hnot ?_⟩
    exact ⟨before, later, hsplit, other, hother, hnumber⟩

end ReferenceData

/-- The number of an account stands for this account if and only if no later one has it; an id that
equals the number plays no part. -/
theorem resolveNostro_number {nsi : ReferenceData} {account : NostroAccount}
    (hmem : account ∈ nsi.nostroAccounts) :
    nsi.forReport.resolveNostro account.accountNumber.val = some account ↔
      ¬ nsi.Superseded account := by
  rw [← ReferenceData.nostroByAccountNumber_self_iff hmem]
  have hfound : (nsi.nostroByAccountNumber account.accountNumber.val).isSome := by
    rw [ReferenceData.nostroByAccountNumber, List.find?_isSome]
    exact ⟨account, List.mem_reverse.mpr hmem, by simp⟩
  obtain ⟨found, hfound⟩ := Option.isSome_iff_exists.mp hfound
  simp [ReportNsi.resolveNostro, ReferenceData.forReport, hfound]

/-- The payments that are assigned an account are those whose currency has one, and they are
assigned its number. -/
theorem mem_assignNostro {nostroByCurrency : String → Option NostroAccount}
    {payments : List CalculatedPayment} {a : CalculatedPayment × String} :
    a ∈ (assignNostro nostroByCurrency payments).1 ↔ a.1 ∈ payments ∧
      ∃ nostro, nostroByCurrency a.1.currencyCode = some nostro ∧
        a.2 = nostro.accountNumber.val := by
  induction payments with
  | nil => simp [assignNostro]
  | cons payment payments ih =>
    obtain ⟨p, code⟩ := a
    simp only [assignNostro, List.mem_cons] at ih ⊢
    cases hn : nostroByCurrency payment.currencyCode with
    | none =>
      simp only [ih]
      constructor
      · rintro ⟨hp, hnostro⟩
        exact ⟨.inr hp, hnostro⟩
      · rintro ⟨rfl | hp, nostro, hnostro, hcode⟩
        · rw [hn] at hnostro
          cases hnostro
        · exact ⟨hp, nostro, hnostro, hcode⟩
    | some nostro =>
      simp only [List.mem_cons, Prod.mk.injEq, ih]
      constructor
      · rintro (⟨rfl, rfl⟩ | ⟨hp, hnostro⟩)
        · exact ⟨.inl rfl, nostro, hn, rfl⟩
        · exact ⟨.inr hp, hnostro⟩
      · rintro ⟨rfl | hp, hnostro⟩
        · obtain ⟨nostro', hnostro', rfl⟩ := hnostro
          rw [hn] at hnostro'
          cases hnostro'
          exact .inl ⟨rfl, rfl⟩
        · exact .inr ⟨hp, hnostro⟩

/-- **Written and read back**: every payment that is assigned the number of an account resolves to
this account if and only if no later account has the number of one that is assigned. -/
theorem resolved_iff {nsi : ReferenceData} {payments : List CalculatedPayment} :
    (∀ a ∈ (assignNostro nsi.nostroByCurrency payments).1, ∀ account,
        nsi.nostroByCurrency a.1.currencyCode = some account →
          nsi.forReport.resolveNostro a.2 = some account) ↔
      ∀ p ∈ payments, ∀ account, nsi.nostroByCurrency p.currencyCode = some account →
        ¬ nsi.Superseded account := by
  have hmem : ∀ {code account}, nsi.nostroByCurrency code = some account →
      account ∈ nsi.nostroAccounts := fun h =>
    (List.mem_filter.mp (List.mem_of_find?_eq_some h)).1
  constructor
  · intro h p hp account haccount
    rw [← resolveNostro_number (hmem haccount)]
    exact h (p, _) (mem_assignNostro.mpr ⟨hp, account, haccount, rfl⟩) account haccount
  · rintro h ⟨p, code⟩ ha account haccount
    obtain ⟨hp, nostro, hnostro, hcode⟩ := mem_assignNostro.mp ha
    obtain rfl : nostro = account := by
      rw [show nsi.nostroByCurrency p.currencyCode = some account from haccount] at hnostro
      exact (Option.some.inj hnostro).symm
    rw [hcode]
    exact (resolveNostro_number (hmem haccount)).mpr (h p hp nostro haccount)

namespace Desk

/-- A closed account at another bank, under the same number. -/
def closedAccount : NostroAccount :=
  { eurAccount with
    id := ⟨"N-EUR-2", by decide⟩
    bankName := ⟨"Second bank", by decide⟩
    isActive := false }

/-- The reference data with both accounts. -/
def sharedNumberNsi : ReferenceData :=
  { nsi with
    nostroAccounts := [eurAccount, closedAccount]
    nostro_key := by decide }

/-- A payment in EUR that is received. -/
def eurPayment : CalculatedPayment :=
  ⟨⟨false, 10000, -2⟩, "EUR", .incoming, payload.tradeDate⟩

end Desk

/-- An account that is assigned to a payment need not be found again. -/
theorem account_superseded :
    ¬ ∀ (nsi : ReferenceData) (payments : List CalculatedPayment),
      ∀ a ∈ (assignNostro nsi.nostroByCurrency payments).1, ∀ account,
        nsi.nostroByCurrency a.1.currencyCode = some account →
          nsi.forReport.resolveNostro a.2 = some account := by
  intro h
  have hresolved := h Desk.sharedNumberNsi [Desk.eurPayment] (Desk.eurPayment, "40817978")
    (by decide +kernel) Desk.eurAccount (by decide +kernel)
  revert hresolved
  decide +kernel

end FxDealManager
