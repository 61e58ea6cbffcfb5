import FxDealManager.Reporting.Accounts
import FxDealManager.Repositories.ExactRules

/-!
# How a report fails

The check before the export walks over the valid deals, the export over all deals of the report. So
the report fails in a way of its own where a deal that was not validated names a currency that is
not known.

## Main definitions

* `ReportNsi.Complete`: nothing is missing for a deal
* `ReportNsi.Known`: both currencies of a deal are known
* `Documented`: the ends of a report that are documented

## Main results

* `validateNsi_eq_nil_iff`: the check finds everything that is missing
* `generate_from`: every way in which a report may end
* `generate_result`: how a report ends if nothing is rejected
* `generate_documented_iff`: when a report ends as documented
-/

namespace FxDealManager

open DecimalArithmetic Transactional

/-! ## The check -/

/-- Nothing is missing for the export of the deal. -/
structure ReportNsi.Complete (nsi : ReportNsi) (deal : FXDeal) : Prop where
  counterparty : ∃ counterparty ∈ deal.counterparty, counterparty.id.val ≠ "" ∧
    counterparty.name.val ≠ "" ∧ ∃ bic ∈ counterparty.bic, bic.val ≠ ""
  buyCurrency : (nsi.currencies deal.buyCurrency).isSome
  sellCurrency : (nsi.currencies deal.sellCurrency).isSome
  accounts : ∀ payment ∈ deal.payments, ∃ code ∈ payment.accountCode, code ≠ "" ∧
    ∃ nostro, nsi.resolveNostro code = some nostro ∧ nostro.isActive = true

/-- Both currencies of the deal are known. -/
structure ReportNsi.Known (nsi : ReportNsi) (deal : FXDeal) : Prop where
  buyCurrency : (nsi.currencies deal.buyCurrency).isSome
  sellCurrency : (nsi.currencies deal.sellCurrency).isSome

theorem ReportNsi.Complete.known {nsi : ReportNsi} {deal : FXDeal} (h : nsi.Complete deal) :
    nsi.Known deal :=
  ⟨h.buyCurrency, h.sellCurrency⟩

section Check

variable {nsi : ReportNsi} {dealId : String}

theorem counterpartyErrors_eq_nil_iff {counterparty : Option Counterparty} :
    counterpartyErrors dealId counterparty = [] ↔ ∃ c ∈ counterparty, c.id.val ≠ "" ∧
      c.name.val ≠ "" ∧ ∃ bic ∈ c.bic, bic.val ≠ "" := by
  cases counterparty with
  | none => simp [counterpartyErrors]
  | some c =>
    obtain ⟨id, name, bic, country, isActive⟩ := c
    cases bic <;> simp [counterpartyErrors]

theorem currencyErrors_eq_nil_iff {field code : String} :
    currencyErrors nsi dealId field code = [] ↔ (nsi.currencies code).isSome := by
  unfold currencyErrors
  split <;> simp_all

theorem accountErrors_eq_nil_iff {payment : Payment} :
    accountErrors nsi dealId payment = [] ↔ ∃ code ∈ payment.accountCode, code ≠ "" ∧
      ∃ nostro, nsi.resolveNostro code = some nostro ∧ nostro.isActive = true := by
  unfold accountErrors
  cases hcode : payment.accountCode with
  | none => simp
  | some code =>
    by_cases hempty : code = ""
    · simp [Option.filter, hempty]
    · cases hnostro : nsi.resolveNostro code with
      | none => simp [Option.filter, hempty, hnostro]
      | some nostro => simp [Option.filter, hempty, hnostro]

/-- **The check is complete**: it has no complaint if and only if nothing is missing for the valid
deals. -/
theorem validateNsi_eq_nil_iff {deals : List FXDeal} :
    validateNsi nsi deals = [] ↔
      ∀ deal ∈ deals, deal.validationStatus = .valid → nsi.Complete deal := by
  simp only [validateNsi, List.flatMap_eq_nil_iff]
  refine forall₂_congr fun deal _ => ?_
  by_cases hvalid : deal.validationStatus = .valid
  · simp only [hvalid, ne_eq, not_true_eq_false, if_false, List.append_eq_nil_iff,
      counterpartyErrors_eq_nil_iff, currencyErrors_eq_nil_iff, List.flatMap_eq_nil_iff,
      accountErrors_eq_nil_iff, forall_const]
    exact ⟨fun ⟨⟨⟨h₁, h₂⟩, h₃⟩, h₄⟩ => ⟨h₁, h₂, h₃, h₄⟩,
      fun ⟨h₁, h₂, h₃, h₄⟩ => ⟨⟨⟨h₁, h₂⟩, h₃⟩, h₄⟩⟩
  · simp [hvalid]

end Check

/-! ## The report -/

/-- What a report of the given deals comes to, if the database rejects nothing: items or a missing
key, complaints that are recorded, or a user whom the audit log cannot name. -/
def reported (nsi : ReportNsi) (deals : List FXDeal) (createdBy : String) :
    Except ServiceError (Except ReportError (List RegulatoryItem)) :=
  if validateNsi nsi deals = [] then .ok (deals.mapM (serializeDeal nsi))
  else if createdBy.length ≤ 320 then .ok (.error (.incomplete (validateNsi nsi deals)))
  else .error (.database (.stringTooLong "created_by"))

section Report

variable {env : Env} {db : Database} {filter : ReportFilter} {createdBy : String}

/-- **Every ending**: a report has items, or its complaints are recorded, unless the audit log
cannot name the user or the database rejects something. -/
theorem generate_from
    {Q : Except ServiceError (Except ReportError (List RegulatoryItem)) → ServiceProgress → Prop}
    (hrej : ∀ c : ServiceProgress, c.committed = db → c.MayReject env Q)
    (hitems : validateNsi db.nsi.forReport (listDealsForRegulatoryReport filter db) = [] →
      Q (.ok ((listDealsForRegulatoryReport filter db).mapM (serializeDeal db.nsi.forReport)))
        (Progress.start db))
    (hlong : validateNsi db.nsi.forReport (listDealsForRegulatoryReport filter db) ≠ [] →
      ¬ createdBy.length ≤ 320 →
        Q (.error (.database (.stringTooLong "created_by"))) (Progress.start db))
    (hfail : validateNsi db.nsi.forReport (listDealsForRegulatoryReport filter db) ≠ [] →
      ∀ (entry : AuditLogEntry) err, entry.id = env.uuid 0 →
        replay [Statement.insertAudit entry] db = .error err → Q (.error err) (Progress.start db))
    (hrecorded : validateNsi db.nsi.forReport (listDealsForRegulatoryReport filter db) ≠ [] →
      createdBy.length ≤ 320 → ∀ entry d, replay [Statement.insertAudit entry] db = .ok d →
        Q (.ok (.error (.incomplete
          (validateNsi db.nsi.forReport (listDealsForRegulatoryReport filter db)))))
          ((Progress.start db).executing [.insertAudit entry] d).committing) :
    (generate filter createdBy).EnsuresFrom env (Progress.start db) 0 Q := by
  refine lookupCode_from (hrej _ rfl) (.query_bind (hrej _ rfl) ?_)
  refine .query_bind (hrej _ rfl) (.query_bind (hrej _ rfl) (.query_bind (hrej _ rfl) ?_))
  rw [Progress.start_work]
  dsimp only
  split
  next herrors =>
    refine .bind_assoc (freshId_from (.bind_assoc (.ask_bind (.bind_assoc ?_))))
    refine ofDb_from (fun err herr => ?_) fun name hname => ?_
    · obtain ⟨hfits, rfl⟩ := too_long_of_storeColumn herr
      exact hlong herrors hfits
    · have hfits : createdBy.length ≤ 320 :=
        Varchar.ofString_isSome.mp (Option.isSome_of_eq_some (storeColumn_eq_ok.mp hname))
      refine executeAll_from (hrej _ rfl) (fun err hreplay => ?_) fun d hd => ?_
      · exact hfail herrors _ err rfl hreplay
      · exact .commit_bind (hrej _ rfl) (.pure (hrecorded herrors hfits _ d hd))
  next herrors => exact .pure (hitems (not_not.mp herrors))

/-- **How a report ends**, if the database rejects no call and the identifier drawn is new. -/
theorem generate_result (hcalm : ∀ n, rejects env n = false)
    (hfresh : db.audit.any (·.id = env.uuid 0) = false) :
    ((generate filter createdBy).run env db).1 =
      reported db.nsi.forReport (listDealsForRegulatoryReport filter db) createdBy := by
  suffices h : (generate filter createdBy).EnsuresFrom env (Progress.start db) 0 fun result _ =>
      result = reported db.nsi.forReport (listDealsForRegulatoryReport filter db) createdBy from
    h.run
  refine generate_from (fun _ _ => .of_calm hcalm) (fun hnone => ?_) (fun herrors hlong => ?_)
    (fun _ entry err hid hreplay => ?_) fun herrors hfits _ _ _ => ?_
  · exact (if_pos hnone).symm
  · rw [reported, if_neg herrors, if_neg hlong]
  · simp [replay, Store.exec, Statement.exec, hid, hfresh, Except.mapError] at hreplay
  · rw [reported, if_neg herrors, if_pos hfits]

end Report

/-! ## Documented ends -/

/-- The documented ends of a report: one item for each deal, or complaints. -/
def Documented (deals : List FXDeal) :
    Except ServiceError (Except ReportError (List RegulatoryItem)) → Prop
  | .ok (.ok items) => items.map RegulatoryItem.dealId = deals.map fun deal => UUID.text deal.id
  | .ok (.error (.incomplete errors)) => errors ≠ []
  | _ => False

section Items

variable {nsi : ReportNsi} {deal : FXDeal}

/-- A currency that is known has an entry. -/
theorem exists_currencyOfCode_iff {code : String} :
    (∃ currency, currencyOfCode nsi code = .ok currency) ↔ (nsi.currencies code).isSome := by
  unfold currencyOfCode
  cases nsi.currencies code <;> simp

/-- A deal is exported if and only if both currencies are known. -/
theorem exists_serializeDeal_iff :
    (∃ item, serializeDeal nsi deal = .ok item) ↔ nsi.Known deal := by
  simp only [serializeDeal, bind_eq_ok]
  constructor
  · rintro ⟨item, buy, hbuy, sell, hsell, -⟩
    exact ⟨exists_currencyOfCode_iff.mp ⟨buy, hbuy⟩, exists_currencyOfCode_iff.mp ⟨sell, hsell⟩⟩
  · rintro ⟨hbuy, hsell⟩
    obtain ⟨buy, hbuy⟩ := exists_currencyOfCode_iff.mpr hbuy
    obtain ⟨sell, hsell⟩ := exists_currencyOfCode_iff.mpr hsell
    exact ⟨_, buy, hbuy, sell, hsell, rfl⟩

theorem dealId_of_serializeDeal {item : RegulatoryItem} (h : serializeDeal nsi deal = .ok item) :
    item.dealId = UUID.text deal.id := by
  simp only [serializeDeal, bind_eq_ok] at h
  obtain ⟨buy, -, sell, -, h⟩ := h
  rw [← Except.ok.inj h]

/-- An item that is missing is missing for want of a currency. -/
theorem serializeDeal_ne_incomplete {errors : List RegulatoryNsiError} :
    serializeDeal nsi deal ≠ .error (.incomplete errors) := by
  unfold serializeDeal currencyOfCode
  cases nsi.currencies deal.buyCurrency with
  | none => simp [bind, Except.bind]
  | some buy =>
    cases nsi.currencies deal.sellCurrency <;> simp [bind, Except.bind, pure, Except.pure]

theorem items_ne_incomplete {deals : List FXDeal} {errors : List RegulatoryNsiError} :
    deals.mapM (serializeDeal nsi) ≠ .error (.incomplete errors) := by
  induction deals with
  | nil => simp [pure, Except.pure]
  | cons deal deals ih =>
    rw [List.mapM_cons]
    cases hitem : serializeDeal nsi deal with
    | error err =>
      intro h
      cases h
      exact serializeDeal_ne_incomplete hitem
    | ok item =>
      intro h
      cases hitems : deals.mapM (serializeDeal nsi) with
      | error err =>
        rw [hitems] at h ih
        cases h
        exact ih rfl
      | ok items =>
        rw [hitems] at h
        cases h

/-- All deals are exported if and only if all their currencies are known. -/
theorem exists_items_iff {deals : List FXDeal} :
    (∃ items, deals.mapM (serializeDeal nsi) = .ok items) ↔ ∀ deal ∈ deals, nsi.Known deal := by
  simp only [mapM_eq_ok]
  induction deals with
  | nil => simp
  | cons deal deals ih =>
    rw [List.forall_mem_cons, ← exists_serializeDeal_iff, ← ih]
    constructor
    · rintro ⟨items, hitems⟩
      obtain ⟨item, items', hitem, hitems', -⟩ := List.forall₂_cons_left_iff.mp hitems
      exact ⟨⟨item, hitem⟩, items', hitems'⟩
    · rintro ⟨⟨item, hitem⟩, items, hitems⟩
      exact ⟨item :: items, .cons hitem hitems⟩

/-- The items are those of the deals, one after another. -/
theorem map_dealId_of_items {deals : List FXDeal} {items : List RegulatoryItem}
    (h : deals.mapM (serializeDeal nsi) = .ok items) :
    items.map RegulatoryItem.dealId = deals.map fun deal => UUID.text deal.id := by
  replace h := mapM_eq_ok.mp h
  induction h with
  | nil => rfl
  | cons hitem _ ih => rw [List.map_cons, List.map_cons, dealId_of_serializeDeal hitem, ih]

theorem reported_documented_iff {deals : List FXDeal} {createdBy : String} :
    Documented deals (reported nsi deals createdBy) ↔
      (∀ deal ∈ deals, deal.validationStatus = .valid → nsi.Complete deal) ∧
          (∀ deal ∈ deals, nsi.Known deal) ∨
        (∃ deal ∈ deals, deal.validationStatus = .valid ∧ ¬ nsi.Complete deal) ∧
          createdBy.length ≤ 320 := by
  have hdefect : validateNsi nsi deals ≠ [] ↔
      ∃ deal ∈ deals, deal.validationStatus = .valid ∧ ¬ nsi.Complete deal := by
    rw [ne_eq, validateNsi_eq_nil_iff]
    push Not
    rfl
  rw [← hdefect, ← validateNsi_eq_nil_iff, ← exists_items_iff]
  by_cases herrors : validateNsi nsi deals = []
  · rw [reported, if_pos herrors]
    simp only [herrors, true_and, ne_eq, not_true_eq_false, false_and, or_false]
    cases hitems : deals.mapM (serializeDeal nsi) with
    | ok items => simpa [Documented] using map_dealId_of_items hitems
    | error err =>
      cases err with
      | incomplete errors => exact absurd hitems items_ne_incomplete
      | keyError key => simp [Documented]
  · rw [reported, if_neg herrors]
    by_cases hfits : createdBy.length ≤ 320 <;> simp [Documented, herrors, hfits]

end Items

/-- **When a report ends as documented**: nothing is missing for its valid deals, and the
currencies of all its deals are known; or something is missing for a valid deal, and the audit log
can name the user. -/
theorem generate_documented_iff {env : Env} {db : Database} {filter : ReportFilter}
    {createdBy : String} (hcalm : ∀ n, rejects env n = false)
    (hfresh : db.audit.any (·.id = env.uuid 0) = false) :
    Documented (listDealsForRegulatoryReport filter db) ((generate filter createdBy).run env db).1 ↔
      (∀ deal ∈ listDealsForRegulatoryReport filter db, deal.validationStatus = .valid →
            db.nsi.forReport.Complete deal) ∧
          (∀ deal ∈ listDealsForRegulatoryReport filter db, db.nsi.forReport.Known deal) ∨
        (∃ deal ∈ listDealsForRegulatoryReport filter db, deal.validationStatus = .valid ∧
            ¬ db.nsi.forReport.Complete deal) ∧ createdBy.length ≤ 320 := by
  rw [generate_result hcalm hfresh]
  exact reported_documented_iff

namespace Desk

/-- The report of all deals. -/
def allDeals : ReportFilter := ⟨none, none, none⟩

/-- The trader creates a deal that sells a currency that is not known. -/
def unknownCurrency : List Input :=
  [.request (env 1) trader (.create { payload with sellCurrency := "XXX" })]

end Desk

/-- The counterparty of the validated deal of the desk has no BIC, and its report says so. -/
theorem generate_documented_iff_desk :
    Documented (listDealsForRegulatoryReport Desk.allDeals (Desk.after Desk.validation))
        ((generate Desk.allDeals "auditor@bank").run (Desk.env 3)
          (Desk.after Desk.validation)).1 ∧
      ∃ deal ∈ listDealsForRegulatoryReport Desk.allDeals (Desk.after Desk.validation),
        deal.validationStatus = .valid ∧
          ¬ (Desk.after Desk.validation).nsi.forReport.Complete deal := by
  have hdeal : (listDealsForRegulatoryReport Desk.allDeals (Desk.after Desk.validation)).any
      (fun deal => deal.validationStatus = .valid ∧ ∀ c ∈ deal.counterparty, c.bic = none) =
        true := by
    decide +kernel
  obtain ⟨deal, hmem, hdeal⟩ := List.any_eq_true.mp hdeal
  obtain ⟨hvalid, hbic⟩ := of_decide_eq_true hdeal
  have hincomplete : ¬ (Desk.after Desk.validation).nsi.forReport.Complete deal := by
    intro hcomplete
    obtain ⟨c, hc, -, -, bic, hsome, -⟩ := hcomplete.counterparty
    rw [hbic c hc] at hsome
    cases hsome
  refine ⟨?_, deal, hmem, hvalid, hincomplete⟩
  rw [generate_documented_iff (fun _ => rfl) (by decide +kernel)]
  exact .inr ⟨⟨deal, hmem, hvalid, hincomplete⟩, by decide⟩

/-- A draft in a currency that is not known breaks the report. -/
theorem report_broken :
    ¬ ∀ (nsi : ReferenceData) (history : List ServiceTurn) (db : Database),
      Run step (Database.initial nsi) history db → ∀ (env : Env) filter createdBy,
        (∀ n, rejects env n = false) → db.audit.any (·.id = env.uuid 0) = false →
          createdBy.length ≤ 320 →
            Documented (listDealsForRegulatoryReport filter db)
              ((generate filter createdBy).run env db).1 := by
  intro h
  have hdocumented : Documented
      (listDealsForRegulatoryReport Desk.allDeals (Desk.after Desk.unknownCurrency))
      ((generate Desk.allDeals "auditor@bank").run (Desk.env 2)
        (Desk.after Desk.unknownCurrency)).1 :=
    h Desk.nsi _ _ (run_serveAll step (Database.initial Desk.nsi) Desk.unknownCurrency)
      (Desk.env 2) Desk.allDeals "auditor@bank" (fun _ => rfl) (by decide +kernel) (by decide)
  have hresult : ((generate Desk.allDeals "auditor@bank").run (Desk.env 2)
      (Desk.after Desk.unknownCurrency)).1.toOption = some (.error (.keyError "XXX")) := by
    decide +kernel
  generalize ((generate Desk.allDeals "auditor@bank").run (Desk.env 2)
    (Desk.after Desk.unknownCurrency)).1 = result at hdocumented hresult
  cases result with
  | error err => cases hresult
  | ok report =>
    cases hresult
    exact hdocumented

end FxDealManager
