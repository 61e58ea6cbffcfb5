import FxDealManager.Lifecycle.Run
import FxDealManager.Repositories.Fitting
import FxDealManager.Validation.Verdict

/-!
# What a verdict comes to

In fair circumstances the outcome of a validation is a function of its verdict: complaints are
recorded if the audit log can name the user, and a valid deal is saved if the columns can store
its payments as well.

## Main definitions

* `Bookable`: the payment table can store a calculated payment with its account
* `Verdict.Yields`: what a verdict comes to

## Main results

* `verdict_eq_valid_iff`: the valid deals are those that pass every check
* `execute_yields`: in fair circumstances a validation comes to what its verdict says
-/

namespace FxDealManager

open DecimalArithmetic Transactional

/-! ## Valid deals -/

/-- The settlement step in parts. -/
theorem settlement_eq_ok_iff {nsi : ReferenceData} {deal : FXDeal} {valueDate : Date} :
    settlement nsi deal = .ok valueDate ↔
      ∃ last calendar, deal.tradeDate.addDays 30 = some last ∧
        nsi.loadCalendar deal.tradeDate last = some calendar ∧
        calculateValueDate deal.tradeDate deal.loadedDealType calendar deal.valueDate =
          .ok valueDate := by
  cases hlast : deal.tradeDate.addDays 30 with
  | none => simp [settlement, hlast]
  | some last =>
    cases hcalendar : nsi.loadCalendar deal.tradeDate last with
    | none => simp [settlement, hlast, hcalendar]
    | some calendar => simp [settlement, hlast, hcalendar]

/-- **The valid deals** are those that pass every check of a validation. -/
theorem verdict_eq_valid_iff {nsi : ReferenceData} {deal : FXDeal} {valueDate : Date}
    {assigned : List (CalculatedPayment × String)} :
    verdict nsi deal = .valid valueDate assigned ↔ Validation nsi deal valueDate assigned := by
  constructor
  · intro h
    have hjudged := verdict_judged nsi deal
    rw [h] at hjudged
    cases hjudged with
    | @valid _ calculated hissues hlimits hsettlement hcalc hnostro =>
      exact ⟨hissues, hlimits, settlement_eq_ok_iff.mp hsettlement, calculated, hcalc,
        Prod.ext rfl hnostro⟩
  · rintro ⟨hissues, hlimits, hsettled, calculated, hcalc, hassign⟩
    rw [verdict_of_checked hissues, hlimits, settlement_eq_ok_iff.mpr hsettled]
    simp [accountsVerdict, hcalc, hassign]

/-- The currencies of a valid deal are known. -/
theorem currencies_of_validate {deal : FXDeal} {counterparty : Option Counterparty}
    {currencies : String → Option Currency} (h : validate deal counterparty currencies = []) :
    (currencies deal.buyCurrency).isSome ∧ (currencies deal.sellCurrency).isSome := by
  simp only [validate, List.append_eq_nil_iff] at h
  obtain ⟨⟨⟨⟨-, hbuy⟩, hsell⟩, -⟩, -⟩ := h
  constructor
  · cases hc : currencies deal.buyCurrency with
    | none => simp [hc] at hbuy
    | some c => rfl
  · cases hc : currencies deal.sellCurrency with
    | none => simp [hc] at hsell
    | some c => rfl

/-- The payments of a deal are in its two currencies. -/
theorem currency_of_calculated {deal : FXDeal} {valueDate : Date}
    {calculated : List CalculatedPayment} (h : calculatePayments deal valueDate = some calculated) :
    ∀ p ∈ calculated, p.currencyCode = deal.buyCurrency ∨ p.currencyCode = deal.sellCurrency := by
  obtain ⟨counter, -, rfl⟩ := Option.map_eq_some_iff.mp h
  cases deal.operationDirection <;> simp

/-- The payments of a valid deal are in known currencies. -/
theorem Validation.currency {nsi : ReferenceData} {deal : FXDeal} {valueDate : Date}
    {assigned : List (CalculatedPayment × String)} (h : Validation nsi deal valueDate assigned) :
    ∀ a ∈ assigned, (nsi.currency? a.1.currencyCode).isSome := by
  intro a ha
  obtain ⟨hbuy, hsell⟩ := currencies_of_validate h.issues
  obtain ⟨calculated, hcalc, hassign⟩ := h.payments
  have hmap : (assignNostro nsi.nostroByCurrency calculated).1.map Prod.fst = calculated :=
    map_fst_assignNostro (by rw [hassign])
  rw [hassign] at hmap
  have hmem : a.1 ∈ calculated := hmap ▸ List.mem_map_of_mem (f := Prod.fst) ha
  rcases currency_of_calculated hcalc a.1 hmem with heq | heq
  · rw [heq]
    exact hbuy
  · rw [heq]
    exact hsell

/-! ## Payments that can be booked -/

/-- The payment table can store a calculated payment with its account. -/
structure Bookable (a : CalculatedPayment × String) : Prop where
  amount : (Numeric.ofDecimal a.1.amount : Option (Numeric 18 2)).isSome
  currencyCode : a.1.currencyCode.length ≤ 3
  accountCode : a.2.length ≤ 30

instance (a : CalculatedPayment × String) : Decidable (Bookable a) :=
  decidable_of_iff ((Numeric.ofDecimal a.1.amount : Option (Numeric 18 2)).isSome ∧
      a.1.currencyCode.length ≤ 3 ∧ a.2.length ≤ 30)
    ⟨fun ⟨h₁, h₂, h₃⟩ => ⟨h₁, h₂, h₃⟩, fun ⟨h₁, h₂, h₃⟩ => ⟨h₁, h₂, h₃⟩⟩

section Built

variable {uuid : ℕ → UUID} {assigned : List (CalculatedPayment × String)}

theorem storable_builtFrom_iff {n : ℕ} :
    (∀ p ∈ builtFrom uuid n assigned, p.Storable) ↔ ∀ a ∈ assigned, Bookable a := by
  induction assigned generalizing n with
  | nil => simp [builtFrom]
  | cons a assigned ih =>
    rw [builtFrom, List.forall_mem_cons, List.forall_mem_cons, ih]
    refine and_congr_left fun _ => ⟨?_, ?_⟩
    · rintro ⟨hamount, hcurrency, haccount⟩
      exact ⟨hamount, hcurrency, haccount a.2 rfl⟩
    · rintro ⟨hamount, hcurrency, haccount⟩
      exact ⟨hamount, hcurrency, by rintro _ ⟨⟩; exact haccount⟩

theorem map_id_builtFrom {n : ℕ} :
    (builtFrom uuid n assigned).map Payment.id = (List.range' n assigned.length).map uuid := by
  induction assigned generalizing n with
  | nil => rfl
  | cons a assigned ih => simp [builtFrom, ih, List.range'_succ]

theorem mem_builtFrom {n : ℕ} {p : Payment} (h : p ∈ builtFrom uuid n assigned) :
    (∃ k, p.id = uuid k) ∧ ∃ a ∈ assigned, p.currencyCode = a.1.currencyCode := by
  induction assigned generalizing n with
  | nil => cases h
  | cons a assigned ih =>
    rcases List.mem_cons.mp h with rfl | h
    · exact ⟨⟨n, rfl⟩, a, List.mem_cons_self, rfl⟩
    · obtain ⟨hid, b, hb, hcurrency⟩ := ih h
      exact ⟨hid, b, List.mem_cons_of_mem _ hb, hcurrency⟩

end Built

/-- A stored payment is one of those to be stored. -/
theorem exists_stored {payments : List Payment} {rows : List PaymentRow}
    (h : List.Forall₂ PaymentRow.Stores payments rows) :
    ∀ row ∈ rows, ∃ p ∈ payments, PaymentRow.Stores p row := by
  induction h with
  | nil => simp
  | cons hs _ ih =>
    refine List.forall_mem_cons.mpr ⟨⟨_, List.mem_cons_self, hs⟩, fun row hrow => ?_⟩
    obtain ⟨p, hp, hstores⟩ := ih row hrow
    exact ⟨p, List.mem_cons_of_mem _ hp, hstores⟩

/-- The ids of stored payments. -/
theorem map_id_of_stores {payments : List Payment} {rows : List PaymentRow}
    (h : List.Forall₂ PaymentRow.Stores payments rows) :
    rows.map PaymentRow.id = payments.map Payment.id := by
  induction h with
  | nil => rfl
  | cons hs _ ih => simp [hs.id, ih]

/-! ## Outcomes -/

/-- What a verdict comes to, in fair circumstances, for a user with the given email. -/
def Verdict.Yields (v : Verdict) (email : String) (result : Except ServiceError DealResponse) :
    Prop :=
  match v with
  | .failed err => result = .error err.raised
  | .refused text => result = .error (.validationFailed [⟨"value_date", text⟩])
  | .invalid issues =>
    if email.length ≤ 320 then result = .error (.validationFailed issues)
    else result = .error (.database (.stringTooLong "created_by"))
  | .valid _ assigned =>
    if (∀ a ∈ assigned, Bookable a) ∧ email.length ≤ 320 then ∃ response, result = .ok response
    else result = .error (.http 500 "Failed to persist deal and payments")

section Outcomes

variable {env : Env} {user : UserClaims} {db : Database} {id : UUID} {r : DealRecord}

/-- A session that has nothing left to write reloads the time of the update. -/
theorem saveExisting_unchanged_from {β : Type} {c : ServiceProgress} {n : ℕ} {deal : FXDeal}
    {Q : Except ServiceError β → ServiceProgress → Prop} {f : FXDeal → Service β}
    (hrej : c.MayReject env Q) (hr : c.work.deals.lookup deal.id = some r)
    (hnulled : deal.nulled = []) (hpositioner : ∀ s ∈ deal.positionerId, s.length ≤ 36)
    (h : (f { deal with updatedAt := r.row.updatedAt }).EnsuresFrom env c n Q) :
    (saveExisting { loaded := deal, deal } >>= f).EnsuresFrom env c n Q := by
  refine saveExisting_from hrej (fun err hst => ?_) (fun statements err hst hreplay => ?_)
    (Option.isSome_of_eq_some hr) fun statements d r' hst hd hr' => ?_
  · exact (statements_unchanged_ne_error hst hnulled hpositioner).elim
  · rw [statements_unchanged hst] at hreplay
    cases hreplay
  · rw [statements_unchanged hst] at hd ⊢
    cases hd
    rw [hr] at hr'
    cases hr'
    rw [Progress.executing_nil]
    exact h

/-- The end of an operation that answers with the object it saved: the entry is appended, if the
audit log can name the user. -/
theorem finish_from {deal : FXDeal} {action : AuditAction} {oldValue newValue : Option Json}
    {log : List Statement} {c : ServiceProgress} {n : ℕ}
    {Q : Except ServiceError DealResponse → ServiceProgress → Prop} (hfair : Fair env db)
    (hlog : replay log db = .ok c.work) (hentries : entries log = [])
    (hnulled : deal.nulled = []) (hpositioner : ∀ s ∈ deal.positionerId, s.length ≤ 36)
    (hlong : ¬ user.email.length ≤ 320 →
      Q (.error (.database (.stringTooLong "created_by"))) c)
    (h : user.email.length ≤ 320 → ∀ c', Q (.ok (toResponse deal)) c') :
    (appendAudit { loaded := deal, deal } action user.email oldValue newValue >>= fun _ =>
      Program.commit >>= fun _ => (pure (toResponse deal) : Service DealResponse)).EnsuresFrom
        env c n Q := by
  have hrej : ∀ c : ServiceProgress, c.MayReject env Q := fun _ => .of_calm hfair.calm
  refine appendAudit_from (hrej _) (fun err hst => ?_) hlong
    (fun statements entry err hst hentry hreplay => ?_) fun statements entry d hst _ hentry _ => ?_
  · exact (statements_unchanged_ne_error hst hnulled hpositioner).elim
  · rw [statements_unchanged hst] at hreplay
    have hfit : FitAll db log [.insertAudit entry] := by
      refine fitAll_insertAudit (by rw [hentry]; exact hfair.audit _) fun entry' hmem => ?_
      have hmem' : entry' ∈ entries log := List.mem_filterMap.mpr ⟨_, hmem, rfl⟩
      rw [hentries] at hmem'
      cases hmem'
    obtain ⟨d, hd⟩ := exists_replay_after hfit hlog
    have herr : replay [Statement.insertAudit entry] c.work = .error err := hreplay
    rw [herr] at hd
    cases hd
  · exact .commit_bind (hrej _) (.pure (h (hentry.createdBy ▸ entry.createdBy.fits) _))

/-- Complaints are recorded, if the audit log can name the user. -/
theorem commitInvalid_yields {issues : List ValidationIssue} (hfair : Fair env db)
    (hr : db.deals.lookup id = some r) :
    (commitInvalid (FXDeal.ofRecord db.nsi id r) user issues).EnsuresFrom env (Progress.start db) 0
      fun result _ => (Verdict.invalid issues).Yields user.email result := by
  have hrej : ∀ c : ServiceProgress, c.MayReject env fun result _ =>
      (Verdict.invalid issues).Yields user.email result := fun _ => .of_calm hfair.calm
  have hsome : (db.deals.lookup id).isSome := Option.isSome_of_eq_some hr
  refine setValidationStatus_from (hrej _) ?_
  refine appendAudit_from (hrej _) (fun err hst => ?_) (fun hlong => ?_)
    (fun statements entry err hst hentry hreplay => ?_) fun statements entry d hst _ hentry _ => ?_
  · obtain ⟨log, hlog⟩ := exists_statements env.now
      (p := ⟨FXDeal.ofRecord db.nsi id r,
        { FXDeal.ofRecord db.nsi id r with validationStatus := .invalid }, [], [], none⟩)
      (exists_between_decided rfl (positionerId_ofRecord_length _ _ _)) (fun _ h => by cases h)
      (exists_solutionStatements rfl rfl)
    rw [hlog] at hst
    cases hst
  · simp [Verdict.Yields, hlong]
  · obtain rfl := status_statements hst
    have hfit : FitAll db [] (updateStatements id
        { validationStatus := changedTo r.row.validationStatus .invalid } env.now ++
          [.insertAudit entry]) := by
      refine fitAll_append.mpr ⟨fitAll_updateStatements hsome rfl, fitAll_insertAudit ?_ ?_⟩
      · rw [hentry]
        exact hfair.audit 0
      · intro entry' hmem
        simp only [List.nil_append, updateStatements] at hmem
        split at hmem <;> simp at hmem
    obtain ⟨d, hd⟩ := exists_replay_of_fitAll hfit
    rw [Progress.start_work, hd] at hreplay
    cases hreplay
  · have hemail : user.email.length ≤ 320 := hentry.createdBy ▸ entry.createdBy.fits
    exact .commit_bind (hrej _) (.raise (by simp [Verdict.Yields, hemail]))

/-- The statements that save a validated deal fit. -/
theorem fitAll_validated {ch : DealChanges} {rows : List PaymentRow} {ids : List UUID}
    {assigned : List (CalculatedPayment × String)} {n : ℕ} (hfair : Fair env db)
    (hsome : (db.deals.lookup id).isSome) (hch : ch.counterpartyId = none)
    (hrows : List.Forall₂ PaymentRow.Stores (builtFrom env.uuid n assigned) rows)
    (hcurrency : ∀ a ∈ assigned, (db.nsi.currency? a.1.currencyCode).isSome) :
    FitAll db [] (updateStatements id ch env.now ++ rows.map (.insertPayment id)
      ++ deleteStatements id ids) := by
  have hbuilt : ∀ row ∈ rows, (∃ k, row.id = env.uuid k) ∧
      (db.nsi.currency? row.currencyCode.val).isSome := by
    intro row hrow
    obtain ⟨p, hp, hstores⟩ := exists_stored hrows row hrow
    obtain ⟨⟨k, hk⟩, a, ha, hcode⟩ := mem_builtFrom hp
    exact ⟨⟨k, hstores.id.trans hk⟩, by rw [hstores.currencyCode, hcode]; exact hcurrency a ha⟩
  refine fitAll_append.mpr ⟨fitAll_append.mpr ⟨fitAll_updateStatements hsome hch, ?_⟩,
    fitAll_deleteStatements⟩
  refine fitAll_insertPayments hsome (fun row hrow => ?_)
    (fun row hrow => (hbuilt row hrow).2) ?_ ?_
  · obtain ⟨⟨k, hk⟩, -⟩ := hbuilt row hrow
    rw [hk]
    exact hfair.payments k
  · rw [map_id_of_stores hrows, map_id_builtFrom]
    exact List.Nodup.map hfair.distinct List.nodup_range'
  · intro row _ j q hq
    simp only [List.nil_append, updateStatements] at hq
    split at hq <;> simp at hq

/-- What saving comes to before its handler: it succeeds if the deal can be stored, and fails with
an error of the database otherwise. -/
def SavesIf (stored : Prop) : Except ServiceError DealResponse → Prop
  | .ok _ => stored
  | .error err => ¬ stored ∧ ∃ e, err = .database e

/-- A valid deal is saved, if its payments can be booked and the audit log can name the user. -/
theorem saveValidated_yields {valueDate : Date} {assigned : List (CalculatedPayment × String)}
    {n : ℕ} (hfair : Fair env db) (hr : db.deals.lookup id = some r)
    (hvalid : Validation db.nsi (FXDeal.ofRecord db.nsi id r) valueDate assigned) :
    (Program.handle (saveValidated (FXDeal.ofRecord db.nsi id r) valueDate
        (builtFrom env.uuid 0 assigned) user) fun err => do
      Program.rollback
      Program.raise (saveFailure err)).EnsuresFrom env (Progress.start db) n
        fun result _ => (Verdict.valid valueDate assigned).Yields user.email result := by
  let stored : Prop := (∀ a ∈ assigned, Bookable a) ∧ user.email.length ≤ 320
  let R : Except ServiceError DealResponse → ServiceProgress → Prop := fun result _ =>
    SavesIf stored result
  suffices hsave : (saveValidated (FXDeal.ofRecord db.nsi id r) valueDate
      (builtFrom env.uuid 0 assigned) user).EnsuresFrom env (Progress.start db) n R by
    refine .handle (hsave.mono ?_)
    rintro (err | response) c' hR
    · obtain ⟨hnot, e, rfl⟩ := hR
      refine .rollback_bind (.raise ?_)
      simp only [Verdict.Yields]
      rw [if_neg hnot]
      rfl
    · have hstored : stored := hR
      simp only [Verdict.Yields]
      rw [if_pos hstored]
      exact ⟨response, rfl⟩
  have hrej : ∀ c : ServiceProgress, c.MayReject env R := fun _ => .of_calm hfair.calm
  have hsome : (db.deals.lookup id).isSome := Option.isSome_of_eq_some hr
  have hpositioner := positionerId_ofRecord_length db.nsi id r
  refine setValidationStatus_from (hrej _) ?_
  refine replacePayments_from (hrej _) (fun hfault => absurd hfair.unfaulted hfault)
    (fun err hst => ⟨fun hstored => ?_, err, rfl⟩) (fun statements err hst hreplay => ?_)
    fun statements d hst hd => ?_
  · obtain ⟨log, hlog⟩ := exists_statements env.now
      (p := ⟨FXDeal.ofRecord db.nsi id r,
        { FXDeal.ofRecord db.nsi id r with
          valueDate := some valueDate
          validationStatus := .valid },
        builtFrom env.uuid 0 assigned, (FXDeal.ofRecord db.nsi id r).payments.map Payment.id, none⟩)
      (exists_between_decided rfl hpositioner) (storable_builtFrom_iff.mpr hstored.1)
      (exists_solutionStatements rfl rfl)
    rw [hlog] at hst
    cases hst
  · obtain ⟨rows, hrows, rfl⟩ := validated_statements hst
    have hfit : FitAll db [] (updateStatements id
          { valueDate := changedTo r.row.valueDate (some valueDate)
            validationStatus := changedTo r.row.validationStatus .valid } env.now
        ++ rows.map (.insertPayment id) ++ deleteStatements id (r.payments.map PaymentRow.id)) :=
      fitAll_validated hfair hsome rfl hrows hvalid.currency
    obtain ⟨d, hd⟩ := exists_replay_of_fitAll hfit
    rw [Progress.start_work, hd] at hreplay
    cases hreplay
  have hbookable : ∀ a ∈ assigned, Bookable a :=
    storable_builtFrom_iff.mp (storable_of_statements hst)
  obtain ⟨rows, hrows, rfl⟩ := validated_statements hst
  obtain ⟨r', hr'⟩ := lookup_after_replay hd hsome
  refine saveExisting_unchanged_from (hrej _) hr' rfl hpositioner ?_
  exact finish_from hfair hd (by simp) rfl hpositioner (fun hlong =>
    ⟨fun hstored => hlong hstored.2, _, rfl⟩) fun hemail c' => ⟨hbookable, hemail⟩

/-- **In fair circumstances** a validation by an entitled user comes to what its verdict says. -/
theorem execute_yields (hfair : Fair env db) (hr : db.deals.lookup id = some r)
    (hrole : user.role ∈ (Operation.validate id).roles) (huser : Entitled user r.row) :
    (verdict db.nsi (FXDeal.ofRecord db.nsi id r)).Yields user.email
      (execute env user (.validate id) db).result := by
  have h : (serve (.validate id) user).EnsuresFrom env (Progress.start db) 0 fun result _ =>
      (verdict db.nsi (FXDeal.ofRecord db.nsi id r)).Yields user.email result := by
    refine .require_bind (fun hnot => absurd hrole hnot) fun _ => ?_
    refine validateDeal_from hr huser (.of_calm hfair.calm) ?_ ?_ ?_ ?_
    · intro err hverdict
      rw [hverdict]
      rfl
    · intro text hverdict
      rw [hverdict]
      rfl
    · intro issues hverdict
      rw [hverdict]
      exact commitInvalid_yields hfair hr
    · intro valueDate assigned hverdict
      rw [hverdict]
      exact saveValidated_yields hfair hr (verdict_eq_valid_iff.mp hverdict)
  exact h.run

end Outcomes

namespace Desk

/-- The circumstances of the desk are fair to a database that their identifiers are new to. -/
theorem fair {k : ℕ} {db : Database} (h : db.idsBelow (100 * k) = true) : Fair (env k) db :=
  .of_idsBelow (fun _ => rfl) rfl (fun _ _ heq => Nat.add_left_cancel heq)
    (fun n => Nat.le_add_right _ n) h

end Desk

end FxDealManager
