import FxDealManager.Concurrency.Requests
import FxDealManager.Lifecycle.Settlement

/-!
# Validation under concurrency

A successful validation writes the payments of the terms that it has read. When an update commits
in between, the deal ends up valid with the payments of terms that are gone; and an update that has
read a deal not validated yet does not write that status, so that it leaves a deal valid that was
validated in between.

## Main definitions

* `termsAsRead`: validations and updates commit while what they rely on is as they have read it

## Main results

* `interleaved_settled`: such a commit leaves a valid deal with the payments of its terms
* `validated_payments_match`: so does every interleaving of such commits
* `outdated_payments`: an interleaving that leaves a valid deal with the payments of other terms
-/

namespace FxDealManager

open DecimalArithmetic Transactional

section Validation

variable {ι : Type} [DecidableEq ι] {requests : ι → Request} {id : UUID}

/-- If a successful validation of the deal commits, the stored terms, value date and payments are
those that it has read; if an update of the deal commits, the stored validation status is. -/
def termsAsRead (requests : ι → Request) (id : UUID) (t : RequestTurn ι) : Bool :=
  t.commits.all fun (i, snapshot) =>
    (snapshot.deals.lookup id).all fun r₀ => (t.before.data.deals.lookup id).all fun r =>
      match (requests i).op with
      | .validate j => j ≠ id || !((requests i).outcome snapshot).result.toBool ||
          (SameTerms r₀.row r.row ∧ r.row.valueDate = r₀.row.valueDate ∧ r.payments = r₀.payments)
      | .update j _ => j ≠ id || r.row.validationStatus = r₀.row.validationStatus
      | _ => true

theorem validation_asRead {s : ServiceSystem ι} {i : ι} {snapshot : Database}
    {response : DealResponse} {r₀ r : DealRecord}
    (hread : termsAsRead requests id (turn (serveInterleaved requests) s (.commit i)) = true)
    (hphase : s.phase i = .sent snapshot) (hop : (requests i).op = .validate id)
    (hresult : ((requests i).outcome snapshot).result = .ok response)
    (hr₀ : snapshot.deals.lookup id = some r₀) (hr : s.data.deals.lookup id = some r) :
    SameTerms r₀.row r.row ∧ r.row.valueDate = r₀.row.valueDate ∧ r.payments = r₀.payments := by
  rw [termsAsRead, commits_turn hphase] at hread
  simpa [hop, hresult, hr₀, turn, hr, Except.toBool] using hread

theorem update_asRead {s : ServiceSystem ι} {i : ι} {snapshot : Database}
    {payload : DealUpdateRequest} {r₀ r : DealRecord}
    (hread : termsAsRead requests id (turn (serveInterleaved requests) s (.commit i)) = true)
    (hphase : s.phase i = .sent snapshot) (hop : (requests i).op = .update id payload)
    (hr₀ : snapshot.deals.lookup id = some r₀) (hr : s.data.deals.lookup id = some r) :
    r.row.validationStatus = r₀.row.validationStatus := by
  rw [termsAsRead, commits_turn hphase] at hread
  simpa [hop, hr₀, turn, hr] using hread

/-- A valid deal has the payments of its terms. -/
def ValidSettled (id : UUID) (r : DealRecord) : Prop :=
  r.row.validationStatus = .valid → ∀ nsi, Settled nsi id r

theorem ValidSettled.congr {r r' : DealRecord} (h : ValidSettled id r)
    (hterms : SameTerms r.row r'.row) (hdate : r'.row.valueDate = r.row.valueDate)
    (hpayments : r'.payments = r.payments)
    (hvalid : r'.row.validationStatus = .valid → r.row.validationStatus = .valid) :
    ValidSettled id r' :=
  fun hstatus nsi => (h (hvalid hstatus) nsi).congr hterms hdate hpayments

theorem interleaved_settled {s : ServiceSystem ι} {a : Action ι}
    (hread : termsAsRead requests id (turn (serveInterleaved requests) s a) = true)
    (hP : ∀ r, s.data.deals.lookup id = some r → ValidSettled id r) :
    ∀ r, (serveInterleaved requests s a).2.data.deals.lookup id = some r → ValidSettled id r := by
  have hrecords : ∀ j q, (serveInterleaved requests s a).2.data.deals.lookup j = some q →
      j = id → ValidSettled id q := by
    refine forall_changes_interleaved ?_ ?_ (fun j q hq hj => hP q (hj ▸ hq))
    · intro env user payload j row _ hrow _
      simp [ValidSettled, (ofDeal_eq_ok hrow).validationStatus, newDeal]
    rintro i snapshot j op result r₀ r r' added rfl hphase hop hresult hr₀ hr hchange rfl
    have hsettled := hP r hr
    cases hchange with
    | edited _ _ hch _ =>
      have hstatus := update_asRead hread hphase hop hr₀ hr
      simp [ValidSettled, hch.validationStatus, hstatus]
    | invalidated _ _ _ _ =>
      refine hsettled.congr (sameTerms_write rfl rfl rfl rfl rfl) (by simp) rfl ?_
      by_cases hinvalid : r₀.row.validationStatus = .invalid <;> simp [changedTo, hinvalid]
    | validated _ hvalid hrows hfresh _ =>
      obtain ⟨hterms, hdate, hpayments⟩ := validation_asRead hread hphase hop hresult hr₀ hr
      rw [← hpayments, filter_replaced hfresh]
      exact fun _ nsi => settled_of_books hvalid hrows
        (hterms.trans (sameTerms_write rfl rfl rfl rfl rfl)) (by simp [hdate])
    | moved _ _ _ => exact hsettled.congr ⟨rfl, rfl, rfl, rfl, rfl⟩ rfl rfl fun h => h
    | decided _ _ => exact hsettled.congr ⟨rfl, rfl, rfl, rfl, rfl⟩ rfl rfl fun h => h
  exact fun r hr => hrecords id r hr rfl

/-- **Validated payments match the terms**, in every interleaving of requests in which each
successful validation commits while the stored terms, value date and payments are those that it has
read, and each update commits while the stored validation status is. -/
theorem validated_payments_match {nsi : ReferenceData} {past : List ServiceTurn} {db : Database}
    (hpast : Run step (Database.initial nsi) past db) {s : ServiceSystem ι}
    {history : List (RequestTurn ι)}
    (h : Run (serveInterleaved requests) (System.start db) history s)
    (hread : ∀ t ∈ history, termsAsRead requests id t = true) :
    ∀ r, s.data.deals.lookup id = some r → r.row.validationStatus = .valid →
      Settled s.data.nsi id r := by
  have hinv : ∀ r, s.data.deals.lookup id = some r → ValidSettled id r := by
    refine Run.invariant_of (P := fun _ s => ∀ r, s.data.deals.lookup id = some r →
      ValidSettled id r) ?_ (fun history s a hread hP => interleaved_settled hread hP) h hread
    intro r hr hstatus nsi
    have hr := paymentsInv_run hpast id r hr nsi
    exact hr.settled.resolve_left (hr.valid hstatus)
  exact fun r hr hstatus => hinv r hr hstatus s.data.nsi

end Validation

/-! ## An update and a validation -/

/-- The first payment of settled payments has the amount of the deal. -/
theorem Settled.head_amount {nsi : ReferenceData} {id : UUID} {r : DealRecord}
    (h : Settled nsi id r) :
    r.payments.head?.map (fun p => p.amount.toDecimal) = some r.row.amount.toDecimal := by
  obtain ⟨valueDate, c₁, c₂, p₁, p₂, -, hcalc, hp, hmatches, -⟩ := h
  obtain ⟨_, _, _, -, heq, hamount, -⟩ := calculatePayments_eq_some hcalc
  cases heq
  rw [hp, List.head?_cons, Option.map_some, hmatches.amount, hamount]
  rfl

namespace Desk

/-- A body that sets the amount to 200.00. -/
def doubled : DealUpdateRequest :=
  { unchanged with
    amount := .value ⟨false, 20000, -2⟩
    amount_pos := fun a h => by cases h; rfl }

/-- The trader doubles the amount of the new deal and has it validated, at the same time. -/
def updateAndValidate : Bool → Request
  | true => ⟨env 2, trader, .update dealId doubled⟩
  | false => ⟨env 3, trader, .validate dealId⟩

/-- The database when the two requests begin. -/
def createdSystem : ServiceSystem Bool := System.start (after creation)

end Desk

/-- The update and then the validation leave the deal with the payments of its new terms. -/
theorem validated_payments_match_desk :
    ∃ r, (serveAll (serveInterleaved Desk.updateAndValidate) Desk.createdSystem
        Desk.oneByOne).data.deals.lookup Desk.dealId = some r ∧
      r.row.validationStatus = .valid ∧ Settled (serveAll (serveInterleaved Desk.updateAndValidate)
        Desk.createdSystem Desk.oneByOne).data.nsi Desk.dealId r := by
  have hvalid : ((serveAll (serveInterleaved Desk.updateAndValidate) Desk.createdSystem
      Desk.oneByOne).data.deals.lookup Desk.dealId).any
        (fun r => r.row.validationStatus = .valid) = true := by
    decide +kernel
  obtain ⟨r, hr, hstatus⟩ := (Option.any_eq_true _ _).mp hvalid
  have hstatus := of_decide_eq_true hstatus
  exact ⟨r, hr, hstatus, validated_payments_match
    (run_serveAll step (Database.initial Desk.nsi) Desk.creation)
    (run_serveAll (serveInterleaved Desk.updateAndValidate) Desk.createdSystem
      Desk.oneByOne) (by decide +kernel) r hr hstatus⟩

/-- When a validation commits during an update, the deal ends up valid with the payments of its
former terms. -/
theorem outdated_payments :
    ¬ ∀ (nsi : ReferenceData) (past : List ServiceTurn) (db : Database),
      Run step (Database.initial nsi) past db →
        ∀ (ι : Type) [DecidableEq ι] (requests : ι → Request) (id : UUID),
          (∀ i, (requests i).op = .validate id ∨ ∃ payload, (requests i).op = .update id payload) →
          (∃ r, db.deals.lookup id = some r ∧ r.row.dealState = .draft) →
          ∀ (history : List (RequestTurn ι)) (s : ServiceSystem ι),
            Run (serveInterleaved requests) (System.start db) history s →
              ∀ r, s.data.deals.lookup id = some r → r.row.validationStatus = .valid →
                Settled s.data.nsi id r := by
  intro h
  have hrun := run_serveAll (serveInterleaved Desk.updateAndValidate) Desk.createdSystem
    Desk.overlapping
  have hdraft : ∃ r, (Desk.after Desk.creation).deals.lookup Desk.dealId = some r ∧
      r.row.dealState = .draft := by
    have hany : ((Desk.after Desk.creation).deals.lookup Desk.dealId).any
        (fun r => r.row.dealState = .draft) = true := by decide +kernel
    obtain ⟨r, hr, hstate⟩ := (Option.any_eq_true _ _).mp hany
    exact ⟨r, hr, of_decide_eq_true hstate⟩
  have hsettled := h Desk.nsi _ _ (run_serveAll step (Database.initial Desk.nsi) Desk.creation) Bool
    Desk.updateAndValidate Desk.dealId
    (fun | true => .inr ⟨Desk.doubled, rfl⟩ | false => .inl rfl) hdraft _ _ hrun
  -- the validation has committed first, and the update has written its terms over it
  have houtdated : ((serveAll (serveInterleaved Desk.updateAndValidate) Desk.createdSystem
      Desk.overlapping).data.deals.lookup Desk.dealId).any (fun r =>
        r.row.validationStatus = .valid &&
          r.payments.head?.map (fun p => p.amount.toDecimal) ≠ some r.row.amount.toDecimal) =
        true := by
    decide +kernel
  obtain ⟨r, hr, hrow⟩ := (Option.any_eq_true _ _).mp houtdated
  obtain ⟨hvalid, hamount⟩ := Bool.and_eq_true_iff.mp hrow
  exact of_decide_eq_true hamount (hsettled r hr (of_decide_eq_true hvalid)).head_amount

end FxDealManager
