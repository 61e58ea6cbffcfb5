import FxDealManager.Lifecycle.Run

/-!
# Submitted deals and their validation

A submission requires a valid deal, and the later decisions leave the validation status alone. The
one operation that writes the status without regard to the state of the deal is the validation: it
marks a deal outside `DRAFT` as invalid.

## Main definitions

* `revalidatesSubmitted`: the input is a validation of a submitted deal

## Main results

* `submittedValid_step`: every other input keeps submitted deals valid
* `submitted_valid`: submitted deals are valid in every run without such an input
* `revalidated_invalid`: a run in which a submitted deal becomes invalid
-/

namespace FxDealManager

open DecimalArithmetic Transactional

/-- The input is a validation of a submitted deal, by a user whom the route and the service admit:
the creator of the deal or an administrator. -/
def revalidatesSubmitted (db : Database) : Input → Bool
  | .request _ user (.validate id) =>
    user.role ∈ (Operation.validate id).roles &&
      (db.deals.lookup id).any fun r => Entitled user r.row && r.row.dealState.submitted
  | _ => false

/-- A submitted deal is marked as valid. -/
def SubmittedValid (r : DealRecord) : Prop :=
  r.row.dealState.submitted = true → r.row.validationStatus = .valid

theorem submittedValid_step {db : Database} {input : Input}
    (hinput : revalidatesSubmitted db input = false)
    (hP : ∀ id r, db.deals.lookup id = some r → SubmittedValid r) :
    ∀ id r, (step db input).2.deals.lookup id = some r → SubmittedValid r := by
  refine forall_records_step ?_ ?_ hP
  · intro env user payload id row _ hrow
    simp [SubmittedValid, (ofDeal_eq_ok hrow).dealState, newDeal, DealState.submitted]
  · intro env user op id result r r' added hop hrole hr hchange
    have hvalid := hP id r hr
    cases hchange with
    | edited hstate _ hch _ =>
      simp [SubmittedValid, hch.dealState, hstate, DealState.submitted]
    | invalidated hrejects huser _ _ =>
      intro hsubmitted
      have hsubmitted : r.row.dealState.submitted = true := by simpa using hsubmitted
      cases hrejects with
      | validate =>
        simp [hop, revalidatesSubmitted, hrole, hr, huser, hsubmitted] at hinput
      | submit hstate _ => simp [hstate, DealState.submitted] at hsubmitted
    | validated _ _ _ _ _ => simp [SubmittedValid]
    | moved hmoves _ _ =>
      cases hmoves with
      | submit _ hvalid => exact fun _ => hvalid
      | takeForEdit _ => simp [SubmittedValid, DealChanges.apply, DealState.submitted]
      | cancel _ => simp [SubmittedValid, DealChanges.apply, DealState.submitted]
    | decided hdecision _ =>
      exact fun _ => hvalid (by simp [hdecision.waiting, DealState.submitted])

/-- **Submitted deals are valid**, in every run in which no submitted deal is validated again. -/
theorem submitted_valid {nsi : ReferenceData} {history : List ServiceTurn} {db : Database}
    (h : Run step (Database.initial nsi) history db)
    (hinputs : ∀ t ∈ history, revalidatesSubmitted t.before t.input = false) :
    ∀ id r, db.deals.lookup id = some r → r.row.dealState.submitted = true →
      r.row.validationStatus = .valid := by
  refine Run.invariant_of (P := fun _ db => ∀ id r, db.deals.lookup id = some r → SubmittedValid r)
    ?_ (fun _ _ _ hinput hP => submittedValid_step hinput hP) h hinputs
  intro id r hr
  simp at hr

/-- The submitted deal of the desk is valid. -/
theorem submitted_valid_desk :
    Desk.submitted.row.dealState = .waitingForPositioner ∧
      Desk.submitted.row.validationStatus = .valid :=
  ⟨by decide +kernel,
    submitted_valid (run_serveAll step (Database.initial Desk.nsi) Desk.submission)
      (by decide +kernel) Desk.dealId Desk.submitted (Option.some_get _).symm (by decide +kernel)⟩

/-- A submitted deal that its creator validates again becomes invalid. -/
theorem revalidated_invalid :
    ¬ ∀ (nsi : ReferenceData) (history : List ServiceTurn) (db : Database),
      Run step (Database.initial nsi) history db →
        ∀ id r, db.deals.lookup id = some r → r.row.dealState.submitted = true →
          r.row.validationStatus = .valid := by
  intro h
  let inputs := Desk.submission ++ [.request (Desk.env 4) Desk.trader (.validate Desk.dealId)]
  have hinvalid : ((Desk.after inputs).deals.lookup Desk.dealId).any (fun r =>
      r.row.dealState.submitted && decide (r.row.validationStatus = .invalid)) = true := by
    decide +kernel
  obtain ⟨r, hr, hrow⟩ := (Option.any_eq_true _ _).mp hinvalid
  obtain ⟨hsubmitted, hstatus⟩ := Bool.and_eq_true_iff.mp hrow
  have hvalid := h Desk.nsi _ _ (run_serveAll step (Database.initial Desk.nsi) inputs) Desk.dealId r
    hr hsubmitted
  rw [of_decide_eq_true hstatus] at hvalid
  cases hvalid

end FxDealManager
