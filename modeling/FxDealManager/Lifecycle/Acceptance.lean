import FxDealManager.Lifecycle.Transitions

/-!
# Accepted payments

Once the position system has accepted a payment of a deal, the deal must not be sent again. The
approval posts the payments before it commits; as long as it gets to its commit, the deal is
approved or executed from then on. When the database rejects a later call of the same approval, the
payments stay accepted and the deal stays where it was.

## Main definitions

* `acceptedFor`: the position system accepted a payment of the deal during the turn
* `lost`: the turn's request had a payment accepted and committed nothing

## Main results

* `acceptance_commits`: an approval with an accepted payment that commits releases the deal
* `lost_waiting`: one that does not commit leaves the deal waiting
* `accepted_released`: deals with accepted payments are released, in every run without such a loss
* `accepted_resendable`: a run that loses an acceptance
-/

namespace FxDealManager

open DecimalArithmetic Transactional

/-- The position system accepted a payment of the deal during the turn. -/
def acceptedFor (id : UUID) (t : ServiceTurn) : Bool :=
  t.output.any fun outcome => outcome.sends.any fun call => call.deal.id = id && call.accepted

/-- The position system accepted a payment during the turn, but the request committed nothing. -/
def lost (t : ServiceTurn) : Bool :=
  t.output.any fun outcome =>
    outcome.sends.any SendCall.accepted && outcome.transactions.isEmpty

/-- An approval with an accepted payment that commits releases the deal. -/
theorem acceptance_commits {db : Database} {input : Input} {id : UUID}
    (haccepted : acceptedFor id (turn step db input) = true)
    (hcommits : lost (turn step db input) = false) :
    ∃ r, (step db input).2.deals.lookup id = some r ∧ r.row.dealState.released = true := by
  cases input with
  | referenceData nsi => cases haccepted
  | request env user op =>
    have hends := execute_ends env user op db
    simp only [acceptedFor, lost, turn, step, Option.any_some] at haccepted hcommits ⊢
    generalize execute env user op db = o at hends haccepted hcommits ⊢
    obtain ⟨result, after, transactions, sends⟩ := o
    obtain ⟨call, hcall, hid⟩ := List.any_eq_true.mp haccepted
    obtain ⟨hid, haccept⟩ := Bool.and_eq_true_iff.mp hid
    have hid := of_decide_eq_true hid
    have hany : sends.any SendCall.accepted = true := List.any_eq_true.mpr ⟨call, hcall, haccept⟩
    cases hends with
    | stopped _ _ htransactions _ =>
      dsimp only at htransactions hcommits
      rw [htransactions, hany] at hcommits
      cases hcommits
    | exited _ hexit _ hreplay =>
      dsimp only at hexit hreplay hcall
      cases hexit with
      | sendFailed hr _ _ hs hc _ _ =>
        obtain rfl := List.mem_singleton.mp hcall
        rw [hc, sendDeal_deal, handedOver_id] at hid
        subst hid
        obtain ⟨s, hafter⟩ := lookup_decided hreplay hs hr
        exact ⟨_, hafter, rfl⟩
      | executed hr _ _ hs hc _ _ _ =>
        obtain rfl := List.mem_singleton.mp hcall
        rw [hc, sendDeal_deal, handedOver_id] at hid
        subst hid
        obtain ⟨s, hafter⟩ := lookup_executed hreplay hs hr
        exact ⟨_, hafter, rfl⟩
      | _ => cases hcall

/-- Conversely, a loss leaves a deal with an accepted payment waiting for another decision. -/
theorem lost_waiting {db : Database} {input : Input} (h : lost (turn step db input) = true) :
    ∃ id r, acceptedFor id (turn step db input) = true ∧
      (step db input).2.deals.lookup id = some r ∧ r.row.dealState = .waitingForPositioner := by
  cases input with
  | referenceData nsi => cases h
  | request env user op =>
    have hends := execute_ends env user op db
    simp only [acceptedFor, lost, turn, step, Option.any_some] at h ⊢
    generalize execute env user op db = o at hends h ⊢
    obtain ⟨result, after, transactions, sends⟩ := o
    obtain ⟨haccepted, hnone⟩ := Bool.and_eq_true_iff.mp h
    cases hends with
    | exited _ _ htransactions _ =>
      dsimp only at htransactions hnone
      rw [htransactions] at hnone
      cases hnone
    | stopped _ hdb _ hsends =>
      dsimp only at hdb hsends haccepted
      subst hdb
      cases hsends with
      | none => cases haccepted
      | @handedOver id _ r hr happrovable =>
        refine ⟨id, r, ?_, hr, happrovable.state⟩
        simpa using haccepted

/-- **No resend after acceptance**, in every run in which every approval with an accepted payment
gets to its commit: a deal of which some payment was accepted is approved or executed. -/
theorem accepted_released {nsi : ReferenceData} {history : List ServiceTurn} {db : Database}
    (h : Run step (Database.initial nsi) history db) (hcommits : ∀ t ∈ history, lost t = false) :
    ∀ id, (∃ t ∈ history, acceptedFor id t = true) →
      ∃ r, db.deals.lookup id = some r ∧
        (r.row.dealState = .approved ∨ r.row.dealState = .executed) := by
  have hinv : ∀ id, (∃ t ∈ history, acceptedFor id t = true) →
      ∃ r, db.deals.lookup id = some r ∧ r.row.dealState.released = true := by
    refine Run.invariant_of (P := fun history db => ∀ id, (∃ t ∈ history, acceptedFor id t = true) →
      ∃ r, db.deals.lookup id = some r ∧ r.row.dealState.released = true) ?_ ?_ h hcommits
    · rintro id ⟨t, ht, -⟩
      cases ht
    · rintro history db input hcommits hP id ⟨t, ht, haccepted⟩
      rcases List.mem_append.mp ht with hpast | hlast
      · obtain ⟨r, hr, hreleased⟩ := hP id ⟨t, hpast, haccepted⟩
        have hsome : ((step db input).2.deals.lookup id).isSome :=
          step_lookup_isSome (Option.isSome_iff_exists.mpr ⟨r, hr⟩)
        obtain ⟨r', hr'⟩ := Option.isSome_iff_exists.mp hsome
        exact ⟨r', hr', released_of_transition hreleased (step_transition hr hr')⟩
      · obtain rfl := List.mem_singleton.mp hlast
        exact acceptance_commits haccepted hcommits
  intro id haccepted
  obtain ⟨r, hr, hreleased⟩ := hinv id haccepted
  refine ⟨r, hr, ?_⟩
  revert hreleased
  cases r.row.dealState <;> simp [DealState.released]

namespace Desk

/-- The circumstances of the `k`-th request, in which the database rejects the request's eighth
call: in an approval, the commit. -/
def commitRejected (k : ℕ) : Env := { env k with rejects := (· = 7) }

/-- The submission, followed by an approval whose commit is rejected. -/
def lostApproval : List Input :=
  submission ++ [.request (commitRejected 4) positioner (.approve dealId)]

end Desk

/-- The executed deal of the desk. -/
theorem accepted_released_desk :
    ∃ r, (Desk.after Desk.execution).deals.lookup Desk.dealId = some r ∧
      (r.row.dealState = .approved ∨ r.row.dealState = .executed) :=
  accepted_released (run_serveAll step (Database.initial Desk.nsi) Desk.execution)
    (by decide +kernel) Desk.dealId (by decide +kernel)

/-- When the commit of an approval is rejected, the deal keeps waiting for a decision although its
payments were accepted. -/
theorem accepted_resendable :
    ¬ ∀ (nsi : ReferenceData) (history : List ServiceTurn) (db : Database),
      Run step (Database.initial nsi) history db → ∀ id r, db.deals.lookup id = some r →
        (∃ t ∈ history, acceptedFor id t = true) →
          r.row.dealState ≠ .waitingForPositioner ∧ r.row.dealState ≠ .rejected ∧
            r.row.dealState ≠ .draft := by
  intro h
  have hstate : ((Desk.after Desk.lostApproval).deals.lookup Desk.dealId).any
      (fun r => r.row.dealState = .waitingForPositioner) = true := by
    decide +kernel
  obtain ⟨r, hr, hwaiting⟩ := (Option.any_eq_true _ _).mp hstate
  have haccepted : ∃ t ∈ history step (Database.initial Desk.nsi) Desk.lostApproval,
      acceptedFor Desk.dealId t = true := by
    decide +kernel
  obtain ⟨hnot, -⟩ := h Desk.nsi _ _
    (run_serveAll step (Database.initial Desk.nsi) Desk.lostApproval) Desk.dealId r hr haccepted
  exact hnot (of_decide_eq_true hwaiting)

end FxDealManager
