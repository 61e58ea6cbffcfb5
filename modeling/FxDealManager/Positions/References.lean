import FxDealManager.Positions.Sending

/-!
# References of accepted payments

The position system answers an acceptance with a reference. The references of a deal that is sent
are recorded in its result, and in the audit entry that an approval appends. The result of a
sending that fails holds none, so that the references of the payments that were accepted before the
failure are lost.

## Main definitions

* `PositionSendResult.Records`: a result records a reference
* `RefsRecorded`: a call records all references that it was given

## Main results

* `refsRecorded_iff`: a call records its references if it succeeds or was given none
* `references_recorded_iff`: the same, with the audit entry of an approval
* `reference_lost`: a reference that is not recorded
-/

namespace FxDealManager

open Transactional
open Retry (legs delivered complete)

/-- The reference is one of those that the result lists. -/
def PositionSendResult.Records (result : PositionSendResult) (ref : String) : Prop :=
  ∃ refs : List String, result.externalRef = some (",".intercalate refs) ∧ ref ∈ refs

/-- Every reference that came with an acceptance is recorded in the result. -/
def RefsRecorded (call : SendCall) : Prop :=
  ∀ posting ∈ call.postings, ∀ ref ∈ posting.outcome.ref?, call.result.Records ref

/-- A reference comes with an acceptance. -/
theorem reply_of_ref {outcome : HttpOutcome} {ref : String} (h : ref ∈ outcome.ref?) :
    outcome.reply = .accepted := by
  rw [HttpOutcome.ref?, Option.mem_def] at h
  rw [HttpOutcome.reply]
  cases hjudge : judge outcome with
  | accepted _ => rfl
  | refused _ => rw [hjudge] at h; cases h
  | failed _ => rw [hjudge] at h; cases h

section Call

variable {env : Env} {correlationId : String} {deal : FXDeal}

/-- The POSTs of a call, by what they come to. -/
theorem exists_posting_iff {outcome : HttpOutcome} :
    (∃ posting ∈ (sendDeal env correlationId deal).postings, posting.outcome = outcome) ↔
      ∃ leg ∈ sendLegs env deal, outcome ∈ leg.2 := by
  obtain ⟨endpoint, headers, hpostings⟩ := (sendDeal_orderly env correlationId deal).postings
  rw [hpostings]
  constructor
  · rintro ⟨posting, hposting, rfl⟩
    obtain ⟨leg, hleg, hmem⟩ := List.mem_flatMap.mp hposting
    obtain ⟨answer, hanswer, rfl⟩ := List.mem_map.mp hmem
    exact ⟨leg, hleg, hanswer⟩
  · rintro ⟨leg, hleg, houtcome⟩
    exact ⟨_, List.mem_flatMap.mpr ⟨leg, hleg, List.mem_map.mpr ⟨outcome, houtcome, rfl⟩⟩, rfl⟩

/-- The reference that comes with an acceptance is one of the call. -/
theorem mem_legRefs (hconnected : env.Connected) {leg : Payment × List HttpOutcome}
    {outcome : HttpOutcome} {ref : String} (hleg : leg ∈ sendLegs env deal)
    (houtcome : outcome ∈ leg.2) (href : ref ∈ outcome.ref?) :
    ref ∈ legRefs (sendLegs env deal) := by
  have hlast : leg.2.getLast? = some outcome := by
    rw [sendLegs_of_connected deal hconnected] at hleg
    obtain ⟨i, hi, -, rfl⟩ := Retry.mem_legs_iff.mp hleg
    exact Retry.getLast_tries_of_mem houtcome (by rw [reply_of_ref href]; decide)
  refine List.mem_flatMap.mpr ⟨leg, hleg, ?_⟩
  rw [hlast, Option.mem_toList]
  exact href

theorem complete_sendLegs_iff (hconnected : env.Connected) :
    complete HttpOutcome.reply (sendLegs env deal) = true ↔
      ∀ i < deal.payments.length, env.InTime i := by
  rw [sendLegs_of_connected deal hconnected, Retry.complete_legs_iff]
  exact forall₂_congr fun i _ => Env.inTime_iff

/-- **A call records its references** if and only if all payments are accepted in time, or no
acceptance comes with a reference. -/
theorem refsRecorded_iff :
    RefsRecorded (sendDeal env correlationId deal) ↔ (env.Connected →
      (∀ i < deal.payments.length, env.InTime i) ∨
        ∀ i < deal.payments.length, ∀ k, env.Attempted i k →
          (env.http (env.firstPost i + k)).ref? = none) := by
  obtain ⟨d, -, -, -, -, hrefs⟩ := sendDeal_spec env correlationId deal
  constructor
  · intro h hconnected
    by_cases hcomplete : complete HttpOutcome.reply (sendLegs env deal) = true
    · exact .inl ((complete_sendLegs_iff hconnected).mp hcomplete)
    · refine .inr fun i hi k hattempted => ?_
      rw [if_neg hcomplete] at hrefs
      by_contra hsome
      obtain ⟨ref, href⟩ := Option.ne_none_iff_exists'.mp hsome
      have houtcome := exists_outcome_iff.mpr ⟨hconnected, i, hi, k, hattempted, rfl⟩
      obtain ⟨posting, hposting, hposted⟩ := exists_posting_iff.mpr houtcome
      obtain ⟨refs, hrecorded, -⟩ := h posting hposting ref (hposted ▸ href)
      rw [hrefs] at hrecorded
      cases hrecorded
  · intro h posting hposting ref href
    obtain ⟨leg, hleg, hmem⟩ := exists_posting_iff.mp ⟨posting, hposting, rfl⟩
    obtain ⟨hconnected, i, hi, k, hattempted, houtcome⟩ :=
      exists_outcome_iff.mp ⟨leg, hleg, hmem⟩
    rcases h hconnected with hall | hnone
    · have hlisted := mem_legRefs hconnected hleg hmem href
      rw [if_pos ((complete_sendLegs_iff hconnected).mpr hall),
        if_neg (List.ne_nil_of_mem hlisted)] at hrefs
      exact ⟨_, hrefs, hlisted⟩
    · rw [houtcome, hnone i hi k hattempted] at href
      cases href

end Call

/-- The entry of an approval that commits holds the result of its call. -/
theorem approve_entry {env : Env} {user : UserClaims} {db : Database} {id : UUID}
    (hcommits : (execute env user (.approve id) db).transactions ≠ []) :
    ∀ call ∈ (execute env user (.approve id) db).sends,
      ∃ entry ∈ (execute env user (.approve id) db).database.audit,
        Entry id .positionSend user.email none (some (sendJson call.result)) entry := by
  have hends := execute_ends env user (.approve id) db
  generalize execute env user (.approve id) db = o at hends hcommits ⊢
  obtain ⟨result, after, transactions, sends⟩ := o
  intro call hcall
  cases hends with
  | stopped _ _ htransactions _ => exact absurd htransactions hcommits
  | exited _ hexit _ hreplay =>
    dsimp only at hexit hreplay hcall ⊢
    rw [replay_audit hreplay]
    cases hexit with
    | sendFailed _ _ _ hsolution _ _ hentry =>
      obtain rfl := List.mem_singleton.mp hcall
      refine ⟨_, List.mem_append_right _ ?_, hentry⟩
      rw [← entries, entries_decisionStatements hsolution]
      exact List.mem_singleton_self _
    | executed _ _ _ hsolution _ _ hentry _ =>
      obtain rfl := List.mem_singleton.mp hcall
      refine ⟨_, List.mem_append_right _ ?_, hentry⟩
      rw [← entries, entries_append, entries_decisionStatements hsolution]
      exact List.mem_append_left _ (List.mem_singleton_self _)
    | _ => cases hcall

/-- **When the references of a sending are recorded**: if and only if all payments are accepted in
time, or no acceptance comes with a reference; and the audit entry of an approval that commits
holds what the result does. -/
theorem references_recorded_iff (env : Env) (correlationId : String) (deal : FXDeal) :
    (RefsRecorded (sendDeal env correlationId deal) ↔ (env.Connected →
      (∀ i < deal.payments.length, env.InTime i) ∨
        ∀ i < deal.payments.length, ∀ k, env.Attempted i k →
          (env.http (env.firstPost i + k)).ref? = none)) ∧
    ∀ user db id, (execute env user (.approve id) db).transactions ≠ [] →
      ∀ call ∈ (execute env user (.approve id) db).sends,
        ∃ entry ∈ (execute env user (.approve id) db).database.audit,
          Entry id .positionSend user.email none (some (sendJson call.result)) entry :=
  ⟨refsRecorded_iff, fun _ _ _ => approve_entry⟩

namespace Desk

/-- The position system accepts the first payment with a reference and refuses the second. -/
def halfway : Env :=
  { env 4 with
    http := fun n =>
      if n = 0 then .response 201 "accepted" (.ok (.obj [("payment_id", .str "P")]))
      else .response 422 "refused" (.error "not JSON") }

end Desk

/-- The reference of a payment that is accepted before another one is refused is lost. -/
theorem reference_lost :
    ¬ ∀ env correlationId deal, RefsRecorded (sendDeal env correlationId deal) := by
  intro h
  have hgiven : ((sendDeal Desk.halfway "C" Desk.sentDeal).postings.any fun posting =>
      posting.outcome.ref? = some "P") = true := by decide +kernel
  have hnone : (sendDeal Desk.halfway "C" Desk.sentDeal).result.externalRef = none := by
    decide +kernel
  obtain ⟨posting, hposting, href⟩ := List.any_eq_true.mp hgiven
  obtain ⟨refs, hrecorded, -⟩ :=
    h Desk.halfway "C" Desk.sentDeal posting hposting "P" (of_decide_eq_true href)
  rw [hnone] at hrecorded
  cases hrecorded

end FxDealManager
