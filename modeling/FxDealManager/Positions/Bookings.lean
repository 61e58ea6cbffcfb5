import FxDealManager.Lifecycle.Acceptance
import FxDealManager.Lifecycle.Execution
import FxDealManager.Lifecycle.Settlement
import FxDealManager.Positions.Ledger

/-!
# Every payment is booked once

Over a whole run, the position system books the payments of a deal exactly once if the deal is
executed, and nothing of it before its approval. A deal that is left approved has some of its
payments booked, in their order, but not all. This takes two things that the service does not see
to: that every approval with an accepted payment gets to its commit, and that every acceptance can
be read.

The overview adds up accordingly: the projected position of a currency is what was booked elsewhere,
and the payments of the open and of the executed deals, except that what was booked of a deal that
is left approved counts twice.

## Main definitions

* `bookedIn`, `booked`: the payments of a deal that the position system has accepted
* `Accounted`: what is booked of a deal, by its state
* `DealRecord.livePayments`: the payments of open and of executed deals

## Main results

* `acceptedPayments_prefix`: a sending books the first payments of a deal
* `booked_step`: what one turn books
* `booked_once`: what is booked of each deal, in every run
* `projected_run`: what the overview shows, in every run
-/

namespace FxDealManager

open DecimalArithmetic Transactional

/-- The answers of the position system can all be read. -/
def Input.Readable : Input → Prop
  | .request env _ _ => ∀ n, (env.http n).Readable
  | .referenceData _ => True

/-- The payments of the deal that the position system accepts in the turn. -/
def bookedIn (id : UUID) (t : ServiceTurn) : List Payment :=
  match t.input, t.output with
  | .request env _ _, some outcome =>
    (outcome.sends.filter fun call => call.deal.id = id).flatMap fun call =>
      acceptedPayments env call.deal
  | _, _ => []

/-- The payments of the deal that the position system has accepted. -/
def booked (id : UUID) (history : List ServiceTurn) : List Payment := history.flatMap (bookedIn id)

/-- What is booked of a deal, by its state. -/
structure Accounted (r : DealRecord) (payments : List Payment) : Prop where
  executed : r.row.dealState = .executed → payments = r.payments.map PaymentRow.toPayment
  approved : r.row.dealState = .approved → payments <+: r.payments.map PaymentRow.toPayment ∧
    payments ≠ r.payments.map PaymentRow.toPayment
  other : r.row.dealState.released = false → payments = []

theorem booked_append (id : UUID) (history : List ServiceTurn) (t : ServiceTurn) :
    booked id (history ++ [t]) = booked id history ++ bookedIn id t := by
  simp [booked]

/-- Nothing is booked of a deal that was not approved. -/
theorem accounted_nil {r : DealRecord} (hstate : r.row.dealState.released = false) :
    Accounted r [] := by
  refine ⟨fun hs => ?_, fun hs => ?_, fun _ => rfl⟩
  · rw [hs] at hstate
    cases hstate
  · rw [hs] at hstate
    cases hstate

/-- What is booked of a deal depends on its state and its payments. -/
theorem Accounted.congr {r r' : DealRecord} {payments : List Payment} (h : Accounted r payments)
    (hstate : r'.row.dealState = r.row.dealState) (hpayments : r'.payments = r.payments) :
    Accounted r' payments := by
  refine ⟨fun hs => ?_, fun hs => ?_, fun hs => h.other (hstate ▸ hs)⟩
  · rw [hpayments]
    exact h.executed (hstate ▸ hs)
  · rw [hpayments]
    exact h.approved (hstate ▸ hs)

/-! ## One sending -/

section Sending

variable {http : ℕ → HttpOutcome}

/-- The payments are accepted one by one, as long as each one before is; if the sending fails, one
of them is not accepted. -/
theorem acceptedOf_prefix (hreadable : ∀ n, (http n).Readable) (d : Delivery)
    (payments : List Payment) (n : ℕ) :
    acceptedOf http d.retries payments n <+: payments ∧
      ((postPayments http d payments n).1.toBool = false →
        acceptedOf http d.retries payments n ≠ payments) := by
  induction payments generalizing n with
  | nil => exact ⟨List.prefix_refl [], fun h => by cases h⟩
  | cons payment payments ih =>
    have hcount := attempts_readable hreadable d.retries 1 n none
    simp only [postPayments, acceptedOf]
    generalize attempts http d.retries 1 n none = attempted at hcount ⊢
    obtain ⟨error | ref, outcomes⟩ := attempted
    · rw [show outcomes.countP HttpOutcome.accepted = 0 from hcount]
      exact ⟨List.nil_prefix, by simp⟩
    · obtain ⟨hhead, hmissing⟩ := ih (n + outcomes.length)
      rw [show outcomes.countP HttpOutcome.accepted = 1 from hcount]
      refine ⟨by simpa using hhead, fun hfailed heq => hmissing ?_ (by simpa using heq)⟩
      revert hfailed
      cases (postPayments http d payments (n + outcomes.length)).1 <;> exact id

/-- A sending books the first payments of the deal, and not all of them if it fails. -/
theorem acceptedPayments_prefix {env : Env} (hreadable : ∀ n, (env.http n).Readable)
    (correlationId : String) {deal : FXDeal} (hpayments : deal.payments ≠ []) :
    acceptedPayments env deal <+: deal.payments ∧
      ((sendDeal env correlationId deal).result.success = false →
        acceptedPayments env deal ≠ deal.payments) := by
  simp only [sendDeal, acceptedPayments]
  generalize env.settings.positionSystemUrl.filter (· ≠ "") = found
  cases found with
  | none => exact ⟨List.nil_prefix, fun _ => hpayments.symm⟩
  | some url =>
    generalize authHeaders env.settings env.token = headers
    simp only [List.isEmpty_iff, hpayments, if_false]
    cases headers with
    | error error => exact ⟨List.nil_prefix, fun _ => hpayments.symm⟩
    | ok auth =>
      simp only [Delivery.call_success]
      exact acceptedOf_prefix hreadable ⟨_, _, _, _, _⟩ deal.payments 0

end Sending

/-! ## One turn -/

section Turn

variable {db : Database} {input : Input} {id : UUID} {history : List ServiceTurn}

/-- Only a waiting deal is sent. -/
theorem bookedIn_eq_nil
    (h : ∀ r, db.deals.lookup id = some r → r.row.dealState ≠ .waitingForPositioner) :
    bookedIn id (turn step db input) = [] := by
  cases input with
  | referenceData nsi => rfl
  | request env user op =>
    refine List.flatMap_eq_nil_iff.mpr fun call hcall => ?_
    obtain ⟨hcall, hid⟩ := List.mem_filter.mp hcall
    obtain ⟨j, _, r, -, hr, happrovable, rfl⟩ := handedOver_of_sent hcall
    have hj : j = id := by simpa using hid
    subst hj
    exact absurd happrovable.state (h r hr)

/-- Nothing is booked of a deal of which no payment is accepted. -/
theorem bookedIn_of_not_accepted (h : acceptedFor id (turn step db input) = false) :
    bookedIn id (turn step db input) = [] := by
  cases input with
  | referenceData nsi => rfl
  | request env user op =>
    refine List.flatMap_eq_nil_iff.mpr fun call hcall => ?_
    obtain ⟨hcall, hid⟩ := List.mem_filter.mp hcall
    have hnot : call.accepted = false := by
      have hnone := List.any_eq_false.mp h call hcall
      simpa [of_decide_eq_true hid] using hnone
    have hnone : acceptedPayloads call.postings = [] :=
      List.map_eq_nil_iff.mpr (List.filter_eq_nil_iff.mpr (List.any_eq_false.mp hnot))
    obtain ⟨_, _, _, -, -, -, rfl⟩ := handedOver_of_sent hcall
    rw [payload_accepted] at hnone
    rw [sendDeal_deal]
    exact List.map_eq_nil_iff.mp hnone

/-- An approval that gets to its end books the payments of its deal, or the first ones of them. -/
theorem booked_approval {env : Env} {user : UserClaims} (hreadable : ∀ n, (env.http n).Readable)
    (hP : ∀ id r, db.deals.lookup id = some r → ∀ nsi, PaymentsInv nsi id r) {r r' : DealRecord}
    (hr : db.deals.lookup id = some r)
    (hr' : (step db (.request env user (.approve id))).2.deals.lookup id = some r')
    (hreleased : r'.row.dealState.released = true)
    (hwaiting : r.row.dealState = .waitingForPositioner) :
    Accounted r' (bookedIn id (turn step db (.request env user (.approve id)))) := by
  cases execute_approving env user db id with
  | stopped _ hdb =>
    simp only [step, hdb, hr, Option.some.injEq] at hr'
    subst hr'
    rw [hwaiting] at hreleased
    cases hreleased
  | @sent r₀ r₁ call correlationId hr₀ _ hcall hsends hresult hr₁ hpayments hstate _ =>
    obtain rfl : r₀ = r := Option.some.inj (hr₀.symm.trans hr)
    obtain rfl : r₁ = r' := Option.some.inj (hr₁.symm.trans hr')
    have hdeal : call.deal = handedOver db.nsi id r₀ user := by rw [hcall, sendDeal_deal]
    have hbooked : bookedIn id (turn step db (.request env user (.approve id))) =
        acceptedPayments env (handedOver db.nsi id r₀ user) := by
      simp [bookedIn, turn, step, hsends, hdeal]
    have hall : (handedOver db.nsi id r₀ user).payments =
        r₁.payments.map PaymentRow.toPayment := by
      rw [hpayments]
      rfl
    have hne : (handedOver db.nsi id r₀ user).payments ≠ [] := by
      rw [hall, hpayments]
      simpa using (hP id r₀ hr db.nsi).submitted (by simp [hwaiting, DealState.submitted])
    rw [hbooked]
    cases hsuccess : (sendDeal env (UUID.text correlationId)
        (handedOver db.nsi id r₀ user)).result.success with
    | true =>
      have hexecuted : r₁.row.dealState = .executed := by rw [hstate, hresult, hcall, hsuccess]; rfl
      refine ⟨fun _ => ?_, by simp [hexecuted], by simp [hexecuted, DealState.released]⟩
      rw [acceptedPayments_of_success hreadable hsuccess, hall]
    | false =>
      have happroved : r₁.row.dealState = .approved := by rw [hstate, hresult, hcall, hsuccess]; rfl
      obtain ⟨hhead, hmissing⟩ :=
        acceptedPayments_prefix hreadable (UUID.text correlationId) hne
      refine ⟨by simp [happroved], fun _ => ?_, by simp [happroved, DealState.released]⟩
      rw [← hall]
      exact ⟨hhead, hmissing hsuccess⟩

/-- Only an approval of its own releases a deal. -/
theorem approve_of_released {r r' : DealRecord} (hr : db.deals.lookup id = some r)
    (hr' : (step db input).2.deals.lookup id = some r')
    (hbefore : r.row.dealState.released = false) (hafter : r'.row.dealState.released = true) :
    r.row.dealState = .waitingForPositioner ∧
      ∃ env user, input = .request env user (.approve id) := by
  rcases step_change hr hr' with rfl | ⟨env, user, op, result, added, rfl, hchange⟩
  · rw [hbefore] at hafter
    cases hafter
  · cases hchange with
    | edited hstate _ hch _ => simp [hch.dealState, hstate, DealState.released] at hafter
    | invalidated _ _ _ _ => simp [hbefore] at hafter
    | validated _ _ _ _ _ => simp [hbefore] at hafter
    | moved hmoves _ _ => cases hmoves <;> cases hafter
    | decided hdecision _ =>
      refine ⟨hdecision.waiting, env, user, ?_⟩
      cases hdecision with
      | declined _ _ _ _ => cases hafter
      | unsent _ _ _ _ => rfl
      | sent _ _ _ _ _ => rfl

/-- **What one turn books**: the payments of a deal that it executes, the first ones of a deal that
it leaves approved, and nothing otherwise. -/
theorem booked_step (hcommits : lost (turn step db input) = false) (hreadable : input.Readable)
    (hP : ∀ id r, db.deals.lookup id = some r → ∀ nsi, PaymentsInv nsi id r)
    (hbooked : ∀ id r, db.deals.lookup id = some r → Accounted r (booked id history))
    (hnew : ∀ id, db.deals.lookup id = none → booked id history = []) :
    (∀ id r', (step db input).2.deals.lookup id = some r' →
        Accounted r' (booked id (history ++ [turn step db input]))) ∧
      ∀ id, (step db input).2.deals.lookup id = none →
        booked id (history ++ [turn step db input]) = [] := by
  have hunknown : ∀ id, db.deals.lookup id = none →
      booked id (history ++ [turn step db input]) = [] := by
    intro id hnone
    rw [booked_append, hnew id hnone, List.nil_append]
    exact bookedIn_eq_nil fun r hr => by simp [hnone] at hr
  refine ⟨fun id r' hr' => ?_, fun id hnone => hunknown id ?_⟩
  · cases hr : db.deals.lookup id with
    | none =>
      rw [hunknown id hr]
      refine accounted_nil ?_
      have hstates : ∀ j q, (step db input).2.deals.lookup j = some q →
          db.deals.lookup j = none → q.row.dealState.released = false := by
        refine forall_records_step (P := fun j q => db.deals.lookup j = none →
          q.row.dealState.released = false) ?_ ?_ ?_
        · intro env user payload j row _ hrow _
          simp [(ofDeal_eq_ok hrow).dealState, newDeal, DealState.released]
        · intro env user op j result q q' added _ _ hq _ hnone
          simp [hnone] at hq
        · intro j q hq hnone
          simp [hnone] at hq
      exact hstates id r' hr' hr
    | some r =>
      have hold := hbooked id r hr
      rw [booked_append]
      by_cases hbefore : r.row.dealState.released = true
      · have hstate : r'.row.dealState = r.row.dealState := by
          rcases step_transition hr hr' with heq | hsucc
          · exact heq
          · cases hs : r.row.dealState <;>
              simp [hs, DealState.released, DealState.successors] at hbefore hsucc
        have hdraft : r.row.dealState ≠ .draft := by
          intro hs
          rw [hs] at hbefore
          cases hbefore
        have hpayments : r'.payments = r.payments :=
          congrArg Contract.payments (step_contract hr hr' hdraft)
        have hquiet : bookedIn id (turn step db input) = [] := by
          refine bookedIn_eq_nil fun q hq hs => ?_
          obtain rfl : r = q := Option.some.inj (hr.symm.trans hq)
          rw [hs] at hbefore
          cases hbefore
        rw [hquiet, List.append_nil]
        exact hold.congr hstate hpayments
      · have hbefore := Bool.eq_false_iff.mpr hbefore
        rw [hold.other hbefore, List.nil_append]
        by_cases hafter : r'.row.dealState.released = true
        · obtain ⟨hwaiting, env, user, rfl⟩ := approve_of_released hr hr' hbefore hafter
          exact booked_approval hreadable hP hr hr' hafter hwaiting
        · have hnot : acceptedFor id (turn step db input) = false := by
            refine Bool.eq_false_iff.mpr fun haccepted => hafter ?_
            obtain ⟨q, hq, hreleased⟩ := acceptance_commits haccepted hcommits
            rwa [← Option.some.inj (hq.symm.trans hr')]
          rw [bookedIn_of_not_accepted hnot]
          exact accounted_nil (Bool.eq_false_iff.mpr hafter)
  · by_contra hsome
    have hstays : ((step db input).2.deals.lookup id).isSome :=
      step_lookup_isSome (Option.ne_none_iff_isSome.mp hsome)
    rw [hnone] at hstays
    cases hstays

end Turn

/-! ## Whole runs -/

/-- What is booked of each deal, in every run. -/
theorem booked_run {nsi : ReferenceData} {history : List ServiceTurn} {db : Database}
    (h : Run step (Database.initial nsi) history db) (hcommits : ∀ t ∈ history, lost t = false)
    (hreadable : ∀ t ∈ history, t.input.Readable) :
    (∀ id r, db.deals.lookup id = some r → Accounted r (booked id history)) ∧
      ∀ id, db.deals.lookup id = none → booked id history = [] := by
  have hinv : (∀ id r, db.deals.lookup id = some r → ∀ nsi, PaymentsInv nsi id r) ∧
      (∀ id r, db.deals.lookup id = some r → Accounted r (booked id history)) ∧
        ∀ id, db.deals.lookup id = none → booked id history = [] := by
    refine Run.invariant_of (C := fun t => lost t = false ∧ t.input.Readable)
      (P := fun history db => (∀ id r, db.deals.lookup id = some r → ∀ nsi, PaymentsInv nsi id r) ∧
        (∀ id r, db.deals.lookup id = some r → Accounted r (booked id history)) ∧
          ∀ id, db.deals.lookup id = none → booked id history = []) ?_ ?_ h
      fun t ht => ⟨hcommits t ht, hreadable t ht⟩
    · exact ⟨fun id r hr => by simp at hr, fun id r hr => by simp at hr, fun _ _ => rfl⟩
    · rintro history db input ⟨hcommits, hreadable⟩ ⟨hP, hbooked, hnew⟩
      exact ⟨paymentsInv_step hP, booked_step hcommits hreadable hP hbooked hnew⟩
  exact hinv.2

/-- **Every payment is booked once**, in every run in which every approval with an accepted payment
gets to its commit and every acceptance can be read: all payments of an executed deal are booked,
each once and in their order, the first ones but not all of a deal that is left approved, and none
of any other deal. -/
theorem booked_once {nsi : ReferenceData} {history : List ServiceTurn} {db : Database}
    (h : Run step (Database.initial nsi) history db) (hcommits : ∀ t ∈ history, lost t = false)
    (hreadable : ∀ t ∈ history, t.input.Readable) (id : UUID) :
    (∀ r, db.deals.lookup id = some r → Accounted r (booked id history)) ∧
      (db.deals.lookup id = none → booked id history = []) := by
  obtain ⟨hbooked, hnew⟩ := booked_run h hcommits hreadable
  exact ⟨hbooked id, hnew id⟩

/-- The answers at the desk can all be read. -/
theorem Desk.readable_execution :
    ∀ t ∈ history step (Database.initial Desk.nsi) Desk.execution, t.input.Readable := by
  intro t ht
  have hinput : t.input ∈ Desk.execution := by
    rw [← history_inputs step (Database.initial Desk.nsi) Desk.execution]
    exact List.mem_map_of_mem ht
  have hall : ∀ input ∈ Desk.execution, input.Readable := by
    simp only [Desk.execution, Desk.submission, Desk.validation, Desk.creation, List.cons_append,
      List.nil_append, List.forall_mem_cons, List.not_mem_nil, false_implies, implies_true,
      and_true]
    exact ⟨fun _ _ => ⟨_, rfl⟩, fun _ _ => ⟨_, rfl⟩, fun _ _ => ⟨_, rfl⟩, fun _ _ => ⟨_, rfl⟩⟩
  exact hall t.input hinput

/-- The executed deal of the desk is booked. -/
theorem booked_once_desk :
    Accounted Desk.executed (booked Desk.dealId
      (history step (Database.initial Desk.nsi) Desk.execution)) := by
  have hrun := run_serveAll step (Database.initial Desk.nsi) Desk.execution
  have hcommits : ∀ t ∈ history step (Database.initial Desk.nsi) Desk.execution,
      lost t = false := by
    decide +kernel
  obtain ⟨hbooked, -⟩ := booked_once hrun hcommits Desk.readable_execution Desk.dealId
  exact hbooked Desk.executed (Option.some_get _).symm

/-! ## The overview -/

/-- The payments of all deals that the position system accepts in the turn. -/
def bookings (t : ServiceTurn) : List Payment :=
  match t.input, t.output with
  | .request env _ _, some outcome => outcome.accepted env
  | _, _ => []

/-- The ledger after a history. -/
def Ledger.after (ledger : Ledger) (history : List ServiceTurn) : Ledger :=
  ledger.book (history.flatMap bookings)

/-- The payments of a deal that is open or executed. -/
def DealRecord.livePayments (r : DealRecord) : List Payment :=
  if r.row.dealState.open ∨ r.row.dealState = .executed then r.payments.map PaymentRow.toPayment
  else []

/-- The payments that are booked of a deal that is left approved. -/
def heldPayments (history : List ServiceTurn) (id : UUID) (r : DealRecord) : List Payment :=
  if r.row.dealState = .approved then booked id history else []

section Sums

variable {ids : List UUID} {code : String}

/-- What calls book, deal by deal. -/
theorem net_calls (hnodup : ids.Nodup) (f : SendCall → List Payment) {calls : List SendCall}
    (h : ∀ call ∈ calls, call.deal.id ∈ ids) :
    net code (calls.flatMap f) = (ids.map fun id =>
      net code ((calls.filter fun call => call.deal.id = id).flatMap f)).sum := by
  induction calls with
  | nil => simp
  | cons call calls ih =>
    obtain ⟨hcall, hcalls⟩ := List.forall_mem_cons.mp h
    have hcount : ids.count call.deal.id = 1 := List.count_eq_one_of_mem hnodup hcall
    have hfirst := List.sum_map_ite_eq ids (fun _ => net code (f call)) (fun _ => 0) call.deal.id
    rw [List.flatMap_cons, net_append, ih hcalls]
    have hcons : ∀ id,
        net code (((call :: calls).filter fun call => call.deal.id = id).flatMap f) =
        (if id = call.deal.id then net code (f call) else 0) +
          net code ((calls.filter fun call => call.deal.id = id).flatMap f) := by
      intro id
      by_cases hid : call.deal.id = id
      · simp [hid, net_append]
      · simp [hid, Ne.symm hid]
    simp only [hcons, List.sum_map_add, hfirst, hcount]
    simp

/-- What a history books, deal by deal. -/
theorem net_bookings (hnodup : ids.Nodup) {history : List ServiceTurn}
    (h : ∀ t ∈ history, ∀ outcome ∈ t.output, ∀ call ∈ outcome.sends, call.deal.id ∈ ids) :
    net code (history.flatMap bookings) = (ids.map fun id => net code (booked id history)).sum := by
  induction history with
  | nil => simp [booked]
  | cons t history ih =>
    obtain ⟨ht, hhistory⟩ := List.forall_mem_cons.mp h
    have hturn : net code (bookings t) = (ids.map fun id => net code (bookedIn id t)).sum := by
      obtain ⟨before, input, output, after⟩ := t
      cases input with
      | referenceData nsi => simp [bookings, bookedIn]
      | request env user op =>
        cases output with
        | none => simp [bookings, bookedIn]
        | some outcome => exact net_calls hnodup _ (ht outcome rfl)
    simp only [booked, List.flatMap_cons, net_append, List.sum_map_add] at ih ⊢
    rw [hturn, ih hhistory]

end Sums

/-- Every deal that was ever sent is in the table. -/
theorem sent_isSome {nsi : ReferenceData} {history : List ServiceTurn} {db : Database}
    (h : Run step (Database.initial nsi) history db) :
    ∀ t ∈ history, ∀ outcome ∈ t.output, ∀ call ∈ outcome.sends,
      (db.deals.lookup call.deal.id).isSome := by
  refine Run.invariant (P := fun history db => ∀ t ∈ history, ∀ outcome ∈ t.output,
    ∀ call ∈ outcome.sends, (db.deals.lookup call.deal.id).isSome) ?_ ?_ h
  · intro t ht
    cases ht
  · intro history db input hpast
    refine List.forall_mem_append.mpr ⟨fun t ht outcome houtcome call hcall =>
      step_lookup_isSome (hpast t ht outcome houtcome call hcall), ?_⟩
    intro t ht outcome houtcome call hcall
    obtain rfl := List.mem_singleton.mp ht
    cases input with
    | referenceData nsi => cases houtcome
    | request env user op =>
      cases houtcome
      obtain ⟨id, _, r, -, hr, -, rfl⟩ := handedOver_of_sent hcall
      refine step_lookup_isSome ?_
      rw [sendDeal_deal, handedOver_id, hr]
      rfl

/-- What is open and what is booked of a deal. -/
theorem net_open_booked {id : UUID} {r : DealRecord} {history : List ServiceTurn} {code : String}
    (h : Accounted r (booked id history)) :
    net code r.openPayments + net code (booked id history) =
      net code r.livePayments + net code (heldPayments history id r) := by
  simp only [DealRecord.openPayments, DealRecord.livePayments, heldPayments]
  cases hstate : r.row.dealState
  case executed => simp [DealState.open, h.executed hstate]
  case approved => simp [DealState.open]
  all_goals
    have hnil := h.other (by rw [hstate]; rfl)
    simp [DealState.open, hnil]

/-- **What the overview shows** after a run in which every approval with an accepted payment gets to
its commit and every acceptance can be read: next to what the ledger held before, the payments of
the open and of the executed deals, and once more those that are booked of deals left approved. -/
theorem projected_run {nsi : ReferenceData} {history : List ServiceTurn} {db : Database}
    (h : Run step (Database.initial nsi) history db) (hcommits : ∀ t ∈ history, lost t = false)
    (hreadable : ∀ t ∈ history, t.input.Readable) {ledger : Ledger}
    (o : Overview db (ledger.after history)) {code : String} (hexact : o.Exact code) :
    o.response.projected code = if code = "" then 0 else
      ledger code + (db.deals.entries.map fun e => net code e.2.livePayments).sum +
        (db.deals.entries.map fun e => net code (heldPayments history e.1 e.2)).sum := by
  obtain ⟨hbooked, -⟩ := booked_run h hcommits hreadable
  have hledger : net code (history.flatMap bookings) =
      (db.deals.entries.map fun e => net code (booked e.1 history)).sum := by
    have hkeys : ∀ t ∈ history, ∀ outcome ∈ t.output, ∀ call ∈ outcome.sends,
        call.deal.id ∈ db.deals.keys := by
      intro t ht outcome houtcome call hcall
      have hsome := sent_isSome h t ht outcome houtcome call hcall
      exact AList.mem_keys.mpr (AList.lookup_isSome.mp hsome)
    have hentries : db.deals.entries.keys = db.deals.entries.map Sigma.fst := rfl
    rw [net_bookings db.deals.nodupKeys hkeys, hentries, List.map_map]
    rfl
  have hdeals : ∀ e ∈ db.deals.entries, net code e.2.openPayments + net code (booked e.1 history) =
      net code e.2.livePayments + net code (heldPayments history e.1 e.2) := by
    intro e he
    exact net_open_booked (hbooked e.1 e.2 (AList.mem_lookup_iff.mpr he))
  rw [o.projected_eq hexact]
  refine if_congr Iff.rfl rfl ?_
  calc ledger.after history code + netExposure db code
      = ledger code + ((db.deals.entries.map fun e => net code e.2.openPayments).sum +
          (db.deals.entries.map fun e => net code (booked e.1 history)).sum) := by
        rw [Ledger.after, Ledger.book_apply, hledger, netExposure_eq]
        ring
    _ = ledger code + (db.deals.entries.map fun e =>
          net code e.2.livePayments + net code (heldPayments history e.1 e.2)).sum := by
        rw [← List.sum_map_add, List.map_congr_left hdeals]
    _ = _ := by rw [List.sum_map_add, add_assoc]

namespace Desk

/-- What the position system has booked at the desk. -/
def deskBookings : List Payment :=
  (history step (Database.initial nsi) execution).flatMap bookings

/-- The overview after the execution, of accounts that nothing else was booked in. -/
def finalOverview : Overview (after execution)
    (Ledger.after (fun _ => 0) (history step (Database.initial nsi) execution)) :=
  overview (after execution) (reportedBy_book reported_nil deskBookings)

end Desk

/-- The overview after the execution of the deal at the desk. -/
theorem projected_run_desk :
    Desk.finalOverview.response.projected "USD" = if "USD" = "" then 0 else
      0 + ((Desk.after Desk.execution).deals.entries.map fun e => net "USD" e.2.livePayments).sum +
        ((Desk.after Desk.execution).deals.entries.map fun e => net "USD" (heldPayments
          (history step (Database.initial Desk.nsi) Desk.execution) e.1 e.2)).sum := by
  have hrun : Run step (Database.initial Desk.nsi)
      (history step (Database.initial Desk.nsi) Desk.execution) (Desk.after Desk.execution) :=
    run_serveAll step (Database.initial Desk.nsi) Desk.execution
  have hcommits : ∀ t ∈ history step (Database.initial Desk.nsi) Desk.execution,
      lost t = false := by
    decide +kernel
  have hexact : Desk.finalOverview.Exact "USD" :=
    ⟨-2, by decide, by decide +kernel, by decide +kernel⟩
  exact projected_run hrun hcommits Desk.readable_execution Desk.finalOverview hexact

end FxDealManager
