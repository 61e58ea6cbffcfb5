import FxDealManager.Lifecycle.Run
import FxDealManager.Positions.Overview

/-!
# Approvals and the ledger of the position system

The position system books the payments that it accepts, and the overview adds the open exposure to
what it has booked. An approval moves payments from the exposure to the ledger: the projected
position of a currency stays the same if and only if the payments that were accepted come to the
same net amount as those that the approval takes out of the exposure, all of the deal's if it is
executed and none otherwise. Which payments of a deal were accepted is recorded nowhere, so that a
deal of which one payment was accepted is approved with both of them open.

## Main definitions

* `Ledger`: the current positions; `Ledger.book` books payments
* `acceptedPayments`: the payments of a deal that the position system accepts
* `released`: the payments that an approval takes out of the exposure

## Main results

* `execute_approving`: what an approval comes to
* `payload_accepted`: the accepted POSTs are those of the accepted payments
* `acceptedPayments_of_success`: if all answers can be read, a deal that is sent has each payment
  accepted once
* `approve_projected`: what an approval does to the projected position
* `approve_conserves_iff`: when it stays the same
* `leg_projected`: a run in which it does not
-/

namespace FxDealManager

open DecimalArithmetic Transactional

/-! ## The ledger -/

/-- The change of a position by a payment: what comes in is added, what goes out is taken off. -/
def Payment.net (p : Payment) : ℚ :=
  match p.paymentDirection with
  | .incoming => p.amount.value
  | .outgoing => -p.amount.value

/-- The net amount of payments in a currency. -/
def net (code : String) (payments : List Payment) : ℚ :=
  ((payments.filter fun p => p.currencyCode = code).map Payment.net).sum

/-- The current positions, by currency. -/
abbrev Ledger := String → ℚ

/-- Book the payments, one after another. -/
def Ledger.book (ledger : Ledger) (payments : List Payment) : Ledger :=
  payments.foldl (fun ledger p =>
    Function.update ledger p.currencyCode (ledger p.currencyCode + p.net)) ledger

/-- The accounts that the position system reports add up to its ledger. -/
def Ledger.ReportedBy (ledger : Ledger) (accounts : List FxPositionAccountResponse) : Prop :=
  ∀ code, ((positionsIn accounts code).map Decimal.value).sum = ledger code

section Net

variable {code : String} {p : Payment} {payments payments' : List Payment}

@[simp] theorem net_nil : net code [] = 0 := rfl

theorem net_cons :
    net code (p :: payments) =
      (if p.currencyCode = code then p.net else 0) + net code payments := by
  by_cases hcode : p.currencyCode = code <;> simp [net, hcode]

theorem net_append : net code (payments ++ payments') = net code payments + net code payments' := by
  simp [net]

theorem net_flatMap {α : Type} (f : α → List Payment) (as : List α) :
    net code (as.flatMap f) = (as.map fun a => net code (f a)).sum := by
  induction as with
  | nil => rfl
  | cons a as ih => rw [List.flatMap_cons, net_append, ih, List.map_cons, List.sum_cons]

/-- Booking changes a position by the net amount of the payments. -/
theorem Ledger.book_apply (ledger : Ledger) :
    ledger.book payments code = ledger code + net code payments := by
  induction payments generalizing ledger with
  | nil => simp [book]
  | cons p payments ih =>
    rw [book, List.foldl_cons, ← book, ih, net_cons]
    by_cases hcode : p.currencyCode = code
    · subst hcode
      rw [Function.update_self, if_pos rfl, add_assoc]
    · rw [Function.update_of_ne (Ne.symm hcode), if_neg hcode, zero_add]

end Net

/-! ## What is accepted -/

/-- The payments that are accepted from the `n`-th POST on, each as often as it is. -/
def acceptedOf (http : ℕ → HttpOutcome) (retries : ℕ) :
    (payments : List Payment) → (n : ℕ) → List Payment
  | [], _ => []
  | payment :: payments, n =>
    let (result, outcomes) := attempts http retries 1 n none
    List.replicate (outcomes.countP HttpOutcome.accepted) payment ++
      match result with
      | .error _ => []
      | .ok _ => acceptedOf http retries payments (n + outcomes.length)

/-- The payments of a deal that the position system accepts. -/
def acceptedPayments (env : Env) (deal : FXDeal) : List Payment :=
  match env.settings.positionSystemUrl.filter (· ≠ ""), authHeaders env.settings env.token with
  | some _, .ok _ => acceptedOf env.http env.settings.positionSendRetries.toNat deal.payments 0
  | _, _ => []

/-- The payments that are accepted in the calls of a request. -/
def Outcome.accepted (env : Env) (o : Outcome) : List Payment :=
  o.sends.flatMap fun call => acceptedPayments env call.deal

/-- The payloads of the POSTs that were accepted. -/
def acceptedPayloads (postings : List Posting) : List PaymentPayload :=
  (postings.filter (·.outcome.accepted)).map Posting.payload

section Accepted

variable {http : ℕ → HttpOutcome}

theorem acceptedPayloads_append (postings postings' : List Posting) :
    acceptedPayloads (postings ++ postings') =
      acceptedPayloads postings ++ acceptedPayloads postings' := by
  simp [acceptedPayloads]

/-- Attempts that post one payment have one payload. -/
theorem acceptedPayloads_attempts (endpoint : String) (headers : List (String × String))
    (payload : PaymentPayload) (outcomes : List HttpOutcome) :
    acceptedPayloads (outcomes.map fun outcome => ⟨endpoint, headers, payload, outcome⟩) =
      List.replicate (outcomes.countP HttpOutcome.accepted) payload := by
  induction outcomes with
  | nil => rfl
  | cons outcome outcomes ih =>
    simp only [acceptedPayloads, List.map_cons] at ih ⊢
    cases haccepted : outcome.accepted with
    | true => simp [haccepted, List.replicate_succ, ih]
    | false => simp [haccepted, ih]

theorem postPayments_accepted (d : Delivery) (payments : List Payment) (n : ℕ) :
    acceptedPayloads (postPayments http d payments n).2 =
      (acceptedOf http d.retries payments n).map
        fun p => paymentPayload d.deal p d.correlationId := by
  induction payments generalizing n with
  | nil => rfl
  | cons payment payments ih =>
    simp only [postPayments, acceptedOf]
    generalize attempts http d.retries 1 n none = attempted
    obtain ⟨result | ref, outcomes⟩ := attempted
    · simp [acceptedPayloads_attempts]
    · simp [acceptedPayloads_append, acceptedPayloads_attempts, ih]

theorem Delivery.call_postings (d : Delivery) :
    (d.call http).postings = (postPayments http d d.deal.payments 0).2 ∧
      (d.call http).result.correlationId = d.correlationId := by
  simp only [Delivery.call]
  rcases postPayments http d d.deal.payments 0 with ⟨(_ | _) | refs, postings⟩ <;>
    exact ⟨rfl, rfl⟩

/-- The POSTs of a call that were accepted are those of the accepted payments. -/
theorem payload_accepted (env : Env) (correlationId : String) (deal : FXDeal) :
    acceptedPayloads (sendDeal env correlationId deal).postings =
      (acceptedPayments env deal).map fun p => paymentPayload deal p correlationId := by
  simp only [sendDeal, acceptedPayments]
  cases env.settings.positionSystemUrl.filter (· ≠ "") with
  | none => rfl
  | some url =>
    cases hpayments : deal.payments with
    | nil => cases authHeaders env.settings env.token <;> rfl
    | cons payment payments =>
      cases authHeaders env.settings env.token with
      | error error => rfl
      | ok auth =>
        simp only [List.isEmpty_cons, Bool.false_eq_true, if_false]
        rw [(Delivery.call_postings _).1, postPayments_accepted, hpayments]

/-! ### Answers that can be read -/

/-- An acceptance comes with a body that the client can read. -/
def HttpOutcome.Readable : HttpOutcome → Prop
  | .response status _ body => 200 ≤ status ∧ status < 300 → ∃ fields, body = .ok (.obj fields)
  | .failure _ => True

/-- An answer that can be read is judged as what it is. -/
theorem judge_readable {outcome : HttpOutcome} (h : outcome.Readable) :
    outcome.accepted = true ↔ ∃ ref, judge outcome = .accepted ref := by
  cases outcome with
  | failure text => simp [HttpOutcome.accepted, judge]
  | response status text body =>
    by_cases hstatus : 200 ≤ status ∧ status < 300
    · obtain ⟨fields, rfl⟩ := h hstatus
      simp [HttpOutcome.accepted, judge, hstatus]
    · by_cases hrefused : 400 ≤ status ∧ status < 500 <;>
        simp [HttpOutcome.accepted, judge, hstatus, hrefused]

/-- A payment is sent if one attempt is accepted, which is the last one. -/
theorem attempts_readable (hreadable : ∀ n, (http n).Readable) (left attempt n : ℕ)
    (lastError : Option String) :
    (attempts http left attempt n lastError).2.countP HttpOutcome.accepted =
      (attempts http left attempt n lastError).1.toBool.toNat := by
  induction left generalizing attempt n lastError with
  | zero => rfl
  | succ left ih =>
    have hjudge := judge_readable (hreadable n)
    simp only [attempts]
    cases hn : judge (http n) with
    | accepted ref =>
      have haccepted : (http n).accepted = true := hjudge.mpr ⟨ref, hn⟩
      simp [haccepted, Except.toBool]
    | refused error =>
      have hnot : (http n).accepted = false := by simpa [hn] using hjudge
      simp [hnot, Except.toBool]
    | failed error =>
      have hnot : (http n).accepted = false := by simpa [hn] using hjudge
      by_cases hpause : left ≠ 0 ∧ pauseOverflows attempt = true
      · simp [hpause, hnot, Except.toBool]
      · simp [hpause, hnot, ih]

/-- If all answers can be read, payments that are sent were accepted once each. -/
theorem acceptedOf_readable (hreadable : ∀ n, (http n).Readable) (d : Delivery)
    (payments : List Payment) (n : ℕ) (h : (postPayments http d payments n).1.toBool = true) :
    acceptedOf http d.retries payments n = payments := by
  induction payments generalizing n with
  | nil => rfl
  | cons payment payments ih =>
    have hcount := attempts_readable hreadable d.retries 1 n none
    simp only [postPayments, acceptedOf] at h ⊢
    generalize attempts http d.retries 1 n none = attempted at h hcount ⊢
    obtain ⟨error | ref, outcomes⟩ := attempted
    · cases h
    · have hrest : (postPayments http d payments (n + outcomes.length)).1.toBool = true := by
        revert h
        cases (postPayments http d payments (n + outcomes.length)).1 <;> exact id
      rw [show outcomes.countP HttpOutcome.accepted = 1 from hcount]
      simp [ih _ hrest]

/-- If all answers can be read, a deal is sent when each of its payments was accepted once. -/
theorem acceptedPayments_of_success {env : Env} (hreadable : ∀ n, (env.http n).Readable)
    {correlationId : String} {deal : FXDeal}
    (h : (sendDeal env correlationId deal).result.success = true) :
    acceptedPayments env deal = deal.payments := by
  simp only [sendDeal] at h
  simp only [acceptedPayments]
  generalize env.settings.positionSystemUrl.filter (· ≠ "") = found at h ⊢
  cases found with
  | none => cases h
  | some url =>
    cases hpayments : deal.payments with
    | nil => cases authHeaders env.settings env.token <;> rfl
    | cons payment payments =>
      generalize authHeaders env.settings env.token = headers at h ⊢
      rw [← hpayments]
      simp only [hpayments, List.isEmpty_cons, Bool.false_eq_true, if_false] at h
      cases headers with
      | error error => cases h
      | ok auth =>
        rw [Delivery.call_success] at h
        exact acceptedOf_readable hreadable _ _ 0 h

end Accepted

/-! ## The exposure -/

/-- Two maps that differ at one key have the same entries otherwise. -/
theorem entries_perm_of_lookup {α β : Type} [DecidableEq α] {m m' : AList fun _ : α => β} {k : α}
    {v v' : β} (h : m.lookup k = some v) (h' : m'.lookup k = some v')
    (hother : ∀ j, j ≠ k → m'.lookup j = m.lookup j) :
    ∃ rest, m.entries.Perm (⟨k, v⟩ :: rest) ∧ m'.entries.Perm (⟨k, v'⟩ :: rest) := by
  have hinsert : ∀ (s : AList fun _ : α => β) (x : β), s.lookup k = some x →
      (∀ j, j ≠ k → s.lookup j = m.lookup j) →
        s.entries.Perm (⟨k, x⟩ :: List.kerase k m.entries) := by
    intro s x hx hs
    rw [← AList.entries_insert]
    refine List.lookup_ext s.nodupKeys (AList.nodupKeys _) fun j y => ?_
    by_cases hj : j = k
    · subst hj
      exact Iff.of_eq (congrArg (y ∈ ·) (hx.trans (AList.lookup_insert m).symm))
    · exact Iff.of_eq (congrArg (y ∈ ·) ((hs j hj).trans (AList.lookup_insert_ne hj).symm))
  exact ⟨List.kerase k m.entries, hinsert m v h fun _ _ => rfl, hinsert m' v' h' hother⟩

/-- The open payments of a deal. -/
def DealRecord.openPayments (r : DealRecord) : List Payment :=
  if r.row.dealState.open then r.payments.map PaymentRow.toPayment else []

theorem openPayments_of_state {r : DealRecord} {state : DealState} (h : r.row.dealState = state) :
    r.openPayments = if state.open then r.payments.map PaymentRow.toPayment else [] := by
  rw [DealRecord.openPayments, h]

/-- The open exposure of a currency, without rounding. -/
def netExposure (db : Database) (code : String) : ℚ :=
  net code ((openPayments db).map PaymentRow.toPayment)

section Exposure

variable {env : Env} {user : UserClaims} {db db' : Database} {id : UUID} {r r' : DealRecord}
  {code : String}

/-- The sign of a payment is set without rounding. -/
theorem signed_value (p : PaymentRow) : p.signed.value = p.toPayment.net := by
  have hfits : digits p.amount.toDecimal.coefficient ≤ precision := by
    rw [digits_le_iff (by decide)]
    exact lt_trans p.amount.fits (by decide)
  have hmul : ∀ negative, Decimal.mul precision p.amount.toDecimal ⟨negative, 1, 0⟩ =
      ⟨xor p.amount.toDecimal.negative negative, p.amount.toDecimal.coefficient,
        p.amount.toDecimal.exponent⟩ := by
    intro negative
    simp [Decimal.mul, Decimal.fix, hfits]
  cases hdirection : p.paymentDirection with
  | incoming =>
    simp [PaymentRow.signed, Payment.net, PaymentRow.toPayment, hdirection, hmul, Decimal.value]
  | outgoing =>
    cases hnegative : p.amount.toDecimal.negative <;>
      simp [PaymentRow.signed, Payment.net, PaymentRow.toPayment, hdirection, hmul, Decimal.value,
        hnegative]

theorem exposureIn_sum : ((exposureIn db code).map Decimal.value).sum = netExposure db code := by
  simp only [exposureIn, netExposure, net, List.filter_map, List.map_map, Function.comp_def,
    signed_value]
  rfl

theorem netExposure_eq :
    netExposure db code = (db.deals.entries.map fun e => net code e.2.openPayments).sum := by
  rw [netExposure, openPayments, List.map_flatMap, net_flatMap]
  refine congrArg List.sum (List.map_congr_left fun e _ => ?_)
  rw [DealRecord.openPayments]
  split <;> rfl

/-- The exposure when one deal has changed. -/
theorem netExposure_change (code : String) (hr : db.deals.lookup id = some r)
    (hr' : db'.deals.lookup id = some r')
    (hother : ∀ j, j ≠ id → db'.deals.lookup j = db.deals.lookup j) :
    netExposure db' code + net code r.openPayments =
      netExposure db code + net code r'.openPayments := by
  obtain ⟨rest, hperm, hperm'⟩ := entries_perm_of_lookup hr hr' hother
  rw [netExposure_eq, netExposure_eq, (hperm.map _).sum_eq, (hperm'.map _).sum_eq]
  simp only [List.map_cons, List.sum_cons]
  ring

/-- **What an approval comes to**: it stops and leaves the data alone, or it hands the deal over,
which is then executed if it was sent, and approved otherwise. -/
inductive Outcome.Approving (env : Env) (user : UserClaims) (db : Database) (id : UUID)
    (o : Outcome) : Prop
  | stopped (hresult : o.result.toBool = false) (hdb : o.database = db)
  | sent {r r' : DealRecord} {call : SendCall} {correlationId : UUID}
      (hr : db.deals.lookup id = some r) (hwaiting : r.row.dealState = .waitingForPositioner)
      (hcall : call = sendDeal env (UUID.text correlationId) (handedOver db.nsi id r user))
      (hsends : o.sends = [call]) (hresult : o.result.toBool = call.result.success)
      (hr' : o.database.deals.lookup id = some r') (hpayments : r'.payments = r.payments)
      (hstate : r'.row.dealState = if o.result.toBool then .executed else .approved)
      (hother : ∀ j, j ≠ id → o.database.deals.lookup j = db.deals.lookup j)

theorem execute_approving (env : Env) (user : UserClaims) (db : Database) (id : UUID) :
    (execute env user (.approve id) db).Approving env user db id := by
  rcases execute_cases env user (.approve id) db with
    ⟨⟨err, hresult⟩, hdb⟩ | ⟨j, result, log, sends, after, -, hexit, hreplay, hexecute⟩
  · exact .stopped (by rw [hresult]; rfl) hdb
  · rw [hexecute]
    have hother := fun k => hexit.lookup_other hreplay (j := k)
    cases hexit with
    | invalidated _ hrejects _ _ _ => cases hrejects
    | moved _ hmoves _ _ _ => cases hmoves
    | declined _ hdeclines _ _ _ _ _ => cases hdeclines
    | sendFailed hr happrovable _ hsolution hcall hfailed _ =>
      obtain ⟨s, hs⟩ := lookup_decided hreplay hsolution hr
      exact .sent hr happrovable.state hcall rfl hfailed.symm hs rfl rfl hother
    | executed hr happrovable _ hsolution hcall hsent _ _ =>
      obtain ⟨s, hs⟩ := lookup_executed hreplay hsolution hr
      exact .sent hr happrovable.state hcall rfl hsent.symm hs rfl rfl hother

/-- The payments that an approval takes out of the exposure: those of the deal, if it is
executed. -/
def released (db : Database) (id : UUID) (o : Outcome) : List Payment :=
  if o.result.toBool then
    (db.deals.lookup id).elim [] fun r => r.payments.map PaymentRow.toPayment
  else []

/-- What an approval does to the exposure. -/
theorem approve_exposure (env : Env) (user : UserClaims) (db : Database) (id : UUID)
    (code : String) :
    netExposure (execute env user (.approve id) db).database code +
        net code (released db id (execute env user (.approve id) db)) =
      netExposure db code := by
  cases execute_approving env user db id with
  | stopped hresult hdb => simp [released, hresult, hdb]
  | sent hr hwaiting _ _ _ hr' hpayments hstate hother =>
    have hchange := netExposure_change code hr hr' hother
    rw [openPayments_of_state hwaiting, openPayments_of_state hstate, hpayments] at hchange
    cases hdone : (execute env user (.approve id) db).result.toBool with
    | true => simpa [released, hdone, DealState.open, hr] using hchange
    | false => simpa [released, hdone, DealState.open] using hchange

end Exposure

/-! ## The projected position -/

/-- A request for the overview that finds the data, while the position system reports the accounts
of its ledger. -/
structure Overview (db : Database) (ledger : Ledger) where
  env : Env
  user : UserClaims
  onDate : Date
  accounts : List FxPositionAccountResponse
  response : FxPositionsResponse
  reported : ledger.ReportedBy accounts
  answered : ((positionsOverview user onDate (.ok accounts)).run env db).1 = .ok response

/-- The amounts of the currency are added without rounding. -/
def Overview.Exact {db : Database} {ledger : Ledger} (o : Overview db ledger) (code : String) :
    Prop :=
  Addable precision (positionsIn o.accounts code ++ exposureIn db code)

/-- An overview adds the ledger and the exposure. -/
theorem Overview.projected_eq {db : Database} {ledger : Ledger} (o : Overview db ledger)
    {code : String} (h : o.Exact code) : o.response.projected code =
      if code = "" then 0 else ledger code + netExposure db code := by
  rw [FxDealManager.projected_eq o.answered h, o.reported, exposureIn_sum]

section Approval

variable {env : Env} {user : UserClaims} {db : Database} {id : UUID} {ledger : Ledger}
  {code : String}

/-- An approval that fails takes nothing out of the exposure. -/
theorem released_of_failed {o : Outcome} (h : o.result.toBool = false) : released db id o = [] := by
  simp [released, h]

/-- Calls of which no POST was accepted have booked nothing. -/
theorem accepted_of_none {op : Operation}
    (h : ∀ call ∈ (execute env user op db).sends, call.accepted = false) :
    (execute env user op db).accepted env = [] := by
  rw [Outcome.accepted, List.flatMap_eq_nil_iff]
  intro call hcall
  have hnone : acceptedPayloads call.postings = [] :=
    List.map_eq_nil_iff.mpr (List.filter_eq_nil_iff.mpr (List.any_eq_false.mp (h call hcall)))
  obtain ⟨_, _, _, -, -, -, rfl⟩ := handedOver_of_sent hcall
  rw [payload_accepted] at hnone
  rw [sendDeal_deal]
  exact List.map_eq_nil_iff.mp hnone

/-- An execution has booked what it takes out of the exposure, if all answers can be read. -/
theorem accepted_of_executed (hreadable : ∀ n, (env.http n).Readable)
    (h : (execute env user (.approve id) db).result.toBool = true) :
    (execute env user (.approve id) db).accepted env =
      released db id (execute env user (.approve id) db) := by
  cases execute_approving env user db id with
  | stopped hresult _ =>
    rw [hresult] at h
    cases h
  | @sent r _ call _ hr _ hcall hsends hresult _ _ _ _ =>
    have hpayments : acceptedPayments env call.deal = call.deal.payments := by
      rw [hcall, sendDeal_deal]
      exact acceptedPayments_of_success hreadable (hcall ▸ hresult.symm.trans h)
    have hdeal : call.deal.payments = r.payments.map PaymentRow.toPayment := by
      rw [hcall, sendDeal_deal]
      rfl
    simp [Outcome.accepted, released, h, hsends, hpayments, hdeal, hr]

/-- What an approval does to the projected position. -/
theorem approve_projected (before : Overview db ledger)
    (after : Overview (execute env user (.approve id) db).database
      (ledger.book ((execute env user (.approve id) db).accepted env)))
    (hbefore : before.Exact code) (hafter : after.Exact code) :
    after.response.projected code = if code = "" then 0 else
      before.response.projected code +
        (net code ((execute env user (.approve id) db).accepted env) -
          net code (released db id (execute env user (.approve id) db))) := by
  rw [after.projected_eq hafter, before.projected_eq hbefore, Ledger.book_apply]
  split
  · rfl
  · have hexposure := approve_exposure env user db id code
    linarith

/-- **Approvals conserve the projected position exactly when the books balance**: of two overviews
right before and right after an approval, the projected positions of a currency agree if and only
if the payments that the position system accepted come to the net amount of those that the approval
took out of the exposure. They agree if nothing was accepted and the approval failed, and if the
deal was executed by answers that can all be read. -/
theorem approve_conserves_iff (before : Overview db ledger)
    (after : Overview (execute env user (.approve id) db).database
      (ledger.book ((execute env user (.approve id) db).accepted env)))
    (hbefore : before.Exact code) (hafter : after.Exact code) :
    (∀ call ∈ (execute env user (.approve id) db).sends, ∃ correlationId,
      acceptedPayloads call.postings = (acceptedPayments env call.deal).map
        fun p => paymentPayload call.deal p correlationId) ∧
    (after.response.projected code = before.response.projected code ↔ code = "" ∨
      net code ((execute env user (.approve id) db).accepted env) =
        net code (released db id (execute env user (.approve id) db))) ∧
    ((execute env user (.approve id) db).result.toBool = false →
      (∀ call ∈ (execute env user (.approve id) db).sends, call.accepted = false) →
        after.response.projected code = before.response.projected code) ∧
    ((execute env user (.approve id) db).result.toBool = true →
      (∀ n, (env.http n).Readable) →
        after.response.projected code = before.response.projected code) := by
  have hiff : after.response.projected code = before.response.projected code ↔ code = "" ∨
      net code ((execute env user (.approve id) db).accepted env) =
        net code (released db id (execute env user (.approve id) db)) := by
    rw [approve_projected before after hbefore hafter]
    by_cases hcode : code = ""
    · rw [before.projected_eq hbefore, if_pos hcode, if_pos hcode]
      simp [hcode]
    · rw [if_neg hcode, add_eq_left, sub_eq_zero, or_iff_right hcode]
  refine ⟨?_, hiff, fun hfailed hnone => hiff.mpr (.inr ?_), fun hdone hreadable =>
    hiff.mpr (.inr ?_)⟩
  · intro call hcall
    obtain ⟨_, correlationId, _, -, -, -, rfl⟩ := handedOver_of_sent hcall
    exact ⟨UUID.text correlationId, by rw [sendDeal_deal, payload_accepted]⟩
  · rw [accepted_of_none hnone, released_of_failed hfailed]
  · rw [accepted_of_executed hreadable hdone]

end Approval

/-! ### The desk -/

/-- An account that has booked one payment. -/
def Payment.account (p : Payment) : FxPositionAccountResponse where
  accountNumber := p.accountCode.getD ""
  name := none
  currencyCode := p.currencyCode
  openingBalance := none
  turnoverIn := none
  turnoverOut := none
  currentPosition := some
    { p.amount with negative := xor p.amount.negative (p.paymentDirection = .outgoing) }

theorem position_account (p : Payment) : p.account.position.value = p.net := by
  obtain ⟨id, ⟨negative, coefficient, exponent⟩, currencyCode, accountCode, direction, date⟩ := p
  rw [position_value]
  cases direction <;> cases negative <;> simp [Payment.account, Payment.net, Decimal.value]

/-- Payments that are booked into accounts of their own are reported as booked. -/
theorem reportedBy_book {ledger : Ledger} {accounts : List FxPositionAccountResponse}
    (h : ledger.ReportedBy accounts) (payments : List Payment) :
    (ledger.book payments).ReportedBy (payments.map Payment.account ++ accounts) := by
  intro code
  have hnet : ((positionsIn (payments.map Payment.account) code).map Decimal.value).sum =
      net code payments := by
    simp only [positionsIn, net, List.filter_map, List.map_map, Function.comp_def,
      position_account]
    rfl
  rw [Ledger.book_apply, ← h code, ← hnet, add_comm]
  simp [positionsIn]

namespace Desk

/-- The position system accepts the first payment and refuses the second. -/
def refusing : Env :=
  { env 4 with
    http := fun n => if n = 0 then .response 201 "accepted" (.ok (.obj []))
      else .response 422 "refused" (.error "not JSON") }

/-- The approval of the submitted deal. -/
def approval (env : Env) : Outcome := execute env positioner (.approve dealId) (after submission)

section Overviews

variable {ledger : Ledger} {accounts : List FxPositionAccountResponse}

/-- An overview. -/
def overview (db : Database) (h : ledger.ReportedBy accounts) : Overview db ledger where
  env := env 9
  user := positioner
  onDate := payload.tradeDate
  accounts := accounts
  response := ⟨payload.tradeDate, accounts,
    positionCurrencies accounts (openExposureByCurrency db)⟩
  reported := h
  answered := rfl

/-- The overview before the approval. -/
def opening (h : ledger.ReportedBy accounts) : Overview (after submission) ledger := overview _ h

/-- The overview after the approval. -/
def closing (env : Env) (h : ledger.ReportedBy accounts) :
    Overview (approval env).database (ledger.book ((approval env).accepted env)) :=
  overview _ (reportedBy_book h ((approval env).accepted env))

end Overviews

/-- Nothing was booked yet. -/
theorem reported_nil : Ledger.ReportedBy (fun _ => 0) [] := fun _ => rfl

end Desk

/-- The execution of the deal of the desk conserves the projected position in USD. -/
theorem approve_conserves_iff_desk :
    (Desk.closing (Desk.env 4) Desk.reported_nil).response.projected "USD" =
      (Desk.opening Desk.reported_nil).response.projected "USD" :=
  (approve_conserves_iff (Desk.opening Desk.reported_nil)
    (Desk.closing (Desk.env 4) Desk.reported_nil)
    ⟨-2, by decide, by decide +kernel, by decide +kernel⟩
    ⟨-2, by decide, by decide +kernel, by decide +kernel⟩).2.2.2 (by decide +kernel)
      fun _ _ => ⟨_, rfl⟩

namespace Desk

/-- An account in USD with more digits than are computed with. -/
def largeAccount : FxPositionAccountResponse where
  accountNumber := "40817840"
  name := none
  currencyCode := "USD"
  openingBalance := none
  turnoverIn := none
  turnoverOut := none
  currentPosition := some ⟨false, 10 ^ 30 + 450, 0⟩

/-- The incoming payment of the deal. -/
def leg : Payment where
  id := 200
  amount := ⟨false, 10000, -2⟩
  currencyCode := "USD"
  accountCode := some "40817840"
  paymentDirection := .incoming
  valueDate := some payload.tradeDate

/-- The position of the large account was booked. -/
theorem reported_large :
    Ledger.ReportedBy (fun code => if code = "USD" then 10 ^ 30 + 450 else 0) [largeAccount] := by
  intro code
  by_cases hcode : code = "USD"
  · have hpositions : positionsIn [largeAccount] "USD" = [⟨false, 10 ^ 30 + 450, 0⟩] := by decide
    simp [hcode, hpositions, Decimal.value]
    norm_num
  · simp [positionsIn, hcode, largeAccount, Ne.symm hcode]

/-- The incoming payment was booked, and it is open still. -/
theorem leg_changes : (closing refusing reported_nil).response.projected "USD" ≠
    (opening reported_nil).response.projected "USD" := by
  have haccepted : (approval refusing).accepted refusing = [leg] := by decide +kernel
  have hfailed : (approval refusing).result.toBool = false := by decide +kernel
  have hnet : net "USD" ((approval refusing).accepted refusing) = 100 := by
    rw [haccepted]
    simp [net, leg, Payment.net, Decimal.value]
    norm_num
  have hreleased : net "USD" (released (after submission) dealId (approval refusing)) = 0 := by
    rw [released_of_failed hfailed, net_nil]
  have hprojected := approve_projected (opening reported_nil) (closing refusing reported_nil)
    (⟨-2, by decide, by decide +kernel, by decide +kernel⟩ : Overview.Exact _ "USD")
    ⟨-2, by decide, by decide +kernel, by decide +kernel⟩
  rw [approval] at hnet hreleased
  rw [if_neg (by decide : ¬ "USD" = ""), hnet, hreleased] at hprojected
  rw [hprojected]
  simp

/-- 450 are rounded off, and 550 are rounded up. -/
theorem rounding_changes : (closing (env 4) reported_large).response.projected "USD" ≠
    (opening reported_large).response.projected "USD" := by
  have hbefore : Decimal.add precision
      ((positionsIn (opening reported_large).accounts "USD").foldl (Decimal.add precision) .zero)
      ((exposureIn (after submission) "USD").foldl (Decimal.add precision) .zero) =
        ⟨false, 10 ^ 27, 3⟩ := by
    decide +kernel
  have hafter : Decimal.add precision
      ((positionsIn (closing (env 4) reported_large).accounts "USD").foldl
        (Decimal.add precision) .zero)
      ((exposureIn (approval (env 4)).database "USD").foldl (Decimal.add precision) .zero) =
        ⟨false, 10 ^ 27 + 1, 3⟩ := by
    decide +kernel
  rw [projected_eq_add (opening reported_large).answered,
    projected_eq_add (closing (env 4) reported_large).answered, hbefore, hafter]
  simp [Decimal.value]

end Desk

/-- Two approvals that change the projected position in USD: one of which the incoming payment is
accepted and the outgoing one refused, and an execution next to a position that is rounded. -/
theorem leg_projected :
    (¬ ∀ (nsi : ReferenceData) (history : List ServiceTurn) (db : Database),
      Run step (Database.initial nsi) history db →
        ∀ (env : Env) (user : UserClaims) (id : UUID) (ledger : Ledger)
          (before : Overview db ledger)
          (after : Overview (execute env user (.approve id) db).database
            (ledger.book ((execute env user (.approve id) db).accepted env))) (code : String),
          after.response.projected code = before.response.projected code) ∧
    ¬ ∀ (nsi : ReferenceData) (history : List ServiceTurn) (db : Database),
      Run step (Database.initial nsi) history db →
        ∀ (env : Env) (user : UserClaims) (id : UUID) (ledger : Ledger)
          (before : Overview db ledger)
          (after : Overview (execute env user (.approve id) db).database
            (ledger.book ((execute env user (.approve id) db).accepted env))) (code : String),
          (execute env user (.approve id) db).result.toBool = true → (∀ n, (env.http n).Readable) →
            after.response.projected code = before.response.projected code := by
  have hrun : Run step (Database.initial Desk.nsi)
      (history step (Database.initial Desk.nsi) Desk.submission) (Desk.after Desk.submission) :=
    run_serveAll step (Database.initial Desk.nsi) Desk.submission
  constructor
  · intro h
    exact Desk.leg_changes (h Desk.nsi _ _ hrun Desk.refusing Desk.positioner Desk.dealId _
      (Desk.opening Desk.reported_nil) (Desk.closing Desk.refusing Desk.reported_nil) "USD")
  · intro h
    exact Desk.rounding_changes (h Desk.nsi _ _ hrun (Desk.env 4) Desk.positioner Desk.dealId _
      (Desk.opening Desk.reported_large) (Desk.closing (Desk.env 4) Desk.reported_large) "USD"
      (by decide +kernel) fun _ _ => ⟨_, rfl⟩)

end FxDealManager
