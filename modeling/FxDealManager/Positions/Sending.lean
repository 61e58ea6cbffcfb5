import FxDealManager.Positions.Ledger
import FxDealManager.Transactional.Retry

/-!
# The POSTs of a sending

The client posts the payments of a deal as items that are delivered by repeated attempts. A deal
is sent if and only if each of its payments is accepted within the number of attempts, with no
refusal before it. The settings may allow more attempts than can be made: the pause after the
1025th attempt for a payment overflows, which ends the call. An answer with a status of the 200s
accepts a payment whether the client can read its body or not, and the client attempts the payment
again if it cannot.

## Main definitions

* `HttpOutcome.Accepts`, `HttpOutcome.Refuses`: what the client takes for acceptance and refusal
* `sendLegs`: the payments that are posted, with the answers to their POSTs
* `Env.firstPost`, `Env.Attempted`: the POSTs for a payment; `Env.InTime`: it is accepted in time
* `Orderly`: how a call goes through the payments
* `Json.Names`: the reference that a JSON object names a payment by
* `SentInTime`: what is asked of a sending

## Main results

* `attempts_spec`, `postPayments_spec`: the loops of the client are repeated attempts
* `sent_iff_in_time`: when a sending is in time, and what holds of it in any case
* `sent_too_late`: a payment that is accepted in time, but after the pause has overflowed
* `accepted_not_reposted_iff`: when no payment is posted again after it was accepted
-/

namespace FxDealManager

open Retry (Reply tries legs delivered complete start)

/-! ## Answers -/

/-- What the client takes an answer for. -/
def HttpOutcome.reply (outcome : HttpOutcome) : Reply :=
  match judge outcome with
  | .accepted _ => .accepted
  | .refused _ => .refused
  | .failed _ => .failed

/-- A status of the 200s with a JSON object. -/
def HttpOutcome.Accepts (outcome : HttpOutcome) : Prop :=
  ∃ status text fields, outcome = .response status text (.ok (.obj fields)) ∧
    200 ≤ status ∧ status < 300

/-- A status of the 400s. -/
def HttpOutcome.Refuses (outcome : HttpOutcome) : Prop :=
  ∃ status text body, outcome = .response status text body ∧ 400 ≤ status ∧ status < 500

/-- The reference that comes with an acceptance. -/
def HttpOutcome.ref? (outcome : HttpOutcome) : Option String :=
  match judge outcome with
  | .accepted ref => ref
  | _ => none

theorem reply_eq_accepted_iff {outcome : HttpOutcome} :
    outcome.reply = .accepted ↔ outcome.Accepts := by
  cases outcome with
  | failure text => simp [HttpOutcome.reply, HttpOutcome.Accepts, judge]
  | response status text body =>
    by_cases hstatus : 200 ≤ status ∧ status < 300
    · rcases body with text | (_ | _ | _ | _ | _ | fields) <;>
        simp [HttpOutcome.reply, HttpOutcome.Accepts, judge, hstatus]
    · by_cases hrefused : 400 ≤ status ∧ status < 500 <;>
        simp [HttpOutcome.reply, HttpOutcome.Accepts, judge, hstatus, hrefused]

theorem reply_eq_refused_iff {outcome : HttpOutcome} :
    outcome.reply = .refused ↔ outcome.Refuses := by
  cases outcome with
  | failure text => simp [HttpOutcome.reply, HttpOutcome.Refuses, judge]
  | response status text body =>
    by_cases hstatus : 200 ≤ status ∧ status < 300
    · have hrefused : ¬ (400 ≤ status ∧ status < 500) := by omega
      rcases body with text | (_ | _ | _ | _ | _ | fields) <;>
        simp [HttpOutcome.reply, HttpOutcome.Refuses, judge, hstatus, hrefused]
    · by_cases hrefused : 400 ≤ status ∧ status < 500 <;>
        simp [HttpOutcome.reply, HttpOutcome.Refuses, judge, hstatus, hrefused]

theorem reply_eq_failed_iff {outcome : HttpOutcome} :
    outcome.reply = .failed ↔ ¬ outcome.Accepts ∧ ¬ outcome.Refuses := by
  rw [← reply_eq_accepted_iff, ← reply_eq_refused_iff]
  cases outcome.reply <;> simp

/-- An acceptance that cannot be read is taken for a failure. -/
theorem not_readable_iff {outcome : HttpOutcome} :
    ¬ outcome.Readable ↔ outcome.accepted = true ∧ outcome.reply = .failed := by
  cases outcome with
  | failure text => simp [HttpOutcome.Readable, HttpOutcome.accepted]
  | response status text body =>
    by_cases hstatus : 200 ≤ status ∧ status < 300
    · rcases body with text | (_ | _ | _ | _ | _ | fields) <;>
        simp [HttpOutcome.Readable, HttpOutcome.accepted, HttpOutcome.reply, judge, hstatus]
    · simp [HttpOutcome.Readable, HttpOutcome.accepted, hstatus]

/-! ## The loops of the client -/

section Loops

variable (http : ℕ → HttpOutcome)

/-- The reference of a payment that was delivered. -/
def refOf (outcomes : List HttpOutcome) : Option (Option String) :=
  if delivered HttpOutcome.reply outcomes then some (outcomes.getLast?.bind HttpOutcome.ref?)
  else none

/-- The attempts for a payment that can be made: the pause after the last one of them overflows. -/
def attemptLimit : ℕ := 1025

theorem pauseOverflows_iff {attempt : ℕ} :
    pauseOverflows attempt = true ↔ attemptLimit ≤ attempt := by
  rw [pauseOverflows, decide_eq_true_iff, Nat.pow_le_pow_iff_right (by decide), attemptLimit]
  omega

/-- **The loop over the attempts** makes repeated attempts, and ends with the reference if the last
one is accepted. -/
theorem attempts_spec (left attempt n : ℕ) (lastError : Option String)
    (hattempt : attempt ≤ attemptLimit) :
    (attempts http left attempt n lastError).2 =
        tries HttpOutcome.reply http (min left (attemptLimit + 1 - attempt)) n ∧
      (attempts http left attempt n lastError).1.toOption =
        refOf (tries HttpOutcome.reply http (min left (attemptLimit + 1 - attempt)) n) := by
  induction left generalizing attempt n lastError with
  | zero => rw [Nat.zero_min]; exact ⟨rfl, rfl⟩
  | succ left ih =>
    have hbound : min (left + 1) (attemptLimit + 1 - attempt) =
        min left (attemptLimit - attempt) + 1 := by omega
    rw [hbound]
    cases hn : judge (http n) with
    | accepted ref =>
      have hreply : HttpOutcome.reply (http n) = .accepted := by simp [HttpOutcome.reply, hn]
      rw [Retry.tries_of_not_failed (by rw [hreply]; decide)]
      simp [attempts, hn, refOf, delivered, hreply, HttpOutcome.ref?, Except.toOption]
    | refused error =>
      have hreply : HttpOutcome.reply (http n) = .refused := by simp [HttpOutcome.reply, hn]
      rw [Retry.tries_of_not_failed (by rw [hreply]; decide)]
      simp [attempts, hn, refOf, delivered, hreply, Except.toOption]
    | failed error =>
      have hreply : HttpOutcome.reply (http n) = .failed := by simp [HttpOutcome.reply, hn]
      rw [Retry.tries_of_failed hreply]
      by_cases hpause : left ≠ 0 ∧ pauseOverflows attempt = true
      · have hlast : min left (attemptLimit - attempt) = 0 := by
          have hle := pauseOverflows_iff.mp hpause.2
          omega
        rw [hlast]
        simp [attempts, hn, hpause, tries, refOf, delivered, hreply, Except.toOption]
      · cases left with
        | zero => simp [attempts, hn, tries, refOf, delivered, hreply, Except.toOption]
        | succ left =>
          have hmore : attempt + 1 ≤ attemptLimit := by
            by_contra hnot
            exact hpause ⟨Nat.succ_ne_zero left, pauseOverflows_iff.mpr (by omega)⟩
          obtain ⟨houtcomes, hresult⟩ := ih (attempt + 1) (n + 1) (some error) hmore
          rw [Nat.add_sub_add_right] at houtcomes hresult
          simp only [attempts, hn, if_neg hpause]
          have hne : tries HttpOutcome.reply http (min (left + 1) (attemptLimit - attempt))
              (n + 1) ≠ [] := by
            rw [show min (left + 1) (attemptLimit - attempt) =
              min left (attemptLimit - attempt - 1) + 1 by omega, tries]
            exact List.cons_ne_nil _ _
          refine ⟨congrArg _ houtcomes, hresult.trans ?_⟩
          obtain ⟨outcome, outcomes, heq⟩ := List.exists_cons_of_ne_nil hne
          rw [refOf, refOf, Retry.delivered_cons_of_ne_nil hne, heq, List.getLast?_cons_cons]

/-- The POSTs for a payment, by the answers to them. -/
def Delivery.postings (d : Delivery) (leg : Payment × List HttpOutcome) : List Posting :=
  leg.2.map fun outcome =>
    ⟨d.endpoint, d.headers, paymentPayload d.deal leg.1 d.correlationId, outcome⟩

/-- The references of payments that were delivered, in the order of the payments. -/
def legRefs (posted : List (Payment × List HttpOutcome)) : List String :=
  posted.flatMap fun leg => (leg.2.getLast?.bind HttpOutcome.ref?).toList

/-- The references of a sending, if all payments that are attempted are delivered. -/
def refsOf (posted : List (Payment × List HttpOutcome)) : Option (List String) :=
  if complete HttpOutcome.reply posted then some (legRefs posted) else none

/-- **The loop over the payments** makes the POSTs of repeated attempts, and ends with the
references if all payments that are attempted are delivered. -/
theorem postPayments_spec (d : Delivery) (payments : List Payment) (n : ℕ) :
    (postPayments http d payments n).2 =
        (legs HttpOutcome.reply http (min d.retries attemptLimit) payments n).flatMap d.postings ∧
      (postPayments http d payments n).1.toOption =
        refsOf (legs HttpOutcome.reply http (min d.retries attemptLimit) payments n) := by
  induction payments generalizing n with
  | nil => exact ⟨rfl, rfl⟩
  | cons payment payments ih =>
    obtain ⟨houtcomes, hresult⟩ := attempts_spec http d.retries 1 n none (by decide)
    rw [Nat.add_sub_cancel] at houtcomes hresult
    simp only [postPayments, legs]
    rw [← houtcomes] at hresult ⊢
    generalize attempts http d.retries 1 n none = attempted at hresult ⊢
    obtain ⟨error | ref, outcomes⟩ := attempted
    · have hnot : ¬ delivered HttpOutcome.reply outcomes = true := fun h => by
        simp [refOf, h, Except.toOption] at hresult
      simp [hnot, Delivery.postings, Except.toOption, refsOf, complete]
    · have hdelivered : delivered HttpOutcome.reply outcomes = true := by
        by_contra hnot
        simp [refOf, hnot, Except.toOption] at hresult
      have href : ref = outcomes.getLast?.bind HttpOutcome.ref? := by
        simpa [refOf, hdelivered, Except.toOption] using hresult
      obtain ⟨hpostings, hrefs⟩ := ih (n + outcomes.length)
      simp only [hdelivered, if_true, List.flatMap_cons, hpostings]
      generalize legs HttpOutcome.reply http (min d.retries attemptLimit) payments
        (n + outcomes.length) = posted at hrefs ⊢
      refine ⟨rfl, ?_⟩
      have hcons : refsOf ((payment, outcomes) :: posted) =
          (refsOf posted).map (ref.toList ++ ·) := by
        have hcomplete : complete HttpOutcome.reply ((payment, outcomes) :: posted) =
            complete HttpOutcome.reply posted := by
          simp [complete, hdelivered]
        rw [refsOf, refsOf, hcomplete, legRefs, List.flatMap_cons, ← legRefs, ← href]
        by_cases hall : complete HttpOutcome.reply posted = true <;> simp [hall]
      rw [hcons, ← hrefs]
      cases (postPayments http d payments (n + outcomes.length)).1 <;> rfl

/-- What a call comes to, in terms of the references. -/
theorem Delivery.call_spec (d : Delivery) {posted : List (Payment × List HttpOutcome)}
    (h : legs HttpOutcome.reply http (min d.retries attemptLimit) d.deal.payments 0 = posted) :
    (d.call http).postings = posted.flatMap d.postings ∧
      (d.call http).result.success = complete HttpOutcome.reply posted ∧
      (d.call http).result.externalRef = if complete HttpOutcome.reply posted then
          if legRefs posted = [] then none else some (",".intercalate (legRefs posted))
        else none := by
  obtain ⟨hpostings, hrefs⟩ := postPayments_spec http d d.deal.payments 0
  rw [h] at hpostings hrefs
  simp only [Delivery.call]
  generalize postPayments http d d.deal.payments 0 = result at hpostings hrefs ⊢
  obtain ⟨(error | text) | refs, postings⟩ := result
  · cases hcomplete : complete HttpOutcome.reply posted with
    | false => exact ⟨hpostings, rfl, rfl⟩
    | true => simp [refsOf, hcomplete, Except.toOption] at hrefs
  · cases hcomplete : complete HttpOutcome.reply posted with
    | false => exact ⟨hpostings, rfl, rfl⟩
    | true => simp [refsOf, hcomplete, Except.toOption] at hrefs
  · cases hcomplete : complete HttpOutcome.reply posted with
    | false => simp [refsOf, hcomplete, Except.toOption] at hrefs
    | true =>
      obtain rfl : refs = legRefs posted := by
        simpa [refsOf, hcomplete, Except.toOption] using hrefs
      exact ⟨hpostings, rfl, by simp [SendCall.result]⟩

end Loops

/-! ## The call -/

/-- The client has a URL to post to, and the headers that authorise it. -/
structure Env.Connected (env : Env) : Prop where
  url : ∃ url, env.settings.positionSystemUrl = some url ∧ url ≠ ""
  token : ∃ headers, authHeaders env.settings env.token = .ok headers

/-- The number of attempts that the settings allow for a payment; none, if it is not positive. -/
def Env.retries (env : Env) : ℕ := env.settings.positionSendRetries.toNat

/-- The number of attempts for a payment that can be made. -/
def Env.maxAttempts (env : Env) : ℕ := min env.retries attemptLimit

/-- The POST that the attempts for the `i`-th payment of a call begin with. -/
def Env.firstPost (env : Env) (i : ℕ) : ℕ :=
  start HttpOutcome.reply env.http env.maxAttempts 0 i

/-- The payments that a call posts, each with the answers to its POSTs. -/
def sendLegs (env : Env) (deal : FXDeal) : List (Payment × List HttpOutcome) :=
  match env.settings.positionSystemUrl.filter (· ≠ ""), authHeaders env.settings env.token with
  | some _, .ok _ => legs HttpOutcome.reply env.http env.maxAttempts deal.payments 0
  | _, _ => []

section Call

variable {env : Env} {correlationId : String} {deal : FXDeal}

theorem Env.connected_of_eq {url : String} {headers : List (String × String)}
    (hurl : env.settings.positionSystemUrl.filter (· ≠ "") = some url)
    (hheaders : authHeaders env.settings env.token = .ok headers) : env.Connected := by
  obtain ⟨hsome, hne⟩ := Option.filter_eq_some_iff.mp hurl
  exact ⟨⟨url, hsome, by simpa using hne⟩, headers, hheaders⟩

theorem sendLegs_of_connected (deal : FXDeal) (h : env.Connected) :
    sendLegs env deal = legs HttpOutcome.reply env.http env.maxAttempts deal.payments 0 := by
  obtain ⟨⟨url, hurl, hne⟩, headers, hheaders⟩ := h
  simp [sendLegs, hurl, hheaders, Option.filter, hne]

/-- Without a connection nothing is posted. -/
theorem sendDeal_of_not_connected (correlationId : String) (deal : FXDeal)
    (h : ¬ env.Connected) :
    sendLegs env deal = [] ∧ (sendDeal env correlationId deal).postings = [] ∧
      (sendDeal env correlationId deal).result.externalRef = none := by
  simp only [sendLegs, sendDeal]
  cases hurl : env.settings.positionSystemUrl.filter (· ≠ "") with
  | none => exact ⟨rfl, rfl, rfl⟩
  | some url =>
    cases hheaders : authHeaders env.settings env.token with
    | error error => cases deal.payments <;> exact ⟨rfl, rfl, rfl⟩
    | ok headers => exact absurd (Env.connected_of_eq hurl hheaders) h

/-- **A call makes the POSTs of its payments**, and it succeeds if they are all accepted. -/
theorem sendDeal_spec (env : Env) (correlationId : String) (deal : FXDeal) :
    ∃ d : Delivery, d.deal = deal ∧ d.correlationId = correlationId ∧
      (sendDeal env correlationId deal).postings = (sendLegs env deal).flatMap d.postings ∧
      (env.Connected → (sendDeal env correlationId deal).result.success =
        complete HttpOutcome.reply (sendLegs env deal)) ∧
      (sendDeal env correlationId deal).result.externalRef =
        if complete HttpOutcome.reply (sendLegs env deal) then
          if legRefs (sendLegs env deal) = [] then none
          else some (",".intercalate (legRefs (sendLegs env deal)))
        else none := by
  by_cases hconnected : env.Connected
  · rw [sendLegs_of_connected deal hconnected]
    obtain ⟨⟨url, hurl, hne⟩, headers, hheaders⟩ := hconnected
    cases hpayments : deal.payments with
    | nil =>
      refine ⟨⟨"", [], 0, deal, correlationId⟩, rfl, rfl, ?_⟩
      simp [sendDeal, SendCall.result, hurl, hne, Option.filter, hpayments, legs, legRefs,
        complete]
    | cons payment payments =>
      have hsend : sendDeal env correlationId deal = Delivery.call env.http
          { endpoint := rstripSlash url ++ "/payments/incoming"
            headers := ("X-Correlation-Id", correlationId) :: headers
            retries := env.retries, deal, correlationId } := by
        simp [sendDeal, hurl, hne, Option.filter, hpayments, hheaders, Env.retries]
      rw [hsend, ← hpayments]
      obtain ⟨hpostings, hsuccess, hrefs⟩ := Delivery.call_spec env.http
        { endpoint := rstripSlash url ++ "/payments/incoming"
          headers := ("X-Correlation-Id", correlationId) :: headers
          retries := env.retries, deal, correlationId } rfl
      exact ⟨_, rfl, rfl, hpostings, fun _ => hsuccess, hrefs⟩
  · obtain ⟨hlegs, hpostings, hrefs⟩ := sendDeal_of_not_connected correlationId deal hconnected
    rw [hlegs]
    exact ⟨⟨"", [], 0, deal, correlationId⟩, rfl, rfl, hpostings, fun h => absurd h hconnected,
      hrefs⟩

/-- The `i`-th payment of a call is accepted within the number of attempts, and not refused
before. -/
def Env.InTime (env : Env) (i : ℕ) : Prop :=
  ∃ k < env.maxAttempts, (env.http (env.firstPost i + k)).Accepts ∧
    ∀ j < k, ¬ (env.http (env.firstPost i + j)).Refuses

/-- The `k`-th attempt for the `i`-th payment of a call is made: the payments before are accepted
in time, and the attempts before have failed. -/
structure Env.Attempted (env : Env) (i k : ℕ) : Prop where
  before : ∀ j < i, env.InTime j
  allowed : k < env.maxAttempts
  failed : ∀ j < k, ¬ (env.http (env.firstPost i + j)).Accepts ∧
    ¬ (env.http (env.firstPost i + j)).Refuses

theorem Env.inTime_iff {i : ℕ} :
    Retry.InTime HttpOutcome.reply env.http env.maxAttempts (env.firstPost i) ↔ env.InTime i := by
  simp only [Retry.InTime, Env.InTime, reply_eq_accepted_iff, ne_eq, reply_eq_refused_iff]

theorem accepts_of_delivered {outcomes : List HttpOutcome}
    (h : delivered HttpOutcome.reply outcomes = true) :
    ∃ outcome ∈ outcomes.getLast?, outcome.Accepts := by
  rw [delivered, Option.any_eq_true] at h
  obtain ⟨outcome, hlast, haccepted⟩ := h
  exact ⟨outcome, hlast, reply_eq_accepted_iff.mp (of_decide_eq_true haccepted)⟩

/-- **How a call goes through the payments**: it posts them in their order, each at most as often
as allowed, and one after another has been accepted; it posts a payment again after a failure
only, and stops at the first payment that is not accepted. -/
structure Orderly (env : Env) (deal : FXDeal) (call : SendCall) : Prop where
  postings : ∃ endpoint headers, call.postings = (sendLegs env deal).flatMap fun leg =>
    leg.2.map fun outcome =>
      ⟨endpoint, headers, paymentPayload deal leg.1 call.result.correlationId, outcome⟩
  inOrder : (sendLegs env deal).map Prod.fst <+: deal.payments
  answers : ∀ i leg, (sendLegs env deal)[i]? = some leg → ∀ k outcome, leg.2[k]? = some outcome →
    outcome = env.http (env.firstPost i + k)
  bounded : ∀ leg ∈ sendLegs env deal, leg.2.length ≤ env.maxAttempts
  afterAccepted : ∀ before leg after, sendLegs env deal = before ++ leg :: after →
    ∀ earlier ∈ before, ∃ outcome ∈ earlier.2.getLast?, outcome.Accepts
  afterFailed : ∀ leg ∈ sendLegs env deal, ∀ outcome ∈ leg.2.dropLast,
    ¬ outcome.Accepts ∧ ¬ outcome.Refuses
  stops : ∀ before leg after, sendLegs env deal = before ++ leg :: after →
    (∀ outcome ∈ leg.2, ¬ outcome.Accepts) → after = []

theorem sendDeal_correlationId (env : Env) (correlationId : String) (deal : FXDeal) :
    (sendDeal env correlationId deal).result.correlationId = correlationId := by
  simp only [sendDeal]
  split
  · rfl
  · split
    · rfl
    · split
      · rfl
      · exact (Delivery.call_postings _).2

/-- Every call is orderly. -/
theorem sendDeal_orderly (env : Env) (correlationId : String) (deal : FXDeal) :
    Orderly env deal (sendDeal env correlationId deal) := by
  have hpostings : ∃ endpoint headers, (sendDeal env correlationId deal).postings =
      (sendLegs env deal).flatMap fun leg => leg.2.map fun outcome =>
        ⟨endpoint, headers, paymentPayload deal leg.1
          (sendDeal env correlationId deal).result.correlationId, outcome⟩ := by
    obtain ⟨d, rfl, rfl, hpostings, -⟩ := sendDeal_spec env correlationId deal
    rw [sendDeal_correlationId]
    exact ⟨d.endpoint, d.headers, hpostings⟩
  by_cases hconnected : env.Connected
  · have hlegs := sendLegs_of_connected deal hconnected
    refine ⟨hpostings, ?_, ?_, ?_, ?_, ?_, ?_⟩ <;> rw [hlegs]
    · exact Retry.map_fst_legs_prefix
    · intro i leg hleg k outcome houtcome
      rw [Retry.getElem_legs hleg] at houtcome
      exact Retry.getElem_tries houtcome
    · intro leg hleg
      obtain ⟨i, -, -, rfl⟩ := Retry.mem_legs_iff.mp hleg
      exact Retry.length_tries_le _ _
    · intro before leg after hsplit earlier hearlier
      exact accepts_of_delivered (Retry.delivered_of_legs_split hsplit earlier hearlier)
    · intro leg hleg outcome houtcome
      obtain ⟨i, -, -, k, -, hfailed, rfl⟩ := Retry.exists_dropLast_iff.mp ⟨leg, hleg, houtcome⟩
      rw [← reply_eq_accepted_iff, ← reply_eq_refused_iff, hfailed k le_rfl]
      decide
    · intro before leg after hsplit hnot
      cases after with
      | nil => rfl
      | cons next after =>
        rw [List.append_cons] at hsplit
        have hdelivered := Retry.delivered_of_legs_split hsplit leg (by simp)
        obtain ⟨outcome, hlast, haccepts⟩ := accepts_of_delivered hdelivered
        exact absurd haccepts (hnot outcome (List.mem_of_getLast? hlast))
  · have hlegs := (sendDeal_of_not_connected correlationId deal hconnected).1
    refine ⟨hpostings, ?_, ?_, ?_, ?_, ?_, ?_⟩ <;> rw [hlegs] <;> simp

/-! ### Sent in time -/

/-- The POST that the attempts for the `i`-th payment of a call begin with, if they are repeated as
often as the settings allow. -/
def Env.plannedPost (env : Env) (i : ℕ) : ℕ := start HttpOutcome.reply env.http env.retries 0 i

/-- The `i`-th payment of a call is accepted within the attempts that the settings allow, and not
refused before. -/
def Env.AcceptedInTime (env : Env) (i : ℕ) : Prop :=
  ∃ k < env.retries, (env.http (env.plannedPost i + k)).Accepts ∧
    ∀ j < k, ¬ (env.http (env.plannedPost i + j)).Refuses

/-- The JSON object names a payment by its `payment_id`, or else by its `id`; the reference is the
text of that value. A value that counts as false names nothing. -/
inductive Json.Names (body : Json) : Option String → Prop
  | paymentId {value : Json} (hvalue : body.get "payment_id" = some value)
      (htrue : value.truthy = true) : Names body (some value.text)
  | id {value : Json} (hother : ∀ other ∈ body.get "payment_id", other.truthy = false)
      (hvalue : body.get "id" = some value) (htrue : value.truthy = true) :
      Names body (some value.text)
  | nothing (hother : ∀ other ∈ body.get "payment_id", other.truthy = false)
      (hvalue : ∀ value ∈ body.get "id", value.truthy = false) : Names body none

/-- The last POST for a payment was answered with a JSON object that names it by the reference. -/
def NamedBy (leg : Payment × List HttpOutcome) (ref : Option String) : Prop :=
  ∃ status text body, leg.2.getLast? = some (.response status text (.ok body)) ∧
    200 ≤ status ∧ status < 300 ∧ body.Names ref

/-- The call has posted all payments, and lists the references that they were named by, in the
order of the payments. -/
def ListsRefs (env : Env) (deal : FXDeal) (call : SendCall) : Prop :=
  (sendLegs env deal).map Prod.fst = deal.payments ∧
    ∃ refs, List.Forall₂ NamedBy (sendLegs env deal) refs ∧
      call.result.externalRef = if refs.reduceOption = [] then none
        else some (",".intercalate refs.reduceOption)

/-- **A sending in time**: the deal is sent if and only if each payment is accepted within the
attempts that the settings allow; its payments are posted in an orderly way, and the references of
a deal that is sent are listed. -/
structure SentInTime (env : Env) (deal : FXDeal) (call : SendCall) : Prop where
  success : call.result.success = true ↔ ∀ i < deal.payments.length, env.AcceptedInTime i
  orderly : Orderly env deal call
  refs : call.result.success = true → ListsRefs env deal call

theorem Env.acceptedInTime_iff {i : ℕ} :
    Retry.InTime HttpOutcome.reply env.http env.retries (env.plannedPost i) ↔
      env.AcceptedInTime i := by
  simp only [Retry.InTime, Env.AcceptedInTime, reply_eq_accepted_iff, ne_eq, reply_eq_refused_iff]

theorem paymentRef_names (body : Json) : body.Names (paymentRef body) := by
  have hid : (∀ other ∈ body.get "payment_id", other.truthy = false) →
      body.Names (((body.get "id").filter Json.truthy).map Json.text) := by
    intro hother
    cases hvalue : body.get "id" with
    | none => exact .nothing hother (by simp [hvalue])
    | some value =>
      cases htrue : value.truthy with
      | true => simpa [Option.filter, htrue] using Json.Names.id hother hvalue htrue
      | false =>
        simp only [Option.filter, htrue, Bool.false_eq_true, if_false, Option.map_none]
        exact .nothing hother (by simp [hvalue, htrue])
  unfold paymentRef
  cases hother : body.get "payment_id" with
  | none => exact hid (by simp [hother])
  | some other =>
    cases htrue : other.truthy with
    | true => simpa [Option.filter, htrue] using Json.Names.paymentId hother htrue
    | false =>
      simp only [htrue, Bool.false_eq_true, if_false]
      exact hid (by simp [hother, htrue])

/-- A payment that is delivered is named by the reference that the client takes. -/
theorem namedBy_of_delivered {leg : Payment × List HttpOutcome}
    (h : delivered HttpOutcome.reply leg.2 = true) :
    NamedBy leg (leg.2.getLast?.bind HttpOutcome.ref?) := by
  obtain ⟨outcome, hlast, status, text, fields, rfl, hstatus⟩ := accepts_of_delivered h
  have hlast : leg.2.getLast? = some (.response status text (.ok (.obj fields))) := hlast
  refine ⟨status, text, .obj fields, hlast, hstatus.1, hstatus.2, ?_⟩
  rw [hlast, Option.bind_some, HttpOutcome.ref?]
  simp only [judge, hstatus, and_self, if_true]
  exact paymentRef_names (.obj fields)

/-- A call that succeeds lists the references. -/
theorem listsRefs_of_success (hconnected : env.Connected)
    (h : (sendDeal env correlationId deal).result.success = true) :
    ListsRefs env deal (sendDeal env correlationId deal) := by
  obtain ⟨d, -, -, -, hsuccess, hrefs⟩ := sendDeal_spec env correlationId deal
  rw [hsuccess hconnected] at h
  rw [if_pos h] at hrefs
  refine ⟨?_, (sendLegs env deal).map fun leg => leg.2.getLast?.bind HttpOutcome.ref?, ?_, ?_⟩
  · rw [sendLegs_of_connected deal hconnected] at h ⊢
    exact Retry.map_fst_legs_of_complete h
  · rw [List.forall₂_map_right_iff, List.forall₂_same]
    intro leg hleg
    exact namedBy_of_delivered (List.all_eq_true.mp h leg hleg)
  · have hlist : legRefs (sendLegs env deal) =
        ((sendLegs env deal).map fun leg => leg.2.getLast?.bind HttpOutcome.ref?).reduceOption := by
      show _ = List.filterMap id ((sendLegs env deal).map fun leg =>
        leg.2.getLast?.bind HttpOutcome.ref?)
      rw [legRefs, List.filterMap_map, List.filterMap_eq_flatMap_toList]
      rfl
    rw [hrefs, hlist]

/-- All payments are accepted within the attempts that can be made if and only if they are within
those that the settings allow, and none is accepted only after the pause has overflowed. -/
theorem forall_inTime_iff {count : ℕ} :
    (∀ i < count, env.InTime i) ↔ (∀ i < count, env.AcceptedInTime i) ∧
      ∀ i < count, ∃ k < attemptLimit, (env.http (env.plannedPost i + k)).Accepts := by
  have hle : env.maxAttempts ≤ env.retries := Nat.min_le_left _ _
  have hiff : (∀ i < count,
      Retry.InTime HttpOutcome.reply env.http env.maxAttempts (env.firstPost i)) ↔
      (∀ i < count, Retry.InTime HttpOutcome.reply env.http env.retries (env.plannedPost i)) ∧
        ∀ i < count, ∃ k < env.maxAttempts,
          HttpOutcome.reply (env.http (env.plannedPost i + k)) = .accepted :=
    Retry.forall_inTime_iff_of_le hle
  simp only [Env.inTime_iff, Env.acceptedInTime_iff, reply_eq_accepted_iff] at hiff
  refine hiff.trans (and_congr_right fun hall => forall₂_congr fun i hi => ?_)
  constructor
  · rintro ⟨k, hk, haccepts⟩
    exact ⟨k, hk.trans_le (Nat.min_le_right _ _), haccepts⟩
  · rintro ⟨k, hk, haccepts⟩
    obtain ⟨k', hk', haccepts', -⟩ := hall i hi
    rcases Nat.le_total k k' with hfirst | hfirst
    · exact ⟨k, lt_min (hfirst.trans_lt hk') hk, haccepts⟩
    · exact ⟨k', lt_min hk' (hfirst.trans_lt hk), haccepts'⟩

theorem sentInTime_iff (hconnected : env.Connected) :
    SentInTime env deal (sendDeal env correlationId deal) ↔
      ((∀ i < deal.payments.length, env.AcceptedInTime i) →
        ∀ i < deal.payments.length,
          ∃ k < attemptLimit, (env.http (env.plannedPost i + k)).Accepts) := by
  obtain ⟨d, -, -, -, hsuccess, -⟩ := sendDeal_spec env correlationId deal
  have hsent : (sendDeal env correlationId deal).result.success = true ↔
      ∀ i < deal.payments.length, env.InTime i := by
    rw [hsuccess hconnected, sendLegs_of_connected deal hconnected, Retry.complete_legs_iff]
    exact forall₂_congr fun i _ => Env.inTime_iff
  constructor
  · intro h hall
    exact (forall_inTime_iff.mp (hsent.mp (h.success.mpr hall))).2
  · intro h
    refine ⟨hsent.trans (forall_inTime_iff.trans (and_iff_left_of_imp h)), ?_, ?_⟩
    · exact sendDeal_orderly env correlationId deal
    · exact listsRefs_of_success hconnected

/-- **When a sending is in time**: always, but for calls in which each payment is accepted within
the attempts that the settings allow and one of them only after the 1025th. The payments are posted
in an orderly way and the references of a deal that is sent are listed in any case. -/
theorem sent_iff_in_time (hconnected : env.Connected) :
    (SentInTime env deal (sendDeal env correlationId deal) ↔
      ((∀ i < deal.payments.length, env.AcceptedInTime i) →
        ∀ i < deal.payments.length,
          ∃ k < attemptLimit, (env.http (env.plannedPost i + k)).Accepts)) ∧
    Orderly env deal (sendDeal env correlationId deal) ∧
    ((sendDeal env correlationId deal).result.success = true →
      ListsRefs env deal (sendDeal env correlationId deal)) :=
  ⟨sentInTime_iff hconnected, sendDeal_orderly env correlationId deal,
    listsRefs_of_success hconnected⟩

/-! ## Posted again -/

/-- No POST that was answered with acceptance is followed by another one for its payment. -/
def AcceptedLast (env : Env) (deal : FXDeal) : Prop :=
  ∀ leg ∈ sendLegs env deal, ∀ outcome ∈ leg.2.dropLast, outcome.accepted = false

/-- The answers to the POSTs of a call. -/
theorem exists_outcome_iff {outcome : HttpOutcome} :
    (∃ leg ∈ sendLegs env deal, outcome ∈ leg.2) ↔ env.Connected ∧
      ∃ i < deal.payments.length, ∃ k, env.Attempted i k ∧
        outcome = env.http (env.firstPost i + k) := by
  by_cases hconnected : env.Connected
  · rw [sendLegs_of_connected deal hconnected, Retry.exists_mem_iff, and_iff_right hconnected]
    constructor
    · rintro ⟨i, hi, hbefore, k, hk, hfailed, rfl⟩
      exact ⟨i, hi, k, ⟨fun j hj => Env.inTime_iff.mp (hbefore j hj), hk,
        fun j hj => reply_eq_failed_iff.mp (hfailed j hj)⟩, rfl⟩
    · rintro ⟨i, hi, k, hattempted, rfl⟩
      exact ⟨i, hi, fun j hj => Env.inTime_iff.mpr (hattempted.before j hj), k,
        hattempted.allowed, fun j hj => reply_eq_failed_iff.mpr (hattempted.failed j hj), rfl⟩
  · rw [(sendDeal_of_not_connected "" deal hconnected).1]
    simp [hconnected]

/-- Those of them that are followed by another POST for the payment. -/
theorem exists_dropLast_outcome_iff {outcome : HttpOutcome} :
    (∃ leg ∈ sendLegs env deal, outcome ∈ leg.2.dropLast) ↔ env.Connected ∧
      ∃ i < deal.payments.length, ∃ k, env.Attempted i k ∧ k + 1 < env.maxAttempts ∧
        outcome = env.http (env.firstPost i + k) ∧ outcome.reply = .failed := by
  by_cases hconnected : env.Connected
  · rw [sendLegs_of_connected deal hconnected, Retry.exists_dropLast_iff, and_iff_right hconnected]
    constructor
    · rintro ⟨i, hi, hbefore, k, hk, hfailed, rfl⟩
      exact ⟨i, hi, k, ⟨fun j hj => Env.inTime_iff.mp (hbefore j hj), Nat.lt_of_succ_lt hk,
        fun j hj => reply_eq_failed_iff.mp (hfailed j hj.le)⟩, hk, rfl, hfailed k le_rfl⟩
    · rintro ⟨i, hi, k, hattempted, hk, rfl, hfailed⟩
      refine ⟨i, hi, fun j hj => Env.inTime_iff.mpr (hattempted.before j hj), k, hk,
        fun j hj => ?_, rfl⟩
      rcases hj.lt_or_eq with hlt | rfl
      · exact reply_eq_failed_iff.mpr (hattempted.failed j hlt)
      · exact hfailed
  · rw [(sendDeal_of_not_connected "" deal hconnected).1]
    simp [hconnected]

theorem acceptedLast_iff :
    AcceptedLast env deal ↔ (env.Connected → ∀ i < deal.payments.length, ∀ k, env.Attempted i k →
      k + 1 < env.maxAttempts → (env.http (env.firstPost i + k)).Readable) := by
  constructor
  · intro h hconnected i hi k hattempted hk
    by_contra hunread
    obtain ⟨haccepted, hfailed⟩ := not_readable_iff.mp hunread
    obtain ⟨leg, hleg, hmem⟩ := exists_dropLast_outcome_iff.mpr
      ⟨hconnected, i, hi, k, hattempted, hk, rfl, hfailed⟩
    rw [h leg hleg _ hmem] at haccepted
    cases haccepted
  · intro h leg hleg outcome hmem
    obtain ⟨hconnected, i, hi, k, hattempted, hk, rfl, hfailed⟩ :=
      exists_dropLast_outcome_iff.mp ⟨leg, hleg, hmem⟩
    by_contra haccepted
    have hunread := not_readable_iff.mpr ⟨by simpa using haccepted, hfailed⟩
    exact hunread (h hconnected i hi k hattempted hk)

/-- **When an accepted payment is not posted again**: at every attempt that a connected client
makes, short of the last one allowed, an acceptance comes with a body that it can read. -/
theorem accepted_not_reposted_iff (env : Env) (correlationId : String) (deal : FXDeal) :
    (∃ endpoint headers, (sendDeal env correlationId deal).postings =
      (sendLegs env deal).flatMap fun leg => leg.2.map fun outcome =>
        ⟨endpoint, headers, paymentPayload deal leg.1 correlationId, outcome⟩) ∧
    (AcceptedLast env deal ↔ (env.Connected → ∀ i < deal.payments.length, ∀ k, env.Attempted i k →
      k + 1 < env.maxAttempts → (env.http (env.firstPost i + k)).Readable)) := by
  have hpostings := (sendDeal_orderly env correlationId deal).postings
  rw [sendDeal_correlationId] at hpostings
  exact ⟨hpostings, acceptedLast_iff⟩

end Call

namespace Desk

/-- The submitted deal, as its approval hands it over. -/
def sentDeal : FXDeal := handedOver nsi dealId submitted positioner

/-- The position system accepts every POST; the answer to the first one is no JSON. -/
def garbled : Env :=
  { env 4 with
    http := fun n =>
      if n = 0 then .response 200 "OK" (.error "Expecting value: line 1 column 1 (char 0)")
      else .response 201 "accepted" (.ok (.obj [("payment_id", .str "P")])) }

end Desk

/-- The deal of the desk is sent, with the references of its two payments. -/
theorem sent_iff_in_time_desk :
    (sendDeal (Desk.env 4) "C" Desk.sentDeal).answer = .ok ⟨true, "C", some "P,P", none⟩ ∧
      SentInTime (Desk.env 4) Desk.sentDeal (sendDeal (Desk.env 4) "C" Desk.sentDeal) ∧
      ListsRefs (Desk.env 4) Desk.sentDeal (sendDeal (Desk.env 4) "C" Desk.sentDeal) := by
  have hconnected : (Desk.env 4).Connected := ⟨⟨"http://positions", rfl, by decide⟩, [], rfl⟩
  obtain ⟨hiff, -, hrefs⟩ := @sent_iff_in_time (Desk.env 4) "C" Desk.sentDeal hconnected
  refine ⟨by decide +kernel, hiff.mpr fun _ i _ => ?_, hrefs (by decide +kernel)⟩
  exact ⟨0, by decide, 201, "accepted", _, rfl, by decide, by decide⟩

namespace Desk

/-- The position system is unavailable for the first 1025 POSTs, and the settings allow one more. -/
def patient : Env :=
  { env 4 with
    settings := { (env 4).settings with positionSendRetries := 1026 }
    http := fun n =>
      if n < attemptLimit then .response 503 "Service Unavailable" (.error "not JSON")
      else .response 201 "accepted" (.ok (.obj [("payment_id", .str "P")])) }

theorem patient_accepts {n : ℕ} (h : attemptLimit ≤ n) : (patient.http n).Accepts :=
  ⟨201, "accepted", _, if_neg (not_lt.mpr h), by decide, by decide⟩

theorem patient_fails {n : ℕ} (h : n < attemptLimit) :
    ¬ (patient.http n).Accepts ∧ ¬ (patient.http n).Refuses := by
  have hhttp : patient.http n = .response 503 "Service Unavailable" (.error "not JSON") := if_pos h
  rw [hhttp]
  constructor
  · rintro ⟨_, _, _, ⟨⟩, -⟩
  · rintro ⟨_, _, _, ⟨⟩, -, hstatus⟩
    exact absurd hstatus (by decide)

end Desk

/-- A deal whose first payment is accepted at the 1026th attempt allowed is not sent. -/
theorem sent_too_late : ¬ ∀ env correlationId deal, env.Connected →
    SentInTime env deal (sendDeal env correlationId deal) := by
  intro h
  have hconnected : Desk.patient.Connected := ⟨⟨"http://positions", rfl, by decide⟩, [], rfl⟩
  have hall : ∀ i < Desk.sentDeal.payments.length, Desk.patient.AcceptedInTime i := by
    intro i _
    refine ⟨attemptLimit - Desk.patient.plannedPost i, ?_, Desk.patient_accepts (by omega), ?_⟩
    · exact (Nat.sub_le _ _).trans_lt (by decide)
    · intro j hj
      exact (Desk.patient_fails (by omega)).2
  obtain ⟨k, hk, haccepts⟩ :=
    (sentInTime_iff hconnected).mp (h Desk.patient "C" Desk.sentDeal hconnected) hall 0
      (by decide +kernel)
  exact (Desk.patient_fails (by rwa [show Desk.patient.plannedPost 0 = 0 from rfl, zero_add])).1
    haccepts

/-- A payment that is accepted with an answer that is no JSON is posted again. -/
theorem accepted_reposted : ¬ ∀ env deal, AcceptedLast env deal := by
  intro h
  have hreposted : ((sendLegs Desk.garbled Desk.sentDeal).any fun leg =>
      leg.2.dropLast.any HttpOutcome.accepted) = true := by decide +kernel
  obtain ⟨leg, hleg, hany⟩ := List.any_eq_true.mp hreposted
  obtain ⟨outcome, houtcome, haccepted⟩ := List.any_eq_true.mp hany
  rw [h Desk.garbled Desk.sentDeal leg hleg outcome houtcome] at haccepted
  cases haccepted

end FxDealManager
