import FxDealManager.Domain.JsonValues
import FxDealManager.Reporting.Completeness
import FxDealManager.Reporting.Listings
import FxDealManager.Reporting.Notifications

/-!
# What the notifications tell

The services write what happened into the audit log, as JSON texts; the notifications read these
texts again, by the names of fields. Whatever the services do, in every run, the notification of an
entry tells the event that the entry records.

## Main definitions

* `storedPayload`: what the notifications read from the stored text of an entry
* `notificationOf`: the notification of a stored entry
* `AuditEvent`: what the entries of the audit log record
* `AuditEvent.title`, `AuditEvent.description`, `AuditEvent.kind`: what a notification tells of an
  event

## Main results

* `storedPayload_dumps`: what is read is what was written
* `toNotification_title`, `toNotification_description`, `toNotification_kind`: what a notification
  tells of the event that its entry records
* `notification_run`: every notification tells an event, in every run
-/

namespace FxDealManager

open Transactional

/-! ## Stored entries -/

section Stored

-- the float that the text of a number with a fraction or an exponent stands for
variable (float : String → Json)

/-- `_json`, on the stored text. -/
def storedPayload : Option String → Json
  | none => .obj []
  | some text =>
    if text = "" then .obj []
    else
      match Json.loads float text with
      | some (.obj fields) => .obj fields
      | _ => .obj []

/-- `_to_notification` of a row that is stored with the text of its new value. -/
def notificationOf (lastReadAt : Option Timestamp) (row : AuditLogEntry)
    (newValue : Option String) : NotificationResponse :=
  let payload := storedPayload float newValue
  { toNotification lastReadAt row with
    title := notificationTitle row.action payload
    description := notificationDescription row payload
    kind := notificationKind row.action payload }

/-- What is read from the text of a value without floats is what was written. -/
theorem storedPayload_dumps {value : Json} (h : value.FloatFree) :
    storedPayload float (some value.dumps) = payloadOf (some value) := by
  have hne : value.dumps ≠ "" := by
    intro heq
    obtain ⟨c, cs, hcs, -⟩ := Json.solid_write h
    have hnil : value.write = [] := String.ofList_eq_empty_iff.mp heq
    rw [hcs] at hnil
    cases hnil
  rw [storedPayload, if_neg hne, Json.loads_dumps float h]
  cases value <;> rfl

end Stored

/-! ## Events -/

/-- What an entry of the audit log records. -/
inductive AuditEvent where
  | created
  | edited (payload : DealUpdateRequest)
  | validated (valueDate : Date) (payments : ℕ)
  | invalid (issues : List ValidationIssue)
  | moved (state : DealState)
  | cancelled (comment : Option String)
  | declined (decision : ApprovalDecision) (comment : Option String)
  | sent (result : PositionSendResult)
  | executed (result : PositionSendResult)
  | reportFailed (errors : List RegulatoryNsiError)

namespace AuditEvent

/-- The action of the entry. -/
def action : AuditEvent → AuditAction
  | created => .create
  | edited _ => .update
  | validated _ _ => .validate
  | invalid _ => .validateFailed
  | moved _ | cancelled _ | declined _ _ | executed _ => .statusChange
  | sent _ => .positionSend
  | reportFailed _ => .regulatoryReportFailed

/-- The new value of the entry. -/
def newValue : AuditEvent → Json
  | created => statusJson .draft
  | edited payload => payload.toJson
  | validated valueDate payments => validatedJson valueDate payments
  | invalid issues => issuesJson issues
  | moved state => statusJson state
  | cancelled comment => cancelledJson comment
  | declined decision comment => decisionJson decision comment
  | sent result => sendJson result
  | executed result => executedJson result
  | reportFailed errors => nsiErrorsJson errors

/-- What a notification of the event has as its title. -/
def title : AuditEvent → String
  | created => "Создана FX-сделка"
  | validated _ _ => "Сделка прошла контроль"
  | invalid _ => "Контроль сделки не пройден"
  | moved state => "Статус сделки изменён: " ++ state.value
  | cancelled _ => "Статус сделки изменён: CANCELLED"
  | declined _ _ => "Статус сделки изменён: REJECTED"
  | executed _ => "Статус сделки изменён: EXECUTED"
  | sent _ => "Платежи отправлены в ПОЗИЦИИ"
  | event => titleCase event.action.value

/-- What an entry is about, and by whom. -/
def subject (row : AuditLogEntry) : String :=
  let id := String.ofList ((UUID.text row.entityId).toList.take 8)
  s!"{row.entityType.value} {id} · {row.createdBy.val}"

/-- What a notification of the event has as its description: the error of a sending that failed, the
correlation id of one that succeeded, and else what the entry is about, and by whom. -/
def description (row : AuditLogEntry) : AuditEvent → String
  | sent result => result.error.getD ("correlation_id=" ++ result.correlationId)
  | executed result => "correlation_id=" ++ result.correlationId
  | _ => subject row

/-- The kind of a notification of the event: there is danger in a validation and in a sending that
failed, and in nothing else. -/
def kind : AuditEvent → String
  | invalid _ => "danger"
  | sent result => if result.success then "info" else "danger"
  | edited _ | reportFailed _ => "info"
  | _ => "success"

end AuditEvent

/-- The answer of a sending: a correlation id, and an error text if and only if it failed. -/
structure PositionSendResult.Sound (result : PositionSendResult) : Prop where
  correlationId : result.correlationId ≠ ""
  error : result.error = none ↔ result.success = true
  told : ∀ e ∈ result.error, e ≠ ""

/-- The event can happen. -/
def AuditEvent.Sound : AuditEvent → Prop
  | .sent result | .executed result => result.Sound
  | _ => True

/-- The entry records the event. -/
structure AuditLogEntry.Records (entry : AuditLogEntry) (event : AuditEvent) : Prop where
  sound : event.Sound
  action : entry.action = event.action
  newValue : entry.newValue = some event.newValue

/-! ### The values are texts -/

theorem floatFree_ofString? (s : Option String) : (Json.ofString? s).FloatFree := by
  cases s
  · exact .null
  · exact .str _

theorem floatFree_toJson (payload : DealUpdateRequest) : payload.toJson.FloatFree := by
  have hfield : ∀ {α : Type} (name : String) (field : Field α) (text : α → String),
      ∀ f ∈ DealUpdateRequest.jsonField name field text, f.2.FloatFree := by
    intro α name field text f hf
    cases field with
    | absent => cases hf
    | null =>
      rw [List.mem_singleton.mp hf]
      exact .null
    | value a =>
      rw [List.mem_singleton.mp hf]
      exact .str _
  refine .obj fun f hf => ?_
  simp only [List.mem_append] at hf
  rcases hf with ((((((((hf | hf) | hf) | hf) | hf) | hf) | hf) | hf) | hf) | hf <;>
    exact hfield _ _ _ f hf

/-- The new value of an entry has no floats. -/
theorem AuditEvent.floatFree (event : AuditEvent) : event.newValue.FloatFree := by
  cases event with
  | edited payload => exact floatFree_toJson payload
  | invalid issues =>
    refine .arr fun item hitem => ?_
    obtain ⟨issue, -, rfl⟩ := List.mem_map.mp hitem
    exact .obj (by simp [Json.FloatFree.str])
  | reportFailed errors =>
    refine .arr fun item hitem => ?_
    obtain ⟨error, -, rfl⟩ := List.mem_map.mp hitem
    exact .obj (by simp [Json.FloatFree.str])
  | created | validated _ _ | moved _ | cancelled _ | declined _ _ | sent _ | executed _ =>
    exact .obj (by simp [Json.FloatFree.str, Json.FloatFree.int, Json.FloatFree.bool,
      floatFree_ofString?])

/-! ### What a notification tells -/

/-- An edit has no field that the notifications look for. -/
theorem get_toJson (payload : DealUpdateRequest) {key : String}
    (hkey : key ∉ ["trade_date", "deal_type", "operation_direction", "buy_currency",
      "sell_currency", "amount", "rate", "counterparty_id", "value_date", "comment"]) :
    payload.toJson.get key = none := by
  have hfield : ∀ {α : Type} {name : String} (field : Field α) (text : α → String), name ≠ key →
      ∀ f ∈ DealUpdateRequest.jsonField name field text, f.1 ≠ key := by
    intro α name field text hname f hf
    cases field with
    | absent => cases hf
    | null | value => rwa [List.mem_singleton.mp hf]
  simp only [List.mem_cons, List.not_mem_nil, or_false, not_or] at hkey
  obtain ⟨h₁, h₂, h₃, h₄, h₅, h₆, h₇, h₈, h₉, h₁₀⟩ := hkey
  rw [DealUpdateRequest.toJson, Json.get, Option.map_eq_none_iff, List.find?_eq_none]
  intro f hf
  rw [List.mem_reverse] at hf
  simp only [List.mem_append] at hf
  rw [decide_eq_true_eq]
  rcases hf with ((((((((hf | hf) | hf) | hf) | hf) | hf) | hf) | hf) | hf) | hf
  · exact hfield _ _ (Ne.symm h₁) f hf
  · exact hfield _ _ (Ne.symm h₂) f hf
  · exact hfield _ _ (Ne.symm h₃) f hf
  · exact hfield _ _ (Ne.symm h₄) f hf
  · exact hfield _ _ (Ne.symm h₅) f hf
  · exact hfield _ _ (Ne.symm h₆) f hf
  · exact hfield _ _ (Ne.symm h₇) f hf
  · exact hfield _ _ (Ne.symm h₈) f hf
  · exact hfield _ _ (Ne.symm h₉) f hf
  · exact hfield _ _ (Ne.symm h₁₀) f hf

section Notice

variable {payload : Json} {key : String} {entry : AuditLogEntry} {event : AuditEvent}
  {lastReadAt : Option Timestamp}

theorem givenValue_str {text : String} (h : payload.get key = some (.str text)) (hne : text ≠ "") :
    givenValue key payload = some (.str text) := by
  simp [givenValue, h, Json.truthy, hne]

theorem givenValue_none (h : payload.get key = none) : givenValue key payload = none := by
  rw [givenValue, h, Option.filter_none]

theorem givenValue_null (h : payload.get key = some .null) : givenValue key payload = none := by
  rw [givenValue, h]
  rfl

theorem DealState.value_ne_empty (state : DealState) : state.value ≠ "" := by
  cases state <;> decide

theorem title_statusChange (state : DealState)
    (h : payload.get "status" = some (.str state.value)) :
    notificationTitle .statusChange payload = "Статус сделки изменён: " ++ state.value := by
  simp only [notificationTitle, givenValue_str h state.value_ne_empty]
  rfl

/-- The payload of an edit has nothing that the notifications look for. -/
theorem payloadOf_edited (payload : DealUpdateRequest) (hkey : key = "status" ∨ key = "error" ∨
    key = "correlation_id") : givenValue key (payloadOf (some payload.toJson)) = none := by
  refine givenValue_none (get_toJson payload ?_)
  rcases hkey with rfl | rfl | rfl <;> decide

/-- The error of a sending is what the notifications find. -/
theorem error_sent {result : PositionSendResult} (h : result.Sound) :
    givenValue "error" (payloadOf (some (sendJson result))) = result.error.map Json.str := by
  obtain ⟨success, correlationId, externalRef, error⟩ := result
  cases error with
  | none => exact givenValue_null rfl
  | some error => exact givenValue_str rfl (h.told error rfl)

theorem toNotification_title (h : entry.Records event) :
    (toNotification lastReadAt entry).title = event.title := by
  have htitle : (toNotification lastReadAt entry).title =
      notificationTitle event.action (payloadOf (some event.newValue)) := by
    rw [toNotification, h.action, h.newValue]
  rw [htitle]
  cases event with
  | moved state => exact title_statusChange state rfl
  | cancelled comment => exact title_statusChange .cancelled rfl
  | declined decision comment => exact title_statusChange .rejected rfl
  | executed result => exact title_statusChange .executed rfl
  | created | edited _ | validated _ _ | invalid _ | sent _ | reportFailed _ => rfl

/-- What most notifications have as their description. -/
theorem description_plain (herror : givenValue "error" payload = none)
    (hcorrelation : givenValue "correlation_id" payload = none) :
    notificationDescription entry payload = AuditEvent.subject entry := by
  simp only [notificationDescription, herror, hcorrelation]
  rfl

theorem description_correlation {correlationId : String}
    (herror : givenValue "error" payload = none)
    (h : payload.get "correlation_id" = some (.str correlationId)) (hne : correlationId ≠ "") :
    notificationDescription entry payload = "correlation_id=" ++ correlationId := by
  simp only [notificationDescription, herror, givenValue_str h hne]
  rfl

theorem toNotification_description (h : entry.Records event) :
    (toNotification lastReadAt entry).description = event.description entry := by
  have hdescription : (toNotification lastReadAt entry).description =
      notificationDescription entry (payloadOf (some event.newValue)) := by
    rw [toNotification, h.newValue]
  have hsound := h.sound
  rw [hdescription]
  cases event with
  | sent result =>
    rw [AuditEvent.description]
    cases herror : result.error with
    | none =>
      refine description_correlation ?_ rfl hsound.correlationId
      rw [AuditEvent.newValue, error_sent hsound, herror, Option.map_none]
    | some error =>
      have hfound := error_sent hsound
      rw [herror, Option.map_some] at hfound
      simp only [AuditEvent.newValue, notificationDescription, hfound]
      rfl
  | executed result => exact description_correlation (givenValue_none rfl) rfl hsound.correlationId
  | edited payload =>
    exact description_plain (payloadOf_edited payload (by simp))
      (payloadOf_edited payload (by simp))
  | created | validated _ _ | invalid _ | moved _ | cancelled _ | declined _ _ | reportFailed _ =>
    exact description_plain (givenValue_none rfl) (givenValue_none rfl)

theorem toNotification_kind (h : entry.Records event) :
    (toNotification lastReadAt entry).kind = event.kind := by
  have hkind : (toNotification lastReadAt entry).kind =
      notificationKind event.action (payloadOf (some event.newValue)) := by
    rw [toNotification, h.action, h.newValue]
  have hsound := h.sound
  rw [hkind]
  unfold notificationKind
  cases event with
  | sent result =>
    rw [AuditEvent.newValue, error_sent hsound, AuditEvent.kind]
    cases hsuccess : result.success with
    | true =>
      rw [hsound.error.mpr hsuccess]
      rfl
    | false =>
      obtain ⟨error, herror⟩ : ∃ error, result.error = some error := by
        refine Option.ne_none_iff_exists'.mp fun hnone => ?_
        rw [hsound.error.mp hnone] at hsuccess
        cases hsuccess
      rw [herror]
      rfl
  | edited payload =>
    rw [AuditEvent.newValue, payloadOf_edited payload (.inr (.inl rfl))]
    rfl
  | created | validated _ _ | invalid _ | moved _ | cancelled _ | declined _ _ | executed _
  | reportFailed _ => rfl

/-- What is read from the stored text of an entry is what was recorded. -/
theorem storedPayload_records (float : String → Json) (h : entry.Records event) :
    storedPayload float (entry.newValue.map Json.dumps) = payloadOf entry.newValue := by
  rw [h.newValue, Option.map_some, storedPayload_dumps float event.floatFree]

end Notice

/-! ## The answers of sendings -/

section Sendings

variable {http : ℕ → HttpOutcome} {env : Env} {correlationId : String}

/-- What is told of a payment that is not accepted. -/
def Unaccepted.text : Unaccepted → String
  | .gaveUp error => error
  | .raised text => text

theorem attempts_error {left attempt n : ℕ} {lastError : Option String} {reason : Unaccepted}
    (h : (attempts http left attempt n lastError).1 = .error reason) : reason.text ≠ "" := by
  have hstatus : ∀ (status : ℕ) (text : String), s!"{status} {text}" ≠ "" := by
    intro status text heq
    simpa using congrArg String.length heq
  induction left generalizing attempt n lastError with
  | zero =>
    cases h
    cases lastError with
    | none => decide
    | some text =>
      by_cases htext : text = ""
      · rw [htext]
        decide
      · simp [Unaccepted.text, Option.filter_some, htext]
  | succ left ih =>
    rw [attempts] at h
    split at h
    next => cases h
    next error' hrefused =>
      cases h
      unfold judge at hrefused
      split at hrefused
      next => cases hrefused
      next status text body =>
        split_ifs at hrefused
        · split at hrefused <;> cases hrefused
        · cases hrefused
          exact hstatus _ _
    next =>
      split_ifs at h
      · cases h
        decide
      · exact ih h

theorem postPayments_error {d : Delivery} {payments : List Payment} {n : ℕ} {reason : Unaccepted}
    (h : (postPayments http d payments n).1 = .error reason) : reason.text ≠ "" := by
  induction payments generalizing n with
  | nil => cases h
  | cons payment payments ih =>
    rw [postPayments] at h
    dsimp only at h
    split at h
    next reason' hattempts =>
      cases h
      exact attempts_error hattempts
    next ref hattempts =>
      dsimp only at h
      cases hmore :
        (postPayments http d payments (n + (attempts http d.retries 1 n none).2.length)).1 with
      | error reason' =>
        rw [hmore] at h
        cases h
        exact ih hmore
      | ok refs =>
        rw [hmore] at h
        cases h

theorem Delivery.call_sound {d : Delivery} (h : d.correlationId ≠ "") :
    (d.call http).result.Sound := by
  rw [Delivery.call]
  cases hposted : postPayments http d d.deal.payments 0 with
  | mk result postings =>
    cases result with
    | error reason =>
      have htext := postPayments_error (congrArg Prod.fst hposted)
      cases reason with
      | gaveUp error =>
        refine ⟨h, by simp [SendCall.result], ?_⟩
        rintro e ⟨⟩
        exact htext
      | raised text =>
        refine ⟨h, by simp [SendCall.result], ?_⟩
        rintro e ⟨⟩
        exact htext
    | ok refs => exact ⟨h, by simp [SendCall.result], by simp [SendCall.result]⟩

/-- The answer of a sending tells an error if and only if it failed. -/
theorem sendDeal_sound (deal : FXDeal) (h : correlationId ≠ "") :
    (sendDeal env correlationId deal).result.Sound := by
  rw [sendDeal]
  split
  next => exact ⟨h, by simp [SendCall.result], by simp [SendCall.result]⟩
  next =>
    split
    next => exact ⟨h, by simp [SendCall.result], by simp [SendCall.result]⟩
    next =>
      split
      next error _ =>
        refine ⟨h, by simp [SendCall.result], ?_⟩
        rintro e ⟨⟩ heq
        exact absurd (String.append_eq_empty_iff.mp heq).1 (by decide)
      next => exact Delivery.call_sound h

theorem uuidText_ne_empty (id : UUID) : UUID.text id ≠ "" := by
  intro heq
  have hlength := congrArg String.length heq
  simp [UUID.text] at hlength

end Sendings

/-! ## Every run -/

section Run

variable {env : Env} {user : UserClaims} {nsi : ReferenceData} {db : Database} {id : UUID}
  {op : Operation} {r₀ r r' : DealRecord} {state : DealState}
  {result : Except ServiceError DealResponse} {added : List AuditLogEntry}

theorem Entry.records {action : AuditAction} {createdBy : String} {oldValue newValue : Option Json}
    {entry : AuditLogEntry} (h : Entry id action createdBy oldValue newValue entry)
    (event : AuditEvent) (haction : event.action = action)
    (hvalue : newValue = some event.newValue) (hsound : event.Sound) : entry.Records event :=
  ⟨hsound, h.action.trans haction.symm, h.newValue.trans hvalue⟩

/-- The entries of a decision record events. -/
theorem Decision.records (h : Decision env user nsi id r₀ op state result added) :
    ∀ entry ∈ added, ∃ event, entry.Records event := by
  have hsent : ∀ (correlationId : UUID) (deal : FXDeal),
      (sendDeal env (UUID.text correlationId) deal).result.Sound := fun correlationId deal =>
    sendDeal_sound deal (uuidText_ne_empty correlationId)
  cases h with
  | declined _ _ _ hentry =>
    rw [List.forall_mem_singleton]
    exact ⟨_, hentry.records (.declined _ _) rfl rfl trivial⟩
  | unsent _ hcall _ hentry =>
    rw [List.forall_mem_singleton]
    exact ⟨_, hentry.records (.sent _) rfl rfl (hcall ▸ hsent _ _)⟩
  | sent _ hcall _ hentry hentry' =>
    rw [List.forall_mem_cons, List.forall_mem_singleton]
    exact ⟨⟨_, hentry.records (.sent _) rfl rfl (hcall ▸ hsent _ _)⟩,
      _, hentry'.records (.executed _) rfl rfl (hcall ▸ hsent _ _)⟩

/-- The entries of a change record events. -/
theorem Change.records (h : Change env user nsi id r₀ r op result r' added) :
    ∀ entry ∈ added, ∃ event, entry.Records event := by
  cases h with
  | edited _ _ _ hentry =>
    rw [List.forall_mem_singleton]
    exact ⟨_, hentry.records (.edited _) rfl rfl trivial⟩
  | invalidated _ _ _ hentry =>
    rw [List.forall_mem_singleton]
    exact ⟨_, hentry.records (.invalid _) rfl rfl trivial⟩
  | validated _ _ _ _ hentry =>
    rw [List.forall_mem_singleton]
    exact ⟨_, hentry.records (.validated _ _) rfl rfl trivial⟩
  | moved hmoves _ hentry =>
    rw [List.forall_mem_singleton]
    cases hmoves with
    | submit _ _ | takeForEdit _ =>
      exact ⟨_, hentry.records (.moved _) rfl rfl trivial⟩
    | cancel _ => exact ⟨_, hentry.records (.cancelled _) rfl rfl trivial⟩
  | decided hdecision _ => exact hdecision.records

/-- Every entry of the audit log records an event. -/
def EntriesRecord (db : Database) : Prop := ∀ entry ∈ db.audit, ∃ event, entry.Records event

theorem entriesRecord_step {input : Input} (h : EntriesRecord db) :
    EntriesRecord (step db input).2 := by
  cases input with
  | referenceData nsi => exact h
  | request env user op =>
    rcases execute_cases env user op db with
      ⟨-, hdb⟩ | ⟨id, result, log, _, after, -, hexit, hreplay, houtcome⟩
    · simpa only [step, hdb] using h
    · simp only [step, houtcome]
      intro entry hentry
      rw [replay_audit hreplay] at hentry
      rcases List.mem_append.mp hentry with hold | hnew
      · exact h entry hold
      · obtain ⟨r', hr'⟩ := Option.isSome_iff_exists.mp (hexit.lookup_isSome hreplay)
        rcases hexit.created_or_changed hreplay hr' with
          ⟨_, _, entry', -, -, -, hcreated, -, hadded⟩ | ⟨r₀, r, -, -, hchange⟩
        · obtain rfl : entry = entry' := List.mem_singleton.mp (hadded ▸ hnew)
          exact ⟨_, hcreated.records (.created) rfl rfl trivial⟩
        · exact hchange.records entry hnew

/-- Nothing is committed but an entry with the complaints of a report. -/
def Complains (db : Database) (c : ServiceProgress) : Prop :=
  c.committed = db ∨ ∃ errors entry, entry.Records (.reportFailed errors) ∧
    replay [Statement.insertAudit entry] db = .ok c.committed

theorem generate_complains {filter : ReportFilter} {createdBy : String} :
    (generate filter createdBy).EnsuresFrom env (Progress.start db) 0 fun _ => Complains db := by
  have hrej : ∀ c : ServiceProgress, c.committed = db → c.MayReject env
      fun (_ : Except ServiceError (Except ReportError (List RegulatoryItem))) => Complains db :=
    fun _ hc _ => .inl hc
  refine lookupCode_from (hrej _ rfl) (.query_bind (hrej _ rfl) ?_)
  refine .query_bind (hrej _ rfl) (.query_bind (hrej _ rfl) (.query_bind (hrej _ rfl) ?_))
  rw [Progress.start_work]
  dsimp only
  split
  next herrors =>
    refine .bind_assoc (freshId_from (.bind_assoc (.ask_bind (.bind_assoc ?_))))
    refine ofDb_from (fun _ _ => .inl rfl) fun name hname => ?_
    refine executeAll_from (hrej _ rfl) (fun _ _ => .inl rfl) fun d hd => ?_
    exact .commit_bind (hrej _ rfl) (.pure (.inr ⟨_, _, ⟨trivial, rfl, rfl⟩, hd⟩))
  next herrors => exact .pure (.inl rfl)

theorem entriesRecord_tableStep {input : TableInput} (h : EntriesRecord db) :
    EntriesRecord (tableStep db input).2 := by
  cases input with
  | service input => exact entriesRecord_step h
  | report env user filter fmt =>
    have hreport : (regulatoryDealsReport user filter fmt).EnsuresFrom env (Progress.start db) 0
        fun _ => Complains db :=
      .require_bind (fun _ => .inl rfl) fun _ =>
        generate_complains.bind (fun _ _ hc => .pure hc) fun _ _ hc => hc
    simp only [tableStep]
    rcases hreport.run with hsame | ⟨errors, entry, hrecords, hreplay⟩
    · rwa [hsame]
    · intro entry' hentry
      rw [replay_audit hreplay] at hentry
      rcases List.mem_append.mp hentry with hold | hnew
      · exact h entry' hold
      · obtain rfl : entry' = entry := List.mem_singleton.mp hnew
        exact ⟨_, hrecords⟩

end Run

/-- **Every notification tells what happened**, in every run: its entry records an event; what the
notification reads from the stored text, which is made of printable ASCII characters, is the
payload that was recorded, with all its keys; and it tells the event by its title, its description
and its kind. -/
theorem notification_run {nsi : ReferenceData} {history : List (Turn TableInput Unit Database)}
    {db : Database} (h : Run tableStep (Database.initial nsi) history db) :
    ∀ entry ∈ db.audit, ∃ event text, entry.Records event ∧
      entry.newValue.map Json.dumps = some text ∧ (∀ c ∈ text.toList, JsonText.IsAscii c) ∧
        ∀ float lastReadAt, storedPayload float (some text) = payloadOf (some event.newValue) ∧
          (notificationOf float lastReadAt entry (some text)).title = event.title ∧
          (notificationOf float lastReadAt entry (some text)).description =
            event.description entry ∧
          (notificationOf float lastReadAt entry (some text)).kind = event.kind := by
  have hrecords : EntriesRecord db :=
    Run.state_invariant (P := EntriesRecord) (by simp [EntriesRecord, Database.initial])
      (fun _ _ => entriesRecord_tableStep) h
  intro entry hentry
  obtain ⟨event, hevent⟩ := hrecords entry hentry
  have htext : entry.newValue.map Json.dumps = some event.newValue.dumps := by
    rw [hevent.newValue, Option.map_some]
  refine ⟨event, _, hevent, htext, Json.dumps_ascii event.floatFree, fun float lastReadAt => ?_⟩
  have hread : storedPayload float (some event.newValue.dumps) = payloadOf entry.newValue := by
    rw [← htext, storedPayload_records float hevent]
  have hsame : notificationOf float lastReadAt entry (some event.newValue.dumps) =
      toNotification lastReadAt entry := by
    rw [notificationOf, hread]
    rfl
  rw [hsame]
  exact ⟨by rw [hread, hevent.newValue], toNotification_title hevent,
    toNotification_description hevent, toNotification_kind hevent⟩

/-- The notifications of the desk tell what happened there. -/
theorem notification_run_desk : (Desk.tables Desk.execution).audit.length = 5 ∧
    ∀ entry ∈ (Desk.tables Desk.execution).audit, ∃ event text, entry.Records event ∧
      entry.newValue.map Json.dumps = some text ∧ (∀ c ∈ text.toList, JsonText.IsAscii c) ∧
        ∀ float lastReadAt, storedPayload float (some text) = payloadOf (some event.newValue) ∧
          (notificationOf float lastReadAt entry (some text)).title = event.title ∧
          (notificationOf float lastReadAt entry (some text)).description =
            event.description entry ∧
          (notificationOf float lastReadAt entry (some text)).kind = event.kind :=
  ⟨by decide +kernel, notification_run
    (run_serveAll tableStep (Database.initial Desk.nsi) (Desk.execution.map .service))⟩

end FxDealManager
