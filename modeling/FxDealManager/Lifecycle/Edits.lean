import FxDealManager.Lifecycle.ForwardDates
import FxDealManager.Validation.Saving
import FxDealManager.Arithmetic.Products

/-!
# Edits

What an edit assigns, what it stores, and what it answers. The answer is made from the object of the
session: its columns are the assigned ones, but the related type and counterparty are those that
were loaded before the edit, and nothing expires them.

## Main definitions

* `DealUpdateRequest.Refused`: an edit is answered with a status of its own
* `DealResponse.Same`: two answers agree

## Main results

* `edited_eq`: an edited deal, column by column
* `updateDeal_from`: how an edit ends
* `toResponse_written`: what an edit has stored, in terms of what it has answered
* `edit_answer_stored`: when the answer of an edit is what was stored
* `edit_answer_stale`: an edit that answers with the type of before
-/

namespace FxDealManager

open DecimalArithmetic Transactional

/-! ## The edited deal -/

/-- The value that a field leaves in a column that admits null. -/
def Field.orNull {α : Type} (field : Field α) (old : Option α) : Option α :=
  match field with
  | .absent => old
  | .null => none
  | .value a => some a

/-- The column, if the field is null. -/
def Field.nulls {α : Type} (field : Field α) (column : String) : List String :=
  match field with
  | .null => [column]
  | .absent | .value _ => []

section Assign

variable {α : Type} {deal : FXDeal}

theorem assign_eq (get : FXDeal → α) {column : String} {field : Field α} {set : α → FXDeal → FXDeal}
    (hset : ∀ deal, set (get deal) deal = deal) :
    assign column field set deal =
      { set (field.value?.getD (get deal)) deal with
        nulled := (set (field.value?.getD (get deal)) deal).nulled ++ field.nulls column } := by
  cases field <;> simp [assign, Field.value?, Field.nulls, hset]

theorem assignNullable_eq (get : FXDeal → Option α) {field : Field α}
    {set : Option α → FXDeal → FXDeal} (hset : ∀ deal, set (get deal) deal = deal) :
    assignNullable field set deal = set (field.orNull (get deal)) deal := by
  cases field <;> simp [assignNullable, Field.orNull, hset]

end Assign

namespace DealUpdateRequest

/-- The columns without nulls that a body sets to null. -/
def nulled (payload : DealUpdateRequest) : List String :=
  payload.counterpartyId.nulls "counterparty_id" ++ payload.tradeDate.nulls "trade_date"
    ++ payload.amount.nulls "amount" ++ payload.rate.nulls "rate"
    ++ payload.buyCurrency.nulls "buy_currency" ++ payload.sellCurrency.nulls "sell_currency"
    ++ payload.operationDirection.nulls "operation_direction"
    ++ payload.dealType.nulls "deal_type"

/-- **An edited deal**, column by column. -/
theorem edited_eq (payload : DealUpdateRequest) (deal : FXDeal) :
    payload.edited deal =
      { deal with
        tradeDate := payload.tradeDate.value?.getD deal.tradeDate
        valueDate := payload.valueDate.orNull deal.valueDate
        amount := payload.amount.value?.getD deal.amount
        rate := payload.rate.value?.getD deal.rate
        buyCurrency := payload.buyCurrency.value?.getD deal.buyCurrency
        sellCurrency := payload.sellCurrency.value?.getD deal.sellCurrency
        operationDirection := payload.operationDirection.value?.getD deal.operationDirection
        counterpartyId := payload.counterpartyId.value?.getD deal.counterpartyId
        dealType := payload.dealType.value?.getD deal.dealType
        validationStatus := .notValidated
        comment := payload.comment.orNull deal.comment
        nulled := deal.nulled ++ payload.nulled } := by
  simp (disch := exact fun _ => rfl) only [edited, assignTerms, assignComment,
    assign_eq FXDeal.tradeDate, assign_eq FXDeal.amount, assign_eq FXDeal.rate,
    assign_eq FXDeal.buyCurrency, assign_eq FXDeal.sellCurrency,
    assign_eq FXDeal.operationDirection, assign_eq FXDeal.counterpartyId,
    assign_eq FXDeal.dealType, assignNullable_eq FXDeal.valueDate,
    assignNullable_eq FXDeal.comment, nulled, List.append_assoc]

section Edited

variable (payload : DealUpdateRequest) (deal : FXDeal)

@[simp] theorem edited_amount :
    (payload.edited deal).amount = payload.amount.value?.getD deal.amount := by
  rw [edited_eq]

@[simp] theorem edited_rate :
    (payload.edited deal).rate = payload.rate.value?.getD deal.rate := by
  rw [edited_eq]

@[simp] theorem edited_loadedDealType :
    (payload.edited deal).loadedDealType = deal.loadedDealType := by
  rw [edited_eq]

@[simp] theorem edited_counterparty :
    (payload.edited deal).counterparty = deal.counterparty := by
  rw [edited_eq]

end Edited

/-- An edit is answered with a status of its own: the deal is no draft, the user is not its trader,
or the body names no active counterparty. -/
def Refused (payload : DealUpdateRequest) (nsi : ReferenceData) (user : UserClaims)
    (row : FXDealRow) : Prop :=
  row.dealState ≠ .draft ∨ row.traderId.val ≠ user.userId ∨ payload.counterpartyId = .null ∨
    ∃ c, payload.counterpartyId = .value c ∧ nsi.counterpartyExists c = false

/-- The object that an edit answers with, and whose payments it has removed. -/
def saved (payload : DealUpdateRequest) (deal : FXDeal) (updatedAt : Timestamp) : FXDeal :=
  { payload.edited deal with payments := [], updatedAt := updatedAt }

end DealUpdateRequest

/-! ## How an edit ends -/

section Service

variable {β : Type} {env : Env} {user : UserClaims} {db : Database} {c : ServiceProgress} {n : ℕ}
  {payload : DealUpdateRequest} {deal : FXDeal}

theorem assignCounterparty_from {Q : Except ServiceError β → ServiceProgress → Prop}
    {f : FXDeal → Service β} (hrej : c.MayReject env Q)
    (hrefused : payload.counterpartyId = .null ∨
      (∃ id, payload.counterpartyId = .value id ∧ c.work.nsi.counterpartyExists id = false) →
        ∀ id, Q (.error (counterpartyError id)) c)
    (h : payload.counterpartyId ≠ .null →
      (∀ id, payload.counterpartyId = .value id → c.work.nsi.counterpartyExists id = true) →
        (f (assign "counterparty_id" payload.counterpartyId
          (fun a deal => { deal with counterpartyId := a }) deal)).EnsuresFrom env c n Q) :
    (payload.assignCounterparty deal >>= f).EnsuresFrom env c n Q := by
  simp only [DealUpdateRequest.assignCounterparty]
  cases hid : payload.counterpartyId with
  | absent =>
    rw [hid] at h
    exact .pure_bind (h (by simp) (by simp))
  | null =>
    refine .bind_assoc (.query_bind hrej (.bind_assoc ?_))
    exact .require_bind (fun _ => hrefused (.inl hid) _) fun hknown => by cases hknown
  | value id =>
    refine .bind_assoc (.query_bind hrej (.bind_assoc ?_))
    refine .require_bind (fun hnot => ?_) fun hknown => ?_
    · exact hrefused (.inr ⟨id, hid, Bool.eq_false_iff.mpr hnot⟩) _
    · rw [hid] at h
      refine .pure_bind (h (by simp) fun id' hid' => ?_)
      cases hid'
      exact hknown

theorem assignDirection_from {Q : Except ServiceError β → ServiceProgress → Prop}
    {f : FXDeal → Service β}
    (hnull : payload.operationDirection = .null → ∀ text, Q (.error (.attributeError text)) c)
    (h : payload.operationDirection ≠ .null →
      (f (assign "operation_direction" payload.operationDirection
        (fun a deal => { deal with operationDirection := a }) deal)).EnsuresFrom env c n Q) :
    (payload.assignDirection deal >>= f).EnsuresFrom env c n Q := by
  simp only [DealUpdateRequest.assignDirection]
  cases hdir : payload.operationDirection with
  | absent => rw [hdir] at h; exact .pure_bind (h (by simp))
  | null => exact .raise_bind (hnull hdir _)
  | value a => rw [hdir] at h; exact .pure_bind (h (by simp))

theorem assignType_from {Q : Except ServiceError β → ServiceProgress → Prop}
    {f : FXDeal → Service β} (hrej : c.MayReject env Q)
    (hnull : payload.dealType = .null → ∀ text, Q (.error (.attributeError text)) c)
    (h : payload.dealType ≠ .null → (f (assign "deal_type" payload.dealType
      (fun a deal => { deal with dealType := a }) deal)).EnsuresFrom env c n Q) :
    (payload.assignType deal >>= f).EnsuresFrom env c n Q := by
  simp only [DealUpdateRequest.assignType]
  cases htype : payload.dealType with
  | absent => rw [htype] at h; exact .pure_bind (h (by simp))
  | null => exact .bind_assoc (lookupCode_from hrej (.raise_bind (hnull htype _)))
  | value a =>
    rw [htype] at h
    exact .bind_assoc (lookupCode_from hrej (.pure_bind (h (by simp))))

/-- What the flush of an edit executes: the update, and the removal of the payments. -/
def editStatements (id : UUID) (ch : DealChanges) (now : Timestamp) (payments : List PaymentRow) :
    List Statement :=
  updateStatements id ch now ++ deleteStatements id (payments.map PaymentRow.id)

/-- **How an edit ends**: it is refused, it fails on a null, what it assigned cannot be written, or
the entry is all that is left to write. -/
theorem updateDeal_from {id : UUID} {r : DealRecord}
    {Q : Except ServiceError DealResponse → ServiceProgress → Prop}
    (hr : db.deals.lookup id = some r) (hrej : ∀ c : ServiceProgress, c.MayReject env Q)
    (hrefused : payload.Refused db.nsi user r.row → ∀ status detail, 400 ≤ status → status < 500 →
      Q (.error (.http status detail)) (Progress.start db))
    (hnull : ¬ payload.Refused db.nsi user r.row →
      payload.operationDirection = .null ∨ payload.dealType = .null →
        ∀ text, Q (.error (.attributeError text)) (Progress.start db))
    (hstore : ¬ payload.Refused db.nsi user r.row →
      ∀ err, (⟨FXDeal.ofRecord db.nsi id r, payload.edited (FXDeal.ofRecord db.nsi id r), [],
        (payload.edited (FXDeal.ofRecord db.nsi id r)).payments.map Payment.id, none⟩ :
          Pending).statements env.now = .error err →
        Q (.error (.database err)) (Progress.start db))
    (hfail : ¬ payload.Refused db.nsi user r.row → ∀ ch err,
      DealChanges.between (FXDeal.ofRecord db.nsi id r)
        (payload.edited (FXDeal.ofRecord db.nsi id r)) = .ok ch →
      replay (editStatements id ch env.now r.payments) db = .error err →
        Q (.error err) (Progress.start db))
    (h : ¬ payload.Refused db.nsi user r.row → ∀ ch d r',
      DealChanges.between (FXDeal.ofRecord db.nsi id r)
        (payload.edited (FXDeal.ofRecord db.nsi id r)) = .ok ch →
      replay (editStatements id ch env.now r.payments) db = .ok d → d.deals.lookup id = some r' →
      ∀ deal, deal = payload.saved (FXDeal.ofRecord db.nsi id r) r'.row.updatedAt →
        (appendAudit { loaded := deal, deal } .update user.email none (some payload.toJson) >>=
          fun _ => Program.commit >>= fun _ =>
            (pure (toResponse deal) : Service DealResponse)).EnsuresFrom env
              ((Progress.start db).executing (editStatements id ch env.now r.payments) d) 0 Q) :
    (updateDeal id payload user).EnsuresFrom env (Progress.start db) 0 Q := by
  refine loadDeal_found_from hr (hrej _) ?_
  refine .require_bind (fun hstate => ?_) fun hstate => ?_
  · exact hrefused (.inl hstate) _ _ (by decide) (by decide)
  refine .require_bind (fun htrader => ?_) fun htrader => ?_
  · exact hrefused (.inr (.inl htrader)) _ _ (by decide) (by decide)
  refine assignCounterparty_from (hrej _) (fun hc _ => ?_) fun hnotnull hknown => ?_
  · exact hrefused (.inr (.inr hc)) _ _ (by decide) (by decide)
  have hnot : ¬ payload.Refused db.nsi user r.row := by
    rintro (hne | hne | hc | ⟨c, hc, hunknown⟩)
    · exact hne hstate
    · exact hne htrader
    · exact hnotnull hc
    · rw [show db.nsi.counterpartyExists c = true from hknown c hc] at hunknown
      cases hunknown
  refine assignDirection_from (fun hdir => hnull hnot (.inl hdir)) fun _ => ?_
  refine assignType_from (hrej _) (fun htype => hnull hnot (.inr htype)) fun _ => ?_
  refine setValidationStatus_from (hrej _) ?_
  refine replacePayments_none_from (hrej _) (hstore hnot)
    (fun statements err hst hreplay => ?_) fun statements d hst hd => ?_
  · obtain ⟨ch, hch, rfl⟩ := edited_statements rfl hst
    exact hfail hnot ch err hch hreplay
  obtain ⟨ch, hch, rfl⟩ := edited_statements rfl hst
  have hpositioner : ∀ s ∈ (payload.edited (FXDeal.ofRecord db.nsi id r)).positionerId,
      s.length ≤ 36 := by
    rw [edited_positionerId]
    exact positionerId_ofRecord_length db.nsi id r
  have hid : (payload.edited (FXDeal.ofRecord db.nsi id r)).id = id := edited_id _
  obtain ⟨r', hr'⟩ := lookup_after_replay hd (Option.isSome_of_eq_some hr)
  refine saveExisting_unchanged_from (hrej _) (hid ▸ hr') (between_eq_ok hch).nulled hpositioner ?_
  exact h hnot ch d r' hch hd hr' _ rfl

end Service

/-! ## The answer and the stored deal -/

/-- Two answers agree: their numbers have the same values, and the rest is the same. -/
structure DealResponse.Same (a b : DealResponse) : Prop where
  amount : a.amount.same b.amount = true
  rate : a.rate.same b.rate = true
  rest : { a with amount := b.amount, rate := b.rate } = b

/-- The name of the counterparty with a given id. -/
def ReferenceData.counterpartyName (nsi : ReferenceData) (id : String) : Option String :=
  (nsi.counterparty? id).map fun c => c.name.val

/-- When an answer agrees with one that differs from it in four fields at most. -/
theorem DealResponse.same_with_iff {a : DealResponse} {amount rate : Decimal} {dealType : DealType}
    {counterpartyName : Option String} :
    a.Same { a with
        amount := amount, rate := rate, dealType := dealType
        counterpartyName := counterpartyName } ↔
      (a.amount.same amount = true ∧ a.rate.same rate = true) ∧
        a.dealType = dealType ∧ a.counterpartyName = counterpartyName := by
  constructor
  · rintro ⟨hamount, hrate, hrest⟩
    simp only [DealResponse.mk.injEq, true_and, and_true] at hrest
    exact ⟨⟨hamount, hrate⟩, hrest⟩
  · rintro ⟨⟨hamount, hrate⟩, htype, hname⟩
    exact ⟨hamount, hrate, by simp [htype, hname]⟩

/-- The column stores the assigned number. -/
theorem Assigned.ofDecimal_getD {p s : ℕ} {stored : Numeric p s} {value : Decimal}
    {change : Option (Numeric p s)}
    (h : Assigned (stored.toDecimal.same value) Numeric.ofDecimal value change)
    (hnonneg : value.negative = false) :
    Numeric.ofDecimal value = some (change.getD stored) := by
  by_cases heq : stored.toDecimal.same value = true
  · rw [h.of_equal heq]
    exact Numeric.ofDecimal_of_same hnonneg heq
  · rw [Bool.not_eq_true] at heq
    rw [heq] at h
    obtain ⟨n, hn, rfl⟩ := h
    exact hn

/-- The number in a column agrees with the assigned one, if this one has the places of the
column. -/
theorem Assigned.same_getD {p s : ℕ} {stored : Numeric p s} {field : Field Decimal}
    {change : Option (Numeric p s)}
    (h : Assigned (stored.toDecimal.same (field.value?.getD stored.toDecimal)) Numeric.ofDecimal
      (field.value?.getD stored.toDecimal) change)
    (hfield : ∀ a, field = .value a → a.negative = false ∧ a.hasPlaces s = true) :
    (field.value?.getD stored.toDecimal).same (change.getD stored).toDecimal = true := by
  rw [Decimal.same_comm]
  cases field with
  | absent | null =>
    rw [h.of_equal (Decimal.same_self _)]
    exact Decimal.same_self _
  | value a =>
    obtain ⟨hnonneg, hplaces⟩ := hfield a rfl
    exact (Numeric.same_ofDecimal_iff hnonneg (h.ofDecimal_getD hnonneg)).mpr hplaces

section Stored

variable {id : UUID} {r r' : DealRecord} {payload : DealUpdateRequest}

/-- **What an edit has stored** reads as what it has answered, apart from the numbers, which the
columns round, and from the type and the name of the counterparty, which the answer has from
before. -/
theorem toResponse_written {nsi : ReferenceData} {ch : DealChanges} {now : Timestamp}
    (h : ch.Assigns (FXDeal.ofRecord nsi id r) (payload.edited (FXDeal.ofRecord nsi id r)))
    (hrow : r'.row = ch.write now r.row) (hpayments : r'.payments = []) :
    toResponse (FXDeal.ofRecord nsi id r') =
      { toResponse (payload.saved (FXDeal.ofRecord nsi id r) r'.row.updatedAt) with
        amount := r'.row.amount.toDecimal
        rate := r'.row.rate.toDecimal
        dealType := payload.dealType.value?.getD r.row.dealType
        counterpartyName :=
          nsi.counterpartyName (payload.counterpartyId.value?.getD r.row.counterpartyId.val) } := by
  have hbuy : (ch.buyCurrency.getD r.row.buyCurrency).val = _ := Assigned.val_getD h.buyCurrency
  have hsell : (ch.sellCurrency.getD r.row.sellCurrency).val = _ := Assigned.val_getD h.sellCurrency
  have hcounterparty : (ch.counterpartyId.getD r.row.counterpartyId).val = _ :=
    Assigned.val_getD h.counterpartyId
  have htrader : (ch.traderId.getD r.row.traderId).val = _ := Assigned.val_getD h.traderId
  have hemail : (ch.traderEmail.getD r.row.traderEmail).val = _ := Assigned.val_getD h.traderEmail
  have hpositioner : ch.positionerId = none := h.positionerId.of_equal (by simp)
  rw [DealUpdateRequest.edited_eq] at h hbuy hsell hcounterparty htrader hemail
  simp [toResponse, DealUpdateRequest.saved, DealUpdateRequest.edited_eq,
    ReferenceData.counterpartyName, hrow, hpayments, hbuy, hsell, hcounterparty, htrader, hemail,
    hpositioner, h.tradeDate, h.valueDate, h.operationDirection, h.dealType, h.dealState,
    h.validationStatus, h.comment]

/-- A successful edit of the record `r` has set the columns `ch` and left the record `r'`. -/
structure Edited (payload : DealUpdateRequest) (now : Timestamp) (nsi : ReferenceData) (id : UUID)
    (r : DealRecord) (after : Database) (response : DealResponse) (ch : DealChanges)
    (r' : DealRecord) : Prop where
  assigns : ch.Assigns (FXDeal.ofRecord nsi id r) (payload.edited (FXDeal.ofRecord nsi id r))
  lookup : after.deals.lookup id = some r'
  reference : after.nsi = nsi
  row : r'.row = ch.write now r.row
  payments : r'.payments = []
  response : response = toResponse (payload.saved (FXDeal.ofRecord nsi id r) r'.row.updatedAt)

/-- A successful edit answers with the object whose columns it has written. -/
theorem execute_edited {env : Env} {user : UserClaims} {db : Database} {response : DealResponse}
    (hr : db.deals.lookup id = some r)
    (hok : (execute env user (.update id payload) db).result = .ok response) :
    ∃ ch r', Edited payload env.now db.nsi id r
      (execute env user (.update id payload) db).database response ch r' := by
  let Q : Except ServiceError DealResponse → ServiceProgress → Prop := fun result c =>
    ∀ response, result = .ok response →
      ∃ ch r', Edited payload env.now db.nsi id r c.committed response ch r'
  have hfailed : ∀ err c, Q (.error err) c := fun err c response h => by cases h
  have hrej : ∀ c : ServiceProgress, c.MayReject env Q := fun c _ => hfailed _ _
  have h : (serve (.update id payload) user).EnsuresFrom env (Progress.start db) 0 Q := by
    refine .require_bind (fun _ => hfailed _ _) fun _ => ?_
    refine updateDeal_from hr hrej (fun _ _ _ _ _ => hfailed _ _) (fun _ _ _ => hfailed _ _)
      (fun _ _ _ => hfailed _ _) (fun _ _ _ _ _ => hfailed _ _)
      fun _ ch d r' hch hd hr' deal hdeal => ?_
    refine appendAudit_from (hrej _) (fun _ _ => hfailed _ _) (fun _ => hfailed _ _)
      (fun _ _ _ _ _ _ => hfailed _ _) fun statements entry d' hst _ _ hd' => ?_
    refine .commit_bind (hrej _) (.pure ?_)
    rintro _ ⟨⟩
    rw [statements_unchanged hst, List.nil_append] at hd'
    have hreplay : replay (editStatements id ch env.now r.payments ++ [.insertAudit entry]) db =
        .ok d' := replay_append_eq_ok.mpr ⟨d, hd, hd'⟩
    have hremoved : r.payments.filter (fun p => p.id ∉ r.payments.map PaymentRow.id) = [] :=
      List.filter_eq_nil_iff.mpr fun p hp => by simpa using ⟨p, hp, rfl⟩
    have hlookup := lookup_updated hreplay hr
    rw [hremoved] at hlookup
    rw [replay_lookup hd, hr, editStatements, rewrite_append, rewrite_updateStatements,
      rewrite_deleteStatements, hremoved, Option.some.injEq] at hr'
    subst hr'
    exact ⟨ch, _, between_eq_ok hch, hlookup, replay_nsi hreplay, rfl, rfl, hdeal ▸ rfl⟩
  exact h.run response hok

/-- A stored deal is answered with as it is loaded. -/
theorem getDeal_run {env : Env} {db : Database} (hr : db.deals.lookup id = some r)
    (hcalm : rejects env 0 = false) :
    ((getDeal id).run env db).1 = .ok (toResponse (FXDeal.ofRecord db.nsi id r)) := by
  simp [getDeal, loadDeal, getById, Program.run, Program.handle, Program.query, Program.call,
    Bind.bind, Pure.pure, Session.start, hcalm, hr]

/-- **The answer of an edit is what was stored** if and only if the body leaves the type of the deal
and the name of its counterparty as they were. -/
theorem edit_answer_stored {env env' : Env} {user : UserClaims} {db : Database}
    {response : DealResponse} (hr : db.deals.lookup id = some r)
    (hok : (execute env user (.update id payload) db).result = .ok response)
    (hamount : ∀ a, payload.amount = .value a → a.hasPlaces 2 = true)
    (hrate : ∀ a, payload.rate = .value a → a.hasPlaces 6 = true)
    (hcalm : rejects env' 0 = false) :
    ∃ stored, ((getDeal id).run env' (execute env user (.update id payload) db).database).1 =
        .ok stored ∧
      (response.Same stored ↔
        (∀ t, payload.dealType = .value t → t = r.row.dealType) ∧
          ∀ c, payload.counterpartyId = .value c →
            db.nsi.counterpartyName c = db.nsi.counterpartyName r.row.counterpartyId.val) := by
  obtain ⟨ch, r', h⟩ := execute_edited hr hok
  have hassigns := h.assigns
  rw [DealUpdateRequest.edited_eq] at hassigns
  have hamount' : (payload.amount.value?.getD r.row.amount.toDecimal).same
      (ch.amount.getD r.row.amount).toDecimal = true := Assigned.same_getD hassigns.amount
    fun a ha => ⟨Decimal.nonneg_of_positive (payload.amount_pos a ha), hamount a ha⟩
  have hrate' : (payload.rate.value?.getD r.row.rate.toDecimal).same
      (ch.rate.getD r.row.rate).toDecimal = true := Assigned.same_getD hassigns.rate
    fun a ha => ⟨Decimal.nonneg_of_positive (payload.rate_pos a ha), hrate a ha⟩
  refine ⟨_, getDeal_run h.lookup hcalm, ?_⟩
  rw [h.reference, toResponse_written h.assigns h.row h.payments, h.response, h.row,
    DealResponse.same_with_iff]
  simp only [toResponse, DealUpdateRequest.saved, DealUpdateRequest.edited_amount,
    DealUpdateRequest.edited_rate, DealUpdateRequest.edited_loadedDealType,
    DealUpdateRequest.edited_counterparty, FXDeal.ofRecord, DealChanges.write_amount,
    DealChanges.write_rate, hamount', hrate', and_self, true_and]
  refine and_congr ?_ ?_
  · cases htype : payload.dealType <;> simp [Field.value?, eq_comm (a := r.row.dealType)]
  · change db.nsi.counterpartyName r.row.counterpartyId.val = _ ↔ _
    cases hid : payload.counterpartyId <;>
      simp [Field.value?, eq_comm (a := db.nsi.counterpartyName r.row.counterpartyId.val)]

end Stored

namespace Desk

/-- A body with another amount. -/
def repricing : DealUpdateRequest :=
  { forwardEdit with
    dealType := .absent
    amount := .value ⟨false, 200050, -2⟩
    amount_pos := fun a ha => by cases ha; decide }

/-- The deal of the desk in its draft. -/
def draft : DealRecord := created

theorem lookup_draft : (after creation).deals.lookup dealId = some draft := by
  rw [draft, created, Option.some_get]

end Desk

/-- The desk changes the amount, and the answer is what it has stored. -/
theorem edit_answer_stored_desk : ∃ response stored,
    (execute (Desk.env 3) Desk.trader (.update Desk.dealId Desk.repricing)
      (Desk.after Desk.creation)).result = .ok response ∧
    ((getDeal Desk.dealId).run (Desk.env 4) (execute (Desk.env 3) Desk.trader
      (.update Desk.dealId Desk.repricing) (Desk.after Desk.creation)).database).1 = .ok stored ∧
    response.Same stored := by
  obtain ⟨response, hok⟩ : ∃ response, (execute (Desk.env 3) Desk.trader
      (.update Desk.dealId Desk.repricing) (Desk.after Desk.creation)).result = .ok response :=
    exists_ok_of_toBool (by decide +kernel)
  obtain ⟨stored, hstored, hsame⟩ := edit_answer_stored Desk.lookup_draft hok
    (fun a ha => by cases ha; decide) nofun (rfl : rejects (Desk.env 4) 0 = false)
  exact ⟨response, stored, hok, hstored, hsame.mpr ⟨nofun, nofun⟩⟩

/-- An edit that makes a deal `FORWARD` answers with the type of before. -/
theorem edit_answer_stale :
    ¬ ∀ (env env' : Env) (user : UserClaims) (db : Database) (id : UUID) (r : DealRecord)
      (payload : DealUpdateRequest) (response : DealResponse),
      db.deals.lookup id = some r → payload.nulled = [] → payload.valueDate ≠ .null →
      payload.comment ≠ .null →
      (execute env user (.update id payload) db).result = .ok response →
      (∀ a, payload.amount = .value a → a.hasPlaces 2 = true) →
      (∀ a, payload.rate = .value a → a.hasPlaces 6 = true) → rejects env' 0 = false →
      ∃ stored, ((getDeal id).run env' (execute env user (.update id payload) db).database).1 =
        .ok stored ∧ response.Same stored := by
  intro h
  obtain ⟨response, hok⟩ : ∃ response, (execute (Desk.env 3) Desk.trader
      (.update Desk.dealId Desk.forwardEdit) (Desk.after Desk.creation)).result = .ok response :=
    exists_ok_of_toBool (by decide +kernel)
  obtain ⟨stored, hstored, hsame⟩ := h _ (Desk.env 4) _ _ _ Desk.draft Desk.forwardEdit
    response Desk.lookup_draft (by decide) nofun nofun hok nofun nofun rfl
  have hanswer : ((execute (Desk.env 3) Desk.trader (.update Desk.dealId Desk.forwardEdit)
      (Desk.after Desk.creation)).result.toOption.map DealResponse.dealType) = some .tod := by
    decide +kernel
  have hget : ((getDeal Desk.dealId).run (Desk.env 4) (execute (Desk.env 3) Desk.trader
      (.update Desk.dealId Desk.forwardEdit) (Desk.after Desk.creation)).database).1.toOption.map
        DealResponse.dealType = some .forward := by
    decide +kernel
  rw [hok] at hanswer
  rw [hstored] at hget
  have htype : response.dealType = stored.dealType := by rw [← hsame.rest]
  simp only [Except.toOption, Option.map_some, Option.some.injEq] at hanswer hget
  rw [hanswer, hget] at htype
  cases htype

end FxDealManager
