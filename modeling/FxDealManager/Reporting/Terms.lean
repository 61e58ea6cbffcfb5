import FxDealManager.Domain.DateTexts
import FxDealManager.Lifecycle.EnteredNumbers
import FxDealManager.Positions.ReportErrors
import FxDealManager.Reporting.Events

/-!
# The audit log tells the terms of a deal

An edit is recorded with the fields that it sets, a validation with the value date that it finds.
Read from the stored texts, and applied one after another to the terms of the body that created the
deal, they give the terms that are stored, in every run.

## Main definitions

* `Terms`: the terms of a deal, as its columns hold them
* `Terms.edit`, `Terms.validate`: what a payload that was read does to terms
* `replayed`: the terms that entries tell

## Main results

* `readField_written`: a field that was written is read back
* `edit_toJson`: an edit that is read back does what the edit did
* `replayed_run`: the entries tell the terms of each deal, in every run
-/

namespace FxDealManager

open DecimalArithmetic Transactional

/-- The terms of a deal, as its columns hold them. -/
structure Terms where
  tradeDate : Date
  valueDate : Option Date
  amount : Numeric 18 2
  rate : Numeric 18 6
  buyCurrency : String
  sellCurrency : String
  operationDirection : OperationDirection
  counterpartyId : String
  dealType : DealType
  comment : Option String
deriving DecidableEq, Repr

/-- The terms that a row holds. -/
@[simps]
def FXDealRow.terms (row : FXDealRow) : Terms where
  tradeDate := row.tradeDate
  valueDate := row.valueDate
  amount := row.amount
  rate := row.rate
  buyCurrency := row.buyCurrency.val
  sellCurrency := row.sellCurrency.val
  operationDirection := row.operationDirection
  counterpartyId := row.counterpartyId.val
  dealType := row.dealType
  comment := row.comment

theorem FXDealRow.terms_eq {row : FXDealRow} {t : Terms} (htradeDate : t.tradeDate = row.tradeDate)
    (hvalueDate : t.valueDate = row.valueDate) (hamount : t.amount = row.amount)
    (hrate : t.rate = row.rate) (hbuy : t.buyCurrency = row.buyCurrency.val)
    (hsell : t.sellCurrency = row.sellCurrency.val)
    (hdirection : t.operationDirection = row.operationDirection)
    (hcounterparty : t.counterpartyId = row.counterpartyId.val) (htype : t.dealType = row.dealType)
    (hcomment : t.comment = row.comment) : some t = some row.terms := by
  cases t
  simp_all [FXDealRow.terms]

/-- The terms of the body that creates a deal, if the columns hold its numbers. -/
def DealCreateRequest.terms (payload : DealCreateRequest) : Option Terms := do
  let amount ← Numeric.ofDecimal payload.amount
  let rate ← Numeric.ofDecimal payload.rate
  some
    { tradeDate := payload.tradeDate
      valueDate := payload.valueDate
      amount
      rate
      buyCurrency := payload.buyCurrency
      sellCurrency := payload.sellCurrency
      operationDirection := payload.operationDirection
      counterpartyId := payload.counterpartyId
      dealType := payload.dealType
      comment := payload.comment }

/-! ## Reading -/

/-- The field of an object, whose value is read from a text. -/
def readField {α : Type} (payload : Json) (name : String) (read : String → Option α) :
    Option (Field α) :=
  match payload.get name with
  | none => some .absent
  | some .null => some .null
  | some (.str text) => (read text).map .value
  | some _ => none

section Reading

variable (u : Unicode)

/-- The number of a text. -/
def readDecimal (text : String) : Option Decimal :=
  match DecimalText.read u.digit text.toList with
  | some (.finite d) => some d
  | _ => none

/-- The column after a field was set to a number. -/
def storedNumber {p s : ℕ} (field : Field Decimal) (old : Numeric p s) : Option (Numeric p s) :=
  match field.value? with
  | none => some old
  | some d => Numeric.ofDecimal d

/-- The terms after an edit with the payload. -/
def Terms.edit (payload : Json) (t : Terms) : Option Terms := do
  let tradeDate ← readField payload "trade_date" Date.read
  let dealType ← readField payload "deal_type" DealType.named
  let operationDirection ← readField payload "operation_direction" OperationDirection.named
  let buyCurrency ← readField payload "buy_currency" some
  let sellCurrency ← readField payload "sell_currency" some
  let amount ← readField payload "amount" (readDecimal u)
  let rate ← readField payload "rate" (readDecimal u)
  let counterpartyId ← readField payload "counterparty_id" some
  let valueDate ← readField payload "value_date" Date.read
  let comment ← readField payload "comment" some
  let amount ← storedNumber amount t.amount
  let rate ← storedNumber rate t.rate
  some
    { tradeDate := tradeDate.value?.getD t.tradeDate
      valueDate := valueDate.orNull t.valueDate
      amount
      rate
      buyCurrency := buyCurrency.value?.getD t.buyCurrency
      sellCurrency := sellCurrency.value?.getD t.sellCurrency
      operationDirection := operationDirection.value?.getD t.operationDirection
      counterpartyId := counterpartyId.value?.getD t.counterpartyId
      dealType := dealType.value?.getD t.dealType
      comment := comment.orNull t.comment }

/-- The terms after a validation with the payload. -/
def Terms.validate (payload : Json) (t : Terms) : Option Terms := do
  let valueDate ← readField payload "value_date" Date.read
  some { t with valueDate := valueDate.orNull t.valueDate }

-- the float that the text of a number with a fraction or an exponent stands for
variable (float : String → Json)

/-- The terms after an entry, whose new value is read from its stored text. -/
def Terms.told (entry : AuditLogEntry) (t : Terms) : Option Terms :=
  let payload := storedPayload float (entry.newValue.map Json.dumps)
  match entry.action with
  | .update => t.edit u payload
  | .validate => t.validate payload
  | _ => some t

/-- The terms that entries tell of a deal that was created with the body. -/
def replayed (payload : DealCreateRequest) (entries : List AuditLogEntry) : Option Terms :=
  entries.foldl (fun t entry => t.bind (Terms.told u float entry)) payload.terms

end Reading

/-! ## What was written is read -/

section Written

variable {α : Type} {u : Unicode}

/-- What the object of an edit has for a field. -/
def Field.written (field : Field α) (text : α → String) : Option Json :=
  match field with
  | .absent => none
  | .null => some .null
  | .value a => some (.str (text a))

theorem get_append (fields fields' : List (String × Json)) (key : String) :
    (Json.obj (fields ++ fields')).get key =
      ((Json.obj fields').get key).or ((Json.obj fields).get key) := by
  simp only [Json.get, List.reverse_append, List.find?_append, Option.map_or]

theorem get_jsonField (name key : String) (field : Field α) (text : α → String) :
    (Json.obj (DealUpdateRequest.jsonField name field text)).get key =
      if name = key then field.written text else none := by
  by_cases h : name = key <;> cases field <;>
    simp [Json.get, DealUpdateRequest.jsonField, Field.written, h]

/-- A field that was written is read back, if its texts are. -/
theorem readField_written {payload : Json} {name : String} {field : Field α} {text : α → String}
    {read : String → Option α} (h : payload.get name = field.written text)
    (hread : ∀ a, read (text a) = some a) : readField payload name read = some field := by
  rw [readField, h]
  cases field with
  | absent | null => rfl
  | value a => simp only [Field.written, hread, Option.map_some]

theorem readDecimal_text (u : Unicode) (d : Decimal) : readDecimal u d.text = some d := by
  rw [readDecimal, DecimalText.read_text u.plain]

/-- A number that an edit stores. -/
theorem storedNumber_assigned {p s : ℕ} {stored : Numeric p s} {field : Field Decimal}
    {change : Option (Numeric p s)}
    (h : Assigned (stored.toDecimal.same (field.value?.getD stored.toDecimal)) Numeric.ofDecimal
      (field.value?.getD stored.toDecimal) change)
    (hpos : ∀ a, field = .value a → a.positive = true) :
    storedNumber field stored = some (change.getD stored) := by
  cases field with
  | absent | null => rw [h.of_equal (Decimal.same_self _)]; rfl
  | value a => exact h.ofDecimal_getD (Decimal.nonneg_of_positive (hpos a rfl))

/-- The texts are read as they are. -/
theorem readField_text {payload : Json} {name : String} {field : Field String}
    (h : payload.get name = field.written id) : readField payload name some = some field :=
  readField_written h fun _ => rfl

/-- The fields of an edit are read back. -/
theorem edit_fields (u : Unicode) (payload : DealUpdateRequest) (t : Terms) :
    t.edit u payload.toJson =
      (storedNumber payload.amount t.amount).bind fun amount =>
        (storedNumber payload.rate t.rate).map fun rate =>
          { tradeDate := payload.tradeDate.value?.getD t.tradeDate
            valueDate := payload.valueDate.orNull t.valueDate
            amount
            rate
            buyCurrency := payload.buyCurrency.value?.getD t.buyCurrency
            sellCurrency := payload.sellCurrency.value?.getD t.sellCurrency
            operationDirection := payload.operationDirection.value?.getD t.operationDirection
            counterpartyId := payload.counterpartyId.value?.getD t.counterpartyId
            dealType := payload.dealType.value?.getD t.dealType
            comment := payload.comment.orNull t.comment } := by
  have hget : ∀ key, payload.toJson.get key = _ := fun key => by
    simp only [DealUpdateRequest.toJson, get_append, get_jsonField]
    exact rfl
  have htradeDate : readField payload.toJson "trade_date" Date.read = some payload.tradeDate :=
    readField_written ((hget _).trans (by simp)) Date.read_isoformat
  have htype : readField payload.toJson "deal_type" DealType.named = some payload.dealType :=
    readField_written ((hget _).trans (by simp)) dealTypeNamed_value
  have hdirection : readField payload.toJson "operation_direction" OperationDirection.named =
      some payload.operationDirection :=
    readField_written ((hget _).trans (by simp)) directionNamed_value
  have hbuy : readField payload.toJson "buy_currency" some = some payload.buyCurrency :=
    readField_text ((hget _).trans (by simp))
  have hsell : readField payload.toJson "sell_currency" some = some payload.sellCurrency :=
    readField_text ((hget _).trans (by simp))
  have hamount : readField payload.toJson "amount" (readDecimal u) = some payload.amount :=
    readField_written ((hget _).trans (by simp)) (readDecimal_text u)
  have hrate : readField payload.toJson "rate" (readDecimal u) = some payload.rate :=
    readField_written ((hget _).trans (by simp)) (readDecimal_text u)
  have hcounterparty : readField payload.toJson "counterparty_id" some =
      some payload.counterpartyId :=
    readField_text ((hget _).trans (by simp))
  have hvalueDate : readField payload.toJson "value_date" Date.read = some payload.valueDate :=
    readField_written ((hget _).trans (by simp)) Date.read_isoformat
  have hcomment : readField payload.toJson "comment" some = some payload.comment :=
    readField_text ((hget _).trans (by simp))
  rw [Terms.edit, htradeDate, htype, hdirection, hbuy, hsell, hamount, hrate, hcounterparty,
    hvalueDate, hcomment]
  simp only [Option.bind_eq_bind, Option.bind_some, Option.map_eq_bind]
  rfl

/-- **An edit that is read** from its entry changes the terms as the edit has changed the row. -/
theorem edit_toJson (u : Unicode) {nsi : ReferenceData} {id : UUID} {r : DealRecord}
    {payload : DealUpdateRequest} {ch : DealChanges} {now : Timestamp}
    (h : ch.Assigns (FXDeal.ofRecord nsi id r) (payload.edited (FXDeal.ofRecord nsi id r))) :
    r.row.terms.edit u payload.toJson = some (ch.write now r.row).terms := by
  rw [DealUpdateRequest.edited_eq] at h
  rw [edit_fields, FXDealRow.terms_amount, FXDealRow.terms_rate,
    storedNumber_assigned h.amount payload.amount_pos,
    storedNumber_assigned h.rate payload.rate_pos]
  refine FXDealRow.terms_eq ?_ ?_ ?_ ?_ ?_ ?_ ?_ ?_ ?_ ?_
  · rw [DealChanges.write_tradeDate, h.tradeDate]
    exact (getD_changedTo _ _).symm
  · rw [DealChanges.write_valueDate, h.valueDate]
    exact (getD_changedTo _ _).symm
  · rw [DealChanges.write_amount]
  · rw [DealChanges.write_rate]
  · rw [DealChanges.write_buyCurrency]
    exact h.buyCurrency.val_getD.symm
  · rw [DealChanges.write_sellCurrency]
    exact h.sellCurrency.val_getD.symm
  · rw [DealChanges.write_operationDirection, h.operationDirection]
    exact (getD_changedTo _ _).symm
  · rw [DealChanges.write_counterpartyId]
    exact h.counterpartyId.val_getD.symm
  · rw [DealChanges.write_dealType, h.dealType]
    exact (getD_changedTo _ _).symm
  · rw [DealChanges.write_comment, h.comment]
    exact (getD_changedTo _ _).symm

/-- A validation that is read from its entry sets the value date that it has found. -/
theorem validate_validatedJson (t : Terms) (valueDate : Date) (payments : ℕ) :
    t.validate (validatedJson valueDate payments) =
      some { t with valueDate := some valueDate } := by
  have hread : readField (validatedJson valueDate payments) "value_date" Date.read =
      some (.value valueDate) :=
    readField_written (show _ = (Field.value valueDate).written Date.isoformat from rfl)
      Date.read_isoformat
  rw [Terms.validate, hread]
  rfl

end Written

/-! ## Every run -/

section Run

variable (u : Unicode) (float : String → Json)

theorem replayed_append (payload : DealCreateRequest) (entries added : List AuditLogEntry) :
    replayed u float payload (entries ++ added) =
      added.foldl (fun t entry => t.bind (Terms.told u float entry))
        (replayed u float payload entries) :=
  List.foldl_append

/-- The columns hold the terms of the body. -/
theorem terms_newDeal {now : Timestamp} {id : UUID} {payload : DealCreateRequest}
    {user : UserClaims} {row : FXDealRow}
    (h : FXDealRow.ofDeal now (newDeal id payload user) = .ok row) :
    payload.terms = some row.terms := by
  have hstored := ofDeal_eq_ok h
  rw [DealCreateRequest.terms, show Numeric.ofDecimal payload.amount = _ from hstored.amount,
    show Numeric.ofDecimal payload.rate = _ from hstored.rate]
  exact FXDealRow.terms_eq hstored.tradeDate.symm hstored.valueDate.symm rfl rfl
    hstored.buyCurrency.symm hstored.sellCurrency.symm hstored.operationDirection.symm
    hstored.counterpartyId.symm hstored.dealType.symm hstored.comment.symm

/-- Entries that are neither of edits nor of validations tell nothing of the terms. -/
theorem told_others {added : List AuditLogEntry}
    (h : ∀ entry ∈ added, entry.action ≠ .update ∧ entry.action ≠ .validate) (t : Terms) :
    added.foldl (fun t entry => t.bind (Terms.told u float entry)) (some t) = some t := by
  induction added with
  | nil => rfl
  | cons entry added ih =>
    obtain ⟨⟨hupdate, hvalidate⟩, hrest⟩ := List.forall_mem_cons.mp h
    have htold : Terms.told u float entry t = some t := by
      rw [Terms.told]
      split
      · exact absurd ‹_› hupdate
      · exact absurd ‹_› hvalidate
      · rfl
    rw [List.foldl_cons, Option.bind_some, htold]
    exact ih hrest

/-- The entries of a change tell what the change does to the terms. -/
theorem Change.told {env : Env} {user : UserClaims} {nsi : ReferenceData} {id : UUID}
    {r r' : DealRecord} {op : Operation} {result : Except ServiceError DealResponse}
    {added : List AuditLogEntry} (h : Change env user nsi id r r op result r' added) :
    added.foldl (fun t entry => t.bind (Terms.told u float entry)) (some r.row.terms) =
      some r'.row.terms := by
  cases h with
  | @edited payload ch entry _ _ _ hch hentry =>
    have hread := storedPayload_dumps float (floatFree_toJson payload)
    simp only [List.foldl_cons, List.foldl_nil, Option.bind_some, Terms.told, hentry.action,
      hentry.newValue, Option.map_some, hread]
    exact edit_toJson u hch
  | invalidated _ _ _ hentry =>
    rw [told_others u float (by simp [hentry.action])]
    simp [FXDealRow.terms]
  | @validated valueDate _ rows entry _ _ _ _ _ hentry =>
    have hread := storedPayload_dumps float (AuditEvent.validated valueDate rows.length).floatFree
    simp only [AuditEvent.newValue] at hread
    simp only [List.foldl_cons, List.foldl_nil, Option.bind_some, Terms.told, hentry.action,
      hentry.newValue, Option.map_some, hread]
    refine (validate_validatedJson _ _ _).trans ?_
    simp [FXDealRow.terms]
  | moved hmoves _ hentry =>
    rw [told_others u float (by simp [hentry.action])]
    rfl
  | decided hdecision _ =>
    have hothers : ∀ entry ∈ added, entry.action ≠ .update ∧ entry.action ≠ .validate := by
      cases hdecision with
      | declined _ _ _ hentry => simp [hentry.action]
      | unsent _ _ _ hentry => simp [hentry.action]
      | sent _ _ _ hentry hentry' => simp [hentry.action, hentry'.action]
    rw [told_others u float hothers]
    rfl

/-- No body creates a deal that is there before, or is not there afterwards. -/
theorem creationBody_eq_none {id : UUID} {t : ServiceTurn}
    (h : (t.before.deals.lookup id).isSome ∨ t.after.deals.lookup id = none) :
    creationBody id t = none := by
  rw [creationBody]
  split
  · refine if_neg ?_
    rcases h with hbefore | hafter
    · simp [Option.isNone_eq_false_iff.mpr hbefore]
    · simp [hafter]
  · rfl

/-- What the history and the audit log tell of the terms of the deals. -/
structure TermsTold (history : List ServiceTurn) (db : Database) : Prop where
  entries : EntriesHaveDeals db
  none : ∀ id, db.deals.lookup id = none → history.filterMap (creationBody id) = []
  told : ∀ id r, db.deals.lookup id = some r → ∃ payload,
    history.filterMap (creationBody id) = [payload] ∧
      ∀ u float, replayed u float payload (about id db.audit) = some r.row.terms

theorem about_eq_nil {db : Database} (h : EntriesHaveDeals db) {id : UUID}
    (hnone : db.deals.lookup id = none) : about id db.audit = [] := by
  refine List.filter_eq_nil_iff.mpr fun entry hentry heq => ?_
  have hdeal := h entry hentry
  rw [of_decide_eq_true heq, hnone] at hdeal
  cases hdeal

theorem termsTold_step {history : List ServiceTurn} {db : Database} {input : Input}
    (h : TermsTold history db) :
    TermsTold (history ++ [turn step db input]) (step db input).2 := by
  have hbefore : ∀ {id}, (db.deals.lookup id).isSome →
      (history ++ [turn step db input]).filterMap (creationBody id) =
        history.filterMap (creationBody id) := by
    intro id hsome
    rw [List.filterMap_append, List.filterMap_cons, creationBody_eq_none (.inl hsome)]
    exact List.append_nil _
  refine ⟨entriesHaveDeals_step h.entries, fun id hnone => ?_, ?_⟩
  · have hnew : db.deals.lookup id = .none := by
      by_contra hsome
      have hafter : ((step db input).2.deals.lookup id).isSome :=
        step_lookup_isSome (Option.isSome_iff_ne_none.mpr hsome)
      rw [hnone] at hafter
      cases hafter
    rw [List.filterMap_append, h.none id hnew, List.nil_append, List.filterMap_cons,
      creationBody_eq_none (.inr hnone)]
    rfl
  · refine forall_deals_turn (P := fun id r audit => ∃ payload,
      (history ++ [turn step db input]).filterMap (creationBody id) = [payload] ∧
        ∀ u float, replayed u float payload audit = some r.row.terms) ?_ ?_ ?_
    · intro env user payload id row entry hop hafter hnew hrow hentry
      subst hop
      refine ⟨payload, ?_, fun u float => ?_⟩
      · simp [h.none id hnew, creationBody, turn, hnew, hafter]
      · rw [about_eq_nil h.entries hnew, List.nil_append, replayed, terms_newDeal hrow]
        exact told_others u float (by simp [hentry.action]) _
    · intro env user op id outcome after result r r' added _ _ _ _ _ hr hchange
      obtain ⟨payload, hpayload, htold⟩ := h.told id r hr
      refine ⟨payload, (hbefore (by rw [hr]; rfl)).trans hpayload, fun u float => ?_⟩
      rw [replayed_append, htold]
      exact hchange.told u float
    · intro id r hr _
      obtain ⟨payload, hpayload, htold⟩ := h.told id r hr
      exact ⟨payload, (hbefore (by rw [hr]; rfl)).trans hpayload, htold⟩

/-- **The audit log tells the terms of each deal**, in every run: one body has created the deal, and
its terms, changed by the stored texts of the entries about the deal in their order, are those of
the row. -/
theorem replayed_run {nsi : ReferenceData} {history : List ServiceTurn} {db : Database}
    (h : Run step (Database.initial nsi) history db) :
    ∀ id r, db.deals.lookup id = some r → ∃ payload,
      history.filterMap (creationBody id) = [payload] ∧
        ∀ u float, replayed u float payload (about id db.audit) = some r.row.terms := by
  have htold : TermsTold history db := by
    refine Run.invariant (P := TermsTold) ?_ (fun _ _ _ h => termsTold_step h) h
    refine ⟨by simp [EntriesHaveDeals, Database.initial], fun _ _ => rfl, fun id r hr => ?_⟩
    simp at hr
  exact htold.told

namespace Desk

/-- A body that changes the amount and the type. -/
def revisionEdit : DealUpdateRequest :=
  { unchanged with
    amount := .value ⟨false, 25000, -2⟩
    dealType := .value .spot
    amount_pos := by rintro _ ⟨⟩; decide }

/-- The created deal is changed. -/
def revision : List Input := creation ++ [.request (env 2) trader (.update dealId revisionEdit)]

/-- The changed deal. -/
def revised : DealRecord := ((after revision).deals.lookup dealId).get (by decide +kernel)

end Desk

/-- The entry about the change tells the terms of the changed deal of the desk. -/
theorem replayed_run_desk :
    Desk.revised.row.amount ≠ Desk.created.row.amount ∧ ∃ payload,
      (history step (Database.initial Desk.nsi) Desk.revision).filterMap
        (creationBody Desk.dealId) = [payload] ∧
      ∀ u float, replayed u float payload (about Desk.dealId (Desk.after Desk.revision).audit) =
        some Desk.revised.row.terms :=
  ⟨by decide +kernel, replayed_run (run_serveAll step (Database.initial Desk.nsi) Desk.revision)
    Desk.dealId Desk.revised (Option.some_get _).symm⟩

end Run

end FxDealManager
