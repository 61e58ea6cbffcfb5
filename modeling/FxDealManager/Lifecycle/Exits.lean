import FxDealManager.Api.Requests
import FxDealManager.Repositories.Rules

/-!
# The exits of the deal operations

Every way in which a deal operation may commit, with what it had checked, the statements of its
transaction, its answer, and what it handed over to the position system. The statements are
computed from the data that the request read; what they do to data that has changed since is
another matter.

## Main definitions

* `Validation`: what a successful validation has checked and computed
* `handedOver`: the object that an approval hands over
* `Exit`: the committing exits
* `Ending`: a request stops before its commit, or it takes an exit
-/

namespace FxDealManager

open DecimalArithmetic Transactional

/-! ## Guards -/

/-- The user may act as the trader of the deal. -/
def Entitled (user : UserClaims) (row : FXDealRow) : Prop :=
  row.traderId.val = user.userId ∨ user.role = .admin

/-- The user may decide about deals. -/
def IsPositioner (user : UserClaims) : Prop := user.role = .positioner ∨ user.role = .admin

/-- The checks of an approval. -/
structure Approvable (user : UserClaims) (row : FXDealRow) : Prop where
  positioner : IsPositioner user
  state : row.dealState = .waitingForPositioner
  other : row.traderId.val ≠ user.userId

instance (user : UserClaims) (row : FXDealRow) : Decidable (Entitled user row) :=
  inferInstanceAs (Decidable (_ ∨ _))

instance (user : UserClaims) : Decidable (IsPositioner user) :=
  inferInstanceAs (Decidable (_ ∨ _))

instance (user : UserClaims) (row : FXDealRow) : Decidable (Approvable user row) :=
  decidable_of_iff (IsPositioner user ∧ row.dealState = .waitingForPositioner ∧
      row.traderId.val ≠ user.userId)
    ⟨fun ⟨h₁, h₂, h₃⟩ => ⟨h₁, h₂, h₃⟩, fun ⟨h₁, h₂, h₃⟩ => ⟨h₁, h₂, h₃⟩⟩

/-! ## What the operations compute -/

/-- The checks that a validation passes, with the value date and the assigned payments. -/
structure Validation (nsi : ReferenceData) (deal : FXDeal) (valueDate : Date)
    (assigned : List (CalculatedPayment × String)) : Prop where
  issues : validate deal (nsi.counterparty? deal.counterpartyId) nsi.currency? = []
  limits : checkLimits (nsi.activeLimits deal.counterpartyId) deal = some []
  settled : ∃ last calendar, deal.tradeDate.addDays 30 = some last ∧
    nsi.loadCalendar deal.tradeDate last = some calendar ∧
    calculateValueDate deal.tradeDate deal.loadedDealType calendar deal.valueDate = .ok valueDate
  payments : ∃ calculated, calculatePayments deal valueDate = some calculated ∧
    assignNostro nsi.nostroByCurrency calculated = (assigned, [])

/-- The row stores a calculated payment with its account. -/
def PaymentRow.Books (a : CalculatedPayment × String) (row : PaymentRow) : Prop :=
  ∃ id, PaymentRow.Stores ⟨id, a.1.amount, a.1.currencyCode, some a.2, a.1.paymentDirection,
    some a.1.valueDate⟩ row

/-- The object of a deal that `user` has decided about. -/
def decidedDeal (nsi : ReferenceData) (id : UUID) (r : DealRecord) (user : UserClaims)
    (state : DealState) (decision : ApprovalDecision) (comment : Option String) : FXDeal :=
  { FXDeal.ofRecord nsi id r with
    positionerId := some user.userId
    dealState := state
    positionerSolution := r.solution.map fun s =>
      { s.toSolution with decision, comment, positionerId := user.userId } }

/-- The object that an approval by `user` hands over to the position system. -/
def handedOver (nsi : ReferenceData) (id : UUID) (r : DealRecord) (user : UserClaims) : FXDeal :=
  decidedDeal nsi id r user .approved .approve none

@[simp] theorem handedOver_id (nsi : ReferenceData) (id : UUID) (r : DealRecord)
    (user : UserClaims) : (handedOver nsi id r user).id = id := rfl

/-- The object that a body edits the loaded one to. -/
def DealUpdateRequest.edited (payload : DealUpdateRequest) (deal : FXDeal) : FXDeal :=
  let deal := assign "counterparty_id" payload.counterpartyId
    (fun a deal => { deal with counterpartyId := a }) deal
  let deal := assign "operation_direction" payload.operationDirection
    (fun a deal => { deal with operationDirection := a }) (payload.assignTerms deal)
  let deal := assign "deal_type" payload.dealType (fun a deal => { deal with dealType := a }) deal
  { payload.assignComment deal with validationStatus := .notValidated }

section Edits

variable {α β : Type} {get : FXDeal → α} {payload : DealUpdateRequest}

/-- The value depends on nothing that a body may set. -/
structure Unedited (get : FXDeal → α) : Prop where
  nulled : ∀ deal a, get { deal with nulled := a } = get deal
  tradeDate : ∀ a deal, get { deal with tradeDate := a } = get deal
  valueDate : ∀ a deal, get { deal with valueDate := a } = get deal
  amount : ∀ a deal, get { deal with amount := a } = get deal
  rate : ∀ a deal, get { deal with rate := a } = get deal
  buyCurrency : ∀ a deal, get { deal with buyCurrency := a } = get deal
  sellCurrency : ∀ a deal, get { deal with sellCurrency := a } = get deal
  operationDirection : ∀ a deal, get { deal with operationDirection := a } = get deal
  counterpartyId : ∀ a deal, get { deal with counterpartyId := a } = get deal
  dealType : ∀ a deal, get { deal with dealType := a } = get deal
  comment : ∀ a deal, get { deal with comment := a } = get deal
  validationStatus : ∀ a deal, get { deal with validationStatus := a } = get deal

theorem Unedited.assign (h : Unedited get) {column : String} {field : Field β}
    {set : β → FXDeal → FXDeal} (hset : ∀ a deal, get (set a deal) = get deal) (deal : FXDeal) :
    get (FxDealManager.assign column field set deal) = get deal := by
  cases field with
  | absent => rfl
  | null => exact h.nulled deal _
  | value a => exact hset a deal

theorem Unedited.assignNullable {field : Field β} {set : Option β → FXDeal → FXDeal}
    (hset : ∀ a deal, get (set a deal) = get deal) (deal : FXDeal) :
    get (FxDealManager.assignNullable field set deal) = get deal := by
  cases field with
  | absent => rfl
  | null => exact hset none deal
  | value a => exact hset (some a) deal

theorem Unedited.assignTerms (h : Unedited get) (deal : FXDeal) :
    get (payload.assignTerms deal) = get deal := by
  simp only [DealUpdateRequest.assignTerms]
  rw [h.assign h.sellCurrency, h.assign h.buyCurrency, h.assign h.rate, h.assign h.amount,
    assignNullable h.valueDate, h.assign h.tradeDate]

/-- An edit keeps what a body cannot set. -/
theorem Unedited.edited (h : Unedited get) (deal : FXDeal) :
    get (payload.edited deal) = get deal := by
  simp only [DealUpdateRequest.edited, h.validationStatus, DealUpdateRequest.assignComment]
  rw [assignNullable h.comment, h.assign h.dealType, h.assign h.operationDirection, h.assignTerms,
    h.assign h.counterpartyId]

variable (deal : FXDeal)

@[simp] theorem edited_id : (payload.edited deal).id = deal.id :=
  Unedited.edited (by constructor <;> intros <;> rfl) deal

@[simp] theorem edited_dealState : (payload.edited deal).dealState = deal.dealState :=
  Unedited.edited (by constructor <;> intros <;> rfl) deal

@[simp] theorem edited_traderId : (payload.edited deal).traderId = deal.traderId :=
  Unedited.edited (by constructor <;> intros <;> rfl) deal

@[simp] theorem edited_traderEmail : (payload.edited deal).traderEmail = deal.traderEmail :=
  Unedited.edited (by constructor <;> intros <;> rfl) deal

@[simp] theorem edited_positionerId : (payload.edited deal).positionerId = deal.positionerId :=
  Unedited.edited (by constructor <;> intros <;> rfl) deal

@[simp] theorem edited_payments : (payload.edited deal).payments = deal.payments :=
  Unedited.edited (by constructor <;> intros <;> rfl) deal

@[simp] theorem edited_positionerSolution :
    (payload.edited deal).positionerSolution = deal.positionerSolution :=
  Unedited.edited (by constructor <;> intros <;> rfl) deal

@[simp] theorem edited_validationStatus :
    (payload.edited deal).validationStatus = .notValidated := rfl

end Edits

/-! ## Exits -/

/-- The operations that move a deal along an edge, with the new state and the new value of the
audit entry. -/
inductive Moves (id : UUID) (row : FXDealRow) : Operation → DealState → Json → Prop
  | submit (hstate : row.dealState = .draft) (hvalid : row.validationStatus = .valid) :
      Moves id row (.submit id) .waitingForPositioner (statusJson .waitingForPositioner)
  | takeForEdit (hstate : row.dealState = .rejected) :
      Moves id row (.takeForEdit id) .draft (statusJson .draft)
  | cancel {payload : Option PositionerCommentRequest} (hstate : row.dealState = .draft) :
      Moves id row (.cancel id payload) .cancelled (cancelledJson (payload.map (·.comment)))

/-- The negative decisions of a positioner, with their comments. -/
inductive Declines (id : UUID) : Operation → ApprovalDecision → Option String → Prop
  | returnForEdit {payload : PositionerCommentRequest} :
      Declines id (.returnForEdit id payload) .returnForEdit (some payload.comment)
  | reject {payload : Option PositionerCommentRequest} :
      Declines id (.reject id payload) .reject (payload.map (·.comment))

/-- The operations that may find a deal invalid. -/
inductive Rejects (id : UUID) (row : FXDealRow) : Operation → Prop
  | validate : Rejects id row (.validate id)
  | submit (hstate : row.dealState = .draft) (hvalid : row.validationStatus = .valid) :
      Rejects id row (.submit id)

/-- The statements that record a decision for a new state: `p` sets the positioner. -/
def decisionStatements (id : UUID) (state : DealState) (p : Option (Option (Varchar 36)))
    (now : Timestamp) (solution : List Statement) (entry : AuditLogEntry) : List Statement :=
  .updateDeal id { dealState := some state, positionerId := p } now :: solution
    ++ [.insertAudit entry]

/-- The positioner of a deal is set to the user, unless this is the one. -/
def SetsPositioner (user : UserClaims) (row : FXDealRow) (p : Option (Option (Varchar 36))) :
    Prop :=
  Assigned (row.positionerId.map Varchar.val = some user.userId) storeOptional (some user.userId) p

/-- **The committing exits** of a request of `user` that found the data `db`: the operation, the
deal it is about, its answer, the statements of its transaction, and the calls of `sendDeal`. -/
inductive Exit (env : Env) (user : UserClaims) (db : Database) : Operation → UUID →
    Except ServiceError DealResponse → List Statement → List SendCall → Prop
  | created {payload : DealCreateRequest} {id : UUID} {row : FXDealRow} {entry : AuditLogEntry}
      {response : DealResponse}
      (hrow : FXDealRow.ofDeal env.now (newDeal id payload user) = .ok row)
      (hentry : Entry id .create user.email none (some (statusJson .draft)) entry) :
      Exit env user db (.create payload) id (.ok response)
        [.insertDeal id row, .insertAudit entry] []
  | updated {id : UUID} {payload : DealUpdateRequest} {r : DealRecord} {ch : DealChanges}
      {entry : AuditLogEntry} {response : DealResponse}
      (hr : db.deals.lookup id = some r) (hstate : r.row.dealState = .draft)
      (hcreator : r.row.traderId.val = user.userId)
      (hch : ch.Assigns (FXDeal.ofRecord db.nsi id r)
        (payload.edited (FXDeal.ofRecord db.nsi id r)))
      (hentry : Entry id .update user.email none (some payload.toJson) entry) :
      Exit env user db (.update id payload) id (.ok response)
        (updateStatements id ch env.now ++ deleteStatements id (r.payments.map PaymentRow.id)
          ++ [.insertAudit entry]) []
  | invalidated {op : Operation} {id : UUID} {r : DealRecord} {issues : List ValidationIssue}
      {entry : AuditLogEntry} (hr : db.deals.lookup id = some r) (hop : Rejects id r.row op)
      (huser : Entitled user r.row) (hissues : issues ≠ [])
      (hentry : Entry id .validateFailed user.email none (some (issuesJson issues)) entry) :
      Exit env user db op id (.error (.validationFailed issues))
        (updateStatements id
            { validationStatus := changedTo r.row.validationStatus .invalid } env.now
          ++ [.insertAudit entry]) []
  | validated {id : UUID} {r : DealRecord} {valueDate : Date}
      {assigned : List (CalculatedPayment × String)} {rows : List PaymentRow}
      {entry : AuditLogEntry} {response : DealResponse}
      (hr : db.deals.lookup id = some r) (huser : Entitled user r.row)
      (hvalid : Validation db.nsi (FXDeal.ofRecord db.nsi id r) valueDate assigned)
      (hrows : List.Forall₂ PaymentRow.Books assigned rows)
      (hentry : Entry id .validate user.email none
        (some (validatedJson valueDate rows.length)) entry) :
      Exit env user db (.validate id) id (.ok response)
        (updateStatements id
            { valueDate := changedTo r.row.valueDate (some valueDate)
              validationStatus := changedTo r.row.validationStatus .valid } env.now
          ++ rows.map (.insertPayment id) ++ deleteStatements id (r.payments.map PaymentRow.id)
          ++ [.insertAudit entry]) []
  | moved {op : Operation} {id : UUID} {r : DealRecord} {state : DealState} {newValue : Json}
      {entry : AuditLogEntry} {response : DealResponse} (hr : db.deals.lookup id = some r)
      (hop : Moves id r.row op state newValue) (huser : Entitled user r.row)
      (hlimits : op = .submit id →
        checkLimits (db.nsi.activeLimits r.row.counterpartyId.val) (FXDeal.ofRecord db.nsi id r) =
          some [])
      (hentry : Entry id .statusChange user.email (some (statusJson r.row.dealState))
        (some newValue) entry) :
      Exit env user db op id (.ok response)
        [.updateDeal id { dealState := some state } env.now, .insertAudit entry] []
  | declined {op : Operation} {id : UUID} {r : DealRecord} {decision : ApprovalDecision}
      {comment : Option String} {p : Option (Option (Varchar 36))} {solution : List Statement}
      {entry : AuditLogEntry} {response : DealResponse} (hr : db.deals.lookup id = some r)
      (hop : Declines id op decision comment) (huser : IsPositioner user)
      (hstate : r.row.dealState = .waitingForPositioner) (hp : SetsPositioner user r.row p)
      (hsolution : Decides id decision comment user.userId env.now r.solution solution)
      (hentry : Entry id .statusChange user.email (some (statusJson r.row.dealState))
        (some (decisionJson decision comment)) entry) :
      Exit env user db op id (.ok response)
        (decisionStatements id .rejected p env.now solution entry) []
  | sendFailed {id correlationId : UUID} {r : DealRecord} {p : Option (Option (Varchar 36))}
      {solution : List Statement} {call : SendCall} {entry : AuditLogEntry} {err : ServiceError}
      (hr : db.deals.lookup id = some r) (happrovable : Approvable user r.row)
      (hp : SetsPositioner user r.row p)
      (hsolution : Decides id .approve none user.userId env.now r.solution solution)
      (hcall : call = sendDeal env (UUID.text correlationId) (handedOver db.nsi id r user))
      (hfailed : call.result.success = false)
      (hentry : Entry id .positionSend user.email none (some (sendJson call.result)) entry) :
      Exit env user db (.approve id) id (.error err)
        (decisionStatements id .approved p env.now solution entry) [call]
  | executed {id correlationId : UUID} {r : DealRecord} {p : Option (Option (Varchar 36))}
      {solution : List Statement} {call : SendCall} {entry entry' : AuditLogEntry}
      {response : DealResponse} (hr : db.deals.lookup id = some r)
      (happrovable : Approvable user r.row) (hp : SetsPositioner user r.row p)
      (hsolution : Decides id .approve none user.userId env.now r.solution solution)
      (hcall : call = sendDeal env (UUID.text correlationId) (handedOver db.nsi id r user))
      (hsent : call.result.success = true)
      (hentry : Entry id .positionSend user.email none (some (sendJson call.result)) entry)
      (hentry' : Entry id .statusChange user.email (some (statusJson r.row.dealState))
        (some (executedJson call.result)) entry') :
      Exit env user db (.approve id) id (.ok response)
        (decisionStatements id .approved p env.now solution entry
          ++ [.updateDeal id { dealState := some .executed } env.now, .insertAudit entry']) [call]

/-- The calls of `sendDeal` that a request makes: none, or one by an approval that passes its
checks. -/
inductive Sends (env : Env) (user : UserClaims) (db : Database) :
    Operation → List SendCall → Prop
  | none {op : Operation} : Sends env user db op []
  | handedOver {id correlationId : UUID} {r : DealRecord} (hr : db.deals.lookup id = some r)
      (h : Approvable user r.row) :
      Sends env user db (.approve id)
        [sendDeal env (UUID.text correlationId) (handedOver db.nsi id r user)]

/-- Every ending of a request: it stops with an error and has committed nothing, or it takes one
of the exits. -/
inductive Ending (env : Env) (user : UserClaims) (op : Operation) (db : Database)
    (result : Except ServiceError DealResponse) (c : ServiceProgress) : Prop
  | stopped (hresult : ∃ err, result = .error err) (hdb : c.committed = db)
      (htransactions : c.transactions = []) (hsends : Sends env user db op c.effects)
  | exited {id : UUID} {log : List Statement} {sends : List SendCall}
      (hexit : Exit env user db op id result log sends) (hc : Committed db log sends c)

/-- The ending of a request, in its outcome. -/
inductive Outcome.Ends (env : Env) (user : UserClaims) (op : Operation) (db : Database)
    (o : Outcome) : Prop
  | stopped (hresult : ∃ err, o.result = .error err) (hdb : o.database = db)
      (htransactions : o.transactions = []) (hsends : Sends env user db op o.sends)
  | exited {id : UUID} {log : List Statement} (hrole : user.role ∈ op.roles)
      (hexit : Exit env user db op id o.result log o.sends) (htransactions : o.transactions = [log])
      (hreplay : replay log db = .ok o.database)

end FxDealManager
