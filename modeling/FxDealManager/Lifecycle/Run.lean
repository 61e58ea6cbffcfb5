import FxDealManager.Lifecycle.Changes
import FxDealManager.Transactional.History

/-!
# Sequential runs

The service over time: requests are served one after another, each in its own circumstances, and
the reference data may change between them.

## Main definitions

* `Input`, `step`: a request or a change of the reference data, and what it does
* `Database.initial`: the database before any request
* `DealState.submitted`: the deal was submitted and has not been rejected since
* `Succeeds`: a turn that was answered with success

## Main results

* `execute_cases`: a request fails and leaves the data alone, or takes an exit
* `forall_deals_turn`: a property of records, and of the entries about them, that creations
  establish and changes keep; `forall_deals_step`, `forall_records_step` for properties that depend
  on less
* `step_change`: what an input does to a deal
* `step_lookup_isSome`: no input removes a deal
* `entriesHaveDeals_step`: every entry stays one about a deal of the table
-/

namespace FxDealManager

open DecimalArithmetic Transactional

/-- What happens to the service: a request, or a change of the reference data. -/
inductive Input where
  | request (env : Env) (user : UserClaims) (op : Operation)
  | referenceData (nsi : ReferenceData)

/-- What an input does, with the outcome of a request. -/
def step (db : Database) : Input → Option Outcome × Database
  | .request env user op =>
    let outcome := execute env user op db
    (some outcome, outcome.database)
  | .referenceData nsi => (none, { db with nsi })

/-- The database before any request. -/
def Database.initial (nsi : ReferenceData) : Database := ⟨nsi, ∅, []⟩

/-- One input that the service was given. -/
abbrev ServiceTurn := Turn Input (Option Outcome) Database

/-- The deal was submitted and has not been rejected since. -/
def DealState.submitted : DealState → Bool
  | .waitingForPositioner | .approved | .executed => true
  | .draft | .rejected | .cancelled => false

@[simp] theorem Database.lookup_initial (nsi : ReferenceData) (id : UUID) :
    (Database.initial nsi).deals.lookup id = none := rfl

theorem exists_ok_of_toBool {ε α : Type} {x : Except ε α} (h : x.toBool = true) :
    ∃ a, x = .ok a := by
  cases x with
  | error _ => cases h
  | ok a => exact ⟨a, rfl⟩

/-- The turn is a request of the user that was answered with success. -/
def Succeeds (op : Operation) (user : UserClaims) (t : ServiceTurn) : Prop :=
  ∃ env outcome response, t.input = .request env user op ∧ t.output = some outcome ∧
    outcome.result = .ok response

/-- A turn that succeeds was a request with an answer. -/
theorem Succeeds.of_step {op op' : Operation} {user user' : UserClaims} {env : Env}
    {db after : Database} {input : Input} {outcome : Outcome}
    (h : Succeeds op' user' (turn step db input)) (hop : input = .request env user op)
    (hstep : step db input = (some outcome, after)) :
    op' = op ∧ ∃ response, outcome.result = .ok response := by
  obtain ⟨env', outcome', response, hinput, houtput, hok⟩ := h
  obtain rfl : input = .request env' user' op' := hinput
  cases hop
  simp only [turn, hstep, Option.some.injEq] at houtput
  exact ⟨rfl, response, houtput ▸ hok⟩

/-- What serving a request comes to: it fails and leaves the data alone, or it takes an exit. -/
theorem execute_cases (env : Env) (user : UserClaims) (op : Operation) (db : Database) :
    ((∃ err, (execute env user op db).result = .error err) ∧
        (execute env user op db).database = db) ∨
      ∃ id result log sends after, user.role ∈ op.roles ∧
        Exit env user db op id result log sends ∧ replay log db = .ok after ∧
        execute env user op db = ⟨result, after, [log], sends⟩ := by
  have hends := execute_ends env user op db
  generalize execute env user op db = o at hends ⊢
  obtain ⟨result, after, transactions, sends⟩ := o
  cases hends with
  | stopped hresult hdb _ _ => exact .inl ⟨hresult, hdb⟩
  | @exited id log hrole hexit htransactions hreplay =>
    refine .inr ⟨id, result, log, sends, after, hrole, hexit, hreplay, ?_⟩
    rw [show transactions = [log] from htransactions]

/-- A request that succeeds has taken an exit. -/
theorem exit_of_ok {env : Env} {user : UserClaims} {op : Operation} {db : Database}
    {response : DealResponse} (h : (execute env user op db).result = .ok response) :
    ∃ id log sends after, user.role ∈ op.roles ∧
      Exit env user db op id (.ok response) log sends ∧ replay log db = .ok after ∧
        execute env user op db = ⟨.ok response, after, [log], sends⟩ := by
  rcases execute_cases env user op db with ⟨⟨err, herr⟩, -⟩ |
    ⟨id, result, log, sends, after, hrole, hexit, hreplay, houtcome⟩
  · rw [herr] at h
    cases h
  · obtain rfl : result = .ok response := by rwa [houtcome] at h
    exact ⟨id, log, sends, after, hrole, hexit, hreplay, houtcome⟩

/-- **Deal by deal**: a property of all records and of the entries about them is kept by an input
if creations establish it, if changes keep it for their deal, and if it is kept for the deals that
the input leaves alone. -/
theorem forall_deals_turn {P : UUID → DealRecord → List AuditLogEntry → Prop} {db : Database}
    {input : Input}
    (hcreated : ∀ env user payload id row entry, input = .request env user (.create payload) →
      (step db input).2.deals.lookup id = some ⟨row, [], none⟩ → db.deals.lookup id = none →
      FXDealRow.ofDeal env.now (newDeal id payload user) = .ok row →
      Entry id .create user.email none (some (statusJson .draft)) entry →
      P id ⟨row, [], none⟩ (about id db.audit ++ [entry]))
    (hchange : ∀ env user op id outcome after result r r' added, input = .request env user op →
      step db input = (some outcome, after) → outcome.result = result →
      after.deals.lookup id = some r' → user.role ∈ op.roles → db.deals.lookup id = some r →
      Change env user db.nsi id r r op result r' added → P id r' (about id db.audit ++ added))
    (hother : ∀ id r, db.deals.lookup id = some r →
      (∀ op user, op.deal? = some id → ¬ Succeeds op user (turn step db input)) →
      P id r (about id db.audit)) :
    ∀ id r, (step db input).2.deals.lookup id = some r →
      P id r (about id (step db input).2.audit) := by
  cases input with
  | referenceData nsi =>
    intro id r hr
    refine hother id r hr ?_
    rintro op user - ⟨env, outcome, response, hinput, -⟩
    cases hinput
  | request env user op =>
    rcases execute_cases env user op db with
      ⟨⟨err, herr⟩, hdb⟩ | ⟨id, result, log, sends, after, hrole, hexit, hreplay, houtcome⟩
    · intro id r hr
      simp only [step, hdb] at hr ⊢
      refine hother id r hr ?_
      rintro op' user' - ⟨env', outcome, response, hinput, houtput, hok⟩
      cases houtput
      rw [herr] at hok
      cases hok
    · intro j r hr
      simp only [step, houtcome] at hr ⊢
      have habout := about_of_forall (fun entry he => (hexit.entries_about.2 entry he).1) j
      rw [replay_audit hreplay, about_append, ← entries, habout]
      by_cases hj : j = id
      · subst hj
        rw [if_pos rfl]
        rcases hexit.created_or_changed hreplay hr with
          ⟨payload, row, entry, rfl, hnew, hrow, hentry, rfl, hadded⟩ | ⟨r₀, r₁, hr₀, hr₁, hch⟩
        · rw [hadded]
          refine hcreated env user payload j row entry rfl ?_ hnew hrow hentry
          simpa only [step, houtcome] using hr
        · obtain rfl : r₀ = r₁ := by rw [hr₀] at hr₁; exact Option.some.inj hr₁
          refine hchange env user op j ⟨result, after, [log], sends⟩ after result r₀ r
            (entries log) rfl ?_ rfl hr hrole hr₀ hch
          simp only [step, houtcome]
      · rw [if_neg hj, List.append_nil]
        refine hother j r (hexit.lookup_other hreplay hj ▸ hr) ?_
        rintro op' user' hdeal ⟨env', outcome, response, hinput, -⟩
        cases hinput
        exact hj (hexit.deal_eq hdeal)

/-- A property that depends on records and entries only. -/
theorem forall_deals_step {P : UUID → DealRecord → List AuditLogEntry → Prop} {db : Database}
    {input : Input}
    (hcreated : ∀ (env : Env) user payload id row entry, db.deals.lookup id = none →
      FXDealRow.ofDeal env.now (newDeal id payload user) = .ok row →
      Entry id .create user.email none (some (statusJson .draft)) entry →
      P id ⟨row, [], none⟩ (about id db.audit ++ [entry]))
    (hchange : ∀ env user op id result r r' added, input = .request env user op →
      user.role ∈ op.roles → db.deals.lookup id = some r →
      Change env user db.nsi id r r op result r' added → P id r' (about id db.audit ++ added))
    (hP : ∀ id r, db.deals.lookup id = some r → P id r (about id db.audit)) :
    ∀ id r, (step db input).2.deals.lookup id = some r →
      P id r (about id (step db input).2.audit) :=
  forall_deals_turn
    (fun env user payload id row entry _ _ => hcreated env user payload id row entry)
    (fun env user op id _ _ result r r' added hop _ _ _ =>
      hchange env user op id result r r' added hop)
    fun id r hr _ => hP id r hr

/-- A property that depends on records only. -/
theorem forall_records_step {P : UUID → DealRecord → Prop} {db : Database} {input : Input}
    (hcreated : ∀ (env : Env) user payload id row, db.deals.lookup id = none →
      FXDealRow.ofDeal env.now (newDeal id payload user) = .ok row → P id ⟨row, [], none⟩)
    (hchange : ∀ env user op id result r r' added, input = .request env user op →
      user.role ∈ op.roles → db.deals.lookup id = some r →
      Change env user db.nsi id r r op result r' added → P id r')
    (hP : ∀ id r, db.deals.lookup id = some r → P id r) :
    ∀ id r, (step db input).2.deals.lookup id = some r → P id r :=
  forall_deals_step (P := fun id r _ => P id r)
    (fun env user payload id row _ hnew hrow _ => hcreated env user payload id row hnew hrow)
    hchange hP

/-- What an input does to a deal: nothing, or one of the changes. -/
theorem step_change {db : Database} {input : Input} {id : UUID} {r r' : DealRecord}
    (hr : db.deals.lookup id = some r) (hr' : (step db input).2.deals.lookup id = some r') :
    r' = r ∨ ∃ env user op result added, input = .request env user op ∧
      Change env user db.nsi id r r op result r' added := by
  -- said of all records at once, with what was there before as a parameter
  have hrecords : ∀ j q, (step db input).2.deals.lookup j = some q →
      ∀ p, db.deals.lookup j = some p → q = p ∨ ∃ env user op result added,
        input = .request env user op ∧ Change env user db.nsi j p p op result q added := by
    refine forall_records_step ?_ ?_ ?_
    · intro env user payload j row hnew _ p hp
      rw [hnew] at hp
      cases hp
    · intro env user op j result r q added hop _ hr hchange p hp
      rw [hr] at hp
      cases hp
      exact .inr ⟨env, user, op, result, added, hop, hchange⟩
    · intro j q hq p hp
      rw [hp] at hq
      cases hq
      exact .inl rfl
  exact hrecords id r' hr' r hr

/-- No input removes a deal. -/
theorem step_lookup_isSome {db : Database} {input : Input} {id : UUID}
    (h : (db.deals.lookup id).isSome) : ((step db input).2.deals.lookup id).isSome := by
  cases input with
  | referenceData nsi => exact h
  | request env user op =>
    rcases execute_cases env user op db with
      ⟨-, hdb⟩ | ⟨_, _, _, _, _, -, -, hreplay, houtcome⟩
    · simpa only [step, hdb] using h
    · simp only [step, houtcome]
      rw [replay_lookup hreplay]
      exact rewrite_isSome h

/-- Every entry is about a deal of the table. -/
def EntriesHaveDeals (db : Database) : Prop :=
  ∀ entry ∈ db.audit, (db.deals.lookup entry.entityId).isSome

theorem entriesHaveDeals_step {db : Database} {input : Input} (h : EntriesHaveDeals db) :
    EntriesHaveDeals (step db input).2 := by
  cases input with
  | referenceData nsi => exact h
  | request env user op =>
    rcases execute_cases env user op db with
      ⟨-, hdb⟩ | ⟨id, _, log, _, after, -, hex, hreplay, houtcome⟩
    · simpa only [step, hdb] using h
    · simp only [step, houtcome]
      intro entry hentry
      rw [replay_audit hreplay] at hentry
      rcases List.mem_append.mp hentry with hold | hnew
      · rw [replay_lookup hreplay]
        exact rewrite_isSome (h entry hold)
      · rw [(hex.entries_about.2 entry hnew).1]
        exact hex.lookup_isSome hreplay

/-! ## A desk

Reference data, users and circumstances for concrete runs. -/

namespace Desk

def eur : Currency := ⟨⟨"EUR", by decide⟩, ⟨"Euro", by decide⟩, 2⟩

def usd : Currency := ⟨⟨"USD", by decide⟩, ⟨"US dollar", by decide⟩, 2⟩

def bank : Counterparty := ⟨⟨"BANK", by decide⟩, ⟨"First bank", by decide⟩, none, none, true⟩

def eurAccount : NostroAccount :=
  ⟨⟨"N-EUR", by decide⟩, eur.code, bank.name, ⟨"40817978", by decide⟩, true⟩

def usdAccount : NostroAccount :=
  ⟨⟨"N-USD", by decide⟩, usd.code, bank.name, ⟨"40817840", by decide⟩, true⟩

/-- One counterparty, two currencies with an account each, no holidays and no limits. -/
def nsi : ReferenceData where
  counterparties := [bank]
  currencies := [eur, usd]
  nostroAccounts := [eurAccount, usdAccount]
  businessCalendar := []
  dealLimits := []
  counterparty_key := by decide
  currency_key := by decide
  nostro_key := by decide
  calendar_key := by decide
  limit_key := by decide

def trader : UserClaims := ⟨"trader-1", "trader@bank", .trader⟩

def positioner : UserClaims := ⟨"positioner-1", "positioner@bank", .positioner⟩

/-- The circumstances of the `k`-th request: nothing fails, and the position system accepts every
payment. -/
def env (k : ℕ) : Env where
  settings := ⟨some "http://positions", 3, false, none, none, none⟩
  now := k
  uuid n := 100 * k + n
  token := .ok "token"
  http _ := .response 201 "accepted" (.ok (.obj [("payment_id", .str "P")]))
  rejects _ := false

/-- A purchase of 100.00 USD for EUR at 1.1, on Monday, 15 January 2024. -/
def payload : DealCreateRequest where
  tradeDate := ⟨738900, by decide⟩
  dealType := .tod
  operationDirection := .buy
  buyCurrency := "USD"
  sellCurrency := "EUR"
  amount := ⟨false, 10000, -2⟩
  rate := ⟨false, 11, -1⟩
  counterpartyId := "BANK"
  valueDate := none
  comment := none
  amount_pos := by decide
  rate_pos := by decide
  counterpartyId_length := by decide
  comment_length := nofun

/-- A body that leaves a deal as it is. -/
def unchanged : DealUpdateRequest where
  tradeDate := .absent
  dealType := .absent
  operationDirection := .absent
  buyCurrency := .absent
  sellCurrency := .absent
  amount := .absent
  rate := .absent
  counterpartyId := .absent
  valueDate := .absent
  comment := .absent
  amount_pos := nofun
  rate_pos := nofun
  counterpartyId_length := nofun
  comment_length := nofun

/-- The deal that the first request creates. -/
def dealId : UUID := 100

/-- The trader creates the deal. -/
def creation : List Input := [.request (env 1) trader (.create payload)]

/-- The trader creates the deal and has it validated. -/
def validation : List Input := creation ++ [.request (env 2) trader (.validate dealId)]

/-- The trader creates the deal, has it validated and submits it. -/
def submission : List Input := validation ++ [.request (env 3) trader (.submit dealId)]

/-- The submitted deal is returned, taken back, and submitted again. -/
def resubmission : List Input :=
  submission ++ [.request (env 4) positioner (.returnForEdit dealId ⟨"check the rate", by decide⟩),
    .request (env 5) trader (.takeForEdit dealId), .request (env 6) trader (.submit dealId)]

/-- The submission, followed by an approval in which nothing fails. -/
def execution : List Input := submission ++ [.request (env 4) positioner (.approve dealId)]

/-- The database after the given inputs. -/
def after (inputs : List Input) : Database := serveAll step (Database.initial nsi) inputs

/-- The submitted deal. -/
def submitted : DealRecord := ((after submission).deals.lookup dealId).get (by decide +kernel)

/-- The executed deal. -/
def executed : DealRecord := ((after execution).deals.lookup dealId).get (by decide +kernel)

end Desk

end FxDealManager
