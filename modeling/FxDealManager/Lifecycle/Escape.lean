import FxDealManager.Validation.Saving

/-!
# Ways out of the open states

From every open state but one, requests that the routes admit lead a deal to an end: a waiting deal
is rejected, a rejected one is taken back, and a draft is cancelled. A deal that was left approved
by a failed sending stays approved, whatever happens afterwards.

## Main definitions

* `DealState.closed`: the ends of a deal
* `Env.Accepting`: the position system accepts every payment
* `Escapes`: admitted requests lead the deal to an end
* `retreat`: what an administrator does about an open deal

## Main results

* `changeState_from`: in fair circumstances a change of state is committed
* `approved_stays`: no input leads out of `APPROVED`
* `escapes_iff`: the deals that are not stuck
-/

namespace FxDealManager

open DecimalArithmetic Transactional

/-- The deal is executed or cancelled. -/
def DealState.closed : DealState → Bool
  | .executed | .cancelled => true
  | .draft | .waitingForPositioner | .approved | .rejected => false

/-- The position system accepts every payment that is posted to it. -/
structure Env.Accepting (env : Env) : Prop where
  url : ∃ url ∈ env.settings.positionSystemUrl, url ≠ ""
  retries : 0 < env.settings.positionSendRetries
  auth : ∃ headers, authHeaders env.settings env.token = .ok headers
  http : ∀ n, ∃ ref, judge (env.http n) = .accepted ref

/-- A request of a user with a permitted role that the position system accepts, or a change of the
reference data. -/
def Input.Permitted : Input → Prop
  | .request env user op => user.role ∈ op.roles ∧ env.Accepting
  | .referenceData _ => True

/-- Finitely many permitted inputs lead the deal to an end. -/
def Escapes (db : Database) (id : UUID) : Prop :=
  ∃ inputs : List Input, (∀ input ∈ inputs, input.Permitted) ∧
    ∃ r, (serveAll step db inputs).deals.lookup id = some r ∧ r.row.dealState.closed = true

theorem Escapes.of_step {db : Database} {id : UUID} {input : Input} (hpermitted : input.Permitted)
    (h : Escapes (step db input).2 id) : Escapes db id := by
  obtain ⟨inputs, hinputs, hend⟩ := h
  exact ⟨input :: inputs, List.forall_mem_cons.mpr ⟨hpermitted, hinputs⟩, hend⟩

/-! ## Approved deals -/

/-- No input leads a deal out of `APPROVED`. -/
theorem approved_step {db : Database} {id : UUID} {r : DealRecord} (input : Input)
    (hr : db.deals.lookup id = some r) (hstate : r.row.dealState = .approved) :
    ∃ r', (step db input).2.deals.lookup id = some r' ∧ r'.row.dealState = .approved := by
  have hkept : ((step db input).2.deals.lookup id).isSome :=
    step_lookup_isSome (Option.isSome_of_eq_some hr)
  obtain ⟨r', hr'⟩ := Option.isSome_iff_exists.mp hkept
  refine ⟨r', hr', ?_⟩
  rcases step_change hr hr' with rfl | ⟨env, user, op, result, added, -, hchange⟩
  · exact hstate
  · cases hchange with
    | edited hdraft _ _ _ => rw [hstate] at hdraft; cases hdraft
    | invalidated _ _ _ _ => simpa using hstate
    | validated _ _ _ _ _ => simpa using hstate
    | moved hop _ _ =>
      cases hop with
      | submit hdraft _ => rw [hstate] at hdraft; cases hdraft
      | takeForEdit hrejected => rw [hstate] at hrejected; cases hrejected
      | cancel hdraft => rw [hstate] at hdraft; cases hdraft
    | decided hdecision _ =>
      have hwaiting := hdecision.waiting
      rw [hstate] at hwaiting
      cases hwaiting

/-- **An approved deal stays approved**, whatever happens afterwards. -/
theorem approved_stays {db : Database} {id : UUID} {r : DealRecord} (inputs : List Input)
    (hr : db.deals.lookup id = some r) (hstate : r.row.dealState = .approved) :
    ∃ r', (serveAll step db inputs).deals.lookup id = some r' ∧ r'.row.dealState = .approved := by
  induction inputs generalizing db r with
  | nil => exact ⟨r, hr, hstate⟩
  | cons input inputs ih =>
    obtain ⟨r', hr', hstate'⟩ := approved_step input hr hstate
    exact ih hr' hstate'

theorem not_escapes_of_approved {db : Database} {id : UUID} {r : DealRecord}
    (hr : db.deals.lookup id = some r) (hstate : r.row.dealState = .approved) :
    ¬ Escapes db id := by
  rintro ⟨inputs, -, r', hr', hclosed⟩
  obtain ⟨r'', hr'', hstill⟩ := approved_stays inputs hr hstate
  rw [hr'] at hr''
  cases hr''
  rw [hstill] at hclosed
  cases hclosed

/-! ## Changes of state that succeed -/

section Changes

variable {env : Env} {user : UserClaims} {db : Database} {id : UUID} {r : DealRecord}

/-- A request that is answered with success. -/
def Answered (result : Except ServiceError DealResponse) (_ : ServiceProgress) : Prop :=
  ∃ response, result = .ok response

/-- **In fair circumstances** a change of state is committed, if what is pending can be written. -/
theorem changeState_from {p : Pending} {oldStatus : DealState} {newValue : Json} {n : ℕ}
    (hfair : Fair env db) (hemail : user.email.length ≤ 320)
    (hfound : (db.deals.lookup p.deal.id).isSome) (hnulled : p.deal.nulled = [])
    (hpositioner : ∀ s ∈ p.deal.positionerId, s.length ≤ 36)
    (hst : ∃ log, p.statements env.now = .ok log)
    (hfit : ∀ log, p.statements env.now = .ok log → FitAll db [] log ∧ entries log = []) :
    (changeState p oldStatus newValue user).EnsuresFrom env (Progress.start db) n Answered := by
  have hrej : ∀ c : ServiceProgress, c.MayReject env Answered := fun _ => .of_calm hfair.calm
  refine saveExisting_from (hrej _) (fun err herr => ?_) (fun statements err hlog hreplay => ?_)
    hfound fun statements d r hlog hd _ => ?_
  · obtain ⟨log, hlog⟩ := hst
    rw [hlog] at herr
    cases herr
  · obtain ⟨d, hd⟩ := exists_replay_of_fitAll (hfit _ hlog).1
    rw [Progress.start_work, hd] at hreplay
    cases hreplay
  · exact finish_from hfair hd (hfit _ hlog).2 hnulled hpositioner
      (fun hlong => absurd hemail hlong) fun _ _ => ⟨_, rfl⟩

/-- A deal is moved to another state. -/
theorem move_from {state : DealState} {newValue : Json} {n : ℕ} (hfair : Fair env db)
    (hemail : user.email.length ≤ 320) (hr : db.deals.lookup id = some r)
    (hne : r.row.dealState ≠ state) :
    (setDealState (FXDeal.ofRecord db.nsi id r) state >>= fun moved =>
      changeState { loaded := FXDeal.ofRecord db.nsi id r, deal := moved } r.row.dealState newValue
        user).EnsuresFrom env (Progress.start db) n Answered := by
  have hsome : (db.deals.lookup id).isSome := Option.isSome_of_eq_some hr
  have hpositioner := positionerId_ofRecord_length db.nsi id r
  refine setDealState_from (.of_calm hfair.calm) ?_
  refine changeState_from hfair hemail hsome rfl hpositioner ?_ fun log hlog => ?_
  · exact exists_statements env.now (exists_between_decided rfl hpositioner) (fun _ h => by cases h)
      (exists_solutionStatements rfl rfl)
  · rw [moved_statements hne hlog]
    exact ⟨⟨⟨hsome, rfl⟩, trivial⟩, rfl⟩

/-- The solution of a decision can be written, as the first one or over the stored one. -/
theorem saveSolution_from {state : DealState} {decision : ApprovalDecision}
    {comment : Option String} {f : Pending → Service DealResponse} {n : ℕ} (hfair : Fair env db)
    (hr : db.deals.lookup id = some r) (huserId : user.userId.length ≤ 36)
    (h : ∀ pending newSolution m,
      pending = ⟨FXDeal.ofRecord db.nsi id r, decidedDeal db.nsi id r user state decision comment,
        [], [], newSolution⟩ →
      (∃ solution, pending.solutionStatements env.now = .ok solution) →
      (∀ solution, pending.solutionStatements env.now = .ok solution →
        (∀ ch, FitAll db [.updateDeal id ch env.now] solution) ∧ entries solution = []) →
      (f pending).EnsuresFrom env (Progress.start db) m Answered) :
    (saveSolution
      { loaded := FXDeal.ofRecord db.nsi id r,
        deal := { FXDeal.ofRecord db.nsi id r with
          positionerId := some user.userId
          dealState := state } } user decision comment >>= f).EnsuresFrom env (Progress.start db) n
        Answered := by
  obtain ⟨row, payments, stored⟩ := r
  obtain ⟨positioner, hpositioner⟩ := Option.isSome_iff_exists.mp
    (Varchar.ofString_isSome.mpr huserId : (Varchar.ofString user.userId :
      Option (Varchar 36)).isSome)
  have hcolumn : storeColumn Varchar.ofString (.stringTooLong "positioner_id") user.userId =
      .ok positioner := storeColumn_eq_ok.mpr hpositioner
  cases stored with
  | none =>
    refine .bind_assoc (freshId_from (.pure_bind (h _ _ _ rfl ?_ ?_)))
    · exact ⟨_, bind_eq_ok.mpr ⟨_, bind_eq_ok.mpr ⟨positioner, hcolumn, rfl⟩, rfl⟩⟩
    · intro solution hsolution
      obtain ⟨s, hs, hsolution⟩ := bind_eq_ok.mp hsolution
      obtain ⟨positioner', -, hs⟩ := bind_eq_ok.mp hs
      cases hs
      cases hsolution
      exact ⟨fun ch => ⟨⟨⟨_, hr, rfl⟩, hfair.solutions _, by simp⟩, trivial⟩, rfl⟩
  | some s =>
    refine .pure_bind (h _ none _ rfl ?_ ?_)
    · refine ⟨_, bind_eq_ok.mpr ⟨_, bind_eq_ok.mpr
        ⟨if s.positionerId.val = user.userId then none else some positioner, ?_, rfl⟩, rfl⟩⟩
      by_cases hsame : s.positionerId.val = user.userId <;>
        simp [changedColumn, PositionerSolutionRow.toSolution, hsame, hcolumn, Except.map]
    · intro solution hsolution
      obtain ⟨changes, -, hsolution⟩ := bind_eq_ok.mp hsolution
      cases hsolution
      split
      · exact ⟨fun ch => trivial, rfl⟩
      · exact ⟨fun ch => ⟨⟨_, hr, rfl, by simp⟩, trivial⟩, rfl⟩

/-! ## An administrator retreats -/

/-- What an administrator does about an open deal, with the state that it leads to. -/
def retreat (id : UUID) : DealState → Option (Operation × DealState)
  | .waitingForPositioner => some (.reject id none, .rejected)
  | .rejected => some (.takeForEdit id, .draft)
  | .draft => some (.cancel id none, .cancelled)
  | .approved | .executed | .cancelled => none

/-- In fair circumstances an administrator retreats with success. -/
theorem retreat_from {op : Operation} {state : DealState} (hfair : Fair env db)
    (hr : db.deals.lookup id = some r) (hadmin : user.role = .admin)
    (hemail : user.email.length ≤ 320) (huserId : user.userId.length ≤ 36)
    (h : retreat id r.row.dealState = some (op, state)) :
    (serve op user).EnsuresFrom env (Progress.start db) 0 Answered := by
  have hrej : ∀ c : ServiceProgress, c.MayReject env Answered := fun _ => .of_calm hfair.calm
  have hentitled : (FXDeal.ofRecord db.nsi id r).traderId = user.userId ∨ user.role = .admin :=
    .inr hadmin
  cases hstate : r.row.dealState with
  | draft =>
    rw [hstate] at h
    cases h
    refine .require_bind (fun hnot => absurd (by simp [hadmin, Operation.roles]) hnot) fun _ => ?_
    refine loadDeal_found_from hr (hrej _) (.require_bind (absurd hentitled) fun _ => ?_)
    exact .require_bind (absurd hstate) fun _ => move_from hfair hemail hr (by simp [hstate])
  | rejected =>
    rw [hstate] at h
    cases h
    refine .require_bind (fun hnot => absurd (by simp [hadmin, Operation.roles]) hnot) fun _ => ?_
    refine loadDeal_found_from hr (hrej _) (.require_bind (absurd hentitled) fun _ => ?_)
    exact .require_bind (absurd hstate) fun _ => move_from hfair hemail hr (by simp [hstate])
  | waitingForPositioner =>
    rw [hstate] at h
    cases h
    have hsome : (db.deals.lookup id).isSome := Option.isSome_of_eq_some hr
    have hpositioner : ∀ s ∈ some user.userId, s.length ≤ 36 := by rintro _ ⟨⟩; exact huserId
    refine .require_bind (fun hnot => absurd (by simp [hadmin, Operation.roles]) hnot) fun _ => ?_
    refine loadDeal_found_from hr (hrej _) (.require_bind (absurd (.inr hadmin)) fun _ => ?_)
    refine .require_bind (absurd hstate) fun _ => .require_bind (absurd (by simp)) fun _ => ?_
    refine setDealState_from (hrej _) (saveSolution_from hfair hr huserId ?_)
    intro pending newSolution m hpending hsolution hfits
    have hne : r.row.dealState ≠ .rejected := by simp [hstate]
    refine changeState_from hfair hemail (by rw [hpending]; exact hsome) (by rw [hpending]; rfl)
      (by rw [hpending]; exact hpositioner) ?_ fun log hlog => ?_
    · refine exists_statements env.now ?_ (by rw [hpending]; exact fun _ h => by cases h) hsolution
      rw [hpending]
      exact exists_between_decided rfl hpositioner
    · obtain ⟨p, solution, -, hsolution', rfl⟩ := decision_statements hne hpending hlog
      obtain ⟨hfit, hentries⟩ := hfits solution hsolution'
      exact ⟨⟨⟨hsome, rfl⟩, hfit _⟩, hentries⟩
  | approved => rw [hstate] at h; cases h
  | executed => rw [hstate] at h; cases h
  | cancelled => rw [hstate] at h; cases h

end Changes

/-- What a retreat makes of its deal. -/
theorem Change.retreated {env : Env} {user : UserClaims} {nsi : ReferenceData} {id : UUID}
    {r r' : DealRecord} {op : Operation} {state : DealState} {response : DealResponse}
    {added : List AuditLogEntry} (hop : retreat id r.row.dealState = some (op, state))
    (h : Change env user nsi id r r op (.ok response) r' added) : r'.row.dealState = state := by
  cases h with
  | edited hdraft _ _ _ => rw [hdraft] at hop; cases hop
  | validated _ hvalid _ _ _ =>
    have hdraft : r.row.dealState = .draft := (of_validate_eq_nil hvalid.issues).1
    rw [hdraft] at hop
    cases hop
  | moved hmoves _ _ =>
    cases hmoves with
    | submit hdraft _ => rw [hdraft] at hop; cases hop
    | takeForEdit hrejected => rw [hrejected] at hop; cases hop; rfl
    | cancel hdraft => rw [hdraft] at hop; cases hop; rfl
  | decided hdecision _ =>
    rw [hdecision.waiting] at hop
    cases hop
    cases hdecision with
    | declined _ _ _ _ => rfl

/-- Circumstances in which nothing fails, with identifiers from a bound on. -/
def undisturbed (bound : UUID) : Env where
  settings := ⟨some "http://positions", 3, false, none, none, none⟩
  now := 0
  uuid n := bound + n
  token := .ok "token"
  http _ := .response 201 "accepted" (.ok (.obj []))
  rejects _ := false

def administrator : UserClaims := ⟨"admin-1", "admin@bank", .admin⟩

theorem undisturbed_accepting (bound : UUID) : (undisturbed bound).Accepting :=
  ⟨⟨_, rfl, by decide⟩, (by decide : (0 : ℤ) < 3), ⟨[], rfl⟩, fun _ => ⟨none, rfl⟩⟩

/-- An administrator can retreat with any deal. -/
theorem exists_retreat {db : Database} {id : UUID} {r : DealRecord} {op : Operation}
    {state : DealState} (hr : db.deals.lookup id = some r)
    (h : retreat id r.row.dealState = some (op, state)) :
    ∃ input : Input, input.Permitted ∧
      ∃ r', (step db input).2.deals.lookup id = some r' ∧ r'.row.dealState = state := by
  obtain ⟨bound, hbound⟩ := db.exists_idsBelow
  have hfair : Fair (undisturbed bound) db := .of_idsBelow (fun _ => rfl) rfl
    (fun _ _ heq => Nat.add_left_cancel heq) (fun n => Nat.le_add_right _ n) hbound
  have hretreat : (serve op administrator).EnsuresFrom (undisturbed bound) (Progress.start db) 0
      Answered :=
    retreat_from hfair hr rfl (by decide) (by decide) h
  obtain ⟨response, hresponse⟩ := hretreat.run
  have hresult : (execute (undisturbed bound) administrator op db).result = .ok response :=
    hresponse
  rcases execute_cases (undisturbed bound) administrator op db with
    ⟨⟨err, herr⟩, -⟩ | ⟨j, result, log, sends, after, hrole, hexit, hreplay, houtcome⟩
  · rw [hresult] at herr
    cases herr
  · have hdeal : op.deal? = some id := by
      cases hstate : r.row.dealState <;> rw [hstate] at h <;> cases h <;> rfl
    obtain rfl := hexit.deal_eq hdeal
    rw [houtcome] at hresult
    cases hresult
    obtain ⟨r₀, r', hr₀, hr', hchange⟩ := hexit.change hreplay hr
    rw [hr] at hr₀
    cases hr₀
    refine ⟨.request (undisturbed bound) administrator op,
      ⟨hrole, undisturbed_accepting bound⟩, r', ?_, hchange.retreated h⟩
    simpa only [step, houtcome] using hr'

/-! ## The deals that are stuck -/

theorem escapes_of_draft {db : Database} {id : UUID} {r : DealRecord}
    (hr : db.deals.lookup id = some r) (hstate : r.row.dealState = .draft) : Escapes db id := by
  obtain ⟨input, hpermitted, r', hr', hcancelled⟩ := exists_retreat hr (by rw [hstate]; rfl)
  exact .of_step hpermitted ⟨[], by simp, r', hr', by rw [hcancelled]; rfl⟩

theorem escapes_of_rejected {db : Database} {id : UUID} {r : DealRecord}
    (hr : db.deals.lookup id = some r) (hstate : r.row.dealState = .rejected) : Escapes db id := by
  obtain ⟨input, hpermitted, r', hr', hdraft⟩ := exists_retreat hr (by rw [hstate]; rfl)
  exact .of_step hpermitted (escapes_of_draft hr' hdraft)

theorem escapes_of_waiting {db : Database} {id : UUID} {r : DealRecord}
    (hr : db.deals.lookup id = some r) (hstate : r.row.dealState = .waitingForPositioner) :
    Escapes db id := by
  obtain ⟨input, hpermitted, r', hr', hrejected⟩ := exists_retreat hr (by rw [hstate]; rfl)
  exact .of_step hpermitted (escapes_of_rejected hr' hrejected)

/-- **The deals that are stuck**: whatever the database holds, finitely many permitted inputs lead
an open deal to an end if and only if the deal is not approved. -/
theorem escapes_iff {db : Database} {id : UUID} {r : DealRecord}
    (hr : db.deals.lookup id = some r) (hopen : r.row.dealState.closed = false) :
    Escapes db id ↔ r.row.dealState ≠ .approved := by
  constructor
  · exact fun hescapes happroved => not_escapes_of_approved hr happroved hescapes
  · intro hne
    cases hstate : r.row.dealState with
    | draft => exact escapes_of_draft hr hstate
    | waitingForPositioner => exact escapes_of_waiting hr hstate
    | rejected => exact escapes_of_rejected hr hstate
    | approved => exact absurd hstate hne
    | executed => rw [hstate] at hopen; cases hopen
    | cancelled => rw [hstate] at hopen; cases hopen

namespace Desk

/-- The circumstances of the `k`-th request, in which the position system is out of service. -/
def outOfService (k : ℕ) : Env :=
  { env k with http := fun _ => .response 503 "unavailable" (.error "no JSON") }

/-- The submission, followed by an approval whose payments are not accepted. -/
def failedApproval : List Input :=
  submission ++ [.request (outOfService 4) positioner (.approve dealId)]

end Desk

/-- The submitted deal of the desk is not stuck. -/
theorem escapes_iff_desk : Escapes (Desk.after Desk.submission) Desk.dealId :=
  (escapes_iff (r := Desk.submitted) (Option.some_get _).symm (by decide +kernel)).mpr
    (by decide +kernel)

/-- A deal whose payments were not accepted is stuck. -/
theorem approved_stuck :
    ¬ ∀ (nsi : ReferenceData) (history : List ServiceTurn) (db : Database),
      Run step (Database.initial nsi) history db → ∀ id r, db.deals.lookup id = some r →
        r.row.dealState.closed = false → Escapes db id := by
  intro h
  have hstate : ((Desk.after Desk.failedApproval).deals.lookup Desk.dealId).any
      (fun r => r.row.dealState = .approved) = true := by
    decide +kernel
  obtain ⟨r, hr, happroved⟩ := (Option.any_eq_true _ _).mp hstate
  have happroved : r.row.dealState = .approved := of_decide_eq_true happroved
  exact not_escapes_of_approved hr happroved (h Desk.nsi _ _
    (run_serveAll step (Database.initial Desk.nsi) Desk.failedApproval) Desk.dealId r hr
    (by rw [happroved]; rfl))

end FxDealManager
