import FxDealManager.Lifecycle.Duties

/-!
# The solution of a deal

The solution of a deal is the one row that its decisions are recorded in: the first decision
inserts it, and the later ones overwrite it, except for the time of the decision.

## Main definitions

* `TakenDecision`, `decisions`: the decisions about a deal that a history has committed
* `PositionerSolutionRow.Holds`: a row holds a decision
* `LastDecision`: the stored decision is the last one

## Main results

* `step_solution`: what an input does to the solution of a deal
* `solution_is_last_iff`: the stored decision is the last one if and only if this was taken at the
  time of the first one
* `decided_at_stale`: a run in which it was not
-/

namespace FxDealManager

open DecimalArithmetic Transactional

/-! ## Decisions -/

/-- A decision as it was taken. -/
structure TakenDecision where
  decision : ApprovalDecision
  comment : Option String
  positionerId : String
  time : Timestamp
deriving DecidableEq, Repr

/-- The decision that an operation takes about the deal. -/
def Operation.decides (id : UUID) : Operation → Option (ApprovalDecision × Option String)
  | .approve dealId => if dealId = id then some (.approve, none) else none
  | .returnForEdit dealId payload =>
    if dealId = id then some (.returnForEdit, some payload.comment) else none
  | .reject dealId payload => if dealId = id then some (.reject, payload.map (·.comment)) else none
  | _ => none

/-- The decision about the deal that a turn has committed. -/
def decisionOf (id : UUID) (t : ServiceTurn) : Option TakenDecision :=
  match t.input, t.output with
  | .request env user op, some outcome =>
    if outcome.transactions = [] then none
    else (op.decides id).map fun taken => ⟨taken.1, taken.2, user.userId, env.now⟩
  | _, _ => none

/-- The decisions about the deal that a history has committed, in their order. -/
def decisions (id : UUID) (history : List ServiceTurn) : List TakenDecision :=
  history.filterMap (decisionOf id)

theorem decisions_append (id : UUID) (history : List ServiceTurn) (t : ServiceTurn) :
    decisions id (history ++ [t]) = decisions id history ++ (decisionOf id t).toList := by
  rw [decisions, List.filterMap_append, ← decisions]
  cases h : decisionOf id t <;> simp [h]

/-! ## What a decision stores -/

/-- The row holds the decision, apart from its time. -/
structure PositionerSolutionRow.Holds (s : PositionerSolutionRow) (d : TakenDecision) : Prop where
  decision : s.decision = d.decision
  comment : s.comment = d.comment
  positionerId : s.positionerId.val = d.positionerId

section Stored

variable {id : UUID} {r : DealRecord} {decision : ApprovalDecision} {comment : Option String}
  {positionerId : String} {now : Timestamp} {log : List Statement}

/-- **A decision is held by the solution afterwards**, which keeps the time that it has. -/
theorem rewrite_solution (h : Decides id decision comment positionerId now r.solution log) :
    ∃ s, rewrite id log (some r) = some { r with solution := some s } ∧
      s.Holds ⟨decision, comment, positionerId, now⟩ ∧
        s.decidedAt = (r.solution.map (·.decidedAt)).getD now := by
  generalize hold : r.solution = old at h
  cases h with
  | @first s hdecision hcomment hpositioner hdecided =>
    refine ⟨s, ?_, ⟨hdecision, hcomment, hpositioner⟩, hdecided⟩
    simp [rewrite, Statement.deal?, Statement.write]
  | @again s ch hdecision hcomment hpositioner =>
    refine ⟨ch.apply s, ?_, ⟨hdecision, hcomment, hpositioner⟩, rfl⟩
    by_cases hch : ch = {}
    · subst hch
      simp [← hold, SolutionChanges.apply]
    · simp [hch, rewrite, Statement.deal?, Statement.write, hold]

variable {cur after : Database} {state : DealState} {p : Option (Option (Varchar 36))}
  {solution : List Statement} {entry entry' : AuditLogEntry} {ch : DealChanges}

theorem lookup_solution
    (h : replay (decisionStatements id state p now solution entry) cur = .ok after)
    (hsolution : Decides id decision comment positionerId now r.solution solution)
    (hr : cur.deals.lookup id = some r) :
    ∃ s, after.deals.lookup id =
        some ⟨({ dealState := some state, positionerId := p } : DealChanges).apply now r.row,
          r.payments, some s⟩ ∧
      s.Holds ⟨decision, comment, positionerId, now⟩ ∧
        s.decidedAt = (r.solution.map (·.decidedAt)).getD now := by
  rw [replay_lookup h, hr]
  obtain ⟨s, hs, hholds, hdecided⟩ := rewrite_solution (r := { r with
    row := ({ dealState := some state, positionerId := p } : DealChanges).apply now r.row })
    hsolution
  exact ⟨s, by simp [decisionStatements, hs], hholds, hdecided⟩

theorem lookup_executed_solution
    (h : replay (decisionStatements id state p now solution entry
      ++ [.updateDeal id ch now, .insertAudit entry']) cur = .ok after)
    (hsolution : Decides id decision comment positionerId now r.solution solution)
    (hr : cur.deals.lookup id = some r) :
    ∃ s, after.deals.lookup id =
        some ⟨ch.apply now
          (({ dealState := some state, positionerId := p } : DealChanges).apply now r.row),
          r.payments, some s⟩ ∧
      s.Holds ⟨decision, comment, positionerId, now⟩ ∧
        s.decidedAt = (r.solution.map (·.decidedAt)).getD now := by
  obtain ⟨a, hdecision, hexecution⟩ := replay_append_eq_ok.mp h
  obtain ⟨s, ha, hholds, hdecided⟩ := lookup_solution hdecision hsolution hr
  exact ⟨s, lookup_moved hexecution ha, hholds, hdecided⟩

end Stored

/-! ## What an input does -/

/-- The states that only a decision leads to. -/
def DealState.decided : DealState → Bool
  | .approved | .executed | .rejected => true
  | .draft | .waitingForPositioner | .cancelled => false

/-- The decision leads to the state. -/
def ApprovalDecision.LeadsTo : ApprovalDecision → DealState → Prop
  | .approve, state => state = .approved ∨ state = .executed
  | .returnForEdit, state | .reject, state => state = .rejected

theorem ApprovalDecision.LeadsTo.approved {decision : ApprovalDecision} {state : DealState}
    (h : decision.LeadsTo state) (hstate : state = .approved ∨ state = .executed) :
    decision = .approve := by
  cases decision with
  | approve => rfl
  | returnForEdit => rcases hstate with rfl | rfl <;> cases h
  | reject => rcases hstate with rfl | rfl <;> cases h

theorem ApprovalDecision.LeadsTo.rejected {decision : ApprovalDecision} {state : DealState}
    (h : decision.LeadsTo state) (hstate : state = .rejected) :
    decision = .returnForEdit ∨ decision = .reject := by
  cases decision with
  | approve => subst hstate; rcases h with h | h <;> cases h
  | returnForEdit => exact .inl rfl
  | reject => exact .inr rfl

/-- What an input does to the solution of a deal that it leaves behind, with the decision that it
takes about the deal: the deal is created without a solution, or it keeps its solution and enters no
decided state, or the solution holds the decision. -/
inductive SolutionStep : Option DealRecord → Option TakenDecision → DealRecord → Prop
  | created {r' : DealRecord} (hsolution : r'.solution = none)
      (hstate : r'.row.dealState = .draft) : SolutionStep none none r'
  | kept {r r' : DealRecord} (hsolution : r'.solution = r.solution)
      (hpositioner : r'.row.positionerId = r.row.positionerId)
      (hstate : r'.row.dealState.decided = true → r'.row.dealState = r.row.dealState) :
      SolutionStep (some r) none r'
  | decided {r r' : DealRecord} {d : TakenDecision} {s : PositionerSolutionRow}
      (hsolution : r'.solution = some s) (hholds : s.Holds d)
      (hdecided : s.decidedAt = (r.solution.map (·.decidedAt)).getD d.time)
      (hpositioner : r'.row.positionerId.map Varchar.val = some d.positionerId)
      (hstate : d.decision.LeadsTo r'.row.dealState) : SolutionStep (some r) (some d) r'

theorem decides_eq_none {op : Operation} {id : UUID} (h : op.deal? ≠ some id) :
    op.decides id = none := by
  cases op with
  | approve dealId | returnForEdit dealId payload | reject dealId payload =>
    exact if_neg fun heq => h (congrArg some heq)
  | _ => rfl

/-- What an exit does to the solution of its deal. -/
theorem Exit.solutionStep {env : Env} {user : UserClaims} {db after : Database} {op : Operation}
    {id : UUID} {result : Except ServiceError DealResponse} {log : List Statement}
    {sends : List SendCall} (h : Exit env user db op id result log sends)
    (hreplay : replay log db = .ok after) {r' : DealRecord}
    (hr' : after.deals.lookup id = some r') :
    SolutionStep (db.deals.lookup id)
      ((op.decides id).map fun taken => ⟨taken.1, taken.2, user.userId, env.now⟩) r' := by
  cases h with
  | created hrow _ =>
    rw [lookup_created hreplay] at hr'
    cases hr'
    rw [lookup_of_insertDeal hreplay]
    exact .created rfl (ofDeal_eq_ok hrow).dealState
  | updated hr hstate _ hch _ =>
    rw [lookup_updated hreplay hr] at hr'
    cases hr'
    rw [hr]
    have hpositioner := hch.positionerId.of_equal (by simp)
    exact .kept rfl (by simp [hpositioner])
      fun hdecided => by simp [hch.dealState, hstate, DealState.decided] at hdecided
  | invalidated hr hrejects _ _ _ =>
    rw [lookup_invalidated hreplay hr] at hr'
    cases hr'
    rw [hr]
    cases hrejects <;> exact .kept rfl (by simp) fun _ => by simp
  | validated hr _ _ _ _ =>
    rw [lookup_validated hreplay hr] at hr'
    cases hr'
    rw [hr]
    exact .kept rfl (by simp) fun _ => by simp
  | moved hr hmoves _ _ _ =>
    rw [lookup_moved hreplay hr] at hr'
    cases hr'
    rw [hr]
    cases hmoves <;> exact .kept rfl rfl nofun
  | @declined _ _ _ decision comment _ _ _ _ hr hdeclines _ _ hp hsolution _ =>
    obtain ⟨s, hafter, hholds, hdecided⟩ := lookup_solution hreplay hsolution hr
    rw [hafter] at hr'
    cases hr'
    rw [hr]
    cases hdeclines <;> simp only [Operation.decides, if_true, Option.map_some] <;>
      exact .decided rfl hholds hdecided hp.stored rfl
  | sendFailed hr _ hp hsolution _ _ _ =>
    obtain ⟨s, hafter, hholds, hdecided⟩ := lookup_solution hreplay hsolution hr
    rw [hafter] at hr'
    cases hr'
    rw [hr]
    simp only [Operation.decides, if_true, Option.map_some]
    exact .decided rfl hholds hdecided hp.stored (.inl rfl)
  | executed hr _ hp hsolution _ _ _ _ =>
    obtain ⟨s, hafter, hholds, hdecided⟩ := lookup_executed_solution hreplay hsolution hr
    rw [hafter] at hr'
    cases hr'
    rw [hr]
    simp only [Operation.decides, if_true, Option.map_some]
    exact .decided rfl hholds hdecided hp.stored (.inr rfl)

theorem decisionOf_request {env : Env} {user : UserClaims} {op : Operation} {db : Database}
    {id : UUID} :
    decisionOf id (turn step db (.request env user op)) =
      if (execute env user op db).transactions = [] then none
      else (op.decides id).map fun taken => ⟨taken.1, taken.2, user.userId, env.now⟩ := rfl

/-- **What an input does to the solution of a deal**. -/
theorem step_solution {db : Database} {input : Input} {id : UUID} {r' : DealRecord}
    (hr' : (step db input).2.deals.lookup id = some r') :
    SolutionStep (db.deals.lookup id) (decisionOf id (turn step db input)) r' := by
  cases input with
  | referenceData nsi =>
    rw [show db.deals.lookup id = some r' from hr']
    exact .kept rfl rfl fun _ => rfl
  | request env user op =>
    have hends := execute_ends env user op db
    rw [decisionOf_request]
    simp only [step] at hr'
    generalize execute env user op db = o at hends hr' ⊢
    obtain ⟨result, after, transactions, sends⟩ := o
    cases hends with
    | stopped _ hdb htransactions _ =>
      dsimp only at hdb htransactions hr'
      rw [if_pos htransactions, ← hdb, hr']
      exact .kept rfl rfl fun _ => rfl
    | @exited j log _ hexit htransactions hreplay =>
      dsimp only at hexit htransactions hreplay hr' ⊢
      rw [htransactions, if_neg (List.cons_ne_nil _ _)]
      by_cases hj : id = j
      · subst hj
        exact hexit.solutionStep hreplay hr'
      · rw [hexit.lookup_other hreplay hj] at hr'
        have hdeal : op.deal? ≠ some id := fun h => hj (hexit.deal_eq h)
        rw [decides_eq_none hdeal, hr']
        exact .kept rfl rfl fun _ => rfl

/-- A deal that does not exist after an input was not decided about. -/
theorem decisionOf_of_missing {db : Database} {input : Input} {id : UUID}
    (h : (step db input).2.deals.lookup id = none) :
    decisionOf id (turn step db input) = none ∧ db.deals.lookup id = none := by
  have hbefore : db.deals.lookup id = none := by
    cases hr : db.deals.lookup id with
    | none => rfl
    | some r =>
      have hsome : ((step db input).2.deals.lookup id).isSome :=
        step_lookup_isSome (Option.isSome_of_eq_some hr)
      rw [h] at hsome
      cases hsome
  refine ⟨?_, hbefore⟩
  cases input with
  | referenceData nsi => rfl
  | request env user op =>
    have hends := execute_ends env user op db
    rw [decisionOf_request]
    simp only [step] at h
    generalize execute env user op db = o at hends h ⊢
    cases hends with
    | stopped _ _ htransactions _ => exact if_pos htransactions
    | @exited j log _ hexit htransactions hreplay =>
      have hj : id ≠ j := by
        rintro rfl
        have hsome := hexit.lookup_isSome hreplay
        rw [h] at hsome
        cases hsome
      rw [htransactions, if_neg (List.cons_ne_nil _ _),
        decides_eq_none fun hdeal => hj (hexit.deal_eq hdeal)]
      rfl

/-! ## The last decision -/

/-- **The invariant of a solution**: without a decision there is none; otherwise it holds the last
decision and the time of the first one. -/
structure SolutionInv (taken : List TakenDecision) (r : DealRecord) : Prop where
  undecided : taken = [] → r.solution = none ∧ r.row.dealState.decided = false
  decided : ∀ first ∈ taken.head?, ∀ last ∈ taken.getLast?, ∃ s, r.solution = some s ∧
    s.Holds last ∧ s.decidedAt = first.time ∧
      r.row.positionerId.map Varchar.val = some last.positionerId ∧
        (r.row.dealState.decided = true → last.decision.LeadsTo r.row.dealState)

theorem SolutionInv.next {taken : List TakenDecision} {r r' : DealRecord}
    {decision : Option TakenDecision} (h : SolutionInv taken r)
    (hstep : SolutionStep (some r) decision r') : SolutionInv (taken ++ decision.toList) r' := by
  cases hstep with
  | kept hsolution hpositioner hstate =>
    rw [Option.toList_none, List.append_nil]
    constructor
    · intro hnil
      obtain ⟨hnone, hundecided⟩ := h.undecided hnil
      refine ⟨hsolution.trans hnone, Bool.eq_false_iff.mpr fun hdecided => ?_⟩
      rw [hstate hdecided, hundecided] at hdecided
      cases hdecided
    · intro first hfirst last hlast
      obtain ⟨s, hs, hholds, htime, hp, hleads⟩ := h.decided first hfirst last hlast
      refine ⟨s, hsolution.trans hs, hholds, htime, hpositioner ▸ hp, fun hdecided => ?_⟩
      have hsame := hstate hdecided
      rw [hsame] at hdecided ⊢
      exact hleads hdecided
  | @decided _ _ d s hsolution hholds hdecided hpositioner hstate =>
    refine ⟨fun hnil => by simp at hnil, fun first hfirst last hlast => ?_⟩
    obtain rfl : d = last := by simpa using hlast
    refine ⟨s, hsolution, hholds, ?_, hpositioner, fun _ => hstate⟩
    rw [hdecided]
    cases taken with
    | nil =>
      obtain rfl : d = first := by simpa using hfirst
      rw [(h.undecided rfl).1]
      rfl
    | cons d₀ taken =>
      obtain rfl : d₀ = first := by simpa using hfirst
      obtain ⟨s₀, hs₀, -, htime, -⟩ :=
        h.decided d₀ rfl _ (List.getLast?_eq_getLast_of_ne_nil (List.cons_ne_nil _ _))
      rw [hs₀]
      exact htime

/-- The invariant of every deal, in every run. -/
theorem solutionInv_run {nsi : ReferenceData} {history : List ServiceTurn} {db : Database}
    (h : Run step (Database.initial nsi) history db) :
    ∀ id, (db.deals.lookup id = none → decisions id history = []) ∧
      ∀ r, db.deals.lookup id = some r → SolutionInv (decisions id history) r := by
  refine Run.invariant (P := fun history db => ∀ id,
    (db.deals.lookup id = none → decisions id history = []) ∧
      ∀ r, db.deals.lookup id = some r → SolutionInv (decisions id history) r) ?_ ?_ h
  · exact fun id => ⟨fun _ => rfl, fun r hr => by simp at hr⟩
  · intro history db input hP id
    rw [decisions_append]
    constructor
    · intro hnone
      obtain ⟨hundecided, hbefore⟩ := decisionOf_of_missing hnone
      rw [hundecided, (hP id).1 hbefore]
      rfl
    · intro r' hr'
      have hstep := step_solution hr'
      generalize decisionOf id (turn step db input) = decision at hstep ⊢
      cases hr : db.deals.lookup id with
      | some r =>
        rw [hr] at hstep
        exact ((hP id).2 r hr).next hstep
      | none =>
        rw [hr] at hstep
        cases hstep with
        | created hsolution hstate =>
          rw [(hP id).1 hr]
          exact ⟨fun _ => ⟨hsolution, by rw [hstate]; rfl⟩, nofun⟩

/-- The stored decision is the last one that was taken, with its time; it names the positioner of
the deal, and fits its state. -/
def LastDecision (taken : List TakenDecision) (r : DealRecord) : Prop :=
  ∃ s last, r.solution = some s ∧ taken.getLast? = some last ∧ s.Holds last ∧
    s.decidedAt = last.time ∧ r.row.positionerId = some s.positionerId ∧
      (r.row.dealState = .approved ∨ r.row.dealState = .executed → s.decision = .approve) ∧
        (r.row.dealState = .rejected → s.decision = .returnForEdit ∨ s.decision = .reject)

/-- **The stored decision is the last one** if and only if the last one was taken at the time of the
first one: of every deal that was decided about, in every run. -/
theorem solution_is_last_iff {nsi : ReferenceData} {history : List ServiceTurn} {db : Database}
    (h : Run step (Database.initial nsi) history db) :
    ∀ id r, db.deals.lookup id = some r → decisions id history ≠ [] →
      (LastDecision (decisions id history) r ↔
        ∀ first ∈ (decisions id history).head?, ∀ last ∈ (decisions id history).getLast?,
          first.time = last.time) := by
  intro id r hr hne
  have hinv := ((solutionInv_run h id).2 r hr).decided
  generalize decisions id history = taken at hinv hne ⊢
  obtain ⟨first, hfirst⟩ := Option.isSome_iff_exists.mp (List.isSome_head?.mpr hne)
  have hlast := List.getLast?_eq_getLast_of_ne_nil hne
  generalize taken.getLast hne = last at hlast
  obtain ⟨s, hs, hholds, htime, hpositioner, hleads⟩ := hinv first hfirst last hlast
  rw [hfirst, hlast]
  constructor
  · rintro ⟨s', last', hs', hlast', -, htime', -⟩ _ ⟨⟩ _ ⟨⟩
    rw [hs] at hs'
    cases hs'
    rw [hlast] at hlast'
    cases hlast'
    exact htime.symm.trans htime'
  · intro hsame
    refine ⟨s, last, hs, hlast, hholds, htime.trans (hsame first rfl last rfl), ?_, ?_, ?_⟩
    · obtain ⟨p, hp, hval⟩ := Option.map_eq_some_iff.mp hpositioner
      rw [hp, Varchar.eq_of_val (hval.trans hholds.positionerId.symm)]
    · intro hstate
      have hdecided : r.row.dealState.decided = true := by
        rcases hstate with h | h <;> rw [h] <;> rfl
      rw [hholds.decision]
      exact (hleads hdecided).approved hstate
    · intro hstate
      have hdecided : r.row.dealState.decided = true := by rw [hstate]; rfl
      rw [hholds.decision]
      exact (hleads hdecided).rejected hstate

namespace Desk

/-- The deal is returned, taken back, submitted again, and then executed. -/
def reconsideration : List Input :=
  resubmission ++ [.request (env 7) positioner (.approve dealId)]

/-- The deal after both decisions. -/
def reconsidered : DealRecord :=
  ((after reconsideration).deals.lookup dealId).get (by decide +kernel)

end Desk

/-- The decision about the executed deal of the desk is the only one, and it is stored. -/
theorem solution_is_last_desk :
    LastDecision (decisions Desk.dealId (history step (Database.initial Desk.nsi) Desk.execution))
      Desk.executed :=
  (solution_is_last_iff (run_serveAll step (Database.initial Desk.nsi) Desk.execution) Desk.dealId
    Desk.executed (Option.some_get _).symm (by decide +kernel)).mpr (by decide +kernel)

/-- The time of the decision that was taken first stands with the one that was taken last. -/
theorem decided_at_stale :
    ¬ ∀ (nsi : ReferenceData) (history : List ServiceTurn) (db : Database),
      Run step (Database.initial nsi) history db → ∀ id r, db.deals.lookup id = some r →
        decisions id history ≠ [] → LastDecision (decisions id history) r := by
  intro h
  have hne : decisions Desk.dealId
      (history step (Database.initial Desk.nsi) Desk.reconsideration) ≠ [] := by decide +kernel
  have hlast := h Desk.nsi _ _
    (run_serveAll step (Database.initial Desk.nsi) Desk.reconsideration) Desk.dealId
    Desk.reconsidered (Option.some_get _).symm hne
  obtain ⟨s, last, hs, hlast, -, htime, -⟩ := hlast
  have hstored : Desk.reconsidered.solution.map (·.decidedAt) = some 4 := by decide +kernel
  have htaken : (decisions Desk.dealId (history step (Database.initial Desk.nsi)
      Desk.reconsideration)).getLast?.map (·.time) = some 7 := by decide +kernel
  rw [hs, Option.map_some] at hstored
  rw [hlast, Option.map_some, ← htime, hstored] at htaken
  cases htaken

end FxDealManager
