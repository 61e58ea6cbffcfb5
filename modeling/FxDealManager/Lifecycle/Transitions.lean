import FxDealManager.Lifecycle.Run

/-!
# The states of a deal

Which states a deal may go to from a state, and that the exits keep to them: an exit leaves the
state alone, or it writes a successor of the state that the request *read*. In a sequential run
that is the state it finds.

## Main definitions

* `DealState.successors`: the states that a deal may go to
* `DealState.released`: the deal was approved
* `writesState`: the log writes the state of a deal

## Main results

* `replay_dealState`: a log that does not write the state of a deal leaves it alone
* `Change.transition`: a change leads to a successor of the state that was read
* `Exit.transition`: what an exit does to the state, on any data that it is replayed on
* `step_transition`: no input takes a deal to a state that is no successor
-/

namespace FxDealManager

open DecimalArithmetic Transactional

/-- The states that a deal may go to. -/
def DealState.successors : DealState → List DealState
  | .draft => [.waitingForPositioner, .cancelled]
  | .waitingForPositioner => [.approved, .executed, .rejected]
  | .rejected => [.draft]
  | .approved | .executed | .cancelled => []

/-- The deal was approved. No operation leads away from these states. -/
def DealState.released : DealState → Bool
  | .approved | .executed => true
  | .draft | .waitingForPositioner | .rejected | .cancelled => false

/-- A released deal stays released. -/
theorem released_of_transition {state state' : DealState} (h : state.released = true)
    (hstate : state' = state ∨ state' ∈ state.successors) : state'.released = true := by
  rcases hstate with rfl | hsucc
  · exact h
  · cases state <;> simp [DealState.released, DealState.successors] at h hsucc

/-- The log writes the state of the deal. -/
def writesState (id : UUID) (log : List Statement) : Bool :=
  log.any fun
    | .updateDeal j ch _ => j = id && ch.dealState.isSome
    | _ => false

/-- A statement that does not write the state of a deal leaves it alone. -/
theorem exec_dealState {id : UUID} {state : DealState} {st : Statement} {db db' : Database}
    (hst : writesState id [st] = false) (h : st.exec db = .ok db')
    (hdb : ∃ r, db.deals.lookup id = some r ∧ r.row.dealState = state) :
    ∃ r, db'.deals.lookup id = some r ∧ r.row.dealState = state := by
  obtain ⟨r, hr, hstate⟩ := hdb
  have hlookup := (Statement.exec_frame h).1 id
  rw [hr] at hlookup
  by_cases hid : st.deal? = some id
  · rw [if_pos hid] at hlookup
    cases st with
    | insertDeal j row =>
      cases hid
      simp [Statement.exec, hr] at h
    | updateDeal j ch now =>
      cases hid
      have hch : ch.dealState = none := by simpa [writesState] using hst
      exact ⟨_, hlookup, by simp [DealChanges.apply, hch, hstate]⟩
    | insertAudit entry => cases hid
    | _ => exact ⟨_, hlookup, hstate⟩
  · rw [if_neg hid] at hlookup
    exact ⟨r, hlookup, hstate⟩

/-- So does a log of such statements. -/
theorem replay_dealState {id : UUID} {log : List Statement} {db db' : Database}
    (hlog : writesState id log = false) (hreplay : replay log db = .ok db') {r r' : DealRecord}
    (hr : db.deals.lookup id = some r) (hr' : db'.deals.lookup id = some r') :
    r'.row.dealState = r.row.dealState := by
  have hstep : ∀ st ∈ log, ∀ a b, Store.exec st a = .ok b →
      (∃ r₁, a.deals.lookup id = some r₁ ∧ r₁.row.dealState = r.row.dealState) →
        ∃ r₁, b.deals.lookup id = some r₁ ∧ r₁.row.dealState = r.row.dealState := by
    intro st hst a b hexec
    have hnone := List.any_eq_false.mp hlog st hst
    exact exec_dealState (by simpa [writesState] using hnone) (exec_eq_ok.mp hexec)
  obtain ⟨r₁, hr₁, hstate⟩ := replay_preserves (p := fun db => ∃ r₁, db.deals.lookup id = some r₁ ∧
    r₁.row.dealState = r.row.dealState) hstep hreplay ⟨r, hr, rfl⟩
  rw [hr'] at hr₁
  cases hr₁
  exact hstate

/-- A change leaves the state alone, or it leads to a successor of the state that was read. -/
theorem Change.transition {env : Env} {user : UserClaims} {nsi : ReferenceData} {id : UUID}
    {r₀ r r' : DealRecord} {op : Operation} {result : Except ServiceError DealResponse}
    {added : List AuditLogEntry} (h : Change env user nsi id r₀ r op result r' added) :
    r'.row.dealState = r.row.dealState ∨ r'.row.dealState ∈ r₀.row.dealState.successors := by
  cases h with
  | edited _ _ hch _ => exact .inl (by simp [hch.dealState])
  | invalidated _ _ _ _ => exact .inl (by simp)
  | validated _ _ _ _ _ => exact .inl (by simp)
  | moved hmoves _ _ =>
    right
    cases hmoves with
    | submit hstate _ => simp [hstate, DealState.successors, DealChanges.apply]
    | takeForEdit hstate => simp [hstate, DealState.successors, DealChanges.apply]
    | cancel hstate => simp [hstate, DealState.successors, DealChanges.apply]
  | decided hdecision _ =>
    right
    rw [hdecision.waiting]
    cases hdecision <;> simp [DealState.successors, DealChanges.apply]

/-- **What an exit does to the state** of its deal: nothing, or it writes a successor of the state
that the request read, whatever the data says now. -/
theorem Exit.transition {env : Env} {user : UserClaims} {db cur after : Database} {op : Operation}
    {id : UUID} {result : Except ServiceError DealResponse} {log : List Statement}
    {sends : List SendCall} (h : Exit env user db op id result log sends)
    (hreplay : replay log cur = .ok after) {r r' : DealRecord}
    (hr : cur.deals.lookup id = some r) (hr' : after.deals.lookup id = some r') :
    r'.row.dealState = r.row.dealState ∨ (writesState id log = true ∧
      ∃ r₀, db.deals.lookup id = some r₀ ∧ r'.row.dealState ∈ r₀.row.dealState.successors) := by
  by_cases hwrites : writesState id log = true
  · obtain ⟨r₀, r₁, hr₀, hr₁, hchange⟩ := h.change hreplay hr
    rw [hr'] at hr₁
    cases hr₁
    exact hchange.transition.imp_right fun hsucc => ⟨hwrites, r₀, hr₀, hsucc⟩
  · exact .inl (replay_dealState (Bool.eq_false_iff.mpr hwrites) hreplay hr hr')

/-- No input takes a deal to a state that is no successor of its state. -/
theorem step_transition {db : Database} {input : Input} {id : UUID} {r r' : DealRecord}
    (hr : db.deals.lookup id = some r) (hr' : (step db input).2.deals.lookup id = some r') :
    r'.row.dealState = r.row.dealState ∨ r'.row.dealState ∈ r.row.dealState.successors := by
  rcases step_change hr hr' with rfl | ⟨env, user, op, result, added, -, hchange⟩
  · exact .inl rfl
  · exact hchange.transition

end FxDealManager
