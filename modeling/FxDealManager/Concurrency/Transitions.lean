import FxDealManager.Concurrency.Requests
import FxDealManager.Lifecycle.Transitions

/-!
# States of a deal under concurrency

A request checks the state that it has read and writes a successor of that state. When another
request commits in between, what it writes need not be a successor of what is stored.

## Main definitions

* `stateAsRead`: a request that writes the state commits while the stored state is the one it read

## Main results

* `interleaved_transition`: such a commit takes the deal to a successor, or leaves the state alone
* `transitions_legal`: every transition of every interleaving of such commits
* `cancelled_submitted`: an interleaving in which a cancelled deal is submitted
-/

namespace FxDealManager

open DecimalArithmetic Transactional

section Transitions

variable {ι : Type} [DecidableEq ι] {requests : ι → Request} {id : UUID}

/-- If a request that writes the state of the deal commits, the stored state is the one it read. -/
def stateAsRead (requests : ι → Request) (id : UUID) (t : RequestTurn ι) : Bool :=
  t.commits.all fun (i, snapshot) =>
    !((requests i).plan snapshot).log.any (writesState id) ||
      (snapshot.deals.lookup id).all fun r₀ =>
        (t.before.data.deals.lookup id).all fun r => r.row.dealState = r₀.row.dealState

theorem interleaved_transition {s : ServiceSystem ι} {a : Action ι}
    (hread : stateAsRead requests id (turn (serveInterleaved requests) s a) = true)
    {r r' : DealRecord} (hr : s.data.deals.lookup id = some r)
    (hr' : (serveInterleaved requests s a).2.data.deals.lookup id = some r') :
    r'.row.dealState = r.row.dealState ∨ r'.row.dealState ∈ r.row.dealState.successors := by
  have hrecords : ∀ j q, (serveInterleaved requests s a).2.data.deals.lookup j = some q →
      j = id → q.row.dealState = r.row.dealState ∨
        q.row.dealState ∈ r.row.dealState.successors := by
    refine forall_records_interleaved ?_ ?_
    · rintro i snapshot j result log sends after q rfl hphase hlog - hexit hreplay hq rfl
      refine (hexit.transition hreplay hr hq).imp_right ?_
      rintro ⟨hwrites, r₀, hr₀, hsucc⟩
      have hsame : r.row.dealState = r₀.row.dealState := by
        rw [stateAsRead, commits_turn hphase] at hread
        simpa [hlog, hwrites, hr₀, turn, hr] using hread
      rw [hsame]
      exact hsucc
    · rintro j q hq rfl
      rw [hr] at hq
      cases hq
      exact .inl rfl
  exact hrecords id r' hr' rfl

/-- A state without successors is never left. -/
theorem interleaved_final {s₀ s : ServiceSystem ι} {history : List (RequestTurn ι)}
    (h : Run (serveInterleaved requests) s₀ history s)
    (hread : ∀ t ∈ history, stateAsRead requests id t = true) {r : DealRecord}
    (hr : s₀.data.deals.lookup id = some r) (hfinal : r.row.dealState.successors = []) :
    ∃ r', s.data.deals.lookup id = some r' ∧ r'.row.dealState = r.row.dealState := by
  refine Run.invariant_of (P := fun _ s => ∃ r', s.data.deals.lookup id = some r' ∧
    r'.row.dealState = r.row.dealState) ⟨r, hr, rfl⟩ ?_ h hread
  rintro history s a hread ⟨r₁, hr₁, hstate⟩
  have hsome : ((serveInterleaved requests s a).2.data.deals.lookup id).isSome :=
    interleaved_lookup_isSome (by rw [hr₁]; rfl)
  obtain ⟨r₂, hr₂⟩ := Option.isSome_iff_exists.mp hsome
  refine ⟨r₂, hr₂, ?_⟩
  rcases interleaved_transition hread hr₁ hr₂ with hsame | hsucc
  · rw [hsame, hstate]
  · rw [hstate, hfinal] at hsucc
    cases hsucc

/-- **Only legal transitions are committed**, in every interleaving in which each request that
writes the state of the deal commits while the stored state is the one it has read: two consecutive
committed states are equal or the second is a successor of the first, and `EXECUTED` and
`CANCELLED` are never left. -/
theorem transitions_legal {s₀ s : ServiceSystem ι} {history : List (RequestTurn ι)}
    (h : Run (serveInterleaved requests) s₀ history s)
    (hread : ∀ t ∈ history, stateAsRead requests id t = true) :
    (∀ t ∈ history, ∀ r r', t.before.data.deals.lookup id = some r →
      t.after.data.deals.lookup id = some r' →
        r'.row.dealState = r.row.dealState ∨
          r'.row.dealState ∈ r.row.dealState.successors) ∧
      ∀ r, s₀.data.deals.lookup id = some r →
        (r.row.dealState = .executed ∨ r.row.dealState = .cancelled) →
          ∃ r', s.data.deals.lookup id = some r' ∧ r'.row.dealState = r.row.dealState := by
  constructor
  · refine Run.invariant_of (P := fun history _ => ∀ t ∈ history, ∀ r r',
      t.before.data.deals.lookup id = some r → t.after.data.deals.lookup id = some r' →
        r'.row.dealState = r.row.dealState ∨
          r'.row.dealState ∈ r.row.dealState.successors) nofun ?_ h hread
    intro history s a hread hpast
    refine List.forall_mem_append.mpr ⟨hpast, fun t ht r r' hr hr' => ?_⟩
    obtain rfl := List.mem_singleton.mp ht
    exact interleaved_transition hread hr hr'
  · intro r hr hstate
    refine interleaved_final h hread hr ?_
    rcases hstate with hstate | hstate <;> rw [hstate] <;> rfl

end Transitions

/-! ## A submission and a cancellation -/

namespace Desk

/-- The trader submits the validated deal and cancels it, at the same time. -/
def submitAndCancel : Bool → Request
  | true => ⟨env 3, trader, .submit dealId⟩
  | false => ⟨env 4, trader, .cancel dealId none⟩

/-- The database when the two requests begin. -/
def validatedSystem : ServiceSystem Bool := System.start (after validation)

end Desk

/-- One after the other, the submission commits a legal transition. -/
theorem transitions_legal_desk :
    ∃ t ∈ history (serveInterleaved Desk.submitAndCancel) Desk.validatedSystem Desk.oneByOne,
      ∃ r r', t.before.data.deals.lookup Desk.dealId = some r ∧
        t.after.data.deals.lookup Desk.dealId = some r' ∧
          r'.row.dealState = .waitingForPositioner ∧
            r'.row.dealState ∈ r.row.dealState.successors := by
  have hsubmitted : (history (serveInterleaved Desk.submitAndCancel) Desk.validatedSystem
      Desk.oneByOne).any (fun t =>
        (t.before.data.deals.lookup Desk.dealId).any (fun r => r.row.dealState = .draft) &&
          (t.after.data.deals.lookup Desk.dealId).any (fun r =>
            r.row.dealState = .waitingForPositioner)) = true := by
    decide +kernel
  obtain ⟨t, ht, hstates⟩ := List.any_eq_true.mp hsubmitted
  obtain ⟨hbefore, hafter⟩ := Bool.and_eq_true_iff.mp hstates
  obtain ⟨r, hr, hdraft⟩ := (Option.any_eq_true _ _).mp hbefore
  obtain ⟨r', hr', hwaiting⟩ := (Option.any_eq_true _ _).mp hafter
  have hdraft := of_decide_eq_true hdraft
  have hwaiting := of_decide_eq_true hwaiting
  have hlegal := (transitions_legal (run_serveAll (serveInterleaved Desk.submitAndCancel)
    Desk.validatedSystem Desk.oneByOne) (by decide +kernel)).1 t ht r r' hr hr'
  refine ⟨t, ht, r, r', hr, hr', hwaiting, hlegal.resolve_left ?_⟩
  rw [hwaiting, hdraft]
  nofun

/-- A deal that is cancelled while its submission is under way is submitted nevertheless. -/
theorem cancelled_submitted :
    ¬ ∀ (nsi : ReferenceData) (past : List ServiceTurn) (db : Database),
      Run step (Database.initial nsi) past db →
        ∀ (ι : Type) [DecidableEq ι] (requests : ι → Request) (history : List (RequestTurn ι))
          (s : ServiceSystem ι) (id : UUID), (∀ i, (requests i).op.deal? = some id) →
            Run (serveInterleaved requests) (System.start db) history s →
              ∀ t ∈ history, ∀ r r', t.before.data.deals.lookup id = some r →
                t.after.data.deals.lookup id = some r' →
                  r'.row.dealState = r.row.dealState ∨
                    r'.row.dealState ∈ r.row.dealState.successors := by
  intro h
  have hrun := run_serveAll (serveInterleaved Desk.submitAndCancel) Desk.validatedSystem
    Desk.overlapping
  have hlegal := h Desk.nsi _ _ (run_serveAll step (Database.initial Desk.nsi) Desk.validation) Bool
    Desk.submitAndCancel _ _ Desk.dealId (by decide) hrun
  -- the submission has read the deal before the cancellation commits
  have hillegal : (history (serveInterleaved Desk.submitAndCancel) Desk.validatedSystem
      Desk.overlapping).any (fun t =>
        (t.before.data.deals.lookup Desk.dealId).any (fun r => r.row.dealState = .cancelled) &&
          (t.after.data.deals.lookup Desk.dealId).any (fun r =>
            r.row.dealState = .waitingForPositioner)) = true := by
    decide +kernel
  obtain ⟨t, ht, hstates⟩ := List.any_eq_true.mp hillegal
  obtain ⟨hbefore, hafter⟩ := Bool.and_eq_true_iff.mp hstates
  obtain ⟨r, hr, hcancelled⟩ := (Option.any_eq_true _ _).mp hbefore
  obtain ⟨r', hr', hwaiting⟩ := (Option.any_eq_true _ _).mp hafter
  have hstep := hlegal t ht r r' hr hr'
  rw [of_decide_eq_true hcancelled, of_decide_eq_true hwaiting] at hstep
  revert hstep
  decide

end FxDealManager
