import Mathlib.Data.List.Chain
import FxDealManager.Lifecycle.Run

/-!
# The audit trail of a deal

Read in their order, the entries about a deal that name a status lead from its creation to its
present state. An approval breaks the trail when its sending fails: it commits the state `APPROVED`
with an entry for the sending, but with none for the change of the state.

## Main definitions

* `statusEntries`: the entries that record a status
* `Replays`: entries that lead from a creation to a state
* `approvalUnsent`: the input is an approval whose sending fails

## Main results

* `Replays.append`: one more change of the state
* `replays_step`: every other input keeps the trails of all deals
* `audit_trail_replays`: the trails lead to the present states in every run without such an input
* `unsent_unrecorded`: a run in which a change of the state is not recorded
-/

namespace FxDealManager

open DecimalArithmetic Transactional

/-- The entries that record a status. -/
def statusEntries (audit : List AuditLogEntry) : List AuditLogEntry :=
  audit.filter fun entry => entry.action = .create ∨ entry.action = .statusChange

/-- The status that a value of an entry names. -/
def statusOf (value : Option Json) : Option String :=
  match value.bind (·.get "status") with
  | some (.str status) => some status
  | _ => none

/-- The entries lead from a creation to a state: each change starts from the status that the entry
before it names, and the last entry names the state. -/
structure Replays (entries : List AuditLogEntry) (state : DealState) : Prop where
  created : entries.head?.map (·.action) = some .create
  linked : entries.IsChain fun entry next =>
    next.action = .statusChange ∧ statusOf next.oldValue = statusOf entry.newValue
  current : entries.getLast?.bind (fun entry => statusOf entry.newValue) = some state.value

@[simp] theorem statusEntries_nil : statusEntries [] = [] := rfl

@[simp] theorem statusEntries_append (audit audit' : List AuditLogEntry) :
    statusEntries (audit ++ audit') = statusEntries audit ++ statusEntries audit' :=
  List.filter_append ..

theorem statusEntries_cons_of_status {entry : AuditLogEntry} {audit : List AuditLogEntry}
    (h : entry.action = .create ∨ entry.action = .statusChange) :
    statusEntries (entry :: audit) = entry :: statusEntries audit := by
  simp [statusEntries, h]

theorem statusEntries_cons_of_other {entry : AuditLogEntry} {audit : List AuditLogEntry}
    (h₁ : entry.action ≠ .create) (h₂ : entry.action ≠ .statusChange) :
    statusEntries (entry :: audit) = statusEntries audit := by
  simp [statusEntries, h₁, h₂]

@[simp] theorem statusOf_statusJson (state : DealState) :
    statusOf (some (statusJson state)) = some state.value := rfl

/-- The entry of a creation is a trail. -/
theorem Replays.single {id : UUID} {email : String} {state : DealState} {entry : AuditLogEntry}
    (h : Entry id .create email none (some (statusJson state)) entry) :
    Replays [entry] state where
  created := by simp [h.action]
  linked := .singleton _
  current := by simp [h.newValue]

/-- An entry of a change lengthens the trail. -/
theorem Replays.append {id : UUID} {email : String} {entries : List AuditLogEntry}
    {old new : DealState} {newValue : Json} {entry : AuditLogEntry} (h : Replays entries old)
    (he : Entry id .statusChange email (some (statusJson old)) (some newValue) entry)
    (hnew : statusOf (some newValue) = some new.value) : Replays (entries ++ [entry]) new where
  created := by
    have hc := h.created
    cases entries with
    | nil => cases hc
    | cons first rest => exact hc
  linked := by
    refine List.isChain_append.mpr ⟨h.linked, .singleton _, fun last hlast next hnext => ?_⟩
    obtain rfl : entry = next := by simpa using hnext
    have hc := h.current
    rw [hlast, Option.bind_some] at hc
    exact ⟨he.action, by rw [he.oldValue, hc, statusOf_statusJson]⟩
  current := by simp [he.newValue, hnew]

/-! ## The invariant -/

/-- The input is an approval of a deal that passes its checks, and whose sending fails. -/
def approvalUnsent (db : Database) : Input → Bool
  | .request env user (.approve id) =>
    (db.deals.lookup id).any fun r =>
      Approvable user r.row && !(sendDeal env "" (handedOver db.nsi id r user)).result.success
  | _ => false

/-- The new status that an operation records is the state it moves the deal to. -/
theorem Moves.status {id : UUID} {row : FXDealRow} {op : Operation} {state : DealState}
    {newValue : Json} (h : Moves id row op state newValue) :
    statusOf (some newValue) = some state.value := by
  cases h <;> rfl

theorem replays_step {db : Database} {input : Input} (hinput : approvalUnsent db input = false)
    (hentries : EntriesHaveDeals db)
    (hP : ∀ id r, db.deals.lookup id = some r →
      Replays (statusEntries (about id db.audit)) r.row.dealState) :
    ∀ id r, (step db input).2.deals.lookup id = some r →
      Replays (statusEntries (about id (step db input).2.audit)) r.row.dealState := by
  refine forall_deals_step
    (P := fun _ r audit => Replays (statusEntries audit) r.row.dealState) ?_ ?_ hP
  · intro env user payload id row entry hnew hrow hentry
    have hnone : about id db.audit = [] := by
      refine List.filter_eq_nil_iff.mpr fun old hold hid => ?_
      have hdeal := hentries old hold
      rw [of_decide_eq_true hid, hnew] at hdeal
      cases hdeal
    have hstored := (ofDeal_eq_ok hrow).dealState
    rw [hnone, List.nil_append, statusEntries_cons_of_status (.inl hentry.action), hstored]
    exact .single hentry
  · intro env user op id result r r' added hop hrole hr hchange
    have htrail := hP id r hr
    rw [statusEntries_append]
    cases hchange with
    | edited _ _ hch hentry => simpa [statusEntries, hentry.action, hch.dealState] using htrail
    | invalidated _ _ _ hentry => simpa [statusEntries, hentry.action] using htrail
    | validated _ _ _ _ hentry => simpa [statusEntries, hentry.action] using htrail
    | moved hmoves _ hentry =>
      rw [statusEntries_cons_of_status (.inr hentry.action)]
      exact htrail.append hentry hmoves.status
    | decided hdecision _ =>
      cases hdecision with
      | declined _ _ _ hentry =>
        rw [statusEntries_cons_of_status (.inr hentry.action)]
        exact htrail.append hentry rfl
      | unsent happrovable hcall hfailed _ =>
        rw [hcall, sendDeal_success_congr env _ ""] at hfailed
        simp [hop, approvalUnsent, hr, happrovable, hfailed] at hinput
      | sent _ _ _ hentry hentry' =>
        rw [statusEntries_cons_of_other (by simp [hentry.action]) (by simp [hentry.action]),
          statusEntries_cons_of_status (.inr hentry'.action)]
        exact htrail.append hentry' rfl

/-- **The audit trail replays to the present state**, in every run in which the sending of no
approval fails. -/
theorem audit_trail_replays {nsi : ReferenceData} {history : List ServiceTurn} {db : Database}
    (h : Run step (Database.initial nsi) history db)
    (hinputs : ∀ t ∈ history, approvalUnsent t.before t.input = false) :
    ∀ id r, db.deals.lookup id = some r →
      Replays (statusEntries (about id db.audit)) r.row.dealState := by
  have hinv : EntriesHaveDeals db ∧ ∀ id r, db.deals.lookup id = some r →
      Replays (statusEntries (about id db.audit)) r.row.dealState := by
    refine Run.invariant_of (P := fun _ db => EntriesHaveDeals db ∧
      ∀ id r, db.deals.lookup id = some r →
        Replays (statusEntries (about id db.audit)) r.row.dealState) ?_ ?_ h hinputs
    · exact ⟨nofun, fun id r hr => by simp at hr⟩
    · rintro history db input hinput ⟨hentries, hP⟩
      exact ⟨entriesHaveDeals_step hentries, replays_step hinput hentries hP⟩
  exact hinv.2

/-- The trail of the submitted deal of the desk. -/
theorem audit_trail_replays_desk :
    Replays (statusEntries (about Desk.dealId (Desk.after Desk.submission).audit))
      .waitingForPositioner := by
  have hstate : Desk.submitted.row.dealState = .waitingForPositioner := by decide +kernel
  rw [← hstate]
  exact audit_trail_replays (run_serveAll step (Database.initial Desk.nsi) Desk.submission)
    (by decide +kernel) Desk.dealId Desk.submitted (Option.some_get _).symm

namespace Desk

/-- The circumstances of the `k`-th request, without a position system. -/
def unconfigured (k : ℕ) : Env :=
  { env k with settings := { (env k).settings with positionSystemUrl := none } }

/-- An approval of the submitted deal whose sending fails. -/
def unsentApproval : List Input :=
  submission ++ [.request (unconfigured 4) positioner (.approve dealId)]

end Desk

/-- An approval whose sending fails leaves the deal approved, by a change of its state that no entry
records. -/
theorem unsent_unrecorded :
    ¬ ∀ (nsi : ReferenceData) (history : List ServiceTurn) (db : Database),
      Run step (Database.initial nsi) history db → ∀ id r, db.deals.lookup id = some r →
        Replays (statusEntries (about id db.audit)) r.row.dealState := by
  intro h
  have hstate : ((Desk.after Desk.unsentApproval).deals.lookup Desk.dealId).any
      (fun r => r.row.dealState = .approved) = true := by
    decide +kernel
  obtain ⟨r, hr, happroved⟩ := (Option.any_eq_true _ _).mp hstate
  have hlast : (statusEntries (about Desk.dealId
      (Desk.after Desk.unsentApproval).audit)).getLast?.bind
        (fun entry => statusOf entry.newValue) = some DealState.waitingForPositioner.value := by
    decide +kernel
  have hreplays := h Desk.nsi _ _
    (run_serveAll step (Database.initial Desk.nsi) Desk.unsentApproval) Desk.dealId r hr
  rw [of_decide_eq_true happroved] at hreplays
  have hcurrent := hreplays.current.symm.trans hlast
  revert hcurrent
  decide

end FxDealManager
