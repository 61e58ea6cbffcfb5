import FxDealManager.Lifecycle.Run
import FxDealManager.Transactional.Interleaving

/-!
# Requests at the same time

The deal operations, each served in a session of its own under READ COMMITTED: a request reads its
deal once, checks what it has read, posts to the position system if it is an approval, and commits
the columns it has changed. What it writes is computed from what it has read.

## Main definitions

* `Request`, `Request.plan`: a request, and what it does with the data it has read
* `serveInterleaved`: the steps of all requests

## Main results

* `plan_cases`: a request that commits takes an exit from the data it has read
* `forall_records_interleaved`: a property of records that every commit keeps for its own deal
* `forall_changes_interleaved`: a property of records that creations establish and changes keep
* `interleaved_alone`: a request that nobody interrupts is served as in a sequential run
-/

namespace FxDealManager

open DecimalArithmetic Transactional

/-- A request, with its circumstances. -/
structure Request where
  env : Env
  user : UserClaims
  op : Operation

/-- What the request comes to on the data it has read. -/
def Request.outcome (req : Request) (db : Database) : Outcome := execute req.env req.user req.op db

/-- What the request does with the data it has read. -/
def Request.plan (req : Request) (db : Database) : Plan Statement SendCall where
  effects := (req.outcome db).sends
  log := (req.outcome db).transactions.head?

/-- The database, with the phases of all requests. -/
abbrev ServiceSystem (ι : Type) := System ι Database

/-- One step of a request. -/
abbrev RequestTurn (ι : Type) := Turn (Action ι) (Event Statement SendCall) (ServiceSystem ι)

section Interleaving

variable {ι : Type} [DecidableEq ι] {requests : ι → Request}

/-- The steps of all requests. -/
def serveInterleaved (requests : ι → Request) :
    ServiceSystem ι → Action ι → Event Statement SendCall × ServiceSystem ι :=
  interleave fun i => (requests i).plan

/-- A request that commits takes an exit from the data it has read. -/
theorem plan_cases (req : Request) (db : Database) :
    (req.plan db).log = none ∨ ∃ id log, (req.plan db).log = some log ∧
      Exit req.env req.user db req.op id (req.outcome db).result log (req.plan db).effects := by
  simp only [Request.plan, Request.outcome]
  cases execute_ends req.env req.user req.op db with
  | stopped _ _ htransactions _ => exact .inl (by rw [htransactions]; rfl)
  | exited _ hexit htransactions _ =>
    exact .inr ⟨_, _, by rw [htransactions]; rfl, hexit⟩

theorem exit_of_plan {req : Request} {db : Database} {log : List Statement}
    (h : (req.plan db).log = some log) :
    ∃ id, Exit req.env req.user db req.op id (req.outcome db).result log (req.plan db).effects := by
  rcases plan_cases req db with hnone | ⟨id, log', hsome, hexit⟩
  · rw [hnone] at h
    cases h
  · rw [hsome] at h
    cases h
    exact ⟨id, hexit⟩

/-- **Record by record**: a property of all records is kept by a step if every commit keeps it for
its own deal. The exit is one from the data `snapshot` that the request has read. -/
theorem forall_records_interleaved {P : UUID → DealRecord → Prop} {s : ServiceSystem ι}
    {a : Action ι}
    (hexit : ∀ i snapshot id result log sends after r, a = .commit i →
      s.phase i = .sent snapshot → ((requests i).plan snapshot).log = some log →
      ((requests i).outcome snapshot).result = result →
      Exit (requests i).env (requests i).user snapshot (requests i).op id result log sends →
      replay log s.data = .ok after → after.deals.lookup id = some r → P id r)
    (hP : ∀ id r, s.data.deals.lookup id = some r → P id r) :
    ∀ id r, (serveInterleaved requests s a).2.data.deals.lookup id = some r → P id r := by
  have hstep := interleave_happens (fun i => (requests i).plan) s a
  show ∀ id r, (interleave (fun i => (requests i).plan) s a).2.data.deals.lookup id = some r →
    P id r
  generalize interleave (fun i => (requests i).plan) s a = next at hstep ⊢
  obtain ⟨event, s'⟩ := next
  cases hstep with
  | skipped => exact hP
  | read _ => exact hP
  | sent _ => exact hP
  | failed _ => exact hP
  | @committed i snapshot after log hphase hlog hreplay =>
    obtain ⟨id, hex⟩ := exit_of_plan hlog
    exact hex.forall_records hreplay
      (fun r hr => hexit i snapshot id _ log _ after r rfl hphase hlog rfl hex hreplay
        ((replay_lookup hreplay id).trans hr)) hP

/-- **Change by change**: a property of all records is kept by a step if creations establish it and
if it survives every change, computed from the record `r₀` that the request has read. -/
theorem forall_changes_interleaved {P : UUID → DealRecord → Prop} {s : ServiceSystem ι}
    {a : Action ι}
    (hcreated : ∀ (env : Env) user payload id row, s.data.deals.lookup id = none →
      FXDealRow.ofDeal env.now (newDeal id payload user) = .ok row → P id ⟨row, [], none⟩)
    (hchange : ∀ i snapshot id op result r₀ r r' added, a = .commit i →
      s.phase i = .sent snapshot → (requests i).op = op →
      ((requests i).outcome snapshot).result = result → snapshot.deals.lookup id = some r₀ →
      s.data.deals.lookup id = some r →
      Change (requests i).env (requests i).user snapshot.nsi id r₀ r op result r' added → P id r')
    (hP : ∀ id r, s.data.deals.lookup id = some r → P id r) :
    ∀ id r, (serveInterleaved requests s a).2.data.deals.lookup id = some r → P id r := by
  refine forall_records_interleaved ?_ hP
  intro i snapshot id result log sends after r' ha hphase _ hresult hexit hreplay hr'
  rcases hexit.created_or_changed hreplay hr' with
    ⟨payload, row, entry, -, hnew, hrow, -, rfl, -⟩ | ⟨r₀, r, hr₀, hr, hch⟩
  · exact hcreated (requests i).env (requests i).user payload id row hnew hrow
  · exact hchange i snapshot id _ result r₀ r r' (entries log) ha hphase rfl hresult hr₀ hr hch

/-- No step removes a deal. -/
theorem interleaved_lookup_isSome {s : ServiceSystem ι} {a : Action ι} {id : UUID}
    (h : (s.data.deals.lookup id).isSome) :
    ((serveInterleaved requests s a).2.data.deals.lookup id).isSome := by
  have hstep := interleave_happens (fun i => (requests i).plan) s a
  show ((interleave (fun i => (requests i).plan) s a).2.data.deals.lookup id).isSome
  generalize interleave (fun i => (requests i).plan) s a = next at hstep ⊢
  obtain ⟨event, s'⟩ := next
  cases hstep with
  | committed _ _ hreplay =>
    show (_ : Option DealRecord).isSome
    rw [replay_lookup hreplay]
    exact rewrite_isSome h
  | _ => exact h

/-- A request that nobody interrupts is served as in a sequential run. -/
theorem interleaved_alone (requests : ι → Request) (s : ServiceSystem ι) {i : ι}
    (h : s.phase i = .idle) :
    (serveAll (serveInterleaved requests) s [.read i, .send i, .commit i]).data =
      (step s.data (.request (requests i).env (requests i).user (requests i).op)).2 := by
  have halone := interleave_alone (fun i => (requests i).plan) s h
  refine halone.trans ?_
  simp only [Request.plan, Request.outcome, step]
  cases execute_ends (requests i).env (requests i).user (requests i).op s.data with
  | stopped _ hdb htransactions _ => rw [htransactions, hdb]; rfl
  | exited _ _ htransactions hreplay =>
    simp only [htransactions, List.head?_cons, hreplay]

end Interleaving

/-! ## Two requests at the desk -/

namespace Desk

/-- Two requests one after the other. -/
def oneByOne : List (Action Bool) :=
  [.read true, .send true, .commit true, .read false, .send false, .commit false]

/-- Both requests read before either of them commits. -/
def overlapping : List (Action Bool) :=
  [.read true, .read false, .send true, .send false, .commit false, .commit true]

end Desk

end FxDealManager
