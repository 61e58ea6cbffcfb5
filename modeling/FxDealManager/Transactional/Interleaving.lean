import Mathlib.Logic.Function.Basic
import FxDealManager.Transactional.History
import FxDealManager.Transactional.Program

/-!
# Interleaved requests

Requests that are served at the same time, each in a session of its own. A request reads the
committed data once, lets its external effects happen, and commits at its end the statements that it
computed from what it had read. Nothing is locked in between: what a commit finds may be other data
than what the request has read. The rows that a transaction writes are locked until it ends, so that
its statements take effect as if they were all executed at its commit.

## Main definitions

* `Plan`: what a request does with the data it has read
* `Phase`, `System`: how far each request has got, and the committed data
* `Action`, `interleave`: the steps of the requests, in any order
* `Happens`: the steps, one by one

## Main results

* `interleave_happens`: every step is one of them
* `interleave_alone`: a request that nobody interrupts commits what it read and computed
-/

namespace Transactional

variable {ι S D ε P : Type}

/-- What a request does with the data it has read: the external effects that it lets happen, and
the log that it commits, if it gets there. -/
structure Plan (S P : Type) where
  effects : List P
  log : Option (List S)

/-- How far a request has got, with the data it has read. -/
inductive Phase (D : Type)
  | idle
  | started (snapshot : D)
  | sent (snapshot : D)
  | finished

/-- The request is about to begin. -/
def Phase.isIdle {D : Type} : Phase D → Bool
  | .idle => true
  | _ => false

/-- The committed data, and the phases of all requests. -/
structure System (ι D : Type) where
  data : D
  phase : ι → Phase D

/-- The next step of a request. -/
inductive Action (ι : Type)
  | read (i : ι)
  | send (i : ι)
  | commit (i : ι)
deriving DecidableEq

/-- What is seen of a step: nothing, the effects that happened, the log that was committed, or a
request that failed after it had let effects happen. -/
inductive Event (S P : Type)
  | quiet
  | emitted (effects : List P)
  | committed (log : List S)
  | failed (effects : List P)

/-- The effects that happened in the step. -/
def Event.effects : Event S P → List P
  | .emitted effects => effects
  | _ => []

/-- The effects of a request that failed in the step. -/
def Event.lost : Event S P → List P
  | .failed effects => effects
  | _ => []

/-- All requests are about to begin. -/
def System.start (d : D) : System ι D := ⟨d, fun _ => .idle⟩

/-- The commit that a turn is about, with the data that its request has read. -/
def Turn.commits (t : Turn (Action ι) (Event S P) (System ι D)) : Option (ι × D) :=
  match t.input with
  | .commit i =>
    match t.before.phase i with
    | .sent d => some (i, d)
    | _ => none
  | _ => none

theorem commits_turn {step : System ι D → Action ι → Event S P × System ι D} {s : System ι D}
    {i : ι} {d : D} (h : s.phase i = .sent d) :
    (turn step s (.commit i)).commits = some (i, d) := by
  simp [Turn.commits, turn, h]

section Step

variable [DecidableEq ι] [Store S D ε]

/-- A request gets to another phase. -/
def System.enter (s : System ι D) (i : ι) (phase : Phase D) : System ι D :=
  { s with phase := Function.update s.phase i phase }

@[simp] theorem System.enter_data (s : System ι D) (i : ι) (phase : Phase D) :
    (s.enter i phase).data = s.data := rfl

@[simp] theorem System.enter_self (s : System ι D) (i : ι) (phase : Phase D) :
    (s.enter i phase).phase i = phase :=
  Function.update_self ..

theorem System.enter_ne (s : System ι D) {i j : ι} (phase : Phase D) (h : j ≠ i) :
    (s.enter i phase).phase j = s.phase j :=
  Function.update_of_ne h ..

/-- One step of a request; a request that is not at this step does nothing. -/
def interleave (plan : ι → D → Plan S P) (s : System ι D) : Action ι → Event S P × System ι D
  | .read i =>
    -- READ COMMITTED: the request sees what is committed by now
    match s.phase i with
    | .idle => (.quiet, s.enter i (.started s.data))
    | _ => (.quiet, s)
  | .send i =>
    match s.phase i with
    | .started d => (.emitted (plan i d).effects, s.enter i (.sent d))
    | _ => (.quiet, s)
  | .commit i =>
    match s.phase i with
    | .sent d =>
      match (plan i d).log with
      | none => (.failed (plan i d).effects, s.enter i .finished)
      | some log =>
        -- the log is replayed on the data of now, not on what the request has read
        match replay log s.data with
        | .ok d' => (.committed log, { s.enter i .finished with data := d' })
        | .error _ => (.failed (plan i d).effects, s.enter i .finished)
    | _ => (.quiet, s)

/-- **The steps of a request**, one by one. -/
inductive Happens (plan : ι → D → Plan S P) (s : System ι D) :
    Action ι → Event S P → System ι D → Prop
  | skipped {a : Action ι} : Happens plan s a .quiet s
  | read {i : ι} (h : s.phase i = .idle) :
      Happens plan s (.read i) .quiet (s.enter i (.started s.data))
  | sent {i : ι} {d : D} (h : s.phase i = .started d) :
      Happens plan s (.send i) (.emitted (plan i d).effects) (s.enter i (.sent d))
  | failed {i : ι} {d : D} (h : s.phase i = .sent d) :
      Happens plan s (.commit i) (.failed (plan i d).effects) (s.enter i .finished)
  | committed {i : ι} {d d' : D} {log : List S} (h : s.phase i = .sent d)
      (hlog : (plan i d).log = some log) (hreplay : replay log s.data = .ok d') :
      Happens plan s (.commit i) (.committed log) { s.enter i .finished with data := d' }

theorem interleave_happens (plan : ι → D → Plan S P) (s : System ι D) (a : Action ι) :
    Happens plan s a (interleave plan s a).1 (interleave plan s a).2 := by
  cases a with
  | read i =>
    cases h : s.phase i <;> simp only [interleave, h]
    case idle => exact .read h
    all_goals exact .skipped
  | send i =>
    cases h : s.phase i <;> simp only [interleave, h]
    case started d => exact .sent h
    all_goals exact .skipped
  | commit i =>
    cases h : s.phase i <;> simp only [interleave, h]
    case sent d =>
      cases hlog : (plan i d).log with
      | none => exact .failed h
      | some log =>
        cases hreplay : replay log s.data with
        | ok d' => simp only [hreplay]; exact .committed h hlog hreplay
        | error err => simp only [hreplay]; exact .failed h
    all_goals exact .skipped

/-- A request that nobody interrupts: it finds the data it has read. -/
theorem interleave_alone (plan : ι → D → Plan S P) (s : System ι D) {i : ι}
    (h : s.phase i = .idle) :
    (serveAll (interleave plan) s [.read i, .send i, .commit i]).data =
      match (plan i s.data).log with
      | none => s.data
      | some log =>
        match replay log s.data with
        | .ok d => d
        | .error _ => s.data := by
  simp only [serveAll, List.foldl_cons, List.foldl_nil]
  simp only [interleave, h, System.enter_self]
  cases hlog : (plan i s.data).log with
  | none => simp
  | some log => cases hreplay : replay log s.data <;> simp [hreplay]

end Step

end Transactional
