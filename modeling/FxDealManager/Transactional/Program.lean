import Mathlib.Data.List.Basic

/-!
# Transactional programs

A program serves one request against a store of data. It reads the data, executes
statements inside an open transaction, commits, and lets external effects happen that no
rollback takes back. Every call to the store may be rejected by the circumstances; a
rejected call aborts the open transaction. The programs form a monad, and a calculus of
postconditions describes every way a program may end.

## Main definitions

* `Store`: what a statement does to the data
* `Session`: the committed data, the data of the open transaction, and its log
* `Program`: a program over a store, with its operations `query`, `execute`, `commit`, ...
* `Program.Ensures`: every ending of a program meets a postcondition

## Main results

* `replay_append`: a log replays piecewise
* `Ensures.query_bind`, `Ensures.execute_bind`, `Ensures.commit_bind`, ...: the rules of the
  calculus, one for each operation
* `Ensures.run`: the calculus speaks about runs
-/

namespace Transactional

/-- A store: what a statement does to the data, or why the data rejects it. `rejected` is the
error of a call that the store rejects for reasons of its own. -/
class Store (S : Type) (D ε : outParam Type) where
  exec : S → D → Except ε D
  rejected : ε

/-- Circumstances in which the `n`-th call to the store may be rejected. -/
class Faults (ρ : Type) where
  rejects : ρ → ℕ → Bool

export Faults (rejects)

section Replay

variable {S D ε : Type} [Store S D ε]

/-- Execute a log of statements in order, up to the first rejected one. -/
def replay : List S → D → Except ε D
  | [], d => .ok d
  | st :: log, d =>
    match Store.exec st d with
    | .ok d' => replay log d'
    | .error err => .error err

@[simp] theorem replay_nil (d : D) : replay ([] : List S) d = .ok d := rfl

theorem replay_append (log log' : List S) (d : D) :
    replay (log ++ log') d = (replay log d).bind (replay log') := by
  induction log generalizing d with
  | nil => rfl
  | cons st log ih =>
    simp only [List.cons_append, replay]
    cases Store.exec st d with
    | ok d' => exact ih d'
    | error err => rfl

/-- A log in two parts leads through the data between them. -/
theorem replay_append_eq_ok {log log' : List S} {d d' : D} :
    replay (log ++ log') d = .ok d' ↔ ∃ a, replay log d = .ok a ∧ replay log' a = .ok d' := by
  rw [replay_append]
  cases replay log d <;> simp [Except.bind]

/-- A property of the data that no statement of the log destroys survives its replay. -/
theorem replay_preserves {p : D → Prop} {log : List S} {d d' : D}
    (hstep : ∀ st ∈ log, ∀ a b, Store.exec st a = .ok b → p a → p b)
    (h : replay log d = .ok d') (hd : p d) : p d' := by
  induction log generalizing d with
  | nil => cases h; exact hd
  | cons st log ih =>
    simp only [replay] at h
    cases hst : Store.exec st d with
    | ok a =>
      rw [hst] at h
      exact ih (fun st' hmem => hstep st' (List.mem_cons_of_mem _ hmem)) h
        (hstep st List.mem_cons_self d a hst hd)
    | error err => rw [hst] at h; cases h

end Replay

/-- What a request has done so far, apart from its counters: `committed` is the data that other
requests see, `work` the data that the open transaction sees, `log` the statements of the open
transaction, `transactions` the logs committed so far, and `effects` the external effects. -/
structure Progress (S D P : Type) where
  committed : D
  work : D
  log : List S
  transactions : List (List S)
  effects : List P

/-- A session: the progress of a request, with the number of its calls to the store and of the
identifiers it drew. -/
structure Session (S D P : Type) extends Progress S D P where
  calls : ℕ
  drawn : ℕ

section Operations

variable {ρ S D ε P α β : Type}

/-- The progress of a request that has done nothing yet. -/
def Progress.start (d : D) : Progress S D P := ⟨d, d, [], [], []⟩

/-- The session of a request that has done nothing yet. -/
def Session.start (d : D) : Session S D P := { Progress.start d with calls := 0, drawn := 0 }

/-- The open transaction is rolled back. -/
def Progress.rolledBack (c : Progress S D P) : Progress S D P :=
  { c with work := c.committed, log := [] }

/-- The open transaction is committed. -/
def Progress.committing (c : Progress S D P) : Progress S D P :=
  { c with committed := c.work, transactions := c.transactions ++ [c.log], log := [] }

/-- The open transaction has executed `log`, which leads to `d`. -/
def Progress.executing (c : Progress S D P) (log : List S) (d : D) : Progress S D P :=
  { c with work := d, log := c.log ++ log }

/-- The external effect `p` has happened. -/
def Progress.emitting (c : Progress S D P) (p : P) : Progress S D P :=
  { c with effects := c.effects ++ [p] }

/-- A program that serves one request: under circumstances `ρ` it turns a session into an answer
or an error, and a session. -/
def Program (ρ S D ε P α : Type) : Type :=
  ρ → Session S D P → Except ε α × Session S D P

namespace Program

instance : Monad (Program ρ S D ε P) where
  pure a := fun _ s => (.ok a, s)
  bind x f := fun e s =>
    match x e s with
    | (.ok a, s') => f a e s'
    | (.error err, s') => (.error err, s')

theorem bind_assoc {γ : Type} (x : Program ρ S D ε P α) (f : α → Program ρ S D ε P β)
    (g : β → Program ρ S D ε P γ) : x >>= f >>= g = x >>= fun a => f a >>= g := by
  funext e s
  simp only [Bind.bind]
  cases x e s with
  | mk r s' => cases r <;> rfl

/-- Fail with an error. -/
def raise (err : ε) : Program ρ S D ε P α := fun _ s => (.error err, s)

/-- Go on if `p` holds, fail otherwise. -/
def require (p : Prop) [Decidable p] (err : ε) : Program ρ S D ε P Unit :=
  fun _ s => if p then (.ok (), s) else (.error err, s)

/-- Go on with the value of a computation, or fail with its error. -/
def ofExcept (x : Except ε α) : Program ρ S D ε P α := fun _ s => (x, s)

/-- A condition that is met is no obstacle. -/
theorem require_bind_of {p : Prop} [Decidable p] {err : ε} (h : p)
    (f : Unit → Program ρ S D ε P α) : (require p err >>= f) = f () := by
  funext e s
  simp [Bind.bind, require, h]

/-- Only the answers of the first program matter to the second one. -/
theorem bind_congr {x : Program ρ S D ε P α} {f g : α → Program ρ S D ε P β} {e : ρ}
    {s : Session S D P} (h : ∀ a s', x e s = (.ok a, s') → f a e s' = g a e s') :
    (x >>= f) e s = (x >>= g) e s := by
  simp only [Bind.bind]
  cases hx : x e s with
  | mk r s' =>
    cases r with
    | ok a => exact h a s' hx
    | error err => rfl

/-- A value is passed on. -/
theorem ofExcept_ok_bind (a : α) (f : α → Program ρ S D ε P β) :
    (ofExcept (.ok a) >>= f) = f a := rfl

/-- Read the circumstances. -/
def ask (f : ρ → α) : Program ρ S D ε P α := fun e s => (.ok (f e), s)

/-- Draw the number of a fresh identifier. -/
def draw : Program ρ S D ε P ℕ := fun _ s => (.ok s.drawn, { s with drawn := s.drawn + 1 })

/-- Let an external effect happen. -/
def emit (p : P) : Program ρ S D ε P Unit :=
  fun _ s => (.ok (), { s with toProgress := s.emitting p })

/-- Roll the open transaction back. -/
def rollback : Program ρ S D ε P Unit :=
  fun _ s => (.ok (), { s with toProgress := s.rolledBack })

/-- Run a handler on the error of a program. -/
def handle (x : Program ρ S D ε P α) (h : ε → Program ρ S D ε P α) : Program ρ S D ε P α :=
  fun e s =>
    match x e s with
    | (.ok a, s') => (.ok a, s')
    | (.error err, s') => h err e s'

/-- Run a program from the beginning of a request. -/
def run (x : Program ρ S D ε P α) (e : ρ) (d : D) : Except ε α × Session S D P :=
  x e (Session.start d)

section Calls

variable [Store S D ε] [Faults ρ]

/-- One call to the store: it is rejected, or it goes on with `k`. A rejected call and a failing
`k` abort the open transaction. -/
def call (k : Progress S D P → Except ε (α × Progress S D P)) : Program ρ S D ε P α :=
  fun e s =>
    let s' := { s with calls := s.calls + 1 }
    if rejects e s.calls then
      (.error (Store.rejected S), { s' with toProgress := s.rolledBack })
    else
      match k s.toProgress with
      | .ok (a, c) => (.ok a, { s' with toProgress := c })
      | .error err => (.error err, { s' with toProgress := s.rolledBack })

/-- Read the data of the open transaction. -/
def query (f : D → α) : Program ρ S D ε P α := call fun c => .ok (f c.work, c)

/-- Execute statements in the open transaction. -/
def execute (log : List S) : Program ρ S D ε P Unit :=
  call fun c => (replay log c.work).map fun d => ((), c.executing log d)

/-- Commit the open transaction. -/
def commit : Program ρ S D ε P Unit := call fun c => .ok ((), c.committing)

end Calls

end Program

end Operations

/-! ## The calculus of endings -/

section Calculus

variable {ρ S D ε P α β : Type}

/-- The log of the open transaction leads from the committed data to the data it sees. -/
def Progress.Faithful [Store S D ε] (c : Progress S D P) : Prop :=
  replay c.log c.committed = .ok c.work

theorem Progress.Faithful.start [Store S D ε] (d : D) :
    (Progress.start d : Progress S D P).Faithful := rfl

theorem Progress.Faithful.executing [Store S D ε] {c : Progress S D P} (hc : c.Faithful)
    {log : List S} {d : D} (h : replay log c.work = .ok d) : (c.executing log d).Faithful := by
  simp only [Progress.Faithful, Progress.executing] at hc ⊢
  rw [replay_append, hc]
  exact h

/-- `Q` admits every failure that leaves the committed data, the transactions and the effects as
they are in `c`. -/
def Progress.StopsIn (c : Progress S D P) (Q : Except ε α → Progress S D P → Prop) : Prop :=
  ∀ err c', c'.committed = c.committed → c'.transactions = c.transactions →
    c'.effects = c.effects → Q (.error err) c'

namespace Program

/-- **Every ending**: run from any session with the progress `c`, the program ends with an answer
and a progress in `Q`, whichever calls are rejected. -/
def Ensures (x : Program ρ S D ε P α) (e : ρ) (c : Progress S D P)
    (Q : Except ε α → Progress S D P → Prop) : Prop :=
  ∀ s : Session S D P, s.toProgress = c → Q (x e s).1 (x e s).2.toProgress

namespace Ensures

variable {e : ρ} {c : Progress S D P} {Q : Except ε β → Progress S D P → Prop}
  {x : Program ρ S D ε P α} {f : α → Program ρ S D ε P β}

theorem run {y : Program ρ S D ε P β} {d : D} (h : y.Ensures e (Progress.start d) Q) :
    Q (y.run e d).1 (y.run e d).2.toProgress :=
  h (Session.start d) rfl

theorem pure {b : β} (h : Q (.ok b) c) : (Pure.pure b : Program ρ S D ε P β).Ensures e c Q := by
  rintro s rfl
  exact h

theorem raise {err : ε} (h : Q (.error err) c) :
    (Program.raise err : Program ρ S D ε P β).Ensures e c Q := by
  rintro s rfl
  exact h

/-- Sequencing, through a postcondition of the first program. -/
theorem bind {R : Except ε α → Progress S D P → Prop} (hx : x.Ensures e c R)
    (hok : ∀ a c', R (.ok a) c' → (f a).Ensures e c' Q)
    (herr : ∀ err c', R (.error err) c' → Q (.error err) c') : (x >>= f).Ensures e c Q := by
  intro s hs
  have hR := hx s hs
  show Q (Bind.bind x f e s).1 (Bind.bind x f e s).2.toProgress
  simp only [Bind.bind]
  cases hxs : x e s with
  | mk r s' =>
    rw [hxs] at hR
    cases r with
    | ok a => exact hok a _ hR s' rfl
    | error err =>
      exact herr err _ hR

theorem mono {R : Except ε α → Progress S D P → Prop} {R' : Except ε α → Progress S D P → Prop}
    (hx : x.Ensures e c R) (h : ∀ r c', R r c' → R' r c') : x.Ensures e c R' :=
  fun s hs => h _ _ (hx s hs)

theorem bind_assoc {γ : Type} {g : β → Program ρ S D ε P γ}
    {Q : Except ε γ → Progress S D P → Prop}
    (h : (x >>= fun a => f a >>= g).Ensures e c Q) : (x >>= f >>= g).Ensures e c Q := by
  rw [Program.bind_assoc]
  exact h

theorem pure_bind {a : α} (h : (f a).Ensures e c Q) :
    ((Pure.pure a : Program ρ S D ε P α) >>= f).Ensures e c Q := by
  rintro s rfl
  exact h s rfl

theorem raise_bind {err : ε} (h : Q (.error err) c) :
    ((Program.raise err : Program ρ S D ε P α) >>= f).Ensures e c Q := by
  rintro s rfl
  exact h

theorem require_bind {p : Prop} [Decidable p] {err : ε} {f : Unit → Program ρ S D ε P β}
    (hs : c.StopsIn Q) (h : p → (f ()).Ensures e c Q) : (require p err >>= f).Ensures e c Q := by
  rintro s rfl
  by_cases hp : p
  · simpa [Bind.bind, require, hp] using h hp s rfl
  · simpa [Bind.bind, require, hp] using hs err _ rfl rfl rfl

theorem ofExcept_bind {r : Except ε α} (hs : c.StopsIn Q)
    (h : ∀ a, r = .ok a → (f a).Ensures e c Q) : (ofExcept r >>= f).Ensures e c Q := by
  rintro s rfl
  cases r with
  | ok a => exact h a rfl s rfl
  | error err => exact hs err _ rfl rfl rfl

theorem ask_bind {g : ρ → α} (h : (f (g e)).Ensures e c Q) : (ask g >>= f).Ensures e c Q := by
  rintro s rfl
  exact h s rfl

theorem draw_bind {f : ℕ → Program ρ S D ε P β} (h : ∀ n, (f n).Ensures e c Q) :
    (draw >>= f).Ensures e c Q := by
  rintro s rfl
  exact h s.drawn { s with drawn := s.drawn + 1 } rfl

theorem emit_bind {p : P} {f : Unit → Program ρ S D ε P β}
    (h : (f ()).Ensures e (c.emitting p) Q) : (emit p >>= f).Ensures e c Q := by
  rintro s rfl
  exact h { s with toProgress := s.emitting p } rfl

theorem rollback_bind {f : Unit → Program ρ S D ε P β}
    (h : (f ()).Ensures e c.rolledBack Q) : (rollback >>= f).Ensures e c Q := by
  rintro s rfl
  exact h { s with toProgress := s.rolledBack } rfl

/-- A handler runs from where the program failed. -/
theorem handle {y : Program ρ S D ε P β} {h : ε → Program ρ S D ε P β}
    (hy : y.Ensures e c fun r c' =>
      match r with
      | .ok b => Q (.ok b) c'
      | .error err => (h err).Ensures e c' Q) : (Program.handle y h).Ensures e c Q := by
  intro s hs
  have hQ := hy s hs
  simp only [Program.handle]
  cases hys : y e s with
  | mk r s' =>
    rw [hys] at hQ
    cases r with
    | ok b => exact hQ
    | error err => exact hQ s' rfl

section Calls

variable [Store S D ε] [Faults ρ]

theorem call_bind {k : Progress S D P → Except ε (α × Progress S D P)} (hs : c.StopsIn Q)
    (h : ∀ a c', k c = .ok (a, c') → (f a).Ensures e c' Q) : (call k >>= f).Ensures e c Q := by
  rintro s rfl
  by_cases hr : rejects e s.calls = true
  · simpa [Bind.bind, call, hr] using hs (Store.rejected S) s.rolledBack rfl rfl rfl
  · cases hk : k s.toProgress with
    | ok r => simpa [Bind.bind, call, hr, hk] using h r.1 r.2 hk _ rfl
    | error err => simpa [Bind.bind, call, hr, hk] using hs err s.rolledBack rfl rfl rfl

theorem query_bind {g : D → α} (hs : c.StopsIn Q) (h : (f (g c.work)).Ensures e c Q) :
    (query g >>= f).Ensures e c Q :=
  call_bind hs fun _ _ hk => by cases hk; exact h

theorem execute_bind {log : List S} {f : Unit → Program ρ S D ε P β} (hs : c.StopsIn Q)
    (hc : c.Faithful) (h : ∀ d, replay log c.work = .ok d → (c.executing log d).Faithful →
      (f ()).Ensures e (c.executing log d) Q) : (execute log >>= f).Ensures e c Q := by
  refine call_bind hs fun _ _ hk => ?_
  cases hd : replay log c.work with
  | ok d =>
    rw [hd] at hk
    cases hk
    exact h d hd (hc.executing hd)
  | error err => rw [hd] at hk; cases hk

theorem commit_bind {f : Unit → Program ρ S D ε P β} (hs : c.StopsIn Q)
    (h : (f ()).Ensures e c.committing Q) : (commit >>= f).Ensures e c Q :=
  call_bind hs fun _ _ hk => by cases hk; exact h

end Calls

end Ensures

end Program

end Calculus

end Transactional
