import FxDealManager.Transactional.Statements

/-!
# Local programs

A program is run twice in the same circumstances, on data that agree where the program looks: the
data are related by `R`, and only statements with the property `W` are executed, which related data
accept or reject alike. Then both runs end with the same answer, the same statements and the same
effects, and they leave related data. What `R` does not see has no part in what the program does.

## Main definitions

* `Respected`: related data accept and reject statements alike
* `Alike`: what two runs have in common all along
* `Program.Local`: two runs of a program stay alike, and what is known of their results

## Main results

* `Local.bind`, `Local.query`, `Local.execute`, ...: local programs, one rule for each operation
* `Local.run`: two runs of a local program
-/

namespace Transactional

variable {ρ S D ε P α β : Type}

/-- Related data accept a statement both, and stay related, or reject it for the same reason. -/
def Respected [Store S D ε] (R : D → D → Prop) (W : S → Prop) : Prop :=
  ∀ st d d', W st → R d d' →
    (∃ a a', Store.exec st d = .ok a ∧ Store.exec st d' = .ok a' ∧ R a a') ∨
      ∃ err : ε, Store.exec st d = .error err ∧ Store.exec st d' = .error err

/-- What is respected of statements is respected of logs. -/
theorem Respected.replay [Store S D ε] {R : D → D → Prop} {W : S → Prop} (h : Respected R W)
    {log : List S} (hlog : ∀ st ∈ log, W st) {d d' : D} (hd : R d d') :
    (∃ a a', replay log d = .ok a ∧ replay log d' = .ok a' ∧ R a a') ∨
      ∃ err : ε, Transactional.replay log d = .error err ∧
        Transactional.replay log d' = .error err := by
  induction log generalizing d d' with
  | nil => exact .inl ⟨d, d', rfl, rfl, hd⟩
  | cons st log ih =>
    obtain ⟨hst, hlog⟩ := List.forall_mem_cons.mp hlog
    simp only [Transactional.replay]
    rcases h st d d' hst hd with ⟨a, a', ha, ha', hR⟩ | ⟨err, herr, herr'⟩
    · rw [ha, ha']
      exact ih hlog hR
    · exact .inr ⟨err, by rw [herr], by rw [herr']⟩

/-- Two sessions at the same point of one request: they have made the same calls and seen related
data. -/
structure Alike (R : D → D → Prop) (W : S → Prop) (s s' : Session S D P) : Prop where
  committed : R s.committed s'.committed
  work : R s.work s'.work
  log : s'.log = s.log
  transactions : s'.transactions = s.transactions
  effects : s'.effects = s.effects
  calls : s'.calls = s.calls
  drawn : s'.drawn = s.drawn
  only : s.toProgress.Only W

namespace Alike

variable {R : D → D → Prop} {W : S → Prop} {s s' : Session S D P}

theorem start {d d' : D} (h : R d d') :
    Alike R W (Session.start d : Session S D P) (Session.start d') :=
  ⟨h, h, rfl, rfl, rfl, rfl, rfl, .start d⟩

/-- Both transactions are rolled back. -/
theorem rolledBack (h : Alike R W s s') :
    Alike R W { s with toProgress := s.rolledBack } { s' with toProgress := s'.rolledBack } :=
  ⟨h.committed, h.committed, rfl, h.transactions, h.effects, h.calls, h.drawn, h.only.rolledBack⟩

/-- Both have made another call. -/
theorem called (h : Alike R W s s') :
    Alike R W { s with calls := s.calls + 1 } { s' with calls := s'.calls + 1 } :=
  { h with calls := congrArg (· + 1) h.calls }

end Alike

namespace Program

/-- Run in the circumstances `e` on alike sessions, the program ends with one answer, of which `T`
holds, and leaves alike sessions. -/
def Local (R : D → D → Prop) (W : S → Prop) (e : ρ) (T : α → Prop) (x : Program ρ S D ε P α) :
    Prop :=
  ∀ s s', Alike R W s s' → (x e s').1 = (x e s).1 ∧ (∀ a, (x e s).1 = .ok a → T a) ∧
    Alike R W (x e s).2 (x e s').2

namespace Local

variable {R : D → D → Prop} {W : S → Prop} {e : ρ} {T : α → Prop} {U : β → Prop}

theorem pure {a : α} (h : T a) : Local R W e T (Pure.pure a : Program ρ S D ε P α) := by
  intro s s' hs
  refine ⟨rfl, fun b hb => ?_, hs⟩
  cases hb
  exact h

theorem raise (err : ε) : Local R W e T (Program.raise err : Program ρ S D ε P α) := by
  intro s s' hs
  refine ⟨rfl, fun b hb => ?_, hs⟩
  cases hb

theorem ofExcept {r : Except ε α} (h : ∀ a, r = .ok a → T a) :
    Local R W e T (Program.ofExcept r : Program ρ S D ε P α) :=
  fun _ _ hs => ⟨rfl, h, hs⟩

theorem ask {f : ρ → α} (h : T (f e)) : Local R W e T (Program.ask f : Program ρ S D ε P α) := by
  intro s s' hs
  refine ⟨rfl, fun b hb => ?_, hs⟩
  cases hb
  exact h

theorem draw : Local R W e (fun _ => True) (Program.draw : Program ρ S D ε P ℕ) := by
  intro s s' hs
  refine ⟨congrArg Except.ok hs.drawn, fun _ _ => trivial, ?_⟩
  exact { hs with drawn := congrArg (· + 1) hs.drawn }

theorem emit (p : P) :
    Local R W e (fun _ => True) (Program.emit p : Program ρ S D ε P Unit) := by
  intro s s' hs
  refine ⟨rfl, fun _ _ => trivial, ?_⟩
  exact { hs with
    effects := congrArg (· ++ [p]) hs.effects
    only := ⟨hs.only.log, hs.only.transactions⟩ }

theorem rollback : Local R W e (fun _ => True) (Program.rollback : Program ρ S D ε P Unit) :=
  fun _ _ hs => ⟨rfl, fun _ _ => trivial, hs.rolledBack⟩

theorem mono {T' : α → Prop} {x : Program ρ S D ε P α} (hx : Local R W e T x)
    (h : ∀ a, T a → T' a) : Local R W e T' x := by
  intro s s' hs
  obtain ⟨hsame, hT, hout⟩ := hx s s' hs
  exact ⟨hsame, fun a ha => h a (hT a ha), hout⟩

/-- Sequencing: what is known of the first result is known where the second program begins. -/
theorem bind {x : Program ρ S D ε P α} {f : α → Program ρ S D ε P β} (hx : Local R W e T x)
    (hf : ∀ a, T a → Local R W e U (f a)) : Local R W e U (x >>= f) := by
  intro s s' hs
  obtain ⟨hsame, hT, hout⟩ := hx s s' hs
  simp only [Bind.bind]
  cases hxs : x e s with
  | mk r t =>
    cases hxs' : x e s' with
    | mk r' t' =>
      rw [hxs, hxs'] at hsame hout
      rw [hxs] at hT
      obtain rfl : r' = r := hsame
      cases r' with
      | ok a => exact hf a (hT a rfl) t t' hout
      | error err =>
        refine ⟨rfl, fun b hb => ?_, hout⟩
        cases hb

/-- A condition on what both sessions have in common, which is known afterwards. -/
theorem require (p : Prop) [Decidable p] (err : ε) :
    Local R W e (fun _ => p) (Program.require p err : Program ρ S D ε P Unit) := by
  intro s s' hs
  by_cases hp : p
  · simpa [Program.require, hp] using hs
  · simpa [Program.require, hp] using hs

theorem handle {x : Program ρ S D ε P α} {h : ε → Program ρ S D ε P α} (hx : Local R W e T x)
    (hh : ∀ err, Local R W e T (h err)) : Local R W e T (Program.handle x h) := by
  intro s s' hs
  obtain ⟨hsame, hT, hout⟩ := hx s s' hs
  simp only [Program.handle]
  cases hxs : x e s with
  | mk r t =>
    cases hxs' : x e s' with
    | mk r' t' =>
      rw [hxs, hxs'] at hsame hout
      rw [hxs] at hT
      obtain rfl : r' = r := hsame
      cases r' with
      | ok a => exact ⟨rfl, hT, hout⟩
      | error err => exact hh err t t' hout

section Calls

variable [Store S D ε] [Faults ρ]

/-- A call is rejected in both runs or in none. -/
theorem call {k : Progress S D P → Except ε (α × Progress S D P)}
    (hk : ∀ s s', Alike R W s s' →
      (∃ a c c', k s.toProgress = .ok (a, c) ∧ k s'.toProgress = .ok (a, c') ∧ T a ∧
          Alike R W { s with toProgress := c } { s' with toProgress := c' }) ∨
        ∃ err, k s.toProgress = .error err ∧ k s'.toProgress = .error err) :
    Local R W e T (Program.call k) := by
  intro s s' hs
  by_cases hr : rejects e s.calls = true
  · have hr' : rejects e s'.calls = true := by rw [hs.calls, hr]
    refine ⟨?_, fun a ha => ?_, ?_⟩
    · simp [Program.call, hr, hr']
    · simp [Program.call, hr] at ha
    · simpa [Program.call, hr, hr'] using hs.called.rolledBack
  · have hr' : ¬ rejects e s'.calls = true := by rwa [hs.calls]
    rcases hk s s' hs with ⟨a, c, c', hc, hc', hT, hout⟩ | ⟨err, herr, herr'⟩
    · refine ⟨?_, fun b hb => ?_, ?_⟩
      · simp [Program.call, hr, hr', hc, hc']
      · obtain rfl : a = b := by simpa [Program.call, hr, hc] using hb
        exact hT
      · simpa [Program.call, hr, hr', hc, hc'] using hout.called
    · refine ⟨?_, fun b hb => ?_, ?_⟩
      · simp [Program.call, hr, hr', herr, herr']
      · simp [Program.call, hr, herr] at hb
      · simpa [Program.call, hr, hr', herr, herr'] using hs.called.rolledBack

/-- A query of what related data agree on. -/
theorem query {f : D → α} (hf : ∀ d d', R d d' → f d' = f d) (hT : ∀ d, T (f d)) :
    Local R W e T (Program.query f : Program ρ S D ε P α) := by
  refine call fun s s' hs => .inl ⟨f s.work, s.toProgress, s'.toProgress, rfl, ?_, hT _, hs⟩
  rw [hf _ _ hs.work]

theorem execute (hR : Respected R W) {log : List S} (hlog : ∀ st ∈ log, W st) :
    Local R W e (fun _ => True) (Program.execute log : Program ρ S D ε P Unit) := by
  refine call fun s s' hs => ?_
  rcases hR.replay hlog hs.work with ⟨d, d', hd, hd', hout⟩ | ⟨err, herr, herr'⟩
  · refine .inl ⟨(), s.executing log d, s'.executing log d', ?_, ?_, trivial, ?_⟩
    · rw [hd]; rfl
    · rw [hd']; rfl
    · exact { hs with
        work := hout
        log := congrArg (· ++ log) hs.log
        only := hs.only.executing hlog d }
  · exact .inr ⟨err, by rw [herr]; rfl, by rw [herr']; rfl⟩

theorem commit : Local R W e (fun _ => True) (Program.commit : Program ρ S D ε P Unit) := by
  refine call fun s s' hs => .inl ⟨(), s.committing, s'.committing, rfl, rfl, trivial, ?_⟩
  have htransactions : s'.transactions ++ [s'.log] = s.transactions ++ [s.log] := by
    rw [hs.transactions, hs.log]
  exact ⟨hs.work, hs.work, rfl, htransactions, hs.effects, hs.calls, hs.drawn, hs.only.committing⟩

end Calls

/-- **Two runs of a local program** on related data: the same answer, the same transactions and the
same effects, and related data again. -/
theorem run {x : Program ρ S D ε P α} (hx : Local R W e T x) {d d' : D} (h : R d d') :
    (x.run e d').1 = (x.run e d).1 ∧
      (x.run e d').2.transactions = (x.run e d).2.transactions ∧
      (x.run e d').2.effects = (x.run e d).2.effects ∧
      R (x.run e d).2.committed (x.run e d').2.committed ∧
      ∀ log ∈ (x.run e d).2.transactions, ∀ st ∈ log, W st := by
  obtain ⟨hsame, -, hout⟩ := hx _ _ (Alike.start h)
  exact ⟨hsame, hout.transactions, hout.effects, hout.committed, hout.only.transactions⟩

end Local

end Program

end Transactional
