import FxDealManager.Transactional.Program

/-!
# Atomic programs

A program is compared with itself in calm circumstances, in which the store rejects no call of its
own accord. A program is atomic if it either does exactly what it does in calm circumstances, or
fails and has committed nothing. A program that ends with its only commit is atomic, whichever of
its calls are rejected.

## Main definitions

* `Program.Failing`: a run failed and left the committed data alone
* `Program.Quiet`: a program agrees with its calm self or fails, and commits nothing
* `Program.Atomic`: a program agrees with its calm self, or fails and has committed nothing

## Main results

* `Quiet.bind`, `Quiet.query`, `Quiet.execute`, ...: quiet programs, one rule for each operation
* `Atomic.bind`, `Atomic.commit_bind`, `Atomic.handle`: how an atomic program is put together
* `Atomic.run`: what atomicity says about runs
-/

namespace Transactional

namespace Program

variable {ρ S D ε P α β : Type}

/-- A run that starts with the session `s` failed and left the committed data alone. -/
def Failing (s : Session S D P) (out : Except ε α × Session S D P) : Prop :=
  ∃ err, out.1 = .error err ∧ out.2.committed = s.committed ∧ out.2.transactions = s.transactions

/-- In the circumstances `e`, the program does what it does in the circumstances `e'` and commits
nothing, or it fails and has committed nothing. -/
def Quiet (e e' : ρ) (x : Program ρ S D ε P α) : Prop :=
  ∀ s, Failing s (x e s) ∨
    x e s = x e' s ∧ (x e s).2.committed = s.committed ∧ (x e s).2.transactions = s.transactions

/-- In the circumstances `e`, the program does what it does in the circumstances `e'`, or it fails
and has committed nothing. -/
def Atomic (e e' : ρ) (x : Program ρ S D ε P α) : Prop :=
  ∀ s, Failing s (x e s) ∨ x e s = x e' s

variable {e e' : ρ}

theorem Failing.trans {s s' : Session S D P} {out : Except ε α × Session S D P}
    (h : Failing s' out) (hcommitted : s'.committed = s.committed)
    (htransactions : s'.transactions = s.transactions) : Failing s out := by
  obtain ⟨err, herr, hc, ht⟩ := h
  exact ⟨err, herr, hc.trans hcommitted, ht.trans htransactions⟩

/-- A failure goes through what would have followed. -/
theorem Failing.bind {s : Session S D P} {x : Program ρ S D ε P α} {f : α → Program ρ S D ε P β}
    (h : Failing s (x e s)) : Failing s ((x >>= f) e s) := by
  obtain ⟨err, herr, hc, ht⟩ := h
  have hxs : x e s = (.error err, (x e s).2) := Prod.ext herr rfl
  refine ⟨err, ?_, ?_, ?_⟩ <;> simp only [Bind.bind] <;> rw [hxs]
  · exact hc
  · exact ht

/-! ## Quiet programs -/

namespace Quiet

theorem pure (a : α) : Quiet e e' (Pure.pure a : Program ρ S D ε P α) :=
  fun _ => .inr ⟨rfl, rfl, rfl⟩

theorem raise (err : ε) : Quiet e e' (Program.raise err : Program ρ S D ε P α) :=
  fun _ => .inr ⟨rfl, rfl, rfl⟩

theorem require (p : Prop) [Decidable p] (err : ε) :
    Quiet e e' (Program.require p err : Program ρ S D ε P Unit) := by
  refine fun s => .inr ⟨rfl, ?_, ?_⟩ <;> simp only [Program.require] <;> split <;> rfl

theorem ofExcept (r : Except ε α) : Quiet e e' (Program.ofExcept r : Program ρ S D ε P α) :=
  fun _ => .inr ⟨rfl, rfl, rfl⟩

theorem ask {f : ρ → α} (h : f e = f e') : Quiet e e' (Program.ask f : Program ρ S D ε P α) :=
  fun _ => .inr ⟨by simp only [Program.ask, h], rfl, rfl⟩

theorem draw : Quiet e e' (Program.draw : Program ρ S D ε P ℕ) := fun _ => .inr ⟨rfl, rfl, rfl⟩

theorem emit (p : P) : Quiet e e' (Program.emit p : Program ρ S D ε P Unit) :=
  fun _ => .inr ⟨rfl, rfl, rfl⟩

/-- Quiet programs in sequence. -/
theorem bind {x : Program ρ S D ε P α} {f : α → Program ρ S D ε P β} (hx : Quiet e e' x)
    (hf : ∀ a, Quiet e e' (f a)) : Quiet e e' (x >>= f) := by
  intro s
  rcases hx s with hfailing | ⟨heq, hc, ht⟩
  · exact .inl hfailing.bind
  · simp only [Bind.bind, ← heq]
    cases hxs : x e s with
    | mk r s' =>
      rw [hxs] at hc ht
      cases r with
      | error err => exact .inr ⟨rfl, hc, ht⟩
      | ok a =>
        rcases hf a s' with hfailing | ⟨heq', hc', ht'⟩
        · exact .inl (hfailing.trans hc ht)
        · exact .inr ⟨heq', hc'.trans hc, ht'.trans ht⟩

/-- A handler that does nothing but fail keeps a program quiet. -/
theorem handle {x : Program ρ S D ε P α} {h : ε → Program ρ S D ε P α} (hx : Quiet e e' x)
    (hfail : ∀ err s, Failing s (h err e s)) : Quiet e e' (Program.handle x h) := by
  intro s
  rcases hx s with ⟨err, herr, hc, ht⟩ | ⟨heq, hc, ht⟩
  · have hxs : x e s = (.error err, (x e s).2) := Prod.ext herr rfl
    simp only [Program.handle]
    rw [hxs]
    exact .inl ((hfail err _).trans hc ht)
  · simp only [Program.handle, ← heq]
    cases hxs : x e s with
    | mk r s' =>
      rw [hxs] at hc ht
      cases r with
      | error err =>
        exact .inl ((hfail err s').trans hc ht)
      | ok a => exact .inr ⟨rfl, hc, ht⟩

section Calls

variable [Store S D ε] [Faults ρ]

/-- A call that commits nothing is quiet. -/
theorem call {k : Progress S D P → Except ε (α × Progress S D P)}
    (hcalm : ∀ n, rejects e' n = false)
    (hk : ∀ c a c', k c = .ok (a, c') →
      c'.committed = c.committed ∧ c'.transactions = c.transactions) :
    Quiet e e' (Program.call k) := by
  intro s
  by_cases hr : rejects e s.calls = true
  · refine .inl ⟨Store.rejected S, ?_, ?_, ?_⟩ <;> simp [Program.call, hr, Progress.rolledBack]
  · refine .inr ⟨by simp [Program.call, hr, hcalm], ?_⟩
    cases hkc : k s.toProgress with
    | ok r => simpa [Program.call, hr, hkc] using hk _ r.1 r.2 hkc
    | error err => simp [Program.call, hr, hkc, Progress.rolledBack]

theorem query (f : D → α) (hcalm : ∀ n, rejects e' n = false) :
    Quiet e e' (Program.query f : Program ρ S D ε P α) :=
  call hcalm fun _ _ _ h => by cases h; exact ⟨rfl, rfl⟩

theorem execute (log : List S) (hcalm : ∀ n, rejects e' n = false) :
    Quiet e e' (Program.execute log : Program ρ S D ε P Unit) := by
  refine call hcalm fun c _ _ h => ?_
  cases hd : replay log c.work with
  | ok d => rw [hd] at h; cases h; exact ⟨rfl, rfl⟩
  | error err => rw [hd] at h; cases h

end Calls

end Quiet

/-! ## Atomic programs -/

namespace Atomic

/-- A quiet program before an atomic one. -/
theorem bind {x : Program ρ S D ε P α} {f : α → Program ρ S D ε P β} (hx : Quiet e e' x)
    (hf : ∀ a, Atomic e e' (f a)) : Atomic e e' (x >>= f) := by
  intro s
  rcases hx s with hfailing | ⟨heq, hc, ht⟩
  · exact .inl hfailing.bind
  · simp only [Bind.bind, ← heq]
    cases hxs : x e s with
    | mk r s' =>
      rw [hxs] at hc ht
      cases r with
      | error err => exact .inr rfl
      | ok a => exact (hf a s').imp_left fun hfailing => hfailing.trans hc ht

/-- A commit, after which nothing can fail that does not fail in calm circumstances. -/
theorem commit_bind [Store S D ε] [Faults ρ] {f : Unit → Program ρ S D ε P α}
    (hcalm : ∀ n, rejects e' n = false) (hf : f () e = f () e') :
    Atomic e e' (Program.commit >>= f) := by
  intro s
  by_cases hr : rejects e s.calls = true
  · refine .inl (Failing.bind ⟨Store.rejected S, ?_, ?_, ?_⟩) <;>
      simp [Program.commit, call, hr, Progress.rolledBack]
  · exact .inr (by simp [Bind.bind, Program.commit, call, hr, hcalm, hf])

/-- A handler that does nothing but fail keeps a program atomic. -/
theorem handle {x : Program ρ S D ε P α} {h : ε → Program ρ S D ε P α} (hx : Atomic e e' x)
    (hsame : ∀ err, h err e = h err e') (hfail : ∀ err s, Failing s (h err e s)) :
    Atomic e e' (Program.handle x h) := by
  intro s
  rcases hx s with ⟨err, herr, hc, ht⟩ | heq
  · have hxs : x e s = (.error err, (x e s).2) := Prod.ext herr rfl
    simp only [Program.handle]
    rw [hxs]
    exact .inl ((hfail err _).trans hc ht)
  · simp only [Program.handle, ← heq]
    cases hxs : x e s with
    | mk r s' =>
      cases r with
      | error err => exact .inr (congrFun (hsame err) s')
      | ok a => exact .inr rfl

/-- **Atomicity of runs**: an atomic program that is run from the beginning of a request fails and
leaves the data alone, or its run is the calm one. -/
theorem run {x : Program ρ S D ε P α} (hx : Atomic e e' x) (d : D) :
    (∃ err, (x.run e d).1 = .error err ∧ (x.run e d).2.committed = d ∧
        (x.run e d).2.transactions = []) ∨
      x.run e d = x.run e' d :=
  hx (Session.start d)

end Atomic

end Program

end Transactional
