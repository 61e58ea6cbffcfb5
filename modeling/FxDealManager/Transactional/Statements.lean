import FxDealManager.Transactional.Program

/-!
# The statements of a program

A property of single statements that every statement of a program has, whatever data the program
finds and whichever of its calls are rejected.

## Main definitions

* `Progress.Only`: the statements executed so far have the property
* `Program.Writes`: the program executes only statements with the property

## Main results

* `Writes.bind`, `Writes.handle`, `Writes.execute`, ...: one rule for each operation
* `Writes.run`: what is committed by a run
-/

namespace Transactional

variable {ρ S D ε P α β : Type} {p : S → Prop} {e : ρ}

/-- The statements of the open transaction and of the committed ones have the property. -/
structure Progress.Only (p : S → Prop) (c : Progress S D P) : Prop where
  log : ∀ st ∈ c.log, p st
  transactions : ∀ log ∈ c.transactions, ∀ st ∈ log, p st

namespace Progress.Only

variable {c : Progress S D P}

theorem start (d : D) : (Progress.start d : Progress S D P).Only p := ⟨nofun, nofun⟩

theorem rolledBack (h : c.Only p) : c.rolledBack.Only p := ⟨nofun, h.transactions⟩

theorem executing (h : c.Only p) {log : List S} (hlog : ∀ st ∈ log, p st) (d : D) :
    (c.executing log d).Only p :=
  ⟨List.forall_mem_append.mpr ⟨h.log, hlog⟩, h.transactions⟩

/-- A commit closes the log. -/
theorem committing (h : c.Only p) : c.committing.Only p where
  log := nofun
  transactions := by
    refine List.forall_mem_append.mpr ⟨h.transactions, fun log hlog => ?_⟩
    rw [List.mem_singleton.mp hlog]
    exact h.log

end Progress.Only

namespace Program

/-- In the circumstances `e`, the program executes only statements with the property. -/
def Writes (p : S → Prop) (e : ρ) (x : Program ρ S D ε P α) : Prop :=
  ∀ s : Session S D P, s.toProgress.Only p → (x e s).2.toProgress.Only p

namespace Writes

theorem pure (a : α) : Writes p e (Pure.pure a : Program ρ S D ε P α) := fun _ hs => hs

theorem raise (err : ε) : Writes p e (Program.raise err : Program ρ S D ε P α) := fun _ hs => hs

theorem require (q : Prop) [Decidable q] (err : ε) :
    Writes p e (Program.require q err : Program ρ S D ε P Unit) := by
  intro s hs
  rw [Program.require]
  split <;> exact hs

theorem ofExcept (r : Except ε α) : Writes p e (Program.ofExcept r : Program ρ S D ε P α) :=
  fun _ hs => hs

theorem ask (f : ρ → α) : Writes p e (Program.ask f : Program ρ S D ε P α) := fun _ hs => hs

theorem draw : Writes p e (Program.draw : Program ρ S D ε P ℕ) := fun _ hs => hs

theorem emit (q : P) : Writes p e (Program.emit q : Program ρ S D ε P Unit) :=
  fun _ hs => ⟨hs.log, hs.transactions⟩

theorem rollback : Writes p e (Program.rollback : Program ρ S D ε P Unit) :=
  fun _ hs => hs.rolledBack

theorem bind {x : Program ρ S D ε P α} {f : α → Program ρ S D ε P β} (hx : Writes p e x)
    (hf : ∀ a, Writes p e (f a)) : Writes p e (x >>= f) := by
  intro s hs
  have hxs := hx s hs
  simp only [Bind.bind]
  cases hout : x e s with
  | mk r s' =>
    rw [hout] at hxs
    cases r with
    | ok a => exact hf a s' hxs
    | error err => exact hxs

/-- What follows a look at the circumstances may depend on what they are. -/
theorem ask_bind {g : ρ → α} {f : α → Program ρ S D ε P β} (hf : Writes p e (f (g e))) :
    Writes p e (Program.ask g >>= f) :=
  hf

/-- What follows a computation runs only if it has a value. -/
theorem ofExcept_bind {r : Except ε α} {f : α → Program ρ S D ε P β}
    (hf : ∀ a, r = .ok a → Writes p e (f a)) : Writes p e (Program.ofExcept r >>= f) := by
  intro s hs
  cases r with
  | ok a => exact hf a rfl s hs
  | error err => exact hs

theorem handle {x : Program ρ S D ε P α} {h : ε → Program ρ S D ε P α} (hx : Writes p e x)
    (hh : ∀ err, Writes p e (h err)) : Writes p e (Program.handle x h) := by
  intro s hs
  have hxs := hx s hs
  simp only [Program.handle]
  cases hout : x e s with
  | mk r s' =>
    rw [hout] at hxs
    cases r with
    | ok a => exact hxs
    | error err => exact hh err s' hxs

section Calls

variable [Store S D ε] [Faults ρ]

theorem call {k : Progress S D P → Except ε (α × Progress S D P)}
    (hk : ∀ c a c', k c = .ok (a, c') → c.Only p → c'.Only p) : Writes p e (Program.call k) := by
  intro s hs
  by_cases hr : rejects e s.calls = true
  · simpa [Program.call, hr] using hs.rolledBack
  · cases hkc : k s.toProgress with
    | ok r => simpa [Program.call, hr, hkc] using hk _ r.1 r.2 hkc hs
    | error err => simpa [Program.call, hr, hkc] using hs.rolledBack

theorem query (f : D → α) : Writes p e (Program.query f : Program ρ S D ε P α) :=
  call fun _ _ _ hk hc => by cases hk; exact hc

theorem execute {log : List S} (hlog : ∀ st ∈ log, p st) :
    Writes p e (Program.execute log : Program ρ S D ε P Unit) := by
  refine call fun c _ _ hk hc => ?_
  cases hd : replay log c.work with
  | ok d => rw [hd] at hk; cases hk; exact hc.executing hlog d
  | error err => rw [hd] at hk; cases hk

theorem commit : Writes p e (Program.commit : Program ρ S D ε P Unit) :=
  call fun _ _ _ hk hc => by cases hk; exact hc.committing

end Calls

/-- **The statements of a run**: whatever a run commits has the property. -/
theorem run {x : Program ρ S D ε P α} (hx : Writes p e x) (d : D) :
    ∀ log ∈ (x.run e d).2.transactions, ∀ st ∈ log, p st :=
  (hx (Session.start d) (.start d)).transactions

end Writes

end Program

end Transactional
