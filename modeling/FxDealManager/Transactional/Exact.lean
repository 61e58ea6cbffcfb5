import FxDealManager.Transactional.Program

/-!
# Exact endings

The calculus of endings for postconditions that tell the reasons of a failure apart. A rule has one
premise for each way its operation may end: that it goes on, that it fails for a reason of its own,
and that the store rejects its call. The last one is empty in circumstances in which no call is
rejected, so that the same rules show that a program does not fail. The calculus also counts the
identifiers that were drawn, so that two of them can be told apart.

## Main definitions

* `Program.EnsuresFrom`: every ending of a program that has drawn `n` identifiers
* `Progress.MayReject`: the postcondition admits that the store rejects a call

## Main results

* `EnsuresFrom.require_bind`, `EnsuresFrom.query_bind`, `EnsuresFrom.execute_bind`, ...: the rules
* `EnsuresFrom.run`: the calculus speaks about runs
-/

namespace Transactional

variable {ρ S D ε P α β : Type}

/-- `Q` admits that the store rejects a call, in circumstances in which it rejects some. -/
def Progress.MayReject [Store S D ε] [Faults ρ] (e : ρ) (c : Progress S D P)
    (Q : Except ε α → Progress S D P → Prop) : Prop :=
  (∃ n, rejects e n = true) → Q (.error (Store.rejected S)) c.rolledBack

theorem Progress.MayReject.of_calm [Store S D ε] [Faults ρ] {e : ρ} {c : Progress S D P}
    {Q : Except ε α → Progress S D P → Prop} (h : ∀ n, rejects e n = false) :
    c.MayReject e Q := by
  rintro ⟨n, hn⟩
  rw [h n] at hn
  cases hn

/-- A request that has executed nothing has nothing to roll back. -/
@[simp] theorem Progress.start_rolledBack (d : D) :
    (Progress.start d : Progress S D P).rolledBack = Progress.start d := rfl

@[simp] theorem Progress.start_work (d : D) : (Progress.start d : Progress S D P).work = d := rfl

@[simp] theorem Progress.executing_nil (c : Progress S D P) : c.executing [] c.work = c := by
  cases c
  simp [Progress.executing]

@[simp] theorem Progress.executing_work (c : Progress S D P) (log : List S) (d : D) :
    (c.executing log d).work = d := rfl

@[simp] theorem Progress.executing_rolledBack (c : Progress S D P) (log : List S) (d : D) :
    (c.executing log d).rolledBack = c.rolledBack := rfl

namespace Program

/-- **Every exact ending**: run from any session with the progress `c` that has drawn `n`
identifiers, the program ends with an answer and a progress in `Q`. -/
def EnsuresFrom (x : Program ρ S D ε P α) (e : ρ) (c : Progress S D P) (n : ℕ)
    (Q : Except ε α → Progress S D P → Prop) : Prop :=
  ∀ s : Session S D P, s.toProgress = c → s.drawn = n → Q (x e s).1 (x e s).2.toProgress

namespace EnsuresFrom

variable {e : ρ} {c : Progress S D P} {n : ℕ} {Q : Except ε β → Progress S D P → Prop}
  {x : Program ρ S D ε P α} {f : α → Program ρ S D ε P β}

theorem run {y : Program ρ S D ε P β} {d : D} (h : y.EnsuresFrom e (Progress.start d) 0 Q) :
    Q (y.run e d).1 (y.run e d).2.toProgress :=
  h (Session.start d) rfl rfl

theorem mono {R : Except ε β → Progress S D P → Prop} {y : Program ρ S D ε P β}
    (hy : y.EnsuresFrom e c n R) (h : ∀ r c', R r c' → Q r c') : y.EnsuresFrom e c n Q :=
  fun s hs hn => h _ _ (hy s hs hn)

theorem pure {b : β} (h : Q (.ok b) c) :
    (Pure.pure b : Program ρ S D ε P β).EnsuresFrom e c n Q := by
  rintro s rfl -
  exact h

theorem raise {err : ε} (h : Q (.error err) c) :
    (Program.raise err : Program ρ S D ε P β).EnsuresFrom e c n Q := by
  rintro s rfl -
  exact h

/-- Sequencing, through a postcondition of the first program. -/
theorem bind {R : Except ε α → Progress S D P → Prop} (hx : x.EnsuresFrom e c n R)
    (hok : ∀ a c', R (.ok a) c' → (f a).Ensures e c' Q)
    (herr : ∀ err c', R (.error err) c' → Q (.error err) c') : (x >>= f).EnsuresFrom e c n Q := by
  intro s hs hn
  have hR := hx s hs hn
  show Q (Bind.bind x f e s).1 (Bind.bind x f e s).2.toProgress
  simp only [Bind.bind]
  cases hxs : x e s with
  | mk r s' =>
    rw [hxs] at hR
    cases r with
    | ok a => exact hok a _ hR s' rfl
    | error err => exact herr err _ hR

theorem bind_assoc {γ : Type} {g : β → Program ρ S D ε P γ}
    {Q : Except ε γ → Progress S D P → Prop}
    (h : (x >>= fun a => f a >>= g).EnsuresFrom e c n Q) :
    (x >>= f >>= g).EnsuresFrom e c n Q := by
  rw [Program.bind_assoc]
  exact h

/-- A program ends as it does when it is followed by nothing. -/
theorem of_bind_pure {y : Program ρ S D ε P β} (h : (y >>= Pure.pure).EnsuresFrom e c n Q) :
    y.EnsuresFrom e c n Q := by
  intro s hs hn
  have hQ := h s hs hn
  simp only [Bind.bind] at hQ
  cases hy : y e s with
  | mk r s' =>
    rw [hy] at hQ
    cases r <;> exact hQ

theorem pure_bind {a : α} (h : (f a).EnsuresFrom e c n Q) :
    ((Pure.pure a : Program ρ S D ε P α) >>= f).EnsuresFrom e c n Q := by
  rintro s rfl rfl
  exact h s rfl rfl

theorem raise_bind {err : ε} (h : Q (.error err) c) :
    ((Program.raise err : Program ρ S D ε P α) >>= f).EnsuresFrom e c n Q := by
  rintro s rfl -
  exact h

theorem require_bind {p : Prop} [Decidable p] {err : ε} {f : Unit → Program ρ S D ε P β}
    (hfail : ¬ p → Q (.error err) c) (h : p → (f ()).EnsuresFrom e c n Q) :
    (require p err >>= f).EnsuresFrom e c n Q := by
  rintro s rfl rfl
  by_cases hp : p
  · simpa [Bind.bind, require, hp] using h hp s rfl rfl
  · simpa [Bind.bind, require, hp] using hfail hp

theorem ofExcept_bind {r : Except ε α} (hfail : ∀ err, r = .error err → Q (.error err) c)
    (h : ∀ a, r = .ok a → (f a).EnsuresFrom e c n Q) : (ofExcept r >>= f).EnsuresFrom e c n Q := by
  rintro s rfl rfl
  cases r with
  | ok a => exact h a rfl s rfl rfl
  | error err => exact hfail err rfl

/-- The value that there is, or an error. -/
theorem ofOption_bind {o : Option α} {err : ε} (hnone : o = none → Q (.error err) c)
    (h : ∀ a, o = some a → (f a).EnsuresFrom e c n Q) :
    (ofExcept (o.elim (.error err) .ok) >>= f).EnsuresFrom e c n Q := by
  cases o with
  | none => exact raise_bind (hnone rfl)
  | some a => exact pure_bind (h a rfl)

theorem ask_bind {g : ρ → α} (h : (f (g e)).EnsuresFrom e c n Q) :
    (ask g >>= f).EnsuresFrom e c n Q := by
  rintro s rfl rfl
  exact h s rfl rfl

theorem draw_bind {f : ℕ → Program ρ S D ε P β} (h : (f n).EnsuresFrom e c (n + 1) Q) :
    (draw >>= f).EnsuresFrom e c n Q := by
  rintro s rfl rfl
  exact h { s with drawn := s.drawn + 1 } rfl rfl

theorem emit_bind {p : P} {f : Unit → Program ρ S D ε P β}
    (h : (f ()).EnsuresFrom e (c.emitting p) n Q) : (emit p >>= f).EnsuresFrom e c n Q := by
  rintro s rfl rfl
  exact h { s with toProgress := s.emitting p } rfl rfl

/-- A handler runs from where the program failed. -/
theorem handle {y : Program ρ S D ε P β} {h : ε → Program ρ S D ε P β}
    (hy : y.EnsuresFrom e c n fun r c' =>
      match r with
      | .ok b => Q (.ok b) c'
      | .error err => (h err).Ensures e c' Q) : (Program.handle y h).EnsuresFrom e c n Q := by
  intro s hs hn
  have hQ := hy s hs hn
  simp only [Program.handle]
  cases hys : y e s with
  | mk r s' =>
    rw [hys] at hQ
    cases r with
    | ok b => exact hQ
    | error err => exact hQ s' rfl

section Calls

variable [Store S D ε] [Faults ρ]

theorem call_bind {k : Progress S D P → Except ε (α × Progress S D P)} (hrej : c.MayReject e Q)
    (hfail : ∀ err, k c = .error err → Q (.error err) c.rolledBack)
    (h : ∀ a c', k c = .ok (a, c') → (f a).EnsuresFrom e c' n Q) :
    (call k >>= f).EnsuresFrom e c n Q := by
  rintro s rfl rfl
  by_cases hr : rejects e s.calls = true
  · simpa [Bind.bind, call, hr] using hrej ⟨s.calls, hr⟩
  · cases hk : k s.toProgress with
    | ok r =>
      simpa [Bind.bind, call, hr, hk] using
        h r.1 r.2 hk { s with toProgress := r.2, calls := s.calls + 1 } rfl rfl
    | error err => simpa [Bind.bind, call, hr, hk] using hfail err hk

theorem query_bind {g : D → α} (hrej : c.MayReject e Q)
    (h : (f (g c.work)).EnsuresFrom e c n Q) : (query g >>= f).EnsuresFrom e c n Q :=
  call_bind hrej (fun _ hk => by cases hk) fun _ _ hk => by cases hk; exact h

theorem execute_bind {log : List S} {f : Unit → Program ρ S D ε P β} (hrej : c.MayReject e Q)
    (hfail : ∀ err, replay log c.work = .error err → Q (.error err) c.rolledBack)
    (h : ∀ d, replay log c.work = .ok d → (f ()).EnsuresFrom e (c.executing log d) n Q) :
    (execute log >>= f).EnsuresFrom e c n Q := by
  cases hd : replay log c.work with
  | ok d =>
    refine call_bind hrej (fun err hk => ?_) fun _ _ hk => ?_
    · rw [hd] at hk
      cases hk
    · rw [hd] at hk
      cases hk
      exact h d hd
  | error err =>
    refine call_bind hrej (fun err' hk => ?_) fun _ _ hk => ?_
    · rw [hd] at hk
      cases hk
      exact hfail err hd
    · rw [hd] at hk
      cases hk

theorem commit_bind {f : Unit → Program ρ S D ε P β} (hrej : c.MayReject e Q)
    (h : (f ()).EnsuresFrom e c.committing n Q) : (commit >>= f).EnsuresFrom e c n Q :=
  call_bind hrej (fun _ hk => by cases hk) fun _ _ hk => by cases hk; exact h

end Calls

end EnsuresFrom

end Program

end Transactional
