import FxDealManager.Repositories.Flush
import Mathlib.Data.Finset.Range
import Mathlib.Data.Finset.Dedup

/-!
# What the database accepts

When the columns can store what a flush writes, and when the constraints of the tables admit the
statements of a transaction. The conditions are about the data before the transaction and about the
statements that come first in it, so that nothing has to be executed to check them.

## Main definitions

* `Payment.Storable`: the columns of the payment table can store the payment
* `Statement.Fits`: a statement about a stored deal that meets the constraints
* `FitAll`: the statements of a log, one after another
* `Fair`: circumstances in which only the constraints of the tables reject
* `Database.idsBelow`: a bound of the identifiers in use

## Main results

* `exists_ofPayment_iff`: a payment becomes a row if and only if it is storable
* `exists_between_iff`: when the columns can store what was assigned to an object
* `exists_replay_of_fitAll`: a log that fits is replayed
* `exists_statements`: what is pending can be written, if the columns can store it
-/

namespace FxDealManager

open DecimalArithmetic Transactional

/-! ## Columns -/

/-- The columns of the payment table can store the payment. -/
structure Payment.Storable (p : Payment) : Prop where
  amount : (Numeric.ofDecimal p.amount : Option (Numeric 18 2)).isSome
  currencyCode : p.currencyCode.length ≤ 3
  accountCode : ∀ a ∈ p.accountCode, a.length ≤ 30

theorem storeOptional_isSome {n : ℕ} {s : Option String} :
    (storeOptional s : Option (Option (Varchar n))).isSome ↔ ∀ a ∈ s, a.length ≤ n := by
  cases s with
  | none => simp [storeOptional]
  | some s => simp [storeOptional, Varchar.ofString_isSome]

/-- A payment becomes a row if and only if its columns can store it. -/
theorem exists_ofPayment_iff {p : Payment} :
    (∃ row, PaymentRow.ofPayment p = .ok row) ↔ p.Storable := by
  simp only [PaymentRow.ofPayment, bind_eq_ok, storeColumn_eq_ok]
  constructor
  · rintro ⟨row, amount, hamount, currency, hcurrency, account, haccount, -⟩
    exact ⟨Option.isSome_of_eq_some hamount,
      Varchar.ofString_isSome.mp (Option.isSome_of_eq_some hcurrency),
      storeOptional_isSome.mp (Option.isSome_of_eq_some haccount)⟩
  · rintro ⟨hamount, hcurrency, haccount⟩
    obtain ⟨amount, hamount⟩ := Option.isSome_iff_exists.mp hamount
    obtain ⟨currency, hcurrency⟩ :=
      Option.isSome_iff_exists.mp (Varchar.ofString_isSome.mpr hcurrency)
    obtain ⟨account, haccount⟩ := Option.isSome_iff_exists.mp (storeOptional_isSome.mpr haccount)
    exact ⟨_, amount, hamount, currency, hcurrency, account, haccount, rfl⟩

/-- Payments become rows if and only if the columns can store each of them. -/
theorem exists_mapM_ofPayment_iff {payments : List Payment} :
    (∃ rows, payments.mapM PaymentRow.ofPayment = .ok rows) ↔ ∀ p ∈ payments, p.Storable :=
  exists_mapM_iff.trans (forall₂_congr fun _ _ => exists_ofPayment_iff)

/-- A column can be written if it is left alone or if it can store the value. -/
theorem exists_changedColumn_iff {α β : Type} {equal : Bool} {store : α → Option β} {err : DbError}
    {value : α} :
    (∃ change, changedColumn equal store err value = .ok change) ↔
      equal = true ∨ (store value).isSome := by
  cases equal <;> cases h : store value <;> simp [changedColumn, storeColumn, h, Except.map]

theorem exists_changedString_iff {n : ℕ} {old new : String} {err : DbError} :
    (∃ change, changedColumn (old = new) (Varchar.ofString : String → Option (Varchar n)) err new =
      .ok change) ↔ old = new ∨ new.length ≤ n := by
  rw [exists_changedColumn_iff, decide_eq_true_eq, Varchar.ofString_isSome]

theorem exists_changedOptional_iff {n : ℕ} {old new : Option String} {err : DbError} :
    (∃ change, changedColumn (old = new)
      (storeOptional : Option String → Option (Option (Varchar n))) err new = .ok change) ↔
        old = new ∨ ∀ s ∈ new, s.length ≤ n := by
  rw [exists_changedColumn_iff, decide_eq_true_eq, storeOptional_isSome]

/-- **An object can be written** if and only if it has no null in a column without nulls, and each
column whose value may be too long or too large can be written. -/
theorem exists_between_iff {old new : FXDeal} :
    (∃ ch, DealChanges.between old new = .ok ch) ↔ new.nulled = [] ∧
      (old.amount.same new.amount = true ∨
        (Numeric.ofDecimal new.amount : Option (Numeric 18 2)).isSome) ∧
      (old.rate.same new.rate = true ∨
        (Numeric.ofDecimal new.rate : Option (Numeric 18 6)).isSome) ∧
      (old.buyCurrency = new.buyCurrency ∨ new.buyCurrency.length ≤ 3) ∧
      (old.sellCurrency = new.sellCurrency ∨ new.sellCurrency.length ≤ 3) ∧
      (old.counterpartyId = new.counterpartyId ∨ new.counterpartyId.length ≤ 20) ∧
      (old.traderId = new.traderId ∨ new.traderId.length ≤ 36) ∧
      (old.traderEmail = new.traderEmail ∨ new.traderEmail.length ≤ 320) ∧
      (old.positionerId = new.positionerId ∨ ∀ s ∈ new.positionerId, s.length ≤ 36) := by
  simp only [DealChanges.between]
  cases hn : new.nulled with
  | cons column columns => simp [throw, throwThe, MonadExceptOf.throw, bind, Except.bind]
  | nil =>
    constructor
    · rintro ⟨ch, h⟩
      simp only [bind_eq_ok] at h
      obtain ⟨_, amount, _, rate, _, buy, _, sell, _, counterparty, _, trader, _, email, _,
        positioner, -⟩ := h
      exact ⟨rfl, exists_changedColumn_iff.mp ⟨_, amount⟩, exists_changedColumn_iff.mp ⟨_, rate⟩,
        exists_changedString_iff.mp ⟨_, buy⟩, exists_changedString_iff.mp ⟨_, sell⟩,
        exists_changedString_iff.mp ⟨_, counterparty⟩, exists_changedString_iff.mp ⟨_, trader⟩,
        exists_changedString_iff.mp ⟨_, email⟩, exists_changedOptional_iff.mp ⟨_, positioner⟩⟩
    · rintro ⟨-, amount, rate, buy, sell, counterparty, trader, email, positioner⟩
      obtain ⟨_, amount⟩ := exists_changedColumn_iff.mpr amount
      obtain ⟨_, rate⟩ := exists_changedColumn_iff.mpr rate
      obtain ⟨_, buy⟩ := exists_changedString_iff.mpr buy
      obtain ⟨_, sell⟩ := exists_changedString_iff.mpr sell
      obtain ⟨_, counterparty⟩ := exists_changedString_iff.mpr counterparty
      obtain ⟨_, trader⟩ := exists_changedString_iff.mpr trader
      obtain ⟨_, email⟩ := exists_changedString_iff.mpr email
      obtain ⟨_, positioner⟩ := exists_changedOptional_iff.mpr positioner
      simp only [bind_eq_ok]
      exact ⟨_, _, amount, _, rate, _, buy, _, sell, _, counterparty, _, trader, _, email, _,
        positioner, rfl⟩

/-- The columns that a decision sets can be stored, if the positioner's can. -/
theorem exists_between_decided {old : FXDeal} {valueDate : Option Date} {state : DealState}
    {status : ValidationStatus} {positioner : Option String}
    {solution : Option PositionerSolution} (hnulled : old.nulled = [])
    (hpositioner : ∀ s ∈ positioner, s.length ≤ 36) :
    ∃ ch, DealChanges.between old
      { old with
        valueDate := valueDate, dealState := state, validationStatus := status
        positionerId := positioner, positionerSolution := solution } = .ok ch :=
  exists_between_iff.mpr ⟨hnulled, .inl (Decimal.same_self _), .inl (Decimal.same_self _), .inl rfl,
    .inl rfl, .inl rfl, .inl rfl, .inl rfl, .inr hpositioner⟩

/-! ## Constraints -/

theorem Database.hasPayment_iff {db : Database} {x : UUID} :
    db.hasPayment x = true ↔ ∃ id r, db.deals.lookup id = some r ∧ ∃ p ∈ r.payments, p.id = x := by
  simp only [Database.hasPayment, List.any_eq_true, decide_eq_true_eq]
  constructor
  · rintro ⟨⟨id, r⟩, he, p, hp, rfl⟩
    exact ⟨id, r, AList.mem_lookup_iff.mpr he, p, hp, rfl⟩
  · rintro ⟨id, r, hr, p, hp, rfl⟩
    exact ⟨⟨id, r⟩, AList.mem_lookup_iff.mp hr, p, hp, rfl⟩

theorem Database.hasSolution_iff {db : Database} {x : UUID} :
    db.hasSolution x = true ↔
      ∃ id r, db.deals.lookup id = some r ∧ ∃ s ∈ r.solution, s.id = x := by
  simp only [Database.hasSolution, List.any_eq_true, Option.any_eq_true, decide_eq_true_eq]
  constructor
  · rintro ⟨⟨id, r⟩, he, s, hs, rfl⟩
    exact ⟨id, r, AList.mem_lookup_iff.mpr he, s, hs, rfl⟩
  · rintro ⟨id, r, hr, s, hs, rfl⟩
    exact ⟨⟨id, r⟩, AList.mem_lookup_iff.mp hr, s, hs, rfl⟩

section Origin

variable {log : List Statement} {db db' : Database} {x : UUID}

/-- What a log leaves in a record was there before, or a statement of the log has put it there. -/
theorem rewrite_origin {P : DealRecord → Prop} {G : Statement → Prop} {id : UUID}
    (hwrite : ∀ st o r, st.deal? = some id → st.write o = some r → P r →
      (∃ r₀, o = some r₀ ∧ P r₀) ∨ G st)
    {o : Option DealRecord} {r : DealRecord} (h : rewrite id log o = some r) (hr : P r) :
    (∃ r₀, o = some r₀ ∧ P r₀) ∨ ∃ st ∈ log, G st := by
  induction log generalizing o with
  | nil => exact .inl ⟨r, h, hr⟩
  | cons st log ih =>
    rcases ih h with ⟨r₁, hr₁, hP⟩ | ⟨st', hst', hG⟩
    · by_cases hid : st.deal? = some id
      · simp only [if_pos hid] at hr₁
        exact (hwrite st o r₁ hid hr₁ hP).imp_right fun hG => ⟨st, List.mem_cons_self, hG⟩
      · simp only [if_neg hid] at hr₁
        exact .inl ⟨r₁, hr₁, hP⟩
    · exact .inr ⟨st', List.mem_cons_of_mem _ hst', hG⟩

/-- An id of a payment was there before, or the log inserts it. -/
theorem hasPayment_of_replay (h : replay log db = .ok db') (hx : db'.hasPayment x = true) :
    db.hasPayment x = true ∨ ∃ id p, .insertPayment id p ∈ log ∧ p.id = x := by
  obtain ⟨id, r, hr, hp⟩ := Database.hasPayment_iff.mp hx
  rw [replay_lookup h] at hr
  have horigin := rewrite_origin (P := fun r => ∃ p ∈ r.payments, p.id = x)
    (G := fun st => ∃ id p, st = .insertPayment id p ∧ p.id = x) (fun st o r _ hst hP => ?_) hr hp
  · rcases horigin with ⟨r₀, hr₀, hP⟩ | ⟨st, hst, j, p, rfl, hid⟩
    · exact .inl (Database.hasPayment_iff.mpr ⟨id, r₀, hr₀, hP⟩)
    · exact .inr ⟨j, p, hst, hid⟩
  · obtain ⟨p, hp, hid⟩ := hP
    cases st with
    | insertDeal j row => cases hst; cases hp
    | insertAudit entry => exact .inl ⟨r, hst, p, hp, hid⟩
    | insertPayment j q =>
      obtain ⟨r₀, rfl, rfl⟩ := Option.map_eq_some_iff.mp hst
      rcases List.mem_append.mp hp with hold | hnew
      · exact .inl ⟨r₀, rfl, p, hold, hid⟩
      · cases List.mem_singleton.mp hnew
        exact .inr ⟨j, p, rfl, hid⟩
    | deletePayments j ids =>
      obtain ⟨r₀, rfl, rfl⟩ := Option.map_eq_some_iff.mp hst
      exact .inl ⟨r₀, rfl, p, (List.mem_filter.mp hp).1, hid⟩
    | _ =>
      obtain ⟨r₀, rfl, rfl⟩ := Option.map_eq_some_iff.mp hst
      exact .inl ⟨r₀, rfl, p, hp, hid⟩

/-- An id of a solution was there before, or the log inserts it. -/
theorem hasSolution_of_replay (h : replay log db = .ok db') (hx : db'.hasSolution x = true) :
    db.hasSolution x = true ∨ ∃ id s, .insertSolution id s ∈ log ∧ s.id = x := by
  obtain ⟨id, r, hr, hs⟩ := Database.hasSolution_iff.mp hx
  rw [replay_lookup h] at hr
  have horigin := rewrite_origin (P := fun r => ∃ s ∈ r.solution, s.id = x)
    (G := fun st => ∃ id s, st = .insertSolution id s ∧ s.id = x) (fun st o r _ hst hP => ?_) hr hs
  · rcases horigin with ⟨r₀, hr₀, hP⟩ | ⟨st, hst, j, s, rfl, hid⟩
    · exact .inl (Database.hasSolution_iff.mpr ⟨id, r₀, hr₀, hP⟩)
    · exact .inr ⟨j, s, hst, hid⟩
  · obtain ⟨s, hs, hid⟩ := hP
    cases st with
    | insertDeal j row => cases hst; cases hs
    | insertAudit entry => exact .inl ⟨r, hst, s, hs, hid⟩
    | insertSolution j q =>
      obtain ⟨r₀, rfl, rfl⟩ := Option.map_eq_some_iff.mp hst
      cases hs
      exact .inr ⟨j, s, rfl, hid⟩
    | updateSolution j ch =>
      obtain ⟨r₀, rfl, rfl⟩ := Option.map_eq_some_iff.mp hst
      obtain ⟨s₀, hs₀, rfl⟩ := Option.map_eq_some_iff.mp hs
      exact .inl ⟨r₀, rfl, s₀, hs₀, hid⟩
    | _ =>
      obtain ⟨r₀, rfl, rfl⟩ := Option.map_eq_some_iff.mp hst
      exact .inl ⟨r₀, rfl, s, hs, hid⟩

/-- A deal has a solution after a log only if it had one before or the log inserts one. -/
theorem solution_of_replay {id : UUID} {r r' : DealRecord} (h : replay log db = .ok db')
    (hr : db.deals.lookup id = some r) (hr' : db'.deals.lookup id = some r')
    (hsome : r'.solution.isSome) : r.solution.isSome ∨ ∃ j s, .insertSolution j s ∈ log := by
  rw [replay_lookup h] at hr'
  have horigin := rewrite_origin (P := fun r => r.solution.isSome = true)
    (G := fun st => ∃ j s, st = .insertSolution j s) (fun st o r _ hst hP => ?_) hr' hsome
  · rcases horigin with ⟨r₀, hr₀, hP⟩ | ⟨st, hst, j, s, rfl⟩
    · rw [hr] at hr₀
      cases hr₀
      exact .inl hP
    · exact .inr ⟨j, s, hst⟩
  · cases st with
    | insertDeal j row => cases hst; cases hP
    | insertAudit entry => exact .inl ⟨r, hst, hP⟩
    | insertSolution j q => exact .inr ⟨j, q, rfl⟩
    | updateSolution j ch =>
      obtain ⟨r₀, rfl, rfl⟩ := Option.map_eq_some_iff.mp hst
      exact .inl ⟨r₀, rfl, by simpa using hP⟩
    | _ =>
      obtain ⟨r₀, rfl, rfl⟩ := Option.map_eq_some_iff.mp hst
      exact .inl ⟨r₀, rfl, hP⟩

/-- A log keeps a solution, unless it starts the deal anew. -/
theorem solution_none_of_replay {id : UUID} {r r' : DealRecord} (h : replay log db = .ok db')
    (hr : db.deals.lookup id = some r) (hr' : db'.deals.lookup id = some r')
    (hdeal : ∀ row, .insertDeal id row ∉ log) (hnone : r'.solution = none) :
    ¬ r.solution.isSome := by
  rw [replay_lookup h] at hr'
  have horigin := rewrite_origin (P := fun r => r.solution = none)
    (G := fun st => ∃ row, st = .insertDeal id row) (fun st o r hid hst hP => ?_) hr' hnone
  · rcases horigin with ⟨r₀, hr₀, hP⟩ | ⟨st, hst, row, rfl⟩
    · rw [hr] at hr₀
      cases hr₀
      simp [show r.solution = none from hP]
    · exact absurd hst (hdeal row)
  · cases st with
    | insertDeal j row => cases hid; exact .inr ⟨row, rfl⟩
    | insertAudit entry => exact .inl ⟨r, hst, hP⟩
    | insertSolution j q =>
      obtain ⟨r₀, rfl, rfl⟩ := Option.map_eq_some_iff.mp hst
      cases hP
    | updateSolution j ch =>
      obtain ⟨r₀, rfl, rfl⟩ := Option.map_eq_some_iff.mp hst
      exact .inl ⟨r₀, rfl, by simpa using hP⟩
    | _ =>
      obtain ⟨r₀, rfl, rfl⟩ := Option.map_eq_some_iff.mp hst
      exact .inl ⟨r₀, rfl, hP⟩

end Origin

/-- A statement about a stored deal, after the statements `pre` of its log, meets the constraints
of the tables. -/
def Statement.Fits (db : Database) (pre : List Statement) : Statement → Prop
  | .insertDeal _ _ => False
  | .updateDeal id ch _ => (db.deals.lookup id).isSome ∧ ch.counterpartyId = none
  | .deletePayments _ _ => True
  | .insertPayment id p => (db.deals.lookup id).isSome ∧ db.hasPayment p.id = false ∧
    (∀ j q, .insertPayment j q ∈ pre → q.id ≠ p.id) ∧ (db.nsi.currency? p.currencyCode.val).isSome
  | .insertSolution id s => (∃ r, db.deals.lookup id = some r ∧ r.solution = none) ∧
    db.hasSolution s.id = false ∧ ∀ j q, .insertSolution j q ∉ pre
  | .updateSolution id _ => ∃ r, db.deals.lookup id = some r ∧ r.solution.isSome ∧
    ∀ row, .insertDeal id row ∉ pre
  | .insertAudit entry => db.audit.any (·.id = entry.id) = false ∧
    ∀ entry', .insertAudit entry' ∈ pre → entry'.id ≠ entry.id

/-- The statements of a log fit, each after the ones before it. -/
def FitAll (db : Database) : (pre log : List Statement) → Prop
  | _, [] => True
  | pre, st :: log => st.Fits db pre ∧ FitAll db (pre ++ [st]) log

theorem fitAll_append {db : Database} {pre log log' : List Statement} :
    FitAll db pre (log ++ log') ↔ FitAll db pre log ∧ FitAll db (pre ++ log) log' := by
  induction log generalizing pre with
  | nil => simp [FitAll]
  | cons st log ih => simp [FitAll, ih, and_assoc]

/-- The record of a stored deal is found after every log. -/
theorem lookup_after_replay {log : List Statement} {db db' : Database} {id : UUID}
    (h : replay log db = .ok db') (hr : (db.deals.lookup id).isSome) :
    ∃ r, db'.deals.lookup id = some r := by
  have hsome : (rewrite id log (db.deals.lookup id)).isSome := rewrite_isSome hr
  rw [← replay_lookup h] at hsome
  exact Option.isSome_iff_exists.mp hsome

/-- What was free is still free, if nothing has taken it since. -/
theorem still_free {taken takenBefore : Bool} {takes : Prop}
    (h : taken = true → takenBefore = true ∨ takes) (hbefore : takenBefore = false)
    (hsince : ¬ takes) : taken = false := by
  refine Bool.eq_false_iff.mpr fun htaken => ?_
  rcases h htaken with hold | hnew
  · rw [hbefore] at hold
    cases hold
  · exact hsince hnew

/-- A statement that fits is executed. -/
theorem Statement.Fits.exec {st : Statement} {db d : Database} {pre : List Statement}
    (h : st.Fits db pre) (hpre : replay pre db = .ok d) : ∃ d', st.exec d = .ok d' := by
  cases st with
  | insertDeal id row => exact h.elim
  | updateDeal id ch now =>
    obtain ⟨r, hr⟩ := lookup_after_replay hpre h.1
    simp [Statement.exec, hr, h.2]
  | deletePayments id ids =>
    cases hr : d.deals.lookup id <;> simp [Statement.exec, hr]
  | insertPayment id p =>
    obtain ⟨hid, hfresh, hdistinct, hcurrency⟩ := h
    obtain ⟨r, hr⟩ := lookup_after_replay hpre hid
    have hnot : d.hasPayment p.id = false := by
      refine still_free (hasPayment_of_replay hpre) hfresh ?_
      rintro ⟨j, q, hq, heq⟩
      exact hdistinct j q hq heq
    rw [← replay_nsi hpre] at hcurrency
    obtain ⟨c, hc⟩ := Option.isSome_iff_exists.mp hcurrency
    simp [Statement.exec, hr, hnot, hc]
  | insertSolution id s =>
    obtain ⟨⟨r, hr, hnone⟩, hfresh, hdistinct⟩ := h
    obtain ⟨r', hr'⟩ := lookup_after_replay hpre (Option.isSome_of_eq_some hr)
    have hnone' : r'.solution.isSome = false := by
      refine still_free (solution_of_replay hpre hr hr') (by rw [hnone]; rfl) ?_
      rintro ⟨j, q, hq⟩
      exact hdistinct j q hq
    have hnot : d.hasSolution s.id = false := by
      refine still_free (hasSolution_of_replay hpre) hfresh ?_
      rintro ⟨j, q, hq, -⟩
      exact hdistinct j q hq
    have hnone' : r'.solution = none := by simpa using hnone'
    simp [Statement.exec, hr', hnone', hnot]
  | updateSolution id ch =>
    obtain ⟨r, hr, hsome, hdeal⟩ := h
    obtain ⟨r', hr'⟩ := lookup_after_replay hpre (Option.isSome_of_eq_some hr)
    have hsome' : r'.solution.isSome := by
      by_contra hnone
      exact absurd hsome (solution_none_of_replay hpre hr hr' hdeal (by simpa using hnone))
    obtain ⟨row, payments, s⟩ := r'
    obtain ⟨s, rfl⟩ := Option.isSome_iff_exists.mp hsome'
    simp [Statement.exec, hr']
  | insertAudit entry =>
    obtain ⟨hfresh, hdistinct⟩ := h
    have hnot : d.audit.any (·.id = entry.id) = false := by
      rw [replay_audit hpre, List.any_append, hfresh, Bool.false_or]
      refine List.any_eq_false.mpr fun entry' hentry' => ?_
      obtain ⟨st, hst, hsome⟩ := List.mem_filterMap.mp hentry'
      cases st with
      | insertAudit e => cases hsome; simpa using hdistinct entry' hst
      | _ => cases hsome
    simp [Statement.exec, hnot]

/-- A log that fits after another one is replayed after it. -/
theorem exists_replay_after {pre log : List Statement} {db d : Database} (h : FitAll db pre log)
    (hpre : replay pre db = .ok d) : ∃ d', replay log d = .ok d' := by
  induction log generalizing pre d with
  | nil => exact ⟨d, rfl⟩
  | cons st log ih =>
    obtain ⟨hst, hlog⟩ := h
    obtain ⟨a, ha⟩ := hst.exec hpre
    have hstore : Store.exec st d = .ok a := exec_eq_ok.mpr ha
    have hpre' : replay (pre ++ [st]) db = .ok a :=
      replay_append_eq_ok.mpr ⟨d, hpre, by simp [replay, hstore]⟩
    obtain ⟨d', hd'⟩ := ih hlog hpre'
    exact ⟨d', by simp [replay, hstore, hd']⟩

/-- **A log that fits is replayed.** -/
theorem exists_replay_of_fitAll {log : List Statement} {db : Database} (h : FitAll db [] log) :
    ∃ d, replay log db = .ok d :=
  exists_replay_after h rfl

/-! ## Flushes -/

section Flushes

variable {db : Database} {pre : List Statement} {id : UUID}

theorem fitAll_updateStatements {ch : DealChanges} {now : Timestamp}
    (hid : (db.deals.lookup id).isSome) (hch : ch.counterpartyId = none) :
    FitAll db pre (updateStatements id ch now) := by
  by_cases h : ch = {}
  · simp [updateStatements, h, FitAll]
  · simp [updateStatements, h, FitAll, Statement.Fits, hid, hch]

theorem fitAll_deleteStatements {ids : List UUID} : FitAll db pre (deleteStatements id ids) := by
  by_cases h : ids = []
  · simp [deleteStatements, h, FitAll]
  · simp [deleteStatements, h, FitAll, Statement.Fits]

/-- Payments with ids of their own fit, if their currencies are known. -/
theorem fitAll_insertPayments {rows : List PaymentRow} (hid : (db.deals.lookup id).isSome)
    (hfresh : ∀ row ∈ rows, db.hasPayment row.id = false)
    (hcurrency : ∀ row ∈ rows, (db.nsi.currency? row.currencyCode.val).isSome)
    (hnodup : (rows.map PaymentRow.id).Nodup)
    (hpre : ∀ row ∈ rows, ∀ j q, .insertPayment j q ∈ pre → q.id ≠ row.id) :
    FitAll db pre (rows.map (.insertPayment id)) := by
  induction rows generalizing pre with
  | nil => trivial
  | cons row rows ih =>
    rw [List.map_cons, List.nodup_cons] at hnodup
    obtain ⟨hrow, hrows⟩ := List.forall_mem_cons.mp hpre
    refine ⟨⟨hid, hfresh row List.mem_cons_self, hrow, hcurrency row List.mem_cons_self⟩, ?_⟩
    refine ih (fun q hq => hfresh q (List.mem_cons_of_mem _ hq))
      (fun q hq => hcurrency q (List.mem_cons_of_mem _ hq)) hnodup.2 fun q hq j p hp heq => ?_
    rcases List.mem_append.mp hp with hold | hnew
    · exact hrows q hq j p hold heq
    · cases List.mem_singleton.mp hnew
      exact hnodup.1 (List.mem_map.mpr ⟨q, hq, heq.symm⟩)

/-- An entry with an id of its own fits after a log without entries. -/
theorem fitAll_insertAudit {entry : AuditLogEntry} (hfresh : db.audit.any (·.id = entry.id) = false)
    (hpre : ∀ entry', .insertAudit entry' ∈ pre → entry'.id ≠ entry.id) :
    FitAll db pre [.insertAudit entry] :=
  ⟨⟨hfresh, hpre⟩, trivial⟩

/-- What is pending can be written, if the columns can store it. -/
theorem exists_statements {p : Pending} (now : Timestamp)
    (hch : ∃ ch, DealChanges.between p.loaded p.deal = .ok ch)
    (hadded : ∀ payment ∈ p.added, payment.Storable)
    (hsolution : ∃ solution, p.solutionStatements now = .ok solution) :
    ∃ log, p.statements now = .ok log := by
  obtain ⟨ch, hch⟩ := hch
  obtain ⟨rows, hrows⟩ := exists_mapM_ofPayment_iff.mpr hadded
  obtain ⟨solution, hsolution⟩ := hsolution
  exact ⟨_, bind_eq_ok.mpr ⟨ch, hch, bind_eq_ok.mpr ⟨rows, hrows, bind_eq_ok.mpr
    ⟨solution, hsolution, rfl⟩⟩⟩⟩

/-- What was written could be stored. -/
theorem storable_of_statements {p : Pending} {now : Timestamp} {log : List Statement}
    (h : p.statements now = .ok log) : ∀ payment ∈ p.added, payment.Storable := by
  obtain ⟨ch, -, h⟩ := bind_eq_ok.mp h
  obtain ⟨rows, hrows, -⟩ := bind_eq_ok.mp h
  exact exists_mapM_ofPayment_iff.mp ⟨rows, hrows⟩

/-- A solution that was left alone is no obstacle. -/
theorem exists_solutionStatements {p : Pending} {now : Timestamp} (hnew : p.newSolution = none)
    (hsame : p.loaded.positionerSolution = p.deal.positionerSolution) :
    ∃ solution, p.solutionStatements now = .ok solution := by
  simp only [Pending.solutionStatements, hnew, hsame]
  cases p.deal.positionerSolution with
  | none => exact ⟨[], rfl⟩
  | some s => exact ⟨[], by simp [bind, Except.bind, pure, Except.pure]⟩

/-- An object that was left alone can be written. -/
theorem statements_unchanged_ne_error {deal : FXDeal} {now : Timestamp} {err : DbError}
    (h : ({ loaded := deal, deal } : Pending).statements now = .error err)
    (hnulled : deal.nulled = []) : ¬ ∀ s ∈ deal.positionerId, s.length ≤ 36 := by
  intro hpositioner
  obtain ⟨log, hlog⟩ := exists_statements now (p := { loaded := deal, deal })
    (exists_between_decided hnulled hpositioner) (fun _ h => by cases h)
    (exists_solutionStatements rfl rfl)
  rw [hlog] at h
  cases h

/-- A stored positioner can be stored again. -/
theorem positionerId_ofRecord_length (nsi : ReferenceData) (id : UUID) (r : DealRecord) :
    ∀ s ∈ (FXDeal.ofRecord nsi id r).positionerId, s.length ≤ 36 := by
  intro s hs
  obtain ⟨v, -, rfl⟩ := Option.map_eq_some_iff.mp hs
  exact v.fits

end Flushes

/-! ## Fair circumstances -/

/-- Circumstances in which nothing but the constraints of the tables stops a request: the database
rejects no call, no fault is injected, and the fresh identifiers are new. -/
structure Fair (env : Env) (db : Database) : Prop where
  calm : ∀ n, rejects env n = false
  unfaulted : env.settings.paymentSaveFaultAfter = none
  distinct : Function.Injective env.uuid
  payments : ∀ n, db.hasPayment (env.uuid n) = false
  solutions : ∀ n, db.hasSolution (env.uuid n) = false
  audit : ∀ n, db.audit.any (·.id = env.uuid n) = false

/-- The payments, solutions and entries of the database have ids below a bound. -/
def Database.idsBelow (db : Database) (bound : UUID) : Bool :=
  db.deals.entries.all (fun e =>
      e.2.payments.all (fun p => decide (p.id < bound)) &&
        e.2.solution.all fun s => decide (s.id < bound)) &&
    db.audit.all fun entry => decide (entry.id < bound)

/-- Identifiers above a bound are new to what lies below it. -/
theorem Fair.of_idsBelow {env : Env} {db : Database} {bound : UUID}
    (hcalm : ∀ n, rejects env n = false) (hunfaulted : env.settings.paymentSaveFaultAfter = none)
    (hdistinct : Function.Injective env.uuid) (habove : ∀ n, bound ≤ env.uuid n)
    (h : db.idsBelow bound = true) : Fair env db := by
  simp only [Database.idsBelow, Bool.and_eq_true, List.all_eq_true, decide_eq_true_eq,
    Option.all_eq_true] at h
  obtain ⟨hdeals, haudit⟩ := h
  refine ⟨hcalm, hunfaulted, hdistinct, fun n => ?_, fun n => ?_, fun n => ?_⟩
  · refine List.any_eq_false.mpr fun e he => ?_
    simp only [List.any_eq_true, decide_eq_true_eq, not_exists, not_and]
    exact fun p hp heq => Nat.not_lt.mpr (habove n) (heq ▸ (hdeals e he).1 p hp)
  · refine List.any_eq_false.mpr fun e he => ?_
    simp only [Option.any_eq_true, decide_eq_true_eq, not_exists, not_and]
    exact fun s hs heq => Nat.not_lt.mpr (habove n) (heq ▸ (hdeals e he).2 s hs)
  · refine List.any_eq_false.mpr fun entry hentry => ?_
    simp only [decide_eq_true_eq]
    exact fun heq => Nat.not_lt.mpr (habove n) (heq ▸ haudit entry hentry)

/-- Every database leaves identifiers unused. -/
theorem Database.exists_idsBelow (db : Database) : ∃ bound, db.idsBelow bound = true := by
  let used : List UUID :=
    db.deals.entries.flatMap (fun e => e.2.payments.map PaymentRow.id ++
      (e.2.solution.map PositionerSolutionRow.id).toList) ++ db.audit.map AuditLogEntry.id
  obtain ⟨bound, hbound⟩ := used.toFinset.exists_nat_subset_range
  have hused : ∀ x ∈ used, x < bound := fun x hx =>
    Finset.mem_range.mp (hbound (List.mem_toFinset.mpr hx))
  refine ⟨bound, ?_⟩
  simp only [Database.idsBelow, Bool.and_eq_true, List.all_eq_true, decide_eq_true_eq,
    Option.all_eq_true]
  refine ⟨fun e he => ⟨fun p hp => hused _ ?_, fun s hs => hused _ ?_⟩, fun entry hentry =>
    hused _ (List.mem_append_right _ (List.mem_map_of_mem hentry))⟩
  · exact List.mem_append_left _ (List.mem_flatMap.mpr
      ⟨e, he, List.mem_append_left _ (List.mem_map_of_mem hp)⟩)
  · refine List.mem_append_left _ (List.mem_flatMap.mpr ⟨e, he, List.mem_append_right _ ?_⟩)
    rw [hs]
    exact List.mem_singleton_self _

end FxDealManager
