import FxDealManager.Lifecycle.Edits

/-!
# The numbers that were entered

A body may have an amount and a rate with any number of digits. Their columns round them to two and
six places, and what is read afterwards, by a validation as well, is the rounded number. In every
run a deal has the last numbers that were entered, if they had no more places than this.

## Main definitions

* `DealNumber`: a number of a deal, in the bodies, in the object, and in the row
* `DealNumber.entered`, `DealNumber.lastEntered`: the number in the body of a turn, and the last one

## Main results

* `step_number`: what an input does to a number
* `lastEntered_stored`: the column holds the last number, rounded
* `numbers_kept_iff`: when the last amount and rate are read as they were entered
* `amount_rounded`: an amount that is read as another one
-/

namespace FxDealManager

open DecimalArithmetic Transactional

/-! ## Numbers of a deal -/

/-- A number of a deal: where the bodies, the object and the row have it. Only an edit changes the
column, and it stores what the body sets. -/
structure DealNumber (p s : ℕ) where
  created : DealCreateRequest → Decimal
  updated : DealUpdateRequest → Field Decimal
  object : FXDeal → Decimal
  column : FXDealRow → Numeric p s
  change : DealChanges → Option (Numeric p s)
  created_pos : ∀ payload, (created payload).positive = true
  updated_pos : ∀ payload a, updated payload = .value a → a.positive = true
  loaded : ∀ nsi id r, object (FXDeal.ofRecord nsi id r) = (column r.row).toDecimal
  edited : ∀ payload deal,
    object (payload.edited deal) = (updated payload).value?.getD (object deal)
  inserted : ∀ {now id payload user row}, FXDealRow.Stores now (newDeal id payload user) row →
    Numeric.ofDecimal (created payload) = some (column row)
  assigned : ∀ {old new ch}, DealChanges.Assigns old new ch →
    Assigned ((object old).same (object new)) Numeric.ofDecimal (object new) (change ch)
  applied : ∀ ch now row, column (ch.apply now row) = (change ch).getD (column row)
  decided : ∀ v s d p,
    change { valueDate := v, validationStatus := s, dealState := d, positionerId := p } = none

/-- The amount of a deal. -/
def dealAmount : DealNumber 18 2 where
  created := DealCreateRequest.amount
  updated := DealUpdateRequest.amount
  object := FXDeal.amount
  column := FXDealRow.amount
  change := DealChanges.amount
  created_pos := DealCreateRequest.amount_pos
  updated_pos := DealUpdateRequest.amount_pos
  loaded _ _ _ := rfl
  edited := DealUpdateRequest.edited_amount
  inserted h := h.amount
  assigned h := h.amount
  applied _ _ _ := rfl
  decided _ _ _ _ := rfl

/-- The rate of a deal. -/
def dealRate : DealNumber 18 6 where
  created := DealCreateRequest.rate
  updated := DealUpdateRequest.rate
  object := FXDeal.rate
  column := FXDealRow.rate
  change := DealChanges.rate
  created_pos := DealCreateRequest.rate_pos
  updated_pos := DealUpdateRequest.rate_pos
  loaded _ _ _ := rfl
  edited := DealUpdateRequest.edited_rate
  inserted h := h.rate
  assigned h := h.rate
  applied _ _ _ := rfl
  decided _ _ _ _ := rfl

/-- The body that has created the deal. -/
def creationBody (id : UUID) (t : ServiceTurn) : Option DealCreateRequest :=
  match t.input with
  | .request _ _ (.create payload) =>
    if (t.before.deals.lookup id).isNone && (t.after.deals.lookup id).isSome then some payload
    else none
  | _ => none

section Number

variable {p s : ℕ} (f : DealNumber p s)

namespace DealNumber

/-- The number in the body that created or updated the deal. -/
def entered (id : UUID) (t : ServiceTurn) : Option Decimal :=
  match servedOn id t with
  | some (.update _ payload) => (f.updated payload).value?
  | _ => (creationBody id t).map f.created

/-- The last number in a body that created or updated the deal. -/
def lastEntered (id : UUID) (history : List ServiceTurn) : Option Decimal :=
  (history.filterMap (f.entered id)).getLast?

theorem lastEntered_append (id : UUID) (history : List ServiceTurn) (t : ServiceTurn) :
    f.lastEntered id (history ++ [t]) = (f.entered id t).or (f.lastEntered id history) := by
  rw [lastEntered, List.filterMap_append, List.getLast?_append]
  cases h : f.entered id t <;> simp [lastEntered, h]

/-- The column after the update of a flush. -/
theorem column_write (ch : DealChanges) (now : Timestamp) (row : FXDealRow) :
    f.column (ch.write now row) = (f.change ch).getD (f.column row) := by
  rw [DealChanges.write_column ch now row f.column ?_, f.applied]
  rw [f.applied, show f.change {} = none from f.decided none none none none, Option.getD_none]

/-- No number is entered where a deal is there before and no update of it succeeds. -/
theorem entered_eq_none {id : UUID} {t : ServiceTurn} (hold : (t.before.deals.lookup id).isSome)
    (h : ∀ dealId payload, servedOn id t ≠ some (.update dealId payload)) :
    f.entered id t = none := by
  have hcreation : creationBody id t = none := by
    have hnot : (t.before.deals.lookup id).isNone = false := by simpa using hold
    rw [creationBody]
    split
    · rw [hnot]; rfl
    · rfl
  rw [entered]
  split
  next dealId payload hserved => exact absurd hserved (h dealId payload)
  · rw [hcreation]; rfl

/-- What an input does to a number of a deal that it leaves behind: the number was entered and the
column stores it, or the column is as it was. -/
inductive Step (id : UUID) (t : ServiceTurn) : Option DealRecord → DealRecord → Prop
  | entered {r : Option DealRecord} {r' : DealRecord} {a : Decimal}
      (hentered : f.entered id t = some a) (hpos : a.positive = true)
      (hstored : Numeric.ofDecimal a = some (f.column r'.row)) : Step id t r r'
  | kept {r r' : DealRecord} (hentered : f.entered id t = none)
      (hcolumn : f.column r'.row = f.column r.row) : Step id t (some r) r'

end DealNumber

/-- What a change does to a number, in a turn that served its operation if it succeeded. -/
theorem Change.numberStep {env : Env} {user : UserClaims} {nsi : ReferenceData} {id : UUID}
    {r r' : DealRecord} {op : Operation} {result : Except ServiceError DealResponse}
    {added : List AuditLogEntry} {t : ServiceTurn}
    (h : Change env user nsi id r r op result r' added) (hr : t.before.deals.lookup id = some r)
    (hserved : servedOn id t = if op.deal? = some id ∧ result.toBool then some op else none) :
    f.Step id t (some r) r' := by
  have hkept : (∀ dealId payload, op ≠ .update dealId payload) →
      f.column r'.row = f.column r.row → f.Step id t (some r) r' := by
    refine fun hop hcolumn => .kept (f.entered_eq_none (by rw [hr]; rfl) ?_) hcolumn
    intro dealId payload heq
    rw [hserved] at heq
    exact hop dealId payload (Option.some.inj (Option.ite_none_right_eq_some.mp heq).2)
  have happlied : ∀ v s d p now, f.column (DealChanges.apply
      { valueDate := v, validationStatus := s, dealState := d, positionerId := p } now r.row) =
        f.column r.row := by
    intro v s d p now
    rw [f.applied, f.decided, Option.getD_none]
  have hwritten : ∀ v s now, f.column (DealChanges.write
      { valueDate := v, validationStatus := s } now r.row) = f.column r.row := by
    intro v s now
    rw [f.column_write, show f.change { valueDate := v, validationStatus := s } = none from
      f.decided v s none none, Option.getD_none]
  cases h with
  | @edited payload ch _ _ _ _ hch _ =>
    rw [if_pos ⟨rfl, rfl⟩] at hserved
    have hentered : f.entered id t = (f.updated payload).value? := by
      simp only [DealNumber.entered, hserved]
    have hassigned := f.assigned hch
    rw [f.loaded, f.edited, f.loaded] at hassigned
    cases hfield : f.updated payload with
    | absent | null =>
      rw [hfield] at hentered hassigned
      refine .kept hentered ?_
      rw [f.column_write, hassigned.of_equal (Decimal.same_self _), Option.getD_none]
    | value a =>
      rw [hfield] at hentered hassigned
      have hpos := f.updated_pos payload a hfield
      refine .entered hentered hpos ?_
      rw [f.column_write]
      exact hassigned.ofDecimal_getD (Decimal.nonneg_of_positive hpos)
  | invalidated hop _ _ _ => exact hkept (by cases hop <;> simp) (hwritten _ _ _)
  | validated _ _ _ _ _ => exact hkept (by simp) (hwritten _ _ _)
  | moved hop _ _ => exact hkept (by cases hop <;> simp) (happlied none none _ none _)
  | decided hdecision _ =>
    refine hkept ?_ (happlied none none _ _ _)
    cases hdecision with
    | declined hop _ _ _ => cases hop <;> simp
    | unsent _ _ _ _ | sent _ _ _ _ _ => simp

/-- **What an input does to a number of a deal**. -/
theorem step_number {db : Database} {input : Input} {id : UUID} {r' : DealRecord}
    (hr' : (step db input).2.deals.lookup id = some r') :
    f.Step id (turn step db input) (db.deals.lookup id) r' := by
  refine forall_deals_turn (P := fun id r' _ =>
    f.Step id (turn step db input) (db.deals.lookup id) r') ?_ ?_ ?_ id r' hr'
  · intro env user payload id row entry hop hr' hnew hrow _
    have hsome : ((step db input).2.deals.lookup id).isSome := by rw [hr']; rfl
    subst hop
    refine .entered ?_ (f.created_pos payload) (f.inserted (ofDeal_eq_ok hrow))
    simp [DealNumber.entered, servedOn, creationBody, turn, Operation.deal?, hnew, hsome]
  · intro env user op id outcome after result r r' added hop hstep hresult _ _ hr hchange
    rw [hr]
    subst hop hresult
    exact hchange.numberStep f hr (by simp [servedOn, turn, hstep])
  · intro id r hr hother
    rw [hr]
    refine .kept (f.entered_eq_none (by simp [turn, hr]) fun dealId payload hserved => ?_) rfl
    obtain ⟨hdeal, user, hsucceeds⟩ := succeeds_of_servedOn hserved
    exact hother _ user hdeal hsucceeds

/-! ## Runs -/

/-- The column holds the last number that was entered, rounded to its places. -/
def DealNumber.Holds (id : UUID) (history : List ServiceTurn) (r : DealRecord) : Prop :=
  ∃ a, f.lastEntered id history = some a ∧ a.positive = true ∧
    Numeric.ofDecimal a = some (f.column r.row)

theorem DealNumber.Holds.next {id : UUID} {history : List ServiceTurn} {t : ServiceTurn}
    {before : Option DealRecord} {r' : DealRecord} (h : ∀ r ∈ before, f.Holds id history r)
    (hstep : f.Step id t before r') : f.Holds id (history ++ [t]) r' := by
  rw [DealNumber.Holds, f.lastEntered_append]
  cases hstep with
  | @entered _ _ a hentered hpos hstored => exact ⟨a, by rw [hentered]; rfl, hpos, hstored⟩
  | @kept r _ hentered hcolumn =>
    rw [hentered, hcolumn]
    exact h r rfl

/-- **In every run** the column of a deal holds the last number that was entered, rounded. -/
theorem lastEntered_stored {nsi : ReferenceData} {history : List ServiceTurn} {db : Database}
    (h : Run step (Database.initial nsi) history db) :
    ∀ id r, db.deals.lookup id = some r → f.Holds id history r := by
  refine Run.invariant (P := fun history db =>
    ∀ id r, db.deals.lookup id = some r → f.Holds id history r) ?_ ?_ h
  · intro id r hr
    simp at hr
  · intro history db input hP id r' hr'
    exact .next f (fun r hr => hP id r hr) (step_number f hr')

end Number

/-- **The last amount and rate that were entered are read again** if and only if they have no more
places than their columns. -/
theorem numbers_kept_iff {nsi : ReferenceData} {history : List ServiceTurn} {db : Database}
    (h : Run step (Database.initial nsi) history db) {id : UUID} {r : DealRecord}
    (hr : db.deals.lookup id = some r) {env : Env} (hcalm : rejects env 0 = false) :
    ∃ amount rate response, dealAmount.lastEntered id history = some amount ∧
      dealRate.lastEntered id history = some rate ∧
      ((getDeal id).run env db).1 = .ok response ∧
      (response.amount.same amount = true ↔ amount.hasPlaces 2 = true) ∧
      (response.rate.same rate = true ↔ rate.hasPlaces 6 = true) := by
  obtain ⟨amount, hamount, hamountPos, hamountStored⟩ := lastEntered_stored dealAmount h id r hr
  obtain ⟨rate, hrate, hratePos, hrateStored⟩ := lastEntered_stored dealRate h id r hr
  refine ⟨amount, rate, _, hamount, hrate, getDeal_run hr hcalm, ?_, ?_⟩
  · exact Numeric.same_ofDecimal_iff (Decimal.nonneg_of_positive hamountPos) hamountStored
  · exact Numeric.same_ofDecimal_iff (Decimal.nonneg_of_positive hratePos) hrateStored

namespace Desk

/-- The trader creates a deal whose amount has three places, and has it validated. -/
def impreciseValidation : List Input :=
  [.request (env 1) trader
      (.create { payload with amount := ⟨false, 1000005, -3⟩, amount_pos := by decide }),
    .request (env 2) trader (.validate dealId)]

/-- The deal with the rounded amount. -/
def imprecise : DealRecord :=
  ((after impreciseValidation).deals.lookup dealId).get (by decide +kernel)

end Desk

/-- The numbers of the desk are read as they were entered. -/
theorem numbers_kept_desk : ∃ amount rate response,
    dealAmount.lastEntered Desk.dealId
      (history step (Database.initial Desk.nsi) Desk.creation) = some amount ∧
    dealRate.lastEntered Desk.dealId
      (history step (Database.initial Desk.nsi) Desk.creation) = some rate ∧
    ((getDeal Desk.dealId).run (Desk.env 2) (Desk.after Desk.creation)).1 = .ok response ∧
    response.amount.same amount = true ∧ response.rate.same rate = true := by
  obtain ⟨amount, rate, response, hamount, hrate, hget, hiff, hiff'⟩ := numbers_kept_iff
    (run_serveAll step (Database.initial Desk.nsi) Desk.creation)
    Desk.lookup_draft (rfl : rejects (Desk.env 2) 0 = false)
  have hentered : dealAmount.lastEntered Desk.dealId
      (history step (Database.initial Desk.nsi) Desk.creation) = some Desk.payload.amount := by
    decide +kernel
  have hentered' : dealRate.lastEntered Desk.dealId
      (history step (Database.initial Desk.nsi) Desk.creation) = some Desk.payload.rate := by
    decide +kernel
  refine ⟨amount, rate, response, hamount, hrate, hget, hiff.mpr ?_, hiff'.mpr ?_⟩
  · rw [hentered] at hamount
    cases hamount
    decide
  · rw [hentered'] at hrate
    cases hrate
    decide

/-- An amount with three places is accepted, validated, and read as another one. -/
theorem amount_rounded :
    ¬ ∀ (nsi : ReferenceData) (history : List ServiceTurn) (db : Database),
      Run step (Database.initial nsi) history db → ∀ id r amount,
        db.deals.lookup id = some r → dealAmount.lastEntered id history = some amount →
          ∀ env, rejects env 0 = false → ∃ response,
            ((getDeal id).run env db).1 = .ok response ∧ response.amount.same amount = true := by
  intro h
  obtain ⟨response, hget, hsame⟩ := h Desk.nsi _ _
    (run_serveAll step (Database.initial Desk.nsi) Desk.impreciseValidation) Desk.dealId
    Desk.imprecise ⟨false, 1000005, -3⟩ (Option.some_get _).symm (by decide +kernel) (Desk.env 3)
    rfl
  have hread : ((getDeal Desk.dealId).run (Desk.env 3)
      (Desk.after Desk.impreciseValidation)).1.toOption.map
        (fun response => (response.amount, response.validationStatus)) =
      some (⟨false, 100001, -2⟩, .valid) := by
    decide +kernel
  rw [show ((getDeal Desk.dealId).run (Desk.env 3) (Desk.after Desk.impreciseValidation)).1 =
    .ok response from hget] at hread
  simp only [Except.toOption, Option.map_some, Option.some.injEq, Prod.mk.injEq] at hread
  rw [hread.1] at hsame
  revert hsame
  decide

end FxDealManager
