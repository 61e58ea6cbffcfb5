import FxDealManager.Lifecycle.Execution
import FxDealManager.Lifecycle.Settlement
import FxDealManager.Validation.Window

/-!
# The dates of forward deals

The value date of a `FORWARD` deal is for the trader to give. A validation stores the date that it
computes for a deal of another type in the same column, and a later validation of the deal as
`FORWARD` reads this column. As long as none reads a computed date there, the date of every valid
`FORWARD` deal is the last one that a body has given.

## Main definitions

* `bodyDate`: the value date in the body of a turn
* `DateSource`, `dateSources`: where the stored value date of a deal has come from
* `ChecksForward`: the turn checks the value date of a `FORWARD` deal

## Main results

* `step_date`: what an input does to the value date of a deal
* `forward_date_given`: the dates of valid `FORWARD` deals, in every run
* `forward_date_computed`: a run in which a computed date passes for a given one
-/

namespace FxDealManager

open DecimalArithmetic Transactional

/-! ## Where a date comes from -/

/-- The operation on the deal that the turn served with success. -/
def servedOn (id : UUID) (t : ServiceTurn) : Option Operation :=
  match t.input with
  | .referenceData _ => none
  | .request _ _ op =>
    if op.deal? = some id ∧ t.output.any (fun outcome => outcome.result.toBool) then some op
    else none

/-- The value date in the body that created the deal. -/
def creationDate (id : UUID) (t : ServiceTurn) : Field Date :=
  match t.input with
  | .request _ _ (.create payload) =>
    if (t.before.deals.lookup id).isNone && (t.after.deals.lookup id).isSome then
      payload.valueDate.elim .null .value
    else .absent
  | _ => .absent

/-- The value date in the body that created or updated the deal. -/
def bodyDate (id : UUID) (t : ServiceTurn) : Field Date :=
  match servedOn id t with
  | some (.update _ payload) => payload.valueDate
  | _ => creationDate id t

/-- The value in a field of a body. -/
def Field.value? {α : Type} : Field α → Option α
  | .absent | .null => none
  | .value a => some a

/-- The last value date, other than null, in a body that created or updated the deal. -/
def lastBodyDate (id : UUID) (history : List ServiceTurn) : Option Date :=
  (history.filterMap fun t => (bodyDate id t).value?).getLast?

/-- Where a stored value date has come from: a body has given it or cleared it, or a validation has
computed it for a deal that is not `FORWARD`. -/
inductive DateSource where
  | given (d : Date)
  | cleared
  | computed
deriving DecidableEq, Repr

/-- The source that a field of a body is. -/
def Field.source : Field Date → Option DateSource
  | .absent => none
  | .null => some .cleared
  | .value d => some (.given d)

/-- The source that a turn is of the value date of the deal. -/
def dateSource (id : UUID) (t : ServiceTurn) : Option DateSource :=
  match servedOn id t with
  | some (.validate _) =>
    if (t.before.deals.lookup id).any fun r => r.row.dealType ≠ .forward then some .computed
    else none
  | _ => (bodyDate id t).source

/-- The sources of the value date of the deal, the last one being that of the stored date. -/
def dateSources (id : UUID) (history : List ServiceTurn) : List DateSource :=
  history.filterMap (dateSource id)

/-- The date that a body has given. -/
def DateSource.date? : DateSource → Option Date
  | .given d => some d
  | .cleared | .computed => none

/-- The value date is as its source has left it. -/
def DateSource.Leaves : DateSource → Option Date → Prop
  | .given d, valueDate => valueDate = some d
  | .cleared, valueDate => valueDate = none
  | .computed, _ => True

/-- The turn validates a `FORWARD` deal in `DRAFT` for a user who may do so. -/
def ChecksForward (id : UUID) (t : ServiceTurn) : Prop :=
  ∃ env user r, t.input = .request env user (.validate id) ∧
    user.role ∈ (Operation.validate id).roles ∧ t.before.deals.lookup id = some r ∧
      Entitled user r.row ∧ r.row.dealState = .draft ∧ r.row.dealType = .forward

section Sources

variable {id : UUID} {t : ServiceTurn}

theorem dateSources_append (id : UUID) (history : List ServiceTurn) (t : ServiceTurn) :
    dateSources id (history ++ [t]) = dateSources id history ++ (dateSource id t).toList := by
  rw [dateSources, List.filterMap_append]
  cases h : dateSource id t <;> simp [dateSources, h]

theorem lastBodyDate_append (id : UUID) (history : List ServiceTurn) (t : ServiceTurn) :
    lastBodyDate id (history ++ [t]) = (bodyDate id t).value?.or (lastBodyDate id history) := by
  rw [lastBodyDate, List.filterMap_append, List.getLast?_append]
  cases h : (bodyDate id t).value? <;> simp [lastBodyDate, h]

/-- What was served on a deal was no creation. -/
theorem creationDate_of_servedOn {op : Operation} (h : servedOn id t = some op) :
    creationDate id t = .absent := by
  obtain ⟨before, input, output, after⟩ := t
  cases input with
  | referenceData nsi => rfl
  | request env user op' =>
    cases op' with
    | create payload => simp [servedOn, Operation.deal?] at h
    | _ => rfl

/-- The body has given a date if and only if the date has come from it. -/
theorem value?_bodyDate : (bodyDate id t).value? = (dateSource id t).bind DateSource.date? := by
  have hsource : ∀ field : Field Date, field.value? = field.source.bind DateSource.date? := by
    intro field
    cases field <;> rfl
  cases hserved : servedOn id t with
  | none => simp only [dateSource, hserved, hsource]
  | some op =>
    cases op with
    | validate dealId =>
      simp only [bodyDate, dateSource, hserved, creationDate_of_servedOn hserved]
      split <;> rfl
    | _ => simp only [dateSource, hserved, hsource]

/-- A turn is no source if it neither created the deal nor updated or validated it with success. -/
theorem dateSource_eq_none (hold : (t.before.deals.lookup id).isSome)
    (h : ∀ op ∈ servedOn id t, op.writesContract = false) : dateSource id t = none := by
  have hcreation : creationDate id t = .absent := by
    have hnot : (t.before.deals.lookup id).isNone = false := by simpa using hold
    rw [creationDate]
    split
    · rw [hnot]; rfl
    · rfl
  cases hserved : servedOn id t with
  | none => simp only [dateSource, bodyDate, hserved, hcreation, Field.source]
  | some op =>
    have hop := h op hserved
    cases op with
    | update dealId payload | validate dealId => cases hop
    | _ => simp only [dateSource, bodyDate, hserved, hcreation, Field.source]

theorem succeeds_of_servedOn {op : Operation} (h : servedOn id t = some op) :
    op.deal? = some id ∧ ∃ user, Succeeds op user t := by
  obtain ⟨before, input, output, after⟩ := t
  cases input with
  | referenceData nsi => cases h
  | request env user op' =>
    obtain ⟨⟨hdeal, hok⟩, rfl⟩ : (op'.deal? = some id ∧ _) ∧ op' = op := by
      simpa [servedOn] using h
    obtain ⟨outcome, houtput, hok⟩ := (Option.any_eq_true _ _).mp hok
    obtain ⟨response, hok⟩ := exists_ok_of_toBool hok
    exact ⟨hdeal, user, env, outcome, response, rfl, houtput, hok⟩

end Sources

/-! ## What an input does -/

/-- What an input does to the value date of a deal that it leaves behind: the date has a new source,
and the deal is no valid `FORWARD` deal; or the date is as it was, and the deal has become a valid
`FORWARD` deal at most by a check of this date. -/
inductive DateStep (id : UUID) (t : ServiceTurn) : Option DealRecord → DealRecord → Prop
  | dated {r : Option DealRecord} {r' : DealRecord} {source : DateSource}
      (hsource : dateSource id t = some source) (hleaves : source.Leaves r'.row.valueDate)
      (hforward : r'.row.dealType = .forward → r'.row.validationStatus ≠ .valid) :
      DateStep id t r r'
  | kept {r r' : DealRecord} (hsource : dateSource id t = none)
      (hdate : r'.row.valueDate = r.row.valueDate)
      (hforward : r'.row.dealType = .forward → r'.row.validationStatus = .valid →
        r.row.dealType = .forward ∧ r.row.validationStatus = .valid ∨ ChecksForward id t) :
      DateStep id t (some r) r'

theorem assign_valueDate {β : Type} {column : String} {field : Field β} {set : β → FXDeal → FXDeal}
    (hset : ∀ a deal, (set a deal).valueDate = deal.valueDate) (deal : FXDeal) :
    (assign column field set deal).valueDate = deal.valueDate := by
  cases field with
  | absent | null => rfl
  | value a => exact hset a deal

/-- The value date of an edited deal is the one of the body, if this has the field. -/
theorem edited_valueDate (payload : DealUpdateRequest) (deal : FXDeal) :
    (payload.edited deal).valueDate =
      match payload.valueDate with
      | .absent => deal.valueDate
      | .null => none
      | .value d => some d := by
  have hcomment : ∀ deal : FXDeal, (payload.assignComment deal).valueDate = deal.valueDate := by
    intro deal
    rw [DealUpdateRequest.assignComment]
    cases payload.comment <;> rfl
  simp only [DealUpdateRequest.edited, hcomment, DealUpdateRequest.assignTerms,
    assign_valueDate, implies_true]
  cases payload.valueDate <;> simp [assignNullable, assign_valueDate]

theorem edited_write_valueDate {nsi : ReferenceData} {id : UUID} {r : DealRecord} {ch : DealChanges}
    {payload : DealUpdateRequest} {now : Timestamp}
    (h : ch.Assigns (FXDeal.ofRecord nsi id r) (payload.edited (FXDeal.ofRecord nsi id r))) :
    (ch.write now r.row).valueDate = (payload.edited (FXDeal.ofRecord nsi id r)).valueDate := by
  rw [DealChanges.write_valueDate, h.valueDate]
  exact getD_changedTo _ _

/-- What a change does to the value date, in a turn that served its operation if it succeeded. -/
theorem Change.dateStep {env : Env} {user : UserClaims} {nsi : ReferenceData} {id : UUID}
    {r r' : DealRecord} {op : Operation} {result : Except ServiceError DealResponse}
    {added : List AuditLogEntry} {t : ServiceTurn}
    (h : Change env user nsi id r r op result r' added) (hinput : t.input = .request env user op)
    (hrole : user.role ∈ op.roles) (hr : t.before.deals.lookup id = some r)
    (hserved : servedOn id t = if op.deal? = some id ∧ result.toBool then some op else none) :
    DateStep id t (some r) r' := by
  have hnone : (result.toBool = true → op.writesContract = false) → dateSource id t = none := by
    intro hwrites
    refine dateSource_eq_none (by rw [hr]; rfl) fun op' hop' => ?_
    rw [hserved] at hop'
    obtain ⟨⟨-, hok⟩, heq⟩ := Option.ite_none_right_eq_some.mp hop'
    exact Option.some.inj heq ▸ hwrites hok
  cases h with
  | @edited payload ch _ _ hstate _ hch _ =>
    rw [if_pos ⟨rfl, rfl⟩] at hserved
    have hsource : dateSource id t = payload.valueDate.source := by
      simp only [dateSource, bodyDate, hserved]
    have hstatus : (ch.write env.now r.row).validationStatus ≠ .valid := by
      simp [hch.validationStatus]
    have hdate : (ch.write env.now r.row).valueDate = _ :=
      (edited_write_valueDate hch).trans (edited_valueDate payload (FXDeal.ofRecord nsi id r))
    cases hfield : payload.valueDate with
    | absent =>
      rw [hfield] at hsource hdate
      exact .kept hsource hdate fun _ hvalid => absurd hvalid hstatus
    | null | value d =>
      rw [hfield] at hsource hdate
      exact .dated hsource hdate fun _ => hstatus
  | invalidated _ _ _ _ =>
    refine .kept (hnone fun h => by cases h) (by simp) fun _ hstatus => ?_
    simp at hstatus
  | @validated valueDate _ _ _ _ huser hvalid _ _ _ =>
    rw [if_pos ⟨rfl, rfl⟩] at hserved
    by_cases htype : r.row.dealType = .forward
    · have hsource : dateSource id t = none := by
        simp [dateSource, hserved, hr, htype]
      have hdate : r.row.valueDate = some valueDate := by
        obtain ⟨_, _, _, _, hcalculated⟩ := hvalid.settled
        rw [show (FXDeal.ofRecord nsi id r).loadedDealType = .forward from htype,
          forward_eq_ok_iff] at hcalculated
        exact hcalculated.1
      refine .kept hsource (by simp [hdate]) fun _ _ => .inr ?_
      exact ⟨env, user, r, hinput, hrole, hr, huser, (of_validate_eq_nil hvalid.issues).1, htype⟩
    · have hsource : dateSource id t = some .computed := by
        simp [dateSource, hserved, hr, htype]
      exact .dated hsource trivial fun hforward => absurd (by simpa using hforward) htype
  | moved hmoves _ _ =>
    have hwrites : op.writesContract = false := by cases hmoves <;> rfl
    exact .kept (hnone fun _ => hwrites) rfl fun htype hstatus => .inl ⟨htype, hstatus⟩
  | decided hdecision _ =>
    have hwrites : op.writesContract = false := by
      cases hdecision with
      | declined hdeclines _ _ _ => cases hdeclines <;> rfl
      | unsent _ _ _ _ | sent _ _ _ _ _ => rfl
    exact .kept (hnone fun _ => hwrites) rfl fun htype hstatus => .inl ⟨htype, hstatus⟩

/-- **What an input does to the value date of a deal**. -/
theorem step_date {db : Database} {input : Input} {id : UUID} {r' : DealRecord}
    (hr' : (step db input).2.deals.lookup id = some r') :
    DateStep id (turn step db input) (db.deals.lookup id) r' := by
  refine forall_deals_turn (P := fun id r' _ =>
    DateStep id (turn step db input) (db.deals.lookup id) r') ?_ ?_ ?_ id r' hr'
  · intro env user payload id row entry hop hr' hnew hrow _
    have hstored := ofDeal_eq_ok hrow
    have hcreation : dateSource id (turn step db input) =
        some (payload.valueDate.elim .cleared .given) := by
      have hsome : ((step db input).2.deals.lookup id).isSome := by rw [hr']; rfl
      subst hop
      cases hdate : payload.valueDate <;>
        simp [dateSource, bodyDate, servedOn, creationDate, turn, Operation.deal?, hnew, hsome,
          hdate, Field.source]
    refine .dated hcreation ?_ fun _ => by simp [hstored.validationStatus, newDeal]
    have hdate : row.valueDate = payload.valueDate := hstored.valueDate
    cases hpayload : payload.valueDate <;> exact hdate.trans hpayload
  · intro env user op id outcome after result r r' added hop hstep hresult _ hrole hr hchange
    rw [hr]
    subst hop hresult
    exact hchange.dateStep rfl hrole hr (by simp [servedOn, turn, hstep])
  · intro id r hr hother
    rw [hr]
    refine .kept (dateSource_eq_none (by simp [turn, hr]) fun op hop => ?_) rfl
      fun htype hstatus => .inl ⟨htype, hstatus⟩
    obtain ⟨hdeal, user, hsucceeds⟩ := succeeds_of_servedOn hop
    exact absurd hsucceeds (hother op user hdeal)

/-! ## The invariant -/

/-- **The invariant of a value date**: it is as its last source has left it, and the last date that
a body has given if it has come from a body; a valid `FORWARD` deal has no computed date. -/
structure DateInv (id : UUID) (history : List ServiceTurn) (r : DealRecord) : Prop where
  dated : ∃ source, (dateSources id history).getLast? = some source ∧
    source.Leaves r.row.valueDate ∧ ∀ d ∈ source.date?, lastBodyDate id history = some d
  forward : r.row.dealType = .forward → r.row.validationStatus = .valid →
    (dateSources id history).getLast? ≠ some .computed

theorem DateInv.next {id : UUID} {history : List ServiceTurn} {t : ServiceTurn}
    {before : Option DealRecord} {r' : DealRecord} (h : ∀ r ∈ before, DateInv id history r)
    (hstep : DateStep id t before r')
    (hcheck : ChecksForward id t → (dateSources id history).getLast? ≠ some .computed) :
    DateInv id (history ++ [t]) r' := by
  cases hstep with
  | @dated _ _ source hsource hleaves hforward =>
    refine ⟨⟨source, ?_, hleaves, fun d hd => ?_⟩, fun htype hstatus => ?_⟩
    · rw [dateSources_append, hsource]
      simp
    · rw [lastBodyDate_append, value?_bodyDate, hsource, Option.bind_some, hd]
      rfl
    · exact absurd hstatus (hforward htype)
  | @kept r _ hsource hdate hforward =>
    have hinv := h r rfl
    obtain ⟨source, hlast, hleaves, hgiven⟩ := hinv.dated
    have hsources : dateSources id (history ++ [t]) = dateSources id history := by
      rw [dateSources_append, hsource, Option.toList_none, List.append_nil]
    refine ⟨⟨source, hsources ▸ hlast, hdate ▸ hleaves, fun d hd => ?_⟩,
      fun htype hstatus => hsources ▸ ?_⟩
    · rw [lastBodyDate_append, value?_bodyDate, hsource]
      exact hgiven d hd
    · rcases hforward htype hstatus with ⟨htype, hstatus⟩ | hchecks
      · exact hinv.forward htype hstatus
      · exact hcheck hchecks

/-- **The date of a `FORWARD` deal is the trader's own**, in every run in which no validation finds
the deal as `FORWARD` with a value date that an earlier one computed: while the deal is `FORWARD`
and valid, its value date is the last one that a body has given, and no other has come since. -/
theorem forward_date_given {nsi : ReferenceData} {history : List ServiceTurn} {db : Database}
    (h : Run step (Database.initial nsi) history db) {id : UUID}
    (hcheck : ∀ past t later, history = past ++ t :: later → ChecksForward id t →
      (dateSources id past).getLast? ≠ some .computed) :
    ∀ r, db.deals.lookup id = some r → r.row.dealType = .forward →
      r.row.validationStatus = .valid → ∃ d, r.row.valueDate = some d ∧
        lastBodyDate id history = some d ∧ (dateSources id history).getLast? = some (.given d) := by
  have hinv : ∀ r, db.deals.lookup id = some r → DateInv id history r := by
    revert hcheck
    refine Run.invariant (P := fun history db =>
      (∀ past t later, history = past ++ t :: later → ChecksForward id t →
        (dateSources id past).getLast? ≠ some .computed) →
          ∀ r, db.deals.lookup id = some r → DateInv id history r) ?_ ?_ h
    · intro _ r hr
      simp at hr
    · intro history db input hP hcheck r' hr'
      refine .next (fun r hr => hP ?_ r hr) (step_date hr') (hcheck history _ [] rfl)
      rintro past t later rfl
      exact hcheck past t (later ++ [turn step db input]) (by simp)
  intro r hr htype hstatus
  obtain ⟨source, hlast, hleaves, hgiven⟩ := (hinv r hr).dated
  cases source with
  | given d => exact ⟨d, hleaves, hgiven d rfl, hlast⟩
  | computed => exact absurd hlast ((hinv r hr).forward htype hstatus)
  | cleared =>
    have hpayments := paymentsInv_run h id r hr nsi
    obtain ⟨_, _, _, _, _, hdate, -⟩ := hpayments.settled.resolve_left (hpayments.valid hstatus)
    rw [show r.row.valueDate = none from hleaves] at hdate
    cases hdate

namespace Desk

/-- A body that makes a deal `FORWARD` and leaves the rest as it is. -/
def forwardEdit : DealUpdateRequest := { unchanged with dealType := .value .forward }

/-- The trader creates a `FORWARD` deal for the next day and has it validated. -/
def forwardValidation : List Input :=
  [.request (env 1) trader (.create forwardPayload), .request (env 2) trader (.validate dealId)]

/-- The validated deal is made `FORWARD`, without a value date, and is validated again. -/
def forwardRevalidation : List Input :=
  validation ++ [.request (env 3) trader (.update dealId forwardEdit),
    .request (env 4) trader (.validate dealId)]

/-- The `FORWARD` deal of the desk. -/
def forward : DealRecord :=
  ((after forwardValidation).deals.lookup dealId).get (by decide +kernel)

/-- The deal that has become `FORWARD`. -/
def turnedForward : DealRecord :=
  ((after forwardRevalidation).deals.lookup dealId).get (by decide +kernel)

end Desk

/-- The value date of the `FORWARD` deal of the desk. -/
theorem forward_date_given_desk :
    ∃ d, Desk.forward.row.valueDate = some d ∧
      lastBodyDate Desk.dealId
        (history step (Database.initial Desk.nsi) Desk.forwardValidation) = some d ∧
      (dateSources Desk.dealId (history step (Database.initial Desk.nsi)
        Desk.forwardValidation)).getLast? = some (.given d) := by
  have hrun : Run step (Database.initial Desk.nsi) _ (Desk.after Desk.forwardValidation) :=
    run_serveAll step (Database.initial Desk.nsi) Desk.forwardValidation
  refine forward_date_given hrun ?_ Desk.forward (Option.some_get _).symm (by decide +kernel)
    (by decide +kernel)
  have hsources : dateSources Desk.dealId (history step (Database.initial Desk.nsi)
      Desk.forwardValidation) = [.given ⟨738901, by decide⟩] := by
    decide +kernel
  rintro past t later heq - hlast
  have hmem : DateSource.computed ∈ dateSources Desk.dealId (past ++ t :: later) := by
    rw [dateSources, List.filterMap_append]
    exact List.mem_append_left _ (List.mem_of_getLast? hlast)
  rw [← heq, hsources] at hmem
  cases List.mem_singleton.mp hmem

/-- A deal that is validated, made `FORWARD` and validated again is valid, with a computed date and
without a date in any body. -/
theorem forward_date_computed :
    ¬ ∀ (nsi : ReferenceData) (history : List ServiceTurn) (db : Database),
      Run step (Database.initial nsi) history db →
        ∀ id r, db.deals.lookup id = some r → r.row.dealType = .forward →
          r.row.validationStatus = .valid →
            ∃ d, r.row.valueDate = some d ∧ lastBodyDate id history = some d := by
  intro h
  obtain ⟨d, -, hd⟩ := h Desk.nsi _ _
    (run_serveAll step (Database.initial Desk.nsi) Desk.forwardRevalidation) Desk.dealId
    Desk.turnedForward (Option.some_get _).symm (by decide +kernel) (by decide +kernel)
  have hnone : lastBodyDate Desk.dealId
      (history step (Database.initial Desk.nsi) Desk.forwardRevalidation) = none := by
    decide +kernel
  rw [hnone] at hd
  cases hd

end FxDealManager
