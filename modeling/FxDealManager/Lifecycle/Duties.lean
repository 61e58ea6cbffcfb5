import FxDealManager.Lifecycle.Transitions

/-!
# Separation of duties

The trader of a deal is the user who created it, for good, and only that user may update the deal.
An approval requires another user in the role of a positioner, whom it records in the deal; no
later operation touches an approved deal's positioner.

## Main definitions

* `Creates`, `Updates`: the turn created the deal, or changed its terms
* `Approves`: the turn approved the deal

## Main results

* `Change.traderId_eq`: no change is one of the trader
* `author_is_trader`: who creates or updates a deal is its trader
* `release_cases`: a released deal was released before, or it has just been approved
* `duties_separated`: the approver of a deal is none of its authors, in every run
-/

namespace FxDealManager

open DecimalArithmetic Transactional

/-- The turn created the deal, for the user. -/
def Creates (id : UUID) (user : UserClaims) (t : ServiceTurn) : Prop :=
  ∃ env payload, t.input = .request env user (.create payload) ∧
    t.before.deals.lookup id = none ∧ (t.after.deals.lookup id).isSome

/-- The turn changed the terms of the deal, for the user. -/
def Updates (id : UUID) (user : UserClaims) (t : ServiceTurn) : Prop :=
  ∃ payload, Succeeds (.update id payload) user t

/-- The turn approved the deal, by the user: a positioner or an administrator. -/
def Approves (id : UUID) (user : UserClaims) (t : ServiceTurn) : Prop :=
  IsPositioner user ∧ (∃ env, t.input = .request env user (.approve id)) ∧
    (∃ r, t.before.deals.lookup id = some r ∧ r.row.dealState = .waitingForPositioner) ∧
      ∃ r, t.after.deals.lookup id = some r ∧ r.row.dealState.released = true

/-! ## The trader -/

/-- No change is one of the trader. -/
theorem Change.traderId_eq {env : Env} {user : UserClaims} {nsi : ReferenceData} {id : UUID}
    {r₀ r r' : DealRecord} {op : Operation} {result : Except ServiceError DealResponse}
    {added : List AuditLogEntry} (h : Change env user nsi id r₀ r op result r' added) :
    r'.row.traderId = r.row.traderId := by
  cases h with
  | edited _ _ hch _ =>
    have htrader := hch.traderId.of_equal (by simp)
    simp [htrader]
  | invalidated _ _ _ _ => simp
  | validated _ _ _ _ _ => simp
  | moved _ _ _ => rfl
  | decided _ _ => rfl

theorem step_traderId {db : Database} {input : Input} {id : UUID} {r r' : DealRecord}
    (hr : db.deals.lookup id = some r) (hr' : (step db input).2.deals.lookup id = some r') :
    r'.row.traderId = r.row.traderId := by
  rcases step_change hr hr' with rfl | ⟨env, user, op, result, added, -, hchange⟩
  · rfl
  · exact hchange.traderId_eq

/-- Who creates or updates a deal is its trader. -/
theorem author_is_trader {db : Database} {input : Input} {id : UUID} {user : UserClaims}
    (h : Creates id user (turn step db input) ∨ Updates id user (turn step db input)) :
    ∃ r, (step db input).2.deals.lookup id = some r ∧ r.row.traderId.val = user.userId := by
  rcases h with ⟨env, payload, hinput, hbefore, hafter⟩ |
    ⟨payload, env, outcome, response, hinput, houtput, hok⟩
  · obtain rfl : input = .request env user (.create payload) := hinput
    simp only [turn, step] at hbefore hafter ⊢
    rcases execute_cases env user (.create payload) db with
      ⟨-, hdb⟩ | ⟨j, _, _, _, _, -, hexit, hreplay, houtcome⟩
    · rw [hdb, hbefore] at hafter
      cases hafter
    · rw [houtcome] at hafter ⊢
      by_cases hj : id = j
      · subst hj
        cases hexit with
        | created hrow _ => exact ⟨_, lookup_created hreplay, (ofDeal_eq_ok hrow).traderId⟩
        | invalidated _ hrejects _ _ _ => cases hrejects
        | moved _ hmoves _ _ _ => cases hmoves
        | declined _ hdeclines _ _ _ _ _ => cases hdeclines
      · rw [hexit.lookup_other hreplay hj, hbefore] at hafter
        cases hafter
  · obtain rfl : input = .request env user (.update id payload) := hinput
    simp only [turn, step, Option.some.injEq] at houtput ⊢
    rw [← houtput] at hok
    obtain ⟨j, log, sends, after, -, hexit, hreplay, houtcome⟩ := exit_of_ok hok
    rw [houtcome]
    cases hexit with
    | updated hr hstate hcreator hch he =>
      refine ⟨_, lookup_updated hreplay hr, ?_⟩
      have htrader := hch.traderId.of_equal (by simp)
      simpa [htrader] using hcreator
    | moved _ hmoves _ _ _ => cases hmoves
    | declined _ hdeclines _ _ _ _ _ => cases hdeclines

/-! ## The positioner -/

/-- The positioner that a decision sets is its user. -/
theorem SetsPositioner.stored {user : UserClaims} {row : FXDealRow}
    {p : Option (Option (Varchar 36))} (h : SetsPositioner user row p) :
    (p.getD row.positionerId).map Varchar.val = some user.userId := by
  by_cases heq : row.positionerId.map Varchar.val = some user.userId
  · rw [h.of_equal (decide_eq_true heq)]
    exact heq
  · simp only [SetsPositioner, Assigned, heq, decide_false, Bool.false_eq_true, if_false] at h
    obtain ⟨stored, hstored, rfl⟩ := h
    exact map_val_of_storeOptional hstored

/-- A released deal was released before the input and keeps its positioner, or the input is an
approval whose user it records. -/
theorem release_cases {db : Database} {input : Input} {id : UUID} {r' : DealRecord}
    (hr' : (step db input).2.deals.lookup id = some r')
    (hreleased : r'.row.dealState.released = true) :
    ∃ r, db.deals.lookup id = some r ∧
      ((r.row.dealState.released = true ∧ r'.row.positionerId = r.row.positionerId) ∨
        ∃ env user, input = .request env user (.approve id) ∧ Approvable user r.row ∧
          r'.row.positionerId.map Varchar.val = some user.userId) := by
  revert hreleased
  refine forall_records_step (P := fun id r' => r'.row.dealState.released = true →
    ∃ r, db.deals.lookup id = some r ∧
      ((r.row.dealState.released = true ∧ r'.row.positionerId = r.row.positionerId) ∨
        ∃ env user, input = .request env user (.approve id) ∧ Approvable user r.row ∧
          r'.row.positionerId.map Varchar.val = some user.userId)) ?_ ?_ ?_ id r' hr'
  · intro env user payload id row _ hrow hreleased
    simp [(ofDeal_eq_ok hrow).dealState, newDeal, DealState.released] at hreleased
  · intro env user op id result r r' added hop _ hr hchange hreleased
    cases hchange with
    | edited hstate _ hch _ => simp [hch.dealState, hstate, DealState.released] at hreleased
    | invalidated _ _ _ _ => exact ⟨r, hr, .inl (by simpa using hreleased)⟩
    | validated _ _ _ _ _ => exact ⟨r, hr, .inl (by simpa using hreleased)⟩
    | moved hmoves _ _ =>
      cases hmoves <;> simp [DealChanges.apply, DealState.released] at hreleased
    | decided hdecision hp =>
      cases hdecision with
      | declined _ _ _ _ => simp [DealChanges.apply, DealState.released] at hreleased
      | unsent happrovable _ _ _ => exact ⟨r, hr, .inr ⟨env, user, hop, happrovable, hp.stored⟩⟩
      | sent happrovable _ _ _ _ => exact ⟨r, hr, .inr ⟨env, user, hop, happrovable, hp.stored⟩⟩
  · intro id r hr hreleased
    exact ⟨r, hr, .inl ⟨hreleased, rfl⟩⟩

/-! ## The invariant -/

/-- The history agrees with the trader and the positioner of every deal. -/
structure Duties (history : List ServiceTurn) (db : Database) : Prop where
  trader : ∀ id user, (∃ t ∈ history, Creates id user t ∨ Updates id user t) →
    ∃ r, db.deals.lookup id = some r ∧ r.row.traderId.val = user.userId
  positioner : ∀ id r, db.deals.lookup id = some r → r.row.dealState.released = true →
    ∃ p, r.row.positionerId = some p ∧ p.val ≠ r.row.traderId.val ∧
      ∃ t ∈ history, ∃ user, Approves id user t ∧ user.userId = p.val

theorem duties_step {history : List ServiceTurn} {db : Database} {input : Input}
    (h : Duties history db) : Duties (history ++ [turn step db input]) (step db input).2 where
  trader := by
    rintro id user ⟨t, ht, hauthor⟩
    rcases List.mem_append.mp ht with hpast | hlast
    · obtain ⟨r, hr, htrader⟩ := h.trader id user ⟨t, hpast, hauthor⟩
      have hsome : ((step db input).2.deals.lookup id).isSome :=
        step_lookup_isSome (Option.isSome_iff_exists.mpr ⟨r, hr⟩)
      obtain ⟨r', hr'⟩ := Option.isSome_iff_exists.mp hsome
      exact ⟨r', hr', by rw [step_traderId hr hr', htrader]⟩
    · obtain rfl := List.mem_singleton.mp hlast
      exact author_is_trader hauthor
  positioner := by
    intro id r' hr' hreleased
    obtain ⟨r, hr, hcases⟩ := release_cases hr' hreleased
    have htrader := step_traderId hr hr'
    rcases hcases with ⟨hbefore, hsame⟩ | ⟨env, user, hinput, happrovable, hstored⟩
    · obtain ⟨p, hp, hne, t, ht, happroves⟩ := h.positioner id r hr hbefore
      exact ⟨p, hsame.trans hp, htrader ▸ hne, t, List.mem_append_left _ ht, happroves⟩
    · obtain ⟨p, hp, hval⟩ := Option.map_eq_some_iff.mp hstored
      refine ⟨p, hp, ?_, turn step db input, by simp, user, ⟨happrovable.positioner, ⟨env, hinput⟩,
        ⟨r, hr, happrovable.state⟩, r', hr', hreleased⟩, hval.symm⟩
      rw [hval, htrader]
      exact happrovable.other.symm

/-- **Separation of duties**, in every run: the positioner of an approved or executed deal is a user
who approved it in the role of a positioner or administrator, and who neither created the deal nor
ever changed its terms. -/
theorem duties_separated {nsi : ReferenceData} {history : List ServiceTurn} {db : Database}
    (h : Run step (Database.initial nsi) history db) :
    ∀ id r, db.deals.lookup id = some r →
      (r.row.dealState = .approved ∨ r.row.dealState = .executed) →
        ∃ p, r.row.positionerId = some p ∧
          (∃ t ∈ history, ∃ user, Approves id user t ∧ user.userId = p.val) ∧
          ∀ t ∈ history, ∀ user, Creates id user t ∨ Updates id user t → user.userId ≠ p.val := by
  have hinv : Duties history db := by
    refine Run.invariant (P := Duties) ⟨?_, ?_⟩ (fun history db input => duties_step) h
    · rintro id user ⟨t, ht, -⟩
      cases ht
    · intro id r hr
      simp at hr
  intro id r hr hstate
  have hreleased : r.row.dealState.released = true := by rcases hstate with h | h <;> rw [h] <;> rfl
  obtain ⟨p, hp, hne, happroved⟩ := hinv.positioner id r hr hreleased
  refine ⟨p, hp, happroved, fun t ht user hauthor heq => ?_⟩
  obtain ⟨r₀, hr₀, htrader⟩ := hinv.trader id user ⟨t, ht, hauthor⟩
  rw [hr] at hr₀
  cases hr₀
  exact hne (heq.symm.trans htrader.symm)

/-- The positioner of the executed deal of the desk. -/
theorem duties_separated_desk :
    ∃ p, Desk.executed.row.positionerId = some p ∧
      (∃ t ∈ history step (Database.initial Desk.nsi) Desk.execution, ∃ user,
        Approves Desk.dealId user t ∧ user.userId = p.val) ∧
      ∀ t ∈ history step (Database.initial Desk.nsi) Desk.execution, ∀ user,
        Creates Desk.dealId user t ∨ Updates Desk.dealId user t → user.userId ≠ p.val :=
  duties_separated (run_serveAll step (Database.initial Desk.nsi) Desk.execution) Desk.dealId
    Desk.executed (Option.some_get _).symm (.inr (by decide +kernel))

end FxDealManager
