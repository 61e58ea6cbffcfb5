import FxDealManager.Lifecycle.EditErrors
import FxDealManager.Lifecycle.Escape

/-!
# When requests succeed

In fair circumstances, in which nothing but the rules of the service and the constraints of the
tables stops a request, each deal operation succeeds if and only if what it needs is there: no
check is missing, and none is made that is not listed here.

## Main definitions

* `Ready`: what a request needs
* `Settles`: an ending that succeeds if and only if a condition holds

## Main results

* `createDeal_settles`, `updateDeal_settles`, `validateDeal_settles`, ...: one operation each
* `served_iff`: every operation
-/

namespace FxDealManager

open DecimalArithmetic Transactional

/-- The columns can store what the body sets, for the user. -/
structure DealCreateRequest.Storable (payload : DealCreateRequest) (user : UserClaims) : Prop where
  amount : (Numeric.ofDecimal payload.amount : Option (Numeric 18 2)).isSome
  rate : (Numeric.ofDecimal payload.rate : Option (Numeric 18 6)).isSome
  buyCurrency : payload.buyCurrency.length ≤ 3
  sellCurrency : payload.sellCurrency.length ≤ 3
  userId : user.userId.length ≤ 36
  email : user.email.length ≤ 320

/-- The position system accepts all payments of the deal. -/
def Env.Accepts (env : Env) (deal : FXDeal) : Prop :=
  (sendDeal env "" deal).result.success = true

/-- What a request needs, besides a role that its route admits. -/
inductive Ready (env : Env) (user : UserClaims) (db : Database) : Operation → Prop
  | create {payload : DealCreateRequest}
      (hknown : db.nsi.counterpartyExists payload.counterpartyId = true)
      (hstorable : payload.Storable user) : Ready env user db (.create payload)
  | update {id : UUID} {r : DealRecord} {payload : DealUpdateRequest}
      (hr : db.deals.lookup id = some r) (hopen : ¬ payload.Refused db.nsi user r.row)
      (hstorable : payload.Storable) (hemail : user.email.length ≤ 320) :
      Ready env user db (.update id payload)
  | validate {id : UUID} {r : DealRecord} {valueDate : Date}
      {assigned : List (CalculatedPayment × String)} (hr : db.deals.lookup id = some r)
      (huser : Entitled user r.row)
      (hvalid : Validation db.nsi (FXDeal.ofRecord db.nsi id r) valueDate assigned)
      (hbookable : ∀ a ∈ assigned, Bookable a) (hemail : user.email.length ≤ 320) :
      Ready env user db (.validate id)
  | submit {id : UUID} {r : DealRecord} (hr : db.deals.lookup id = some r)
      (huser : Entitled user r.row) (hstate : r.row.dealState = .draft)
      (hstatus : r.row.validationStatus = .valid)
      (hlimits : checkLimits (db.nsi.activeLimits r.row.counterpartyId.val)
        (FXDeal.ofRecord db.nsi id r) = some [])
      (hemail : user.email.length ≤ 320) : Ready env user db (.submit id)
  | approve {id : UUID} {r : DealRecord} (hr : db.deals.lookup id = some r)
      (happrovable : Approvable user r.row)
      (haccepts : env.Accepts (handedOver db.nsi id r user)) (huserId : user.userId.length ≤ 36)
      (hemail : user.email.length ≤ 320) : Ready env user db (.approve id)
  | returnForEdit {id : UUID} {r : DealRecord} {payload : PositionerCommentRequest}
      (hr : db.deals.lookup id = some r) (hstate : r.row.dealState = .waitingForPositioner)
      (huserId : user.userId.length ≤ 36) (hemail : user.email.length ≤ 320) :
      Ready env user db (.returnForEdit id payload)
  | reject {id : UUID} {r : DealRecord} {payload : Option PositionerCommentRequest}
      (hr : db.deals.lookup id = some r) (hstate : r.row.dealState = .waitingForPositioner)
      (huserId : user.userId.length ≤ 36) (hemail : user.email.length ≤ 320) :
      Ready env user db (.reject id payload)
  | takeForEdit {id : UUID} {r : DealRecord} (hr : db.deals.lookup id = some r)
      (huser : Entitled user r.row) (hstate : r.row.dealState = .rejected)
      (hemail : user.email.length ≤ 320) : Ready env user db (.takeForEdit id)
  | cancel {id : UUID} {r : DealRecord} {payload : Option PositionerCommentRequest}
      (hr : db.deals.lookup id = some r) (huser : Entitled user r.row)
      (hstate : r.row.dealState = .draft) (hemail : user.email.length ≤ 320) :
      Ready env user db (.cancel id payload)

/-- The request succeeds if and only if the condition holds. -/
def Settles (ready : Prop) (result : Except ServiceError DealResponse) (_ : ServiceProgress) :
    Prop :=
  (∃ response, result = .ok response) ↔ ready

section Settling

variable {ready : Prop} {c : ServiceProgress}

theorem settles_ok {response : DealResponse} (h : ready) : Settles ready (.ok response) c :=
  iff_of_true ⟨response, rfl⟩ h

theorem settles_error {err : ServiceError} (h : ¬ ready) : Settles ready (.error err) c :=
  iff_of_false (fun ⟨_, hok⟩ => by cases hok) h

end Settling

section Operations

variable {env : Env} {user : UserClaims} {db : Database} {id : UUID} {ready : Prop}

/-! ## The ends of operations -/

/-- The end of an operation that answers with the object it saved. -/
theorem finish_settles {deal : FXDeal} {action : AuditAction} {oldValue newValue : Option Json}
    {log : List Statement} {c : ServiceProgress} {n : ℕ} (hfair : Fair env db)
    (hlog : replay log db = .ok c.work) (hentries : ∀ entry ∈ entries log, entry.id ≠ env.uuid n)
    (hnulled : deal.nulled = []) (hpositioner : ∀ s ∈ deal.positionerId, s.length ≤ 36)
    (hready : ready ↔ user.email.length ≤ 320) :
    (appendAudit { loaded := deal, deal } action user.email oldValue newValue >>= fun _ =>
      Program.commit >>= fun _ => (pure (toResponse deal) : Service DealResponse)).EnsuresFrom
        env c n (Settles ready) := by
  have hrej : ∀ c : ServiceProgress, c.MayReject env (Settles ready) :=
    fun _ => .of_calm hfair.calm
  refine appendAudit_from (hrej _) (fun err hst => ?_) (fun hlong => ?_)
    (fun statements entry err hst hentry hreplay => ?_) fun statements entry d hst _ hentry _ => ?_
  · exact (statements_unchanged_ne_error hst hnulled hpositioner).elim
  · exact settles_error fun h => hlong (hready.mp h)
  · rw [statements_unchanged hst] at hreplay
    have hfit : FitAll db log [.insertAudit entry] := by
      refine fitAll_insertAudit (by rw [hentry]; exact hfair.audit _) fun entry' hmem => ?_
      rw [hentry]
      exact hentries entry' (List.mem_filterMap.mpr ⟨_, hmem, rfl⟩)
    obtain ⟨d, hd⟩ := exists_replay_after hfit hlog
    have herr : replay [Statement.insertAudit entry] c.work = .error err := hreplay
    rw [herr] at hd
    cases hd
  · have hemail : user.email.length ≤ 320 := hentry.createdBy ▸ entry.createdBy.fits
    exact .commit_bind (hrej _) (.pure (settles_ok (hready.mpr hemail)))

/-- A change of the state, after statements that the request has executed before. -/
theorem changeState_settles {p : Pending} {oldStatus : DealState} {newValue : Json}
    {pre : List Statement} {c : ServiceProgress} {n : ℕ} (hfair : Fair env db)
    (hpre : replay pre db = .ok c.work) (hentries : ∀ entry ∈ entries pre, entry.id ≠ env.uuid n)
    (hfound : (db.deals.lookup p.deal.id).isSome) (hnulled : p.deal.nulled = [])
    (hfit : ∀ log, p.statements env.now = .ok log → FitAll db pre log ∧ entries log = [] ∧
      ∀ s ∈ p.deal.positionerId, s.length ≤ 36)
    (hready : ready ↔ (∃ log, p.statements env.now = .ok log) ∧ user.email.length ≤ 320) :
    (changeState p oldStatus newValue user).EnsuresFrom env c n (Settles ready) := by
  have hrej : ∀ c : ServiceProgress, c.MayReject env (Settles ready) :=
    fun _ => .of_calm hfair.calm
  obtain ⟨r, hr⟩ := lookup_after_replay hpre hfound
  refine saveExisting_from (hrej _) (fun err herr => ?_) (fun statements err hlog hreplay => ?_)
    (Option.isSome_of_eq_some hr) fun statements d r' hlog hd _ => ?_
  · refine settles_error fun h => ?_
    obtain ⟨⟨log, hlog⟩, -⟩ := hready.mp h
    rw [hlog] at herr
    cases herr
  · obtain ⟨d, hd⟩ := exists_replay_after (hfit _ hlog).1 hpre
    rw [hd] at hreplay
    cases hreplay
  · obtain ⟨-, hnone, hpositioner⟩ := hfit _ hlog
    have hreplay : replay (pre ++ statements) db = .ok d := by
      rw [replay_append, hpre]
      exact hd
    refine finish_settles hfair hreplay ?_ hnulled hpositioner
      (hready.trans (and_iff_right ⟨statements, hlog⟩))
    rw [entries_append, hnone, List.append_nil]
    exact hentries

/-- A deal is moved to another state. -/
theorem move_settles {r : DealRecord} {state : DealState} {newValue : Json} {n : ℕ}
    (hfair : Fair env db) (hr : db.deals.lookup id = some r) (hne : r.row.dealState ≠ state)
    (hready : ready ↔ user.email.length ≤ 320) :
    (setDealState (FXDeal.ofRecord db.nsi id r) state >>= fun moved =>
      changeState { loaded := FXDeal.ofRecord db.nsi id r, deal := moved } r.row.dealState newValue
        user).EnsuresFrom env (Progress.start db) n (Settles ready) := by
  have hsome : (db.deals.lookup id).isSome := Option.isSome_of_eq_some hr
  have hpositioner := positionerId_ofRecord_length db.nsi id r
  refine setDealState_from (.of_calm hfair.calm) ?_
  refine changeState_settles hfair (rfl : replay ([] : List Statement) db = .ok db) (by simp) hsome
    rfl (fun log hlog => ?_) (hready.trans (and_iff_right ?_).symm)
  · rw [moved_statements hne hlog]
    exact ⟨⟨⟨hsome, rfl⟩, trivial⟩, rfl, hpositioner⟩
  · exact exists_statements env.now (exists_between_decided rfl hpositioner) (fun _ h => by cases h)
      (exists_solutionStatements rfl rfl)

/-! ## Creation -/

theorem exists_ofDeal_iff {now : Timestamp} {payload : DealCreateRequest} :
    (∃ row, FXDealRow.ofDeal now (newDeal id payload user) = .ok row) ↔
      payload.Storable user := by
  simp only [FXDealRow.ofDeal, bind_eq_ok, storeColumn_eq_ok]
  constructor
  · rintro ⟨row, amount, hamount, rate, hrate, buy, hbuy, sell, hsell, counterparty, -, trader,
      htrader, email, hemail, -⟩
    exact ⟨Option.isSome_of_eq_some hamount, Option.isSome_of_eq_some hrate,
      Varchar.ofString_isSome.mp (Option.isSome_of_eq_some hbuy),
      Varchar.ofString_isSome.mp (Option.isSome_of_eq_some hsell),
      Varchar.ofString_isSome.mp (Option.isSome_of_eq_some htrader),
      Varchar.ofString_isSome.mp (Option.isSome_of_eq_some hemail)⟩
  · intro h
    obtain ⟨amount, hamount⟩ := Option.isSome_iff_exists.mp h.amount
    obtain ⟨rate, hrate⟩ := Option.isSome_iff_exists.mp h.rate
    obtain ⟨buy, hbuy⟩ := Option.isSome_iff_exists.mp (Varchar.ofString_isSome.mpr h.buyCurrency)
    obtain ⟨sell, hsell⟩ := Option.isSome_iff_exists.mp (Varchar.ofString_isSome.mpr h.sellCurrency)
    obtain ⟨counterparty, hcounterparty⟩ :=
      Option.isSome_iff_exists.mp (Varchar.ofString_isSome.mpr payload.counterpartyId_length.2)
    obtain ⟨trader, htrader⟩ := Option.isSome_iff_exists.mp (Varchar.ofString_isSome.mpr h.userId)
    obtain ⟨email, hemail⟩ := Option.isSome_iff_exists.mp (Varchar.ofString_isSome.mpr h.email)
    exact ⟨_, amount, hamount, rate, hrate, buy, hbuy, sell, hsell, counterparty, hcounterparty,
      trader, htrader, email, hemail, none, rfl, rfl⟩

/-- **A creation** succeeds if and only if the counterparty is active and the columns can store the
body. -/
theorem createDeal_settles {payload : DealCreateRequest} (hfair : Fair env db)
    (hnew : db.deals.lookup (env.uuid 0) = none) :
    (createDeal payload user).EnsuresFrom env (Progress.start db) 0
      (Settles (Ready env user db (.create payload))) := by
  have hrej : ∀ c : ServiceProgress,
      c.MayReject env (Settles (Ready env user db (.create payload))) :=
    fun _ => .of_calm hfair.calm
  refine .query_bind (hrej _) (.require_bind (fun hunknown => ?_) fun hknown => ?_)
  · refine settles_error fun h => ?_
    cases h with
    | create hknown _ => exact hunknown hknown
  refine lookupCode_from (hrej _) (lookupCode_from (hrej _) (lookupCode_from (hrej _) ?_))
  refine freshId_from (.bind_assoc (.ask_bind (.bind_assoc (ofDb_from (fun err herr => ?_)
    fun row hrow => ?_))))
  · refine settles_error fun h => ?_
    cases h with
    | create _ hstorable =>
      obtain ⟨row, hrow⟩ := exists_ofDeal_iff.mpr hstorable
      rw [hrow] at herr
      cases herr
  have hstored := ofDeal_eq_ok hrow
  have hactive : db.nsi.counterpartyExists payload.counterpartyId = true := hknown
  obtain ⟨counterparty, hfound, -⟩ := (Option.any_eq_true _ _).mp hactive
  have hcounterparty : db.nsi.counterparty? row.counterpartyId.val = some counterparty := by
    rw [hstored.counterpartyId]
    exact hfound
  have hinsert : replay [Statement.insertDeal (env.uuid 0) row] db =
      .ok (db.setDeal (env.uuid 0) ⟨row, [], none⟩) := by
    simp [replay, Store.exec, Statement.exec, hnew, hcounterparty, Except.mapError]
  refine .bind_assoc (executeAll_from (hrej _) (fun err herr => ?_) fun d hd => ?_)
  · have hfails : replay [Statement.insertDeal (env.uuid 0) row] db = .error err := herr
    rw [hinsert] at hfails
    cases hfails
  have hd' : replay [Statement.insertDeal (env.uuid 0) row] db = .ok d := hd
  have hfound : d.deals.lookup (env.uuid 0) = some ⟨row, [], none⟩ := by
    rw [hinsert] at hd'
    cases hd'
    simp
  refine .bind_assoc (getById_from (hrej _) (fun hnone => ?_) fun r hr => .pure_bind ?_)
  · have hnot : d.deals.lookup (env.uuid 0) = none := hnone
    rw [hfound] at hnot
    cases hnot
  · have hstorable : payload.Storable user := exists_ofDeal_iff.mp ⟨row, hrow⟩
    refine finish_settles hfair hd' (by simp) rfl (fun s hs => by cases hs) ?_
    exact iff_of_true (.create hknown hstorable) hstorable.email

/-! ## Update -/

/-- **An edit** succeeds if and only if it is not refused and the columns can store the body. -/
theorem updateDeal_settles {payload : DealUpdateRequest} {r : DealRecord} (hfair : Fair env db)
    (hr : db.deals.lookup id = some r) :
    (updateDeal id payload user).EnsuresFrom env (Progress.start db) 0
      (Settles (Ready env user db (.update id payload))) := by
  have hrej : ∀ c : ServiceProgress,
      c.MayReject env (Settles (Ready env user db (.update id payload))) :=
    fun _ => .of_calm hfair.calm
  have hready : Ready env user db (.update id payload) ↔
      ¬ payload.Refused db.nsi user r.row ∧ payload.Storable ∧ user.email.length ≤ 320 := by
    constructor
    · intro h
      cases h with
      | update hr' hopen hstorable hemail =>
        obtain rfl := Option.some.inj (hr.symm.trans hr')
        exact ⟨hopen, hstorable, hemail⟩
    · rintro ⟨hopen, hstorable, hemail⟩
      exact .update hr hopen hstorable hemail
  refine updateDeal_from hr hrej (fun hrefused status detail _ _ => ?_) (fun _ hnull text => ?_)
    (fun _ err hst => ?_) (fun hnot ch err hch hreplay => ?_)
    fun hnot ch d r' hch hd hr' deal hdeal => ?_
  · exact settles_error fun h => (hready.mp h).1 hrefused
  · refine settles_error fun h => ?_
    have hnulled := (hready.mp h).2.1.nulled
    rcases hnull with hdir | htype
    · simp [DealUpdateRequest.nulled, hdir, Field.nulls] at hnulled
    · simp [DealUpdateRequest.nulled, htype, Field.nulls] at hnulled
  · refine settles_error fun h => ?_
    obtain ⟨log, hlog⟩ := exists_edit_statements_iff.mpr (hready.mp h).2.1
    rw [hlog] at hst
    cases hst
  · obtain ⟨d, hd⟩ : ∃ d, replay (editStatements id ch env.now r.payments) db = .ok d :=
      exists_replay_edit hr (counterparty_known hnot (between_eq_ok hch))
    rw [hd] at hreplay
    cases hreplay
  · have hstorable : payload.Storable := exists_edited_iff.mp ⟨ch, hch⟩
    subst hdeal
    refine finish_settles hfair hd (by simp [editStatements]) (between_eq_ok hch).nulled ?_ ?_
    · simpa [DealUpdateRequest.saved] using positionerId_ofRecord_length db.nsi id r
    · rw [hready, and_iff_right hnot, and_iff_right hstorable]

/-! ## Validation -/

/-- **A validation** succeeds if and only if the user is entitled to it, the deal passes every
check, and its payments can be stored. -/
theorem validateDeal_settles {r : DealRecord} (hfair : Fair env db)
    (hr : db.deals.lookup id = some r) :
    (validateDeal id user).EnsuresFrom env (Progress.start db) 0
      (Settles (Ready env user db (.validate id))) := by
  have hrej : ∀ c : ServiceProgress, c.MayReject env (Settles (Ready env user db (.validate id))) :=
    fun _ => .of_calm hfair.calm
  have hready : Ready env user db (.validate id) ↔ Entitled user r.row ∧
      ∃ valueDate assigned, verdict db.nsi (FXDeal.ofRecord db.nsi id r) =
        .valid valueDate assigned ∧ (∀ a ∈ assigned, Bookable a) ∧ user.email.length ≤ 320 := by
    constructor
    · intro h
      cases h with
      | validate hr' huser hvalid hbookable hemail =>
        obtain rfl := Option.some.inj (hr.symm.trans hr')
        exact ⟨huser, _, _, verdict_eq_valid_iff.mpr hvalid, hbookable, hemail⟩
    · rintro ⟨huser, valueDate, assigned, hverdict, hbookable, hemail⟩
      exact .validate hr huser (verdict_eq_valid_iff.mp hverdict) hbookable hemail
  by_cases huser : Entitled user r.row
  · have hother : ∀ {v : Verdict}, verdict db.nsi (FXDeal.ofRecord db.nsi id r) = v →
        (∀ valueDate assigned, v ≠ .valid valueDate assigned) →
        ∀ {err c}, Settles (Ready env user db (.validate id)) (.error err) c := by
      intro v hverdict hnot err c
      refine settles_error fun h => ?_
      obtain ⟨-, valueDate, assigned, hvalid, -⟩ := hready.mp h
      exact hnot valueDate assigned (hverdict.symm.trans hvalid)
    refine validateDeal_from hr huser (hrej _) (fun err hverdict => ?_) (fun text hverdict => ?_)
      (fun issues hverdict => ?_) fun valueDate assigned hverdict => ?_
    · exact hother hverdict fun _ _ => by simp
    · exact hother hverdict fun _ _ => by simp
    · refine (commitInvalid_yields hfair hr).mono fun result c hyields => ?_
      simp only [Verdict.Yields] at hyields
      split at hyields <;> rw [hyields] <;> exact hother hverdict fun _ _ => by simp
    · refine (saveValidated_yields hfair hr (verdict_eq_valid_iff.mp hverdict)).mono
        fun result c hyields => ?_
      simp only [Verdict.Yields] at hyields
      split at hyields
      next hstored =>
        obtain ⟨response, rfl⟩ := hyields
        exact settles_ok (hready.mpr ⟨huser, valueDate, assigned, hverdict, hstored⟩)
      next hstored =>
        rw [hyields]
        refine settles_error fun h => hstored ?_
        obtain ⟨-, valueDate', assigned', hverdict', hstored'⟩ := hready.mp h
        cases hverdict.symm.trans hverdict'
        exact hstored'
  · refine loadDeal_found_from hr (hrej _) (.require_bind (fun _ => ?_) fun h => absurd h huser)
    exact settles_error fun h => huser (hready.mp h).1

/-! ## Moves -/

/-- **A submission** succeeds if and only if the user is entitled to it, the deal is a valid draft,
and the limits admit it. -/
theorem submitDeal_settles {r : DealRecord} (hfair : Fair env db)
    (hr : db.deals.lookup id = some r) :
    (submitDeal id user).EnsuresFrom env (Progress.start db) 0
      (Settles (Ready env user db (.submit id))) := by
  have hrej : ∀ c : ServiceProgress, c.MayReject env (Settles (Ready env user db (.submit id))) :=
    fun _ => .of_calm hfair.calm
  have hready : Ready env user db (.submit id) ↔ Entitled user r.row ∧ r.row.dealState = .draft ∧
      r.row.validationStatus = .valid ∧
      checkLimits (db.nsi.activeLimits r.row.counterpartyId.val) (FXDeal.ofRecord db.nsi id r) =
        some [] ∧ user.email.length ≤ 320 := by
    constructor
    · intro h
      cases h with
      | submit hr' huser hstate hstatus hlimits hemail =>
        obtain rfl := Option.some.inj (hr.symm.trans hr')
        exact ⟨huser, hstate, hstatus, hlimits, hemail⟩
    · rintro ⟨huser, hstate, hstatus, hlimits, hemail⟩
      exact .submit hr huser hstate hstatus hlimits hemail
  refine loadDeal_found_from hr (hrej _) (.require_bind (fun hnot => ?_) fun huser => ?_)
  · exact settles_error fun h => hnot (hready.mp h).1
  refine .require_bind (fun hnot => ?_) fun hstate =>
    .require_bind (fun hnot => ?_) fun hstatus => ?_
  · exact settles_error fun h => hnot (hready.mp h).2.1
  · exact settles_error fun h => hnot (hready.mp h).2.2.1
  refine limitIssues_from rfl (hrej _) (fun hnone => ?_) fun issues hlimits => ?_
  · refine settles_error fun h => ?_
    have hsome := (hready.mp h).2.2.2.1
    cases hnone.symm.trans hsome
  split
  next hissues =>
    refine (commitInvalid_yields hfair hr).mono fun result c hyields => ?_
    have hnot : ¬ Ready env user db (.submit id) := fun h =>
      hissues (Option.some.inj (hlimits.symm.trans (hready.mp h).2.2.2.1))
    simp only [Verdict.Yields] at hyields
    split at hyields <;> rw [hyields] <;> exact settles_error hnot
  next hissues =>
    have hdraft : r.row.dealState = .draft := hstate
    have hnone : checkLimits (db.nsi.activeLimits r.row.counterpartyId.val)
        (FXDeal.ofRecord db.nsi id r) = some [] :=
      hlimits.trans (congrArg some (not_not.mp hissues))
    refine move_settles hfair hr (by rw [hdraft]; decide) (hready.trans ?_)
    exact ⟨fun h => h.2.2.2.2, fun hemail => ⟨huser, hdraft, hstatus, hnone, hemail⟩⟩

/-- **Taking back** succeeds if and only if the user is entitled to it and the deal is rejected. -/
theorem takeForEdit_settles {r : DealRecord} (hfair : Fair env db)
    (hr : db.deals.lookup id = some r) :
    (takeForEdit id user).EnsuresFrom env (Progress.start db) 0
      (Settles (Ready env user db (.takeForEdit id))) := by
  have hrej : ∀ c : ServiceProgress,
      c.MayReject env (Settles (Ready env user db (.takeForEdit id))) :=
    fun _ => .of_calm hfair.calm
  have hready : Ready env user db (.takeForEdit id) ↔
      Entitled user r.row ∧ r.row.dealState = .rejected ∧ user.email.length ≤ 320 := by
    constructor
    · intro h
      cases h with
      | takeForEdit hr' huser hstate hemail =>
        obtain rfl := Option.some.inj (hr.symm.trans hr')
        exact ⟨huser, hstate, hemail⟩
    · rintro ⟨huser, hstate, hemail⟩
      exact .takeForEdit hr huser hstate hemail
  refine loadDeal_found_from hr (hrej _) (.require_bind (fun hnot => ?_) fun huser => ?_)
  · exact settles_error fun h => hnot (hready.mp h).1
  refine .require_bind (fun hnot => ?_) fun hstate => ?_
  · exact settles_error fun h => hnot (hready.mp h).2.1
  have hrejected : r.row.dealState = .rejected := hstate
  refine move_settles hfair hr (by rw [hrejected]; decide) (hready.trans ?_)
  exact ⟨fun h => h.2.2, fun hemail => ⟨huser, hrejected, hemail⟩⟩

/-- **A cancellation** succeeds if and only if the user is entitled to it and the deal is a
draft. -/
theorem cancelDeal_settles {r : DealRecord} {payload : Option PositionerCommentRequest}
    (hfair : Fair env db) (hr : db.deals.lookup id = some r) :
    (cancelDeal id (payload.map (·.comment)) user).EnsuresFrom env (Progress.start db) 0
      (Settles (Ready env user db (.cancel id payload))) := by
  have hrej : ∀ c : ServiceProgress,
      c.MayReject env (Settles (Ready env user db (.cancel id payload))) :=
    fun _ => .of_calm hfair.calm
  have hready : Ready env user db (.cancel id payload) ↔
      Entitled user r.row ∧ r.row.dealState = .draft ∧ user.email.length ≤ 320 := by
    constructor
    · intro h
      cases h with
      | cancel hr' huser hstate hemail =>
        obtain rfl := Option.some.inj (hr.symm.trans hr')
        exact ⟨huser, hstate, hemail⟩
    · rintro ⟨huser, hstate, hemail⟩
      exact .cancel hr huser hstate hemail
  refine loadDeal_found_from hr (hrej _) (.require_bind (fun hnot => ?_) fun huser => ?_)
  · exact settles_error fun h => hnot (hready.mp h).1
  refine .require_bind (fun hnot => ?_) fun hstate => ?_
  · exact settles_error fun h => hnot (hready.mp h).2.1
  have hdraft : r.row.dealState = .draft := hstate
  refine move_settles hfair hr (by rw [hdraft]; decide) (hready.trans ?_)
  exact ⟨fun h => h.2.2, fun hemail => ⟨huser, hdraft, hemail⟩⟩

/-! ## Decisions -/

/-- The decision about a deal can be flushed if and only if the columns can name the user. -/
theorem exists_decision_statements_iff {r : DealRecord} {state : DealState}
    {decision : ApprovalDecision} {comment : Option String} {pending : Pending}
    {newSolution : Option PositionerSolution}
    (hpending : pending = ⟨FXDeal.ofRecord db.nsi id r,
      decidedDeal db.nsi id r user state decision comment, [], [], newSolution⟩)
    (hsolution : user.userId.length ≤ 36 → ∃ solution, pending.solutionStatements env.now =
      .ok solution) :
    (∃ log, pending.statements env.now = .ok log) ↔ user.userId.length ≤ 36 := by
  subst hpending
  constructor
  · rintro ⟨log, hlog⟩
    obtain ⟨ch, -, -, hch, -⟩ := statements_eq_ok hlog
    obtain ⟨-, -, -, -, -, -, -, -, hpositioner⟩ := exists_between_iff.mp ⟨ch, hch⟩
    rcases hpositioner with hsame | hfits
    · exact positionerId_ofRecord_length db.nsi id r user.userId hsame
    · exact hfits user.userId rfl
  · intro huserId
    exact exists_statements env.now
      (exists_between_decided rfl (by rintro _ ⟨⟩; exact huserId)) (fun _ h => by cases h)
      (hsolution huserId)

/-- The solution of a decision, as the first one or over the stored one: it can be written if its
column can name the user. -/
theorem saveSolution_pending {Q : Except ServiceError DealResponse → ServiceProgress → Prop}
    {r : DealRecord} {state : DealState} {decision : ApprovalDecision} {comment : Option String}
    {f : Pending → Service DealResponse} {n : ℕ} (hfair : Fair env db)
    (hr : db.deals.lookup id = some r)
    (h : ∀ pending newSolution m,
      pending = ⟨FXDeal.ofRecord db.nsi id r, decidedDeal db.nsi id r user state decision comment,
        [], [], newSolution⟩ →
      (user.userId.length ≤ 36 →
        ∃ solution, pending.solutionStatements env.now = .ok solution) →
      (∀ solution, pending.solutionStatements env.now = .ok solution →
        (∀ ch, FitAll db [.updateDeal id ch env.now] solution) ∧ entries solution = []) →
      (f pending).EnsuresFrom env (Progress.start db) m Q) :
    (saveSolution
      { loaded := FXDeal.ofRecord db.nsi id r,
        deal := { FXDeal.ofRecord db.nsi id r with
          positionerId := some user.userId
          dealState := state } } user decision comment >>= f).EnsuresFrom env (Progress.start db) n
        Q := by
  have hcolumn : user.userId.length ≤ 36 → ∃ positioner : Varchar 36,
      storeColumn Varchar.ofString (.stringTooLong "positioner_id") user.userId =
        .ok positioner := by
    intro huserId
    obtain ⟨positioner, hpositioner⟩ := Option.isSome_iff_exists.mp
      (Varchar.ofString_isSome.mpr huserId)
    exact ⟨positioner, storeColumn_eq_ok.mpr hpositioner⟩
  obtain ⟨row, payments, stored⟩ := r
  cases stored with
  | none =>
    refine .bind_assoc (freshId_from (.pure_bind (h _ _ _ rfl (fun huserId => ?_) ?_)))
    · obtain ⟨positioner, hpositioner⟩ := hcolumn huserId
      exact ⟨_, bind_eq_ok.mpr ⟨_, bind_eq_ok.mpr ⟨positioner, hpositioner, rfl⟩, rfl⟩⟩
    · intro solution hsolution
      obtain ⟨s, hs, hsolution⟩ := bind_eq_ok.mp hsolution
      obtain ⟨positioner, -, hs⟩ := bind_eq_ok.mp hs
      cases hs
      cases hsolution
      exact ⟨fun ch => ⟨⟨⟨_, hr, rfl⟩, hfair.solutions _, by simp⟩, trivial⟩, rfl⟩
  | some s =>
    refine .pure_bind (h _ none _ rfl (fun huserId => ?_) ?_)
    · obtain ⟨positioner, hpositioner⟩ := hcolumn huserId
      refine ⟨_, bind_eq_ok.mpr ⟨_, bind_eq_ok.mpr
        ⟨if s.positionerId.val = user.userId then none else some positioner, ?_, rfl⟩, rfl⟩⟩
      by_cases hsame : s.positionerId.val = user.userId <;>
        simp [changedColumn, PositionerSolutionRow.toSolution, hsame, hpositioner, Except.map]
    · intro solution hsolution
      obtain ⟨changes, -, hsolution⟩ := bind_eq_ok.mp hsolution
      cases hsolution
      split
      · exact ⟨fun ch => trivial, rfl⟩
      · exact ⟨fun ch => ⟨⟨_, hr, rfl, by simp⟩, trivial⟩, rfl⟩

/-- **A negative decision** of a positioner succeeds if and only if the deal is waiting. -/
theorem positionerDecision_settles {r : DealRecord} {op : Operation} {decision : ApprovalDecision}
    {comment : Option String} (hop : Declines id op decision comment) (huser : IsPositioner user)
    (hfair : Fair env db) (hr : db.deals.lookup id = some r) :
    (positionerDecision id user decision comment).EnsuresFrom env (Progress.start db) 0
      (Settles (Ready env user db op)) := by
  have hrej : ∀ c : ServiceProgress, c.MayReject env (Settles (Ready env user db op)) :=
    fun _ => .of_calm hfair.calm
  have hsome : (db.deals.lookup id).isSome := Option.isSome_of_eq_some hr
  have hready : Ready env user db op ↔ r.row.dealState = .waitingForPositioner ∧
      user.userId.length ≤ 36 ∧ user.email.length ≤ 320 := by
    constructor
    · intro h
      cases hop with
      | returnForEdit =>
        cases h with
        | returnForEdit hr' hstate huserId hemail =>
          obtain rfl := Option.some.inj (hr.symm.trans hr')
          exact ⟨hstate, huserId, hemail⟩
      | reject =>
        cases h with
        | reject hr' hstate huserId hemail =>
          obtain rfl := Option.some.inj (hr.symm.trans hr')
          exact ⟨hstate, huserId, hemail⟩
    · rintro ⟨hstate, huserId, hemail⟩
      cases hop with
      | returnForEdit => exact .returnForEdit hr hstate huserId hemail
      | reject => exact .reject hr hstate huserId hemail
  refine loadDeal_found_from hr (hrej _) (.require_bind (absurd huser) fun _ => ?_)
  refine .require_bind (fun hnot => ?_) fun hwaiting => .require_bind (fun hnot => ?_) fun _ => ?_
  · exact settles_error fun h => hnot (hready.mp h).1
  · refine absurd ?_ hnot
    cases hop with
    | @returnForEdit payload =>
      have hne : payload.comment ≠ "" := by
        intro hempty
        have hlength := payload.comment_length.1
        simp [hempty] at hlength
      simp [hne]
    | reject => simp
  have hne : r.row.dealState ≠ .rejected := by
    rw [show r.row.dealState = .waitingForPositioner from hwaiting]
    decide
  refine setDealState_from (hrej _) (saveSolution_pending hfair hr ?_)
  intro pending newSolution m hpending hsolution hfits
  have hstatements : (∃ log, pending.statements env.now = .ok log) ↔ user.userId.length ≤ 36 :=
    exists_decision_statements_iff hpending hsolution
  have hdeal : pending.deal = decidedDeal db.nsi id r user .rejected decision comment := by
    rw [hpending]
  refine changeState_settles hfair (rfl : replay ([] : List Statement) db = .ok db) (by simp)
    (by rw [hdeal]; exact hsome) (by rw [hdeal]; rfl) (fun log hlog => ?_) ?_
  · obtain ⟨p, solution, -, hsolution', rfl⟩ := decision_statements hne hpending hlog
    obtain ⟨hfit, hentries⟩ := hfits solution hsolution'
    refine ⟨⟨⟨hsome, rfl⟩, hfit _⟩, hentries, ?_⟩
    rw [hdeal]
    rintro _ ⟨⟩
    exact hstatements.mp ⟨_, hlog⟩
  · rw [hstatements, hready]
    exact and_iff_right hwaiting

/-- **An approval** succeeds if and only if a positioner other than the trader approves a waiting
deal and the position system accepts its payments. -/
theorem approveDeal_settles {r : DealRecord} (hfair : Fair env db)
    (hr : db.deals.lookup id = some r) :
    (approveDeal id user).EnsuresFrom env (Progress.start db) 0
      (Settles (Ready env user db (.approve id))) := by
  have hrej : ∀ c : ServiceProgress, c.MayReject env (Settles (Ready env user db (.approve id))) :=
    fun _ => .of_calm hfair.calm
  have hsome : (db.deals.lookup id).isSome := Option.isSome_of_eq_some hr
  have hready : Ready env user db (.approve id) ↔ Approvable user r.row ∧
      env.Accepts (handedOver db.nsi id r user) ∧ user.userId.length ≤ 36 ∧
        user.email.length ≤ 320 := by
    constructor
    · intro h
      cases h with
      | approve hr' happrovable haccepts huserId hemail =>
        obtain rfl := Option.some.inj (hr.symm.trans hr')
        exact ⟨happrovable, haccepts, huserId, hemail⟩
    · rintro ⟨happrovable, haccepts, huserId, hemail⟩
      exact .approve hr happrovable haccepts huserId hemail
  refine loadDeal_found_from hr (hrej _) (.require_bind (fun hnot => ?_) fun huser => ?_)
  · exact settles_error fun h => hnot (hready.mp h).1.positioner
  refine .require_bind (fun hnot => ?_) fun hwaiting =>
    .require_bind (fun hnot => ?_) fun hother => ?_
  · exact settles_error fun h => hnot (hready.mp h).1.state
  · exact settles_error fun h => hnot (hready.mp h).1.other
  have happrovable : Approvable user r.row := ⟨huser, hwaiting, hother⟩
  have hne : r.row.dealState ≠ .approved := by
    rw [happrovable.state]
    decide
  refine setDealState_from (hrej _) (saveSolution_pending hfair hr ?_)
  intro pending newSolution m hpending hsolution hfits
  have hstatements : (∃ log, pending.statements env.now = .ok log) ↔ user.userId.length ≤ 36 :=
    exists_decision_statements_iff hpending hsolution
  have hdeal : pending.deal = handedOver db.nsi id r user := by
    rw [hpending]
    rfl
  refine .bind_assoc (freshId_from (.bind_assoc (.ask_bind (.bind_assoc (.emit_bind
    (.ofExcept_bind (fun err herr => settles_error fun h => ?_) fun result hresult => ?_))))))
  · have haccepts : (sendDeal env "" (handedOver db.nsi id r user)).result.success = true :=
      (hready.mp h).2.1
    rw [← hdeal, sendDeal_success_congr env "" (UUID.text (env.uuid m)),
      SendCall.not_success_of_raised herr] at haccepts
    cases haccepts
  rw [SendCall.result_of_answer hresult, hdeal]
  refine appendAudit_from (hrej _) (fun err hst => ?_) (fun hlong => ?_)
    (fun statements entry err hst hentry hreplay => ?_)
    fun statements entry d hst hentry hrecords hd => ?_
  · refine settles_error fun h => ?_
    obtain ⟨log, hlog⟩ := hstatements.mpr (hready.mp h).2.2.1
    rw [hlog] at hst
    cases hst
  · exact settles_error fun h => hlong (hready.mp h).2.2.2
  · obtain ⟨p, solution, -, hsolution', rfl⟩ := decision_statements hne hpending hst
    obtain ⟨hfit, hnone⟩ := hfits solution hsolution'
    have hall : FitAll db [] (.updateDeal id { dealState := some .approved, positionerId := p }
        env.now :: solution ++ [.insertAudit entry]) := by
      refine fitAll_append.mpr ⟨⟨⟨hsome, rfl⟩, hfit _⟩, fitAll_insertAudit ?_ ?_⟩
      · rw [hentry]
        exact hfair.audit _
      · intro entry' hmem
        have hmem' : entry' ∈ entries solution :=
          List.mem_filterMap.mpr ⟨.insertAudit entry', by simpa using hmem, rfl⟩
        rw [hnone] at hmem'
        cases hmem'
    obtain ⟨d, hd⟩ := exists_replay_of_fitAll hall
    have herr : replay (.updateDeal id { dealState := some .approved, positionerId := p }
        env.now :: solution ++ [.insertAudit entry]) db = .error err := hreplay
    rw [hd] at herr
    cases herr
  have huserId : user.userId.length ≤ 36 := hstatements.mp ⟨statements, hst⟩
  have hemail : user.email.length ≤ 320 := hrecords.createdBy ▸ entry.createdBy.fits
  have hpositioner : ∀ s ∈ (handedOver db.nsi id r user).positionerId, s.length ≤ 36 := by
    rintro _ ⟨⟩
    exact huserId
  split
  next hfailed =>
    refine .commit_bind (hrej _) (.raise (settles_error fun h => ?_))
    have haccepts : (sendDeal env "" (handedOver db.nsi id r user)).result.success = true :=
      (hready.mp h).2.1
    rw [sendDeal_success_congr env "" (UUID.text (env.uuid m)), hfailed] at haccepts
    cases haccepts
  next hsent =>
    have haccepts : env.Accepts (handedOver db.nsi id r user) := by
      rw [Env.Accepts, sendDeal_success_congr env "" (UUID.text (env.uuid m))]
      simpa using hsent
    refine setDealState_from (hrej _) ?_
    have hd' : replay (statements ++ [.insertAudit entry]) db = .ok d := hd
    refine changeState_settles hfair hd' ?_ hsome rfl (fun log hlog => ?_) ?_
    · obtain ⟨p, solution, -, hsolution', rfl⟩ := decision_statements hne hpending hst
      have hnone : entries solution = [] := (hfits solution hsolution').2
      simp only [List.cons_append, entries_updateDeal, entries_append, hnone, entries_insertAudit,
        entries_nil, List.nil_append, List.forall_mem_singleton, hentry]
      intro heq
      exact absurd (hfair.distinct heq) (by omega)
    · rw [executed_statements hlog]
      exact ⟨⟨⟨hsome, rfl⟩, trivial⟩, rfl, hpositioner⟩
    · rw [hready]
      refine iff_of_true ⟨happrovable, haccepts, huserId, hemail⟩ ⟨?_, hemail⟩
      exact exists_statements env.now (exists_between_decided rfl hpositioner)
        (fun _ h => by cases h) (exists_solutionStatements rfl rfl)

/-! ## All operations -/

/-- An operation about a deal that is not there is not ready. -/
theorem not_ready_of_lookup {op : Operation} (hdeal : op.deal? = some id)
    (hnone : db.deals.lookup id = none) : ¬ Ready env user db op := by
  intro h
  cases h with
  | create _ _ => cases hdeal
  | update hr _ _ _ | validate hr _ _ _ _ | submit hr _ _ _ _ _ | approve hr _ _ _ _
  | returnForEdit hr _ _ _ | reject hr _ _ _ | takeForEdit hr _ _ _ | cancel hr _ _ _ =>
    cases hdeal
    rw [hnone] at hr
    cases hr

/-- A request about a deal that is not there does not succeed. -/
theorem program_settles_of_none {op : Operation} (hfair : Fair env db) (hdeal : op.deal? = some id)
    (hnone : db.deals.lookup id = none) :
    (op.program user).EnsuresFrom env (Progress.start db) 0 (Settles (Ready env user db op)) := by
  have hrej : (Progress.start db : ServiceProgress).MayReject env
      (Settles (Ready env user db op)) := .of_calm hfair.calm
  have hmissing : db.deals.lookup id = none → Settles (Ready env user db op)
      (.error (.http 404 "Deal not found")) (Progress.start db) := fun hnone =>
    settles_error (not_ready_of_lookup hdeal hnone)
  have hnot : ∀ r, db.deals.lookup id ≠ some r := fun r hr => by
    rw [hnone] at hr
    cases hr
  cases op with
  | create _ => cases hdeal
  | update _ _ | validate _ | submit _ | approve _ | returnForEdit _ _ | reject _ _ | takeForEdit _
  | cancel _ _ =>
    cases hdeal
    exact loadDeal_from hrej hmissing fun r hr => absurd hr (hnot r)

/-- **When requests succeed**: in fair circumstances, and with a new identifier for a new deal, a
request succeeds if and only if its route admits the user and what the operation needs is there. -/
theorem served_iff {op : Operation} (hfair : Fair env db)
    (hnew : op.deal? = none → db.deals.lookup (env.uuid 0) = none) :
    (∃ response, (execute env user op db).result = .ok response) ↔
      user.role ∈ op.roles ∧ Ready env user db op := by
  by_cases hrole : user.role ∈ op.roles
  · have hprogram : (op.program user).EnsuresFrom env (Progress.start db) 0
        (Settles (Ready env user db op)) := by
      cases hdeal : op.deal? with
      | none =>
        cases op with
        | create payload => exact createDeal_settles hfair (hnew rfl)
        | _ => cases hdeal
      | some id =>
        cases hr : db.deals.lookup id with
        | none => exact program_settles_of_none hfair hdeal hr
        | some r =>
          cases op with
          | create payload => cases hdeal
          | update _ payload => cases hdeal; exact updateDeal_settles hfair hr
          | validate _ => cases hdeal; exact validateDeal_settles hfair hr
          | submit _ => cases hdeal; exact submitDeal_settles hfair hr
          | approve _ => cases hdeal; exact approveDeal_settles hfair hr
          | takeForEdit _ => cases hdeal; exact takeForEdit_settles hfair hr
          | cancel _ payload => cases hdeal; exact cancelDeal_settles hfair hr
          | returnForEdit _ payload =>
            cases hdeal
            exact positionerDecision_settles .returnForEdit
              (by simpa [IsPositioner, Operation.roles] using hrole) hfair hr
          | reject _ payload =>
            cases hdeal
            exact positionerDecision_settles .reject
              (by simpa [IsPositioner, Operation.roles] using hrole) hfair hr
    have hserve : (serve op user).EnsuresFrom env (Progress.start db) 0
        (Settles (Ready env user db op)) :=
      .require_bind (absurd hrole) fun _ => hprogram
    exact hserve.run.trans (and_iff_right hrole).symm
  · have hserve : (serve op user).EnsuresFrom env (Progress.start db) 0 (Settles False) :=
      .require_bind (fun _ => settles_error not_false) fun h => absurd h hrole
    exact hserve.run.trans (iff_of_false not_false fun h => hrole h.1)

end Operations

/-- The submitted deal of the desk can be approved. -/
theorem served_desk : ∃ response, (execute (Desk.env 4) Desk.positioner (.approve Desk.dealId)
    (Desk.after Desk.submission)).result = .ok response := by
  have hr : (Desk.after Desk.submission).deals.lookup Desk.dealId = some Desk.submitted :=
    (Option.some_get _).symm
  refine (served_iff (Desk.fair (by decide +kernel)) fun h => by cases h).mpr ⟨by decide, ?_⟩
  exact .approve hr ⟨by decide, by decide +kernel, by decide +kernel⟩
    (show (_ : Bool) = true by decide +kernel) (by decide) (by decide)

end FxDealManager
