import FxDealManager.Lifecycle.Edits

/-!
# Edits that fail

An edit that is not refused assigns whatever the body has, and nothing before the flush looks for a
null in a column that admits none, or for a value that its column cannot store.

## Main definitions

* `DealUpdateRequest.Storable`: the columns can store what the body sets
* `Clean`: a request succeeds, or it is the client's error and the data are as they were

## Main results

* `exists_edited_iff`: the object that an edit assigns can be written if and only if the columns can
  store what the body sets
* `edit_clean_iff`: when an edit is clean
* `edit_crashes`: an edit with a null fails in the database
-/

namespace FxDealManager

open DecimalArithmetic Transactional

/-- The columns can store what the body sets, and none of those without nulls is set to null. -/
structure DealUpdateRequest.Storable (payload : DealUpdateRequest) : Prop where
  nulled : payload.nulled = []
  amount : ∀ a, payload.amount = .value a → (Numeric.ofDecimal a : Option (Numeric 18 2)).isSome
  rate : ∀ a, payload.rate = .value a → (Numeric.ofDecimal a : Option (Numeric 18 6)).isSome
  buyCurrency : ∀ c, payload.buyCurrency = .value c → c.length ≤ 3
  sellCurrency : ∀ c, payload.sellCurrency = .value c → c.length ≤ 3

/-- A request succeeds, or it is answered with an error of the client and the data are as they
were. -/
def Clean (result : Except ServiceError DealResponse) (before after : Database) : Prop :=
  (∃ response, result = .ok response) ∨
    ∃ status detail, result = .error (.http status detail) ∧ 400 ≤ status ∧ status < 500 ∧
      after = before

/-! ## What can be written -/

section Fields

variable {p s : ℕ}

/-- A number can be stored over a column if and only if the column can store the one that the body
sets. -/
theorem number_writable_iff {stored : Numeric p s} {field : Field Decimal}
    (hfield : ∀ a, field = .value a → a.positive = true) :
    (stored.toDecimal.same (field.value?.getD stored.toDecimal) = true ∨
        (Numeric.ofDecimal (field.value?.getD stored.toDecimal) : Option (Numeric p s)).isSome) ↔
      ∀ a, field = .value a → (Numeric.ofDecimal a : Option (Numeric p s)).isSome := by
  cases field with
  | absent | null => simp [Field.value?]
  | value a =>
    simp only [Field.value?, Option.getD_some, Field.value.injEq, forall_eq']
    refine or_iff_right_of_imp fun hsame => ?_
    rw [Numeric.ofDecimal_of_same (Decimal.nonneg_of_positive (hfield a rfl)) hsame]
    rfl

/-- A text can be stored over a column if and only if the one that the body sets is not too
long. -/
theorem text_writable_iff {n : ℕ} {stored : Varchar n} {field : Field String} :
    (stored.val = field.value?.getD stored.val ∨ (field.value?.getD stored.val).length ≤ n) ↔
      ∀ a, field = .value a → a.length ≤ n := by
  cases field with
  | absent | null => simp [Field.value?]
  | value a =>
    simp only [Field.value?, Option.getD_some, Field.value.injEq, forall_eq']
    exact or_iff_right_of_imp fun heq => heq ▸ stored.fits

end Fields

section Edit

variable {nsi : ReferenceData} {id : UUID} {r : DealRecord} {payload : DealUpdateRequest}

/-- **An edited object can be written** if and only if the columns can store what the body sets. -/
theorem exists_edited_iff :
    (∃ ch, DealChanges.between (FXDeal.ofRecord nsi id r)
      (payload.edited (FXDeal.ofRecord nsi id r)) = .ok ch) ↔ payload.Storable := by
  rw [exists_between_iff, DealUpdateRequest.edited_eq]
  simp only [FXDeal.ofRecord, List.nil_append, true_or, and_true,
    number_writable_iff payload.amount_pos, number_writable_iff payload.rate_pos,
    text_writable_iff]
  constructor
  · rintro ⟨hnulled, hamount, hrate, hbuy, hsell, -⟩
    exact ⟨hnulled, hamount, hrate, hbuy, hsell⟩
  · rintro ⟨hnulled, hamount, hrate, hbuy, hsell⟩
    exact ⟨hnulled, hamount, hrate, hbuy, hsell, fun c hc => (payload.counterpartyId_length c hc).2⟩

/-- The flush of an edit is executed, if the counterparty that it sets is known. -/
theorem exists_replay_edit {db : Database} {ch : DealChanges} {now : Timestamp}
    (hr : db.deals.lookup id = some r)
    (hknown : ∀ c, ch.counterpartyId = some c → (db.nsi.counterparty? c.val).isSome) :
    ∃ d, replay (editStatements id ch now r.payments) db = .ok d := by
  obtain ⟨d, hd⟩ : ∃ d, replay (updateStatements id ch now) db = .ok d := by
    by_cases hch : ch = {}
    · exact ⟨db, by simp [updateStatements, hch]⟩
    · have hany : ch.counterpartyId.any (fun c => (db.nsi.counterparty? c.val).isNone) = false := by
        cases hc : ch.counterpartyId with
        | none => rfl
        | some c => simpa [Option.isSome_iff_ne_none] using hknown c hc
      refine ⟨db.setDeal id { r with row := ch.apply now r.row }, ?_⟩
      simp [updateStatements, hch, replay, Store.exec, Statement.exec, hr, hany, Except.mapError]
  obtain ⟨d', hd'⟩ : ∃ d', replay (deleteStatements id (r.payments.map PaymentRow.id)) d = .ok d' :=
    exists_replay_after fitAll_deleteStatements hd
  exact ⟨d', replay_append_eq_ok.mpr ⟨d, hd, hd'⟩⟩

/-- An edit that is not refused sets a known counterparty. -/
theorem counterparty_known {user : UserClaims} {ch : DealChanges}
    (hnot : ¬ payload.Refused nsi user r.row)
    (h : ch.Assigns (FXDeal.ofRecord nsi id r) (payload.edited (FXDeal.ofRecord nsi id r))) :
    ∀ c, ch.counterpartyId = some c → (nsi.counterparty? c.val).isSome := by
  intro c hc
  have hval : (ch.counterpartyId.getD r.row.counterpartyId).val = _ :=
    Assigned.val_getD h.counterpartyId
  have hassigned := h.counterpartyId
  rw [DealUpdateRequest.edited_eq] at hval hassigned
  rw [hc, Option.getD_some] at hval
  cases hid : payload.counterpartyId with
  | absent | null =>
    rw [hassigned.of_equal (by simp [hid, Field.value?])] at hc
    cases hc
  | value id' =>
    have hexists : nsi.counterpartyExists id' = true := by
      by_contra hunknown
      exact hnot (.inr (.inr (.inr ⟨id', hid, Bool.eq_false_iff.mpr hunknown⟩)))
    obtain ⟨counterparty, hfound, -⟩ := (Option.any_eq_true _ _).mp hexists
    rw [hval, hid]
    exact Option.isSome_of_eq_some hfound

/-- What an edit assigns can be flushed if and only if the columns can store what the body sets. -/
theorem exists_edit_statements_iff {now : Timestamp} {ids : List UUID} :
    (∃ log, (⟨FXDeal.ofRecord nsi id r, payload.edited (FXDeal.ofRecord nsi id r), [], ids, none⟩ :
      Pending).statements now = .ok log) ↔ payload.Storable := by
  rw [← @exists_edited_iff nsi id r]
  constructor
  · rintro ⟨log, hlog⟩
    obtain ⟨ch, -, -, hch, -⟩ := statements_eq_ok hlog
    exact ⟨ch, hch⟩
  · exact fun hch => exists_statements now hch (fun _ h => by cases h)
      (exists_solutionStatements rfl (by simp))

/-! ## How an edit ends in fair circumstances -/

theorem clean_error {err : ServiceError} {before after : Database}
    (h : Clean (.error err) before after) : ∃ status detail, err = .http status detail := by
  rcases h with ⟨response, hok⟩ | ⟨status, detail, herr, -⟩
  · cases hok
  · cases herr
    exact ⟨status, detail, rfl⟩

/-- **When an edit is clean**: it is refused, or the columns can store what the body sets and the
audit log can name the user. -/
theorem edit_clean_iff {env : Env} {user : UserClaims} {db : Database} (hfair : Fair env db)
    (hr : db.deals.lookup id = some r) :
    Clean (execute env user (.update id payload) db).result db
        (execute env user (.update id payload) db).database ↔
      user.role ∉ (Operation.update id payload).roles ∨ payload.Refused db.nsi user r.row ∨
        payload.Storable ∧ user.email.length ≤ 320 := by
  let passes : Prop := user.role ∉ (Operation.update id payload).roles ∨
    payload.Refused db.nsi user r.row ∨ payload.Storable ∧ user.email.length ≤ 320
  let Q : Except ServiceError DealResponse → ServiceProgress → Prop := fun result c =>
    Clean result db c.committed ↔ passes
  have hrej : ∀ c : ServiceProgress, c.MayReject env Q := fun _ => .of_calm hfair.calm
  have hcrash : ∀ err c, (∀ status detail, err ≠ .http status detail) → ¬ passes →
      Q (.error err) c := by
    intro err c herr hnot
    refine iff_of_false (fun hclean => ?_) hnot
    obtain ⟨status, detail, rfl⟩ := clean_error hclean
    exact herr status detail rfl
  have h : (serve (.update id payload) user).EnsuresFrom env (Progress.start db) 0 Q := by
    refine .require_bind (fun hrole => ?_) fun hrole => ?_
    · exact iff_of_true (.inr ⟨_, _, rfl, by decide, by decide, rfl⟩) (.inl hrole)
    have hpasses : ¬ payload.Refused db.nsi user r.row →
        (passes ↔ payload.Storable ∧ user.email.length ≤ 320) := fun hnot => by
      simp only [passes, hrole, not_true_eq_false, hnot, false_or]
    refine updateDeal_from hr hrej (fun hrefused status detail hle hlt => ?_)
      (fun hnot hnull text => ?_) (fun hnot err hst => ?_) (fun hnot ch err hch hreplay => ?_)
      fun hnot ch d r' hch hd hr' deal hdeal => ?_
    · exact iff_of_true (.inr ⟨status, detail, rfl, hle, hlt, rfl⟩) (.inr (.inl hrefused))
    · refine hcrash _ _ (by simp) fun hpass => ?_
      have hnulled := ((hpasses hnot).mp hpass).1.nulled
      rcases hnull with hdir | htype
      · simp [DealUpdateRequest.nulled, hdir, Field.nulls] at hnulled
      · simp [DealUpdateRequest.nulled, htype, Field.nulls] at hnulled
    · refine hcrash _ _ (by simp) fun hpass => ?_
      obtain ⟨log, hlog⟩ := exists_edit_statements_iff.mpr ((hpasses hnot).mp hpass).1
      rw [hlog] at hst
      cases hst
    · obtain ⟨d, hd⟩ : ∃ d, replay (editStatements id ch env.now r.payments) db = .ok d :=
        exists_replay_edit hr (counterparty_known hnot (between_eq_ok hch))
      rw [hd] at hreplay
      cases hreplay
    · have hstorable : payload.Storable := exists_edited_iff.mp ⟨ch, hch⟩
      subst hdeal
      refine finish_from hfair hd ?_ ?_ ?_ (fun hlong => ?_) fun hemail c' => ?_
      · simp [editStatements]
      · exact (between_eq_ok hch).nulled
      · simpa [DealUpdateRequest.saved] using positionerId_ofRecord_length db.nsi id r
      · exact hcrash _ _ (by simp) fun hpass => hlong ((hpasses hnot).mp hpass).2
      · exact iff_of_true (.inl ⟨_, rfl⟩) ((hpasses hnot).mpr ⟨hstorable, hemail⟩)
  exact h.run

end Edit

namespace Desk

/-- A body that clears what may be null. -/
def clearing : DealUpdateRequest :=
  { forwardEdit with
    dealType := .absent
    valueDate := .null
    comment := .null
    comment_length := nofun }

/-- A body that sets the trade date to null. -/
def undating : DealUpdateRequest :=
  { forwardEdit with
    dealType := .absent
    tradeDate := .null }

end Desk

/-- The desk clears the value date and the comment. -/
theorem edit_clean_desk :
    Clean (execute (Desk.env 3) Desk.trader (.update Desk.dealId Desk.clearing)
        (Desk.after Desk.creation)).result (Desk.after Desk.creation)
      (execute (Desk.env 3) Desk.trader (.update Desk.dealId Desk.clearing)
        (Desk.after Desk.creation)).database := by
  refine (edit_clean_iff (r := Desk.draft) (Desk.fair (by decide +kernel))
    Desk.lookup_draft).mpr (.inr (.inr ⟨⟨by decide, nofun, nofun, nofun, nofun⟩, ?_⟩))
  decide

/-- A null in the trade date is an error of the database. -/
theorem edit_crashes :
    ¬ ∀ (env : Env) (user : UserClaims) (db : Database) (id : UUID) (r : DealRecord)
      (payload : DealUpdateRequest), Fair env db → db.deals.lookup id = some r →
        Clean (execute env user (.update id payload) db).result db
          (execute env user (.update id payload) db).database := by
  intro h
  have hclean := h (Desk.env 3) Desk.trader (Desk.after Desk.creation) Desk.dealId Desk.draft
    Desk.undating (Desk.fair (by decide +kernel)) Desk.lookup_draft
  have hcrash : (execute (Desk.env 3) Desk.trader (.update Desk.dealId Desk.undating)
      (Desk.after Desk.creation)).result = .error (.database (.notNullViolation "trade_date")) := by
    decide +kernel
  rw [hcrash] at hclean
  obtain ⟨status, detail, herr⟩ := clean_error hclean
  cases herr

end FxDealManager
