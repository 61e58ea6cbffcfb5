import Mathlib.Data.Set.Lattice
import Mathlib.Order.CompletePartialOrder
import FxDealManager.Repositories.Fitting
import FxDealManager.Transactional.Locality

/-!
# The part of the database that a request sees

A request knows a set of identifiers: that of its deal, and those that it draws. Two databases agree
on the set if they have the same reference data, the same records and audit entries of the deals in
the set, and take the same of its identifiers. Statements within the set do the same to both, and
statements within another set do not touch what the first one sees.

## Main definitions

* `Database.Foreign`: the other deals use none of the identifiers
* `AgreeOn`: databases that look the same to a request
* `Statement.Within`: the statements of a request

## Main results

* `respected_within`: databases that agree accept and reject the same statements
* `agreeOn_of_replay`: the statements of others are not seen
-/

namespace FxDealManager

open Transactional

/-- The payments and solutions of deals that are not in the set have ids that are not either. -/
def Database.Foreign (K : Set UUID) (db : Database) : Prop :=
  ∀ j r, db.deals.lookup j = some r → j ∉ K →
    (∀ p ∈ r.payments, p.id ∉ K) ∧ ∀ s ∈ r.solution, s.id ∉ K

open Classical in
/-- The audit entries about deals of the set. -/
noncomputable def Database.entriesIn (K : Set UUID) (db : Database) : List AuditLogEntry :=
  db.audit.filter fun entry => entry.entityId ∈ K

/-- The databases look the same to a request that knows the identifiers `K`. -/
structure AgreeOn (K : Set UUID) (db db' : Database) : Prop where
  nsi : db'.nsi = db.nsi
  deals : ∀ j ∈ K, db'.deals.lookup j = db.deals.lookup j
  entries : db'.entriesIn K = db.entriesIn K
  taken : ∀ x ∈ K, (db'.audit.any (·.id = x)) = db.audit.any (·.id = x)
  foreign : db.Foreign K
  foreign' : db'.Foreign K

/-- A statement writes a deal of the set, and inserts ids of the set. -/
def Statement.Within (K : Set UUID) : Statement → Prop
  | .insertDeal id _ | .updateDeal id _ _ | .deletePayments id _ | .updateSolution id _ => id ∈ K
  | .insertPayment id payment => id ∈ K ∧ payment.id ∈ K
  | .insertSolution id solution => id ∈ K ∧ solution.id ∈ K
  | .insertAudit entry => entry.entityId ∈ K ∧ entry.id ∈ K

section Agreement

variable {K K' : Set UUID} {db db' db'' : Database}

/-! ## Databases that agree -/

namespace AgreeOn

theorem refl (h : db.Foreign K) : AgreeOn K db db :=
  ⟨rfl, fun _ _ => rfl, rfl, fun _ _ => rfl, h, h⟩

theorem symm (h : AgreeOn K db db') : AgreeOn K db' db where
  nsi := h.nsi.symm
  deals j hj := (h.deals j hj).symm
  entries := h.entries.symm
  taken x hx := (h.taken x hx).symm
  foreign := h.foreign'
  foreign' := h.foreign

theorem trans (h : AgreeOn K db db') (h' : AgreeOn K db' db'') : AgreeOn K db db'' where
  nsi := h'.nsi.trans h.nsi
  deals j hj := (h'.deals j hj).trans (h.deals j hj)
  entries := h'.entries.trans h.entries
  taken x hx := (h'.taken x hx).trans (h.taken x hx)
  foreign := h.foreign
  foreign' := h'.foreign'

/-- Payments with ids of the set belong to deals of the set, on which the databases agree. -/
theorem hasPayment (h : AgreeOn K db db') {x : UUID} (hx : x ∈ K) :
    db'.hasPayment x = db.hasPayment x := by
  have hle : ∀ {a b : Database}, AgreeOn K a b → a.hasPayment x = true → b.hasPayment x = true := by
    intro a b hab ha
    obtain ⟨j, r, hr, p, hp, rfl⟩ := Database.hasPayment_iff.mp ha
    have hj : j ∈ K := by
      by_contra hj
      exact (hab.foreign j r hr hj).1 p hp hx
    exact Database.hasPayment_iff.mpr ⟨j, r, (hab.deals j hj).trans hr, p, hp, rfl⟩
  exact Bool.eq_iff_iff.mpr ⟨hle h.symm, hle h⟩

theorem hasSolution (h : AgreeOn K db db') {x : UUID} (hx : x ∈ K) :
    db'.hasSolution x = db.hasSolution x := by
  have hle : ∀ {a b : Database}, AgreeOn K a b → a.hasSolution x = true →
      b.hasSolution x = true := by
    intro a b hab ha
    obtain ⟨j, r, hr, s, hs, rfl⟩ := Database.hasSolution_iff.mp ha
    have hj : j ∈ K := by
      by_contra hj
      exact (hab.foreign j r hr hj).2 s hs hx
    exact Database.hasSolution_iff.mpr ⟨j, r, (hab.deals j hj).trans hr, s, hs, rfl⟩
  exact Bool.eq_iff_iff.mpr ⟨hle h.symm, hle h⟩

/-- Both have another record for a deal of the set. -/
theorem setDeal (h : AgreeOn K db db') {id : UUID} (hid : id ∈ K) (r : DealRecord) :
    AgreeOn K (db.setDeal id r) (db'.setDeal id r) := by
  have hforeign : ∀ {a : Database}, a.Foreign K → (a.setDeal id r).Foreign K := by
    intro a ha j q hq hj
    have hne : j ≠ id := fun heq => hj (heq ▸ hid)
    rw [a.lookup_setDeal_ne r hne] at hq
    exact ha j q hq hj
  refine ⟨h.nsi, fun j hj => ?_, h.entries, h.taken, hforeign h.foreign, hforeign h.foreign'⟩
  by_cases hne : j = id
  · subst hne
    rw [db.lookup_setDeal, db'.lookup_setDeal]
  · rw [db.lookup_setDeal_ne r hne, db'.lookup_setDeal_ne r hne]
    exact h.deals j hj

/-- Both have another audit entry. -/
theorem append (h : AgreeOn K db db') (entry : AuditLogEntry) :
    AgreeOn K { db with audit := db.audit ++ [entry] }
      { db' with audit := db'.audit ++ [entry] } where
  nsi := h.nsi
  deals := h.deals
  entries := by
    have hentries := h.entries
    simp only [Database.entriesIn, List.filter_append] at hentries ⊢
    rw [hentries]
  taken x hx := by simp only [List.any_append, h.taken x hx]
  foreign := h.foreign
  foreign' := h.foreign'

end AgreeOn

/-! ## Statements within the set -/

/-- Databases that agree execute a statement both, or neither. -/
theorem AgreeOn.exec (h : AgreeOn K db db') {st : Statement} (hst : st.Within K) :
    (∃ a a', st.exec db = .ok a ∧ st.exec db' = .ok a' ∧ AgreeOn K a a') ∨
      ∃ err, st.exec db = .error err ∧ st.exec db' = .error err := by
  cases st with
  | insertDeal id row =>
    simp only [Statement.exec, h.deals id hst, h.nsi]
    split
    · exact .inr ⟨_, rfl, rfl⟩
    · split
      · exact .inr ⟨_, rfl, rfl⟩
      · exact .inl ⟨_, _, rfl, rfl, h.setDeal hst _⟩
  | updateDeal id changes now =>
    simp only [Statement.exec, h.deals id hst, h.nsi]
    split
    · exact .inr ⟨_, rfl, rfl⟩
    · split
      · exact .inr ⟨_, rfl, rfl⟩
      · exact .inl ⟨_, _, rfl, rfl, h.setDeal hst _⟩
  | deletePayments id ids =>
    simp only [Statement.exec, h.deals id hst]
    split
    · exact .inl ⟨_, _, rfl, rfl, h⟩
    · exact .inl ⟨_, _, rfl, rfl, h.setDeal hst _⟩
  | insertPayment id payment =>
    obtain ⟨hid, hpayment⟩ := hst
    simp only [Statement.exec, h.deals id hid, h.nsi, h.hasPayment hpayment]
    split
    · exact .inr ⟨_, rfl, rfl⟩
    · split
      · exact .inr ⟨_, rfl, rfl⟩
      · split
        · exact .inr ⟨_, rfl, rfl⟩
        · exact .inl ⟨_, _, rfl, rfl, h.setDeal hid _⟩
  | insertSolution id solution =>
    obtain ⟨hid, hsolution⟩ := hst
    simp only [Statement.exec, h.deals id hid, h.hasSolution hsolution]
    split
    · exact .inr ⟨_, rfl, rfl⟩
    · split
      · exact .inr ⟨_, rfl, rfl⟩
      · exact .inl ⟨_, _, rfl, rfl, h.setDeal hid _⟩
  | updateSolution id changes =>
    simp only [Statement.exec, h.deals id hst]
    split
    · exact .inl ⟨_, _, rfl, rfl, h.setDeal hst _⟩
    · exact .inr ⟨_, rfl, rfl⟩
  | insertAudit entry =>
    simp only [Statement.exec, h.taken entry.id hst.2]
    split
    · exact .inr ⟨_, rfl, rfl⟩
    · exact .inl ⟨_, _, rfl, rfl, h.append entry⟩

/-- **What agrees is treated alike**: databases that agree accept and reject the same statements. -/
theorem respected_within (K : Set UUID) : Respected (AgreeOn K) (Statement.Within K) := by
  intro st db db' hst h
  rcases h.exec hst with ⟨a, a', ha, ha', hR⟩ | ⟨err, herr, herr'⟩
  · exact .inl ⟨a, a', exec_eq_ok.mpr ha, exec_eq_ok.mpr ha', hR⟩
  · exact .inr ⟨.database err, by simp [Store.exec, herr, Except.mapError],
      by simp [Store.exec, herr', Except.mapError]⟩

/-! ## Statements of others -/

theorem Statement.Within.deal?_ne {st : Statement} (h : st.Within K') (hdisjoint : Disjoint K K')
    {j : UUID} (hj : j ∈ K) : st.deal? ≠ some j := by
  have hne : ∀ {id : UUID}, id ∈ K' → some id ≠ some j := by
    intro id hid heq
    cases heq
    exact Set.disjoint_left.mp hdisjoint hj hid
  cases st with
  | insertAudit entry => simp [Statement.deal?]
  | insertPayment id payment => exact hne h.1
  | insertSolution id solution => exact hne h.1
  | _ => exact hne h

/-- What a statement of others writes uses none of the identifiers. -/
theorem Statement.Within.write_foreign {st : Statement} (h : st.Within K')
    (hdisjoint : Disjoint K K') {o : Option DealRecord} {r : DealRecord}
    (hr : st.write o = some r)
    (ho : ∀ r₀ ∈ o, (∀ p ∈ r₀.payments, p.id ∉ K) ∧ ∀ s ∈ r₀.solution, s.id ∉ K) :
    (∀ p ∈ r.payments, p.id ∉ K) ∧ ∀ s ∈ r.solution, s.id ∉ K := by
  have hother : ∀ {x : UUID}, x ∈ K' → x ∉ K := fun hx hx' =>
    Set.disjoint_left.mp hdisjoint hx' hx
  cases st with
  | insertDeal id row =>
    cases hr
    exact ⟨by simp, by simp⟩
  | insertAudit entry => exact ho r hr
  | updateDeal id changes now =>
    obtain ⟨r₀, rfl, rfl⟩ := Option.map_eq_some_iff.mp hr
    exact ho r₀ rfl
  | deletePayments id ids =>
    obtain ⟨r₀, rfl, rfl⟩ := Option.map_eq_some_iff.mp hr
    exact ⟨fun p hp => (ho r₀ rfl).1 p (List.mem_filter.mp hp).1, (ho r₀ rfl).2⟩
  | insertPayment id payment =>
    obtain ⟨r₀, rfl, rfl⟩ := Option.map_eq_some_iff.mp hr
    refine ⟨fun p hp => ?_, (ho r₀ rfl).2⟩
    rcases List.mem_append.mp hp with hold | hnew
    · exact (ho r₀ rfl).1 p hold
    · rw [List.mem_singleton.mp hnew]
      exact hother h.2
  | insertSolution id solution =>
    obtain ⟨r₀, rfl, rfl⟩ := Option.map_eq_some_iff.mp hr
    refine ⟨(ho r₀ rfl).1, fun s hs => ?_⟩
    cases hs
    exact hother h.2
  | updateSolution id changes =>
    obtain ⟨r₀, rfl, rfl⟩ := Option.map_eq_some_iff.mp hr
    refine ⟨(ho r₀ rfl).1, fun s hs => ?_⟩
    obtain ⟨s₀, hs₀, rfl⟩ := Option.map_eq_some_iff.mp hs
    exact (ho r₀ rfl).2 s₀ hs₀

open Classical in
/-- A statement of others leaves alone what a request sees. -/
theorem agreeOn_of_exec {st : Statement} (h : st.Within K') (hdisjoint : Disjoint K K')
    (hforeign : db.Foreign K) (hexec : st.exec db = .ok db') : AgreeOn K db db' := by
  obtain ⟨hlookup, haudit, hnsi⟩ := Statement.exec_frame hexec
  have hentry : ∀ entry ∈ st.entry?.toList, entry.entityId ∉ K ∧ entry.id ∉ K := by
    intro entry hentry
    cases st <;> simp only [Statement.entry?, Option.toList, List.mem_singleton,
      List.not_mem_nil] at hentry
    subst hentry
    exact ⟨fun hK => Set.disjoint_left.mp hdisjoint hK h.1,
      fun hK => Set.disjoint_left.mp hdisjoint hK h.2⟩
  refine ⟨hnsi, fun j hj => ?_, ?_, fun x hx => ?_, hforeign, ?_⟩
  · rw [hlookup j, if_neg (h.deal?_ne hdisjoint hj)]
  · have hnone : st.entry?.toList.filter (fun entry => decide (entry.entityId ∈ K)) = [] :=
      List.filter_eq_nil_iff.mpr fun entry he => by simpa using (hentry entry he).1
    rw [Database.entriesIn, haudit, List.filter_append, hnone, List.append_nil,
      Database.entriesIn]
  · have hnone : st.entry?.toList.any (fun entry => decide (entry.id = x)) = false := by
      refine List.any_eq_false.mpr fun entry he => ?_
      simp only [decide_eq_true_eq]
      rintro rfl
      exact (hentry entry he).2 hx
    rw [haudit, List.any_append, hnone, Bool.or_false]
  · intro j r hr hj
    rw [hlookup j] at hr
    split at hr
    · exact h.write_foreign hdisjoint hr fun r₀ hr₀ => hforeign j r₀ hr₀ hj
    · exact hforeign j r hr hj

/-- **The statements of others are not seen.** -/
theorem agreeOn_of_replay {log : List Statement} (hlog : ∀ st ∈ log, st.Within K')
    (hdisjoint : Disjoint K K') (hforeign : db.Foreign K) (hreplay : replay log db = .ok db') :
    AgreeOn K db db' := by
  refine replay_preserves (p := AgreeOn K db) ?_ hreplay (.refl hforeign)
  intro st hst a b hexec ha
  exact ha.trans (agreeOn_of_exec (hlog st hst) hdisjoint ha.foreign' (exec_eq_ok.mp hexec))

end Agreement

end FxDealManager
