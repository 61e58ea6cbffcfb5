import FxDealManager.Lifecycle.Locality

/-!
# The deals are independent of each other

The service looks, to those who work on some deals, as if the other deals did not exist: what a run
does to the deals of a set is what the inputs about them do on their own, answer by answer.

## Main definitions

* `Input.ids`: the identifiers that an input knows
* `Sided`: the deals keep to the side of their ids
* `seen`: what is seen of a turn from outside

## Main results

* `sided_step`: every input keeps to its side
* `run_project`: the inputs about a set of deals, on their own
-/

namespace FxDealManager

open Transactional

/-- The identifiers that an input knows: that of its deal, and those that it draws. -/
def Input.ids : Input → Set UUID
  | .request env _ op => { id | op.deal? = some id } ∪ Set.range env.uuid
  | .referenceData _ => ∅

/-- What is seen of a turn from outside: the input, the answer, what was committed and what was
sent. -/
def seen (t : ServiceTurn) :
    Input × Option (Except ServiceError DealResponse × List (List Statement) × List SendCall) :=
  (t.input, t.output.map fun o => (o.result, o.transactions, o.sends))

open Classical in
/-- The turns with inputs about the set. -/
noncomputable def concerning (K : Set UUID) (history : List ServiceTurn) : List ServiceTurn :=
  history.filter fun t => t.input.ids ⊆ K

/-- The deals inside the set use no identifiers outside of it, and the other way round. -/
structure Sided (K : Set UUID) (db : Database) : Prop where
  inside : db.Foreign K
  outside : db.Foreign Kᶜ

section Projection

variable {K : Set UUID} {db db' : Database}

theorem drawn_of_ids {env : Env} {user : UserClaims} {op : Operation}
    (h : (Input.request env user op).ids ⊆ K) :
    (∀ n, env.uuid n ∈ K) ∧ ∀ id ∈ op.deal?, id ∈ K :=
  ⟨fun n => h (.inr ⟨n, rfl⟩), fun _ hid => h (.inl hid)⟩

theorem concerning_append (history : List ServiceTurn) {t : ServiceTurn} (h : t.input.ids ⊆ K) :
    concerning K (history ++ [t]) = concerning K history ++ [t] := by
  simp [concerning, h]

theorem concerning_append_other (history : List ServiceTurn) {t : ServiceTurn}
    (h : ¬ t.input.ids ⊆ K) : concerning K (history ++ [t]) = concerning K history := by
  simp [concerning, h]

theorem foreign_initial (K : Set UUID) (nsi : ReferenceData) :
    (Database.initial nsi).Foreign K := by
  intro j r hr
  cases hr

theorem sided_initial (nsi : ReferenceData) : Sided K (Database.initial nsi) :=
  ⟨foreign_initial K nsi, foreign_initial Kᶜ nsi⟩

/-- Another reference data changes nothing about the deals. -/
theorem AgreeOn.referenceData (h : AgreeOn K db db') (nsi : ReferenceData) :
    AgreeOn K { db with nsi } { db' with nsi } :=
  ⟨rfl, h.deals, h.entries, h.taken, h.foreign, h.foreign'⟩

/-- A request of one side is not seen from the other side. -/
theorem agreeOn_step_other {env : Env} {user : UserClaims} {op : Operation}
    (hids : (Input.request env user op).ids ⊆ Kᶜ) (h : Sided K db) :
    AgreeOn K db (step db (.request env user op)).2 := by
  obtain ⟨hdrawn, hop⟩ := drawn_of_ids hids
  have hwithin := execute_within hdrawn user hop h.outside
  simp only [step]
  cases execute_ends env user op db with
  | stopped _ hdb _ _ =>
    rw [hdb]
    exact .refl h.inside
  | exited _ _ htransactions hreplay =>
    have hlog := hwithin _ (by rw [htransactions]; exact List.mem_singleton_self _)
    exact agreeOn_of_replay hlog disjoint_compl_right h.inside hreplay

/-- A request of one side does the same wherever this side is the same. -/
theorem agreeOn_step_own {env : Env} {user : UserClaims} {op : Operation}
    (hids : (Input.request env user op).ids ⊆ K) (h : AgreeOn K db db') :
    seen (turn step db' (.request env user op)) = seen (turn step db (.request env user op)) ∧
      AgreeOn K (step db (.request env user op)).2 (step db' (.request env user op)).2 := by
  obtain ⟨hdrawn, hop⟩ := drawn_of_ids hids
  obtain ⟨hresult, htransactions, hsends, hagree⟩ := execute_agree hdrawn user hop h
  refine ⟨?_, hagree⟩
  simp [seen, turn, step, hresult, htransactions, hsends]

/-- Every input keeps to its side. -/
theorem sided_step {input : Input} (hids : input.ids ⊆ K ∨ input.ids ⊆ Kᶜ) (h : Sided K db) :
    Sided K (step db input).2 := by
  cases input with
  | referenceData nsi => exact ⟨h.inside, h.outside⟩
  | request env user op =>
    have hcompl : Sided Kᶜ db := ⟨h.outside, by rw [compl_compl]; exact h.inside⟩
    rcases hids with hids | hids
    · refine ⟨(agreeOn_step_own hids (.refl h.inside)).2.foreign, ?_⟩
      exact (agreeOn_step_other (by rwa [compl_compl]) hcompl).foreign'
    · exact ⟨(agreeOn_step_other hids h).foreign',
        (agreeOn_step_own hids (.refl h.outside)).2.foreign⟩

/-- **The deals of a set on their own**: if every input knows identifiers of one side only, a run
does to the deals of the set, and answers about them, what the inputs about them do in a run of
their own, in which no other deals exist. -/
theorem run_project {nsi : ReferenceData} {history : List ServiceTurn}
    (hids : ∀ t ∈ history, t.input.ids ⊆ K ∨ t.input.ids ⊆ Kᶜ)
    (hrun : Run step (Database.initial nsi) history db) :
    ∃ own db', Run step (Database.initial nsi) own db' ∧
      own.map seen = (concerning K history).map seen ∧
      AgreeOn K db db' ∧ AgreeOn Kᶜ (Database.initial db'.nsi) db' := by
  suffices h : Sided K db ∧ ∃ own db', Run step (Database.initial nsi) own db' ∧
      own.map seen = (concerning K history).map seen ∧
      AgreeOn K db db' ∧ Sided K db' ∧ AgreeOn Kᶜ (Database.initial db'.nsi) db' by
    obtain ⟨-, own, db', hown, hseen, hagree, -, hnothing⟩ := h
    exact ⟨own, db', hown, hseen, hagree, hnothing⟩
  refine Run.invariant_of (C := fun t => t.input.ids ⊆ K ∨ t.input.ids ⊆ Kᶜ)
    (P := fun history db => Sided K db ∧ ∃ own db', Run step (Database.initial nsi) own db' ∧
      own.map seen = (concerning K history).map seen ∧
      AgreeOn K db db' ∧ Sided K db' ∧ AgreeOn Kᶜ (Database.initial db'.nsi) db')
    ?_ ?_ hrun hids
  · have hinitial := sided_initial (K := K) nsi
    exact ⟨hinitial, [], _, .start, rfl, .refl hinitial.inside, hinitial, .refl hinitial.outside⟩
  · rintro history db input hinput ⟨hsided, own, db', hown, hseen, hagree, hsided', hnothing⟩
    refine ⟨sided_step hinput hsided, ?_⟩
    by_cases hK : input.ids ⊆ K
    · refine ⟨own ++ [turn step db' input], _, hown.serve input, ?_, ?_,
        sided_step hinput hsided', ?_⟩
      · have hturn : seen (turn step db' input) = seen (turn step db input) := by
          cases input with
          | referenceData nsi => rfl
          | request env user op => exact (agreeOn_step_own hK hagree).1
        rw [concerning_append history (t := turn step db input) hK, List.map_append, hseen,
          List.map_append, List.map_singleton, hturn, List.map_singleton]
      · cases input with
        | referenceData nsi => exact hagree.referenceData nsi
        | request env user op => exact (agreeOn_step_own hK hagree).2
      · cases input with
        | referenceData nsi => exact hnothing.referenceData nsi
        | request env user op =>
          have hother : AgreeOn Kᶜ db' (step db' (.request env user op)).2 :=
            agreeOn_step_other (by rwa [compl_compl])
              ⟨hsided'.outside, by rw [compl_compl]; exact hsided'.inside⟩
          have hnsi : (step db' (.request env user op)).2.nsi = db'.nsi := hother.nsi
          rw [hnsi]
          exact hnothing.trans hother
    · refine ⟨own, db', hown, ?_, ?_, hsided', hnothing⟩
      · rw [concerning_append_other history (t := turn step db input) hK, hseen]
      · cases input with
        | referenceData nsi => exact absurd (Set.empty_subset K) hK
        | request env user op =>
          exact (agreeOn_step_other (hinput.resolve_left hK) hsided).symm.trans hagree

end Projection

/-! ## Two deals at the desk -/

namespace Desk

/-- The circumstances of the `k`-th request, which draws even identifiers only, or odd ones. -/
def envOf (k parity : ℕ) : Env := { env k with uuid n := 2 * (100 * k + n) + parity }

/-- Two deals are created, and the first one is validated. -/
def twoDeals : List Input :=
  [.request (envOf 1 0) trader (.create payload), .request (envOf 1 1) trader (.create payload),
    .request (envOf 2 0) trader (.validate 200)]

/-- The inputs about the first deal know even identifiers, the others odd ones. -/
theorem ids_twoDeals : ∀ input ∈ twoDeals,
    input.ids ⊆ { id | id % 2 = 0 } ∨ input.ids ⊆ ({ id | id % 2 = 0 } : Set UUID)ᶜ := by
  have hdrawn : ∀ k parity n, (envOf k parity).uuid n % 2 = parity % 2 := by
    intro k parity n
    change (2 * (100 * k + n) + parity) % 2 = parity % 2
    omega
  simp only [twoDeals, List.forall_mem_cons, List.not_mem_nil, false_implies, implies_true,
    and_true]
  refine ⟨.inl ?_, .inr ?_, .inl ?_⟩
  · rintro id (⟨⟨⟩⟩ | ⟨n, rfl⟩)
    exact hdrawn 1 0 n
  · rintro id (⟨⟨⟩⟩ | ⟨n, rfl⟩)
    simp [hdrawn 1 1 n]
  · rintro id (⟨⟨⟩⟩ | ⟨n, rfl⟩)
    · rfl
    · exact hdrawn 2 0 n

end Desk

/-- The first deal at the desk, as if the second one did not exist. -/
theorem run_project_twoDeals :
    ∃ own db', Run step (Database.initial Desk.nsi) own db' ∧
      own.map seen = (concerning { id | id % 2 = 0 }
        (history step (Database.initial Desk.nsi) Desk.twoDeals)).map seen ∧
      AgreeOn { id | id % 2 = 0 } (Desk.after Desk.twoDeals) db' ∧
      AgreeOn { id | id % 2 = 0 }ᶜ (Database.initial db'.nsi) db' := by
  refine run_project ?_ (run_serveAll step (Database.initial Desk.nsi) Desk.twoDeals)
  intro t ht
  have hinput : t.input ∈ Desk.twoDeals := by
    rw [← history_inputs step (Database.initial Desk.nsi) Desk.twoDeals]
    exact List.mem_map_of_mem ht
  exact Desk.ids_twoDeals t.input hinput

end FxDealManager
