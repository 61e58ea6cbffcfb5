import FxDealManager.Concurrency.Requests
import FxDealManager.Lifecycle.Independence
import FxDealManager.Transactional.Serialization

/-!
# Requests about different deals

Requests about different deals may overlap in any way: what they come to is what they come to one
after another, in the order of their commits. Only requests about one deal have to wait for each
other.

## Main definitions

* `Request.input`: a request as an input of a sequential run
* `Outcome.Same`: outcomes that look the same from outside

## Main results

* `independent_agreeOn`: no deal sees what is committed about another one
* `serializable_by_deal`: an interleaving in which the requests about each deal do not overlap
-/

namespace FxDealManager

open Transactional

/-- The request as an input of a sequential run. -/
def Request.input (req : Request) : Input := .request req.env req.user req.op

/-- The outcomes look the same from outside: answer, transactions and sendings. -/
structure Outcome.Same (o o' : Outcome) : Prop where
  result : o'.result = o.result
  transactions : o'.transactions = o.transactions
  sends : o'.sends = o.sends

section Independence

variable {ι κ : Type} {requests : ι → Request} {ids : κ → Set UUID}

/-- What the plan of a request commits is what the request leaves. -/
theorem replay_of_plan {req : Request} {db : Database} {log : List Statement}
    (h : (req.plan db).log = some log) : replay log db = .ok (req.outcome db).database := by
  simp only [Request.plan, Request.outcome] at h ⊢
  cases execute_ends req.env req.user req.op db with
  | stopped _ _ htransactions _ =>
    rw [htransactions] at h
    cases h
  | exited _ _ htransactions hreplay =>
    rw [htransactions] at h
    cases h
    exact hreplay

/-- A request that nobody interrupts is an input of a sequential run. -/
theorem serveNext_plan (i : ι) (db : Database) :
    serveNext (fun i => (requests i).plan) db i = (step db (requests i).input).2 := by
  have hstep : (step db (requests i).input).2 = ((requests i).outcome db).database := rfl
  cases hlog : ((requests i).plan db).log with
  | some log =>
    rw [hstep]
    exact serveNext_of_replay hlog (replay_of_plan hlog)
  | none =>
    simp only [serveNext, hlog]
    rw [hstep]
    simp only [Request.plan, Request.outcome] at hlog ⊢
    cases execute_ends (requests i).env (requests i).user (requests i).op db with
    | stopped _ hdb _ _ => exact hdb.symm
    | exited _ _ htransactions _ =>
      rw [htransactions] at hlog
      cases hlog

theorem foldl_serveNext_plan (requests : ι → Request) (is : List ι) (db : Database) :
    is.foldl (serveNext fun i => (requests i).plan) db =
      serveAll step db (is.map fun i => (requests i).input) := by
  have hnext : (serveNext fun i => (requests i).plan) =
      fun db i => (step db (requests i).input).2 :=
    funext fun db => funext fun i => serveNext_plan i db
  rw [hnext, serveAll, List.foldl_map]

/-- On databases that agree, a request looks the same. -/
theorem outcome_same {K : Set UUID} {req : Request} {db db' : Database}
    (hids : req.input.ids ⊆ K) (h : AgreeOn K db db') :
    (req.outcome db).Same (req.outcome db') ∧
      AgreeOn K (req.outcome db).database (req.outcome db').database := by
  obtain ⟨hdrawn, hop⟩ := drawn_of_ids hids
  obtain ⟨hresult, htransactions, hsends, hagree⟩ :=
    execute_agree hdrawn req.user hop h
  exact ⟨⟨hresult, htransactions, hsends⟩, hagree⟩

/-- **No deal sees what is committed about another one.** -/
theorem independent_agreeOn (home : ι → κ)
    (hdisjoint : Pairwise fun k l => Disjoint (ids k) (ids l))
    (hids : ∀ i, (requests i).input.ids ⊆ ids (home i)) :
    Independent (fun i => (requests i).plan) home fun k => AgreeOn (ids k) where
  symm _ _ _ h := h.symm
  trans _ _ _ _ h h' := h.trans h'
  sees i db db' h := by
    obtain ⟨hsame, -⟩ := outcome_same (hids i) h
    simp only [Request.plan, hsame.sends, hsame.transactions]
  replays i db log hlog := ⟨_, replay_of_plan hlog⟩
  keeps i db log db' h hlog hreplay := by
    rw [replay_of_plan hlog] at hreplay
    cases hreplay
    exact (outcome_same (hids i) h).2
  frame k i db log db' hk h hhome hlog hreplay := by
    obtain ⟨hdrawn, hop⟩ := drawn_of_ids (hids i)
    refine agreeOn_of_replay (fun st hst => ?_) (hdisjoint hk) h.foreign hreplay
    refine execute_within hdrawn (requests i).user hop hhome.foreign log ?_ st hst
    exact List.mem_of_mem_head? hlog

variable [DecidableEq ι]

/-- **Requests about different deals may overlap**: if requests of one home do not, the interleaving
leaves what the requests leave one after another, in the order of their commits; each request gets
the answer, commits and sends what it does there. -/
theorem serializable_by_deal (home : ι → κ)
    (hdisjoint : Pairwise fun k l => Disjoint (ids k) (ids l))
    (hids : ∀ i, (requests i).input.ids ⊆ ids (home i)) {db : Database}
    (hforeign : ∀ k, db.Foreign (ids k)) {history : List (RequestTurn ι)} {s : ServiceSystem ι}
    (hrun : Run (serveInterleaved requests) (System.start db) history s)
    (halone : ∀ t ∈ history, Alone home t) :
    s.data = serveAll step db ((commits history).map fun i => (requests i).input) ∧
      ∀ past t later, history = past ++ t :: later → ∀ i snapshot, t.commits = some (i, snapshot) →
        ((requests i).outcome snapshot).Same ((requests i).outcome
            (serveAll step db ((commits past).map fun i => (requests i).input))) ∧
          ∀ log, ((requests i).plan snapshot).log = some log → t.output = .committed log := by
  have hindependent := independent_agreeOn home hdisjoint hids
  obtain ⟨hdata, hcommits⟩ :=
    hindependent.serializable (fun k => .refl (hforeign k)) hrun halone
  refine ⟨by rw [hdata, foldl_serveNext_plan], fun past t later hhistory i snapshot ht => ?_⟩
  obtain ⟨hagree, hcommitted⟩ := hcommits past t later hhistory i snapshot ht
  rw [foldl_serveNext_plan] at hagree
  exact ⟨(outcome_same (hids i) hagree).1, hcommitted⟩

end Independence

/-! ## Two deals at the same time -/

namespace Desk

/-- Two creations, which draw other identifiers. -/
def creations (second : Bool) : Request := ⟨envOf 1 second.toNat, trader, .create payload⟩

/-- The identifiers of the two creations. -/
def parity (second : Bool) : Set UUID := { id | id % 2 = second.toNat }

theorem parity_disjoint : Pairwise fun k l => Disjoint (parity k) (parity l) := by
  intro k l hkl
  refine Set.disjoint_left.mpr fun id (hk : id % 2 = k.toNat) (hl : id % 2 = l.toNat) => hkl ?_
  cases k <;> cases l <;> simp_all

theorem ids_creations (second : Bool) : (creations second).input.ids ⊆ parity second := by
  rintro id (⟨⟨⟩⟩ | ⟨n, rfl⟩)
  change (2 * (100 * 1 + n) + second.toNat) % 2 = second.toNat
  cases second <;> simp

end Desk

/-- Two creations that overlap are as good as one after the other. -/
theorem serializable_by_deal_creations :
    let turns := history (serveInterleaved Desk.creations)
      (System.start (Database.initial Desk.nsi)) Desk.overlapping
    (serveAll (serveInterleaved Desk.creations) (System.start (Database.initial Desk.nsi))
        Desk.overlapping).data =
      serveAll step (Database.initial Desk.nsi)
        ((commits turns).map fun i => (Desk.creations i).input) := by
  refine (serializable_by_deal id Desk.parity_disjoint Desk.ids_creations
    (fun k => foreign_initial _ _) (run_serveAll _ _ Desk.overlapping) ?_).1
  intro t _ i d _ j hj hhome
  exact absurd hhome hj

end FxDealManager
