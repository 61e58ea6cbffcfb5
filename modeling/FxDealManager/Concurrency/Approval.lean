import Mathlib.Data.Fintype.Basic
import FxDealManager.Concurrency.Requests

/-!
# Approvals under concurrency

An approval reads that the deal is waiting, posts its payments, and only then writes the new state.
Two approvals that have both read a waiting deal both post. If no approval reads the deal while
another one is between its reading and its commit, at most one of them posts.

## Main definitions

* `Request.approvable`: the deal passes the checks of an approval
* `posts`: the request posts payments in the turn
* `Overlaps`: an approval reads the deal while another one is deciding about it

## Main results

* `Approvals.step`: the invariant of approvals that do not overlap
* `posted_at_most_once`: at most one request posts, in every interleaving without overlaps
* `posted_twice`: an interleaving with an overlap in which two requests post
-/

namespace FxDealManager

open DecimalArithmetic Transactional

section Approval

variable {ι : Type} {requests : ι → Request} {id : UUID}

/-- The deal passes the checks of an approval by the request's user. -/
def Request.approvable (req : Request) (id : UUID) (db : Database) : Bool :=
  (db.deals.lookup id).any fun r => Approvable req.user r.row

/-- The request has read a deal that passes the checks, and has not ended yet. -/
def Request.deciding (req : Request) (id : UUID) : Phase Database → Bool
  | .started snapshot | .sent snapshot => req.approvable id snapshot
  | .idle | .finished => false

/-- The request posts payments in the turn. -/
def posts [DecidableEq ι] (i : ι) (t : RequestTurn ι) : Bool :=
  t.input = .send i && t.output.effects.any fun call => !call.postings.isEmpty

/-- A request reads the deal and finds that it passes the checks, while another request that has
found the same has not ended yet. -/
def Overlaps (requests : ι → Request) (id : UUID) (t : RequestTurn ι) : Prop :=
  ∃ i, t.input = .read i ∧ (t.before.phase i).isIdle = true ∧
    (requests i).approvable id t.before.data = true ∧
      ∃ j, j ≠ i ∧ (requests j).deciding id (t.before.phase j) = true

instance [DecidableEq ι] [Fintype ι] (requests : ι → Request) (id : UUID) (t : RequestTurn ι) :
    Decidable (Overlaps requests id t) :=
  inferInstanceAs (Decidable (∃ _, _ ∧ _ ∧ _ ∧ ∃ _, _ ∧ _))

/-- The deal is waiting for a decision. -/
def Waiting (id : UUID) (db : Database) : Prop :=
  ∃ r, db.deals.lookup id = some r ∧ r.row.dealState = .waitingForPositioner

theorem waiting_of_approvable {req : Request} {db : Database}
    (h : req.approvable id db = true) : Waiting id db := by
  obtain ⟨r, hr, happrovable⟩ := (Option.any_eq_true _ _).mp h
  exact ⟨r, hr, (of_decide_eq_true happrovable).state⟩

/-- An approval that calls the position system, or that commits, has found that the deal passes the
checks. -/
theorem approvable_of_effects {req : Request} {db : Database} (hop : req.op = .approve id)
    (h : (req.plan db).effects ≠ []) : req.approvable id db = true := by
  simp only [Request.plan, Request.outcome, hop] at h
  obtain ⟨call, hcall⟩ := List.exists_mem_of_ne_nil _ h
  obtain ⟨j, _, r, hj, hr, happrovable, -⟩ := handedOver_of_sent hcall
  cases hj
  exact (Option.any_eq_true _ _).mpr ⟨r, hr, decide_eq_true happrovable⟩

/-- An approval that commits has called the position system, and the deal is not waiting any
more, whatever it was when the approval has read it. -/
theorem approve_committed {req : Request} {snapshot db after : Database} {log : List Statement}
    (hop : req.op = .approve id) (hlog : (req.plan snapshot).log = some log)
    (hreplay : replay log db = .ok after) :
    (req.plan snapshot).effects ≠ [] ∧ ¬ Waiting id after := by
  obtain ⟨j, hexit⟩ := exit_of_plan hlog
  rw [hop] at hexit
  generalize (req.outcome snapshot).result = result,
    (req.plan snapshot).effects = effects at hexit ⊢
  obtain rfl : id = j := hexit.deal_eq rfl
  refine ⟨?_, ?_⟩
  · cases hexit with
    | sendFailed _ _ _ _ _ _ _ => simp
    | executed _ _ _ _ _ _ _ _ => simp
    | invalidated _ hrejects _ _ _ => cases hrejects
    | moved _ hmoves _ _ _ => cases hmoves
    | declined _ hdeclines _ _ _ _ _ => cases hdeclines
  · rintro ⟨r', hr', hwaiting⟩
    rcases hexit.created_or_changed hreplay hr' with
      ⟨_, _, _, hcreate, -⟩ | ⟨r₀, r, -, -, hchange⟩
    · cases hcreate
    · generalize entries log = added at hchange
      cases hchange with
      | invalidated hrejects _ _ _ => cases hrejects
      | moved hmoves _ _ => cases hmoves
      | decided hdecision _ =>
        cases hdecision with
        | declined hdeclines _ _ _ => cases hdeclines
        | unsent _ _ _ _ => cases hwaiting
        | sent _ _ _ _ _ => cases hwaiting

/-! ## The invariant -/

/-- **Approvals that do not overlap**: at most one request is deciding, about a deal that is
waiting; a request that has posted is deciding still, or the deal is not waiting any more; and at
most one request has posted. -/
structure Approvals (requests : ι → Request) (id : UUID) (posted : ι → Prop)
    (s : ServiceSystem ι) : Prop where
  unique : ∀ i j, (requests i).deciding id (s.phase i) = true →
    (requests j).deciding id (s.phase j) = true → i = j
  waiting : ∀ i, (requests i).deciding id (s.phase i) = true → Waiting id s.data
  decided : ∀ i, posted i →
    (∃ d, s.phase i = .sent d ∧ ((requests i).plan d).effects ≠ []) ∨ ¬ Waiting id s.data
  once : ∀ i j, posted i → posted j → i = j

namespace Approvals

variable {posted posted' : ι → Prop} {s : ServiceSystem ι} {i : ι} {d : Database}

theorem start (requests : ι → Request) (id : UUID) (db : Database) :
    Approvals requests id (fun _ => False) (System.start db) :=
  ⟨nofun, nofun, nofun, nofun⟩

theorem of_imp (h : Approvals requests id posted s) (himp : ∀ i, posted' i → posted i) :
    Approvals requests id posted' s where
  unique := h.unique
  waiting := h.waiting
  decided i hi := h.decided i (himp i hi)
  once i j hi hj := h.once i j (himp i hi) (himp j hj)

/-- A request that has posted is deciding, as long as the deal is waiting. -/
theorem deciding_of_posted (hops : ∀ i, (requests i).op = .approve id)
    (h : Approvals requests id posted s) (hwaiting : Waiting id s.data) {j : ι} (hj : posted j) :
    ∃ d, s.phase j = .sent d ∧ (requests j).deciding id (s.phase j) = true := by
  obtain ⟨d, hphase, heffects⟩ := (h.decided j hj).resolve_right (not_not.mpr hwaiting)
  refine ⟨d, hphase, ?_⟩
  rw [hphase]
  exact approvable_of_effects (hops j) heffects

variable [DecidableEq ι]

/-- Who is deciding when a request gets to another phase: the request itself, or who was before. -/
theorem deciding_enter {phase : Phase Database} {j : ι}
    (hj : (requests j).deciding id ((s.enter i phase).phase j) = true) :
    (j = i ∧ (requests j).deciding id phase = true) ∨
      (j ≠ i ∧ (requests j).deciding id (s.phase j) = true) := by
  by_cases hji : j = i
  · subst hji
    rw [System.enter_self] at hj
    exact .inl ⟨rfl, hj⟩
  · rw [System.enter_ne _ _ hji] at hj
    exact .inr ⟨hji, hj⟩

/-- A request that has sent stays so when another one gets to another phase. -/
theorem sent_enter {phase : Phase Database} {j : ι} (hj : s.phase j = .sent d)
    (hi : s.phase i ≠ .sent d) : (s.enter i phase).phase j = .sent d := by
  have hji : j ≠ i := by
    rintro rfl
    exact hi hj
  rw [System.enter_ne _ _ hji, hj]

/-- A request that reads: nobody else is deciding when it comes to decide. -/
theorem read (h : Approvals requests id posted s) (hphase : s.phase i = .idle)
    (hoverlap : (requests i).approvable id s.data = true →
      ∀ j, j ≠ i → (requests j).deciding id (s.phase j) ≠ true) :
    Approvals requests id posted (s.enter i (.started s.data)) where
  unique := by
    intro j k hj hk
    rcases deciding_enter hj with ⟨hji, happrovable⟩ | ⟨hji, hj'⟩ <;>
      rcases deciding_enter hk with ⟨hki, happrovable'⟩ | ⟨hki, hk'⟩
    · rw [hji, hki]
    · subst hji
      exact absurd hk' (hoverlap happrovable k hki)
    · subst hki
      exact absurd hj' (hoverlap happrovable' j hji)
    · exact h.unique j k hj' hk'
  waiting := by
    intro j hj
    rcases deciding_enter hj with ⟨rfl, happrovable⟩ | ⟨-, hj⟩
    · exact waiting_of_approvable happrovable
    · exact h.waiting j hj
  decided := by
    intro j hj
    refine (h.decided j hj).imp_left ?_
    rintro ⟨d, hd, heffects⟩
    exact ⟨d, sent_enter hd (by rw [hphase]; nofun), heffects⟩
  once := h.once

/-- A request that sends: as it is deciding, nobody else is, so that nobody has posted. -/
theorem sent (hops : ∀ i, (requests i).op = .approve id) (h : Approvals requests id posted s)
    (hphase : s.phase i = .started d) :
    Approvals requests id (fun j => posted j ∨ j = i ∧ ((requests i).plan d).effects ≠ [])
      (s.enter i (.sent d)) := by
  have hdeciding : ∀ j, (requests j).deciding id ((s.enter i (.sent d)).phase j) =
      (requests j).deciding id (s.phase j) := by
    intro j
    by_cases hji : j = i
    · subst hji
      rw [System.enter_self, hphase]
      rfl
    · rw [System.enter_ne _ _ hji]
  -- a request that has posted would be deciding as well, as the deal is waiting still
  have hnobody : ((requests i).plan d).effects ≠ [] → ∀ j, ¬ posted j := by
    intro heffects j hj
    have hi : (requests i).deciding id (s.phase i) = true := by
      rw [hphase]
      exact approvable_of_effects (hops i) heffects
    obtain ⟨d', hsent, hj⟩ := h.deciding_of_posted hops (h.waiting i hi) hj
    rw [h.unique j i hj hi, hphase] at hsent
    cases hsent
  refine ⟨?_, ?_, ?_, ?_⟩
  · intro j k hj hk
    rw [hdeciding] at hj hk
    exact h.unique j k hj hk
  · intro j hj
    rw [hdeciding] at hj
    exact h.waiting j hj
  · rintro j (hj | ⟨rfl, heffects⟩)
    · refine (h.decided j hj).imp_left ?_
      rintro ⟨d', hd', heffects⟩
      exact ⟨d', sent_enter hd' (by rw [hphase]; nofun), heffects⟩
    · exact .inl ⟨d, System.enter_self .., heffects⟩
  · rintro j k (hj | ⟨rfl, heffects⟩) (hk | ⟨rfl, heffects'⟩)
    · exact h.once j k hj hk
    · exact absurd hj (hnobody heffects' j)
    · exact absurd hk (hnobody heffects k)
    · rfl

/-- Who is deciding when a request ends: the others, as before. -/
theorem deciding_finished {j : ι}
    (hj : (requests j).deciding id ((s.enter i .finished).phase j) = true) :
    j ≠ i ∧ (requests j).deciding id (s.phase j) = true := by
  rcases deciding_enter hj with ⟨-, hfinished⟩ | hbefore
  · cases hfinished
  · exact hbefore

/-- A request that fails without having called the position system. -/
theorem failed (h : Approvals requests id posted s) (hphase : s.phase i = .sent d)
    (hlost : ((requests i).plan d).effects = []) :
    Approvals requests id posted (s.enter i .finished) where
  unique j k hj hk := h.unique j k (deciding_finished hj).2 (deciding_finished hk).2
  waiting j hj := h.waiting j (deciding_finished hj).2
  decided := by
    intro j hj
    refine (h.decided j hj).imp_left ?_
    rintro ⟨d', hd', heffects⟩
    have hji : j ≠ i := by
      rintro rfl
      rw [hphase] at hd'
      cases hd'
      exact heffects hlost
    exact ⟨d', by rw [System.enter_ne _ _ hji, hd'], heffects⟩
  once := h.once

/-- A request that commits ends the only decision, and the deal is not waiting any more. -/
theorem committed (hops : ∀ i, (requests i).op = .approve id) (h : Approvals requests id posted s)
    (hphase : s.phase i = .sent d) {log : List Statement} {after : Database}
    (hlog : ((requests i).plan d).log = some log) (hreplay : replay log s.data = .ok after) :
    Approvals requests id posted { s.enter i .finished with data := after } := by
  obtain ⟨heffects, hdone⟩ := approve_committed (hops i) hlog hreplay
  have hi : (requests i).deciding id (s.phase i) = true := by
    rw [hphase]
    exact approvable_of_effects (hops i) heffects
  have hnobody : ∀ j, (requests j).deciding id ((s.enter i .finished).phase j) ≠ true := by
    intro j hj
    obtain ⟨hji, hj⟩ := deciding_finished hj
    exact hji (h.unique j i hj hi)
  exact ⟨fun j _ hj _ => absurd hj (hnobody j), fun j hj => absurd hj (hnobody j),
    fun j _ => .inr hdone, h.once⟩

/-- The invariant is kept by every step that is no overlap and loses no effects. -/
theorem step (hops : ∀ i, (requests i).op = .approve id) {history : List (RequestTurn ι)}
    {a : Action ι} (h : Approvals requests id (fun i => ∃ t ∈ history, posts i t = true) s)
    (hoverlap : ¬ Overlaps requests id (turn (serveInterleaved requests) s a))
    (hlost : (turn (serveInterleaved requests) s a).output.lost = []) :
    Approvals requests id
      (fun i => ∃ t ∈ history ++ [turn (serveInterleaved requests) s a], posts i t = true)
      (serveInterleaved requests s a).2 := by
  have hstep := interleave_happens (fun i => (requests i).plan) s a
  have hnext : interleave (fun i => (requests i).plan) s a = serveInterleaved requests s a := rfl
  rw [hnext] at hstep
  simp only [turn] at hoverlap hlost ⊢
  generalize serveInterleaved requests s a = next at hstep hoverlap hlost ⊢
  obtain ⟨event, s'⟩ := next
  have hquiet : event.effects = [] → ∀ j, (∃ t ∈ history ++ [⟨s, a, event, s'⟩],
      posts j t = true) → ∃ t ∈ history, posts j t = true := by
    rintro heffects j ⟨t, ht, hposts⟩
    rcases List.mem_append.mp ht with hpast | hlast
    · exact ⟨t, hpast, hposts⟩
    · obtain rfl := List.mem_singleton.mp hlast
      simp [posts, heffects] at hposts
  cases hstep with
  | skipped => exact h.of_imp (hquiet rfl)
  | @read i hphase =>
    refine (h.read hphase fun happrovable j hji hj => hoverlap ?_).of_imp (hquiet rfl)
    exact ⟨i, rfl, by rw [hphase]; rfl, happrovable, j, hji, hj⟩
  | @sent i d hphase =>
    refine (h.sent hops hphase).of_imp ?_
    rintro j ⟨t, ht, hposts⟩
    rcases List.mem_append.mp ht with hpast | hlast
    · exact .inl ⟨t, hpast, hposts⟩
    · obtain rfl := List.mem_singleton.mp hlast
      obtain ⟨hsend, hany⟩ := Bool.and_eq_true_iff.mp hposts
      obtain rfl : i = j := Action.send.inj (of_decide_eq_true hsend)
      refine .inr ⟨rfl, fun hnone => ?_⟩
      simp [Event.effects, hnone] at hany
  | failed hphase => exact (h.failed hphase hlost).of_imp (hquiet rfl)
  | committed hphase hlog hreplay =>
    exact (h.committed hops hphase hlog hreplay).of_imp (hquiet rfl)

end Approvals

/-- **At most one request posts** the payments of a deal, in every interleaving of approvals of the
deal in which none reads a waiting deal while another one is deciding about it, and in which no
request that has called the position system fails to commit. -/
theorem posted_at_most_once [DecidableEq ι] (hops : ∀ i, (requests i).op = .approve id)
    {db : Database} {s : ServiceSystem ι} {history : List (RequestTurn ι)}
    (h : Run (serveInterleaved requests) (System.start db) history s)
    (hoverlap : ∀ t ∈ history, ¬ Overlaps requests id t)
    (hlost : ∀ t ∈ history, t.output.lost = []) :
    ∀ i j, (∃ t ∈ history, posts i t = true) → (∃ t ∈ history, posts j t = true) → i = j := by
  have hinv : Approvals requests id (fun i => ∃ t ∈ history, posts i t = true) s := by
    refine Run.invariant_of (C := fun t => ¬ Overlaps requests id t ∧ t.output.lost = [])
      (P := fun history s => Approvals requests id (fun i => ∃ t ∈ history, posts i t = true) s)
      ?_ ?_ h (fun t ht => ⟨hoverlap t ht, hlost t ht⟩)
    · exact (Approvals.start requests id db).of_imp fun i ⟨t, ht, _⟩ => by cases ht
    · rintro history s a ⟨hoverlap, hlost⟩ hP
      exact hP.step hops hoverlap hlost
  exact hinv.once

end Approval

/-! ## Two positioners -/

namespace Desk

/-- Two positioners approve the resubmitted deal, at the same time. -/
def approvals : Bool → Request
  | true => ⟨env 7, positioner, .approve dealId⟩
  | false => ⟨env 8, ⟨"positioner-2", "positioner-2@bank", .positioner⟩, .approve dealId⟩

/-- The database when the two approvals begin. -/
def resubmittedSystem : ServiceSystem Bool := System.start (after resubmission)

end Desk

/-- One after the other, only the first of the two approvals posts. -/
theorem posted_at_most_once_desk :
    (∃ t ∈ history (serveInterleaved Desk.approvals) Desk.resubmittedSystem Desk.oneByOne,
        posts true t = true) ∧
      ¬ ∃ t ∈ history (serveInterleaved Desk.approvals) Desk.resubmittedSystem Desk.oneByOne,
        posts false t = true := by
  have hfirst : ∃ t ∈ history (serveInterleaved Desk.approvals) Desk.resubmittedSystem
      Desk.oneByOne, posts true t = true := by decide +kernel
  refine ⟨hfirst, fun hsecond => ?_⟩
  cases posted_at_most_once (fun | true => rfl | false => rfl)
    (run_serveAll (serveInterleaved Desk.approvals) Desk.resubmittedSystem Desk.oneByOne)
    (by decide +kernel) (by decide +kernel) true false hfirst hsecond

/-- Two approvals that have both read the waiting deal both post its payments, and both commit. -/
theorem posted_twice :
    ¬ ∀ (nsi : ReferenceData) (past : List ServiceTurn) (db : Database),
      Run step (Database.initial nsi) past db →
        ∀ (ι : Type) [DecidableEq ι] (requests : ι → Request) (id : UUID),
          (∀ i, (requests i).op = .approve id) → Waiting id db →
          (∀ i n, (requests i).env.rejects n = false) →
          ∀ (history : List (RequestTurn ι)) (s : ServiceSystem ι),
            Run (serveInterleaved requests) (System.start db) history s →
            (∀ t ∈ history, t.output.lost = []) →
            (∀ t ∈ history, ∀ call ∈ t.output.effects, ∀ posting ∈ call.postings,
              posting.outcome.accepted = true) →
              ∀ i j, (∃ t ∈ history, posts i t = true) → (∃ t ∈ history, posts j t = true) →
                i = j := by
  intro h
  have hwaiting : Waiting Desk.dealId (Desk.after Desk.resubmission) := by
    have hany : ((Desk.after Desk.resubmission).deals.lookup Desk.dealId).any
        (fun r => r.row.dealState = .waitingForPositioner) = true := by decide +kernel
    obtain ⟨r, hr, hstate⟩ := (Option.any_eq_true _ _).mp hany
    exact ⟨r, hr, of_decide_eq_true hstate⟩
  -- both have read the waiting deal before either of them posts
  have honce := h Desk.nsi _ _ (run_serveAll step (Database.initial Desk.nsi) Desk.resubmission)
    Bool Desk.approvals Desk.dealId (fun | true => rfl | false => rfl) hwaiting
    (fun | true, _ => rfl | false, _ => rfl) _ _
    (run_serveAll (serveInterleaved Desk.approvals) Desk.resubmittedSystem Desk.overlapping)
    (by decide +kernel) (by decide +kernel) true false (by decide +kernel) (by decide +kernel)
  cases honce

end FxDealManager
