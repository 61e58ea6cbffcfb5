import FxDealManager.Transactional.Interleaving

/-!
# Interleavings that are sequential

Each request has a home, the part of the data that it looks at and writes, given by a relation: data
that are related for a home make its requests plan the same. No commit is seen from another home. If
no request commits while another one of its home is open, then the interleaving is as good as
serving the requests one after another, in the order of their commits: the data are the same, and
each request plans what it would have planned on the data of its commit.

## Main definitions

* `Independent`: no home sees what is committed in another one
* `Alone`: a turn that commits while no other request of its home is open
* `commits`: the requests that have got to their commits, in order
* `serveNext`: a request that nobody interrupts

## Main results

* `Independent.step`: a turn serves the next request of the sequence, or changes no data
* `Independent.serializable`: every interleaving of such turns is sequential
-/

namespace Transactional

variable {ι κ S D ε P : Type}

/-- No home sees what is committed in another one: `R k` relates the data that agree on the home
`k`, and are in order there. -/
structure Independent [Store S D ε] (plan : ι → D → Plan S P) (home : ι → κ)
    (R : κ → D → D → Prop) : Prop where
  symm : ∀ k d d', R k d d' → R k d' d
  trans : ∀ k d d' d'', R k d d' → R k d' d'' → R k d d''
  sees : ∀ i d d', R (home i) d d' → plan i d' = plan i d
  /-- A plan can be carried out on the data that it was made for. -/
  replays : ∀ i d log, (plan i d).log = some log → ∃ d', replay log d = .ok d'
  keeps : ∀ i d log d', R (home i) d d → (plan i d).log = some log → replay log d = .ok d' →
    R (home i) d' d'
  frame : ∀ k i d log d', k ≠ home i → R k d d → R (home i) d d → (plan i d).log = some log →
    replay log d = .ok d' → R k d d'

/-- The data that an open request has read. -/
def Phase.snapshot? : Phase D → Option D
  | .started snapshot | .sent snapshot => some snapshot
  | .idle | .finished => none

/-- If the turn gets to a commit, no other request of the same home is open. -/
def Alone (home : ι → κ) (t : Turn (Action ι) (Event S P) (System ι D)) : Prop :=
  ∀ i d, t.commits = some (i, d) → ∀ j, j ≠ i → home j = home i →
    (t.before.phase j).snapshot? = none

/-- The requests that have got to their commits, in order. -/
def commits (history : List (Turn (Action ι) (Event S P) (System ι D))) : List ι :=
  (history.filterMap Turn.commits).map Prod.fst

/-- A turn gets to a commit if its request has sent. -/
theorem commits_turn_eq {step : System ι D → Action ι → Event S P × System ι D} {s : System ι D}
    {a : Action ι} : commits [turn step s a] =
      match a with
      | .commit i =>
        match s.phase i with
        | .sent _ => [i]
        | _ => []
      | _ => [] := by
  cases a with
  | commit i => cases hphase : s.phase i <;> simp [commits, Turn.commits, turn, hphase]
  | read i | send i => rfl

section Serial

variable [Store S D ε]

/-- What a request leaves that nobody interrupts. -/
def serveNext (plan : ι → D → Plan S P) (d : D) (i : ι) : D :=
  match (plan i d).log with
  | none => d
  | some log =>
    match replay log d with
    | .ok d' => d'
    | .error _ => d

theorem serveNext_of_replay {plan : ι → D → Plan S P} {d d' : D} {i : ι} {log : List S}
    (hlog : (plan i d).log = some log) (h : replay log d = .ok d') : serveNext plan d i = d' := by
  simp only [serveNext, hlog, h]

variable {plan : ι → D → Plan S P} {home : ι → κ} {R : κ → D → D → Prop} {d₀ : D}

/-- The data are in order in every home, and open requests have read what they would read now. -/
structure UpToDate (home : ι → κ) (R : κ → D → D → Prop) (s : System ι D) : Prop where
  inOrder : ∀ k, R k s.data s.data
  fresh : ∀ i, ∀ d ∈ (s.phase i).snapshot?, R (home i) d s.data

variable [DecidableEq ι]

/-- A request that gets to another phase is to be as up to date as the others. -/
theorem UpToDate.enter {s : System ι D} (h : UpToDate home R s) {i : ι} {phase : Phase D}
    (hphase : ∀ d ∈ phase.snapshot?, R (home i) d s.data) :
    UpToDate home R (s.enter i phase) := by
  refine ⟨h.inOrder, fun j d hd => ?_⟩
  by_cases hj : j = i
  · subst hj
    rw [System.enter_self] at hd
    exact hphase d hd
  · rw [System.enter_ne s phase hj] at hd
    exact h.fresh j d hd

/-- What is committed leaves the requests of other homes up to date. -/
theorem Independent.upToDate_commit (h : Independent plan home R) {s : System ι D} {i : ι}
    {d' : D} {log : List S} (hs : UpToDate home R s)
    (halone : ∀ j, j ≠ i → home j = home i → (s.phase j).snapshot? = none)
    (hlog : (plan i s.data).log = some log) (hreplay : replay log s.data = .ok d') :
    UpToDate home R { s.enter i .finished with data := d' } := by
  have hframe : ∀ k, k ≠ home i → R k s.data d' := fun k hk =>
    h.frame k i s.data log d' hk (hs.inOrder k) (hs.inOrder (home i)) hlog hreplay
  constructor
  · intro k
    by_cases hk : k = home i
    · subst hk
      exact h.keeps i s.data log d' (hs.inOrder _) hlog hreplay
    · exact h.trans k d' s.data d' (h.symm k _ _ (hframe k hk)) (hframe k hk)
  · intro j d hd
    by_cases hj : j = i
    · subst hj
      simp [System.enter_self, Phase.snapshot?] at hd
    · change d ∈ ((s.enter i .finished).phase j).snapshot? at hd
      rw [System.enter_ne s _ hj] at hd
      have hhome : home j ≠ home i := by
        intro heq
        rw [halone j hj heq] at hd
        cases hd
      exact h.trans (home j) d s.data d' (hs.fresh j d hd) (hframe (home j) hhome)

/-- A turn of the interleaving serves the next request of the sequence, or changes no data. -/
theorem Independent.step (h : Independent plan home R) {s : System ι D} {a : Action ι}
    (halone : Alone home (turn (interleave plan) s a)) (hs : UpToDate home R s) :
    (interleave plan s a).2.data =
        (commits [turn (interleave plan) s a]).foldl (serveNext plan) s.data ∧
      UpToDate home R (interleave plan s a).2 := by
  rw [commits_turn_eq]
  cases a with
  | read i =>
    cases hphase : s.phase i <;> simp only [interleave, hphase, List.foldl_nil]
    case idle =>
      refine ⟨rfl, hs.enter fun d hd => ?_⟩
      cases hd
      exact hs.inOrder (home i)
    all_goals exact ⟨trivial, hs⟩
  | send i =>
    cases hphase : s.phase i <;> simp only [interleave, hphase, List.foldl_nil]
    case started snapshot =>
      refine ⟨rfl, hs.enter fun d hd => ?_⟩
      exact hs.fresh i d (by rw [hphase]; exact hd)
    all_goals exact ⟨trivial, hs⟩
  | commit i =>
    cases hphase : s.phase i <;> simp only [interleave, hphase, List.foldl_nil]
    case sent snapshot =>
      -- what the request has planned is what it would plan now
      have hplan : plan i s.data = plan i snapshot :=
        h.sees i snapshot s.data (hs.fresh i snapshot (by rw [hphase]; rfl))
      have hothers := halone i snapshot (commits_turn hphase)
      rw [List.foldl_cons, List.foldl_nil]
      cases hlog : (plan i snapshot).log with
      | none =>
        refine ⟨?_, hs.enter fun d hd => by cases hd⟩
        simp only [serveNext, hplan, hlog]
        rfl
      | some log =>
        rw [← hplan] at hlog
        obtain ⟨d', hreplay⟩ := h.replays i s.data log hlog
        rw [serveNext_of_replay hlog hreplay]
        simp only [hreplay]
        exact ⟨trivial, h.upToDate_commit hs hothers hlog hreplay⟩
    all_goals exact ⟨trivial, hs⟩

/-- **Such interleavings are sequential**: the data are those of the requests one after another in
the order of their commits, what a request has read is as good as what its commit finds, and the
commit succeeds. -/
theorem Independent.serializable (h : Independent plan home R) (h₀ : ∀ k, R k d₀ d₀)
    {history : List (Turn (Action ι) (Event S P) (System ι D))} {s : System ι D}
    (hrun : Run (interleave plan) (System.start d₀) history s)
    (halone : ∀ t ∈ history, Alone home t) :
    s.data = (commits history).foldl (serveNext plan) d₀ ∧
      ∀ past t later, history = past ++ t :: later → ∀ i snapshot, t.commits = some (i, snapshot) →
        R (home i) snapshot ((commits past).foldl (serveNext plan) d₀) ∧
          ∀ log, (plan i snapshot).log = some log → t.output = .committed log := by
  have hinv : ∀ {history : List (Turn (Action ι) (Event S P) (System ι D))} {s : System ι D},
      Run (interleave plan) (System.start d₀) history s → (∀ t ∈ history, Alone home t) →
        s.data = (commits history).foldl (serveNext plan) d₀ ∧ UpToDate home R s := by
    intro history s hrun halone
    refine Run.invariant_of (C := Alone home) (P := fun history s =>
      s.data = (commits history).foldl (serveNext plan) d₀ ∧ UpToDate home R s) ?_ ?_ hrun halone
    · exact ⟨rfl, h₀, fun i d hd => by cases hd⟩
    · rintro history s a hturn ⟨hdata, hs⟩
      obtain ⟨hnext, hs'⟩ := h.step hturn hs
      refine ⟨?_, hs'⟩
      rw [hnext, hdata]
      simp [commits]
  refine ⟨(hinv hrun halone).1, ?_⟩
  rintro past t later rfl i snapshot ht
  obtain ⟨s', a, hpast, rfl⟩ := hrun.exists_turn
  obtain ⟨hdata, hs'⟩ := hinv hpast fun t ht => halone t (List.mem_append_left _ ht)
  have hsent : a = .commit i ∧ s'.phase i = .sent snapshot := by
    cases a with
    | commit j =>
      cases hj : s'.phase j <;> simp only [Turn.commits, turn, hj] at ht <;> cases ht
      exact ⟨rfl, hj⟩
    | read j | send j => cases ht
  obtain ⟨rfl, hphase⟩ := hsent
  have hR := hs'.fresh i snapshot (by rw [hphase]; rfl)
  refine ⟨hdata ▸ hR, fun log hlog => ?_⟩
  obtain ⟨d', hreplay⟩ := h.replays i s'.data log (by rw [h.sees i _ _ hR, hlog])
  simp only [turn, interleave, hphase, hlog, hreplay]

end Serial

end Transactional
