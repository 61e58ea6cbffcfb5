import FxDealManager.Domain.Identifiers
import FxDealManager.Lifecycle.Edits
import FxDealManager.Reporting.Listings

/-!
# Searches for a text

The listings search with `ILIKE` for the text of the user between two `%`. The text goes into the
pattern as it is, so that `%`, `_` and a backslash in it are read as parts of a pattern.

## Main definitions

* `isWildcard`, `Plain`: the characters with a meaning in a pattern, and texts without them
* `shortest`: a shortest text that a pattern matches
* `foundLength`: the length of the shortest text that a search finds
* `LowerCase`, `LowerCase.Contains`: lower case, and texts that contain another one ignoring case
* `readAll`: all pages of a listing
* `FindsEvents`, `FindsDeals`: a search gives the rows that contain its text

## Main results

* `like_containing_iff`: between two `%`, a plain text matches the texts that contain it
* `LowerCase.finds_agree_iff`: when a search finds the texts that contain the one of the user
* `searches_iff`: for which texts the searches give the rows that contain them
* `search_underscore`: the search for a text with `_` gives a row without it
-/

namespace FxDealManager

open Transactional Paging

/-! ## Patterns -/

/-- The character has a meaning of its own in a pattern. -/
def isWildcard (c : Char) : Bool := c = '%' || c = '_' || c = '\\'

/-- A text without such characters. -/
def Plain (s : List Char) : Prop := ∀ c ∈ s, isWildcard c = false

instance (s : List Char) : Decidable (Plain s) := List.decidableBAll _ s

/-- A shortest text that a pattern matches. -/
def shortest : List Char → List Char
  | [] => []
  | '%' :: pattern => shortest pattern
  | '_' :: pattern => 'a' :: shortest pattern
  | '\\' :: c :: pattern => c :: shortest pattern
  | c :: pattern => c :: shortest pattern

section Patterns

variable {p s t : List Char} {c : Char}

theorem like_percent : like ('%' :: p) t = true ↔ ∃ u, u <:+ t ∧ like p u = true := by
  simp [like, List.any_eq_true, List.mem_tails]

/-- A character that starts no part with a meaning of its own stands for itself. -/
theorem like_cons (hpercent : c ≠ '%') (hunderscore : c ≠ '_')
    (hbackslash : ∀ d q, c = '\\' → p = d :: q → False) :
    like (c :: p) t = true ↔ ∃ u, t = c :: u ∧ like p u = true := by
  cases t with
  | nil => simp [like]
  | cons d t =>
    have hlike : like (c :: p) (d :: t) = (c = d && like p t) := by
      rw [like] <;> assumption
    simp only [hlike, Bool.and_eq_true, decide_eq_true_eq, List.cons.injEq]
    exact ⟨fun ⟨hd, h⟩ => ⟨t, ⟨hd.symm, rfl⟩, h⟩, fun ⟨_, ⟨hd, ht⟩, h⟩ => ⟨hd.symm, ht ▸ h⟩⟩

theorem like_cons_plain (hc : isWildcard c = false) :
    like (c :: p) t = true ↔ ∃ u, t = c :: u ∧ like p u = true := by
  simp only [isWildcard, Bool.or_eq_false_iff, decide_eq_false_iff_not] at hc
  exact like_cons hc.1.1 hc.1.2 fun _ _ h _ => hc.2 h

/-- A plain text stands for itself. -/
theorem like_append_plain (hs : Plain s) :
    like (s ++ p) t = true ↔ ∃ u, t = s ++ u ∧ like p u = true := by
  induction s generalizing t with
  | nil => simp
  | cons c s ih =>
    obtain ⟨hc, hs⟩ := List.forall_mem_cons.mp hs
    rw [List.cons_append, like_cons_plain hc]
    constructor
    · rintro ⟨u, rfl, h⟩
      obtain ⟨v, rfl, hv⟩ := (ih hs).mp h
      exact ⟨v, rfl, hv⟩
    · rintro ⟨v, rfl, hv⟩
      exact ⟨s ++ v, rfl, (ih hs).mpr ⟨v, rfl, hv⟩⟩

/-- **A plain text between two `%`** matches the texts that contain it. -/
theorem like_containing_iff (hs : Plain s) : like ('%' :: (s ++ ['%'])) t = true ↔ s <:+: t := by
  have hany : ∀ u, like ['%'] u = true := fun u =>
    like_percent.mpr ⟨[], List.nil_suffix, rfl⟩
  rw [like_percent]
  constructor
  · rintro ⟨u, ⟨front, rfl⟩, h⟩
    obtain ⟨back, rfl, -⟩ := (like_append_plain hs).mp h
    exact ⟨front, back, List.append_assoc ..⟩
  · rintro ⟨front, back, rfl⟩
    exact ⟨s ++ back, ⟨front, (List.append_assoc ..).symm⟩,
      (like_append_plain hs).mpr ⟨back, rfl, hany back⟩⟩

/-! ### Shortest matches -/

/-- No match of a pattern is shorter. -/
theorem length_shortest_le (h : like p t = true) : (shortest p).length ≤ t.length := by
  induction p using shortest.induct generalizing t with
  | case1 => exact Nat.zero_le _
  | case2 p ih =>
    obtain ⟨u, hu, h⟩ := like_percent.mp h
    exact (ih h).trans hu.length_le
  | case3 p ih =>
    cases t with
    | nil => simp [like] at h
    | cons d t => exact Nat.succ_le_succ (ih (by simpa [like] using h))
  | case4 c p ih =>
    cases t with
    | nil => simp [like] at h
    | cons d t =>
      simp only [like, Bool.and_eq_true] at h
      exact Nat.succ_le_succ (ih h.2)
  | case5 c p hpercent hunderscore hbackslash ih =>
    obtain ⟨u, rfl, hu⟩ := (like_cons hpercent hunderscore hbackslash).mp h
    rw [shortest]
    · exact Nat.succ_le_succ (ih hu)
    all_goals assumption

/-- A folding of characters that leaves those with a meaning of their own alone. -/
def KeepsWildcards (f : Char → Char) : Prop := ∀ c d, isWildcard d = true → (f c = d ↔ c = d)

/-- **A shortest match** is one, also after folding. -/
theorem like_shortest {f : Char → Char} (hf : KeepsWildcards f) (p : List Char) :
    like (p.map f) ((shortest p).map f) = true := by
  induction p using shortest.induct with
  | case1 => rfl
  | case2 p ih =>
    rw [List.map_cons, (hf '%' '%' rfl).mpr rfl, shortest]
    exact like_percent.mpr ⟨_, List.suffix_rfl, ih⟩
  | case3 p ih =>
    rw [List.map_cons, (hf '_' '_' rfl).mpr rfl, shortest]
    simpa [like] using ih
  | case4 c p ih =>
    rw [List.map_cons, (hf '\\' '\\' rfl).mpr rfl, shortest]
    simpa [like] using ih
  | case5 c p hpercent hunderscore hbackslash ih =>
    rw [shortest, List.map_cons, List.map_cons, like_cons]
    · exact ⟨_, rfl, ih⟩
    · exact fun h => hpercent ((hf c '%' rfl).mp h)
    · exact fun h => hunderscore ((hf c '_' rfl).mp h)
    · intro d q hd hq
      obtain ⟨d', q', rfl, -, -⟩ := List.map_eq_cons_iff.mp hq
      exact hbackslash d' q' ((hf c '\\' rfl).mp hd) rfl
    all_goals assumption

/-- Each character of a text stands for one of a shortest match, or for none. -/
theorem length_shortest_append_le (s : List Char) :
    (shortest (s ++ ['%'])).length ≤ s.length := by
  induction s using shortest.induct with
  | case1 => simp [shortest]
  | case2 s ih => exact ih.trans (Nat.le_succ _)
  | case3 s ih => exact Nat.succ_le_succ ih
  | case4 c s ih => exact Nat.succ_le_succ (ih.trans (Nat.le_succ _))
  | case5 c s hpercent hunderscore hbackslash ih =>
    by_cases hc : c = '\\'
    · cases s with
      | nil => subst hc; simp [shortest]
      | cons d s => exact absurd rfl (hbackslash d s hc)
    · rw [List.cons_append, shortest]
      · exact Nat.succ_le_succ ih
      all_goals simp_all

/-- **Only a plain text** is a shortest match of itself. -/
theorem plain_of_shortest {f : Char → Char} (hf : KeepsWildcards f) {s : List Char}
    (h : (shortest (s ++ ['%'])).map f = s.map f) : Plain s := by
  induction s using shortest.induct with
  | case1 => exact nofun
  | case2 s ih =>
    have hlength := congrArg List.length h
    have hle := length_shortest_append_le s
    simp [shortest] at hlength
    omega
  | case3 s ih =>
    simp only [List.cons_append, shortest, List.map_cons, (hf '_' '_' rfl).mpr rfl,
      List.cons.injEq] at h
    exact absurd ((hf 'a' '_' rfl).mp h.1) (by decide)
  | case4 c s ih =>
    have hlength := congrArg List.length h
    have hle := length_shortest_append_le s
    simp [shortest] at hlength
    omega
  | case5 c s hpercent hunderscore hbackslash ih =>
    by_cases hc : c = '\\'
    · cases s with
      | nil =>
        subst hc
        simp only [List.cons_append, List.nil_append, shortest, List.map_cons, List.cons.injEq] at h
        rw [(hf '%' '%' rfl).mpr rfl, (hf '\\' '\\' rfl).mpr rfl] at h
        exact absurd h.1 (by decide)
      | cons d s => exact absurd rfl (hbackslash d s hc)
    · rw [List.cons_append, shortest, List.map_cons, List.map_cons, List.cons.injEq] at h
      · refine List.forall_mem_cons.mpr ⟨?_, ih h.2⟩
        simpa [isWildcard, hc] using ⟨hpercent, hunderscore⟩
      all_goals simp_all

/-- A shortest match is as long after folding. -/
theorem length_shortest_map {f : Char → Char} (hf : KeepsWildcards f) (p : List Char) :
    (shortest (p.map f)).length = (shortest p).length := by
  induction p using shortest.induct with
  | case1 => rfl
  | case2 p ih =>
    rw [List.map_cons, (hf '%' '%' rfl).mpr rfl, shortest, shortest, ih]
  | case3 p ih =>
    rw [List.map_cons, (hf '_' '_' rfl).mpr rfl, shortest, shortest, List.length_cons, ih,
      List.length_cons]
  | case4 c p ih =>
    rw [List.map_cons, List.map_cons, (hf '\\' '\\' rfl).mpr rfl, shortest, shortest,
      List.length_cons, ih, List.length_cons]
  | case5 c p hpercent hunderscore hbackslash ih =>
    rw [List.map_cons, shortest, shortest, List.length_cons, ih, List.length_cons]
    · assumption
    · assumption
    · assumption
    · exact fun h => hpercent ((hf c '%' rfl).mp h)
    · exact fun h => hunderscore ((hf c '_' rfl).mp h)
    · intro d q hd hq
      obtain ⟨d', q', rfl, -, -⟩ := List.map_eq_cons_iff.mp hq
      exact hbackslash d' q' ((hf c '\\' rfl).mp hd) rfl

end Patterns

/-! ## Ignoring case -/

/-- The length of the shortest text that a search finds. -/
def foundLength (s : String) : ℕ := (shortest (s.toList ++ ['%'])).length

/-- A way to write characters in lower case. -/
structure LowerCase where
  fold : Char → Char
  keeps : KeepsWildcards fold

namespace LowerCase

variable (l : LowerCase) {s t : String} {n : ℕ}

/-- A text in lower case. -/
def text (s : String) : String := String.ofList (s.toList.map l.fold)

/-- The text `t` contains the text `s`, ignoring case. -/
def Contains (s t : String) : Prop := (l.text s).toList <:+: (l.text t).toList

instance (s t : String) : Decidable (l.Contains s t) :=
  inferInstanceAs (Decidable (_ <:+: _))

/-- The pattern of a search matches a text. -/
def Finds (s t : String) : Prop := ilike l.text t (containing s) = true

instance (s t : String) : Decidable (l.Finds s t) := inferInstanceAs (Decidable (_ = true))

/-- Lower case makes no letter a character with a meaning of its own. -/
theorem toLower_eq_iff {c d : Char} (hd : isWildcard d = true) : c.toLower = d ↔ c = d := by
  simp only [isWildcard, Bool.or_eq_true, decide_eq_true_eq, or_assoc] at hd
  unfold Char.toLower
  split
  next hc =>
    refine iff_of_false (fun h => ?_) ?_
    · have hval := congrArg Char.val h
      rcases hd with rfl | rfl | rfl <;> simp at hval hc <;> grind
    · rintro rfl
      rcases hd with rfl | rfl | rfl <;> simp at hc
  next => rfl

/-- The letters from `A` to `Z` alone have a lower case. -/
def ascii : LowerCase := ⟨Char.toLower, fun _ _ => toLower_eq_iff⟩

@[simp] theorem toList_text (s : String) : (l.text s).toList = s.toList.map l.fold := by
  simp [text]

theorem isWildcard_fold (c : Char) : isWildcard (l.fold c) = isWildcard c := by
  simp only [isWildcard, l.keeps c '%' rfl, l.keeps c '_' rfl, l.keeps c '\\' rfl]

theorem plain_map_fold {s : List Char} (hs : Plain s) : Plain (s.map l.fold) := by
  intro c hc
  obtain ⟨d, hd, rfl⟩ := List.mem_map.mp hc
  rw [l.isWildcard_fold, hs d hd]

theorem finds_iff_like :
    l.Finds s t ↔
      like ('%' :: (s.toList ++ ['%']).map l.fold) (t.toList.map l.fold) = true := by
  have hpercent : l.fold '%' = '%' := (l.keeps '%' '%' rfl).mpr rfl
  simp [Finds, ilike, containing, hpercent]

/-- A search for a plain text finds the texts that contain it. -/
theorem finds_iff_of_plain (hs : Plain s.toList) : l.Finds s t ↔ l.Contains s t := by
  have hpercent : l.fold '%' = '%' := (l.keeps '%' '%' rfl).mpr rfl
  rw [finds_iff_like, List.map_append, List.map_singleton, hpercent,
    like_containing_iff (l.plain_map_fold hs), Contains, toList_text, toList_text]

theorem foundLength_le_of_finds (h : l.Finds s t) : foundLength s ≤ t.length := by
  obtain ⟨u, hu, h⟩ := like_percent.mp (l.finds_iff_like.mp h)
  have hle := (length_shortest_le h).trans hu.length_le
  rwa [length_shortest_map l.keeps, List.length_map, String.length_toList] at hle

theorem foundLength_le_of_contains (h : l.Contains s t) : foundLength s ≤ t.length := by
  have hle := h.length_le
  rw [toList_text, toList_text, List.length_map, List.length_map, String.length_toList,
    String.length_toList] at hle
  exact (length_shortest_append_le s.toList).trans hle

/-- A text that contains what a shortest match stands for is plain. -/
theorem plain_of_contains (h : l.Contains s (String.ofList (shortest (s.toList ++ ['%'])))) :
    Plain s.toList := by
  rw [Contains, toList_text, toList_text, String.toList_ofList] at h
  refine plain_of_shortest l.keeps (h.eq_of_length_le ?_).symm
  simpa using length_shortest_append_le s.toList

/-- **A search for a text** finds among the texts of a bounded length those that contain it, if and
only if the text is plain, or too long a pattern to find any of them. -/
theorem finds_agree_iff :
    (∀ t : String, t.length ≤ n → (l.Finds s t ↔ l.Contains s t)) ↔
      Plain s.toList ∨ n < foundLength s := by
  constructor
  · intro h
    refine or_iff_not_imp_right.mpr fun hlength => l.plain_of_contains ?_
    refine (h _ (by simpa [foundLength] using hlength)).mp (l.finds_iff_like.mpr ?_)
    rw [String.toList_ofList]
    exact like_percent.mpr ⟨_, List.suffix_rfl, like_shortest l.keeps _⟩
  · rintro (hs | hlength) t ht
    · exact l.finds_iff_of_plain hs
    · exact iff_of_false (fun h => by have := l.foundLength_le_of_finds h; omega)
        (fun h => by have := l.foundLength_le_of_contains h; omega)

end LowerCase

/-! ## The texts of ids -/

theorem plain_toDigits (n : ℕ) : Plain (Nat.toDigits 16 n) := by
  induction n using Nat.strong_induction_on with
  | h n ih =>
    have hdigit : ∀ d < 16, isWildcard d.digitChar = false := by decide
    by_cases hn : n < 16
    · rw [Nat.toDigits_of_lt_base hn]
      exact List.forall_mem_singleton.mpr (hdigit n hn)
    · rw [Nat.toDigits_of_base_le (by decide) (not_lt.mp hn)]
      exact List.forall_mem_append.mpr ⟨ih _ (by omega),
        List.forall_mem_singleton.mpr (hdigit _ (Nat.mod_lt _ (by decide)))⟩

/-- The text of an id has no characters with a meaning of their own. -/
theorem plain_uuid (u : UUID) : Plain (UUID.text u).toList := by
  have hdigits : Plain (padded 16 32 u).toList := by
    rw [padded, String.toList_ofList]
    refine List.forall_mem_append.mpr ⟨fun c hc => ?_, plain_toDigits u⟩
    rw [List.eq_of_mem_replicate hc]
    rfl
  have hdash : isWildcard '-' = false := rfl
  rw [toList_text, grouped]
  intro c hc
  simp only [List.mem_append, List.mem_cons] at hc
  have htake : ∀ {i k}, c ∈ ((padded 16 32 u).toList.drop i).take k → isWildcard c = false :=
    fun h => hdigits c (List.mem_of_mem_drop (List.mem_of_mem_take h))
  rcases hc with h | rfl | h | rfl | h | rfl | h | rfl | h
  · exact hdigits c (List.mem_of_mem_take h)
  · exact hdash
  · exact htake h
  · exact hdash
  · exact htake h
  · exact hdash
  · exact htake h
  · exact hdash
  · exact htake h

/-- Only a plain text is contained in a plain one. -/
theorem LowerCase.Contains.plain {l : LowerCase} {s t : String} (h : l.Contains s t)
    (ht : Plain t.toList) : Plain s.toList := by
  intro c hc
  rw [← l.isWildcard_fold]
  refine l.plain_map_fold ht _ ?_
  rw [Contains, l.toList_text, l.toList_text] at h
  exact h.subset (List.mem_map_of_mem hc)

/-! ## All pages of a listing -/

/-- The rows of all pages of a listing. -/
def readAll {α : Type} (pageSize : ℕ) (list : (number : ℕ) → List α × ℕ) : List α :=
  (pageNumbers pageSize (list 1).2).flatMap fun number => (list number).1

theorem readAll_page {α : Type} {pageSize : ℕ} (hsize : 1 ≤ pageSize) (out : List α) :
    readAll pageSize (fun number => (page pageSize number out, out.length)) = out := by
  rw [readAll, pageNumbers, flatMap_page, Nat.zero_mul, List.drop_zero]
  exact List.take_of_length_le (le_pages_mul hsize _)

section Searches

variable (l : LowerCase) (s : String)

/-- **A search of the audit log** for the text gives the entries whose user contains it. -/
def FindsEvents : Prop :=
  ∀ (filter : AuditFilter) (db : Database) (pageSize : ℕ)
    (order : List AuditLogEntry → List AuditLogEntry),
    filter.userId = some s → 1 ≤ pageSize →
    Arranged AuditLogEntry.createdAt (matchingEvents l.text filter db)
      (order (matchingEvents l.text filter db)) →
    (readAll pageSize fun number => listEvents l.text order filter number pageSize db).Perm
      ((matchingEvents l.text { filter with userId := none } db).filter fun entry =>
        l.Contains s entry.createdBy.val)

/-- **A search of the deals** for the text gives the deals whose counterparty or id contains it. -/
def FindsDeals : Prop :=
  ∀ (filter : DealFilter) (db : Database) (pageSize : ℕ) (order : List FXDeal → List FXDeal),
    filter.search = some s → 1 ≤ pageSize →
    Arranged FXDeal.createdAt (matchingDeals l.text filter db)
      (order (matchingDeals l.text filter db)) →
    (readAll pageSize fun number => listDeals l.text order filter number pageSize db).Perm
      ((matchingDeals l.text { filter with search := none } db).filter fun deal =>
        l.Contains s deal.counterpartyId ∨ l.Contains s (UUID.text deal.id))

variable {l s} {db : Database} {pageSize : ℕ}

theorem readAll_listEvents (order : List AuditLogEntry → List AuditLogEntry) {filter : AuditFilter}
    (hsize : 1 ≤ pageSize)
    (horder : Arranged AuditLogEntry.createdAt (matchingEvents l.text filter db)
      (order (matchingEvents l.text filter db))) :
    (readAll pageSize fun number => listEvents l.text order filter number pageSize db).Perm
      (matchingEvents l.text filter db) := by
  simp only [listEvents_eq, ← horder.perm.length_eq]
  rw [readAll_page hsize]
  exact horder.perm

theorem readAll_listDeals (order : List FXDeal → List FXDeal) {filter : DealFilter}
    (hsize : 1 ≤ pageSize)
    (horder : Arranged FXDeal.createdAt (matchingDeals l.text filter db)
      (order (matchingDeals l.text filter db))) :
    (readAll pageSize fun number => listDeals l.text order filter number pageSize db).Perm
      (matchingDeals l.text filter db) := by
  simp only [listDeals_eq, ← horder.perm.length_eq]
  rw [readAll_page hsize]
  exact horder.perm

/-- A condition more, if the filter has a value for it. -/
theorem where?_stmt {α β : Type} (selection : Selection α) (value : Option β)
    (condition : β → α → Bool) (a : α) :
    (selection.where? value condition).stmt a =
      (selection.stmt a && value.all fun b => condition b a) := by
  cases value <;> simp [Selection.where?]

theorem matchingEvents_search (filter : AuditFilter) (hs : filter.userId = some s) :
    matchingEvents l.text filter db =
      (matchingEvents l.text { filter with userId := none } db).filter fun entry =>
        l.Finds s entry.createdBy.val := by
  rw [matchingEvents, matchingEvents, List.filter_filter]
  refine List.filter_congr fun entry _ => Bool.eq_iff_iff.mpr ?_
  simp only [AuditFilter.selection, where?_stmt, hs, Option.all_none, Option.all_some,
    Bool.and_true, Bool.and_eq_true, decide_eq_true_eq]
  constructor
  · rintro ⟨⟨⟨h, hfinds⟩, hfrom⟩, hto⟩
    exact ⟨hfinds, ⟨h, hfrom⟩, hto⟩
  · rintro ⟨hfinds, ⟨h, hfrom⟩, hto⟩
    exact ⟨⟨⟨h, hfinds⟩, hfrom⟩, hto⟩

theorem matchingDeals_search (filter : DealFilter) (hs : filter.search = some s)
    (hstrip : strip s = s) :
    matchingDeals l.text filter db =
      (matchingDeals l.text { filter with search := none } db).filter fun deal =>
        l.Finds s deal.counterpartyId ∨ l.Finds s (UUID.text deal.id) := by
  have hfinds : ∀ t u, ((some s).filter (· ≠ "")).all (fun search =>
      ilike l.text t (containing (strip search)) || ilike l.text u (containing (strip search))) =
        true ↔ l.Finds s t ∨ l.Finds s u := by
    intro t u
    by_cases hempty : s = ""
    · subst hempty
      exact iff_of_true rfl (.inl ((l.finds_iff_of_plain (by simp [Plain])).mpr
        ⟨[], (l.text t).toList, rfl⟩))
    · simp [Option.filter, hempty, hstrip, LowerCase.Finds]
  rw [matchingDeals, matchingDeals, List.filter_map, List.filter_filter]
  refine congrArg _ (List.filter_congr fun e _ => Bool.eq_iff_iff.mpr ?_)
  simp only [DealFilter.selection, where?_stmt, hs, Function.comp_apply,
    FXDeal.ofRecord_counterpartyId, FXDeal.ofRecord_id, Bool.and_eq_true, decide_eq_true_eq,
    Option.filter_none, Option.all_none, and_true, hfinds]
  exact and_comm

/-- Two conditions that keep as many of one row agree on it. -/
theorem iff_of_filter_singleton {α : Type} {p q : α → Prop} [DecidablePred p] [DecidablePred q]
    {a : α} (h : ([a].filter p).Perm ([a].filter q)) : p a ↔ q a := by
  have hlength := h.length_eq
  by_cases hp : p a <;> by_cases hq : q a <;> simp_all

/-- **A search of the audit log** for a text gives the entries whose user contains it, if and only
if the text is plain, or too long a pattern to find any user. -/
theorem findsEvents_iff : FindsEvents l s ↔ Plain s.toList ∨ 320 < foundLength s := by
  constructor
  · intro h
    refine (l.finds_agree_iff).mp fun t ht => ?_
    let entry : AuditLogEntry := ⟨0, 0, .fxDeal, .create, none, none, 0, ⟨t, ht⟩⟩
    let db : Database := ⟨Desk.nsi, ∅, [entry]⟩
    let filter : AuditFilter := ⟨none, some s, none, none⟩
    obtain ⟨out, hout⟩ := exists_arranged AuditLogEntry.createdAt (matchingEvents l.text filter db)
    have hread := h filter db 1 (fun _ => out) rfl le_rfl hout
    have hall : matchingEvents l.text { filter with userId := none } db = [entry] := rfl
    have hperm := (readAll_listEvents (fun _ => out) le_rfl hout).symm.trans hread
    rw [matchingEvents_search filter rfl, hall] at hperm
    exact (iff_of_filter_singleton hperm :)
  · intro h filter db pageSize order hs hsize horder
    refine (readAll_listEvents order hsize horder).trans (.of_eq ?_)
    rw [matchingEvents_search filter hs]
    refine List.filter_congr fun entry _ => decide_eq_decide.mpr ?_
    exact l.finds_agree_iff.mpr h _ entry.createdBy.fits

/-- **A search of the deals** for a text without blanks around it gives the deals whose counterparty
or id contains it, if and only if the text is plain, or a pattern that finds neither. -/
theorem findsDeals_iff (hstrip : strip s = s) :
    FindsDeals l s ↔
      Plain s.toList ∨ 20 < foundLength s ∧ ∀ id, ¬ l.Finds s (UUID.text id) := by
  constructor
  · intro h
    have hrow : ∀ (id : UUID) (t : String), t.length ≤ 20 →
        (l.Finds s t ∨ l.Finds s (UUID.text id) ↔
          l.Contains s t ∨ l.Contains s (UUID.text id)) := by
      intro id t ht
      obtain ⟨record⟩ : Nonempty DealRecord := ⟨Desk.draft⟩
      let record' : DealRecord :=
        { record with row := { record.row with counterpartyId := ⟨t, ht⟩ } }
      let db : Database := ⟨Desk.nsi, AList.singleton id record', []⟩
      let filter : DealFilter := ⟨none, none, none, none, none, some s⟩
      obtain ⟨out, hout⟩ := exists_arranged FXDeal.createdAt (matchingDeals l.text filter db)
      have hread := h filter db 1 (fun _ => out) rfl le_rfl hout
      have hall : matchingDeals l.text { filter with search := none } db =
        [FXDeal.ofRecord Desk.nsi id record'] := rfl
      have hperm := (readAll_listDeals (fun _ => out) le_rfl hout).symm.trans hread
      rw [matchingDeals_search filter rfl hstrip, hall] at hperm
      exact iff_of_filter_singleton hperm
    refine or_iff_not_imp_left.mpr fun hplain => ?_
    have hid : ∀ id, ¬ l.Contains s (UUID.text id) := fun id hcontains =>
      hplain (hcontains.plain (plain_uuid id))
    have hfinds : ∀ id, ¬ l.Finds s (UUID.text id) := by
      intro id hfinds
      rcases (hrow id "" (Nat.zero_le _)).mp (.inr hfinds) with hcontains | hcontains
      · exact hplain (hcontains.plain (by decide))
      · exact hid id hcontains
    refine ⟨((l.finds_agree_iff).mp fun t ht => ?_).resolve_left hplain, hfinds⟩
    simpa [hfinds, hid] using hrow 0 t ht
  · intro h filter db pageSize order hs hsize horder
    refine (readAll_listDeals order hsize horder).trans (.of_eq ?_)
    rw [matchingDeals_search filter hs hstrip]
    refine List.filter_congr fun deal hdeal => decide_eq_decide.mpr ?_
    obtain ⟨e, -, rfl⟩ := List.mem_map.mp hdeal
    by_cases hplain : Plain s.toList
    · rw [l.finds_iff_of_plain hplain, l.finds_iff_of_plain hplain]
    · obtain ⟨hlength, hid⟩ := h.resolve_left hplain
      have hcounterparty := l.finds_agree_iff.mpr (.inr hlength) _ e.2.row.counterpartyId.fits
      have hcontains : ¬ l.Contains s (UUID.text e.1) :=
        fun hcontains => hplain (hcontains.plain (plain_uuid e.1))
      exact or_congr hcounterparty (iff_of_false (hid e.1) hcontains)

variable (l s) in
/-- **Both searches** give the rows that contain the text, if and only if it has no characters with
a meaning in a pattern, or is a pattern that finds nothing. -/
theorem searches_iff :
    (FindsEvents l s ↔ Plain s.toList ∨ 320 < foundLength s) ∧
      (strip s = s → (FindsDeals l s ↔
        Plain s.toList ∨ 20 < foundLength s ∧ ∀ id, ¬ l.Finds s (UUID.text id))) :=
  ⟨findsEvents_iff, findsDeals_iff⟩

end Searches

/-- The trader is found by the name. -/
theorem searches_trader : FindsEvents .ascii "Trader" ∧ FindsDeals .ascii "Trader" := by
  have hsearches := searches_iff .ascii "Trader"
  have hplain : Plain "Trader".toList := by decide
  exact ⟨hsearches.1.mpr (.inl hplain), (hsearches.2 (by decide)).mpr (.inl hplain)⟩

/-- A search for `t_ader` finds what the trader did, though the user does not contain that text. -/
theorem search_underscore :
    ¬ ∀ (l : LowerCase) (s : String) (nsi : ReferenceData)
      (history : List (Turn TableInput Unit Database)) (db : Database),
      Run tableStep (Database.initial nsi) history db →
        ∀ (pageSize : ℕ) (order : List AuditLogEntry → List AuditLogEntry), 1 ≤ pageSize →
          Arranged AuditLogEntry.createdAt
            (matchingEvents l.text ⟨none, some s, none, none⟩ db)
            (order (matchingEvents l.text ⟨none, some s, none, none⟩ db)) →
          (readAll pageSize fun number =>
            listEvents l.text order ⟨none, some s, none, none⟩ number pageSize db).Perm
            (db.audit.filter fun entry => l.Contains s entry.createdBy.val) := by
  intro h
  have hrun := run_serveAll tableStep (Database.initial Desk.nsi) (Desk.creation.map .service)
  obtain ⟨out, hout⟩ := exists_arranged AuditLogEntry.createdAt
    (matchingEvents LowerCase.ascii.text ⟨none, some "t_ader", none, none⟩
      (Desk.tables Desk.creation))
  have hread := h .ascii "t_ader" _ _ _ hrun 1 (fun _ => out) le_rfl hout
  have hperm := (readAll_listEvents (fun _ => out) le_rfl hout).symm.trans hread
  have hlength : (matchingEvents LowerCase.ascii.text ⟨none, some "t_ader", none, none⟩
      (Desk.tables Desk.creation)).length ≠ ((Desk.tables Desk.creation).audit.filter fun entry =>
        LowerCase.ascii.Contains "t_ader" entry.createdBy.val).length := by decide +kernel
  exact hlength hperm.length_eq

end FxDealManager
