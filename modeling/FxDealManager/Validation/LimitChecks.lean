import Mathlib.Data.List.MinMax
import Mathlib.Data.Prod.Lex
import FxDealManager.Validation.CounterAmounts

/-!
# Which limits bind

The limit check reads the active limits for the counterparty in the order of their ids, and holds
each leg of a deal against the first one among the most specific limits for it. The order of the
rows and all other limits make no difference, so that of several limits for one counterparty and
one currency the one with the lowest id binds alone, even if another one is lower. The choice
depends neither on the amounts nor on the maxima, so that the check is monotone in both.

## Main definitions

* `listActiveLimits`: the query of the active limits, on rows in any order
* `DealLimit.MostSpecific`: none of the limits that apply is more specific
* `DealLimit.Decisive`: of the most specific limits, the one with the lowest id
* `DealLimit.Raised`: a limit with a larger maximum

## Main results

* `checkLimits_iff_decisive`: a deal passes if its legs stay within the decisive limits
* `tied_limit_ignored`: a deal that passes although one of the most specific limits is exceeded
* `counterAmount_exact`: the counter amount is exact, and it is what is checked and what is paid
* `checkLimits_monotone`: smaller deals and larger maxima keep passing
-/

namespace FxDealManager

open DecimalArithmetic Transactional

/-- `list_active_limits`, on the rows of the table in any order. -/
def listActiveLimits (rows : List DealLimit) (counterpartyId : String) : List DealLimit :=
  (rows.filter fun l => l.isActive && l.counterpartyId.all fun c => c.val = counterpartyId)
    |>.insertionSort fun l l' => l.id ≤ l'.id

/-- On rows in the order of their ids, these are the active limits of the reference data. -/
theorem listActiveLimits_dealLimits {nsi : ReferenceData} (counterpartyId : String)
    (h : nsi.dealLimits.Pairwise fun l l' => l.id ≤ l'.id) :
    listActiveLimits nsi.dealLimits counterpartyId = nsi.activeLimits counterpartyId :=
  (h.sublist List.filter_sublist).insertionSort_eq

/-! ## The first of the largest -/

theorem keyLt_iff {a b : ℕ × ℕ} : keyLt a b = true ↔ toLex a < toLex b := by
  simp [keyLt, Prod.Lex.toLex_lt_toLex]

/-- The choice by a key, in the lexicographic order. -/
theorem maxByKey_eq_argmax {α : Type} (key : α → ℕ × ℕ) (l : List α) :
    maxByKey key l = l.argmax fun a => toLex (key a) := by
  cases l with
  | nil => rfl
  | cons a rest =>
    rw [maxByKey, List.argmax, List.foldl_cons]
    change _ = rest.foldl _ (some a)
    induction rest generalizing a with
    | nil => rfl
    | cons b rest ih =>
      rw [List.foldl_cons, List.foldl_cons, ih]
      congr 1
      by_cases h : toLex (key a) < toLex (key b)
      · simp [List.argAux, h, keyLt_iff.mpr h]
      · simp [List.argAux, h, keyLt_iff]

/-- Of two members of a sorted list, the one found first is not above the other one. -/
theorem id_le_of_idxOf_le {rows : List DealLimit} {l l' : DealLimit}
    (hsorted : rows.Pairwise fun l l' => l.id ≤ l'.id) (hl : l ∈ rows) (hl' : l' ∈ rows)
    (h : rows.idxOf l ≤ rows.idxOf l') : l.id ≤ l'.id := by
  rcases h.lt_or_eq with hlt | heq
  · have hrel := List.pairwise_iff_getElem.mp hsorted _ _ (List.idxOf_lt_length_of_mem hl)
      (List.idxOf_lt_length_of_mem hl') hlt
    rwa [List.getElem_idxOf, List.getElem_idxOf] at hrel
  · rw [(List.idxOf_inj hl).mp heq]

/-! ## The decisive limit -/

/-- The limit applies to the counterparty and the currency, and none that applies is more
specific. -/
structure DealLimit.MostSpecific (rows : List DealLimit) (counterpartyId currencyCode : String)
    (l : DealLimit) : Prop where
  mem : l ∈ rows
  applies : l.Applies counterpartyId currencyCode
  maximal : ∀ l' ∈ rows, l'.Applies counterpartyId currencyCode →
    keyLt (specificity counterpartyId currencyCode l)
      (specificity counterpartyId currencyCode l') = false

/-- Of the most specific limits, the one with the lowest id. -/
structure DealLimit.Decisive (rows : List DealLimit) (counterpartyId currencyCode : String)
    (l : DealLimit) : Prop extends l.MostSpecific rows counterpartyId currencyCode where
  first : ∀ l' : DealLimit, l'.MostSpecific rows counterpartyId currencyCode → l.id ≤ l'.id

section Decisive

variable {rows : List DealLimit} {counterpartyId currencyCode : String} {l l' : DealLimit}

theorem mem_listActiveLimits_filter :
    l ∈ (listActiveLimits rows counterpartyId).filter (fun limit =>
      limit.counterpartyId.all (·.val = counterpartyId) &&
        limit.currencyCode.all (·.val = currencyCode)) ↔
      l ∈ rows ∧ l.Applies counterpartyId currencyCode := by
  simp only [listActiveLimits, List.mem_filter, List.mem_insertionSort, Bool.and_eq_true,
    Option.all_eq_true, decide_eq_true_eq]
  constructor
  · rintro ⟨⟨hmem, hactive, hcounterparty⟩, -, hcurrency⟩
    exact ⟨hmem, hactive, hcounterparty, hcurrency⟩
  · rintro ⟨hmem, hactive, hcounterparty, hcurrency⟩
    exact ⟨⟨hmem, hactive, hcounterparty⟩, hcounterparty, hcurrency⟩

/-- There is one decisive limit at most. -/
theorem DealLimit.Decisive.unique (hkey : (rows.map DealLimit.id).Nodup)
    (h : l.Decisive rows counterpartyId currencyCode)
    (h' : l'.Decisive rows counterpartyId currencyCode) : l = l' :=
  List.inj_on_of_nodup_map hkey h.mem h'.mem
    ((h.first l' h'.toMostSpecific).antisymm (h'.first l h.toMostSpecific))

/-- The limit that is found is decisive. -/
theorem decisive_of_findBestLimit
    (h : findBestLimit (listActiveLimits rows counterpartyId) counterpartyId currencyCode =
      some l) : l.Decisive rows counterpartyId currencyCode := by
  rw [findBestLimit, maxByKey_eq_argmax, List.argmax_eq_some_iff] at h
  obtain ⟨hmem, hmax, hfirst⟩ := h
  obtain ⟨hrows, happlies⟩ := mem_listActiveLimits_filter.mp hmem
  refine ⟨⟨hrows, happlies, fun l' hl' happlies' => ?_⟩, fun l' hspecific => ?_⟩
  · rw [← Bool.not_eq_true, keyLt_iff, not_lt]
    exact hmax l' (mem_listActiveLimits_filter.mpr ⟨hl', happlies'⟩)
  · have hmem' := mem_listActiveLimits_filter.mpr ⟨hspecific.mem, hspecific.applies⟩
    have hle := hspecific.maximal l hrows happlies
    rw [← Bool.not_eq_true, keyLt_iff, not_lt] at hle
    have hsorted : (listActiveLimits rows counterpartyId).Pairwise fun l l' => l.id ≤ l'.id :=
      List.pairwise_insertionSort _ _
    exact id_le_of_idxOf_le (hsorted.sublist List.filter_sublist) hmem hmem' (hfirst l' hmem' hle)

/-- **The limit that is found** is the decisive one. -/
theorem findBestLimit_eq_some_iff (hkey : (rows.map DealLimit.id).Nodup) :
    findBestLimit (listActiveLimits rows counterpartyId) counterpartyId currencyCode = some l ↔
      l.Decisive rows counterpartyId currencyCode := by
  refine ⟨decisive_of_findBestLimit, fun h => ?_⟩
  cases hbest : findBestLimit (listActiveLimits rows counterpartyId) counterpartyId
      currencyCode with
  | some l' => rw [(decisive_of_findBestLimit hbest).unique hkey h]
  | none =>
    rw [findBestLimit, maxByKey_eq_argmax, List.argmax_eq_none] at hbest
    have hmem := mem_listActiveLimits_filter.mpr ⟨h.mem, h.applies⟩
    rw [hbest] at hmem
    exact absurd hmem List.not_mem_nil

/-- The amount is not above the maximum of the decisive limit, if there is one. -/
def Within (rows : List DealLimit) (counterpartyId currencyCode : String) (amount : Decimal) :
    Prop :=
  ∀ l : DealLimit, l.Decisive rows counterpartyId currencyCode →
    amount.value ≤ l.maxAmount.toDecimal.value

theorem limitIssue_eq_nil_iff_within (hkey : (rows.map DealLimit.id).Nodup) {label : String}
    {amount : Decimal} :
    limitIssue (listActiveLimits rows counterpartyId) counterpartyId currencyCode label amount =
        [] ↔ Within rows counterpartyId currencyCode amount := by
  rw [limitIssue_eq_nil_iff]
  refine forall_congr' fun l => imp_congr (findBestLimit_eq_some_iff hkey) ?_
  rw [← Bool.not_eq_true, Decimal.lt_iff, not_lt]

/-- If its counter amount can be computed, a deal passes the check if and only if both legs stay
within the decisive limits. -/
theorem checkLimits_iff_within (hkey : (rows.map DealLimit.id).Nodup) {deal : FXDeal}
    {counter : Decimal} (hcounter : counterAmount deal = some counter) :
    checkLimits (listActiveLimits rows deal.counterpartyId) deal = some [] ↔
      Within rows deal.counterpartyId deal.buyCurrency deal.amount ∧
        Within rows deal.counterpartyId deal.sellCurrency counter := by
  rw [checkLimits_eq_nil_iff hcounter, limitIssue_eq_nil_iff_within hkey,
    limitIssue_eq_nil_iff_within hkey]

/-- **Which limits bind**: a deal passes the check if and only if there is no active limit for its
counterparty at all, or its counter amount can be computed and each leg stays within the decisive
limit for it. The order of the rows makes no difference. -/
theorem checkLimits_iff_decisive (hkey : (rows.map DealLimit.id).Nodup) (deal : FXDeal) :
    checkLimits (listActiveLimits rows deal.counterpartyId) deal = some [] ↔
      (∀ l ∈ rows, ¬ (l.isActive = true ∧ ∀ c ∈ l.counterpartyId, c.val = deal.counterpartyId)) ∨
      ∃ counter, counterAmount deal = some counter ∧
        Within rows deal.counterpartyId deal.buyCurrency deal.amount ∧
        Within rows deal.counterpartyId deal.sellCurrency counter := by
  have hmem : ∀ l, l ∈ listActiveLimits rows deal.counterpartyId ↔
      l ∈ rows ∧ l.isActive = true ∧ ∀ c ∈ l.counterpartyId, c.val = deal.counterpartyId := by
    simp [listActiveLimits, Option.all_eq_true]
  by_cases hnone : listActiveLimits rows deal.counterpartyId = []
  · refine iff_of_true (by rw [hnone]; rfl) (.inl fun l hl hactive => ?_)
    have := (hmem l).mpr ⟨hl, hactive⟩
    rw [hnone] at this
    cases this
  · have hsome : ¬ ∀ l ∈ rows,
        ¬ (l.isActive = true ∧ ∀ c ∈ l.counterpartyId, c.val = deal.counterpartyId) := by
      obtain ⟨l, hl⟩ := List.exists_mem_of_ne_nil _ hnone
      exact fun h => h l ((hmem l).mp hl).1 ((hmem l).mp hl).2
    rw [or_iff_right hsome]
    cases hcounter : counterAmount deal with
    | none =>
      refine iff_of_false (fun h => ?_) (by simp)
      rw [checkLimits, if_neg (by simpa using hnone), hcounter] at h
      cases h
    | some counter => simp [checkLimits_iff_within hkey hcounter]

end Decisive

namespace Desk

/-- A limit of 50.00 USD. -/
def lowLimit : DealLimit := ⟨2, some bank.id, some usd.code, ⟨5000, by decide⟩, true⟩

/-- Two limits for one counterparty and one currency; that of 100.00 USD has the lower id. -/
def tiedLimits : List DealLimit := [{ lowLimit with id := 1, maxAmount := ⟨10000, by decide⟩ },
  lowLimit]

end Desk

/-- The deal of the desk passes the tied limits: its amount is within the decisive one. -/
theorem checkLimits_iff_decisive_desk :
    checkLimits (listActiveLimits Desk.tiedLimits "BANK")
        (FXDeal.ofRecord Desk.nsi Desk.dealId Desk.created) = some [] ∧
      ∃ counter, counterAmount (FXDeal.ofRecord Desk.nsi Desk.dealId Desk.created) = some counter ∧
        Within Desk.tiedLimits "BANK" "USD" Desk.created.row.amount.toDecimal ∧
        Within Desk.tiedLimits "BANK" "EUR" counter := by
  have hkey : (Desk.tiedLimits.map DealLimit.id).Nodup := by decide
  have h := checkLimits_iff_decisive hkey (FXDeal.ofRecord Desk.nsi Desk.dealId Desk.created)
  rw [show (FXDeal.ofRecord Desk.nsi Desk.dealId Desk.created).counterpartyId = "BANK" by
      decide +kernel,
    show (FXDeal.ofRecord Desk.nsi Desk.dealId Desk.created).buyCurrency = "USD" by decide +kernel,
    show (FXDeal.ofRecord Desk.nsi Desk.dealId Desk.created).sellCurrency = "EUR" by
      decide +kernel] at h
  have hdone : checkLimits (listActiveLimits Desk.tiedLimits "BANK")
      (FXDeal.ofRecord Desk.nsi Desk.dealId Desk.created) = some [] := by decide +kernel
  refine ⟨hdone, (h.mp hdone).resolve_left fun hnone => ?_⟩
  exact hnone _ List.mem_cons_self (by decide +kernel)

/-- The deal of 100.00 USD passes, although the second one of the two most specific limits is
50.00 USD. -/
theorem tied_limit_ignored :
    ¬ ∀ (rows : List DealLimit) (deal : FXDeal) (counter : Decimal),
      (rows.map DealLimit.id).Nodup → counterAmount deal = some counter →
        (checkLimits (listActiveLimits rows deal.counterpartyId) deal = some [] ↔
          (∀ l : DealLimit, l.MostSpecific rows deal.counterpartyId deal.buyCurrency →
            deal.amount.value ≤ l.maxAmount.toDecimal.value) ∧
          ∀ l : DealLimit, l.MostSpecific rows deal.counterpartyId deal.sellCurrency →
            counter.value ≤ l.maxAmount.toDecimal.value) := by
  intro h
  obtain ⟨counter, hcounter⟩ := Option.isSome_iff_exists.mp
    ((counterAmount_isSome_iff Desk.nsi Desk.dealId (r := Desk.created)).mpr (by decide +kernel))
  have hpasses : checkLimits (listActiveLimits Desk.tiedLimits
      (FXDeal.ofRecord Desk.nsi Desk.dealId Desk.created).counterpartyId)
        (FXDeal.ofRecord Desk.nsi Desk.dealId Desk.created) = some [] := by
    decide +kernel
  have hmaximal : ∀ l ∈ Desk.tiedLimits, keyLt (specificity
      (FXDeal.ofRecord Desk.nsi Desk.dealId Desk.created).counterpartyId
      (FXDeal.ofRecord Desk.nsi Desk.dealId Desk.created).buyCurrency Desk.lowLimit)
      (specificity (FXDeal.ofRecord Desk.nsi Desk.dealId Desk.created).counterpartyId
      (FXDeal.ofRecord Desk.nsi Desk.dealId Desk.created).buyCurrency l) = false := by
    decide +kernel
  have hspecific : Desk.lowLimit.MostSpecific Desk.tiedLimits
      (FXDeal.ofRecord Desk.nsi Desk.dealId Desk.created).counterpartyId
      (FXDeal.ofRecord Desk.nsi Desk.dealId Desk.created).buyCurrency :=
    ⟨by decide, ⟨rfl, by decide +kernel, by decide +kernel⟩, fun l hl _ => hmaximal l hl⟩
  have hle := ((h _ _ counter (by decide) hcounter).mp hpasses).1 _ hspecific
  exact absurd (Decimal.lt_iff.mp (by decide +kernel)) (not_lt.mpr hle)

/-! ## The counter amount -/

/-- **One counter amount**: whenever it fits the column of the payments, the counter amount is the
exact product rounded half up; a deal passes the limit check if and only if its amount and this
counter amount stay within the decisive limits; and its payments are of these two amounts. -/
theorem counterAmount_exact {amount : Numeric 18 2} {rate : Numeric 18 6} {deal : FXDeal}
    {counter : Decimal} (hamount : amount.toDecimal.same deal.amount = true)
    (hrate : rate.toDecimal.same deal.rate = true)
    (hpos : deal.amount.positive = true ∧ deal.rate.positive = true)
    (hcounter : counterAmount deal = some counter)
    (hfits : (Numeric.ofDecimal counter : Option (Numeric 18 2)).isSome) :
    counter.value = ⌊deal.amount.value * deal.rate.value * 100 + 1 / 2⌋ / 100 ∧
      (∀ rows : List DealLimit, (rows.map DealLimit.id).Nodup →
        (checkLimits (listActiveLimits rows deal.counterpartyId) deal = some [] ↔
          Within rows deal.counterpartyId deal.buyCurrency deal.amount ∧
            Within rows deal.counterpartyId deal.sellCurrency counter)) ∧
      ∀ valueDate, ∃ c₁ c₂, calculatePayments deal valueDate = some [c₁, c₂] ∧
        c₁.amount = deal.amount ∧ c₂.amount = counter :=
  ⟨counterAmount_value hamount hrate hpos hcounter hfits,
    fun _ hkey => checkLimits_iff_within hkey hcounter, amounts_of_counterAmount hcounter⟩

/-- The limits of the desk for what is sold: 110.00 EUR for one leg, or a cent less. -/
def Desk.counterLimits (maxAmount : Numeric 18 2) : List DealLimit :=
  [{ Desk.lowLimit with currencyCode := some Desk.eur.code, maxAmount }]

/-- The deal of the desk passes a limit of its counter amount, and none that is a cent lower; it is
paid by this amount. -/
theorem counterAmount_exact_desk : ∃ counter c₁ c₂,
    counterAmount (FXDeal.ofRecord Desk.nsi Desk.dealId Desk.created) = some counter ∧
      counter.value = ⌊Desk.created.row.amount.toDecimal.value *
        Desk.created.row.rate.toDecimal.value * 100 + 1 / 2⌋ / 100 ∧
      checkLimits (listActiveLimits (Desk.counterLimits ⟨11000, by decide⟩) "BANK")
        (FXDeal.ofRecord Desk.nsi Desk.dealId Desk.created) = some [] ∧
      Within (Desk.counterLimits ⟨11000, by decide⟩) "BANK" "EUR" counter ∧
      ¬ Within (Desk.counterLimits ⟨10999, by decide⟩) "BANK" "EUR" counter ∧
      calculatePayments (FXDeal.ofRecord Desk.nsi Desk.dealId Desk.created)
        Desk.created.row.tradeDate = some [c₁, c₂] ∧
      c₁.amount = Desk.created.row.amount.toDecimal ∧ c₂.amount = counter := by
  obtain ⟨counter, hcounter⟩ := Option.isSome_iff_exists.mp
    ((counterAmount_isSome_iff Desk.nsi Desk.dealId (r := Desk.created)).mpr (by decide +kernel))
  have hfits := (counterAmount_fits_iff hcounter).mpr (by decide +kernel)
  have hamount : Desk.created.row.amount.toDecimal.same
      (FXDeal.ofRecord Desk.nsi Desk.dealId Desk.created).amount = true := Decimal.same_self _
  have hrate : Desk.created.row.rate.toDecimal.same
      (FXDeal.ofRecord Desk.nsi Desk.dealId Desk.created).rate = true := Decimal.same_self _
  obtain ⟨hvalue, hlimits, hpayments⟩ :=
    counterAmount_exact hamount hrate (by decide +kernel) hcounter hfits
  obtain ⟨c₁, c₂, hcalc, h₁, h₂⟩ := hpayments Desk.created.row.tradeDate
  have hbank : (FXDeal.ofRecord Desk.nsi Desk.dealId Desk.created).counterpartyId = "BANK" := by
    decide +kernel
  have hsell : (FXDeal.ofRecord Desk.nsi Desk.dealId Desk.created).sellCurrency = "EUR" := by
    decide +kernel
  have hpasses := hlimits (Desk.counterLimits ⟨11000, by decide⟩) (by decide)
  have hlow := hlimits (Desk.counterLimits ⟨10999, by decide⟩) (by decide)
  rw [hbank, hsell] at hpasses hlow
  have hdone : checkLimits (listActiveLimits (Desk.counterLimits ⟨11000, by decide⟩) "BANK")
      (FXDeal.ofRecord Desk.nsi Desk.dealId Desk.created) = some [] := by decide +kernel
  have hbuy : Within (Desk.counterLimits ⟨10999, by decide⟩) "BANK"
      (FXDeal.ofRecord Desk.nsi Desk.dealId Desk.created).buyCurrency
      (FXDeal.ofRecord Desk.nsi Desk.dealId Desk.created).amount := by
    intro l hl
    obtain rfl := List.mem_singleton.mp hl.mem
    exact absurd (hl.applies.currencyCode _ rfl) (by decide +kernel)
  refine ⟨counter, c₁, c₂, hcounter, hvalue, hdone, (hpasses.mp hdone).2, fun hwithin => ?_, hcalc,
    h₁, h₂⟩
  have hfails := hlow.mpr ⟨hbuy, hwithin⟩
  revert hfails
  decide +kernel

/-! ## Monotonicity -/

/-- The same limit with a maximum that is not lower. -/
structure DealLimit.Raised (l l' : DealLimit) : Prop where
  id : l'.id = l.id
  counterpartyId : l'.counterpartyId = l.counterpartyId
  currencyCode : l'.currencyCode = l.currencyCode
  isActive : l'.isActive = l.isActive
  maxAmount : l.maxAmount.unscaled ≤ l'.maxAmount.unscaled

section Raised

variable {rows rows' : List DealLimit}

/-- Raised limits are sorted in the same way. -/
theorem forall₂_orderedInsert {l l' : DealLimit} (hl : l.Raised l')
    (h : List.Forall₂ DealLimit.Raised rows rows') :
    List.Forall₂ DealLimit.Raised (rows.orderedInsert (fun a b => a.id ≤ b.id) l)
      (rows'.orderedInsert (fun a b => a.id ≤ b.id) l') := by
  induction h with
  | nil => exact .cons hl .nil
  | cons hhead htail ih =>
    rw [List.orderedInsert_cons, List.orderedInsert_cons, hl.id, hhead.id]
    split
    · exact .cons hl (.cons hhead htail)
    · exact .cons hhead ih

theorem forall₂_insertionSort (h : List.Forall₂ DealLimit.Raised rows rows') :
    List.Forall₂ DealLimit.Raised (rows.insertionSort fun a b => a.id ≤ b.id)
      (rows'.insertionSort fun a b => a.id ≤ b.id) := by
  induction h with
  | nil => exact .nil
  | cons hhead _ ih => exact forall₂_orderedInsert hhead ih

/-- Raised limits pass the filters that do not look at the maximum. -/
theorem forall₂_filter {p : DealLimit → Bool} (hp : ∀ l l', l.Raised l' → p l' = p l)
    (h : List.Forall₂ DealLimit.Raised rows rows') :
    List.Forall₂ DealLimit.Raised (rows.filter p) (rows'.filter p) :=
  List.rel_filter (fun l l' hl => iff_of_eq (congrArg (· = true) (hp l l' hl).symm)) h

/-- The query of raised limits. -/
theorem forall₂_listActiveLimits (h : List.Forall₂ DealLimit.Raised rows rows')
    (counterpartyId : String) :
    List.Forall₂ DealLimit.Raised (listActiveLimits rows counterpartyId)
      (listActiveLimits rows' counterpartyId) :=
  forall₂_insertionSort
    (forall₂_filter (fun l l' hl => by rw [hl.isActive, hl.counterpartyId]) h)

theorem rel_maxByKey {key : DealLimit → ℕ × ℕ} (hkey : ∀ l l', l.Raised l' → key l' = key l)
    (h : List.Forall₂ DealLimit.Raised rows rows') :
    Option.Rel DealLimit.Raised (maxByKey key rows) (maxByKey key rows') := by
  cases h with
  | nil => exact .none
  | cons hhead htail =>
    refine .some (List.rel_foldl (fun best best' hbest l l' hl => ?_) hhead htail)
    rw [hkey _ _ hbest, hkey _ _ hl]
    split
    · exact hl
    · exact hbest

/-- **The choice does not depend on the maxima**: the limit that is found among raised ones is the
raised one. -/
theorem rel_findBestLimit (h : List.Forall₂ DealLimit.Raised rows rows')
    (counterpartyId currencyCode : String) :
    Option.Rel DealLimit.Raised (findBestLimit rows counterpartyId currencyCode)
      (findBestLimit rows' counterpartyId currencyCode) :=
  rel_maxByKey
    (fun l l' hl => by rw [specificity, specificity, hl.counterpartyId, hl.currencyCode])
    (forall₂_filter (fun l l' hl => by rw [hl.counterpartyId, hl.currencyCode]) h)

end Raised

section Monotone

variable {deal deal' : FXDeal} {counter : Decimal}

/-- A smaller amount at a lower rate has a counter amount that is not larger. -/
theorem counterAmount_mono (hpos : deal.amount.positive = true ∧ deal.rate.positive = true)
    (hamount : deal.amount.value ≤ deal'.amount.value) (hrate : deal.rate.value ≤ deal'.rate.value)
    (h : counterAmount deal' = some counter) :
    ∃ counter', counterAmount deal = some counter' ∧ counter'.value ≤ counter.value := by
  have hamount₀ := Decimal.positive_iff.mp hpos.1
  have hrate₀ := Decimal.positive_iff.mp hpos.2
  have hamount' := Decimal.positive_iff.mpr (hamount₀.trans_le hamount)
  have hrate' := Decimal.positive_iff.mpr (hrate₀.trans_le hrate)
  have hnonneg : (Decimal.mul precision deal.amount deal.rate).negative = false :=
    Decimal.mul_negative hpos.1 hpos.2
  have hnonneg' : (Decimal.mul precision deal'.amount deal'.rate).negative = false :=
    Decimal.mul_negative hamount' hrate'
  -- the products are in order, and both roundings keep the order
  have hexact : (Decimal.exactMul deal.amount deal.rate).value ≤
      (Decimal.exactMul deal'.amount deal'.rate).value := by
    rw [Decimal.value_exactMul, Decimal.value_exactMul]
    exact mul_le_mul hamount hrate hrate₀.le (hamount₀.le.trans hamount)
  have hproduct : (Decimal.mul precision deal.amount deal.rate).value ≤
      (Decimal.mul precision deal'.amount deal'.rate).value :=
    Decimal.fix_mono (by decide)
      (Decimal.exactMul_nonneg (Decimal.nonneg_of_positive hpos.1)
        (Decimal.nonneg_of_positive hpos.2))
      (Decimal.exactMul_nonneg (Decimal.nonneg_of_positive hamount')
        (Decimal.nonneg_of_positive hrate')) hexact
  obtain ⟨counter', hcounter'⟩ := Decimal.exists_quantize_of_le hnonneg hnonneg' hproduct h
  exact ⟨counter', hcounter', Decimal.quantize_mono hnonneg hnonneg' hproduct hcounter' h⟩

/-- A smaller amount stays within a higher limit. -/
theorem limitIssue_mono {limits limits' : List DealLimit}
    (h : List.Forall₂ DealLimit.Raised limits limits') {counterpartyId currency label : String}
    {amount amount' : Decimal} (hle : amount'.value ≤ amount.value)
    (hpasses : limitIssue limits counterpartyId currency label amount = []) :
    limitIssue limits' counterpartyId currency label amount' = [] := by
  have hrel := rel_findBestLimit h counterpartyId currency
  rw [limitIssue_eq_nil_iff] at hpasses ⊢
  intro l' hl'
  rw [Option.mem_def.mp hl'] at hrel
  generalize hbest : findBestLimit limits counterpartyId currency = best at hrel hpasses
  cases hrel with
  | some hraised =>
    have hwithin := hpasses _ rfl
    rw [← Bool.not_eq_true, Decimal.lt_iff, not_lt] at hwithin ⊢
    exact (hle.trans hwithin).trans (Numeric.value_toDecimal_le_iff.mpr hraised.maxAmount)

/-- The check of a smaller deal against higher limits. -/
theorem checkLimits_mono {limits limits' : List DealLimit}
    (h : List.Forall₂ DealLimit.Raised limits limits')
    (hcounterparty : deal.counterpartyId = deal'.counterpartyId)
    (hbuy : deal.buyCurrency = deal'.buyCurrency) (hsell : deal.sellCurrency = deal'.sellCurrency)
    (hamount : deal.amount.value ≤ deal'.amount.value)
    (hcounter : ∀ counter', counterAmount deal' = some counter' →
      ∃ counter, counterAmount deal = some counter ∧ counter.value ≤ counter'.value)
    (hpasses : checkLimits limits deal' = some []) : checkLimits limits' deal = some [] := by
  cases h with
  | nil => rfl
  | cons hhead htail =>
    cases hcounter' : counterAmount deal' with
    | none => simp [checkLimits, hcounter'] at hpasses
    | some counter' =>
      obtain ⟨counter, hsome, hle⟩ := hcounter counter' hcounter'
      obtain ⟨hdeal, hleg⟩ := (checkLimits_eq_nil_iff hcounter').mp hpasses
      rw [checkLimits_eq_nil_iff hsome, hcounterparty, hbuy, hsell]
      exact ⟨limitIssue_mono (.cons hhead htail) hamount hdeal,
        limitIssue_mono (.cons hhead htail) hle hleg⟩

/-- **The limit check is monotone**: if a deal passes, so does every deal of the same parties and
currencies with an amount and a rate that are not larger, and it still passes when maxima are
raised. -/
theorem checkLimits_monotone {rows : List DealLimit} {deal : FXDeal}
    (h : checkLimits (listActiveLimits rows deal.counterpartyId) deal = some []) :
    (∀ deal' : FXDeal, deal'.counterpartyId = deal.counterpartyId →
      deal'.buyCurrency = deal.buyCurrency → deal'.sellCurrency = deal.sellCurrency →
      deal'.amount.positive = true ∧ deal'.rate.positive = true →
      deal'.amount.value ≤ deal.amount.value → deal'.rate.value ≤ deal.rate.value →
        checkLimits (listActiveLimits rows deal'.counterpartyId) deal' = some []) ∧
    ∀ rows', List.Forall₂ DealLimit.Raised rows rows' →
      checkLimits (listActiveLimits rows' deal.counterpartyId) deal = some [] := by
  constructor
  · intro deal' hcounterparty hbuy hsell hpos hamount hrate
    rw [hcounterparty]
    exact checkLimits_mono (List.forall₂_same.mpr fun l _ => ⟨rfl, rfl, rfl, rfl, le_rfl⟩)
      hcounterparty hbuy hsell hamount (fun _ => counterAmount_mono hpos hamount hrate) h
  · intro rows' hraised
    exact checkLimits_mono (forall₂_listActiveLimits hraised deal.counterpartyId) rfl rfl rfl le_rfl
      (fun counter hcounter => ⟨counter, hcounter, le_rfl⟩) h

end Monotone

namespace Desk

/-- The tied limits, raised to 200.00 USD. -/
def raisedLimits : List DealLimit :=
  tiedLimits.map fun l => { l with maxAmount := ⟨20000, by decide⟩ }

/-- The deal of the desk at a rate of 1. -/
def cheaper : FXDeal := { FXDeal.ofRecord nsi dealId created with rate := ⟨false, 1, 0⟩ }

end Desk

/-- The deal of the desk passes at a lower rate, and with raised limits. -/
theorem checkLimits_monotone_desk :
    checkLimits (listActiveLimits Desk.tiedLimits Desk.cheaper.counterpartyId) Desk.cheaper =
        some [] ∧
      checkLimits (listActiveLimits Desk.raisedLimits
        (FXDeal.ofRecord Desk.nsi Desk.dealId Desk.created).counterpartyId)
          (FXDeal.ofRecord Desk.nsi Desk.dealId Desk.created) = some [] := by
  have hpasses : checkLimits (listActiveLimits Desk.tiedLimits
      (FXDeal.ofRecord Desk.nsi Desk.dealId Desk.created).counterpartyId)
        (FXDeal.ofRecord Desk.nsi Desk.dealId Desk.created) = some [] := by
    decide +kernel
  obtain ⟨hdeals, hlimits⟩ := checkLimits_monotone hpasses
  have hrate : ¬ (FXDeal.ofRecord Desk.nsi Desk.dealId Desk.created).rate.lt
      Desk.cheaper.rate = true := by
    decide +kernel
  rw [Decimal.lt_iff, not_lt] at hrate
  refine ⟨hdeals Desk.cheaper rfl rfl rfl (by decide +kernel) le_rfl hrate, hlimits _ ?_⟩
  exact .cons ⟨rfl, rfl, rfl, rfl, by decide⟩ (.cons ⟨rfl, rfl, rfl, rfl, by decide⟩ .nil)

end FxDealManager
