import FxDealManager.Api.Quotes
import FxDealManager.Lifecycle.Edits

/-!
# What the quotes tell

The columns bound the rates, so that neither the division nor the rounding of a change can fail. A
quote tells the rate of the last deal of its pair, and the change against the deal before it up to
the roundings.

## Main definitions

* `IsDelta`: a change as the quotes may tell it

## Main results

* `deltaPercent_spec`: the change between two rates of the column
* `quotesOf_spec`: the quotes of any fetched deals
* `listQuotes_ok`: the route answers with the quotes of the deals it fetched
-/

namespace FxDealManager

open DecimalArithmetic Dictionaries Transactional

/-! ## Changes -/

/-- The change of a pair as its quote may tell it: nothing without a previous rate or with the rate
zero, and otherwise the exact change up to the rounding to four places and the half unit by which
the division may be off. -/
def IsDelta (rate : ℚ) (previous : Option ℚ) (delta : ℚ) : Prop :=
  match previous with
  | none => delta = 0
  | some previous =>
    if previous = 0 then delta = 0
    else |delta - (rate - previous) / previous * 100| ≤
      0.00005 + 5 / 10 ^ precision * |(rate - previous) / previous * 100|

section Delta

variable {m n : Numeric 18 6}

theorem value_toDecimal_eq_zero_iff : n.toDecimal.value = 0 ↔ n.toDecimal.coefficient = 0 := by
  have hpos : (10 : ℚ) ^ (-((6 : ℕ) : ℤ)) ≠ 0 := zpow_ne_zero _ (by norm_num)
  rw [Numeric.value_toDecimal, mul_eq_zero, or_iff_left hpos, Int.cast_eq_zero]
  exact Int.natAbs_eq_zero.symm

/-- The quotient of two rates of the column is not large. -/
theorem abs_ratio_le (hn : n.toDecimal.coefficient ≠ 0) :
    |(m.toDecimal.value - n.toDecimal.value) / n.toDecimal.value| ≤ 2 * 10 ^ 18 := by
  have hpos : (0 : ℚ) < 10 ^ (-((6 : ℕ) : ℤ)) := zpow_pos (by norm_num) _
  have hne : n.unscaled ≠ 0 := fun h => hn (Int.natAbs_eq_zero.mpr h)
  have hone : (1 : ℚ) ≤ |(n.unscaled : ℚ)| := by exact_mod_cast Int.one_le_abs hne
  have hnum : |((m.unscaled - n.unscaled : ℤ) : ℚ)| ≤ 2 * 10 ^ 18 := by
    have hm := m.fits
    have hn := n.fits
    have hle : |m.unscaled - n.unscaled| ≤ 2 * 10 ^ 18 :=
      abs_le.mpr ⟨by omega, by omega⟩
    exact_mod_cast hle
  rw [Numeric.value_toDecimal, Numeric.value_toDecimal, ← sub_mul, mul_div_mul_right _ _ hpos.ne',
    abs_div, ← Int.cast_sub, div_le_iff₀ (by linarith)]
  nlinarith

/-- **The change between two rates** of the column is computed without an exception. -/
theorem deltaPercent_spec (hn : n.toDecimal.coefficient ≠ 0) :
    ∃ delta, deltaPercent m.toDecimal n.toDecimal = .ok delta ∧
      IsDelta m.toDecimal.value (some n.toDecimal.value) delta.value := by
  have hprec : 0 < precision := by decide
  have hzero : n.toDecimal.value ≠ 0 := fun h => hn (value_toDecimal_eq_zero_iff.mp h)
  obtain ⟨q, hq, herror⟩ := Decimal.div_error hprec (a := Decimal.sub precision m.toDecimal
    n.toDecimal) hn
  rw [Numeric.value_sub (by decide) hprec] at herror
  have hbound := abs_ratio_le (m := m) hn
  have hmul : (Decimal.mul precision q ⟨false, 100, 0⟩).value = q.value * 10 ^ 2 :=
    Decimal.value_mul_ten_pow hprec (Decimal.digits_div_le hprec hq) 2
  generalize hx : (m.toDecimal.value - n.toDecimal.value) / n.toDecimal.value = x at herror hbound
  have hsmall : |(Decimal.mul precision q ⟨false, 100, 0⟩).value| <
      (10 ^ precision - 1) * 10 ^ (-4 : ℤ) := by
    have htriangle := abs_sub_abs_le_abs_sub q.value x
    have hpow : (10 : ℚ) ^ precision = 10 ^ 28 := rfl
    rw [hpow] at herror ⊢
    rw [hmul, abs_mul, abs_of_pos (by norm_num : (0 : ℚ) < 10 ^ 2)]
    norm_num at herror hbound ⊢
    linarith
  obtain ⟨delta, hdelta⟩ := Decimal.exists_quantize .halfEven hprec hsmall
  have hquantize := Decimal.quantize_error hdelta
  refine ⟨delta, by simp [deltaPercent, hq, hdelta, bind, Except.bind], ?_⟩
  rw [hmul] at hquantize
  simp only [IsDelta, if_neg hzero, hx]
  rw [abs_mul, abs_of_pos (by norm_num : (0 : ℚ) < 100)]
  calc |delta.value - x * 100| ≤ |delta.value - q.value * 10 ^ 2| + |q.value * 10 ^ 2 - x * 100| :=
        abs_sub_le _ _ _
    _ ≤ 10 ^ (-4 : ℤ) / 2 + 5 / 10 ^ precision * |x| * 100 := by
        refine add_le_add hquantize ?_
        rw [show q.value * 10 ^ 2 - x * 100 = (q.value - x) * 100 by ring, abs_mul,
          abs_of_pos (by norm_num : (0 : ℚ) < 100)]
        exact mul_le_mul_of_nonneg_right herror (by norm_num)
    _ = 0.00005 + 5 / 10 ^ precision * (|x| * 100) := by
        rw [mul_assoc]
        norm_num

end Delta

/-! ## Quotes -/

section Quotes

variable {deals : List FXDeal}

/-- The rates come from their column. -/
def StoredRates (deals : List FXDeal) : Prop :=
  ∀ deal ∈ deals, ∃ n : Numeric 18 6, deal.rate = n.toDecimal

theorem deltaOf_spec {deal : FXDeal} {previous : Option FXDeal}
    (hdeal : ∃ n : Numeric 18 6, deal.rate = n.toDecimal)
    (hprevious : ∀ p ∈ previous, ∃ n : Numeric 18 6, p.rate = n.toDecimal) :
    ∃ delta, deltaOf deal previous = .ok delta ∧
      IsDelta deal.rate.value (previous.map fun p => p.rate.value) delta.value := by
  have hzero : Decimal.zero.value = 0 := by simp [Decimal.value, Decimal.zero]
  cases previous with
  | none => exact ⟨.zero, rfl, hzero⟩
  | some p =>
    obtain ⟨m, hm⟩ := hdeal
    obtain ⟨n, hn⟩ := hprevious p rfl
    simp only [deltaOf, hm, hn, Option.map_some]
    split
    next hn =>
      refine ⟨.zero, rfl, ?_⟩
      simp only [IsDelta, if_pos (value_toDecimal_eq_zero_iff.mpr hn)]
      exact hzero
    next hne => exact deltaPercent_spec hne

/-- Deals whose currencies bought have codes of one length are of one pair if both codes agree. -/
theorem pair_eq_iff {d d' : FXDeal} (h : d.buyCurrency.length = d'.buyCurrency.length) :
    d.pair = d'.pair ↔ d.buyCurrency = d'.buyCurrency ∧ d.sellCurrency = d'.sellCurrency := by
  refine ⟨fun hpair => ?_, fun ⟨hbuy, hsell⟩ => by rw [FXDeal.pair, hbuy, hsell, FXDeal.pair]⟩
  have hlist := congrArg String.toList hpair
  simp only [FXDeal.pair, String.toList_append, List.append_assoc] at hlist
  obtain ⟨hbuy, hrest⟩ := List.append_inj hlist
    (by rw [String.length_toList, String.length_toList, h])
  exact ⟨String.toList_injective hbuy, String.toList_injective (List.append_cancel_left hrest)⟩

/-- The quote of a pair, from the deals of the pair in the order in which they were fetched. -/
def QuoteResponse.Tells (deals : List FXDeal) (quote : QuoteResponse) : Prop :=
  ∃ last earlier, (deals.filter fun deal => deal.pair = quote.pair) = last :: earlier ∧
    quote.mid = last.rate ∧ quote.baseCurrency = last.buyCurrency ∧
    quote.quoteCurrency = last.sellCurrency ∧ quote.updatedAt = last.updatedAt ∧
    IsDelta last.rate.value (earlier.head?.map fun deal => deal.rate.value)
      quote.deltaPercent.value

/-- An item of the dictionary becomes the quote of its pair. -/
theorem exists_quoteOf (h : StoredRates deals) {latest previous : Dict String FXDeal}
    (hkept : Kept FXDeal.pair deals (latest, previous)) {pair : String} {deal : FXDeal}
    (hdeal : latest.lookup pair = some deal) :
    ∃ quote, quoteOf previous (pair, deal) = .ok quote ∧ quote.pair = pair ∧
      quote.Tells deals := by
  have hfirst := hkept.first pair
  have hsecond := hkept.second pair
  dsimp only at hfirst hsecond
  rw [hdeal] at hfirst
  cases hrows : deals.filter fun deal => deal.pair = pair with
  | nil => simp [hrows] at hfirst
  | cons last earlier =>
    rw [hrows] at hfirst hsecond
    obtain rfl : deal = last := by simpa using hfirst
    have hmem : ∀ d ∈ deal :: earlier, ∃ n : Numeric 18 6, d.rate = n.toDecimal := fun d hd =>
      h d (List.mem_of_mem_filter (hrows ▸ hd))
    have hhead : previous.lookup pair = earlier.head? := by
      rw [hsecond, List.getElem?_cons_succ, List.head?_eq_getElem?]
    obtain ⟨delta, hdelta, hspec⟩ := deltaOf_spec (hmem deal List.mem_cons_self) fun p hp =>
      hmem p (List.mem_cons_of_mem _ (List.mem_of_head? hp))
    exact ⟨_, map_eq_ok.mpr ⟨delta, hhead ▸ hdelta, rfl⟩, rfl, deal, earlier, hrows, rfl, rfl, rfl,
      rfl, hspec⟩

/-- The quotes come in the order of the pairs, one for each pair of a deal. -/
theorem exists_quotesOf (h : StoredRates deals) :
    ∃ quotes, quotesOf deals = .ok quotes ∧
      quotes.Pairwise (fun a b => a.pair < b.pair) ∧
      (∀ pair, (∃ quote ∈ quotes, quote.pair = pair) ↔ ∃ deal ∈ deals, deal.pair = pair) ∧
      ∀ quote ∈ quotes, quote.Tells deals := by
  have hkept : Kept FXDeal.pair deals (firstAndSecond FXDeal.pair deals) :=
    kept_firstAndSecond deals
  simp only [quotesOf]
  -- from here on only what the loop keeps of a pair counts, not how it gets there
  generalize firstAndSecond FXDeal.pair deals = kept at hkept ⊢
  obtain ⟨latest, previous⟩ := kept
  have hlookup : ∀ {pair deal}, (pair, deal) ∈ Dict.sortedItems latest ↔
      latest.lookup pair = some deal := fun {pair deal} =>
    Dict.mem_sortedItems.trans AList.mem_lookup_iff.symm
  have hquote : ∀ item ∈ Dict.sortedItems latest, ∃ quote, quoteOf previous item = .ok quote ∧
      quote.pair = item.1 ∧ quote.Tells deals := fun _ hitem =>
    exists_quoteOf h hkept (hlookup.mp hitem)
  obtain ⟨quotes, hquotes⟩ := exists_mapM_iff.mpr fun item hitem => (hquote item hitem).imp
    fun _ hok => hok.1
  have htells : List.Forall₂ (fun quote item => quote.Tells deals ∧ quote.pair = item.1) quotes
      (Dict.sortedItems latest) := by
    have hboth := (List.forall₂_and_left _ _).mpr ⟨hquote, mapM_eq_ok.mp hquotes⟩
    refine (hboth.imp ?_).flip
    rintro item quote ⟨⟨quote', hok, hpair, htells⟩, hok'⟩
    cases hok.symm.trans hok'
    exact ⟨htells, hpair⟩
  obtain ⟨htells, hpairs⟩ := (List.forall₂_and_left _ _).mp htells
  have hkeys : quotes.map QuoteResponse.pair = (Dict.sortedItems latest).map Prod.fst := by
    rw [← List.forall₂_eq_eq_eq, List.forall₂_map_left_iff, List.forall₂_map_right_iff]
    exact hpairs
  refine ⟨quotes, hquotes, ?_, fun pair => ?_, htells⟩
  · rw [← List.pairwise_map (f := QuoteResponse.pair) (R := (· < ·)), hkeys, List.pairwise_map]
    exact Dict.pairwise_sortedItems latest
  · calc (∃ quote ∈ quotes, quote.pair = pair) ↔ pair ∈ (Dict.sortedItems latest).map Prod.fst := by
          rw [← hkeys, List.mem_map]
      _ ↔ (latest.lookup pair).isSome := by
          rw [Option.isSome_iff_exists, List.mem_map]
          constructor
          · rintro ⟨⟨_, deal⟩, hmem, rfl⟩
            exact ⟨deal, hlookup.mp hmem⟩
          · rintro ⟨deal, hdeal⟩
            exact ⟨(pair, deal), hlookup.mpr hdeal, rfl⟩
      _ ↔ ∃ deal ∈ deals, deal.pair = pair := by
          rw [hkept.first pair]
          cases hrows : deals.filter fun deal => deal.pair = pair with
          | nil => simpa [List.filter_eq_nil_iff] using hrows
          | cons deal _ =>
            have hdeal := List.mem_filter.mp (hrows ▸ List.mem_cons_self : deal ∈ _)
            exact iff_of_true rfl ⟨deal, hdeal.1, by simpa using hdeal.2⟩

/-- **The quotes of any fetched deals**: one for each pair, in the order of the pairs, each with the
last rate of its pair and the change against the rate before. The pair tells the currencies, as all
codes have three characters. -/
theorem quotesOf_spec (h : StoredRates deals) :
    (∃ quotes, quotesOf deals = .ok quotes ∧
      quotes.Pairwise (fun a b => a.pair < b.pair) ∧
      (∀ pair, (∃ quote ∈ quotes, quote.pair = pair) ↔ ∃ deal ∈ deals, deal.pair = pair) ∧
      ∀ quote ∈ quotes, quote.Tells deals) ∧
    ∀ d ∈ deals, ∀ d' ∈ deals, d.buyCurrency.length = d'.buyCurrency.length →
      (d.pair = d'.pair ↔ d.buyCurrency = d'.buyCurrency ∧ d.sellCurrency = d'.sellCurrency) :=
  ⟨exists_quotesOf h, fun _ _ _ _ => pair_eq_iff⟩

end Quotes

namespace Desk

/-- Two deals of one pair, the last one at twice the rate. -/
def trades : List FXDeal :=
  let doubled : Numeric 18 6 := ⟨2 * draft.row.rate.unscaled, by decide +kernel⟩
  [FXDeal.ofRecord nsi 1 { draft with row := { draft.row with rate := doubled } },
    FXDeal.ofRecord nsi 2 draft]

end Desk

/-- The pair of the desk has a quote. -/
theorem quotesOf_desk : ∃ quote quotes, quotesOf Desk.trades = .ok (quote :: quotes) ∧
    quote.Tells Desk.trades := by
  have hrates : StoredRates Desk.trades := by
    rintro deal (_ | ⟨_, _ | ⟨_, ⟨⟩⟩⟩)
    · exact ⟨_, rfl⟩
    · exact ⟨_, rfl⟩
  obtain ⟨⟨quotes, hquotes, -, hpairs, htells⟩, -⟩ := quotesOf_spec hrates
  obtain ⟨quote, hmem, -⟩ := (hpairs _).mpr ⟨_, List.mem_cons_self, rfl⟩
  cases quotes with
  | nil => cases hmem
  | cons first quotes => exact ⟨first, quotes, hquotes, htells first List.mem_cons_self⟩

/-! ## The route -/

/-- **The route** answers with the quotes of the deals that it fetched. -/
theorem listQuotes_ok {order : List FXDeal → List FXDeal}
    (horder : ∀ deals, (order deals).Perm deals) {env : Env} {db : Database} {user : UserClaims}
    {result : Except QuoteError (List QuoteResponse)}
    (h : ((listQuotes order user).run env db).1 = .ok result) :
    ∃ quotes, result = .ok quotes ∧ quotes.Pairwise (fun a b => a.pair < b.pair) ∧
      ∀ quote ∈ quotes, quote.Tells ((order (quotedDeals db)).take 300) := by
  have hstored : StoredRates ((order (quotedDeals db)).take 300) := by
    intro deal hdeal
    have hmem := (horder _).mem_iff.mp (List.mem_of_mem_take hdeal)
    obtain ⟨e, -, rfl⟩ := List.mem_map.mp hmem
    exact ⟨_, rfl⟩
  have hstop : ∀ c : ServiceProgress, c.StopsIn fun (result : Except ServiceError
      (Except QuoteError (List QuoteResponse))) _ => ∀ r, result = .ok r →
        r = quotesOf ((order (quotedDeals db)).take 300) := by
    rintro c err c' - - - r ⟨⟩
  have hensures : (listQuotes order user).Ensures env (Progress.start db)
      fun result _ => ∀ r, result = .ok r →
        r = quotesOf ((order (quotedDeals db)).take 300) := by
    refine .require_bind (hstop _) fun _ => .query_bind (hstop _) (.pure ?_)
    rintro r ⟨⟩
    rfl
  obtain ⟨quotes, hquotes, hsorted, -, htells⟩ := exists_quotesOf hstored
  exact ⟨quotes, (hensures.run result h).trans hquotes, hsorted, htells⟩

end FxDealManager
