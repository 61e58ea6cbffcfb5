import FxDealManager.Positions.Currencies

/-!
# Reports that cannot be read

A report that the position system fails to send is a gateway error. One that it sends and that
cannot be read is not: the exception shows in the middle of the interpretation, which nothing
guards.

## Main definitions

* `NumberField`, `fieldValue`: a field of a row that is a number or missing, and its value
* `Prints`: the value of a field prints as a number
* `RowReadable`, `Readable`: a row and a report that can be read
* `Guarded`: the overview answers, or it is a gateway error

## Main results

* `numberField_iff`, `prints_int`: which values are numbers or missing
* `exists_accountOf_iff`, `exists_overviewOf_iff`: when there is an account, and an overview
* `report_guarded_iff`: when the overview answers or is a gateway error
* `list_escapes`: a report that is a list
-/

namespace FxDealManager

open DecimalArithmetic DecimalText Dictionaries Transactional

section Rows

variable (u : Unicode)

/-- The value is missing or a finite number. -/
def NumberField (value : Option Json) : Prop :=
  ∃ v, dec u value = .ok v ∧ (finiteOf v).isSome

/-- The value of a number, zero if it is missing. -/
def fieldValue (value : Option Json) : ℚ :=
  match dec u value with
  | .ok (some (.finite d)) => d.value
  | _ => 0

/-- The value prints as the text of the number, which is within the limits of exact conversions. -/
def Prints (value : Json) (d : Decimal) : Prop :=
  NumberText u.digit ((strip value.text).toList.filter (· ≠ '_')) d ∧ conversionContext.Holds d

theorem Unicode.plain : Plain u.digit where
  ascii c hc := by
    simp only [Char.isDigit, Bool.and_eq_true, decide_eq_true_eq] at hc
    exact if_pos hc
  point := rfl
  plus := rfl
  minus := rfl
  exponent := by
    rintro c (rfl | rfl)
    · rfl
    · rfl

theorem decimalOf_eq_finite_iff {value : Json} {d : Decimal} :
    decimalOf u value.text = .ok (.finite d) ↔ Prints u value d := by
  rw [Prints, ← read_eq_finite_iff u.plain, decimalOf]
  constructor
  · intro h
    split at h
    · cases h
    · cases h
    next d' hread =>
      split at h
      next hholds =>
        cases h
        exact ⟨hread, hholds⟩
      next => cases h
  · rintro ⟨hread, hholds⟩
    simp only [hread, if_pos hholds]

theorem numberField_of_dec (value : Json)
    (hdec : dec u (some value) = (decimalOf u value.text).map some) :
    NumberField u (some value) ↔ ∃ d, Prints u value d := by
  constructor
  · rintro ⟨v, hv, hfinite⟩
    obtain ⟨spelled, hspelled, rfl⟩ := map_eq_ok.mp (hdec.symm.trans hv)
    cases spelled with
    | finite d => exact ⟨d, (decimalOf_eq_finite_iff u).mp hspelled⟩
    | special => cases hfinite
  · rintro ⟨d, hd⟩
    exact ⟨some (.finite d), by rw [hdec, (decimalOf_eq_finite_iff u).mpr hd]; rfl, rfl⟩

/-- **A number or nothing**: the value of the field, if there is one, is null, empty, or prints as a
number. -/
theorem numberField_iff {value : Option Json} :
    NumberField u value ↔
      ∀ v ∈ value, v = .null ∨ v = .str "" ∨ ∃ d, Prints u v d := by
  cases value with
  | none => exact iff_of_true ⟨none, rfl, rfl⟩ nofun
  | some v =>
    simp only [Option.mem_some_iff, forall_eq']
    cases v with
    | null => exact iff_of_true ⟨none, rfl, rfl⟩ (.inl rfl)
    | str s =>
      by_cases hs : s = ""
      · subst hs
        exact iff_of_true ⟨none, rfl, rfl⟩ (.inr (.inl rfl))
      · have hdec : dec u (some (.str s)) = (decimalOf u s).map some := if_neg hs
        exact (numberField_of_dec u (.str s) hdec).trans (by simp [hs])
    | bool b => exact (numberField_of_dec u (.bool b) rfl).trans (by simp)
    | int n => exact (numberField_of_dec u (.int n) rfl).trans (by simp)
    | float zero text => exact (numberField_of_dec u (.float zero text) rfl).trans (by simp)
    | arr items => exact (numberField_of_dec u (.arr items) rfl).trans (by simp)
    | obj fields => exact (numberField_of_dec u (.obj fields) rfl).trans (by simp)

theorem digit_notSpace {c : Char} (h : c.isDigit = true) : isSpace c = false ∧ c ≠ '_' := by
  have hrange : 48 ≤ c.toNat ∧ c.toNat ≤ 57 := by
    simpa [Char.isDigit, UInt32.le_iff_toNat_le] using h
  constructor
  · simp only [isSpace, decide_eq_false_iff_not, List.mem_cons, List.not_mem_nil,
      or_false]
    omega
  · rintro rfl
    exact absurd hrange (by decide)

theorem strip_eq_self {s : String} (h : ∀ c ∈ s.toList, isSpace c = false) : strip s = s := by
  rw [strip, List.dropWhile_eq_self_iff.mpr, List.rdropWhile_eq_self_iff.mpr, String.ofList_toList]
  · intro hne
    rw [h _ (List.getLast_mem hne)]
    decide
  · intro hpos
    rw [h _ (List.getElem_mem hpos)]
    decide

/-- **Integers are numbers**, as long as they are within the limits. -/
theorem prints_int (n : ℤ) (h : digits n.natAbs ≤ conversionContext.prec) :
    Prints u (.int n) ⟨decide (n < 0), n.natAbs, 0⟩ := by
  have hchars : ∀ c ∈ (toString n).toList, isSpace c = false ∧ c ≠ '_' := by
    intro c hc
    rcases mem_toString_int hc with hdigit | rfl
    · exact digit_notSpace hdigit
    · decide
  have htext : (strip (Json.int n).text).toList.filter (· ≠ '_') = (toString n).toList := by
    rw [strip_eq_self (s := (Json.int n).text) fun c hc => (hchars c hc).1]
    exact List.filter_eq_self.mpr fun c hc => decide_eq_true (hchars c hc).2
  refine ⟨?_, h, ?_, ?_⟩
  · rw [htext]
    exact numberText_toString u.plain n
  · show conversionContext.etiny ≤ 0
    decide
  · show (digits n.natAbs : ℤ) + 0 ≤ conversionContext.emax + 1
    have hprec : (conversionContext.prec : ℤ) ≤ conversionContext.emax + 1 := by decide
    omega

/-- The keys of the numbers in a row. -/
def numericFields : List String :=
  ["opening_balance", "turnover_in", "turnover_out", "current_position"]

/-- The row can be read: the name is a text or missing, the numbers are finite or missing. -/
structure RowReadable (row : Json) : Prop where
  name : (nameOf (nameValue row)).isSome
  numbers : ∀ key ∈ numericFields, NumberField u (row.get key)

/-- The currency that a row names. -/
def codeOf (row : Json) : String := u.upper (textOrEmpty (row.get "currency_code"))

/-- The position that a row adds to its currency. -/
def positionOf (row : Json) : Decimal :=
  match dec u (row.get "current_position") with
  | .ok (some (.finite d)) => if d.coefficient = 0 then .zero else d
  | _ => .zero

variable {u} {row : Json} {account : FxPositionAccountResponse}

/-- The position of an account, from the number that its row has. -/
theorem position_of_finiteOf {v : Option Spelled} {position : Option Decimal}
    (hdec : dec u (row.get "current_position") = .ok v) (hfinite : finiteOf v = some position) :
    (position.filter (·.coefficient ≠ 0)).getD .zero = positionOf u row := by
  rw [positionOf, hdec]
  cases v with
  | none =>
    cases hfinite
    rfl
  | some spelled =>
    cases spelled with
    | special => cases hfinite
    | finite d =>
      cases hfinite
      by_cases hzero : d.coefficient = 0 <;> simp [Option.filter, hzero]

/-- An account has read its row. -/
theorem accountOf_eq_ok (h : accountOf u row = .ok account) :
    RowReadable u row ∧ account.currencyCode = codeOf u row ∧
      account.position = positionOf u row := by
  obtain ⟨openingBalance, hopening, h⟩ := bind_eq_ok.mp h
  obtain ⟨turnoverIn, hin, h⟩ := bind_eq_ok.mp h
  obtain ⟨turnoverOut, hout, h⟩ := bind_eq_ok.mp h
  obtain ⟨currentPosition, hcurrent, h⟩ := bind_eq_ok.mp h
  split at h
  next name opening tin tout current hname hopening' hin' hout' hcurrent' =>
    cases h
    refine ⟨⟨by rw [hname]; rfl, ?_⟩, rfl, ?_⟩
    · simp only [numericFields, List.forall_mem_cons]
      exact ⟨⟨_, hopening, by rw [hopening']; rfl⟩, ⟨_, hin, by rw [hin']; rfl⟩,
        ⟨_, hout, by rw [hout']; rfl⟩, ⟨_, hcurrent, by rw [hcurrent']; rfl⟩, nofun⟩
    · exact position_of_finiteOf hcurrent hcurrent'
  next => cases h

/-- There is an account if and only if the row can be read. -/
theorem exists_accountOf_iff :
    (∃ account, accountOf u row = .ok account) ↔ RowReadable u row := by
  constructor
  · rintro ⟨account, h⟩
    exact (accountOf_eq_ok h).1
  · rintro ⟨hname, hnumbers⟩
    simp only [numericFields, List.forall_mem_cons] at hnumbers
    obtain ⟨⟨opening, hopening, hopening'⟩, ⟨tin, hin, hin'⟩, ⟨tout, hout, hout'⟩,
      ⟨current, hcurrent, hcurrent'⟩, -⟩ := hnumbers
    rw [Option.isSome_iff_exists] at hname hopening' hin' hout' hcurrent'
    obtain ⟨name, hname⟩ := hname
    obtain ⟨_, hopening'⟩ := hopening'
    obtain ⟨_, hin'⟩ := hin'
    obtain ⟨_, hout'⟩ := hout'
    obtain ⟨_, hcurrent'⟩ := hcurrent'
    rw [accountOf, hopening, hin, hout, hcurrent]
    simp only [bind, Except.bind, hname, hopening', hin', hout', hcurrent']
    exact ⟨_, rfl⟩

/-- The positions of a currency, from the rows that the accounts have read. -/
theorem positionsIn_of_rows {rows : List Json} {accounts : List FxPositionAccountResponse}
    (h : List.Forall₂ (fun row account => accountOf u row = .ok account) rows accounts)
    (code : String) :
    positionsIn accounts code =
      (rows.filter fun row => codeOf u row = code).map (positionOf u) := by
  induction h with
  | nil => rfl
  | @cons row account rows accounts hrow _ ih =>
    obtain ⟨-, hcode, hposition⟩ := accountOf_eq_ok hrow
    rw [positionsIn] at ih ⊢
    by_cases heq : codeOf u row = code
    · simp [hcode, heq, hposition, ih]
    · simp [hcode, heq, ih]

end Rows

/-! ## Reports -/

section Reports

/-- A loop can go through the value. -/
def Json.isIterable : Json → Bool
  | .arr _ | .str _ | .obj _ => true
  | _ => false

/-- The rows of a report that are objects. -/
def reportRows (blob : Json) : List Json :=
  match blob.get "positions" with
  | some (.arr items) => items.filter Json.isObject
  | _ => []

/-- The report can be read: it is an object, a loop can go through its positions, each row that is
an object can be read, and the positions add up. -/
structure Readable (u : Unicode) (exposure : Amounts) (blob : Json) : Prop where
  object : blob.isObject
  positions : ∀ value ∈ blob.get "positions", value.truthy → value.isIterable
  rows : ∀ row ∈ reportRows blob, RowReadable u row
  sums : ∀ code, AddsUp (((reportRows blob).filter fun row => codeOf u row = code).map
    (positionOf u)) (exposure.amount code) code

variable {u : Unicode} {blob : Json} {onDate : Date} {exposure : Amounts}

theorem iterate_eq_ok {value : Json} :
    (∃ rows, iterate value = .ok rows) ↔ value.isIterable = true := by
  cases value <;> simp [iterate, Json.isIterable]

/-- What a loop finds in a text or an object is no object. -/
theorem filter_isObject_map {α : Type} (text : α → String) (as : List α) :
    (as.map fun a => Json.str (text a)).filter Json.isObject = [] := by
  rw [List.filter_eq_nil_iff]
  intro value hvalue
  obtain ⟨a, -, rfl⟩ := List.mem_map.mp hvalue
  exact Bool.false_ne_true

/-- The rows of an object, by the value of its positions. -/
theorem rowsOf_obj (fields : List (String × Json)) :
    rowsOf (.obj fields) =
      (((Json.obj fields).get "positions").filter Json.truthy).elim (.ok []) iterate := rfl

/-- A report has rows if it is an object and a loop can go through its positions. -/
theorem exists_rowsOf_iff :
    (∃ rows, rowsOf blob = .ok rows) ↔ blob.isObject = true ∧
      ∀ value ∈ blob.get "positions", value.truthy = true → value.isIterable = true := by
  cases blob with
  | obj fields =>
    rw [rowsOf_obj]
    refine Iff.trans ?_ (and_iff_right rfl).symm
    cases (Json.obj fields).get "positions" with
    | none => simp
    | some value =>
      cases htruthy : value.truthy with
      | true =>
        rw [Option.filter_some_pos htruthy, Option.elim_some, iterate_eq_ok]
        simp [htruthy]
      | false =>
        rw [Option.filter_some_neg htruthy]
        simp [htruthy]
  | _ => exact iff_of_false (fun h => nomatch h.choose_spec) fun h => Bool.false_ne_true h.1

/-- The rows that are objects. -/
theorem filter_rowsOf {rows : List Json} (h : rowsOf blob = .ok rows) :
    rows.filter Json.isObject = reportRows blob := by
  cases blob with
  | obj fields =>
    rw [rowsOf_obj] at h
    rw [reportRows]
    cases hget : (Json.obj fields).get "positions" with
    | none =>
      rw [hget] at h
      cases h
      rfl
    | some value =>
      rw [hget] at h
      cases htruthy : value.truthy with
      | true =>
        rw [Option.filter_some_pos htruthy, Option.elim_some] at h
        cases value with
        | arr items => cases h; rfl
        | str s => cases h; exact filter_isObject_map _ _
        | obj fields => cases h; exact filter_isObject_map _ _
        | _ => cases h
      | false =>
        rw [Option.filter_some_neg htruthy] at h
        cases h
        cases value with
        | arr items =>
          cases items with
          | nil => rfl
          | cons item items => cases htruthy
        | _ => rfl
  | _ => cases h

/-- The accounts of a report have read its rows. -/
theorem accountsOf_eq_ok {accounts : List FxPositionAccountResponse} :
    accountsOf u blob = .ok accounts ↔ (∃ rows, rowsOf blob = .ok rows) ∧
      List.Forall₂ (fun row account => accountOf u row = .ok account) (reportRows blob)
        accounts := by
  rw [accountsOf, bind_eq_ok, ← exists_and_right]
  refine exists_congr fun rows => and_congr_right fun hrows => ?_
  rw [← filter_rowsOf hrows, mapM_eq_ok]

/-- **There is an overview** if and only if the report can be read. -/
theorem exists_overviewOf_iff :
    (∃ response, overviewOf u onDate blob exposure = .ok response) ↔
      Readable u exposure blob := by
  constructor
  · rintro ⟨response, h⟩
    obtain ⟨accounts, haccounts, h⟩ := bind_eq_ok.mp h
    obtain ⟨currencies, hcurrencies, -⟩ := bind_eq_ok.mp h
    obtain ⟨hrows, hread⟩ := accountsOf_eq_ok.mp haccounts
    obtain ⟨hobject, hpositions⟩ := exists_rowsOf_iff.mp hrows
    refine ⟨hobject, hpositions, fun row hrow => ?_, fun code => ?_⟩
    · exact exists_accountOf_iff.mp (exists_mapM_iff.mp ⟨accounts, mapM_eq_ok.mpr hread⟩ row hrow)
    · rw [← positionsIn_of_rows hread]
      exact exists_currenciesOf_iff.mp ⟨currencies, hcurrencies⟩ code
  · rintro ⟨hobject, hpositions, hrows, hsums⟩
    obtain ⟨accounts, hread⟩ := exists_mapM_iff.mpr fun row hrow =>
      exists_accountOf_iff.mpr (hrows row hrow)
    rw [mapM_eq_ok] at hread
    have haccounts := accountsOf_eq_ok.mpr ⟨exists_rowsOf_iff.mpr ⟨hobject, hpositions⟩, hread⟩
    obtain ⟨currencies, hcurrencies⟩ := exists_currenciesOf_iff.mpr fun code => by
      rw [positionsIn_of_rows hread]
      exact hsums code
    exact ⟨_, bind_eq_ok.mpr ⟨accounts, haccounts, bind_eq_ok.mpr ⟨currencies, hcurrencies, rfl⟩⟩⟩

end Reports

/-! ## The route -/

section Route

variable {u : Unicode} {user : UserClaims} {env : Env} {onDate : Date}
  {report : Except String Json} {db : Database}

/-- The overview answers, or it is a gateway error. -/
def Guarded (result : Except ServiceError (Except OverviewError FxPositionsResponse)) : Prop :=
  (∃ response, result = .ok (.ok response)) ∨ ∃ detail, result = .error (.http 502 detail)

/-- What the overview comes to once the report is asked for. -/
theorem run_reportedOverview (hrole : user.role ∈ [.positioner, .admin, .auditor])
    (hcall : rejects env 0 = false) :
    ((reportedOverview u user onDate report).run env db).1 =
      match report with
      | .error text => .error (.http 502 s!"POSITIONS-ASUBANK contract unavailable: {text}")
      | .ok blob => .ok (overviewOf u onDate blob (openExposureByCurrency db)) := by
  cases report <;>
    simp [reportedOverview, Program.run, Bind.bind, Program.require, hrole, Program.query,
      Program.call, Session.start, hcall, Progress.start] <;> rfl

/-- **The report is guarded**: the overview answers or is a gateway error, if and only if the report
that was sent, if there is one, can be read. -/
theorem report_guarded_iff (hrole : user.role ∈ [.positioner, .admin, .auditor])
    (hcall : rejects env 0 = false) :
    Guarded ((reportedOverview u user onDate report).run env db).1 ↔
      ∀ blob, report = .ok blob → Readable u (openExposureByCurrency db) blob := by
  rw [run_reportedOverview hrole hcall]
  cases report with
  | error text => exact iff_of_true (.inr ⟨_, rfl⟩) nofun
  | ok blob =>
    have hguarded : Guarded (.ok (overviewOf u onDate blob (openExposureByCurrency db))) ↔
        ∃ response, overviewOf u onDate blob (openExposureByCurrency db) = .ok response := by
      constructor
      · rintro (⟨response, h⟩ | ⟨detail, ⟨⟩⟩)
        exact ⟨response, Except.ok.inj h⟩
      · rintro ⟨response, h⟩
        exact .inl ⟨response, by rw [h]⟩
    rw [hguarded, exists_overviewOf_iff]
    exact ⟨fun h blob' heq => Except.ok.inj heq ▸ h, fun h => h blob rfl⟩

end Route

namespace Desk

/-- ASCII alone. -/
def ascii : Unicode where
  upper s := String.ofList (s.toList.map Char.toUpper)
  decimal _ := none

def today : Date := ⟨739000, by decide⟩

/-- A row of a report. -/
def roubleRow : Json :=
  .obj [("account_number", .str "40702810000000000001"), ("currency_code", .str "RUB"),
    ("current_position", .str "1000000.00")]

/-- A report with one account. -/
def roubles : Json := .obj [("positions", .arr [roubleRow])]

theorem dec_roubleRow : dec ascii (roubleRow.get "current_position") =
    .ok (some (.finite ⟨false, 100000000, -2⟩)) := by
  decide +kernel

theorem readable_roubles :
    Readable ascii (openExposureByCurrency (Database.initial nsi)) roubles where
  object := rfl
  positions value hvalue _ := by
    cases hvalue
    rfl
  rows row hrow := by
    obtain rfl := List.mem_singleton.mp hrow
    refine ⟨rfl, ?_⟩
    simp only [numericFields, List.forall_mem_cons]
    exact ⟨⟨none, rfl, rfl⟩, ⟨none, rfl, rfl⟩, ⟨none, rfl, rfl⟩, ⟨_, dec_roubleRow, rfl⟩, nofun⟩
  sums code := by
    have hcode : codeOf ascii roubleRow = "RUB" := by decide +kernel
    have hrows : reportRows roubles = [roubleRow] := rfl
    by_cases heq : "RUB" = code
    · subst heq
      rw [hrows, List.filter_cons_of_pos (by simp [hcode])]
      exact ⟨⟨false, 100000000, -2⟩, by decide +kernel, fun _ => by decide +kernel⟩
    · rw [hrows, List.filter_cons_of_neg (by simp [hcode, heq])]
      have hzero : (Context.default.add .zero .zero).isSome = true := by decide
      exact ⟨.zero, rfl, fun _ => hzero⟩

end Desk

/-- The report with one account is answered. -/
theorem report_guarded_desk :
    Guarded ((reportedOverview Desk.ascii Desk.positioner Desk.today (.ok Desk.roubles)).run
      (Desk.env 9) (Database.initial Desk.nsi)).1 := by
  refine (report_guarded_iff (by decide) rfl).mpr fun blob hblob => ?_
  cases hblob
  exact Desk.readable_roubles

/-- A report that is a list: the attribute error escapes. -/
theorem list_escapes :
    ¬ ∀ (u : Unicode) (user : UserClaims) (env : Env) (onDate : Date) (db : Database) (blob : Json),
      user.role ∈ [.positioner, .admin, .auditor] → rejects env 0 = false →
        Guarded ((reportedOverview u user onDate (.ok blob)).run env db).1 := by
  intro h
  have hguarded := h Desk.ascii Desk.positioner (Desk.env 9) Desk.today (Database.initial Desk.nsi)
    (.arr []) (by decide) rfl
  rcases hguarded with ⟨response, hanswer⟩ | ⟨detail, herror⟩
  · cases hanswer
  · cases herror

end FxDealManager
