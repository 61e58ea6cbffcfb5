import FxDealManager.Arithmetic.Decimal

/-!
# Values

The values that rows and requests are made of: identifiers, bounded strings, dates, and JSON.

## Main definitions

* `Varchar n`: a string column of at most `n` characters
* `Date`: a calendar date from `0001-01-01` to `9999-12-31`, by its proleptic ordinal
* `Date.weekday`, `Date.addDays`, `Date.isoformat`: the operations of dates
* `Json`: a JSON value
-/

namespace FxDealManager

open DecimalArithmetic

/-- A UUID, as its number. -/
abbrev UUID := ℕ

/-- A moment, in microseconds. -/
abbrev Timestamp := ℕ

/-- The digits of a number in a base, padded with zeros to a width. -/
def padded (base width n : ℕ) : String :=
  let digs := Nat.toDigits base n
  String.ofList (List.replicate (width - digs.length) '0' ++ digs)

/-- The text of a UUID: 32 hexadecimal digits in five groups. -/
def UUID.text (u : UUID) : String :=
  let digs := (padded 16 32 u).toList
  let group := fun (start len : ℕ) => String.ofList ((digs.drop start).take len)
  "-".intercalate [group 0 8, group 8 4, group 12 4, group 16 4, group 20 12]

/-- A string column of at most `n` characters. -/
structure Varchar (n : ℕ) where
  val : String
  fits : val.length ≤ n
deriving DecidableEq, Repr

theorem Varchar.eq_of_val {n : ℕ} {v w : Varchar n} (h : v.val = w.val) : v = w := by
  cases v
  cases w
  cases h
  rfl

/-- Store a string; `none` is a string too long for the column. -/
def Varchar.ofString {n : ℕ} (s : String) : Option (Varchar n) :=
  if h : s.length ≤ n then some ⟨s, h⟩ else none

@[simp] theorem Varchar.ofString_val {n : ℕ} (v : Varchar n) : Varchar.ofString v.val = some v := by
  simp [Varchar.ofString, v.fits]

theorem Varchar.val_of_ofString {n : ℕ} {s : String} {v : Varchar n}
    (h : Varchar.ofString s = some v) : v.val = s := by
  simp only [Varchar.ofString] at h
  split at h
  · cases h; rfl
  · cases h

theorem Varchar.ofString_isSome {n : ℕ} {s : String} :
    (Varchar.ofString s : Option (Varchar n)).isSome ↔ s.length ≤ n := by
  by_cases h : s.length ≤ n <;> simp [Varchar.ofString, h]

/-! ## Dates -/

/-- The ordinal of `9999-12-31`, `date.max`. -/
def maxOrdinal : ℕ := 3652059

/-- A date, by its proleptic Gregorian ordinal; `0001-01-01` has the ordinal `1`. -/
structure Date where
  ordinal : ℕ
  inRange : 1 ≤ ordinal ∧ ordinal ≤ maxOrdinal
deriving DecidableEq, Repr

namespace Date

instance : LE Date := ⟨fun a b => a.ordinal ≤ b.ordinal⟩

instance (a b : Date) : Decidable (a ≤ b) := inferInstanceAs (Decidable (a.ordinal ≤ b.ordinal))

/-- The day of the week, Monday being `0`. -/
def weekday (d : Date) : ℕ := (d.ordinal + 6) % 7

/-- The date `n` days later; `none` is the overflow past the last date. -/
def addDays (d : Date) (n : ℕ) : Option Date :=
  if h : d.ordinal + n ≤ maxOrdinal then some ⟨d.ordinal + n, by have := d.inRange; omega, h⟩
  else none

/-- The year is a leap year. -/
def isLeap (year : ℕ) : Bool := year % 4 = 0 && (year % 100 ≠ 0 || year % 400 = 0)

/-- The lengths of the months of a year. -/
def monthLengths (year : ℕ) : List ℕ :=
  [31, if isLeap year then 29 else 28, 31, 30, 31, 30, 31, 31, 30, 31, 30, 31]

/-- Month and day of the day of a year with the given number, counted from `0`. -/
def monthAndDay : (month dayOfYear : ℕ) → List ℕ → ℕ × ℕ
  | month, day, [] => (month, day + 1)
  | month, day, len :: lens =>
    if day < len then (month, day + 1) else monthAndDay (month + 1) (day - len) lens

/-- Year, month and day of a date, by cycles of 400, 100, 4 and 1 years. -/
def yearMonthDay (d : Date) : ℕ × ℕ × ℕ :=
  let n := d.ordinal - 1
  let n400 := n / 146097
  let n100 := n % 146097 / 36524
  let n4 := n % 146097 % 36524 / 1461
  let n1 := n % 146097 % 36524 % 1461 / 365
  let year := n400 * 400 + n100 * 100 + n4 * 4 + n1 + 1
  if n1 = 4 ∨ n100 = 4 then (year - 1, 12, 31)
  else
    let (month, day) := monthAndDay 1 (n % 146097 % 36524 % 1461 % 365) (monthLengths year)
    (year, month, day)

/-- The text `YYYY-MM-DD`. -/
def isoformat (d : Date) : String :=
  let (year, month, day) := d.yearMonthDay
  "-".intercalate [padded 10 4 year, padded 10 2 month, padded 10 2 day]

end Date

/-! ## JSON -/

/-- A JSON value as Python holds it after parsing. A float carries whether it is zero, and its
text. -/
inductive Json where
  | null
  | bool (b : Bool)
  | int (n : ℤ)
  | float (zero : Bool) (text : String)
  | str (s : String)
  | arr (items : List Json)
  | obj (fields : List (String × Json))
deriving Repr

namespace Json

/-- The value of a key of an object; the last entry of a key counts. -/
def get (key : String) : Json → Option Json
  | .obj fields => (fields.reverse.find? fun f => f.1 = key).map Prod.snd
  | _ => none

/-- A string, or `null` for none. -/
def ofString? : Option String → Json
  | some s => .str s
  | none => .null

/-- The value counts as true in a condition. -/
def truthy : Json → Bool
  | .null => false
  | .bool b => b
  | .int n => n ≠ 0
  | .float zero _ => !zero
  | .str s => s ≠ ""
  | .arr items => !items.isEmpty
  | .obj fields => !fields.isEmpty

/-! ### Text -/

/-- The text of a character inside a quoted string. -/
def escape (quote c : Char) : String :=
  if c = quote ∨ c = '\\' then String.ofList ['\\', c]
  else if c = '\n' then "\\n"
  else if c = '\r' then "\\r"
  else if c = '\t' then "\\t"
  else if c.toNat < 32 ∨ c.toNat = 127 then "\\x" ++ padded 16 2 c.toNat
  else c.toString

/-- A quoted string: in single quotes, unless it holds these and no double ones. -/
def quoted (s : String) : String :=
  let single := Char.ofNat 39
  let double := Char.ofNat 34
  let quote := if s.toList.contains single && !s.toList.contains double then double else single
  quote.toString ++ String.join (s.toList.map (escape quote)) ++ quote.toString

mutual

/-- The text of a value inside another one. -/
def repr : Json → String
  | .null => "None"
  | .bool b => if b then "True" else "False"
  | .int n => toString n
  | .float _ text => text
  | .str s => quoted s
  | .arr items => "[" ++ ", ".intercalate (reprItems items) ++ "]"
  | .obj fields => "\x7b" ++ ", ".intercalate (reprFields fields) ++ "\x7d"

/-- The texts of the items of an array. -/
def reprItems : List Json → List String
  | [] => []
  | item :: items => repr item :: reprItems items

/-- The texts of the fields of an object. -/
def reprFields : List (String × Json) → List String
  | [] => []
  | (key, value) :: fields => (quoted key ++ ": " ++ repr value) :: reprFields fields

end

/-- The text of a value, `str`. -/
def text : Json → String
  | .str s => s
  | value => repr value

/-- The name of the value's type. -/
def typeName : Json → String
  | .null => "NoneType"
  | .bool _ => "bool"
  | .int _ => "int"
  | .float _ _ => "float"
  | .str _ => "str"
  | .arr _ => "list"
  | .obj _ => "dict"

end Json

end FxDealManager
