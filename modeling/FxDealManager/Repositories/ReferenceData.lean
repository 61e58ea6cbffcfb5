import FxDealManager.Repositories.Statements

/-!
# Reading the reference data

The queries of the reference data: the active limits, the first active nostro account of each
currency, and the business calendar of a range of dates.

## Main definitions

* `ReferenceData.activeLimits`, `ReferenceData.nostroByCurrency`
* `ReferenceData.nostroByAccountNumber`, `ReferenceData.nostroById`: the accounts by their numbers
  and by their ids
* `Calendar`: a dictionary of business days
* `ReferenceData.loadCalendar`: the calendar of a range, weekdays where the table says nothing
-/

namespace FxDealManager

/-- A dictionary that says of some dates whether they are business days. -/
abbrev Calendar := Date → Option Bool

/-- The date is a business day; a date the dictionary does not know is none. -/
def Calendar.isBusinessDay (cal : Calendar) (d : Date) : Bool := (cal d).getD false

/-- `setdefault`: enter a date that the dictionary does not know. -/
def Calendar.setDefault (cal : Calendar) (d : Date) (b : Bool) : Calendar :=
  fun d' => if d' = d then some ((cal d).getD b) else cal d'

/-- Enter `n` dates from `current` on, Monday to Friday as business days; `none` is the overflow
past the last date, which the step after the last entry may cause, too. -/
def Calendar.fill : (n : ℕ) → (current : Date) → Calendar → Option Calendar
  | 0, _, cal => some cal
  | n + 1, current, cal =>
    (current.addDays 1).bind fun next =>
      Calendar.fill n next (cal.setDefault current (current.weekday < 5))

namespace ReferenceData

/-- `load_calendar`: the rows of a range of dates, and the weekdays for the dates without row. -/
def loadCalendar (nsi : ReferenceData) (first last : Date) : Option Calendar :=
  -- the table has one row a date at most
  let rows := nsi.businessCalendar.filter fun r => first ≤ r.calendarDate ∧ r.calendarDate ≤ last
  let calendar : Calendar := fun d => (rows.find? fun r => r.calendarDate = d).map (·.isBusinessDay)
  Calendar.fill (last.ordinal + 1 - first.ordinal) first calendar

/-- `nostro_by_currency`: the first active account of a currency, in the order of the ids. -/
def nostroByCurrency (nsi : ReferenceData) (code : String) : Option NostroAccount :=
  (nsi.nostroAccounts.filter (·.isActive)).find? fun a => a.currencyCode.val = code

/-- `nostro_by_account_number`: the account of a number, active or not; the last one in the order of
the ids counts. -/
def nostroByAccountNumber (nsi : ReferenceData) (number : String) : Option NostroAccount :=
  nsi.nostroAccounts.reverse.find? fun a => a.accountNumber.val = number

/-- `nostro_by_id`: the account with an id, active or not. -/
def nostroById (nsi : ReferenceData) (id : String) : Option NostroAccount :=
  nsi.nostroAccounts.find? fun a => a.id.val = id

/-- `list_active_limits`: the active limits for all counterparties or for the given one, in the
order of the ids. -/
def activeLimits (nsi : ReferenceData) (counterpartyId : String) : List DealLimit :=
  nsi.dealLimits.filter fun l =>
    l.isActive && (l.counterpartyId.all fun c => c.val = counterpartyId)

/-- `counterparty_exists`: there is an active counterparty with the id. -/
def counterpartyExists (nsi : ReferenceData) (id : String) : Bool :=
  (nsi.counterparty? id).any (·.isActive)

end ReferenceData

end FxDealManager
