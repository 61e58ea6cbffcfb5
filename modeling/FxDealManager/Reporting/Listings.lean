import FxDealManager.Api.Reports
import FxDealManager.Paging.Pages
import FxDealManager.Reporting.Completeness
import Mathlib.Data.List.DropRight

/-!
# Listings

The audit log and the deals, filtered and read page by page. Each page is a query of its own, sorted
by the time of creation alone, and the number of all rows is a query with the same conditions.

## Main definitions

* `like`, `ilike`, `strip`: patterns, and the text of a search without its spaces
* `Selection`: the conditions of the query for the rows and of the one for their number
* `AuditFilter`, `listEvents`: the audit log
* `DealFilter`, `listDeals`: the deals
* `PagedExactly`: the pages have every row once

## Main results

* `auditKeys_run`: the entries of the audit log have ids of their own
* `paging_exact_iff`: when the pages of a listing have every row once
* `page_repeats`: an approval leaves two entries that may change places between two pages
-/

namespace FxDealManager

open Transactional Paging

/-! ## Patterns -/

/-- `LIKE`: `%` stands for any text, `_` for any character, and a backslash for what follows it. -/
def like : (pattern : List Char) → (text : List Char) → Bool
  | [], text => text.isEmpty
  | '%' :: pattern, text => text.tails.any (like pattern)
  | '_' :: pattern, text =>
    match text with
    | [] => false
    | _ :: text => like pattern text
  | '\\' :: c :: pattern, text =>
    match text with
    | [] => false
    | d :: text => c = d && like pattern text
  | c :: pattern, text =>
    match text with
    | [] => false
    | d :: text => c = d && like pattern text

/-- `ILIKE`: both texts are compared in lower case. -/
def ilike (lower : String → String) (text pattern : String) : Bool :=
  like (lower pattern).toList (lower text).toList

/-- `str.isspace`, for a character. -/
def isSpace (c : Char) : Bool :=
  let n := c.toNat
  9 ≤ n ∧ n ≤ 13 ∨ 28 ≤ n ∧ n ≤ 32 ∨ 8192 ≤ n ∧ n ≤ 8202 ∨
    n ∈ [133, 160, 5760, 8232, 8233, 8239, 8287, 12288]

/-- `str.strip`. -/
def strip (s : String) : String := String.ofList ((s.toList.dropWhile isSpace).rdropWhile isSpace)

/-- The pattern of the texts that contain the given one. -/
def containing (s : String) : String := "%" ++ s ++ "%"

/-! ## Selections -/

/-- The conditions of the query for the rows, and of the query for their number. -/
structure Selection (α : Type) where
  stmt : α → Bool
  countStmt : α → Bool

namespace Selection

variable {α β : Type}

/-- All rows. -/
def all : Selection α := ⟨fun _ => true, fun _ => true⟩

/-- Both queries get a condition, if the filter has a value for it. -/
def where? (value : Option β) (condition : β → α → Bool) (s : Selection α) : Selection α :=
  match value with
  | none => s
  | some b => ⟨fun a => s.stmt a && condition b a, fun a => s.countStmt a && condition b a⟩

end Selection

/-! ## The audit log -/

structure AuditFilter where
  entityId : Option UUID
  userId : Option String
  dateFrom : Option Timestamp
  dateTo : Option Timestamp
deriving DecidableEq, Repr

/-- The conditions of `list_events`. -/
def AuditFilter.selection (lower : String → String) (filter : AuditFilter) :
    Selection AuditLogEntry :=
  Selection.all
    |>.where? filter.entityId (fun id entry => entry.entityId = id)
    |>.where? filter.userId (fun user entry => ilike lower entry.createdBy.val (containing user))
    |>.where? filter.dateFrom (fun date entry => date ≤ entry.createdAt)
    |>.where? filter.dateTo (fun date entry => entry.createdAt ≤ date)

/-- `AuditRepository.list_events`: a page, and the number of all rows. The database sorts the rows
of this query by `order`. -/
def listEvents (lower : String → String) (order : List AuditLogEntry → List AuditLogEntry)
    (filter : AuditFilter) (number pageSize : ℕ) (db : Database) : List AuditLogEntry × ℕ :=
  let selection := filter.selection lower
  let total := db.audit.countP selection.countStmt
  (page pageSize number (order (db.audit.filter selection.stmt)), total)

/-- The entries that a filter admits. -/
def matchingEvents (lower : String → String) (filter : AuditFilter) (db : Database) :
    List AuditLogEntry :=
  db.audit.filter (filter.selection lower).stmt

/-! ## The deals -/

structure DealFilter where
  status : Option DealState
  dealType : Option DealType
  counterpartyId : Option String
  tradeDateFrom : Option Date
  tradeDateTo : Option Date
  search : Option String
deriving DecidableEq, Repr

/-- The conditions of `list_deals`. An empty search is none, one of spaces alone finds all. -/
def DealFilter.selection (lower : String → String) (filter : DealFilter) :
    Selection (Σ _ : UUID, DealRecord) :=
  Selection.all
    |>.where? filter.status (fun status e => e.2.row.dealState = status)
    |>.where? filter.dealType (fun dealType e => e.2.row.dealType = dealType)
    |>.where? filter.counterpartyId (fun id e => e.2.row.counterpartyId.val = id)
    |>.where? filter.tradeDateFrom (fun date e => date ≤ e.2.row.tradeDate)
    |>.where? filter.tradeDateTo (fun date e => e.2.row.tradeDate ≤ date)
    |>.where? (filter.search.filter (· ≠ "")) (fun search e =>
      ilike lower e.2.row.counterpartyId.val (containing (strip search)) ||
        ilike lower (UUID.text e.1) (containing (strip search)))

/-- The deals that a filter admits, as they are loaded. -/
def matchingDeals (lower : String → String) (filter : DealFilter) (db : Database) : List FXDeal :=
  (db.deals.entries.filter (filter.selection lower).stmt).map fun e =>
    FXDeal.ofRecord db.nsi e.1 e.2

/-- `DealRepository.list_deals`: a page, and the number of all rows. The database sorts the rows of
this query by `order`. -/
def listDeals (lower : String → String) (order : List FXDeal → List FXDeal) (filter : DealFilter)
    (number pageSize : ℕ) (db : Database) : List FXDeal × ℕ :=
  let selection := filter.selection lower
  let total := db.deals.entries.countP selection.countStmt
  (page pageSize number (order ((db.deals.entries.filter selection.stmt).map fun e =>
    FXDeal.ofRecord db.nsi e.1 e.2)), total)

/-! ## Both queries select the same rows -/

namespace Selection

variable {α β : Type}

/-- The number is that of the rows. -/
def Agrees (s : Selection α) : Prop := s.countStmt = s.stmt

theorem agrees_all : (all : Selection α).Agrees := rfl

theorem Agrees.where? {s : Selection α} (h : s.Agrees) (value : Option β)
    (condition : β → α → Bool) : (s.where? value condition).Agrees := by
  cases value with
  | none => exact h
  | some b =>
    simp only [Agrees, Selection.where?] at h ⊢
    rw [h]

end Selection

section Queries

variable (lower : String → String)

theorem AuditFilter.selection_agrees (filter : AuditFilter) : (filter.selection lower).Agrees :=
  (((Selection.agrees_all.where? _ _).where? _ _).where? _ _).where? _ _

theorem DealFilter.selection_agrees (filter : DealFilter) : (filter.selection lower).Agrees :=
  (((((Selection.agrees_all.where? _ _).where? _ _).where? _ _).where? _ _).where? _ _).where? _ _

theorem listEvents_eq (order : List AuditLogEntry → List AuditLogEntry) (filter : AuditFilter)
    (number pageSize : ℕ) (db : Database) :
    listEvents lower order filter number pageSize db =
      (page pageSize number (order (matchingEvents lower filter db)),
        (matchingEvents lower filter db).length) := by
  rw [listEvents, matchingEvents, filter.selection_agrees lower, List.countP_eq_length_filter]

theorem listDeals_eq (order : List FXDeal → List FXDeal) (filter : DealFilter)
    (number pageSize : ℕ) (db : Database) :
    listDeals lower order filter number pageSize db =
      (page pageSize number (order (matchingDeals lower filter db)),
        (matchingDeals lower filter db).length) := by
  rw [listDeals, matchingDeals, filter.selection_agrees lower, List.countP_eq_length_filter,
    List.length_map]

end Queries

/-! ## The tables in a run -/

/-- What may change the tables: an input of the service, or a report, whose complaints are
recorded. -/
inductive TableInput where
  | service (input : Input)
  | report (env : Env) (user : UserClaims) (filter : ReportFilter) (fmt : ReportFormat)

/-- The tables after an input. -/
def tableStep (db : Database) : TableInput → Unit × Database
  | .service input => ((), (step db input).2)
  | .report env user filter fmt =>
    ((), ((regulatoryDealsReport user filter fmt).run env db).2.committed)

/-- The primary key of the audit log. -/
def AuditKeys (db : Database) : Prop := (db.audit.map AuditLogEntry.id).Nodup

section Keys

variable {db db' : Database}

/-- The primary key is checked whenever an entry is inserted. -/
theorem exec_auditKeys {st : Statement} (h : st.exec db = .ok db') (hdb : AuditKeys db) :
    AuditKeys db' := by
  have haudit := (Statement.exec_frame h).2.1
  cases st with
  | insertAudit entry =>
    simp only [Statement.exec] at h
    split at h
    · cases h
    next hfresh =>
      rw [List.any_eq_true] at hfresh
      simp only [AuditKeys, haudit, Statement.entry?, Option.toList_some, List.map_append,
        List.map_singleton]
      refine List.nodup_append.mpr ⟨hdb, List.nodup_singleton _, ?_⟩
      rintro id hid _ hentry rfl
      obtain ⟨entry', hmem, rfl⟩ := List.mem_map.mp hid
      exact hfresh ⟨entry', hmem, by simpa using hentry⟩
  | _ => simpa [AuditKeys, haudit, Statement.entry?] using hdb

theorem replay_auditKeys {log : List Statement} (h : replay log db = .ok db')
    (hdb : AuditKeys db) : AuditKeys db' :=
  replay_preserves (fun _ _ _ _ hexec => exec_auditKeys (exec_eq_ok.mp hexec)) h hdb

/-- A report commits nothing, or the statements of one transaction. -/
theorem regulatoryDealsReport_replays (env : Env) (user : UserClaims) (filter : ReportFilter)
    (fmt : ReportFormat) (db : Database) : ∃ log : List Statement,
      replay log db = .ok ((regulatoryDealsReport user filter fmt).run env db).2.committed := by
  let replays : ServiceProgress → Prop := fun c =>
    ∃ log : List Statement, replay log db = .ok c.committed
  have hstart : ∀ c : ServiceProgress, c.committed = db → replays c :=
    fun _ hc => ⟨[], by rw [hc, replay_nil]⟩
  have hgenerate : (generate filter user.email).EnsuresFrom env (Progress.start db) 0
      fun _ => replays := by
    refine generate_from (fun c hc _ => hstart _ hc) (fun _ => hstart _ rfl)
      (fun _ _ => hstart _ rfl) (fun _ _ _ _ _ => hstart _ rfl) fun _ _ entry d hd => ?_
    exact ⟨[.insertAudit entry], hd⟩
  have hreport : (regulatoryDealsReport user filter fmt).EnsuresFrom env (Progress.start db) 0
      fun _ => replays :=
    .require_bind (fun _ => hstart _ rfl) fun _ =>
      hgenerate.bind (fun _ _ hc => .pure hc) fun _ _ hc => hc
  exact hreport.run

theorem tableStep_auditKeys (input : TableInput) (hdb : AuditKeys db) :
    AuditKeys (tableStep db input).2 := by
  cases input with
  | service input =>
    cases input with
    | referenceData nsi => exact hdb
    | request env user op =>
      simp only [tableStep, step]
      rcases execute_cases env user op db with ⟨-, hsame⟩ |
        ⟨id, result, log, sends, after, -, -, hreplay, houtcome⟩
      · rwa [hsame]
      · rw [houtcome]
        exact replay_auditKeys hreplay hdb
  | report env user filter fmt =>
    obtain ⟨log, hreplay⟩ := regulatoryDealsReport_replays env user filter fmt db
    exact replay_auditKeys hreplay hdb

/-- **In every run** the entries of the audit log have ids of their own. -/
theorem auditKeys_run {nsi : ReferenceData} {history : List (Turn TableInput Unit Database)}
    (h : Run tableStep (Database.initial nsi) history db) : AuditKeys db := by
  refine Run.state_invariant (P := AuditKeys) ?_ (fun _ => tableStep_auditKeys) h
  exact List.nodup_nil

/-- The entries that a filter admits are different. -/
theorem matchingEvents_nodup (lower : String → String) (filter : AuditFilter)
    (hdb : AuditKeys db) : (matchingEvents lower filter db).Nodup :=
  hdb.of_map.filter _

/-- The deals that a filter admits are different. -/
theorem matchingDeals_nodup (lower : String → String) (filter : DealFilter) (db : Database) :
    (matchingDeals lower filter db).Nodup := by
  refine List.Nodup.of_map FXDeal.id ?_
  rw [matchingDeals, List.map_map]
  exact (db.deals.nodupKeys.sublist List.filter_sublist)

end Keys

/-! ## Pages -/

/-- The pages of a listing, put end to end, have every row once, and the number that comes with
each page is that of all rows. The query for each page has an order of its own. -/
def PagedExactly {α : Type} (key : α → Timestamp) (matching : List α) (pageSize : ℕ)
    (list : (order : List α → List α) → (number : ℕ) → List α × ℕ) : Prop :=
  (∀ order number, (list order number).2 = matching.length) ∧
    ∀ order : ℕ → List α → List α, (∀ number, Arranged key matching (order number matching)) →
      ((pageNumbers pageSize matching.length).flatMap fun number =>
        (list (order number) number).1).Perm matching

/-- The pages of a listing that takes them from the sorted rows. -/
theorem pagedExactly_iff {α : Type} {key : α → Timestamp} {matching : List α} {pageSize : ℕ}
    {list : (List α → List α) → ℕ → List α × ℕ} (hmatching : matching.Nodup)
    (hsize : 1 ≤ pageSize)
    (hlist : ∀ order number,
      list order number = (page pageSize number (order matching), matching.length)) :
    PagedExactly key matching pageSize list ↔
      ∀ number t, ¬ Straddles key matching (number * pageSize) t := by
  rw [← pages_perm_iff hmatching hsize]
  simp only [PagedExactly, hlist, implies_true, true_and]
  constructor
  · intro h out hout
    exact h (fun number _ => out number) hout
  · intro h order horder
    exact h (fun number => order number matching) horder

section Listings

variable (lower : String → String) {db : Database} {pageSize : ℕ}

theorem listEvents_pagedExactly_iff (filter : AuditFilter) (hdb : AuditKeys db)
    (hsize : 1 ≤ pageSize) :
    PagedExactly AuditLogEntry.createdAt (matchingEvents lower filter db) pageSize
        (fun order number => listEvents lower order filter number pageSize db) ↔
      ∀ number t, ¬ Straddles AuditLogEntry.createdAt (matchingEvents lower filter db)
        (number * pageSize) t :=
  pagedExactly_iff (matchingEvents_nodup lower filter hdb) hsize fun order number =>
    listEvents_eq lower order filter number pageSize db

theorem listDeals_pagedExactly_iff (filter : DealFilter) (hsize : 1 ≤ pageSize) :
    PagedExactly FXDeal.createdAt (matchingDeals lower filter db) pageSize
        (fun order number => listDeals lower order filter number pageSize db) ↔
      ∀ number t, ¬ Straddles FXDeal.createdAt (matchingDeals lower filter db)
        (number * pageSize) t :=
  pagedExactly_iff (matchingDeals_nodup lower filter db) hsize fun order number =>
    listDeals_eq lower order filter number pageSize db

/-- **The pages of both listings have every row once** if and only if no group of rows with one time
of creation extends over the end of a page. -/
theorem paging_exact_iff {nsi : ReferenceData} {history : List (Turn TableInput Unit Database)}
    (h : Run tableStep (Database.initial nsi) history db) (hsize : 1 ≤ pageSize) :
    (∀ filter, PagedExactly AuditLogEntry.createdAt (matchingEvents lower filter db) pageSize
        (fun order number => listEvents lower order filter number pageSize db) ↔
      ∀ number t, ¬ Straddles AuditLogEntry.createdAt (matchingEvents lower filter db)
        (number * pageSize) t) ∧
    ∀ filter, PagedExactly FXDeal.createdAt (matchingDeals lower filter db) pageSize
        (fun order number => listDeals lower order filter number pageSize db) ↔
      ∀ number t, ¬ Straddles FXDeal.createdAt (matchingDeals lower filter db)
        (number * pageSize) t :=
  ⟨fun filter => listEvents_pagedExactly_iff lower filter (auditKeys_run h) hsize,
    fun filter => listDeals_pagedExactly_iff lower filter hsize⟩

end Listings

namespace Desk

/-- The tables after given inputs of the service. -/
def tables (inputs : List Input) : Database :=
  serveAll tableStep (Database.initial nsi) (inputs.map .service)

/-- The entries since the validation of the deal. -/
def sinceValidation : AuditFilter := ⟨none, none, some (env 2).now, none⟩

/-- The deals that are not submitted yet. -/
def drafts : DealFilter := ⟨some .draft, none, none, none, none, none⟩

end Desk

/-- The entries of the desk have times of their own before the approval. -/
theorem paging_exact_desk :
    PagedExactly AuditLogEntry.createdAt
        (matchingEvents String.toLower Desk.sinceValidation (Desk.tables Desk.submission)) 1
        (fun order number => listEvents String.toLower order Desk.sinceValidation number 1
          (Desk.tables Desk.submission)) ∧
      PagedExactly FXDeal.createdAt
        (matchingDeals String.toLower Desk.drafts (Desk.tables Desk.creation)) 1
        (fun order number => listDeals String.toLower order Desk.drafts number 1
          (Desk.tables Desk.creation)) := by
  obtain ⟨events, hevents⟩ := exists_arranged AuditLogEntry.createdAt
    (matchingEvents String.toLower Desk.sinceValidation (Desk.tables Desk.submission))
  obtain ⟨deals, hdeals⟩ := exists_arranged FXDeal.createdAt
    (matchingDeals String.toLower Desk.drafts (Desk.tables Desk.creation))
  constructor
  · refine ((paging_exact_iff String.toLower (run_serveAll tableStep (Database.initial Desk.nsi)
      (Desk.submission.map .service)) le_rfl).1 Desk.sinceValidation).mpr fun number t => ?_
    exact hevents.not_straddles_of_nodup (by decide +kernel)
  · refine ((paging_exact_iff String.toLower (run_serveAll tableStep (Database.initial Desk.nsi)
      (Desk.creation.map .service)) le_rfl).2 Desk.drafts).mpr fun number t => ?_
    exact hdeals.not_straddles_of_nodup (by decide +kernel)

/-- The transfer of an approved deal and its new status have entries with one time. If each entry
has a page of its own, either may be read twice and the other one not at all. -/
theorem page_repeats :
    ¬ ∀ (lower : String → String) (nsi : ReferenceData)
      (history : List (Turn TableInput Unit Database)) (db : Database),
      Run tableStep (Database.initial nsi) history db → ∀ filter pageSize, 1 ≤ pageSize →
        PagedExactly AuditLogEntry.createdAt (matchingEvents lower filter db) pageSize
          (fun order number => listEvents lower order filter number pageSize db) := by
  intro h
  have hrun := run_serveAll tableStep (Database.initial Desk.nsi) (Desk.execution.map .service)
  have hexact := h String.toLower Desk.nsi _ _ hrun Desk.sinceValidation 1 le_rfl
  refine (listEvents_pagedExactly_iff _ _ (auditKeys_run hrun) le_rfl).mp hexact 1
    (Desk.env 4).now ?_
  decide +kernel

end FxDealManager
