import FxDealManager.Api.Notifications
import FxDealManager.Reporting.Listings

/-!
# The number of unread notifications

The number that comes with the notifications counts the unread ones among the rows that were
fetched, at most a hundred, while the total is that of the whole audit log.

## Main definitions

* `IsUnread`: an entry is later than the mark of the user

## Main results

* `unreadCount_eq`: the number is that of the unread entries, or of the rows fetched
* `unreadCount_exact_iff`: when it is that of the unread entries
* `unreadCount_truncated`: a page of one row counts one of two unread entries
-/

namespace FxDealManager

open Paging Transactional

/-- An entry of the given time is later than the mark; without a mark each one is. -/
def IsUnread (lastReadAt : Option Timestamp) (createdAt : Timestamp) : Prop :=
  ∀ mark ∈ lastReadAt, mark < createdAt

instance (lastReadAt : Option Timestamp) (createdAt : Timestamp) :
    Decidable (IsUnread lastReadAt createdAt) :=
  decidable_of_iff (lastReadAt.all fun mark => mark < createdAt) (by
    cases lastReadAt <;> simp [IsUnread])

/-- The number of unread entries. -/
def unreadEntries (lastReadAt : Option Timestamp) (audit : List AuditLogEntry) : ℕ :=
  audit.countP fun entry => IsUnread lastReadAt entry.createdAt

section Count

variable (order : List AuditLogEntry → List AuditLogEntry) {audit : List AuditLogEntry}
  {lastReadAt : Option Timestamp} {pageSize : ℤ}

theorem toNotification_read {entry : AuditLogEntry} :
    (toNotification lastReadAt entry).read = false ↔ IsUnread lastReadAt entry.createdAt := by
  cases lastReadAt <;> simp [toNotification, IsUnread]

/-- **The number of unread notifications** is that of the unread entries, but at most that of the
rows fetched. -/
theorem unreadCount_eq (horder : Arranged AuditLogEntry.createdAt audit (order audit)) :
    (notificationList order lastReadAt pageSize audit).unreadCount =
      min (unreadEntries lastReadAt audit) (clampPageSize pageSize) := by
  have hup : ∀ x y, x ≤ y → IsUnread lastReadAt x → IsUnread lastReadAt y :=
    fun x y hxy hx mark hmark => (hx mark hmark).trans_le hxy
  calc (notificationList order lastReadAt pageSize audit).unreadCount
      = ((order audit).take (clampPageSize pageSize)).countP
          (fun entry => IsUnread lastReadAt entry.createdAt) := by
        rw [notificationList, List.countP_map]
        refine List.countP_congr fun entry _ => ?_
        rw [Function.comp_apply, Bool.not_eq_true', toNotification_read, decide_eq_true_iff]
    _ = min (unreadEntries lastReadAt audit) (clampPageSize pageSize) := by
        rw [countP_take hup horder.sorted, horder.perm.countP_eq, unreadEntries]

end Count

/-- **The number is that of the unread entries**, if and only if these are not more than the rows
fetched. -/
theorem unreadCount_exact_iff (order : List AuditLogEntry → List AuditLogEntry)
    {user : UserClaims} {pageSize : ℤ} {db : NotificationTables}
    {response : NotificationListResponse}
    (horder : Arranged AuditLogEntry.createdAt db.audit (order db.audit))
    (h : listNotifications order user pageSize db = .ok response) :
    (response.unreadCount = unreadEntries (db.lastReadAt user.userId) db.audit ∧
        response.total = db.audit.length) ↔
      unreadEntries (db.lastReadAt user.userId) db.audit ≤ clampPageSize pageSize := by
  obtain ⟨-, -, hlist⟩ := bind_eq_ok.mp h
  cases hlist
  rw [unreadCount_eq order horder]
  exact (and_iff_left rfl).trans ⟨fun hmin => hmin ▸ Nat.min_le_right _ _, Nat.min_eq_left⟩

namespace Desk

/-- The tables after given inputs of the service, without a mark. -/
def notices (inputs : List Input) : NotificationTables := ⟨(tables inputs).audit, ∅⟩

end Desk

/-- The two entries after the validation are counted on a page of two. -/
theorem unreadCount_desk : ∃ order response,
    listNotifications order Desk.trader 2 (Desk.notices Desk.validation) = .ok response ∧
      response.unreadCount = 2 := by
  obtain ⟨out, hout⟩ := exists_arranged AuditLogEntry.createdAt
    (Desk.notices Desk.validation).audit
  have hlist : listNotifications (fun _ => out) Desk.trader 2 (Desk.notices Desk.validation) =
    .ok (notificationList (fun _ => out) none 2 (Desk.notices Desk.validation).audit) := rfl
  refine ⟨fun _ => out, _, hlist, ?_⟩
  have htwo : unreadEntries none (Desk.notices Desk.validation).audit = 2 := by decide +kernel
  exact ((unreadCount_exact_iff (fun _ => out) hout hlist).mpr (by decide +kernel)).1.trans htwo

/-- A page of one row counts one of the two entries after the validation. -/
theorem unreadCount_truncated :
    ¬ ∀ (nsi : ReferenceData) (history : List (Turn TableInput Unit Database)) (db : Database),
      Run tableStep (Database.initial nsi) history db →
        ∀ (order : List AuditLogEntry → List AuditLogEntry) (user : UserClaims) (pageSize : ℤ)
          (marks : NotificationMarks) (response : NotificationListResponse),
          Arranged AuditLogEntry.createdAt db.audit (order db.audit) →
            listNotifications order user pageSize ⟨db.audit, marks⟩ = .ok response →
              response.unreadCount = unreadEntries
                (NotificationTables.lastReadAt ⟨db.audit, marks⟩ user.userId) db.audit := by
  intro h
  have hrun := run_serveAll tableStep (Database.initial Desk.nsi) (Desk.validation.map .service)
  change Run _ _ _ (Desk.tables Desk.validation) at hrun
  have htwo : unreadEntries none (Desk.tables Desk.validation).audit = 2 := by decide +kernel
  generalize Desk.tables Desk.validation = db at hrun htwo
  obtain ⟨out, hout⟩ := exists_arranged AuditLogEntry.createdAt db.audit
  have hcount : (notificationList (fun _ => out) none 1 db.audit).unreadCount =
      unreadEntries none db.audit :=
    h Desk.nsi _ _ hrun (fun _ => out) Desk.trader 1 ∅ _ hout rfl
  rw [unreadCount_eq (fun _ => out) hout, htwo] at hcount
  exact absurd hcount (by decide)

end FxDealManager
