import FxDealManager.Api.Requests

/-!
# Notifications

The audit log as notifications of a user: the last entries, each of them read if it is not later
than the mark of the user, and the request that moves the mark.

## Main definitions

* `NotificationTables`: the audit log and the marks of the users
* `toNotification`: an audit entry as a notification
* `listNotifications`, `readAllNotifications`: the routes
-/

namespace FxDealManager

def AuditAction.value : AuditAction → String
  | .create => "CREATE"
  | .update => "UPDATE"
  | .validate => "VALIDATE"
  | .validateFailed => "VALIDATE_FAILED"
  | .statusChange => "STATUS_CHANGE"
  | .positionSend => "POSITION_SEND"
  | .regulatoryReportFailed => "REGULATORY_REPORT_FAILED"

def EntityType.value : EntityType → String
  | .fxDeal => "FXDeal"
  | .regulatoryReport => "RegulatoryReport"

structure NotificationResponse where
  id : UUID
  title : String
  description : String
  kind : String
  createdAt : Timestamp
  read : Bool
  entityId : UUID
  entityType : String
  action : String
  relatedUrl : Option String
deriving DecidableEq, Repr

structure NotificationListResponse where
  items : List NotificationResponse
  unreadCount : ℕ
  total : ℕ
deriving DecidableEq, Repr

/-- `last_read_at` of the users, by their ids. -/
abbrev NotificationMarks := AList fun _ : String => Option Timestamp

/-- The tables of the notifications. -/
structure NotificationTables where
  audit : List AuditLogEntry
  marks : NotificationMarks

/-- The mark of a user, if there is one. -/
def NotificationTables.lastReadAt (db : NotificationTables) (userId : String) : Option Timestamp :=
  (db.marks.lookup userId).join

/-! ## An entry as a notification -/

/-- `_json`: what is no object counts as an empty one. -/
def payloadOf : Option Json → Json
  | some (.obj fields) => .obj fields
  | _ => .obj []

/-- `str.title` after `replace("_", " ")`, on the letters from `A` to `Z`. -/
def titleCase (s : String) : String :=
  let words := (s.splitOn "_").map fun word =>
    String.ofList <| match word.toList with
      | [] => []
      | c :: cs => c.toUpper :: cs.map Char.toLower
  " ".intercalate words

/-- A value of the payload that counts as true. -/
def givenValue (key : String) (payload : Json) : Option Json := (payload.get key).filter Json.truthy

/-- `_title`. -/
def notificationTitle (action : AuditAction) (payload : Json) : String :=
  match action, givenValue "status" payload with
  | .create, _ => "Создана FX-сделка"
  | .validate, _ => "Сделка прошла контроль"
  | .validateFailed, _ => "Контроль сделки не пройден"
  | .positionSend, _ => "Платежи отправлены в ПОЗИЦИИ"
  | .statusChange, some status => s!"Статус сделки изменён: {status.text}"
  | action, _ => titleCase action.value

/-- `_description`. -/
def notificationDescription (row : AuditLogEntry) (payload : Json) : String :=
  match givenValue "error" payload, givenValue "correlation_id" payload with
  | some error, _ => error.text
  | none, some correlationId => s!"correlation_id={correlationId.text}"
  | none, none =>
    let id := String.ofList ((UUID.text row.entityId).toList.take 8)
    s!"{row.entityType.value} {id} · {row.createdBy.val}"

/-- `_kind`. -/
def notificationKind (action : AuditAction) (payload : Json) : String :=
  if (givenValue "error" payload).isSome ∨ action = .validateFailed then "danger"
  else
    match action with
    | .create | .validate | .statusChange => "success"
    | _ => "info"

/-- `_to_notification`. -/
def toNotification (lastReadAt : Option Timestamp) (row : AuditLogEntry) : NotificationResponse :=
  let payload := payloadOf row.newValue
  { id := row.id
    title := notificationTitle row.action payload
    description := notificationDescription row payload
    kind := notificationKind row.action payload
    createdAt := row.createdAt
    read := lastReadAt.any fun mark => row.createdAt ≤ mark
    entityId := row.entityId
    entityType := row.entityType.value
    action := row.action.value
    relatedUrl :=
      if row.entityType = .fxDeal then some s!"deal-detail.html?id={UUID.text row.entityId}"
      else none }

/-! ## Routes -/

/-- The roles that the routes admit. -/
def requireAnyRole (user : UserClaims) : Except ServiceError Unit :=
  if user.role ∈ [.trader, .positioner, .auditor, .admin] then .ok ()
  else .error (.http 403 s!"Role {user.role.value} is not allowed")

/-- The number of rows that is fetched for a page size of the request. -/
def clampPageSize (pageSize : ℤ) : ℕ := (min (max pageSize 1) 100).toNat

/-- The notifications from the rows of the audit log and the mark of the user. The database sorts
the rows by `order`. -/
def notificationList (order : List AuditLogEntry → List AuditLogEntry)
    (lastReadAt : Option Timestamp) (pageSize : ℤ) (audit : List AuditLogEntry) :
    NotificationListResponse :=
  let total := audit.length
  let rows := (order audit).take (clampPageSize pageSize)
  let items := rows.map (toNotification lastReadAt)
  let unreadCount := items.countP fun item => !item.read
  { items, unreadCount, total }

/-- `list_notifications`. -/
def listNotifications (order : List AuditLogEntry → List AuditLogEntry) (user : UserClaims)
    (pageSize : ℤ) (db : NotificationTables) : Except ServiceError NotificationListResponse := do
  requireAnyRole user
  return notificationList order (db.lastReadAt user.userId) pageSize db.audit

/-- `read_all_notifications`: the mark of the user is the clock. -/
def readAllNotifications (user : UserClaims) (clock : Timestamp) (db : NotificationTables) :
    Except ServiceError NotificationTables := do
  requireAnyRole user
  return { db with marks := db.marks.insert user.userId (some clock) }

end FxDealManager
