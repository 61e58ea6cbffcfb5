import FxDealManager.Api.Notifications
import FxDealManager.Concurrency.Requests
import FxDealManager.Lifecycle.Stamps
import FxDealManager.Paging.Pages
import Mathlib.Data.Fintype.Basic

/-!
# Notifications under concurrency

The deal operations, the requests that read all notifications and those that list them, each in a
transaction of its own and all by one clock. An entry of the audit log has the time at which its
transaction has begun, and is seen once that transaction commits; the mark of a user is the clock
while the notifications are read. An operation that has begun before the mark and commits after it
leaves entries that nobody has seen and that count as read.

## Main definitions

* `NoticeSystem`, `noticeStep`: how far each request has got, and its next step
* `lastSeen`: the audit log when the last reading of a user committed
* `CommitsLate`: an operation commits that has begun no later than a mark of the user
* `HidesNothing`: what was listed as read has been seen

## Main results

* `listing_alone`, `readAll_alone`: requests that nobody interrupts are the routes
* `unseen_unread`: without late commits nothing unseen counts as read, in every interleaving
* `late_read`: what a late commit appends counts as read
* `approval_hidden`: an approval that is under way while the trader reads all notifications
-/

namespace FxDealManager

open Transactional Paging

/-! ## The requests and their steps -/

/-- How far a `read_all_notifications` has got, with the row it has found and the mark it sets. -/
inductive ReadAllPhase
  | idle
  | loaded (state : Option (Option Timestamp))
  | marked (state : Option (Option Timestamp)) (mark : Timestamp)
  | finished

/-- How far a `list_notifications` has got, with the mark and the number of entries it has read. -/
inductive ListingPhase
  | idle
  | loaded (lastReadAt : Option Timestamp)
  | counted (lastReadAt : Option Timestamp) (total : ℕ)
  | finished

/-- The mark that the listing has read. -/
def ListingPhase.lastReadAt : ListingPhase → Option Timestamp
  | .loaded lastReadAt | .counted lastReadAt _ => lastReadAt
  | .idle | .finished => none

/-- The requests: the deal operations, and the users who read and list their notifications. -/
structure NoticeRequests (ι κ ν : Type) where
  deal : ι → Request
  readAll : κ → UserClaims
  listing : ν → UserClaims × ℤ

/-- The clock, the committed data with the phases of all requests, and the times at which the
transactions of the deal operations have begun. -/
structure NoticeSystem (ι κ ν : Type) where
  clock : Timestamp
  begun : ι → Timestamp
  deals : ServiceSystem ι
  marks : NotificationMarks
  readAlls : κ → ReadAllPhase
  listings : ν → ListingPhase

/-- What happens next: time passes, or a request takes its next step. -/
inductive NoticeAction (ι κ ν : Type)
  | wait (elapsed : ℕ)
  | deal (a : Action ι)
  | readAll (k : κ)
  | listing (n : ν)
deriving DecidableEq

/-- What is seen of a step: nothing, a step of a deal operation, or the end of a request of a
user. -/
inductive NoticeEvent
  | quiet
  | deal (event : Event Statement SendCall)
  | readAll (userId : String) (result : Except ServiceError Unit)
  | listed (userId : String) (result : Except ServiceError NotificationListResponse)

/-- One step of a request. -/
abbrev NoticeTurn (ι κ ν : Type) := Turn (NoticeAction ι κ ν) NoticeEvent (NoticeSystem ι κ ν)

/-- The request in a transaction that begins now. -/
def Request.at (req : Request) (now : Timestamp) : Request :=
  { req with env := { req.env with now } }

/-- The commit of a mark: a row is inserted for a user who had none when the request has looked,
and updated if the mark is another one than it has found. -/
def storeMark (userId : String) (state : Option (Option Timestamp)) (mark : Timestamp)
    (marks : NotificationMarks) : Except DbError NotificationMarks :=
  match state with
  | none =>
    if ¬ userId.length ≤ 36 then .error (.stringTooLong "user_id")
    else if userId ∈ marks then .error (.uniqueViolation "user_notification_state")
    else .ok (marks.insert userId (some mark))
  | some lastReadAt =>
    if lastReadAt = some mark then .ok marks else .ok (marks.insert userId (some mark))

/-- The marks of the other users stay. -/
theorem lookup_storeMark_ne {userId user : String} {mark : Timestamp}
    {state : Option (Option Timestamp)} {marks marks' : NotificationMarks}
    (h : storeMark user state mark marks = .ok marks') (hne : userId ≠ user) :
    marks'.lookup userId = marks.lookup userId := by
  have hinsert : (marks.insert user (some mark)).lookup userId = marks.lookup userId :=
    AList.lookup_insert_ne hne
  cases state with
  | none =>
    simp only [storeMark] at h
    split at h
    · cases h
    · split at h
      · cases h
      · cases h
        exact hinsert
  | some lastReadAt =>
    simp only [storeMark] at h
    split at h <;> cases h
    · rfl
    · exact hinsert

/-- A mark is stored for a user whose row has not changed since the request has looked. -/
theorem exists_storeMark {userId : String} (mark : Timestamp) (marks : NotificationMarks)
    (hlength : userId.length ≤ 36) :
    ∃ marks', storeMark userId (marks.lookup userId) mark marks = .ok marks' ∧
      ∀ u, marks'.lookup u = (marks.insert userId (some mark)).lookup u := by
  cases hstate : marks.lookup userId with
  | none =>
    have hnew : userId ∉ marks := AList.lookup_eq_none.mp hstate
    exact ⟨_, by rw [storeMark, if_neg (not_not.mpr hlength), if_neg hnew], fun _ => rfl⟩
  | some lastReadAt =>
    by_cases hsame : lastReadAt = some mark
    · refine ⟨marks, by rw [storeMark, if_pos hsame], fun u => ?_⟩
      by_cases hu : u = userId
      · rw [hu, hstate, AList.lookup_insert, hsame]
      · rw [AList.lookup_insert_ne hu]
    · exact ⟨_, by rw [storeMark, if_neg hsame], fun _ => rfl⟩

namespace NoticeSystem

variable {ι κ ν : Type}

/-- All requests are about to begin, and nobody has read a notification. -/
def start (clock : Timestamp) (db : Database) : NoticeSystem ι κ ν :=
  ⟨clock, fun _ => clock, System.start db, ∅, fun _ => .idle, fun _ => .idle⟩

/-- The committed tables of the notifications. -/
def tables (s : NoticeSystem ι κ ν) : NotificationTables := ⟨s.deals.data.audit, s.marks⟩

/-- The mark is stored for the user, or a listing of the user that is under way has read it. -/
def InUse (requests : NoticeRequests ι κ ν) (s : NoticeSystem ι κ ν)
    (userId : String) (mark : Timestamp) : Prop :=
  s.tables.lastReadAt userId = some mark ∨
    ∃ n, (requests.listing n).1.userId = userId ∧ (s.listings n).lastReadAt = some mark

/-- A mark of the user that is in use is no earlier than the given time. -/
def MarkedSince (requests : NoticeRequests ι κ ν) (s : NoticeSystem ι κ ν) (userId : String)
    (begun : Timestamp) : Prop :=
  ∃ mark, s.InUse requests userId mark ∧ begun ≤ mark

instance [Fintype ν] (requests : NoticeRequests ι κ ν) (s : NoticeSystem ι κ ν) (userId : String)
    (begun : Timestamp) : Decidable (s.MarkedSince requests userId begun) :=
  decidable_of_iff
    ((∃ mark ∈ s.tables.lastReadAt userId, begun ≤ mark) ∨
      ∃ n, (requests.listing n).1.userId = userId ∧
        ∃ mark ∈ (s.listings n).lastReadAt, begun ≤ mark) <| by
    constructor
    · rintro (⟨mark, hmark, hle⟩ | ⟨n, huser, mark, hmark, hle⟩)
      · exact ⟨mark, .inl hmark, hle⟩
      · exact ⟨mark, .inr ⟨n, huser, hmark⟩, hle⟩
    · rintro ⟨mark, hmark | ⟨n, huser, hmark⟩, hle⟩
      · exact .inl ⟨mark, hmark, hle⟩
      · exact .inr ⟨n, huser, mark, hmark, hle⟩

/-- A deal operation begins its transaction when it first reads. -/
def beginning [DecidableEq ι] (s : NoticeSystem ι κ ν) : Action ι → ι → Timestamp
  | .read i => if (s.deals.phase i).isIdle then Function.update s.begun i s.clock else s.begun
  | _ => s.begun

/-- The next step of a deal operation. -/
def dealStep [DecidableEq ι] (deal : ι → Request) (s : NoticeSystem ι κ ν) (a : Action ι) :
    NoticeEvent × NoticeSystem ι κ ν :=
  let begun := s.beginning a
  let (event, deals) := serveInterleaved (fun i => (deal i).at (begun i)) s.deals a
  (.deal event, { s with begun, deals })

section ReadAll

variable [DecidableEq κ]

/-- A reading gets to another phase. -/
def enterReadAll (s : NoticeSystem ι κ ν) (k : κ) (phase : ReadAllPhase) : NoticeSystem ι κ ν :=
  { s with readAlls := Function.update s.readAlls k phase }

@[simp] theorem enterReadAll_self (s : NoticeSystem ι κ ν) (k : κ) (phase : ReadAllPhase) :
    (s.enterReadAll k phase).readAlls k = phase :=
  Function.update_self ..

@[simp] theorem enterReadAll_marks (s : NoticeSystem ι κ ν) (k : κ) (phase : ReadAllPhase) :
    (s.enterReadAll k phase).marks = s.marks := rfl

@[simp] theorem enterReadAll_clock (s : NoticeSystem ι κ ν) (k : κ) (phase : ReadAllPhase) :
    (s.enterReadAll k phase).clock = s.clock := rfl

/-- The next step of a `read_all_notifications`. -/
def readAllStep (user : UserClaims) (s : NoticeSystem ι κ ν) (k : κ) :
    NoticeEvent × NoticeSystem ι κ ν :=
  match s.readAlls k with
  | .idle =>
    match requireAnyRole user with
    | .error err => (.readAll user.userId (.error err), s.enterReadAll k .finished)
    | .ok () => (.quiet, s.enterReadAll k (.loaded (s.marks.lookup user.userId)))
  | .loaded state => (.quiet, s.enterReadAll k (.marked state s.clock))
  | .marked state mark =>
    match storeMark user.userId state mark s.marks with
    | .error err => (.readAll user.userId (.error (.database err)), s.enterReadAll k .finished)
    | .ok marks => (.readAll user.userId (.ok ()), { s.enterReadAll k .finished with marks })
  | .finished => (.quiet, s)

end ReadAll

section Listing

variable [DecidableEq ν]

/-- A listing gets to another phase. -/
def enterListing (s : NoticeSystem ι κ ν) (n : ν) (phase : ListingPhase) : NoticeSystem ι κ ν :=
  { s with listings := Function.update s.listings n phase }

@[simp] theorem enterListing_self (s : NoticeSystem ι κ ν) (n : ν) (phase : ListingPhase) :
    (s.enterListing n phase).listings n = phase :=
  Function.update_self ..

theorem enterListing_ne (s : NoticeSystem ι κ ν) {n m : ν} (phase : ListingPhase) (h : m ≠ n) :
    (s.enterListing n phase).listings m = s.listings m :=
  Function.update_of_ne h ..

/-- A listing that gets to another phase uses the mark of that phase. -/
theorem inUse_enterListing {requests : NoticeRequests ι κ ν} {s : NoticeSystem ι κ ν} {n : ν}
    {phase : ListingPhase} {userId : String} {mark : Timestamp}
    (h : (s.enterListing n phase).InUse requests userId mark) :
    ((requests.listing n).1.userId = userId ∧ phase.lastReadAt = some mark) ∨
      s.InUse requests userId mark := by
  rcases h with hstored | ⟨m, hm, hphase⟩
  · exact .inr (.inl hstored)
  · by_cases hmn : m = n
    · subst hmn
      rw [enterListing_self] at hphase
      exact .inl ⟨hm, hphase⟩
    · rw [enterListing_ne _ _ hmn] at hphase
      exact .inr (.inr ⟨m, hm, hphase⟩)

/-- The next step of a `list_notifications`: the mark, the number of entries, and the rows are read
one after the other, each as committed by then. -/
def listingStep (order : List AuditLogEntry → List AuditLogEntry) (user : UserClaims)
    (pageSize : ℤ) (s : NoticeSystem ι κ ν) (n : ν) : NoticeEvent × NoticeSystem ι κ ν :=
  match s.listings n with
  | .idle =>
    match requireAnyRole user with
    | .error err => (.listed user.userId (.error err), s.enterListing n .finished)
    | .ok () => (.quiet, s.enterListing n (.loaded (s.tables.lastReadAt user.userId)))
  | .loaded lastReadAt => (.quiet, s.enterListing n (.counted lastReadAt s.tables.audit.length))
  | .counted lastReadAt total =>
    let response := notificationList order lastReadAt pageSize s.tables.audit
    (.listed user.userId (.ok { response with total }), s.enterListing n .finished)
  | .finished => (.quiet, s)

end Listing

end NoticeSystem

/-- The steps of all requests, by one clock. -/
def noticeStep {ι κ ν : Type} [DecidableEq ι] [DecidableEq κ] [DecidableEq ν]
    (order : List AuditLogEntry → List AuditLogEntry) (requests : NoticeRequests ι κ ν)
    (s : NoticeSystem ι κ ν) : NoticeAction ι κ ν → NoticeEvent × NoticeSystem ι κ ν
  | .wait elapsed => (.quiet, { s with clock := s.clock + elapsed })
  | .deal a => s.dealStep requests.deal a
  | .readAll k => s.readAllStep (requests.readAll k) k
  | .listing n => s.listingStep order (requests.listing n).1 (requests.listing n).2 n

/-! ## What a step does -/

section Steps

variable {ι κ ν : Type} [DecidableEq ι] [DecidableEq κ] [DecidableEq ν]
  {order : List AuditLogEntry → List AuditLogEntry} {requests : NoticeRequests ι κ ν}
  {s : NoticeSystem ι κ ν} {userId : String} {mark : Timestamp}

/-- The turn commits a reading of all notifications of the user. -/
def readsAll (userId : String) (t : NoticeTurn ι κ ν) : Bool :=
  match t.output with
  | .readAll u (.ok ()) => u = userId
  | _ => false

/-- The next step, as a turn. -/
abbrev noticeTurn (order : List AuditLogEntry → List AuditLogEntry)
    (requests : NoticeRequests ι κ ν) (s : NoticeSystem ι κ ν) (a : NoticeAction ι κ ν) :
    NoticeTurn ι κ ν :=
  turn (noticeStep order requests) s a

/-- The entries of a request have the time of its circumstances. -/
theorem Request.plan_createdAt (req : Request) {db : Database} {log : List Statement}
    (h : (req.plan db).log = some log) : ∀ entry ∈ entries log, entry.createdAt = req.env.now :=
  execute_createdAt req.op db log (List.mem_of_mem_head? (Option.mem_def.mpr h))

/-- The entries that a deal operation commits have the time at which its transaction has begun. -/
theorem committed_createdAt {deal : ι → Request} {begun : ι → Timestamp} {d : ServiceSystem ι}
    {i : ι} {log : List Statement}
    (h : (serveInterleaved (fun i => (deal i).at (begun i)) d (.commit i)).1 = .committed log) :
    ∀ entry ∈ entries log, entry.createdAt = begun i := by
  have hstep := interleave_happens (fun i => ((deal i).at (begun i)).plan) d (.commit i)
  change (interleave (fun i => ((deal i).at (begun i)).plan) d (.commit i)).1 = _ at h
  generalize interleave (fun i => ((deal i).at (begun i)).plan) d (.commit i) = next at h hstep
  obtain ⟨event, d'⟩ := next
  cases h
  cases hstep with
  | committed _ hlog _ => exact ((deal i).at (begun i)).plan_createdAt hlog

/-- A step of a deal operation leaves the audit log alone, or it commits. -/
theorem interleaved_audit (deal : ι → Request) (d : ServiceSystem ι) (a : Action ι) :
    (serveInterleaved deal d a).2.data.audit = d.data.audit ∨
      ∃ i log, a = .commit i ∧ (serveInterleaved deal d a).1 = .committed log ∧
        (serveInterleaved deal d a).2.data.audit = d.data.audit ++ entries log := by
  have hstep := interleave_happens (fun i => (deal i).plan) d a
  rw [serveInterleaved]
  generalize interleave (fun i => (deal i).plan) d a = next at hstep ⊢
  obtain ⟨event, d'⟩ := next
  cases hstep with
  | committed _ _ hreplay => exact .inr ⟨_, _, rfl, rfl, replay_audit hreplay⟩
  | _ => exact .inl rfl

/-- **The audit log grows** only by the entries of an operation that commits. -/
theorem noticeStep_audit (order : List AuditLogEntry → List AuditLogEntry)
    (requests : NoticeRequests ι κ ν) (s : NoticeSystem ι κ ν) (a : NoticeAction ι κ ν) :
    (noticeStep order requests s a).2.tables.audit = s.tables.audit ∨
      ∃ i log, a = .deal (.commit i) ∧
        (noticeStep order requests s a).1 = .deal (.committed log) ∧
        (noticeStep order requests s a).2.tables.audit = s.tables.audit ++ entries log ∧
        ∀ entry ∈ entries log, entry.createdAt = s.begun i := by
  cases a with
  | wait elapsed => exact .inl rfl
  | deal a =>
    rcases interleaved_audit (fun i => (requests.deal i).at (s.beginning a i)) s.deals a with
      hsame | ⟨i, log, rfl, hevent, haudit⟩
    · exact .inl hsame
    · refine .inr ⟨i, log, rfl, ?_, haudit, committed_createdAt hevent⟩
      exact congrArg NoticeEvent.deal hevent
  | readAll k =>
    refine .inl ?_
    simp only [noticeStep, NoticeSystem.readAllStep]
    split
    · split <;> rfl
    · rfl
    · split <;> rfl
    · rfl
  | listing n =>
    refine .inl ?_
    simp only [noticeStep, NoticeSystem.listingStep]
    split
    · split <;> rfl
    · rfl
    · rfl
    · rfl

/-- **A mark comes into use** only when the user reads all notifications. -/
theorem inUse_noticeStep {a : NoticeAction ι κ ν}
    (h : (noticeStep order requests s a).2.InUse requests userId mark)
    (hread : readsAll userId (noticeTurn order requests s a) = false) :
    s.InUse requests userId mark := by
  cases a with
  | wait elapsed => exact h
  | deal a => exact h
  | readAll k =>
    rw [noticeTurn, turn, readsAll] at hread
    simp only [noticeStep, NoticeSystem.readAllStep] at h hread
    split at h
    · split at h <;> exact h
    · exact h
    · rename_i state mark' hphase
      rw [hphase] at hread
      split at h
      · exact h
      · rename_i marks hmarks
        simp only [hmarks, decide_eq_false_iff_not] at hread
        refine h.imp_left fun hstored => ?_
        rw [← hstored]
        exact congrArg Option.join (lookup_storeMark_ne hmarks (Ne.symm hread)).symm
    · exact h
  | listing n =>
    simp only [noticeStep, NoticeSystem.listingStep] at h
    split at h
    · split at h
      · refine (NoticeSystem.inUse_enterListing h).resolve_left ?_
        rintro ⟨-, hphase⟩
        cases hphase
      · rcases NoticeSystem.inUse_enterListing h with ⟨huser, hstored⟩ | hused
        · exact .inl (huser ▸ hstored)
        · exact hused
    · rename_i lastReadAt hphase
      rcases NoticeSystem.inUse_enterListing h with ⟨huser, hmark⟩ | hused
      · exact .inr ⟨n, huser, by rw [hphase]; exact hmark⟩
      · exact hused
    · refine (NoticeSystem.inUse_enterListing h).resolve_left ?_
      rintro ⟨-, hphase⟩
      cases hphase
    · exact h

/-- A listing that nobody interrupts answers as the route. -/
theorem listing_alone {n : ν} (h : s.listings n = .idle)
    (hrole : requireAnyRole (requests.listing n).1 = .ok ()) :
    (noticeStep order requests
      (serveAll (noticeStep order requests) s [.listing n, .listing n]) (.listing n)).1 =
      .listed (requests.listing n).1.userId
        (listNotifications order (requests.listing n).1 (requests.listing n).2 s.tables) := by
  simp only [serveAll, List.foldl_cons, List.foldl_nil, noticeStep, NoticeSystem.listingStep, h,
    hrole, NoticeSystem.enterListing_self, listNotifications]
  rfl

/-- A reading that nobody interrupts leaves the marks that the route leaves. -/
theorem readAll_alone {k : κ} (h : s.readAlls k = .idle) {db : NotificationTables}
    (hlength : (requests.readAll k).userId.length ≤ 36)
    (hread : readAllNotifications (requests.readAll k) s.clock s.tables = .ok db) :
    ∀ u, (serveAll (noticeStep order requests) s
      [.readAll k, .readAll k, .readAll k]).tables.lastReadAt u = db.lastReadAt u := by
  intro u
  obtain ⟨⟨⟩, hrole, hdb⟩ := bind_eq_ok.mp hread
  cases hdb
  obtain ⟨marks', hstore, hlookup⟩ := exists_storeMark s.clock s.marks hlength
  have hafter : (serveAll (noticeStep order requests) s
      [.readAll k, .readAll k, .readAll k]).marks = marks' := by
    simp only [serveAll, List.foldl_cons, List.foldl_nil, noticeStep, NoticeSystem.readAllStep, h,
      hrole, NoticeSystem.enterReadAll_self]
    rw [NoticeSystem.enterReadAll_marks, NoticeSystem.enterReadAll_marks]
    simp [NoticeSystem.enterReadAll, hstore]
  refine congrArg Option.join ?_
  exact (congrArg (AList.lookup u) hafter).trans (hlookup u)

end Steps

/-! ## What was seen and what counts as read -/

section Unseen

variable {ι κ ν : Type}

/-- The audit log when the last reading of the user committed. -/
def lastSeen (userId : String) (history : List (NoticeTurn ι κ ν)) : Option (List AuditLogEntry) :=
  (history.filter (readsAll userId)).getLast?.map fun t => t.before.tables.audit

/-- The deal operation that commits in the turn. -/
def committer (t : NoticeTurn ι κ ν) : Option ι :=
  match t.input, t.output with
  | .deal (.commit i), .deal (.committed _) => some i
  | _, _ => none

/-- A deal operation commits whose transaction has begun no later than a mark of the user. -/
def CommitsLate (requests : NoticeRequests ι κ ν) (userId : String) (t : NoticeTurn ι κ ν) :
    Prop :=
  ∃ i ∈ committer t, t.before.MarkedSince requests userId (t.before.begun i)

instance [Fintype ν] (requests : NoticeRequests ι κ ν) (userId : String)
    (t : NoticeTurn ι κ ν) : Decidable (CommitsLate requests userId t) :=
  inferInstanceAs (Decidable (∃ i ∈ committer t, _))

/-- Whatever is listed to the user as read was committed when the last reading of the user
committed. -/
def HidesNothing (userId : String) (history : List (NoticeTurn ι κ ν)) : Prop :=
  ∀ past t later, history = past ++ t :: later →
    ∀ response, t.output = .listed userId (.ok response) → ∀ seen ∈ lastSeen userId past,
      ∀ item ∈ response.items, item.read = true → ∃ entry ∈ seen, item.id = entry.id

/-- The turn lists an entry as read that was not committed when the last reading committed. -/
def listsUnseen (userId : String) (past : List (NoticeTurn ι κ ν)) (t : NoticeTurn ι κ ν) : Bool :=
  match t.output with
  | .listed u (.ok response) =>
    u = userId && (lastSeen userId past).any fun seen =>
      response.items.any fun item => item.read && seen.all fun entry => item.id ≠ entry.id
  | _ => false

theorem HidesNothing.listsUnseen {userId : String} {past later : List (NoticeTurn ι κ ν)}
    {t : NoticeTurn ι κ ν} (h : HidesNothing userId (past ++ t :: later)) :
    listsUnseen userId past t = false := by
  rw [Bool.eq_false_iff]
  intro hunseen
  rw [FxDealManager.listsUnseen] at hunseen
  split at hunseen
  · rename_i u response houtput
    simp only [Bool.and_eq_true, decide_eq_true_eq, Option.any_eq_true, List.any_eq_true,
      List.all_eq_true] at hunseen
    obtain ⟨rfl, seen, hseen, item, hitem, hread, hnew⟩ := hunseen
    obtain ⟨entry, hentry, hid⟩ := h _ _ _ rfl response houtput seen hseen item hitem hread
    exact hnew entry hentry hid
  · cases hunseen

/-- Every entry that is no later than a mark in use was seen. -/
def Covered (requests : NoticeRequests ι κ ν) (s : NoticeSystem ι κ ν) (userId : String)
    (seen : List AuditLogEntry) : Prop :=
  ∀ mark, s.InUse requests userId mark → ∀ entry ∈ s.tables.audit, entry.createdAt ≤ mark →
    entry ∈ seen

theorem lastSeen_append (userId : String) (history : List (NoticeTurn ι κ ν))
    (t : NoticeTurn ι κ ν) :
    lastSeen userId (history ++ [t]) =
      if readsAll userId t then some t.before.tables.audit else lastSeen userId history := by
  by_cases ht : readsAll userId t = true
  · simp [lastSeen, ht]
  · simp [lastSeen, ht]

variable [DecidableEq ι] [DecidableEq κ] [DecidableEq ν]
  {order : List AuditLogEntry → List AuditLogEntry} {requests : NoticeRequests ι κ ν}
  {userId : String} {history : List (NoticeTurn ι κ ν)} {s s₀ : NoticeSystem ι κ ν}

/-- A reading that commits has seen every entry there is. -/
theorem covered_of_readsAll {a : NoticeAction ι κ ν}
    (hread : readsAll userId (noticeTurn order requests s a) = true) :
    Covered requests (noticeStep order requests s a).2 userId s.tables.audit := by
  intro mark _ entry hentry _
  rcases noticeStep_audit order requests s a with
    hsame | ⟨i, log, -, hevent, -⟩
  · rwa [hsame] at hentry
  · rw [readsAll, noticeTurn, turn, hevent] at hread
    cases hread

/-- **Any other step** keeps what is covered, unless an operation commits late. -/
theorem Covered.step {seen : List AuditLogEntry} (h : Covered requests s userId seen)
    {a : NoticeAction ι κ ν} (hread : readsAll userId (noticeTurn order requests s a) = false)
    (hlate : ¬ CommitsLate requests userId (noticeTurn order requests s a)) :
    Covered requests (noticeStep order requests s a).2 userId seen := by
  intro mark hmark entry hentry hle
  have hused := inUse_noticeStep hmark hread
  rcases noticeStep_audit order requests s a with
    hsame | ⟨i, log, rfl, hevent, haudit, hcreated⟩
  · rw [hsame] at hentry
    exact h mark hused entry hentry hle
  · rw [haudit] at hentry
    rcases List.mem_append.mp hentry with hold | hnew
    · exact h mark hused entry hold hle
    · rw [hcreated entry hnew] at hle
      have hcommitter : i ∈ committer (noticeTurn order requests s (.deal (.commit i))) := by
        simp [committer, turn, hevent]
      exact absurd ⟨i, hcommitter, mark, hused, hle⟩ hlate

theorem covered_run {clock : Timestamp} {db : Database}
    (h : Run (noticeStep order requests) (NoticeSystem.start clock db) history s)
    (hlate : ∀ t ∈ history, ¬ CommitsLate requests userId t) :
    ∀ seen ∈ lastSeen userId history, Covered requests s userId seen := by
  refine Run.invariant_of (P := fun history s => ∀ seen ∈ lastSeen userId history,
    Covered requests s userId seen) nofun ?_ h hlate
  intro history s a hlate hcovered seen hseen
  rw [lastSeen_append] at hseen
  by_cases hread : readsAll userId (noticeTurn order requests s a) = true
  · rw [if_pos hread] at hseen
    cases hseen
    exact covered_of_readsAll hread
  · rw [if_neg hread] at hseen
    exact (hcovered seen hseen).step (Bool.eq_false_iff.mpr hread) hlate

/-- What a listing answers with, with the mark that it has read. -/
theorem listed_of_output {a : NoticeAction ι κ ν} {response : NotificationListResponse}
    (h : (noticeStep order requests s a).1 = .listed userId (.ok response)) :
    ∃ n lastReadAt total pageSize, s.listings n = .counted lastReadAt total ∧
      (requests.listing n).1.userId = userId ∧
      response = { notificationList order lastReadAt pageSize s.tables.audit with total } := by
  cases a with
  | wait elapsed => cases h
  | deal a => cases h
  | readAll k =>
    simp only [noticeStep, NoticeSystem.readAllStep] at h
    split at h
    · split at h <;> cases h
    · cases h
    · split at h <;> cases h
    · cases h
  | listing n =>
    simp only [noticeStep, NoticeSystem.listingStep] at h
    split at h
    · split at h <;> cases h
    · cases h
    · rename_i lastReadAt total hphase
      cases h
      exact ⟨n, lastReadAt, total, _, hphase, rfl, rfl⟩
    · cases h

/-- An item that counts as read is an entry no later than the mark. -/
theorem exists_entry_of_read {lastReadAt : Option Timestamp} {pageSize : ℤ}
    {audit : List AuditLogEntry} {item : NotificationResponse}
    (horder : (order audit).Perm audit)
    (hitem : item ∈ (notificationList order lastReadAt pageSize audit).items)
    (hread : item.read = true) :
    ∃ mark entry, lastReadAt = some mark ∧ entry ∈ audit ∧ entry.createdAt ≤ mark ∧
      item.id = entry.id := by
  obtain ⟨entry, hentry, rfl⟩ := List.mem_map.mp hitem
  obtain ⟨mark, rfl, hle⟩ := (Option.any_eq_true _ _).mp hread
  exact ⟨mark, entry, rfl, horder.mem_iff.mp (List.mem_of_mem_take hentry),
    of_decide_eq_true hle, rfl⟩

/-- **Nothing unseen counts as read**: in every interleaving in which no deal operation commits
whose transaction has begun no later than a mark of the user, whatever is listed to the user as
read was committed when the last reading of the user committed. -/
theorem unseen_unread (userId : String) {clock : Timestamp} {db : Database}
    (horder : ∀ audit, Arranged AuditLogEntry.createdAt audit (order audit))
    (h : Run (noticeStep order requests) (NoticeSystem.start clock db) history s)
    (hlate : ∀ t ∈ history, ¬ CommitsLate requests userId t) : HidesNothing userId history := by
  rintro past t later rfl response houtput seen hseen item hitem hread
  obtain ⟨s', a, hpast, rfl⟩ := h.exists_turn
  have hcovered := covered_run hpast (fun t ht => hlate t (List.mem_append_left _ ht)) seen hseen
  obtain ⟨n, lastReadAt, total, pageSize, hphase, huser, rfl⟩ := listed_of_output houtput
  obtain ⟨mark, entry, rfl, hentry, hle, hid⟩ :=
    exists_entry_of_read (horder _).perm hitem hread
  have hused : s'.InUse requests userId mark := .inr ⟨n, huser, by rw [hphase]; rfl⟩
  exact ⟨entry, hcovered mark hused entry hentry hle, hid⟩

/-- **A late commit is hidden**: its entries count as read by every mark that is no earlier than
the beginning of its transaction. -/
theorem late_read {i : ι} {log : List Statement} {mark : Timestamp}
    (h : (noticeStep order requests s (.deal (.commit i))).1 = .deal (.committed log))
    (hlate : s.begun i ≤ mark) :
    ∀ entry ∈ entries log, (toNotification (some mark) entry).read = true :=
  fun entry hentry => decide_eq_true
    ((committed_createdAt (NoticeEvent.deal.inj h) entry hentry).le.trans hlate)

end Unseen

/-! ## An approval and a reading -/

namespace Desk

/-- The rows sorted by the time of their creation, the last ones first. -/
def newestFirst (audit : List AuditLogEntry) : List AuditLogEntry :=
  audit.insertionSort fun a b => b.createdAt ≤ a.createdAt

/-- The positioner approves the submitted deal while the trader reads and lists notifications. -/
def noticeRequests : NoticeRequests Unit Unit Unit where
  deal _ := ⟨env 5, positioner, .approve dealId⟩
  readAll _ := trader
  listing _ := (trader, 50)

/-- The system when the requests begin. -/
def submittedSystem : NoticeSystem Unit Unit Unit := NoticeSystem.start 10 (after submission)

/-- The trader reads all notifications while the approval is waiting for the position system. -/
def readWhileApproving : List (NoticeAction Unit Unit Unit) :=
  [.deal (.read ()), .wait 1, .readAll (), .readAll (), .readAll (), .deal (.send ()),
    .deal (.commit ()), .listing (), .listing ()]

/-- The trader reads all notifications, and the approval begins one tick later. -/
def readThenApprove : List (NoticeAction Unit Unit Unit) :=
  [.readAll (), .readAll (), .readAll (), .wait 1, .deal (.read ()), .deal (.send ()),
    .deal (.commit ()), .listing (), .listing (), .listing ()]

theorem arranged_newestFirst (audit : List AuditLogEntry) :
    Arranged AuditLogEntry.createdAt audit (newestFirst audit) where
  perm := List.perm_insertionSort _ _
  sorted := by
    have : Std.Total fun a b : AuditLogEntry => b.createdAt ≤ a.createdAt :=
      ⟨fun a b => Nat.le_total b.createdAt a.createdAt⟩
    have : IsTrans AuditLogEntry fun a b => b.createdAt ≤ a.createdAt :=
      ⟨fun a b c hab hbc => hbc.trans hab⟩
    exact List.pairwise_insertionSort _ _

end Desk

/-- An approval that begins after the reading hides nothing. -/
theorem unseen_unread_desk :
    HidesNothing Desk.trader.userId (history (noticeStep Desk.newestFirst Desk.noticeRequests)
      Desk.submittedSystem Desk.readThenApprove) :=
  unseen_unread _ Desk.arranged_newestFirst (run_serveAll _ _ _) (by decide +kernel)

/-- An approval is under way while the trader reads all notifications, and commits afterwards: its
entries are listed to the trader as read. -/
theorem approval_hidden :
    ¬ ∀ (nsi : ReferenceData) (past : List ServiceTurn) (db : Database),
      Run step (Database.initial nsi) past db →
        ∀ (ι κ ν : Type) [DecidableEq ι] [DecidableEq κ] [DecidableEq ν]
          (order : List AuditLogEntry → List AuditLogEntry) (requests : NoticeRequests ι κ ν)
          (clock : Timestamp) (history : List (NoticeTurn ι κ ν)) (s : NoticeSystem ι κ ν),
          (∀ audit, Arranged AuditLogEntry.createdAt audit (order audit)) →
            Run (noticeStep order requests) (NoticeSystem.start clock db) history s →
              ∀ userId, HidesNothing userId history := by
  intro h
  have hrun := run_serveAll (noticeStep Desk.newestFirst Desk.noticeRequests) Desk.submittedSystem
    Desk.readWhileApproving
  have hhides := h Desk.nsi _ _ (run_serveAll step (Database.initial Desk.nsi) Desk.submission)
    Unit Unit Unit Desk.newestFirst Desk.noticeRequests 10 _ _ Desk.arranged_newestFirst
    (hrun.serve (.listing ())) Desk.trader.userId
  have hunseen : listsUnseen Desk.trader.userId
      (history (noticeStep Desk.newestFirst Desk.noticeRequests) Desk.submittedSystem
        Desk.readWhileApproving)
      (turn (noticeStep Desk.newestFirst Desk.noticeRequests)
        (serveAll (noticeStep Desk.newestFirst Desk.noticeRequests) Desk.submittedSystem
          Desk.readWhileApproving) (.listing ())) = true := by
    decide +kernel
  exact absurd (hhides.listsUnseen.symm.trans hunseen) Bool.false_ne_true

end FxDealManager
