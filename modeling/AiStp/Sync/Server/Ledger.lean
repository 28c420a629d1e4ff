import AiStp.Library.PostOrder
import AiStp.Library.Runs
import AiStp.Sync.Server.Validation

/-!
# The server's sync ledger

The rows that one account owns: revisions, entity heads, the outbox and the receipts. Every query
of the source is filtered by the account and every push holds the account's row lock, so a run of
the account is a list of pushes. `applyOne` settles one push event; a raised error rolls the
transaction back, so `push` leaves the ledger as it was. `settle_cases` says once what a settled
event does to the ledger; every invariant is derived from it.
-/

set_option autoImplicit false

namespace AiStp.Sync.Server

open Library Foundation

/-! ### Rows -/

/-- Immutable account-scoped revision. -/
structure SyncRevision where
  revisionId : String
  entityId : String
  entityKind : EntityKind
  parentRevisionIds : List String
  operation : Operation
  contentDigest : String
  payload : List (String × Json)
  deviceId : String
  actorId : String
  eventId : String
  createdAt : Identity.Moment
deriving DecidableEq, Repr

/-- Ordered durable stream of accepted events: a copy of a revision's columns and its position. -/
structure SyncOutbox extends SyncRevision where
  sequence : Nat
deriving DecidableEq, Repr

/-- Durable idempotent outcome of one push event. -/
structure SyncEventReceiptRow where
  idempotencyKey : String
  requestFingerprint : String
  deviceId : String
  receipt : SyncEventReceipt
deriving DecidableEq, Repr

/-- The sync rows of one account, oldest first. -/
structure Ledger where
  revisions : List SyncRevision
  heads : AList fun _ : String ↦ String
  outbox : List SyncOutbox
  receipts : List SyncEventReceiptRow

/-- The ledger of an account that has pushed nothing. -/
def Ledger.empty : Ledger :=
  { revisions := [], heads := ∅, outbox := [], receipts := [] }

/-- The authenticated caller, with its active device and what the account lock found. -/
structure Session where
  accountId : String
  deviceId : String
  accountAvailable : Bool
deriving DecidableEq, Repr

inductive ErrorCategory where
  | validation
  | authRequired
  | conflict
deriving DecidableEq, Repr

/-- What a push can raise: a typed error, or an error of a canonical form or of a timestamp. -/
inductive Failure where
  | api (category : ErrorCategory) (message : String)
  | canonicalization
  | timestamp
deriving DecidableEq, Repr

namespace Ledger

/-! ### Queries -/

variable (ledger : Ledger)

def revision? (revisionId : String) : Option SyncRevision :=
  ledger.revisions.find? fun row ↦ row.revisionId = revisionId

/-- `_lock_head`. -/
def head (entityId : String) : Option String :=
  ledger.heads.lookup entityId

/-- `_load_receipt`. -/
def receipt? (idempotencyKey : String) : Option SyncEventReceiptRow :=
  ledger.receipts.find? fun row ↦ row.idempotencyKey = idempotencyKey

/-- The revisions that the stream carries. -/
def delivered : List String :=
  ledger.outbox.map fun row ↦ row.revisionId

/-- `_revision_parents`. -/
def revisionParents (revisionId : String) : List String :=
  ((ledger.revision? revisionId).map SyncRevision.parentRevisionIds).getD []

/-- One side of one round of the breadth walk: stop at a parent the other side has seen. -/
def expandFrontier (other : List String) :
    List String → List String → List String → String ⊕ (List String × List String)
  | [], seen, next => .inr (seen, next)
  | node :: frontier, seen, next =>
    let parents := ledger.revisionParents node
    match parents.find? (· ∈ other) with
    | some shared => .inl shared
    | none =>
      let fresh := (parents.filter (· ∉ seen)).eraseDups
      expandFrontier other frontier (seen ++ fresh) (next ++ fresh)

/-- The breadth walk of parent links, for at most `rounds` rounds. -/
def walkCommonAncestor :
    Nat → List String → List String → List String → List String → Option String
  | 0, _, _, _, _ => none
  | rounds + 1, leftSeen, rightSeen, leftFrontier, rightFrontier =>
    if leftFrontier.isEmpty ∧ rightFrontier.isEmpty then none
    else
      match ledger.expandFrontier rightSeen leftFrontier leftSeen [] with
      | .inl shared => some shared
      | .inr (leftSeen, leftFrontier) =>
        match ledger.expandFrontier leftSeen rightFrontier rightSeen [] with
        | .inl shared => some shared
        | .inr (rightSeen, rightFrontier) =>
          walkCommonAncestor rounds leftSeen rightSeen leftFrontier rightFrontier

/-- `_find_common_ancestor`. -/
def findCommonAncestor (left right : String) : Option String :=
  if left = right then some left
  else ledger.walkCommonAncestor 64 [left] [right] [left] [right]

/-- `MAX_UNDELIVERED_ANCESTORS`. -/
def maxUndeliveredAncestors : Nat := 64

/-- The rows that the post-order walk reads. -/
def ancestry : PostOrder.Store SyncRevision String where
  rows := ledger.revisions
  key := SyncRevision.revisionId
  parents := SyncRevision.parentRevisionIds
  delivered := ledger.delivered

/-- `_undelivered_ancestors`. -/
def undeliveredAncestors (parents : List String) : Option (List SyncRevision) :=
  ledger.ancestry.undelivered maxUndeliveredAncestors parents

/-- `_next_sequence`. -/
def nextSequence : Nat :=
  (ledger.outbox.map SyncOutbox.sequence).foldl max 0 + 1

/-- `_singleton_identity`: the least live entity of a kind that admits exactly one. -/
def singletonIdentity (kind : EntityKind) : Option String :=
  if kind ∈ singletonEntityKinds then
    let live := ledger.heads.entries.filterMap fun head ↦
      (ledger.revision? head.2).bind fun row ↦
        if row.entityKind = kind ∧ row.operation ≠ .tombstone then some head.1 else none
    (live.insertionSort (· ≤ ·)).head?
  else none

/-! ### Writes -/

def addRevision (row : SyncRevision) : Ledger :=
  { ledger with revisions := ledger.revisions ++ [row] }

/-- Put one revision at the end of the stream. -/
def deliver (row : SyncRevision) : Ledger :=
  { ledger with
    outbox := ledger.outbox ++ [{ toSyncRevision := row, sequence := ledger.nextSequence }] }

def deliverAll (rows : List SyncRevision) : Ledger :=
  rows.foldl deliver ledger

def setHead (entityId revisionId : String) : Ledger :=
  { ledger with heads := ledger.heads.insert entityId revisionId }

/-- `_store_receipt`. -/
def storeReceipt (event : SyncEvent) (fingerprint : String) (receipt : SyncEventReceipt) :
    Ledger :=
  { ledger with
    receipts := ledger.receipts ++
      [{ idempotencyKey := event.idempotencyKey, requestFingerprint := fingerprint,
         deviceId := event.deviceId, receipt := receipt }] }

/-- The rows an accepted event writes: the stream first carries the undelivered ancestors. -/
def accept (undelivered : List SyncRevision) (row : SyncRevision) : Ledger :=
  (((ledger.deliverAll undelivered).addRevision row).setHead row.entityId
    row.revisionId).deliver row

end Ledger

/-! ### Receipts -/

/-- `_affected_fields`. -/
def affectedFields (event : SyncEvent) : List String :=
  ((event.payload.map Prod.fst).insertionSort (· ≤ ·)).take 64

/-- `_revision_from_event`. -/
def revisionFromEvent (event : SyncEvent) (createdAt : Identity.Moment) : SyncRevision where
  revisionId := event.revisionId
  entityId := event.entityId
  entityKind := event.entityKind
  parentRevisionIds := event.parentRevisionIds
  operation := event.operation
  contentDigest := event.contentDigest
  payload := event.payload
  deviceId := event.deviceId
  actorId := event.actorId
  eventId := event.eventId
  createdAt := createdAt

/-- A refusal that names the current head. -/
def rejected (event : SyncEvent) (currentHead : Option String) (errorCode : String)
    (conflictingEntityId : Option String) : SyncEventReceipt where
  eventId := event.eventId
  state := .rejected
  revisionId := none
  serverHeadRevisionId := currentHead
  errorCode := some errorCode
  conflictingEntityId := conflictingEntityId

def validationErrorCode : String := "AI_STP_VALIDATION_ERROR"

def conflictErrorCode : String := "AI_STP_CONFLICT"

/-- The receipt of an event whose revision the account already holds. A revision that was retained
by a conflict and never delivered is still a conflict. -/
def knownRevisionReceipt (ledger : Ledger) (event : SyncEvent) : SyncEventReceipt :=
  let headId := ledger.head event.entityId
  if event.revisionId ∉ ledger.delivered ∧ headId ≠ some event.revisionId then
    { eventId := event.eventId
      state := .conflict
      revisionId := some event.revisionId
      serverHeadRevisionId := headId
      conflict := some
        { serverHeadRevisionId := headId.getD event.revisionId
          clientHeadRevisionId := event.expectedHeadRevisionId.getD event.revisionId
          commonAncestorRevisionId := none
          affectedFields := affectedFields event } }
  else
    { eventId := event.eventId
      state := .superseded
      revisionId := some event.revisionId
      serverHeadRevisionId := headId }

/-- The receipt of a revision that is stored but not accepted. -/
def conflictReceipt (ledger : Ledger) (event : SyncEvent) : SyncEventReceipt :=
  let currentHead := ledger.head event.entityId
  let clientHead :=
    event.expectedHeadRevisionId.getD (event.parentRevisionIds.head?.getD event.revisionId)
  let ancestor :=
    match currentHead, event.expectedHeadRevisionId with
    | some head, some expected => ledger.findCommonAncestor head expected
    | _, _ => none
  { eventId := event.eventId
    state := .conflict
    revisionId := some event.revisionId
    serverHeadRevisionId := currentHead
    conflict := some
      { serverHeadRevisionId :=
          currentHead.getD (event.expectedHeadRevisionId.getD event.revisionId)
        clientHeadRevisionId := clientHead
        commonAncestorRevisionId := ancestor
        affectedFields := affectedFields event } }

def acceptedReceipt (event : SyncEvent) (cursor : String) : SyncEventReceipt where
  eventId := event.eventId
  state := .accepted
  revisionId := some event.revisionId
  serverHeadRevisionId := some event.revisionId
  cursor := some cursor

/-- A parent is stored, and is a revision of the same entity and kind. -/
def parentKnown (ledger : Ledger) (event : SyncEvent) (parent : String) : Bool :=
  match ledger.revision? parent with
  | none => false
  | some row => row.entityId == event.entityId && row.entityKind == event.entityKind

/-- Two delivered events would share an event id. -/
def eventIdCollides (ledger : Ledger) (event : SyncEvent) (undelivered : List SyncRevision) :
    Bool :=
  let emitted := undelivered.map SyncRevision.eventId
  !decide emitted.Nodup || event.eventId ∈ emitted ||
    ledger.outbox.any fun row ↦ row.eventId ∈ event.eventId :: emitted

/-! ### Settling one event -/

section Settle

variable (platform : Platform) (secret : String) (session : Session)

/-- The last part of `_apply_one`: the transition is allowed, deliver and accept. -/
def settleAccept (ledger : Ledger) (event : SyncEvent) (createdAt : Identity.Moment) :
    SyncEventReceipt × Ledger :=
  let row := revisionFromEvent event createdAt
  let currentHead := ledger.head event.entityId
  match ledger.undeliveredAncestors event.parentRevisionIds with
  | none => (rejected event currentHead validationErrorCode none, ledger.addRevision row)
  | some undelivered =>
    if eventIdCollides ledger event undelivered then
      (rejected event currentHead validationErrorCode none, ledger)
    else
      let sequence := (ledger.deliverAll undelivered).nextSequence
      (acceptedReceipt event (platform.cursorToken secret session.accountId sequence),
        ledger.accept undelivered row)

/-- `_apply_one` after validation, without storing the receipt. -/
def settle (ledger : Ledger) (event : SyncEvent) :
    Except Failure (SyncEventReceipt × Ledger) :=
  if (ledger.revision? event.revisionId).isSome then
    .ok (knownRevisionReceipt ledger event, ledger)
  else
    let currentHead := ledger.head event.entityId
    let held := ledger.singletonIdentity event.entityKind
    if held.any (· ≠ event.entityId) then
      .ok (rejected event currentHead conflictErrorCode held, ledger)
    else if !event.parentRevisionIds.all (parentKnown ledger event) then
      .ok (rejected event currentHead validationErrorCode none, ledger)
    else
      match Identity.parseTimestamp platform event.createdAt with
      | none => .error .timestamp
      | some createdAt =>
        if !canAcceptHeadTransition currentHead event.expectedHeadRevisionId
            event.parentRevisionIds then
          .ok (conflictReceipt ledger event, ledger.addRevision (revisionFromEvent event createdAt))
        else
          .ok (settleAccept platform secret session ledger event createdAt)

/-- `_apply_one`. -/
def applyOne (ledger : Ledger) (event : SyncEvent) :
    Except Failure (SyncEventReceipt × Ledger) :=
  match requestFingerprint platform event with
  | none => .error .canonicalization
  | some fingerprint =>
    if event.deviceId ≠ session.deviceId then
      .error (.api .validation "event device_id must match session device")
    else if event.actorId ≠ session.accountId then
      .error (.api .validation "event actor_id must match account")
    else if !session.accountAvailable then
      .error (.api .authRequired "account is no longer available")
    else
      match ledger.receipt? event.idempotencyKey with
      | some existing =>
        if existing.requestFingerprint ≠ fingerprint then
          .error (.api .conflict "idempotency key reused with a different event")
        else .ok (existing.receipt, ledger)
      | none =>
        match validateEventDocument platform event with
        | .error _ =>
          let receipt := rejected event none validationErrorCode none
          .ok (receipt, ledger.storeReceipt event fingerprint receipt)
        | .ok () => do
          let (receipt, settled) ← settle platform secret session ledger event
          return (receipt, settled.storeReceipt event fingerprint receipt)

end Settle

/-! ### What settling can do -/

/-- What a settled event did to the ledger, receipts apart: nothing; or its revision is stored
without being accepted; or it is accepted after its undelivered ancestors. -/
inductive Outcome (platform : Platform) (secret : String) (session : Session) (ledger : Ledger)
    (event : SyncEvent) : SyncEventReceipt → Ledger → Prop where
  | unchanged (receipt : SyncEventReceipt) (hstate : receipt.state ≠ .accepted) :
    Outcome platform secret session ledger event receipt ledger
  | retained (receipt : SyncEventReceipt) (createdAt : Identity.Moment)
    (hstate : receipt.state ≠ .accepted)
    (hnew : ledger.revision? event.revisionId = none)
    (hparents : ∀ parent ∈ event.parentRevisionIds, parentKnown ledger event parent = true) :
    Outcome platform secret session ledger event receipt
      (ledger.addRevision (revisionFromEvent event createdAt))
  | accepted (createdAt : Identity.Moment) (undelivered : List SyncRevision) (cursor : String)
    (hnew : ledger.revision? event.revisionId = none)
    (hparents : ∀ parent ∈ event.parentRevisionIds, parentKnown ledger event parent = true)
    (htransition : canAcceptHeadTransition (ledger.head event.entityId)
      event.expectedHeadRevisionId event.parentRevisionIds = true)
    (hundelivered : ledger.undeliveredAncestors event.parentRevisionIds = some undelivered)
    (hids : eventIdCollides ledger event undelivered = false) :
    Outcome platform secret session ledger event (acceptedReceipt event cursor)
      (ledger.accept undelivered (revisionFromEvent event createdAt))

section Inversion

variable {platform : Platform} {secret : String} {session : Session} {ledger settled : Ledger}
  {event : SyncEvent} {receipt : SyncEventReceipt}

theorem knownRevisionReceipt_state (ledger : Ledger) (event : SyncEvent) :
    (knownRevisionReceipt ledger event).state ≠ .accepted := by
  simp only [knownRevisionReceipt]
  split_ifs <;> simp

theorem settleAccept_cases {createdAt : Identity.Moment}
    (hnew : ledger.revision? event.revisionId = none)
    (hparents : ∀ parent ∈ event.parentRevisionIds, parentKnown ledger event parent = true)
    (htransition : canAcceptHeadTransition (ledger.head event.entityId)
      event.expectedHeadRevisionId event.parentRevisionIds = true)
    (h : settleAccept platform secret session ledger event createdAt = (receipt, settled)) :
    Outcome platform secret session ledger event receipt settled := by
  simp only [settleAccept] at h
  cases hundelivered : ledger.undeliveredAncestors event.parentRevisionIds with
  | none =>
    simp only [hundelivered] at h
    obtain ⟨rfl, rfl⟩ := Prod.mk.inj h
    exact .retained _ createdAt (by simp [rejected]) hnew hparents
  | some undelivered =>
    simp only [hundelivered] at h
    split_ifs at h with hcollides
    · obtain ⟨rfl, rfl⟩ := Prod.mk.inj h
      exact .unchanged _ (by simp [rejected])
    · obtain ⟨rfl, rfl⟩ := Prod.mk.inj h
      exact .accepted createdAt undelivered _ hnew hparents htransition hundelivered
        (by simpa using hcollides)

/-- Every way through `settle` is one of the three outcomes. -/
theorem settle_cases (h : settle platform secret session ledger event = .ok (receipt, settled)) :
    Outcome platform secret session ledger event receipt settled := by
  simp only [settle] at h
  cases hmoment : Identity.parseTimestamp platform event.createdAt with
  | none =>
    simp only [hmoment] at h
    split_ifs at h
    · obtain ⟨rfl, rfl⟩ := Prod.mk.inj (Except.ok.inj h)
      exact .unchanged _ (knownRevisionReceipt_state ledger event)
    · obtain ⟨rfl, rfl⟩ := Prod.mk.inj (Except.ok.inj h)
      exact .unchanged _ (by simp [rejected])
    · obtain ⟨rfl, rfl⟩ := Prod.mk.inj (Except.ok.inj h)
      exact .unchanged _ (by simp [rejected])
  | some createdAt =>
    simp only [hmoment] at h
    split_ifs at h with hknown hheld hparents htransition
    · obtain ⟨rfl, rfl⟩ := Prod.mk.inj (Except.ok.inj h)
      exact .unchanged _ (knownRevisionReceipt_state ledger event)
    · obtain ⟨rfl, rfl⟩ := Prod.mk.inj (Except.ok.inj h)
      exact .unchanged _ (by simp [rejected])
    · obtain ⟨rfl, rfl⟩ := Prod.mk.inj (Except.ok.inj h)
      exact .unchanged _ (by simp [rejected])
    · obtain ⟨rfl, rfl⟩ := Prod.mk.inj (Except.ok.inj h)
      exact .retained _ createdAt (by simp [conflictReceipt]) (by simpa using hknown)
        (by simpa using hparents)
    · exact settleAccept_cases (by simpa using hknown) (by simpa using hparents)
        (by simpa using htransition) (Except.ok.inj h)

/-- A push that raises nothing answers with the stored receipt of its key, or settles the event
and stores its receipt. -/
theorem applyOne_cases
    (h : applyOne platform secret session ledger event = .ok (receipt, settled)) :
    ∃ fingerprint, requestFingerprint platform event = some fingerprint ∧
      ((∃ row, ledger.receipt? event.idempotencyKey = some row ∧
          row.requestFingerprint = fingerprint ∧ receipt = row.receipt ∧ settled = ledger) ∨
        (ledger.receipt? event.idempotencyKey = none ∧
          ∃ rows, Outcome platform secret session ledger event receipt rows ∧
            settled = rows.storeReceipt event fingerprint receipt)) := by
  simp only [applyOne] at h
  cases hfingerprint : requestFingerprint platform event with
  | none => simp [hfingerprint] at h
  | some fingerprint =>
    refine ⟨fingerprint, rfl, ?_⟩
    simp only [hfingerprint] at h
    split_ifs at h
    cases hreceipt : ledger.receipt? event.idempotencyKey with
    | some row =>
      simp only [hreceipt] at h
      split_ifs at h with hsame
      obtain ⟨rfl, rfl⟩ := Prod.mk.inj (Except.ok.inj h)
      exact Or.inl ⟨row, rfl, not_not.mp hsame, rfl, rfl⟩
    | none =>
      simp only [hreceipt] at h
      refine Or.inr ⟨rfl, ?_⟩
      cases hvalid : validateEventDocument platform event with
      | error refusal =>
        simp only [hvalid] at h
        obtain ⟨rfl, rfl⟩ := Prod.mk.inj (Except.ok.inj h)
        exact ⟨ledger, .unchanged _ (by simp [rejected]), rfl⟩
      | ok _ =>
        simp only [hvalid] at h
        cases hsettle : settle platform secret session ledger event with
        | error failure => simp [hsettle, bind, Except.bind] at h
        | ok result =>
          obtain ⟨receipt', rows⟩ := result
          simp only [hsettle, bind, Except.bind, pure, Except.pure] at h
          obtain ⟨rfl, rfl⟩ := Prod.mk.inj (Except.ok.inj h)
          exact ⟨rows, settle_cases hsettle, rfl⟩

end Inversion

/-! ### Runs -/

/-- One push of one event by one session. -/
structure Push where
  session : Session
  event : SyncEvent
deriving DecidableEq, Repr

section Runs

variable (platform : Platform) (secret : String)

/-- The ledger after one push. A raised error rolls its transaction back. -/
def push (ledger : Ledger) (action : Push) : Ledger :=
  match applyOne platform secret action.session ledger action.event with
  | .ok (_, settled) => settled
  | .error _ => ledger

/-- What the pusher is answered. -/
def answer (ledger : Ledger) (action : Push) : Except Failure SyncEventReceipt :=
  (applyOne platform secret action.session ledger action.event).map Prod.fst

/-- `push_events`: the events of one request in order; an error ends the request and keeps what
earlier events committed. -/
def pushEvents (session : Session) :
    Ledger → List SyncEvent → Except Failure (List SyncEventReceipt) × Ledger
  | ledger, [] => (.ok [], ledger)
  | ledger, event :: events =>
    match applyOne platform secret session ledger event with
    | .error failure => (.error failure, ledger)
    | .ok (receipt, settled) =>
      let (receipts, final) := pushEvents session settled events
      (receipts.map (receipt :: ·), final)

/-- The ledger after a run of pushes from an account that has pushed nothing. -/
def reached (pushes : List Push) : Ledger :=
  Library.Runs.run (push platform secret) Ledger.empty pushes

end Runs

end AiStp.Sync.Server
