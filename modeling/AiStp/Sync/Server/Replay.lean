import AiStp.Sync.Server.Outbox

/-!
# Replays on the server

A receipt is stored once for each idempotency key and is never changed. An event pushed again under
its key is therefore answered with the stored receipt and writes nothing, whatever was pushed in
between; the server recognizes the event by the digest of its canonical content. Another content
under the key is refused (`push_replayed`). Delivered event ids and revisions are unique
(`reached_eventIds`). Two spellings of one canonical content are one event to the server
(`respelled_event_answered`).
-/

set_option autoImplicit false

namespace AiStp.Sync.Server

open Library Foundation

/-! ### Receipts are kept -/

section Receipts

variable {platform : Platform} {secret : String} {session : Session} {ledger settled : Ledger}
  {event : SyncEvent} {receipt : SyncEventReceipt}

@[simp] theorem Ledger.receipts_deliverAll (ledger : Ledger) (rows : List SyncRevision) :
    (ledger.deliverAll rows).receipts = ledger.receipts := by
  induction rows generalizing ledger with
  | nil => rfl
  | cons row rows ih => exact ih (ledger.deliver row)

theorem Outcome.receipts (h : Outcome platform secret session ledger event receipt settled) :
    settled.receipts = ledger.receipts := by
  cases h with
  | unchanged _ _ => rfl
  | retained _ _ _ _ _ => rfl
  | accepted createdAt undelivered _ _ _ _ _ _ => exact ledger.receipts_deliverAll undelivered

theorem Ledger.receipt?_storeReceipt (ledger : Ledger) (event : SyncEvent)
    (fingerprint : String) (receipt : SyncEventReceipt) (key : String) :
    (ledger.storeReceipt event fingerprint receipt).receipt? key =
      (ledger.receipt? key).or (if event.idempotencyKey = key then
        some { idempotencyKey := event.idempotencyKey, requestFingerprint := fingerprint,
               deviceId := event.deviceId, receipt := receipt }
      else none) := by
  simp only [Ledger.receipt?, Ledger.storeReceipt, List.find?_append]
  congr 1
  split_ifs with hkey <;> simp [hkey]

/-- A push never changes the receipt of a used key. -/
theorem receipt?_push (platform : Platform) (secret : String) (ledger : Ledger) (action : Push)
    {key : String} {row : SyncEventReceiptRow} (h : ledger.receipt? key = some row) :
    (push platform secret ledger action).receipt? key = some row := by
  unfold push
  cases hresult : applyOne platform secret action.session ledger action.event with
  | error failure => exact h
  | ok result =>
    obtain ⟨receipt, settled⟩ := result
    obtain ⟨fingerprint, -, ⟨_, -, -, -, rfl⟩ | ⟨-, rows, houtcome, rfl⟩⟩ := applyOne_cases hresult
    · exact h
    · have hrows : rows.receipt? key = some row := by
        rw [Ledger.receipt?, houtcome.receipts]
        exact h
      rw [Ledger.receipt?_storeReceipt, hrows]
      rfl

theorem receipt?_run (platform : Platform) (secret : String) (ledger : Ledger)
    (pushes : List Push) {key : String} {row : SyncEventReceiptRow}
    (h : ledger.receipt? key = some row) :
    (Library.Runs.run (push platform secret) ledger pushes).receipt? key = some row :=
  Library.Runs.run_invariant (fun between action ↦ receipt?_push platform secret between action)
    ledger h pushes

/-- An answered push leaves its receipt under its key, with the fingerprint of its event. -/
theorem receipt?_of_answer {action : Push}
    (h : answer platform secret ledger action = .ok receipt) :
    ∃ row, (push platform secret ledger action).receipt? action.event.idempotencyKey = some row ∧
      requestFingerprint platform action.event = some row.requestFingerprint ∧
      row.receipt = receipt := by
  unfold answer at h
  unfold push
  cases hresult : applyOne platform secret action.session ledger action.event with
  | error failure =>
    rw [hresult] at h
    exact absurd h (by simp [Except.map])
  | ok result =>
    obtain ⟨receipt', settled⟩ := result
    rw [hresult] at h
    obtain rfl : receipt' = receipt := Except.ok.inj h
    obtain ⟨fingerprint, hfingerprint, ⟨row, hrow, hsame, rfl, rfl⟩ | ⟨hnone, rows, houtcome, rfl⟩⟩ :=
      applyOne_cases hresult
    · exact ⟨row, hrow, hsame ▸ hfingerprint, rfl⟩
    · have hrows : rows.receipt? action.event.idempotencyKey = none := by
        rw [Ledger.receipt?, houtcome.receipts]
        exact hnone
      let row : SyncEventReceiptRow :=
        { idempotencyKey := action.event.idempotencyKey, requestFingerprint := fingerprint,
          deviceId := action.event.deviceId, receipt := receipt' }
      refine ⟨row, ?_, hfingerprint, rfl⟩
      rw [Ledger.receipt?_storeReceipt, hrows, if_pos rfl]
      rfl

end Receipts

/-! ### Replays -/

section Replay

variable (platform : Platform) (secret : String) {ledger : Ledger} {action : Push}
  {row : SyncEventReceiptRow}

/-- The session may push the event: its device, its account, and an account that still exists. -/
def Session.mayPush (session : Session) (event : SyncEvent) : Prop :=
  session.deviceId = event.deviceId ∧ session.accountId = event.actorId ∧
    session.accountAvailable = true

/-- The stored receipt answers an event of the same fingerprint. -/
theorem push_known_key (hrow : ledger.receipt? action.event.idempotencyKey = some row)
    (hsame : requestFingerprint platform action.event = some row.requestFingerprint) :
    push platform secret ledger action = ledger ∧
      (action.session.mayPush action.event →
        answer platform secret ledger action = .ok row.receipt) := by
  constructor
  · unfold push
    cases hresult : applyOne platform secret action.session ledger action.event with
    | error failure => rfl
    | ok result =>
      obtain ⟨receipt, settled⟩ := result
      obtain ⟨fingerprint, -, ⟨_, -, -, -, rfl⟩ | ⟨hnone, -⟩⟩ := applyOne_cases hresult
      · rfl
      · rw [hrow] at hnone
        exact absurd hnone (by simp)
  · rintro ⟨hdevice, haccount, havailable⟩
    simp [answer, applyOne, hsame, hrow, hdevice, haccount, havailable, Except.map]

/-- Another fingerprint under a used key is refused. -/
theorem push_other_fingerprint (hrow : ledger.receipt? action.event.idempotencyKey = some row)
    (hother : requestFingerprint platform action.event ≠ some row.requestFingerprint) :
    push platform secret ledger action = ledger ∧
      ∃ failure, answer platform secret ledger action = .error failure := by
  unfold push answer
  cases hresult : applyOne platform secret action.session ledger action.event with
  | error failure => exact ⟨rfl, failure, rfl⟩
  | ok result =>
    obtain ⟨receipt, settled⟩ := result
    obtain ⟨fingerprint, hfingerprint, ⟨stored, hstored, hsame, -, -⟩ | ⟨hnone, -⟩⟩ :=
      applyOne_cases hresult
    · rw [hrow] at hstored
      obtain rfl := Option.some.inj hstored
      exact absurd (hsame ▸ hfingerprint) hother
    · rw [hrow] at hnone
      exact absurd hnone (by simp)

end Replay

/-! ### Event ids -/

/-- Delivered event ids are unique. -/
def Ledger.EventIdsUnique (ledger : Ledger) : Prop :=
  (ledger.outbox.map fun row ↦ row.eventId).Nodup

theorem Ledger.eventIds_eq (ledger : Ledger) :
    (ledger.outbox.map fun row ↦ row.eventId) = ledger.stream.map SyncRevision.eventId := by
  simp [Ledger.stream]

theorem push_eventIds {platform : Platform} {secret : String} (ledger : Ledger) (action : Push)
    (h : ledger.EventIdsUnique) : (push platform secret ledger action).EventIdsUnique := by
  unfold push
  cases hresult : applyOne platform secret action.session ledger action.event with
  | error failure => exact h
  | ok result =>
    obtain ⟨receipt, settled⟩ := result
    obtain ⟨fingerprint, -, ⟨_, -, -, -, rfl⟩ | ⟨-, rows, houtcome, rfl⟩⟩ := applyOne_cases hresult
    · exact h
    · cases houtcome with
      | unchanged _ _ => exact h
      | retained _ _ _ _ _ => exact h
      | accepted createdAt undelivered _ _ _ _ _ hids =>
        change (ledger.accept undelivered
          (revisionFromEvent action.event createdAt)).EventIdsUnique
        unfold Ledger.EventIdsUnique at h ⊢
        rw [Ledger.eventIds_eq] at h ⊢
        rw [Ledger.stream_accept]
        simp only [eventIdCollides, Bool.or_eq_false_iff, Bool.not_eq_false', decide_eq_true_eq,
          decide_eq_false_iff_not, List.any_eq_false] at hids
        obtain ⟨⟨hnodup, hfresh⟩, hprior⟩ := hids
        have hnew : ∀ eventId ∈ ledger.stream.map SyncRevision.eventId,
            eventId ∉ action.event.eventId :: undelivered.map SyncRevision.eventId := by
          intro eventId hdelivered
          rw [← Ledger.eventIds_eq] at hdelivered
          obtain ⟨row, hrow, rfl⟩ := List.mem_map.mp hdelivered
          exact hprior row hrow
        simp only [List.map_append, List.map_cons, List.map_nil]
        refine List.nodup_append.mpr ⟨List.nodup_append.mpr ⟨h, hnodup, ?_⟩, by simp, ?_⟩
        · intro left hleft right hright heq
          exact hnew left hleft (List.mem_cons_of_mem _ (heq ▸ hright))
        · intro left hleft right hright heq
          obtain rfl : right = action.event.eventId := by simpa [revisionFromEvent] using hright
          rcases List.mem_append.mp hleft with hdelivered | hlisted
          · exact hnew left hdelivered (heq ▸ List.mem_cons_self)
          · exact hfresh (heq ▸ hlisted)

theorem reached_eventIds (platform : Platform) (secret : String) (pushes : List Push) :
    (reached platform secret pushes).EventIdsUnique := by
  have hempty : Ledger.empty.EventIdsUnique := List.nodup_nil
  exact Library.Runs.run_invariant push_eventIds _ hempty pushes

/-! ### The idempotency contract -/

/-- The digest tells the canonical contents of two events apart. -/
def DigestSeparates (platform : Platform) (left right : SyncEvent) : Prop :=
  ∀ leftBytes rightBytes, Canonical.canonize platform left.document = some leftBytes →
    Canonical.canonize platform right.document = some rightBytes →
    platform.sha256 Canonical.revisionDomain leftBytes =
      platform.sha256 Canonical.revisionDomain rightBytes →
    leftBytes = rightBytes

theorem requestFingerprint_congr {platform : Platform} {left right : SyncEvent}
    (h : Canonical.canonize platform left.document = Canonical.canonize platform right.document) :
    requestFingerprint platform left = requestFingerprint platform right := by
  unfold requestFingerprint
  rw [h]

theorem canonize_eq_of_requestFingerprint {platform : Platform} {left right : SyncEvent}
    {fingerprint : String} (hdigest : DigestSeparates platform left right)
    (hleft : requestFingerprint platform left = some fingerprint)
    (hright : requestFingerprint platform right = some fingerprint) :
    Canonical.canonize platform left.document = Canonical.canonize platform right.document := by
  obtain ⟨leftBytes, hleftBytes, rfl⟩ := Option.map_eq_some_iff.mp hleft
  obtain ⟨rightBytes, hrightBytes, hsame⟩ := Option.map_eq_some_iff.mp hright
  rw [hleftBytes, hrightBytes, hdigest leftBytes rightBytes hleftBytes hrightBytes hsame.symm]

/-- Let a push be answered in a reached ledger, and let anything be pushed after it. Pushing an
event of the same canonical content under the same key then changes nothing and is answered with
the receipt first stored; an event of another canonical content under the key changes nothing and
is refused. No event id and no revision is delivered twice. -/
theorem push_replayed (platform : Platform) (secret : String) (pushes between : List Push)
    (first again : Push) (receipt : SyncEventReceipt)
    (hkey : again.event.idempotencyKey = first.event.idempotencyKey)
    (hfirst : answer platform secret (reached platform secret pushes) first = .ok receipt)
    (hdigest : DigestSeparates platform again.event first.event) :
    let later := reached platform secret (pushes ++ first :: between)
    push platform secret later again = later ∧
    (Canonical.canonize platform again.event.document =
        Canonical.canonize platform first.event.document →
      again.session.mayPush again.event → answer platform secret later again = .ok receipt) ∧
    (Canonical.canonize platform again.event.document ≠
        Canonical.canonize platform first.event.document →
      ∃ failure, answer platform secret later again = .error failure) ∧
    (later.outbox.map fun row ↦ row.eventId).Nodup ∧ later.delivered.Nodup := by
  intro later
  obtain ⟨row, hrow, hfingerprint, rfl⟩ := receipt?_of_answer hfirst
  have hlater : later.receipt? again.event.idempotencyKey = some row := by
    rw [hkey]
    have hrun := receipt?_run platform secret _ between hrow
    rwa [← Library.Runs.run_cons, reached, ← Library.Runs.run_append] at hrun
  have hunique : (later.outbox.map fun row ↦ row.eventId).Nodup :=
    reached_eventIds platform secret _
  have hdelivered : later.delivered.Nodup := by
    rw [Ledger.delivered_eq]
    exact (reached_sound platform secret _).stream_nodup
  by_cases hsame : requestFingerprint platform again.event = some row.requestFingerprint
  · have hreplay := push_known_key platform secret hlater hsame
    refine ⟨hreplay.1, fun _ ↦ hreplay.2, ?_, hunique, hdelivered⟩
    intro hother
    exact absurd (canonize_eq_of_requestFingerprint hdigest hsame hfingerprint) hother
  · have hrefused := push_other_fingerprint platform secret hlater hsame
    refine ⟨hrefused.1, ?_, fun _ ↦ hrefused.2, hunique, hdelivered⟩
    intro hcontent
    exact absurd ((requestFingerprint_congr hcontent).trans hfingerprint) hsame

/-! ### One account, two spellings -/

namespace Spelling

def session : Session where
  accountId := "account_01ARZ3NDEKTSV4RRFFQ69G5FAV"
  deviceId := "device_01ARZ3NDEKTSV4RRFFQ69G5FAV"
  accountAvailable := true

/-- The first revision of a developer passport entity, sealed over its payload. -/
def event (number : Number) : SyncEvent where
  eventId := "event-0001"
  entityId := "developer_01ARZ3NDEKTSV4RRFFQ69G5FAV"
  entityKind := .developerPassport
  revisionId := "revision_330cadc1bc43184ceb3a6aa7e422b6647361cf8fcdc51fb5f3395dc56d77450b"
  parentRevisionIds := []
  deviceId := "device_01ARZ3NDEKTSV4RRFFQ69G5FAV"
  actorId := "account_01ARZ3NDEKTSV4RRFFQ69G5FAV"
  operation := .upsert
  contentDigest := "sha256:09b0d8c20dc836afc4db0c3543c452406c46a277d3647848117755e91f2bf53f"
  createdAt := "2026-01-01T00:00:00.000Z"
  idempotencyKey := "key-000000000001"
  expectedHeadRevisionId := none
  payload := [("n", .number number)]

def integerPush : Push := ⟨session, event (.integer 1)⟩

/-- The same number written as a float. -/
def floatPush : Push := ⟨session, event (.float "1")⟩

def receipt : SyncEventReceipt :=
  acceptedReceipt integerPush.event (asciiPlatform.cursorToken "secret" session.accountId 1)

/-- The events differ and are written alike, and both get the receipt of the first. -/
theorem spelling_facts :
    (floatPush.event ≠ integerPush.event ∧
      Canonical.canonize asciiPlatform floatPush.event.document =
        Canonical.canonize asciiPlatform integerPush.event.document) ∧
    answer asciiPlatform "secret" Ledger.empty integerPush = .ok receipt ∧
      answer asciiPlatform "secret" (push asciiPlatform "secret" Ledger.empty integerPush)
        floatPush = .ok receipt := by
  decide +kernel

end Spelling

/-- `push_replayed` at an accepted event and its other spelling. -/
theorem push_replayed_spelling :
    let later := reached asciiPlatform "secret" ([] ++ Spelling.integerPush :: [])
    push asciiPlatform "secret" later Spelling.floatPush = later ∧
      (Canonical.canonize asciiPlatform Spelling.floatPush.event.document =
          Canonical.canonize asciiPlatform Spelling.integerPush.event.document →
        Spelling.floatPush.session.mayPush Spelling.floatPush.event →
        answer asciiPlatform "secret" later Spelling.floatPush = .ok Spelling.receipt) := by
  have hkey : Spelling.floatPush.event.idempotencyKey =
      Spelling.integerPush.event.idempotencyKey := rfl
  obtain ⟨⟨-, hcontent⟩, hfirst, -⟩ := Spelling.spelling_facts
  have hdigest : DigestSeparates asciiPlatform Spelling.floatPush.event
      Spelling.integerPush.event := by
    intro leftBytes rightBytes hleft hright _
    rw [hcontent, hright] at hleft
    exact (Option.some.inj hleft).symm
  have hreplayed := push_replayed asciiPlatform "secret" [] [] Spelling.integerPush
    Spelling.floatPush Spelling.receipt hkey hfirst hdigest
  exact ⟨hreplayed.1, hreplayed.2.1⟩

/-- Two different events under one key, the second of which is not refused: it is answered with
the acceptance of the first. -/
theorem respelled_event_answered :
    Spelling.floatPush.event ≠ Spelling.integerPush.event ∧
      Spelling.floatPush.event.idempotencyKey = Spelling.integerPush.event.idempotencyKey ∧
      answer asciiPlatform "secret"
        (push asciiPlatform "secret" Ledger.empty Spelling.integerPush) Spelling.floatPush =
          .ok Spelling.receipt := by
  obtain ⟨⟨hevents, -⟩, -, hanswered⟩ := Spelling.spelling_facts
  exact ⟨hevents, rfl, hanswered⟩

end AiStp.Sync.Server
