import AiStp.Sync.Client.Device

/-!
# Revoked consents

A consent is one of an account's scope and target. A delivered event decides on it when it is new,
names it and is or becomes the remote head of its entity; a decision to grant clears the revocation
whatever this device recorded in the meantime. After a page a revoked consent is still revoked
exactly when the last decision on it, if there is one, revokes it (`revoked_of_page`).
-/

set_option autoImplicit false

namespace AiStp.Sync.Client

open Library Foundation AiStp.Client

/-! ### The consent table -/

/-- The row is the consent of a scope and target. -/
def ConsentRow.isFor (row : ConsentRow) (consentScope target : String) : Prop :=
  row.scope = consentScope ∧ row.target = target

instance (row : ConsentRow) (consentScope target : String) :
    Decidable (row.isFor consentScope target) :=
  inferInstanceAs (Decidable (_ ∧ _))

/-- The consent is recorded. -/
def Recorded (rows : List ConsentRow) (consentScope target : String) : Prop :=
  ∃ row ∈ rows, row.isFor consentScope target

/-- The consent is recorded and revoked. -/
def Revoked (rows : List ConsentRow) (consentScope target : String) : Prop :=
  Recorded rows consentScope target ∧
    ∀ row ∈ rows, row.isFor consentScope target → row.revokedAt ≠ none

instance (rows : List ConsentRow) (consentScope target : String) :
    Decidable (Revoked rows consentScope target) :=
  inferInstanceAs (Decidable ((∃ row ∈ rows, _) ∧ ∀ row ∈ rows, _ → _))

section Rows

variable {rows : List ConsentRow} {consentScope target : String}

/-- Changing rows of another consent changes nothing about this one. -/
theorem revoked_of_map {change : ConsentRow → ConsentRow}
    (hfor : ∀ row, (change row).isFor consentScope target ↔ row.isFor consentScope target)
    (hchange : ∀ row, row.isFor consentScope target → change row = row) :
    (Recorded (rows.map change) consentScope target ↔ Recorded rows consentScope target) ∧
      (Revoked (rows.map change) consentScope target ↔ Revoked rows consentScope target) := by
  have hrecorded : Recorded (rows.map change) consentScope target ↔
      Recorded rows consentScope target := by
    simp only [Recorded, List.mem_map, exists_exists_and_eq_and, hfor]
  refine ⟨hrecorded, and_congr hrecorded ?_⟩
  simp only [List.forall_mem_map, hfor]
  refine forall₃_congr fun row _ hrow ↦ ?_
  rw [hchange row hrow]

/-- A revocation revokes the recorded consent that it names. -/
theorem revoked_of_revocation (at_ : String) (h : Recorded rows consentScope target) :
    Revoked (rows.map fun row ↦
      if row.scope = consentScope ∧ row.target = target ∧ row.revokedAt = none then
        { row with revokedAt := some at_ }
      else row) consentScope target := by
  obtain ⟨row, hrow, hfor⟩ := h
  constructor
  · refine ⟨_, List.mem_map_of_mem hrow, ?_⟩
    split_ifs
    · exact hfor
    · exact hfor
  · rw [List.forall_mem_map]
    intro other _
    split_ifs with hopen
    · intro _ hnone
      cases hnone
    · intro hother hnone
      exact hopen ⟨hother.1, hother.2, hnone⟩

/-- A new row of another consent changes nothing about this one. -/
theorem revoked_of_append {row : ConsentRow} (hrow : ¬ row.isFor consentScope target) :
    (Recorded (rows ++ [row]) consentScope target ↔ Recorded rows consentScope target) ∧
      (Revoked (rows ++ [row]) consentScope target ↔ Revoked rows consentScope target) := by
  have hrecorded : Recorded (rows ++ [row]) consentScope target ↔
      Recorded rows consentScope target := by
    simp [Recorded, or_and_right, exists_or, hrow]
  refine ⟨hrecorded, and_congr hrecorded ?_⟩
  simp [or_imp, forall_and, hrow]

end Rows

section Effects

variable {scope : Scope} {platform : Platform} {replica settled : Replica} {event : Event}
  {consentScope target : String}

/-- The event names the consent. -/
def Event.names (event : Event) (consentScope target : String) : Prop :=
  event.payload.index "scope" = .string consentScope ∧
    event.payload.index "target" = .string target

instance (event : Event) (consentScope target : String) :
    Decidable (event.names consentScope target) :=
  inferInstanceAs (Decidable (_ ∧ _))

theorem index_of_payloadText {payload : Json} {key text : String}
    (h : payloadText payload key = .ok text) : payload.index key = .string text := by
  have htext := present_eq_ok.mp h
  cases hvalue : payload.index key with
  | string value =>
    rw [hvalue] at htext
    rw [Option.some.inj htext]
  | null | bool | number | array | object => simp [hvalue, Json.asString?] at htext

/-- The consent of a grant is the one that its event names. -/
theorem consentOf_cases {row : ConsentRow} (h : consentOf platform event = .ok row) :
    event.names row.scope row.target ∧ row.revokedAt = none := by
  simp only [consentOf, bind_eq_ok] at h
  obtain ⟨_, -, _, -, _, -, consentScope, hscope, target, htarget, _, -, _, -, _, -, _, -, h⟩ := h
  rw [← Except.ok.inj h]
  exact ⟨⟨index_of_payloadText hscope, index_of_payloadText htarget⟩, rfl⟩

theorem names_unique {otherScope otherTarget : String} (h : event.names consentScope target)
    (hother : event.names otherScope otherTarget) :
    consentScope = otherScope ∧ target = otherTarget :=
  ⟨Json.string.inj (h.1.symm.trans hother.1), Json.string.inj (h.2.symm.trans hother.2)⟩

/-- A grant opens its own consent and leaves the others alone. -/
theorem revoked_of_grant {row : ConsentRow} (hgranted : row.revokedAt = none)
    (h : replica.grant row = .ok settled)
    (hrecorded : Recorded replica.consents consentScope target) :
    Recorded settled.consents consentScope target ∧
      (Revoked settled.consents consentScope target ↔
        ¬ row.isFor consentScope target ∧ Revoked replica.consents consentScope target) := by
  unfold Replica.grant at h
  split_ifs at h with _ hknown
  · rw [← Except.ok.inj h]
    by_cases hsame : row.isFor consentScope target
    · obtain ⟨rfl, rfl⟩ := hsame
      obtain ⟨other, hother, hfor⟩ := hrecorded
      have hmem : row ∈ replica.consents.map fun other ↦
          if other.scope = row.scope ∧ other.target = row.target then row else other :=
        List.mem_map.mpr ⟨other, hother, if_pos hfor⟩
      refine ⟨⟨row, hmem, rfl, rfl⟩, iff_of_false ?_ ?_⟩
      · intro hrevoked
        exact hrevoked.2 row hmem ⟨rfl, rfl⟩ hgranted
      · intro hboth
        exact hboth.1 ⟨rfl, rfl⟩
    · have hother : ∀ other : ConsentRow, other.isFor consentScope target →
          ¬ (other.scope = row.scope ∧ other.target = row.target) := by
        rintro other ⟨rfl, rfl⟩ ⟨hsameScope, hsameTarget⟩
        exact hsame ⟨hsameScope.symm, hsameTarget.symm⟩
      have hfor : ∀ other : ConsentRow,
          (if other.scope = row.scope ∧ other.target = row.target then row else other).isFor
            consentScope target ↔ other.isFor consentScope target := by
        intro other
        split_ifs with hnamed
        · exact iff_of_false hsame fun hthis ↦ hother other hthis hnamed
        · rfl
      have hkept : ∀ other : ConsentRow, other.isFor consentScope target →
          (if other.scope = row.scope ∧ other.target = row.target then row else other) = other :=
        fun other hthis ↦ if_neg (hother other hthis)
      exact ⟨(revoked_of_map hfor hkept).1.mpr hrecorded,
        (revoked_of_map hfor hkept).2.trans (by simp [hsame])⟩
  · rw [← Except.ok.inj h]
    have hsame : ¬ row.isFor consentScope target := by
      rintro ⟨rfl, rfl⟩
      obtain ⟨other, hother, hfor⟩ := hrecorded
      exact hknown (List.any_eq_true.mpr ⟨other, hother, decide_eq_true hfor⟩)
    exact ⟨(revoked_of_append hsame).1.mpr hrecorded,
      (revoked_of_append hsame).2.trans (by simp [hsame])⟩

/-- A consent event leaves the other consents alone, and decides on the one it names. -/
theorem consent_decides (h : consent platform replica event = .ok settled)
    (hrecorded : Recorded replica.consents consentScope target) :
    Recorded settled.consents consentScope target ∧
      (Revoked settled.consents consentScope target ↔
        if event.names consentScope target then event.operation = .tombstone
        else Revoked replica.consents consentScope target) := by
  unfold consent at h
  split at h
  · next hoperation =>
    simp only [bind_eq_ok] at h
    obtain ⟨_, -, namedScope, hscope, namedTarget, htarget, h⟩ := h
    have hnames : event.names namedScope namedTarget :=
      ⟨index_of_payloadText hscope, index_of_payloadText htarget⟩
    rw [← Except.ok.inj h, Replica.revoke]
    by_cases hsame : event.names consentScope target
    · obtain ⟨rfl, rfl⟩ := names_unique hnames hsame
      have hrevoked := revoked_of_revocation
        ((event.payload.index "revoked_at").asString?.getD event.createdAt) hrecorded
      rw [if_pos hsame]
      exact ⟨hrevoked.1, iff_of_true hrevoked hoperation⟩
    · rw [if_neg hsame]
      refine (revoked_of_map ?_ ?_).imp (fun hsameRecord ↦ hsameRecord.mpr hrecorded) id
      · intro row
        split_ifs
        · exact Iff.rfl
        · exact Iff.rfl
      · intro row hrow
        refine if_neg ?_
        rintro ⟨hrowScope, hrowTarget, -⟩
        rw [← hrow.1, ← hrow.2, hrowScope, hrowTarget] at hsame
        exact hsame hnames
  · next hoperation =>
    obtain ⟨row, hrow, h⟩ := bind_eq_ok.mp h
    obtain ⟨hnames, hgranted⟩ := consentOf_cases hrow
    obtain ⟨hrecord, hrevoked⟩ := revoked_of_grant hgranted h hrecorded
    refine ⟨hrecord, hrevoked.trans ?_⟩
    by_cases hsame : event.names consentScope target
    · obtain ⟨rfl, rfl⟩ := names_unique hnames hsame
      rw [if_pos hsame, hoperation]
      simp [ConsentRow.isFor]
    · have hother : ¬ row.isFor consentScope target := by
        rintro ⟨rfl, rfl⟩
        exact hsame hnames
      rw [if_neg hsame]
      simp [hother]

end Effects

/-! ### The decisions of a page -/

section Decisions

variable (scope : Scope) (consentScope target : String)

/-- The event is new, is or becomes the remote head of its entity, and names the consent. -/
def decides (replica : Replica) (event : Event) : Prop :=
  matching replica event = [] ∧ event.entityKind = .unverifiedConsent ∧
    lands scope replica event = true ∧ event.names consentScope target

instance (replica : Replica) (event : Event) :
    Decidable (decides scope consentScope target replica event) :=
  inferInstanceAs (Decidable (_ ∧ _ ∧ _ ∧ _))

/-- The last event of a page that decides on the consent at its turn. -/
def lastDecision (replica : Replica) (items : List Json) : Option Event :=
  alongPage scope (fun replica event last ↦
    if decides scope consentScope target replica event then some event else last)
    replica none items

/-- The consent is recorded, and revoked exactly when the last decision revokes it. -/
def Standing (replica : Replica) (last : Option Event) : Prop :=
  Recorded replica.consents consentScope target ∧
    (Revoked replica.consents consentScope target ↔
      ∀ event, last = some event → event.operation = .tombstone)

variable {scope consentScope target} {replica settled : Replica} {event : Event}

/-- Only a new event that is the head afterwards may touch the consents. -/
theorem applyEvent_consents {replayed : Bool}
    (hvalid : event.validate scope.platform scope.account = .ok ())
    (h : applyEvent scope replica event = .ok (settled, replayed)) :
    (¬ (matching replica event = [] ∧ event.entityKind = .unverifiedConsent ∧
          lands scope replica event = true) ∧ settled.consents = replica.consents) ∨
      (matching replica event = [] ∧ event.entityKind = .unverifiedConsent ∧
          lands scope replica event = true) ∧
        ∃ advanced : Replica, advanced.consents = replica.consents ∧
          consent scope.platform advanced event = .ok settled := by
  have heffect := applyEvent_effect hvalid h
  have hadvance : ∀ {taken advanced : Replica}, advance scope taken event = .ok advanced →
      advanced.consents = taken.consents := by
    intro taken advanced hadvanced
    rw [advance_cases hadvanced]
    split_ifs
    · rfl
    · rfl
  rcases applyEvent_cases hvalid h with
    ⟨row, kept, received, -, hknown, hkept, hreceived, hadvanced⟩ |
      ⟨-, hfresh, localRevisionId, stored, body, advanced, hstored, hbody, hadvanced, hconsent⟩
  · refine Or.inl ⟨?_, ?_⟩
    · rintro ⟨hfresh, -⟩
      have hmem : row ∈ matching replica event :=
        List.mem_filter.mpr ⟨hknown.recorded, decide_eq_true (Or.inr hknown.revisionId)⟩
      rw [hfresh] at hmem
      cases hmem
    · rw [hadvance hadvanced, (sameLedger_of_receiveBindings hreceived).consents]
      rcases acceptDelivered_cases hknown hkept with ⟨-, rfl⟩ | ⟨-, content, hwritten⟩
      · rfl
      · simp only at hwritten
        rw [hwritten]
        split_ifs
        · rfl
        · rfl
  · have hsame : advanced.consents = replica.consents :=
      (hadvance hadvanced).trans (sameLedger_of_storePassport hstored).consents
    have hheads : settled.remoteHeads = advanced.remoteHeads := by
      rw [applyConsent_cases hconsent]
    have hlands : advanced.remoteHead event.entityId = some event.revisionId ↔
        lands scope replica event = true := by
      rw [Replica.remoteHead, ← hheads]
      exact heffect.head_iff_lands
    unfold applyConsent at hconsent
    split_ifs at hconsent with hcurrent
    · exact Or.inr ⟨⟨hfresh, hcurrent.1, hlands.mp hcurrent.2⟩, advanced, hsame, hconsent⟩
    · refine Or.inl ⟨?_, ?_⟩
      · rintro ⟨-, hkind, hlanded⟩
        exact hcurrent ⟨hkind, hlands.mpr hlanded⟩
      · rw [← Except.ok.inj hconsent]
        exact hsame

/-- One delivered event keeps the standing of a consent with its last decision. -/
theorem standing_of_event {last : Option Event} {replayed : Bool}
    (hstanding : Standing consentScope target replica last)
    (hvalid : event.validate scope.platform scope.account = .ok ())
    (h : applyEvent scope replica event = .ok (settled, replayed)) :
    Standing consentScope target settled
      (if decides scope consentScope target replica event then some event else last) := by
  obtain ⟨hrecorded, hrevoked⟩ := hstanding
  rcases applyEvent_consents hvalid h with ⟨hnot, hsame⟩ | ⟨hdecides, advanced, hsame, hconsent⟩
  · rw [if_neg fun hall ↦ hnot ⟨hall.1, hall.2.1, hall.2.2.1⟩]
    unfold Standing
    rw [hsame]
    exact ⟨hrecorded, hrevoked⟩
  · rw [← hsame] at hrecorded hrevoked
    obtain ⟨hrecord, hdecided⟩ := consent_decides hconsent hrecorded
    refine ⟨hrecord, hdecided.trans ?_⟩
    by_cases hnames : event.names consentScope target
    · rw [if_pos hnames, if_pos ⟨hdecides.1, hdecides.2.1, hdecides.2.2, hnames⟩]
      simp
    · rw [if_neg hnames, if_neg fun hall ↦ hnames hall.2.2.2]
      exact hrevoked

/-- After a page a revoked consent is revoked exactly when the last decision on it revokes it. -/
theorem revoked_of_page {response : Json} {expectedCursor : Option String} {pageSize : Nat}
    {skip : List String} {at_ : String} {report : PageReport}
    (hrevoked : Revoked replica.consents consentScope target)
    (h : applyTransaction scope replica response expectedCursor pageSize skip at_ =
      .ok (settled, report)) :
    Revoked settled.consents consentScope target ↔
      ∀ decision, lastDecision scope consentScope target (abandon replica skip)
          (responseItems response) = some decision → decision.operation = .tombstone := by
  simp only [applyTransaction, bind_eq_ok] at h
  obtain ⟨_, -, _, -, _, -, _, -, _, -, ⟨applied, counted⟩, happlied, reconciled, hreconciled,
    moved, hmoved, _, -, h⟩ := h
  obtain rfl : moved = settled := (Prod.ext_iff.mp (Except.ok.inj h)).1
  have hstart : Standing consentScope target (abandon replica skip) none :=
    ⟨hrevoked.1, iff_of_true hrevoked (by simp)⟩
  have hitems : Standing consentScope target applied
      (lastDecision scope consentScope target (abandon replica skip) (responseItems response)) :=
    alongPage_invariant (fun _ _ _ _ _ hstanding hvalid hevent ↦
      standing_of_event hstanding hvalid hevent) happlied none hstart
  rw [moveCursor_cases hmoved, (sameLedger_of_reconcile hreconciled).consents]
  exact hitems.2

/-- The row retains a revocation of the consent that no answer came for. -/
def RetainsRevocation (scope : Scope) (consentScope target : String) (row : EventRow) : Prop :=
  row.direction = .push ∧ (row.state = .pending ∨ row.state = .failed) ∧ ∃ request revocation,
    Canonical.parse scope.platform row.body = some request ∧
      Event.push scope.platform request scope.account = .ok revocation ∧
      revocation.entityKind = .unverifiedConsent ∧ revocation.operation = .tombstone ∧
      revocation.names consentScope target

/-- The event descends from a revocation that was retained before the page. -/
def DescendsFromRevocation (scope : Scope) (consentScope target : String)
    (before after : Replica) (event : Event) : Prop :=
  ∃ row ∈ before.events, RetainsRevocation scope consentScope target row ∧
    AncestorWalk.Reaches (recordedParents scope after event.entityId) event.revisionId
      row.remoteRevisionId

/-- After a page a consent that was revoked on this device is still revoked, or was granted by a
descendant of the revocation, if and only if the last decision of the page on the consent, where
there is one, revokes it or descends from the revocation. -/
theorem revocation_kept (scope : Scope) (consentScope target : String) (replica settled : Replica)
    (response : Json) (expectedCursor : Option String) (pageSize : Nat) (skip : List String)
    (at_ : String) (report : PageReport)
    (hrevoked : Revoked replica.consents consentScope target)
    (h : applyTransaction scope replica response expectedCursor pageSize skip at_ =
      .ok (settled, report)) :
    (Revoked settled.consents consentScope target ∨
        ∃ decision, lastDecision scope consentScope target (abandon replica skip)
            (responseItems response) = some decision ∧
          DescendsFromRevocation scope consentScope target replica settled decision) ↔
      ∀ decision, lastDecision scope consentScope target (abandon replica skip)
          (responseItems response) = some decision →
        decision.operation = .tombstone ∨
          DescendsFromRevocation scope consentScope target replica settled decision := by
  rw [revoked_of_page hrevoked h]
  cases lastDecision scope consentScope target (abandon replica skip) (responseItems response) with
  | none => simp
  | some decision => simp

end Decisions

namespace Renewal

/-- The grant is applied, and this device revokes the consent without pushing the revocation. -/
def locallyRevoked : Replica :=
  (after scope [page [item granted 1] none (some "position-1")]).revoke "task" "full-auto"
    "2026-01-03T00:00:00.000Z"

/-- The next page delivers the renewal that another device made before. -/
def renewal : Json :=
  .object
    [("schema_version", .number (.integer 1)), ("items", .array [item renewed 2]),
      ("page", .object
        [("schema_version", .number (.integer 1)), ("next_cursor", .string "position-2"),
          ("page_size", .number (.integer 4))])]

end Renewal

/-- `revocation_kept` at the renewal of a consent that was revoked in the meantime. -/
theorem revocation_kept_renewal : ∃ settled report,
    applyTransaction Renewal.scope Renewal.locallyRevoked Renewal.renewal (some "position-1") 4 []
        "2026-01-05T00:00:00.000Z" = .ok (settled, report) ∧
      ((Revoked settled.consents "task" "full-auto" ∨
          ∃ decision, lastDecision Renewal.scope "task" "full-auto"
              (abandon Renewal.locallyRevoked []) (responseItems Renewal.renewal) = some decision ∧
            DescendsFromRevocation Renewal.scope "task" "full-auto" Renewal.locallyRevoked settled
              decision) ↔
        ∀ decision, lastDecision Renewal.scope "task" "full-auto"
            (abandon Renewal.locallyRevoked []) (responseItems Renewal.renewal) = some decision →
          decision.operation = .tombstone ∨
            DescendsFromRevocation Renewal.scope "task" "full-auto" Renewal.locallyRevoked settled
              decision) := by
  have hfacts : Revoked Renewal.locallyRevoked.consents "task" "full-auto" ∧
      (applyTransaction Renewal.scope Renewal.locallyRevoked Renewal.renewal (some "position-1") 4 []
        "2026-01-05T00:00:00.000Z").toBool = true := by
    decide +kernel
  obtain ⟨hrevoked, hok⟩ := hfacts
  cases happly : applyTransaction Renewal.scope Renewal.locallyRevoked Renewal.renewal
      (some "position-1") 4 [] "2026-01-05T00:00:00.000Z" with
  | error failure =>
    rw [happly] at hok
    cases hok
  | ok result =>
    exact ⟨result.1, result.2, rfl,
      revocation_kept _ _ _ _ result.1 _ _ _ _ _ result.2 hrevoked happly⟩

/-- The renewal grants the consent again, although no revocation was ever pushed. -/
theorem renewal_regrants :
    Revoked Renewal.locallyRevoked.consents "task" "full-auto" ∧
      (∀ row ∈ Renewal.locallyRevoked.events, row.direction ≠ .push) ∧
      ¬ Revoked (apply Renewal.scope Renewal.locallyRevoked Renewal.renewal (some "position-1") 4
        [] "2026-01-05T00:00:00.000Z").consents "task" "full-auto" := by
  decide +kernel

end AiStp.Sync.Client
