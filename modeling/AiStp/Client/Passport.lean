import AiStp.Library.Loops
import AiStp.Sync.Contracts

/-!
# Passports at the client's boundary

The client checks a passport against the generated schema of the envelope, then the identity and
the facts, then the content address. The schema requires every field of the envelope and reads
digits as ASCII, so it is stricter than the server's model of the same envelope. `sealPassport` fills the
defaults in, takes the normal form of the document and writes its address.
-/

set_option autoImplicit false

namespace AiStp.Client

open Library Foundation

/-! ### Failures -/

inductive ErrorKind where
  | input
  | notFound
  | precondition
  | conflict
  | unavailable
  | internal
deriving DecidableEq, Repr

structure Failure where
  kind : ErrorKind
  message : String
  details : List (String × Json) := []
deriving DecidableEq, Repr

namespace Failure

def input (message : String) : Failure := ⟨.input, message, []⟩

def precondition (message : String) : Failure := ⟨.precondition, message, []⟩

def conflict (message : String) : Failure := ⟨.conflict, message, []⟩

def withDetails (failure : Failure) (details : List (String × Json)) : Failure :=
  { failure with details := failure.details ++ details }

/-- A violated constraint of the local database. -/
def constraint : Failure :=
  .conflict "the local registry transaction could not be completed"

/-- `objects::absent`. -/
def absent : Failure := ⟨.notFound, "the requested local passport does not exist", []⟩

/-- `canonical::invalid`. -/
def canonical : Failure :=
  .input "JSON cannot be represented as NFC-normalized RFC 8785 data"

/-- A document outside its generated schema. -/
def schema : Failure := .precondition "document does not match the supported wire contract"

/-- `passport::invalid`. -/
def passport : Failure :=
  .precondition "passport shape, identity or content digest is invalid"

end Failure

/-- Refuse with a failure when a condition does not hold. -/
def ensure (condition : Bool) (failure : Failure) : Except Failure Unit :=
  if condition then .ok () else .error failure

@[simp] theorem ensure_eq_ok {condition : Bool} {failure : Failure} {value : Unit} :
    ensure condition failure = .ok value ↔ condition = true := by
  unfold ensure
  split_ifs with hcondition <;> simp [hcondition]

/-- A value that must be there. -/
def present {α : Type} (value : Option α) (failure : Failure) : Except Failure α :=
  match value with
  | some held => .ok held
  | none => .error failure

@[simp] theorem present_eq_ok {α : Type} {value : Option α} {failure : Failure} {held : α} :
    present value failure = .ok held ↔ value = some held := by
  cases value <;> simp [present]

namespace Passport

/-! ### Identity -/

/-- `passport::stable_id`. -/
def stableId (platform : Platform) (value kind : String) : Bool :=
  match Text.stripPrefix? (kind ++ "_") value with
  | some suffix =>
    suffix.length == 26 && suffix.all Text.isCrockford && platform.readsUlid suffix
  | none => false

/-- `passport::version_number`. -/
def versionNumber (text : String) : Bool :=
  (Identity.parseVersion text).isSome

/-- `passport::timestamp`. -/
def timestamp (platform : Platform) (value : String) : Bool :=
  (Text.units value).length == 24 && (Text.units value)[19]? == some '.' &&
    (Text.units value).getLast? == some 'Z' && platform.readsMoment value

/-- The timestamp pattern of the generated schemas, in ASCII digits. -/
def schemaTimestamp (value : String) : Bool :=
  (Text.units value).length == Identity.timestampShape.length &&
    ((Text.units value).zip Identity.timestampShape).all fun position ↦
      if position.2 = '0' then position.1.isDigit else position.1 = position.2

/-- `passport::revision_id`: the address of the document without its own id. -/
def revisionId (platform : Platform) (document : Json) : Except Failure String := do
  ensure document.asObject?.isSome .passport
  let content ← present (Canonical.bytes platform (document.erase "revision_id")) .canonical
  return "revision_" ++ platform.sha256 Canonical.revisionDomain content

/-! ### Validation -/

/-- The items of a list, empty for a document that is not one. -/
def items (value : Json) : List Json :=
  value.asArray?.getD []

/-- The generated schema of the passport envelope. -/
def envelope (document : Json) : Bool :=
  Shape.conforms (Shape.wireRequired (Sync.passportEnvelope schemaTimestamp)) document &&
    decide (items (document.index "parent_revision_ids")).Nodup

/-- One optional moment of a fact. -/
def factMoment (platform : Platform) (fact : Json) (field : String) : Bool :=
  match fact.index field with
  | .null => true
  | .string value => timestamp platform value
  | _ => false

def factValid (platform : Platform) (fact : Json) : Bool :=
  Sync.factAxes fact && factMoment platform fact "observed_at" &&
    factMoment platform fact "confirmed_at"

/-- `passport::validate_identity`. -/
def validateIdentity (platform : Platform) (document : Json) : Except Failure Unit := do
  let kind ← present (document.index "kind").asString? .passport
  let id ← present (document.index "stable_id").asString? .passport
  let created ← present (document.index "created_at").asString? .passport
  ensure (stableId platform id kind && timestamp platform created) .passport
  let facts ← present (document.index "facts").asObject? .passport
  ensure (facts.all fun fact ↦ factValid platform fact.2) .passport

/-- `passport::validate`. -/
def validate (platform : Platform) (document : Json) : Except Failure Unit := do
  ensure (envelope document) .schema
  validateIdentity platform document
  let address ← revisionId platform document
  ensure (document.index "revision_id" == .string address) .passport

/-! ### Sealing -/

def sealFact (fact : Json) : Json :=
  Json.withDefault "confidence" .null (Json.withDefault "confirmed_at" .null
    (Json.withDefault "observed_at" .null (Json.withDefault "source_refs" (.array []) fact)))

/-- The defaults of a new passport. -/
def filled (document : Json) : Json :=
  let document := Json.withDefault "facts" (.object [])
    (Json.withDefault "visibility" (.string "private")
      (Json.withDefault "parent_revision_ids" (.array [])
        (Json.withDefault "schema_version" (.number (.integer 1)) document)))
  match document.get? "facts" with
  | some facts => document.set "facts" (facts.mapValues sealFact)
  | none => document

/-- `revisions::seal`. -/
def sealPassport (platform : Platform) (document : Json) : Except Failure Json := do
  ensure document.asObject?.isSome (.input "a passport must be an object")
  let content ← present (Canonical.bytes platform (filled document)) .canonical
  let normal ← present (Canonical.parse platform content) .canonical
  let address ← revisionId platform normal
  let written := normal.set "revision_id" (.string address)
  validate platform written
  ensure (stableId platform ((written.index "owner_id").asString?.getD "") "account")
    (.input "passport owner identity is invalid")
  return written

/-! ### What a valid passport declares -/

/-- The parent revisions a passport declares. -/
def parents (document : Json) : List String :=
  (items (document.index "parent_revision_ids")).filterMap Json.asString?

theorem kind_of_envelope {document : Json} (h : envelope document = true) :
    ∃ kind, document.index "kind" = .string kind ∧ kind ∈ Sync.passportKinds := by
  simp only [envelope, Shape.conforms, Bool.and_eq_true, List.all_eq_true] at h
  obtain ⟨⟨-, hfields⟩, -⟩ := h
  have hkind := hfields ⟨"kind", Shape.oneOf Sync.passportKinds, true⟩ (by
    simp [Shape.wireRequired, Sync.passportEnvelope])
  unfold Shape.Field.accepts at hkind
  cases hvalue : document.get? "kind" with
  | none => simp [hvalue] at hkind
  | some value =>
    cases value <;> simp [hvalue, Shape.oneOf] at hkind
    rename_i kind
    exact ⟨kind, by simp [Json.index, hvalue], hkind⟩

theorem envelope_of_validate {platform : Platform} {document : Json}
    (h : validate platform document = .ok ()) : envelope document = true := by
  unfold validate at h
  obtain ⟨_, hschema, -⟩ := bind_eq_ok.mp h
  exact ensure_eq_ok.mp hschema

theorem validate_of_sealPassport {platform : Platform} {document written : Json}
    (h : sealPassport platform document = .ok written) : validate platform written = .ok () := by
  simp only [sealPassport, bind_eq_ok, present_eq_ok] at h
  obtain ⟨_, -, content, -, normal, -, address, -, _, hvalid, _, -, hwritten⟩ := h
  obtain rfl : normal.set "revision_id" (.string address) = written := by
    simpa [Pure.pure, Except.pure] using hwritten
  exact hvalid

end Passport

end AiStp.Client
