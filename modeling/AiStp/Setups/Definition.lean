import AiStp.Corporate.Members
import AiStp.Foundation.Canonical
import AiStp.Foundation.Identity

/-!
# Setup definitions

A setup definition names its components by exact references. A definition of version 2 also carries
an index of embedded records: components that are in no catalog, each with its sealed passport, the
snapshot of its source and its artifact. `validateSetupDefinition` is what the server accepts as
definition bytes. The digests, the passport models and the projection reader are parameters.
-/

set_option autoImplicit false

namespace AiStp.Setups

open Library
open Corporate (strip)

abbrev Bytes : Type := List UInt8

/-- The codes of source errors, and what the canonical reader raises. -/
inductive SourceErrorCode where
  | invalidSource
  | unsafeArchive
  | integrityMismatch
  | catalogCollision
  | incompletePassport
  | prohibitedRedistribution
  | missingEmbeddedRef
  | floatingFrozenSource
  | canonicalization
deriving DecidableEq

def SourceErrorCode.text : SourceErrorCode → String
  | .invalidSource => "invalid_source"
  | .unsafeArchive => "unsafe_archive"
  | .integrityMismatch => "integrity_mismatch"
  | .catalogCollision => "catalog_collision"
  | .incompletePassport => "incomplete_passport"
  | .prohibitedRedistribution => "prohibited_redistribution"
  | .missingEmbeddedRef => "missing_embedded_ref"
  | .floatingFrozenSource => "floating_frozen_source"
  | .canonicalization => "canonicalization"

def require (condition : Bool) (code : SourceErrorCode) : Except SourceErrorCode Unit :=
  if condition then .ok () else .error code

def found {Value : Type} (value : Option Value) (code : SourceErrorCode) :
    Except SourceErrorCode Value :=
  match value with
  | some value => .ok value
  | none => .error code

@[simp] theorem require_eq_ok {condition : Bool} {code : SourceErrorCode} {value : Unit} :
    require condition code = .ok value ↔ condition = true := by
  unfold require
  split_ifs with h <;> simp [h]

@[simp] theorem found_eq_ok {Value : Type} {value : Option Value} {code : SourceErrorCode}
    {result : Value} : found value code = .ok result ↔ value = some result := by
  cases value <;> simp [found]

/-! ### Documents -/

structure ComponentRef where
  stableId : String
  variantId : Option String := none
  version : String
  passportDigest : String
deriving DecidableEq

/-- A member is known by its id and version. -/
abbrev RefKey : Type := String × String

def ComponentRef.key (ref : ComponentRef) : RefKey := (ref.stableId, ref.version)

structure EmbeddedRecord where
  ref : ComponentRef
  passport : Json
  snapshot : Json
  artifactB64 : String
  artifactDigest : String
  artifactSizeBytes : Int
  passportDigest : String
  passportSizeBytes : Int
deriving DecidableEq

structure DefinitionDocument where
  schemaVersion : Int
  format : String
  stableId : String
  version : String
  harnessId : String
  inputDigest : String
  components : List ComponentRef
  embedded : List EmbeddedRecord

def definitionV1 : String := "ai-stp-setup-definition/1"

def definitionV2 : String := "ai-stp-setup-definition/2"

def maxDefinitionBytes : Nat := 20 * 1024 * 1024

def maxEmbeddedRecords : Nat := 500

/-- What the validated component passport says; `document` is the passport as it is written out. -/
structure ComponentVersionPassport where
  stableId : String
  version : String
  name : String
  artifactDigest : String
  artifactSizeBytes : Int
  /-- The scopes of the adaptations. -/
  adaptations : List (List Json)
  document : Json
deriving DecidableEq

inductive SourceKind where
  | catalog
  | git
  | package
  | path
deriving DecidableEq

structure SourceSnapshot where
  kind : SourceKind
  canonicalCoordinate : String
  exactIdentity : String
  hasPackageEvidence : Bool
deriving DecidableEq

/-- What the server calls: the canonical reader and writer, the digests, the models of passports and
snapshots, and the reader of projections. -/
structure Toolkit where
  fromJsonBytes : Bytes → Option Json
  canonize : Json → Option Bytes
  /-- The digest of some bytes inside a domain. -/
  digestBytes : String → Bytes → String
  /-- A JSON value as a model field of type `int` takes it. -/
  integer : Json → Option Int
  matchesVersion : String → Bool
  unb64url : String → Option Bytes
  validatePassport : Json → Option ComponentVersionPassport
  verifyProjection : Json → Bytes → Bool
  validateSnapshot : Json → Option SourceSnapshot
  isFullCommit : String → Bool
  upper : String → String

def passportDigestDomain : String := "ai-stp:passport:v1"

def artifactDigestDomain : String := "ai-stp:artifact:v1"

/-! ### Reading -/

/-- An object with some of these names only. -/
def closedObject (names : List String) (document : Json) : Option Unit :=
  match document with
  | .object fields => if fields.all (·.1 ∈ names) then some () else none
  | _ => none

def text? (document : Json) (name : String) : Option String :=
  (document.get? name).bind Json.asString?

def readComponentRef (toolkit : Toolkit) (document : Json) : Option ComponentRef := do
  closedObject ["stable_id", "variant_id", "version", "passport_digest"] document
  let stableId ← (text? document "stable_id").filter (Foundation.Identity.matchesStableId "component")
  let version ← (text? document "version").filter toolkit.matchesVersion
  let passportDigest ← (text? document "passport_digest").filter Foundation.Identity.isDigest
  match document.get? "variant_id" with
  | none | some .null => some { stableId, version, passportDigest }
  | some (.string variantId) =>
    if Foundation.Identity.matchesStableId "variant" variantId then
      some { stableId, variantId := some variantId, version, passportDigest }
    else none
  | some _ => none

def object? (document : Json) (name : String) : Option Json :=
  (document.get? name).filter fun value ↦ value.asObject?.isSome

/-- `_EmbeddedRecord` -/
def readEmbeddedRecord (toolkit : Toolkit) (document : Json) : Option EmbeddedRecord := do
  closedObject ["ref", "passport", "snapshot", "artifact_b64", "artifact_digest",
    "artifact_size_bytes", "passport_digest", "passport_size_bytes"] document
  let ref ← (document.get? "ref").bind (readComponentRef toolkit)
  let passport ← object? document "passport"
  let snapshot ← object? document "snapshot"
  let artifactB64 ← text? document "artifact_b64"
  let artifactDigest ← text? document "artifact_digest"
  let artifactSizeBytes ← (document.get? "artifact_size_bytes").bind toolkit.integer
  let passportDigest ← text? document "passport_digest"
  let passportSizeBytes ← (document.get? "passport_size_bytes").bind toolkit.integer
  return { ref, passport, snapshot, artifactB64, artifactDigest, artifactSizeBytes, passportDigest,
           passportSizeBytes }

/-- `_DefinitionDocument` -/
def readDefinitionDocument (toolkit : Toolkit) (document : Json) : Option DefinitionDocument := do
  closedObject ["schema_version", "format", "stable_id", "version", "harness_id", "input_digest",
    "components", "embedded"] document
  let schemaVersion ← (document.get? "schema_version").bind toolkit.integer
  let format ← text? document "format"
  let stableId ← text? document "stable_id"
  let version ← text? document "version"
  let harnessId ← text? document "harness_id"
  let inputDigest ← text? document "input_digest"
  let components ← ((document.get? "components").bind Json.asArray?).bind fun items ↦
    items.mapM (readComponentRef toolkit)
  let embedded ← (((document.get? "embedded").getD (.array [])).asArray?).bind fun items ↦
    items.mapM (readEmbeddedRecord toolkit)
  return { schemaVersion, format, stableId, version, harnessId, inputDigest, components, embedded }

/-! ### Validation -/

def passportBytes (toolkit : Toolkit) (passport : Json) : Except SourceErrorCode Bytes :=
  found (toolkit.canonize passport) .canonicalization

/-- The names that a sealed passport never carries. -/
def hasCatalogMetadata (passport : Json) : Bool :=
  ["reactions", "publisher_page", "catalog"].any fun name ↦ (passport.get? name).isSome

/-- The record agrees with its passport, and the passport with its artifact. -/
def validateRecord (toolkit : Toolkit) (catalogIds : List String) (record : EmbeddedRecord) :
    Except SourceErrorCode Unit := do
  require (record.ref.stableId ∉ catalogIds) .catalogCollision
  let artifact ← found (toolkit.unb64url record.artifactB64) .integrityMismatch
  require (artifact.length = record.artifactSizeBytes) .integrityMismatch
  require (toolkit.digestBytes artifactDigestDomain artifact = record.artifactDigest)
    .integrityMismatch
  let bytes ← passportBytes toolkit record.passport
  require (bytes.length = record.passportSizeBytes) .integrityMismatch
  require (toolkit.digestBytes passportDigestDomain bytes = record.passportDigest)
    .integrityMismatch
  require (record.ref.passportDigest = record.passportDigest) .integrityMismatch
  let passport ← found (toolkit.validatePassport record.passport) .incompletePassport
  require (passport.stableId = record.ref.stableId ∧ passport.version = record.ref.version ∧
    passport.artifactDigest = record.artifactDigest ∧
    passport.artifactSizeBytes = record.artifactSizeBytes) .integrityMismatch
  let scopes ← found (if passport.adaptations.length = 1 then passport.adaptations.head? else none)
    .incompletePassport
  let scope ← found (if scopes.length = 1 then scopes.head? else none) .incompletePassport
  require (toolkit.verifyProjection scope artifact) .integrityMismatch
  require (!hasCatalogMetadata record.passport) .incompletePassport

def validateSetupDefinition (toolkit : Toolkit) (payload : Bytes) (catalogIds : List String) :
    Except SourceErrorCode DefinitionDocument := do
  require (payload.length ≤ maxDefinitionBytes) .unsafeArchive
  let parsed ← found (toolkit.fromJsonBytes payload) .canonicalization
  let document ← found (readDefinitionDocument toolkit parsed) .invalidSource
  if document.format = definitionV1 then
    require (document.schemaVersion = 1 ∧ document.embedded = []) .invalidSource
    return document
  else
    require (document.format = definitionV2 ∧ document.schemaVersion = 2) .invalidSource
    require (document.embedded ≠ []) .invalidSource
    require (document.embedded.length ≤ maxEmbeddedRecords) .unsafeArchive
    forM document.embedded (validateRecord toolkit catalogIds)
    return document

/-- `try_parse_setup_definition` -/
def tryParseSetupDefinition (toolkit : Toolkit) (payload : Bytes) : Option DefinitionDocument :=
  (validateSetupDefinition toolkit payload []).toOption

/-! ### What is accepted -/

section Accepted

variable {toolkit : Toolkit} {catalogIds : List String}

/-- A record that is accepted carries a passport of its reference. -/
theorem validateRecord_eq_ok {record : EmbeddedRecord} {value : Unit}
    (h : validateRecord toolkit catalogIds record = .ok value) :
    record.ref.passportDigest = record.passportDigest ∧
    ∃ artifact passport, toolkit.unb64url record.artifactB64 = some artifact ∧
      toolkit.validatePassport record.passport = some passport ∧
      passport.stableId = record.ref.stableId ∧ passport.version = record.ref.version := by
  simp only [validateRecord, bind_eq_ok, require_eq_ok, found_eq_ok, decide_eq_true_eq] at h
  obtain ⟨-, -, artifact, hartifact, -, -, -, -, bytes, -, -, -, -, -, -, href, passport, hpassport,
    -, ⟨hid, hversion, -, -⟩, -⟩ := h
  exact ⟨href, artifact, passport, hartifact, hpassport, hid, hversion⟩

theorem validateSetupDefinition_embedded {payload : Bytes} {document : DefinitionDocument}
    (h : validateSetupDefinition toolkit payload catalogIds = .ok document) :
    ∀ record ∈ document.embedded, validateRecord toolkit catalogIds record = .ok () := by
  simp only [validateSetupDefinition, bind_eq_ok, found_eq_ok, require_eq_ok] at h
  obtain ⟨-, -, parsed, -, read, -, h⟩ := h
  by_cases hformat : read.format = definitionV1
  · rw [if_pos hformat] at h
    simp only [bind_eq_ok, require_eq_ok, decide_eq_true_eq] at h
    obtain ⟨-, ⟨-, hnone⟩, h⟩ := h
    rw [← Except.ok.inj h, hnone]
    intro record hrecord
    cases hrecord
  · rw [if_neg hformat] at h
    simp only [bind_eq_ok, require_eq_ok] at h
    obtain ⟨-, -, -, -, -, -, _, hall, h⟩ := h
    rw [← Except.ok.inj h]
    exact forM_eq_ok hall

end Accepted

end AiStp.Setups
