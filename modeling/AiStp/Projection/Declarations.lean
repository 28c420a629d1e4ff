import AiStp.Foundation.Archive
import AiStp.Library.Zip

/-!
# Scope declarations

The declaration of one projection scope: the archive that holds it, the provider surface it needs,
and the members of the archive. The server validates a declaration with its own models
(`ScopeAdaptation.valid`). The client validates it with the schema that is generated from them and
with checks of its own (`validateScope`). The schema has a narrower grammar of paths and forbids
repeated items where the models do not.
-/

set_option autoImplicit false

namespace AiStp.Projection

open Foundation Library

/-- What the two programs take from their libraries besides their platform. -/
structure Libraries where
  /-- `str.casefold` of the server. -/
  casefold : String → String
  /-- `UniCase::to_folded_case` of the client. -/
  foldedCase : String → String
  /-- The whitespace of the server's patterns. -/
  modelSpace : Char → Bool
  /-- The whitespace of the patterns in the client's schema validator. -/
  schemaSpace : Char → Bool
  /-- The SHA-256 of a domain, a zero byte and the bytes, in lowercase hexadecimal. -/
  sha256 : String → Zip.Bytes → String

def artifactDomain : String := "ai-stp:artifact:v1"

/-- `digest_bytes` of the server and `digest::bytes` of the client, for artifacts. -/
def digestBytes (libraries : Libraries) (content : Zip.Bytes) : String :=
  "sha256:" ++ libraries.sha256 artifactDomain content

/-! ### Documents -/

inductive ObjectType where
  | file
  | directory
deriving DecidableEq

inductive OwnershipMode where
  | whole
  | contribution
deriving DecidableEq

inductive WriteSemantics where
  | replace
  | merge
deriving DecidableEq

inductive WithdrawalSemantics where
  | removePath
  | preserveUnowned
deriving DecidableEq

inductive TargetScope where
  | global
  | userRoot
  | project
deriving DecidableEq

inductive ComponentType where
  | instruction
  | skill
  | mcp
  | hook
  | command
  | agent
  | plugin
  | setting
  | cli
deriving DecidableEq

inductive ProjectionKind where
  | marketplace
  | plugin
  | nativeFiles
  | package
deriving DecidableEq

inductive SupportedOs where
  | linux
  | macos
  | windows
deriving DecidableEq

inductive SupportedArch where
  | x86_64
  | arm64
deriving DecidableEq

inductive TechnicalSupport where
  | unsupported
  | experimental
  | supported
deriving DecidableEq

structure ArtifactRef where
  digest : String
  sizeBytes : Nat
deriving DecidableEq

structure ProviderSurfaceRef where
  profileId : String
  profileDigest : String
  bundleFormat : String
deriving DecidableEq

structure Permissions where
  filesystem : List String := []
  network : List String := []
  process : List String := []
deriving DecidableEq

structure ProjectedMember where
  path : String
  objectType : ObjectType
  mode : Nat
  contentArtifact : Option ArtifactRef := none
  nativeIds : List String := []
  contentFormat : String
  parserId : Option String := none
  ownership : OwnershipMode
  ownershipKey : Option String := none
  writeSemantics : WriteSemantics
  withdrawalSemantics : WithdrawalSemantics
deriving DecidableEq

structure ScopeAdaptation where
  scope : TargetScope
  projectionFormat : String
  projectionArtifact : ArtifactRef
  providerComponentKind : ComponentType
  projectionKind : ProjectionKind
  requiredSurface : ProviderSurfaceRef
  permissions : Permissions := {}
  members : List ProjectedMember
  supportedHarnessVersions : List String := []
  supportedOs : List SupportedOs := []
  supportedArch : List SupportedArch := []
  technicalSupport : TechnicalSupport
  technicalSupportReason : Option String := none
  semanticLosses : List String := []
deriving DecidableEq

def adaptationProjectionFormat : String := "ai-stp-adaptation-projection/1"

def maxProjectionFiles : Nat := 8192

def maxProjectionBytes : Nat := 67108864

/-! ### Texts -/

/-- A text of a bounded number of characters. -/
def boundedText (minimum maximum : Nat) (text : String) : Bool :=
  minimum ≤ text.toList.length && text.toList.length ≤ maximum

def noControl (text : String) : Bool :=
  text.toList.all fun character ↦ !(character.toNat < 0x20)

def isDigest (text : String) : Bool :=
  Text.isHexAddress "sha256:" text

/-- Lower-case letters and digits, and after the first of them dots, underscores, slashes and
hyphens. -/
def isSurfaceName (text : String) : Bool :=
  let plain (character : Char) : Bool := character.isLower || character.isDigit
  text.toList.head?.any plain && text.toList.all fun character ↦
    plain character || character ∈ ['.', '_', '/', '-']

/-- The parts of a path between its slashes. -/
def pathParts (path : String) : List String :=
  (path.toList.splitOn '/').map String.ofList

/-- A path is the text of its parts. -/
theorem pathText_pathParts (path : String) : pathText (pathParts path) = path := by
  apply String.toList_injective
  rw [pathText, String.toList_intercalate, pathParts, List.map_map]
  have hparts : (path.toList.splitOn '/').map (String.toList ∘ String.ofList) =
      path.toList.splitOn '/' := by
    simp [Function.comp_def]
  rw [hparts]
  exact List.intercalate_splitOn '/'

/-- `RelativeProjectionPath` of the server's model. -/
def relativeProjectionPath (path : String) : Bool :=
  boundedText 1 4096 path && noControl path && path.toList.head? ≠ some '/' &&
    '\\' ∉ path.toList

/-- `_relative_path` of the server. -/
def relativePath (path : String) : Bool :=
  path ≠ "" && path.toList.head? ≠ some '/' && ".." ∉ pathParts path

/-- The pattern of the path in the schema: no part is empty or names a directory by dots. -/
def schemaProjectionPath (path : String) : Bool :=
  boundedText 1 4096 path && noControl path && '\\' ∉ path.toList &&
    (pathParts path).all fun part ↦ part ∉ ["", ".", ".."]

/-! ### Fields

The models and the schema bound the fields alike, except for the grammar of paths and for what
counts as whitespace. -/

def ArtifactRef.fields (minimum maximum : Nat) (artifact : ArtifactRef) : Bool :=
  isDigest artifact.digest && minimum ≤ artifact.sizeBytes && artifact.sizeBytes ≤ maximum

def ProviderSurfaceRef.fields (surface : ProviderSurfaceRef) : Bool :=
  isSurfaceName surface.profileId && isDigest surface.profileDigest &&
    isSurfaceName surface.bundleFormat

def claims (items : List String) : Bool :=
  items.all (fun claim ↦ boundedText 1 1024 claim && noControl claim) && items.Nodup

def Permissions.fields (permissions : Permissions) : Bool :=
  claims permissions.filesystem && claims permissions.network && claims permissions.process

def ProjectedMember.fields (path : String → Bool) (member : ProjectedMember) : Bool :=
  path member.path && member.mode ≤ 0o777 &&
    member.contentArtifact.all (fun artifact ↦ isDigest artifact.digest) &&
    member.nativeIds.all (fun nativeId ↦ boundedText 1 512 nativeId && noControl nativeId) &&
    member.nativeIds.Nodup && boundedText 1 128 member.contentFormat &&
    member.parserId.all (boundedText 1 128) && member.ownershipKey.all (boundedText 1 512) &&
    (decide (member.objectType = .file) == member.contentArtifact.isSome)

def ScopeAdaptation.fields (path : String → Bool) (space : Char → Bool)
    (scope : ScopeAdaptation) : Bool :=
  scope.projectionFormat = adaptationProjectionFormat &&
    scope.projectionArtifact.fields 1 maxProjectionBytes && scope.requiredSurface.fields &&
    scope.permissions.fields && 1 ≤ scope.members.length &&
    scope.members.length ≤ maxProjectionFiles &&
    scope.members.all (ProjectedMember.fields path) &&
    scope.supportedHarnessVersions.all (fun version ↦ boundedText 1 128 version &&
      noControl version && version.toList.all fun character ↦ !space character) &&
    scope.technicalSupportReason.all (boundedText 1 512) &&
    (decide (scope.technicalSupport = .supported) == scope.technicalSupportReason.isNone)

/-! ### The server's models -/

/-- `_ownership_is_complete`. -/
def ProjectedMember.ownershipIsComplete (member : ProjectedMember) : Bool :=
  relativePath member.path &&
    match member.ownership with
    | .contribution =>
      member.objectType = .file && member.ownershipKey.isSome && member.parserId.isSome &&
        member.writeSemantics = .merge && member.withdrawalSemantics = .preserveUnowned
    | .whole =>
      member.ownershipKey.isNone && member.writeSemantics = .replace &&
        member.withdrawalSemantics = .removePath

/-- `_paths_are_unique`. -/
def ScopeAdaptation.pathsAreUnique (libraries : Libraries) (scope : ScopeAdaptation) : Bool :=
  (scope.members.map (·.path)).Nodup &&
    (scope.members.map (libraries.casefold ·.path)).Nodup

def ScopeAdaptation.valid (libraries : Libraries) (scope : ScopeAdaptation) : Bool :=
  scope.fields relativeProjectionPath libraries.modelSpace &&
    scope.members.all ProjectedMember.ownershipIsComplete && scope.pathsAreUnique libraries

/-! ### The client's checks -/

/-- `member_invariants`. -/
def memberInvariants (member : ProjectedMember) : Bool :=
  if member.ownership = .contribution then
    !(member.objectType ≠ .file || member.parserId.isNone || member.ownershipKey.isNone ||
      member.writeSemantics ≠ .merge || member.withdrawalSemantics ≠ .preserveUnowned)
  else
    !(member.ownershipKey.isSome || member.writeSemantics ≠ .replace ||
      member.withdrawalSemantics ≠ .removePath)

def validateMember (member : ProjectedMember) : Bool :=
  member.fields schemaProjectionPath && memberInvariants member

/-- `ScopeAdaptation` of the schema. -/
def scopeSchema (libraries : Libraries) (scope : ScopeAdaptation) : Bool :=
  scope.fields schemaProjectionPath libraries.schemaSpace &&
    scope.supportedHarnessVersions.Nodup && scope.supportedOs.Nodup &&
    scope.supportedArch.Nodup && scope.semanticLosses.Nodup

def scopeInvariants (libraries : Libraries) (scope : ScopeAdaptation) : Bool :=
  (scope.members.map (libraries.foldedCase ·.path)).Nodup && scope.members.all memberInvariants

def validateScope (libraries : Libraries) (scope : ScopeAdaptation) : Bool :=
  scopeSchema libraries scope && scopeInvariants libraries scope

/-! ### What the two checks have in common -/

theorem memberInvariants_of_ownershipIsComplete {member : ProjectedMember}
    (h : member.ownershipIsComplete = true) : memberInvariants member = true := by
  unfold ProjectedMember.ownershipIsComplete at h
  unfold memberInvariants
  cases hownership : member.ownership with
  | contribution =>
    rw [hownership] at h
    simp only [Bool.and_eq_true, decide_eq_true_eq] at h
    obtain ⟨-, ⟨⟨⟨⟨htype, hkey⟩, hparser⟩, hwrite⟩, hwithdrawal⟩⟩ := h
    simp [htype, hwrite, hwithdrawal, hkey, hparser]
  | whole =>
    rw [hownership] at h
    simp only [Bool.and_eq_true, decide_eq_true_eq] at h
    obtain ⟨-, ⟨⟨hkey, hwrite⟩, hwithdrawal⟩⟩ := h
    simp [hwrite, hwithdrawal, Option.isNone_iff_eq_none.mp hkey]

/-- The other grammar of paths is all that a member's fields may fail by. -/
theorem ProjectedMember.fields_of_path {path other : String → Bool} {member : ProjectedMember}
    (h : member.fields path = true) (hother : other member.path = true) :
    member.fields other = true := by
  simp only [ProjectedMember.fields, Bool.and_eq_true] at h ⊢
  exact ⟨⟨⟨⟨⟨⟨⟨⟨hother, h.1.1.1.1.1.1.1.2⟩, h.1.1.1.1.1.1.2⟩, h.1.1.1.1.1.2⟩, h.1.1.1.1.2⟩, h.1.1.1.2⟩,
    h.1.1.2⟩, h.1.2⟩, h.2⟩

end AiStp.Projection
