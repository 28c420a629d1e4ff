import AiStp.Custody.Model
import AiStp.Foundation.Archive
import AiStp.Library.FileTree
import AiStp.Library.Programs

/-!
# The installation writer

A writer replaces files of one target by the contents of an admitted operation. Its durable state
is a database of operations, the tree of the target, and the control directory inside the target,
which holds the journal that guards the target against other writers and the staging directory.

The control directory is a tree of its own here, because no path of an operation leads into it.
`System` is what the writer takes from the machine. Access is that of a user without privileges: a
file opens for reading or writing only where its owner's bit allows it.
-/

set_option autoImplicit false

namespace AiStp.Installation

open Foundation Library

open Custody (Identity Stamp)

/-! ### Files -/

def fileLimit : Nat := 32 * 1024 * 1024

/-- Desired file bytes and access bits. -/
structure Content where
  bytes : List UInt8
  mode : Nat
deriving DecidableEq

def Content.validate (content : Content) : Bool :=
  content.bytes.length ≤ fileLimit && content.mode ≤ 0o777 && content.mode &&& 0o400 ≠ 0

/-- A plain file of one name. -/
structure File where
  identity : Identity
  bytes : List UInt8
  mode : Nat
deriving DecidableEq

def File.readable (file : File) : Bool :=
  file.mode &&& 0o400 ≠ 0

def File.writable (file : File) : Bool :=
  file.mode &&& 0o200 ≠ 0

def File.content (file : File) : Content :=
  { bytes := file.bytes, mode := file.mode }

abbrev Entry := TreeEntry Identity File

abbrev Tree := FileTree Identity File

/-- One held observation: the directories on the way to a file, and the file. -/
structure Observation where
  parents : List (Path × Identity)
  file : Option Stamp
deriving DecidableEq

/-- One file replacement or removal, bound to a prior observation. -/
structure Change where
  path : Path
  before : Observation
  after : Option Content
deriving DecidableEq

/-! ### Operations -/

/-- The guard that blocks other writers. -/
structure Journal where
  committed : Bool
  operationId : String
  operation : String
  planDigest : String
  targetPreconditionDigest : String
  backupRef : Option String
  targetScope : Option String
deriving DecidableEq

/-- The identity of a caller's request. -/
structure Admission where
  operationId : String
  planDigest : String
  operation : String
  targetPreconditionDigest : String
  targetScope : Option String
deriving DecidableEq

def validOperationId (id : String) : Bool :=
  id ≠ "" && (Text.units id).length ≤ 128 &&
    (Text.units id).all fun character ↦
      character.isAlphanum || character == '_' || character == '-'

def Admission.validate (admission : Admission) : Bool :=
  validOperationId admission.operationId && Foundation.Identity.isDigest admission.planDigest &&
    Foundation.Identity.isDigest admission.targetPreconditionDigest &&
    admission.operation ∈ ["install", "replace", "remove"] &&
    admission.targetScope.all (· ∈ ["project", "user_root"])

def Admission.cancellation (admission : Admission) : Json :=
  .object
    [ ("configuration_changed", .bool false)
    , ("expected_target_digest", .string admission.targetPreconditionDigest)
    , ("operation", .string admission.operation)
    , ("operation_id", .string admission.operationId)
    , ("plan_digest", .string admission.planDigest)
    , ("state", .string "cancelled") ]

def Admission.journal (admission : Admission) : Journal :=
  { committed := false
    operationId := admission.operationId
    operation := admission.operation
    planDigest := admission.planDigest
    targetPreconditionDigest := admission.targetPreconditionDigest
    backupRef := none
    targetScope := admission.targetScope }

/-- Only one request has a given journal. -/
theorem Admission.journal_inj {first second : Admission} (h : first.journal = second.journal) :
    first = second := by
  cases first
  cases second
  simp only [Admission.journal, Journal.mk.injEq, Admission.mk.injEq] at h ⊢
  tauto

inductive Phase where
  | prepared
  | applying
  | finishing
  | completed
deriving DecidableEq

/-- A row of `operations`. A row is active until it is completed. -/
structure Record where
  admission : Admission
  context : Json
  retainedMetadata : Bool
  /-- The identity of the staging directory. -/
  stage : Option Identity
  phase : Phase
  outcome : Option Json
deriving DecidableEq

def Record.active (record : Record) : Bool :=
  record.phase ≠ .completed

/-- The database: the operations, and the changes of an operation in their sequence. -/
structure Store where
  operations : SortedMap Record
  changes : SortedMap (List Change)

/-! ### The world -/

structure World where
  store : Store
  root : Tree
  control : Tree

def journalFileName : String := "journal.json"

def stagingName : String := "transaction"

structure System where
  platform : Platform
  /-- The name that stands for all names that differ in case only. -/
  foldCase : String → String
  /-- The SHA-256 of some bytes. -/
  digest : List UInt8 → String
  /-- The identity that the file system gives to the next file or directory. -/
  allocate : World → Identity
  /-- The name of the control directory. -/
  control : String
  /-- A text of ASCII letters is normal. -/
  nfc_journal : platform.nfc journalFileName = journalFileName
  /-- The encoding keeps the limit of the database. -/
  fits : Json → Bool
  /-- The canonical bytes of a journal, and their reader. -/
  encodeJournal : Journal → List UInt8
  decodeJournal : List UInt8 → Option Journal
  decodeJournal_encodeJournal : ∀ journal, decodeJournal (encodeJournal journal) = some journal
  encodeJournal_length : ∀ admission : Admission, admission.validate = true →
    (encodeJournal admission.journal).length ≤ 64 * 1024

/-- The two trees that files are published to. -/
inductive Base where
  | root
  | control
deriving DecidableEq

def World.tree (world : World) : Base → Tree
  | .root => world.root
  | .control => world.control

def World.withTree (world : World) (base : Base) (tree : Tree) : World :=
  match base with
  | .root => { world with root := tree }
  | .control => { world with control := tree }

@[simp] theorem World.tree_withTree (world : World) (base : Base) (tree : Tree) :
    (world.withTree base tree).tree base = tree := by
  cases base <;> rfl

@[simp] theorem World.store_withTree (world : World) (base : Base) (tree : Tree) :
    (world.withTree base tree).store = world.store := by
  cases base <;> rfl

def World.journal (world : World) : Option Entry :=
  world.control.entry [journalFileName]

def World.staging (world : World) : Option Entry :=
  world.control.entry [stagingName]

def World.staged (world : World) (name : String) : Option Entry :=
  world.control.entry [stagingName, name]

/-- Programs of the writer. Every refusal asks for recovery with the original request. -/
abbrev Writer (Answer : Type) := Program World Answer

/-! ### Effect lists -/

def System.validPath (system : System) (path : Path) : Bool :=
  safePath system.platform path && path.length ≤ 64

/-- A path into the control directory. -/
def System.internalPath (system : System) (path : Path) : Bool :=
  path.head?.any fun part ↦ system.foldCase part = system.foldCase system.control

def changeLimit : Nat := 8192

def payloadLimit : Nat := 96 * 1024 * 1024

/-- One round of the first loop of `validate_effects`: the paths by their folded text, and the
number of desired bytes. -/
def addEffect (system : System) (limit byteLimit : Nat) (held : SortedMap Path × Nat)
    (change : Change × Nat) : Option (SortedMap Path × Nat) := do
  let key := system.foldCase (pathText change.1.path)
  guard (change.2 < limit ∧ system.validPath change.1.path ∧ key ∉ held.1.keys)
  guard (∀ content ∈ change.1.after, content.validate = true)
  let bytes := held.2 + (change.1.after.map (·.bytes.length)).getD 0
  guard (bytes ≤ byteLimit)
  some (held.1.insert key change.1.path, bytes)

/-- Where two paths share directories up to case, they spell them alike. -/
def spelledAlike (system : System) : Path → Path → Bool
  | left :: lefts, right :: rights =>
    if system.foldCase left = system.foldCase right then
      left = right && spelledAlike system lefts rights
    else true
  | _, _ => true

/-- The directories on the way to a path. -/
def ancestors (path : Path) : List Path :=
  path.dropLast.inits.filter (· ≠ [])

/-- The second loop of `validate_effects`, over the paths in the order of their folded texts. -/
def separate (system : System) (keys : List String) : List Path → Bool
  | [] => true
  | path :: rest =>
    rest.head?.all (spelledAlike system path) &&
      (ancestors path).all (fun ancestor ↦ system.foldCase (pathText ancestor) ∉ keys) &&
      separate system keys rest

def validateEffects (system : System) (limit byteLimit : Nat) (changes : List Change) : Bool :=
  match changes.zipIdx.foldlM (addEffect system limit byteLimit) ([], 0) with
  | none => false
  | some (paths, _) => separate system paths.keys (paths.map (·.2))

def validateChanges (system : System) (changes : List Change) : Bool :=
  validateEffects system (changeLimit - 2) (64 * 1024 * 1024) changes

/-! ### A system to evaluate on

The journal of the sample request has its canonical bytes. Other journals are framed texts, each
with its length in front, so that the reader returns every journal. -/

namespace Sample

def textBytes (text : String) : List UInt8 :=
  text.toByteArray.data.toList

def frameText (text : String) : List UInt8 :=
  List.replicate (textBytes text).length 1 ++ 0 :: textBytes text

def readText (stream : List UInt8) : Option (String × List UInt8) :=
  let count := (stream.takeWhile (· = 1)).length
  let body := stream.drop (count + 1)
  (String.fromUTF8? ⟨(body.take count).toArray⟩).map (·, body.drop count)

def frameOption : Option String → List UInt8
  | none => [2]
  | some text => frameText text

def readOption : List UInt8 → Option (Option String × List UInt8)
  | 2 :: rest => some (none, rest)
  | stream => (readText stream).map fun read ↦ (some read.1, read.2)

def frame (journal : Journal) : List UInt8 :=
  (if journal.committed then 1 else 0) :: (frameText journal.operationId ++
    (frameText journal.operation ++ (frameText journal.planDigest ++
      (frameText journal.targetPreconditionDigest ++
        (frameOption journal.backupRef ++ frameOption journal.targetScope)))))

def unframe : List UInt8 → Option Journal
  | [] => none
  | first :: stream => do
    let (operationId, stream) ← readText stream
    let (operation, stream) ← readText stream
    let (planDigest, stream) ← readText stream
    let (targetPreconditionDigest, stream) ← readText stream
    let (backupRef, stream) ← readOption stream
    let (targetScope, _) ← readOption stream
    some
      { committed := first = 1
        operationId := operationId
        operation := operation
        planDigest := planDigest
        targetPreconditionDigest := targetPreconditionDigest
        backupRef := backupRef
        targetScope := targetScope }

theorem readText_frameText (text : String) (rest : List UInt8) :
    readText (frameText text ++ rest) = some (text, rest) := by
  have hcount : ((frameText text ++ rest).takeWhile (· = 1)).length = (textBytes text).length := by
    simp [frameText]
  have hbody : (frameText text ++ rest).drop ((textBytes text).length + 1) =
      textBytes text ++ rest := by
    simp [frameText, ← List.drop_drop]
  have hbytes : (⟨(textBytes text).toArray⟩ : ByteArray) = text.toByteArray := by
    simp [textBytes]
  have htext : String.fromUTF8? ⟨(textBytes text).toArray⟩ = some text := by
    rw [hbytes, String.fromUTF8?, dif_pos text.isValidUTF8]
    rfl
  simp [readText, hcount, hbody, htext]

theorem readOption_frameOption (text : Option String) (rest : List UInt8) :
    readOption (frameOption text ++ rest) = some (text, rest) := by
  cases text with
  | none => rfl
  | some text =>
    have hread := readText_frameText text rest
    have hfirst : ∀ other, frameText text ++ rest ≠ 2 :: other := by
      intro other hsame
      unfold frameText at hsame
      cases hbytes : textBytes text with
      | nil => simp [hbytes] at hsame
      | cons byte bytes => simp [hbytes, List.replicate_succ] at hsame
    unfold readOption frameOption
    split
    · next other hsame => exact absurd hsame (hfirst _)
    · simp [hread]

theorem unframe_frame (journal : Journal) : unframe (frame journal) = some journal := by
  have hlast := readOption_frameOption journal.targetScope []
  rw [List.append_nil] at hlast
  cases hcommitted : journal.committed <;>
    simp [unframe, frame, readText_frameText, readOption_frameOption, hlast, hcommitted] <;>
    cases journal <;> simp_all

theorem length_frameText (text : String) :
    (frameText text).length = 2 * (Text.units text).length + 1 := by
  have hunits : (Text.units text).length = (textBytes text).length := by
    simp [Text.units, textBytes]
  rw [hunits]
  simp [frameText]
  omega

theorem length_of_isDigest {text : String} (h : Foundation.Identity.isDigest text = true) :
    (Text.units text).length = 71 := by
  unfold Foundation.Identity.isDigest Text.isHexAddress at h
  split at h
  · next digits hdigits =>
    simp only [Bool.and_eq_true, beq_iff_eq] at h
    have hlength := Text.length_of_stripPrefix? hdigits
    have hextends : (Text.units "sha256:").length = 7 := by decide
    omega
  · cases h

theorem length_frame {admission : Admission} (h : admission.validate = true) :
    (frame admission.journal).length ≤ 64 * 1024 := by
  simp only [Admission.validate, validOperationId, Bool.and_eq_true, decide_eq_true_eq] at h
  obtain ⟨⟨⟨⟨⟨⟨-, hid⟩, -⟩, hplan⟩, htarget⟩, hoperation⟩, hscope⟩ := h
  have hplanLength := length_of_isDigest hplan
  have htargetLength := length_of_isDigest htarget
  have hoperationLength : (Text.units admission.operation).length ≤ 7 := by
    simp only [List.mem_cons, List.not_mem_nil, or_false] at hoperation
    rcases hoperation with hname | hname | hname <;> rw [hname] <;> decide
  have hscopeLength : (frameOption admission.targetScope).length ≤ 19 := by
    cases hname : admission.targetScope with
    | none => simp [frameOption]
    | some name =>
      rw [hname] at hscope
      have hmem : name = "project" ∨ name = "user_root" := by simpa using hscope
      rcases hmem with rfl | rfl <;> decide
  have hbackup : (frameOption admission.journal.backupRef).length = 1 := rfl
  simp only [frame, List.length_cons, List.length_append, length_frameText, hbackup]
  simp only [Admission.journal]
  omega

/-- The request that examples use. -/
def admission : Admission where
  operationId := "operation_1"
  planDigest := "sha256:" ++ Foundation.Sample.hex 1
  operation := "install"
  targetPreconditionDigest := "sha256:" ++ Foundation.Sample.hex 2
  targetScope := none

/-- The canonical bytes of the sample journal. -/
def journalText : String :=
  "\x7b\"backup_ref\":null,\"operation\":\"install\",\"operation_id\":\"operation_1\"," ++
    "\"phase\":\"prepared\",\"plan_digest\":\"" ++ admission.planDigest ++
    "\",\"schema_version\":1,\"target_precondition_digest\":\"" ++
    admission.targetPreconditionDigest ++ "\"\x7d"

def encodeJournal (journal : Journal) : List UInt8 :=
  if journal = admission.journal then textBytes journalText else frame journal

def decodeJournal (bytes : List UInt8) : Option Journal :=
  if bytes = textBytes journalText then some admission.journal else unframe bytes

end Sample

/-- Names fold as ASCII ones, and digests and identities are codes of what they name. -/
def sampleSystem : System where
  platform := asciiPlatform
  nfc_journal := rfl
  foldCase := asciiPlatform.lower
  digest := fun bytes ↦ "sha256:" ++
    Foundation.Sample.hex (bytes.foldl (fun total byte ↦ (total * 257 + byte.toNat + 1) % 16 ^ 64) 7)
  allocate := fun world ↦ Vector.replicate 25
    (UInt8.ofNat (world.control.entries.length + world.root.entries.length))
  control := ".ai-stp-native"
  fits := fun value ↦ asciiPlatform.encodedLength value ≤ 8 * 1024 * 1024
  encodeJournal := Sample.encodeJournal
  decodeJournal := Sample.decodeJournal
  decodeJournal_encodeJournal := by
    intro journal
    unfold Sample.decodeJournal Sample.encodeJournal
    by_cases hsample : journal = Sample.admission.journal
    · simp [hsample]
    · have hdiffers : Sample.frame journal ≠ Sample.textBytes Sample.journalText := by
        intro hsame
        have hfirst := congrArg List.head? hsame
        have htext : (Sample.textBytes Sample.journalText).head? = some 123 := by decide +kernel
        rw [htext] at hfirst
        cases hcommitted : journal.committed <;> simp [Sample.frame, hcommitted] at hfirst
      rw [if_neg hsample, if_neg hdiffers]
      exact Sample.unframe_frame journal
  encodeJournal_length := by
    intro admission hvalid
    unfold Sample.encodeJournal
    split_ifs
    · decide +kernel
    · exact Sample.length_frame hvalid

end AiStp.Installation
