import AiStp.Custody.Model

/-!
# Review and completion of a custody change

`review` releases what the subjects of the changes hold, claims what they desire, and plans one
effect for every entry that it observed on the way. `completed` is the snapshot that the completion
of a review commits once every effect has been applied.

All refusals are one reason, and are `none` here.
-/

set_option autoImplicit false

namespace AiStp.Custody

open Client Library

/-- A review while it is being made. -/
structure Draft where
  /-- The keys of the changes that were released. -/
  subjects : List String
  /-- The addresses that were claimed. -/
  files : List Address
  entries : List Entry
  /-- What was observed, by the id of the entry. -/
  observations : SortedMap Observed

/-! ### Releasing -/

/-- A reference and a change share a root only as one scope, and in the global scope only as one
harness. Other roots are apart. -/
def Change.agrees (environment : Environment) (change : Change) (reference : Reference) : Bool :=
  if reference.subject.root.identity = change.subject.root.identity then
    reference.subject.scope = change.subject.scope &&
      (change.subject.scope ≠ .global || reference.subject.harness = change.subject.harness)
  else
    environment.opens reference.subject.root &&
      environment.disjoint change.subject.root reference.subject.root

/-- The observation shows the entry's value, and for a whole file the file that was recorded. -/
def Entry.shownBy (entry : Entry) (observed : Observed) : Bool :=
  observed.value = some entry.value &&
    !(entry.ownership = .whole && entry.address.file.isSome &&
      entry.address.file ≠ observed.address.file)

/-- The observation of one entry that the subject holds. -/
def observeHeld (environment : Environment) (subject : Subject)
    (observations : SortedMap Observed) (entry : Entry) : Option (SortedMap Observed) :=
  match entry.references.get? subject.key with
  | none => some observations
  | some reference => do
    let observed ← environment.observe { reference.locator with root := subject.root }
    guard (entry.shownBy observed)
    some (observations.insert entry.id observed)

def Entry.release (key : String) (entry : Entry) : Entry :=
  { entry with references := entry.references.remove key }

/-- One round of the first loop of `review_inner`. -/
def release (environment : Environment) (before : Snapshot) (draft : Draft) (change : Change) :
    Option Draft := do
  guard (change.subject.validate environment)
  guard (change.subject.key ∉ draft.subjects ∧ change.desired.length ≤ 2000)
  guard (environment.opens change.subject.root)
  guard (before.entries.all fun entry ↦
    entry.references.all fun reference ↦ change.agrees environment reference.2)
  let observations ← before.entries.foldlM (observeHeld environment change.subject)
    draft.observations
  some { draft with
    subjects := draft.subjects ++ [change.subject.key]
    entries := draft.entries.map (Entry.release change.subject.key)
    observations := observations }

/-! ### Claiming -/

/-- One round of the search for the entry that an observation falls on. -/
def matchEntry (environment : Environment) (observed : Observed) (matched : Option Nat)
    (place : Entry × Nat) : Option (Option Nat) :=
  if place.1.address.sameFile environment observed.address then
    match place.1.ownership, observed.locator.ownership with
    | .whole, .whole => some (some place.2)
    | .contribution parserId key, .contribution parserId' key' =>
      if parserId = parserId' then some (if key = key' then some place.2 else matched) else none
    | _, _ => none
  else some matched

/-- The place of the entry that is claimed, and the entries with it among them. -/
def placeClaim (environment : Environment) (operationId : String) (proofs : List Adoption)
    (entries : List Entry) (desired : Desired) : Option Nat → Option (Nat × List Entry)
  | some index => do
    let entry ← entries[index]?
    guard (entry.shownBy desired.observed)
    guard (entry.value = desired.value ∨ entry.references = [])
    some (index, entries)
  | none => do
    guard (desired.observed.value = none ∨
      desired.observed.value = some desired.value ∧
        proofs.any (·.permits desired.observed.locator))
    let id ← environment.claimId operationId desired.observed.address
      desired.observed.locator.ownership
    let entry : Entry :=
      { id := id, address := desired.observed.address
        ownership := desired.observed.locator.ownership, value := desired.value, references := [] }
    some (entries.length, entries ++ [entry])

def Desired.reference (desired : Desired) (operationId : String) (subject : Subject) : Reference :=
  { operationId := some operationId, subject := subject, source := desired.source
    locator := desired.observed.locator }

def Entry.claim (entry : Entry) (operationId : String) (subject : Subject) (desired : Desired) :
    Entry :=
  { entry with
    value := desired.value
    references := entry.references.insert subject.key (desired.reference operationId subject) }

/-- One round of the second loop of `review_inner`. -/
def claim (environment : Environment) (operationId : String) (proofs : List Adoption)
    (draft : Draft) (wanted : Subject × Desired) : Option Draft := do
  guard (wanted.2.source.validate environment.platform)
  guard (wanted.2.observed.unchanged environment)
  guard (wanted.2.observed.locator.root = wanted.1.root ∧
    ∀ address ∈ draft.files, ¬ address.sameFile environment wanted.2.observed.address)
  let matched ← draft.entries.zipIdx.foldlM (matchEntry environment wanted.2.observed) none
  let place ← placeClaim environment operationId proofs draft.entries wanted.2 matched
  let entry ← place.2[place.1]?
  some { draft with
    files := draft.files ++ [wanted.2.observed.address]
    entries := place.2.set place.1 (entry.claim operationId wanted.1 wanted.2)
    observations := draft.observations.insert entry.id wanted.2.observed }

/-! ### The review -/

/-- The value that an entry keeps, when a subject still holds it. -/
def Draft.remains (draft : Draft) (id : String) : Option OwnedValue :=
  (draft.entries.find? fun entry ↦ entry.id = id && entry.references ≠ []).map (·.value)

def Draft.effect (draft : Draft) (observation : String × Observed) : Effect :=
  { entry := observation.1
    locator := observation.2.locator
    before := observation.2.value
    after := draft.remains observation.1
    observation := observation.2.before }

def Draft.snapshot (draft : Draft) (before : Snapshot) (operationId : String) : Snapshot :=
  { before with
    revision := operationId
    entries := draft.entries.filter (·.references ≠ []) }

/-- The draft after both loops. -/
def reviewDraft (environment : Environment) (operationId : String) (changes : List Change)
    (proofs : List Adoption) (before : Snapshot) : Option Draft := do
  let released ← changes.foldlM (release environment before)
    { subjects := [], files := [], entries := before.entries, observations := [] }
  (changes.flatMap fun change ↦ change.desired.map (change.subject, ·)).foldlM
    (claim environment operationId proofs) released

/-- `review_inner`, in the store whose snapshot is `before`. -/
def review (environment : Environment) (operationId : String) (changes : List Change)
    (proofs : List Adoption) (before : Snapshot) : Option Review := do
  guard (1 ≤ changes.length ∧ changes.length ≤ 3)
  guard (Passport.stableId environment.platform operationId "operation")
  guard (before.validate environment before.metadataRoot)
  let draft ← reviewDraft environment operationId changes proofs before
  let after := draft.snapshot before operationId
  guard (after.validate environment before.metadataRoot)
  let review : Review :=
    { operationId := operationId, beforeDigest := environment.stateDigest before, after := after
      effects := draft.observations.map draft.effect }
  guard (review.isValid environment)
  some review

/-! ### Completion -/

/-- The address under which an effect was reviewed. -/
def Effect.address (effect : Effect) : Address :=
  effect.observation.address effect.locator.root.identity effect.locator.path

/-- The entry with its address read again, when an effect touched its file. -/
def Entry.settle (environment : Environment) (touched : List Address) (entry : Entry) :
    Option Entry :=
  if touched.any fun address ↦ address.sameFile environment entry.address then do
    let reference ← entry.references.head?
    let observed ← environment.observe reference.2.locator
    guard (observed.value = some entry.value)
    some { entry with address := observed.address }
  else some entry

/-- The snapshot that `complete_inner` commits for a review that is being applied. -/
def completed (environment : Environment) (current : Snapshot) (review : Review) :
    Option Snapshot := do
  let shown ← review.effects.mapM (environment.observe ·.locator)
  guard (shown.map (·.value) = review.effects.map (·.after))
  guard (environment.stateDigest current = review.beforeDigest)
  let touched := review.effects.map (·.address) ++ shown.map (·.address)
  let entries ← review.after.entries.mapM (Entry.settle environment touched)
  let after : Snapshot := { review.after with entries := entries }
  guard (after.validate environment current.metadataRoot)
  some after

end AiStp.Custody
