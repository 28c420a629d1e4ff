import AiStp.Setups.Resolution

/-!
# Closed setups

A definition names its members twice, in its components and in its embedded records, and the pins,
the scans and the graph are made from the components alone. A resolution that passes is closed
(`Closed`) when every component is pinned at the digest it names, every embedded record was scanned
and may be passed on, no embedded identity is in the catalog, and every dependency of a member is
pinned as it is named. That holds exactly of the definitions that are `Whole`: every embedded record
is listed among the components, under its own digest, and a dependency names the digest of the
component that it is met by (`closed_iff_whole`).
-/

set_option autoImplicit false

namespace AiStp.Setups

open Library

variable (toolkit : Toolkit) (suite : SafetySuite) (request : Request)

/-! ### The property and its condition -/

def Pin.key (pin : Pin) : RefKey := (pin.stableId, pin.version)

/-- Some pin has this key and this digest, and what was found agrees with it. -/
def EmbeddedSetupResolution.Pinned (result : EmbeddedSetupResolution) (key : RefKey)
    (digest : String) : Prop :=
  ∃ pin ∈ result.pins, pin.key = key ∧ pin.digest = digest ∧ pin.digestMatches = true

/-- The scan was of this record's passport and artifact. -/
def Scan.IsOf (record : EmbeddedRecord) (scan : Scan) : Prop :=
  toolkit.validatePassport record.passport = some scan.passport ∧
  scan.contentDigest = record.artifactDigest ∧
  toolkit.unb64url record.artifactB64 = some scan.artifact

/-- The passport of a member: the row's, or that of the embedded record. -/
def Members.document? (members : Members) (key : RefKey) : Option Json :=
  match members.row? key with
  | some row => if row.passportDocument.asObject?.isSome then some row.passportDocument else none
  | none => (members.record? key).bind fun record ↦
      (toolkit.validatePassport record.passport).map ComponentVersionPassport.document

/-- What the definition and the catalog say of the members. -/
def membersOf (catalog : List CatalogRow) (document : DefinitionDocument) : Members :=
  ⟨catalogRows catalog document, document.embedded⟩

structure Closed (catalog : List CatalogRow) (document : DefinitionDocument)
    (result : EmbeddedSetupResolution) : Prop where
  components : ∀ ref ∈ document.components, result.Pinned ref.key ref.passportDigest
  scanned : ∀ record ∈ document.embedded, ∃ scan ∈ result.scans, scan.IsOf toolkit record
  redistributed : request.isPublic = true → ∀ record ∈ document.embedded,
    ∃ artifact snapshot passport, openRecord toolkit record = .ok (artifact, snapshot, passport) ∧
      mayRedistribute toolkit request snapshot passport = true
  apart : ∀ record ∈ document.embedded, ∀ row ∈ catalog, row.stableId ≠ record.ref.stableId
  dependencies : ∀ ref ∈ document.components,
    ∀ passport ∈ (membersOf catalog document).document? toolkit ref.key,
    ∀ dependency ∈ requiredComponents passport,
    ∃ digest, dependency.digest = .string digest ∧ result.Pinned dependency.key digest

structure Whole (catalog : List CatalogRow) (document : DefinitionDocument) : Prop where
  listed : ∀ record ∈ document.embedded,
    record.ref.key ∈ document.components.map ComponentRef.key
  named : ∀ ref ∈ document.components, ∀ record ∈ document.embedded, record.ref.key = ref.key →
    ref.passportDigest = record.passportDigest
  exact : ∀ ref ∈ document.components,
    ∀ passport ∈ (membersOf catalog document).document? toolkit ref.key,
    ∀ dependency ∈ requiredComponents passport, ∀ other ∈ document.components,
    other.key = dependency.key → dependency.digest = .string other.passportDigest
  scanning : request.skipSafety = true → document.embedded = []

/-! ### One round -/

/-- What the round of one component adds, unless its identity collides. -/
def memberScanned (members : Members) (ref : ComponentRef) : Scanned :=
  match members.row? ref.key with
  | some row => catalogMember row ref
  | none =>
    match members.record? ref.key with
    | some record => scanEmbedded toolkit suite request record
    | none => missingMember ref

/-- The key is of an embedded record, and the id of a row. -/
def Members.Collides (members : Members) (ref : ComponentRef) : Prop :=
  (members.record? ref.key).isSome ∧ ref.stableId ∈ members.catalogIdentities

variable {toolkit suite request} {members : Members}

variable {ref : ComponentRef} {progress : Progress}

theorem resolveMember_eq_ok {next : Progress} :
    resolveMember toolkit suite request members progress ref = .ok next ↔
      ¬ members.Collides ref ∧
        progress.add ref.key (memberScanned toolkit suite request members ref) = next := by
  unfold resolveMember memberScanned Members.Collides
  cases hrow : members.row? ref.key with
  | none =>
    cases hrecord : members.record? ref.key with
    | none => simp
    | some record => by_cases hid : ref.stableId ∈ members.catalogIdentities <;> simp [hid]
  | some row =>
    cases hrecord : members.record? ref.key with
    | none => simp
    | some record => by_cases hid : ref.stableId ∈ members.catalogIdentities <;> simp [hid]

/-- The document of a member depends on its key. -/
theorem memberScanned_document_congr {other : ComponentRef} (h : ref.key = other.key) :
    (memberScanned toolkit suite request members ref).document =
      (memberScanned toolkit suite request members other).document := by
  unfold memberScanned
  rw [h]
  cases members.row? other.key with
  | some row => rfl
  | none =>
    cases members.record? other.key with
    | some record => rfl
    | none => rfl

theorem mem_place {key : RefKey} {document : Json} {documents : List (RefKey × Json)}
    {entry : RefKey × Json} :
    entry ∈ place key document documents ↔
      entry = (key, document) ∨ entry ∈ documents ∧ entry.1 ≠ key := by
  unfold place
  split_ifs with hkey
  · rw [List.mem_map]
    constructor
    · rintro ⟨held, hheld, rfl⟩
      split_ifs with heq
      · exact .inl rfl
      · exact .inr ⟨hheld, heq⟩
    · rintro (rfl | ⟨hentry, hne⟩)
      · obtain ⟨held, hheld, hsame⟩ := List.mem_map.mp hkey
        exact ⟨held, hheld, if_pos hsame⟩
      · exact ⟨entry, hentry, if_neg hne⟩
  · rw [List.mem_append, List.mem_singleton]
    constructor
    · rintro (hentry | rfl)
      · exact .inr ⟨hentry, fun heq ↦ hkey (heq ▸ List.mem_map_of_mem hentry)⟩
      · exact .inl rfl
    · rintro (rfl | ⟨hentry, -⟩)
      · exact .inr rfl
      · exact .inl hentry

/-! ### The loop -/

variable (toolkit suite request members) in
/-- After these components the progress is what their rounds added, and none collided. -/
structure Follows (done : List ComponentRef) (progress : Progress) : Prop where
  pins : progress.pins =
    done.map fun ref ↦ (memberScanned toolkit suite request members ref).pin
  bindings : progress.bindings =
    done.flatMap fun ref ↦ (memberScanned toolkit suite request members ref).extra
  scans : progress.scans =
    done.flatMap fun ref ↦ (memberScanned toolkit suite request members ref).scan.toList
  documents : ∀ key document, (key, document) ∈ progress.documents ↔ ∃ ref ∈ done, ref.key = key ∧
    (memberScanned toolkit suite request members ref).document = some document
  apart : ∀ ref ∈ done, ¬ members.Collides ref

theorem follows_nil : Follows toolkit suite request members [] {} where
  pins := rfl
  bindings := rfl
  scans := rfl
  documents := by simp
  apart := by simp

theorem Follows.mem_add {done : List ComponentRef}
    (h : Follows toolkit suite request members done progress) (key : RefKey) (document : Json) :
    (key, document) ∈
        (progress.add ref.key (memberScanned toolkit suite request members ref)).documents ↔
      ∃ other ∈ done ++ [ref], other.key = key ∧
        (memberScanned toolkit suite request members other).document = some document := by
  have hlast : (∃ other ∈ done ++ [ref], other.key = key ∧
      (memberScanned toolkit suite request members other).document = some document) ↔
      (key, document) ∈ progress.documents ∨ ref.key = key ∧
        (memberScanned toolkit suite request members ref).document = some document := by
    rw [h.documents]
    simp [or_and_right, exists_or]
  rw [hlast]
  cases hdocument : (memberScanned toolkit suite request members ref).document with
  | none => simp [Progress.add, hdocument]
  | some held =>
    have hadd : (progress.add ref.key (memberScanned toolkit suite request members ref)).documents =
        place ref.key held progress.documents := by
      simp [Progress.add, hdocument]
    rw [hadd, mem_place]
    constructor
    · rintro (heq | ⟨hold, -⟩)
      · obtain ⟨rfl, rfl⟩ := Prod.mk.inj heq
        exact .inr ⟨rfl, rfl⟩
      · exact .inl hold
    · rintro (hold | ⟨rfl, heq⟩)
      · by_cases hkey : key = ref.key
        · obtain ⟨other, -, hother, hsame⟩ := (h.documents key document).mp hold
          rw [memberScanned_document_congr (hother.trans hkey), hdocument] at hsame
          exact .inl (Prod.ext hkey (Option.some.inj hsame).symm)
        · exact .inr ⟨hold, hkey⟩
      · exact .inl (Prod.ext rfl (Option.some.inj heq).symm)

theorem follows_step {done : List ComponentRef} {next : Progress}
    (h : Follows toolkit suite request members done progress)
    (hstep : resolveMember toolkit suite request members progress ref = .ok next) :
    Follows toolkit suite request members (done ++ [ref]) next := by
  obtain ⟨hapart, rfl⟩ := resolveMember_eq_ok.mp hstep
  refine ⟨?_, ?_, ?_, h.mem_add, ?_⟩
  · simp [Progress.add, h.pins]
  · simp [Progress.add, h.bindings]
  · simp [Progress.add, h.scans]
  · intro other hother
    rcases List.mem_append.mp hother with hold | hnew
    · exact h.apart other hold
    · exact List.mem_singleton.mp hnew ▸ hapart

theorem follows_run {components : List ComponentRef}
    (h : components.foldlM (resolveMember toolkit suite request members) {} = .ok progress) :
    Follows toolkit suite request members components progress :=
  foldlM_ok_invariant (Follows toolkit suite request members) h follows_nil
    fun _ _ _ _ _ hdone hstep ↦ follows_step hdone hstep

/-! ### The graph -/

/-- Every dependency of a graph that passes is one of its members. -/
theorem graphBindings_known {nodes : List (RefKey × Json)}
    (h : ∀ binding ∈ graphBindings nodes, binding.failed = false) :
    ∀ node ∈ nodes, ∀ dependency ∈ requiredComponents node.2,
      dependency.key ∈ nodes.map Prod.fst := by
  unfold graphBindings at h
  cases hrun : nodes.foldlM (graphMember (nodes.map Prod.fst)) [] with
  | error reason =>
    rw [hrun] at h
    exact absurd (h _ (List.mem_singleton.mpr rfl)) (by simp [Binding.failed])
  | ok managed =>
    refine foldlM_ok_invariant (fun done _ ↦ ∀ node ∈ done,
      ∀ dependency ∈ requiredComponents node.2, dependency.key ∈ nodes.map Prod.fst) hrun
      (by simp) ?_
    intro done node held next _ hdone hstep other hother
    rcases List.mem_append.mp hother with hold | hnew
    · exact hdone other hold
    · rw [List.mem_singleton.mp hnew]
      unfold graphMember at hstep
      split_ifs at hstep with hunknown
      simpa using hunknown

/-! ### A member that passes -/

theorem openRecord_eq_ok {record : EmbeddedRecord} {artifact : Bytes} {snapshot : SourceSnapshot}
    {passport : ComponentVersionPassport}
    (h : openRecord toolkit record = .ok (artifact, snapshot, passport)) :
    toolkit.unb64url record.artifactB64 = some artifact ∧
      toolkit.validatePassport record.passport = some passport := by
  simp only [openRecord, bind_eq_ok, found_eq_ok] at h
  obtain ⟨_, hartifact, _, -, _, -, _, -, _, hpassport, h⟩ := h
  obtain ⟨rfl, rfl, rfl⟩ : _ ∧ _ ∧ _ := by simpa using Except.ok.inj h
  exact ⟨hartifact, hpassport⟩

/-- Nothing that was found of the member stands against it. -/
structure Scanned.Passes (scanned : Scanned) : Prop where
  extra : ∀ binding ∈ scanned.extra, binding.failed = false
  pin : scanned.pin.failedMandatory = false

theorem catalogMember_passes {row : CatalogRow} (h : (catalogMember row ref).Passes) :
    (catalogMember row ref).pin.digestMatches = true := by
  by_contra hdiffers
  have hfailed := h.pin
  simp only [catalogMember, pinFromCatalog, Bool.or_eq_false_iff, Bool.not_eq_false'] at hfailed
  exact hdiffers hfailed.1

variable (toolkit suite request) in
/-- What a record that passes was opened to, and whether it was scanned. -/
structure ScanPassed (record : EmbeddedRecord) (scanned : Scanned) : Prop where
  opened : ∃ artifact snapshot passport,
    openRecord toolkit record = .ok (artifact, snapshot, passport) ∧
    (request.isPublic = true → mayRedistribute toolkit request snapshot passport = true) ∧
    scanned.document = some passport.document ∧
    scanned.scan = if request.skipSafety then none else
      some ⟨passport, record.artifactDigest, artifact, suite passport record.artifactDigest artifact⟩
  key : scanned.pin.key = record.ref.key
  digest : scanned.pin.digest = record.passportDigest
  digestMatches : scanned.pin.digestMatches = true

theorem scanEmbedded_passes {record : EmbeddedRecord}
    (h : (scanEmbedded toolkit suite request record).Passes) :
    ScanPassed toolkit suite request record (scanEmbedded toolkit suite request record) := by
  have hextra := h.extra
  have hpin := h.pin
  unfold scanEmbedded at *
  cases hopen : openRecord toolkit record with
  | error code =>
    rw [hopen] at hpin
    cases hpin
  | ok opened =>
    obtain ⟨artifact, snapshot, passport⟩ := opened
    rw [hopen] at hpin
    dsimp only at hpin ⊢
    by_cases hforbidden :
        (request.isPublic && !mayRedistribute toolkit request snapshot passport) = true
    · rw [if_pos hforbidden] at hpin
      cases hpin
    · have hallowed : request.isPublic = true →
          mayRedistribute toolkit request snapshot passport = true := by
        simpa using hforbidden
      rw [if_neg hforbidden]
      by_cases hskip : request.skipSafety = true
      · rw [if_pos hskip]
        exact ⟨⟨artifact, snapshot, passport, hopen, hallowed, rfl, by rw [if_pos hskip]⟩,
          rfl, rfl, rfl⟩
      · rw [if_neg hskip]
        exact ⟨⟨artifact, snapshot, passport, hopen, hallowed, rfl, by rw [if_neg hskip]⟩,
          rfl, rfl, rfl⟩

/-! ### A resolution that passes -/

section Passing

variable {catalog : List CatalogRow} {bytes : Bytes} {document : DefinitionDocument}
  {result : EmbeddedSetupResolution}

/-- A loop that stops has a failed binding. -/
theorem resolveMember_stopped {components : List ComponentRef} {first last : Progress}
    (h : components.foldlM (resolveMember toolkit suite request members) first = .error last) :
    last.bindings.any Binding.failed = true := by
  induction components generalizing first with
  | nil => cases h
  | cons ref components ih =>
    rw [List.foldlM_cons] at h
    cases hround : resolveMember toolkit suite request members first ref with
    | ok next =>
      rw [hround] at h
      exact ih h
    | error stopped =>
      rw [hround] at h
      cases h
      unfold resolveMember at hround
      split at hround
      · next row record _ _ =>
        split_ifs at hround
        · cases hround
          simp [lookupFailed, Binding.failed]
        · split at hround <;> cases hround
      · cases hround
      · cases hround

/-- The rounds of a loop that passes, and its graph. -/
theorem resolution_passes {hasEmbedded : Bool} {run : Except Progress Progress}
    (hstopped : ∀ last, run = .error last → last.bindings.any Binding.failed = true)
    (h : (resolution request hasEmbedded run).passes = true) :
    ∃ progress, run = .ok progress ∧ (resolution request hasEmbedded run).pins = progress.pins ∧
      (resolution request hasEmbedded run).scans = progress.scans ∧
      (∀ binding ∈ progress.bindings, binding.failed = false) ∧
      (∀ pin ∈ progress.pins, pin.failedMandatory = false) ∧
      ∀ binding ∈ graphBindings progress.documents, binding.failed = false := by
  cases run with
  | error last => simp [resolution, EmbeddedSetupResolution.passes, hstopped last rfl] at h
  | ok progress =>
    unfold resolution at h ⊢
    dsimp only at h ⊢
    split_ifs at h with hfailed
    · simp [EmbeddedSetupResolution.passes, hfailed] at h
    · rw [if_neg hfailed]
      have hpasses : (completed request progress hasEmbedded).any Binding.failed = false ∧
          progress.pins.any Pin.failedMandatory = false := by
        simpa [EmbeddedSetupResolution.passes] using h
      refine ⟨progress, rfl, rfl, rfl, by simpa using hfailed, by simpa using hpasses.2, ?_⟩
      have hgraph := hpasses.1
      unfold completed at hgraph
      rw [List.any_append, Bool.or_eq_false_iff] at hgraph
      simpa using hgraph.2

variable (toolkit suite request) in
/-- What a resolution that passes comes to, component by component. -/
structure Passed (catalog : List CatalogRow) (document : DefinitionDocument)
    (result : EmbeddedSetupResolution) : Prop where
  nodup : (document.embedded.map fun record ↦ record.ref.key).Nodup
  pins : result.pins = document.components.map fun ref ↦
    (memberScanned toolkit suite request (membersOf catalog document) ref).pin
  scans : result.scans = document.components.flatMap fun ref ↦
    (memberScanned toolkit suite request (membersOf catalog document) ref).scan.toList
  members : ∀ ref ∈ document.components,
    (memberScanned toolkit suite request (membersOf catalog document) ref).Passes
  apart : ∀ ref ∈ document.components, ¬ (membersOf catalog document).Collides ref
  known : ∀ ref ∈ document.components,
    ∀ passport ∈ (memberScanned toolkit suite request (membersOf catalog document) ref).document,
    ∀ dependency ∈ requiredComponents passport,
    dependency.key ∈ document.components.map ComponentRef.key

theorem passed_of_passes
    (h : (resolveDocument toolkit suite request catalog bytes document).passes = true) :
    Passed toolkit suite request catalog document
      (resolveDocument toolkit suite request catalog bytes document) := by
  unfold resolveDocument at h ⊢
  by_cases hnodup : (document.embedded.map fun record ↦ record.ref.key).Nodup
  · rw [if_neg (not_not.mpr hnodup)] at h ⊢
    cases hvalid : validateSetupDefinition toolkit bytes (catalogMemberIds document) with
    | error code =>
      rw [hvalid] at h
      simp [EmbeddedSetupResolution.passes, refused, Binding.failed] at h
    | ok again =>
      rw [hvalid] at h
      obtain ⟨progress, hrun, hpins, hscans, hbindings, hpassing, hgraph⟩ :=
        resolution_passes (fun _ ↦ resolveMember_stopped) h
      have hfollows := follows_run hrun
      refine ⟨hnodup, hpins.trans hfollows.pins, hscans.trans hfollows.scans, ?_,
        hfollows.apart, ?_⟩
      · intro ref href
        refine ⟨fun binding hbinding ↦ hbindings binding ?_, hpassing _ ?_⟩
        · rw [hfollows.bindings]
          exact List.mem_flatMap.mpr ⟨ref, href, hbinding⟩
        · rw [hfollows.pins]
          exact List.mem_map_of_mem href
      · intro ref href passport hpassport dependency hdependency
        have hnode := (hfollows.documents ref.key passport).mpr ⟨ref, href, rfl, hpassport⟩
        obtain ⟨⟨key, other⟩, hother, hkey⟩ :=
          List.mem_map.mp (graphBindings_known hgraph _ hnode dependency hdependency)
        obtain ⟨met, hmet, hsame, -⟩ := (hfollows.documents key other).mp hother
        exact List.mem_map.mpr ⟨met, hmet, hsame.trans hkey⟩
  · rw [if_pos hnodup] at h
    simp [EmbeddedSetupResolution.passes, lookupFailed, Binding.failed] at h

/-! ### Listed members -/

theorem Members.record?_key {key : RefKey} {record : EmbeddedRecord}
    (h : members.record? key = some record) : record ∈ members.embedded ∧ record.ref.key = key :=
  ⟨List.mem_of_find?_eq_some h, by simpa using List.find?_some h⟩

theorem Members.row?_key {key : RefKey} {row : CatalogRow} (h : members.row? key = some row) :
    row ∈ members.rows ∧ row.key = key := by
  have hmem := List.mem_of_getLast? h
  simpa using hmem

namespace Passed

variable (h : Passed toolkit suite request catalog document result)

include h

theorem record?_of_mem {record : EmbeddedRecord} (hrecord : record ∈ document.embedded)
    {key : RefKey} (hkey : record.ref.key = key) :
    (membersOf catalog document).record? key = some record := by
  have hsome : ((membersOf catalog document).record? key).isSome := by
    rw [Members.record?, List.find?_isSome]
    exact ⟨record, hrecord, by simpa using hkey⟩
  obtain ⟨held, hheld⟩ := Option.isSome_iff_exists.mp hsome
  obtain ⟨hmem, hsame⟩ := Members.record?_key hheld
  rw [hheld, List.inj_on_of_nodup_map h.nodup hmem hrecord (hsame.trans hkey.symm)]

section

variable (href : ref ∈ document.components)
include href

/-- An embedded member is in no row. -/
theorem row?_of_record? {record : EmbeddedRecord}
    (hrecord : (membersOf catalog document).record? ref.key = some record) :
    (membersOf catalog document).row? ref.key = none := by
  by_contra hsome
  obtain ⟨row, hrow⟩ := Option.ne_none_iff_exists'.mp hsome
  obtain ⟨hmem, hkey⟩ := Members.row?_key hrow
  refine h.apart ref href ⟨Option.isSome_of_eq_some hrecord, List.mem_map.mpr ⟨row, hmem, ?_⟩⟩
  exact congrArg Prod.fst hkey

/-- The scan and the pin of an embedded record that is listed. -/
theorem scanned {record : EmbeddedRecord}
    (hrecord : (membersOf catalog document).record? ref.key = some record) :
    ScanPassed toolkit suite request record
      (memberScanned toolkit suite request (membersOf catalog document) ref) := by
  have hpasses := h.members ref href
  have hrow := h.row?_of_record? href hrecord
  unfold memberScanned at hpasses ⊢
  rw [hrow, hrecord] at hpasses ⊢
  exact scanEmbedded_passes hpasses

/-- A component that no record is embedded for is pinned at its own digest. -/
theorem catalogued (hrecord : (membersOf catalog document).record? ref.key = none) :
    ∃ row, (membersOf catalog document).row? ref.key = some row ∧
      memberScanned toolkit suite request (membersOf catalog document) ref =
        catalogMember row ref ∧
      (catalogMember row ref).pin.digestMatches = true := by
  have hpasses := h.members ref href
  unfold memberScanned at hpasses ⊢
  cases hrow : (membersOf catalog document).row? ref.key with
  | none =>
    rw [hrow, hrecord] at hpasses
    cases hpasses.pin
  | some row =>
    rw [hrow] at hpasses
    exact ⟨row, rfl, rfl, catalogMember_passes hpasses⟩

theorem pin_key :
    (memberScanned toolkit suite request (membersOf catalog document) ref).pin.key = ref.key ∧
      (memberScanned toolkit suite request (membersOf catalog document) ref).pin.digestMatches =
        true := by
  cases hrecord : (membersOf catalog document).record? ref.key with
  | some record =>
    have hscanned := h.scanned href hrecord
    exact ⟨hscanned.key.trans (Members.record?_key hrecord).2, hscanned.digestMatches⟩
  | none =>
    obtain ⟨row, hrow, hmember, hmatches⟩ := h.catalogued href hrecord
    rw [hmember]
    exact ⟨(Members.row?_key hrow).2, hmatches⟩

theorem document_eq :
    (memberScanned toolkit suite request (membersOf catalog document) ref).document =
      (membersOf catalog document).document? toolkit ref.key := by
  cases hrecord : (membersOf catalog document).record? ref.key with
  | some record =>
    obtain ⟨artifact, snapshot, passport, hopen, -, hdocument, -⟩ :=
      (h.scanned href hrecord).opened
    rw [hdocument, Members.document?, h.row?_of_record? href hrecord, hrecord]
    simp [(openRecord_eq_ok hopen).2]
  | none =>
    obtain ⟨row, hrow, hmember, -⟩ := h.catalogued href hrecord
    rw [hmember, Members.document?, hrow]
    rfl

end

/-- The digest that a component is pinned at is the one it names, or the record's. -/
theorem pin_digest (hnamed : ∀ ref ∈ document.components, ∀ record ∈ document.embedded,
      record.ref.key = ref.key → ref.passportDigest = record.passportDigest)
    (href : ref ∈ document.components) :
    (memberScanned toolkit suite request (membersOf catalog document) ref).pin.digest =
      ref.passportDigest := by
  cases hrecord : (membersOf catalog document).record? ref.key with
  | some record =>
    obtain ⟨hmem, hkey⟩ := Members.record?_key hrecord
    rw [(h.scanned href hrecord).digest, hnamed ref href record hmem hkey]
  | none =>
    obtain ⟨row, -, hmember, -⟩ := h.catalogued href hrecord
    rw [hmember]
    rfl

/-- Two components of one key are pinned at one digest. -/
theorem pin_digest_congr {other : ComponentRef} (href : ref ∈ document.components)
    (hother : other ∈ document.components) (hkey : ref.key = other.key) :
    (memberScanned toolkit suite request (membersOf catalog document) ref).pin.digest =
      (memberScanned toolkit suite request (membersOf catalog document) other).pin.digest := by
  cases hrecord : (membersOf catalog document).record? ref.key with
  | some record =>
    rw [(h.scanned href hrecord).digest, (h.scanned hother (hkey ▸ hrecord)).digest]
  | none =>
    obtain ⟨row, hrow, hmember, hmatches⟩ := h.catalogued href hrecord
    obtain ⟨again, hagain, hsame, hmatches'⟩ := h.catalogued hother (hkey ▸ hrecord)
    obtain rfl : row = again := Option.some.inj (hrow.symm.trans (hkey ▸ hagain))
    have hfirst : row.passportDigest = some ref.passportDigest := of_decide_eq_true hmatches
    have hsecond : row.passportDigest = some other.passportDigest := of_decide_eq_true hmatches'
    rw [hmember, hsame]
    exact Option.some.inj (hfirst.symm.trans hsecond)

theorem pinned_iff {key : RefKey} {digest : String} :
    result.Pinned key digest ↔ ∃ ref ∈ document.components, ref.key = key ∧
      (memberScanned toolkit suite request (membersOf catalog document) ref).pin.digest =
        digest := by
  unfold EmbeddedSetupResolution.Pinned
  rw [h.pins]
  constructor
  · rintro ⟨pin, hpin, hkey, hdigest, -⟩
    obtain ⟨ref, href, rfl⟩ := List.mem_map.mp hpin
    exact ⟨ref, href, (h.pin_key href).1.symm.trans hkey, hdigest⟩
  · rintro ⟨ref, href, hkey, hdigest⟩
    exact ⟨_, List.mem_map_of_mem href, (h.pin_key href).1.trans hkey, hdigest, (h.pin_key href).2⟩

/-! ### The two directions -/

theorem closed_of_whole (hwhole : Whole toolkit request catalog document) :
    Closed toolkit request catalog document result := by
  have hrecords : ∀ record ∈ document.embedded, ∃ ref ∈ document.components,
      ref.key = record.ref.key ∧
      (membersOf catalog document).record? ref.key = some record := by
    intro record hrecord
    obtain ⟨ref, href, hkey⟩ := List.mem_map.mp (hwhole.listed record hrecord)
    exact ⟨ref, href, hkey, h.record?_of_mem hrecord hkey.symm⟩
  refine ⟨?_, ?_, ?_, ?_, ?_⟩
  · intro ref href
    exact h.pinned_iff.mpr ⟨ref, href, rfl, h.pin_digest hwhole.named href⟩
  · intro record hrecord
    obtain ⟨ref, href, -, hfound⟩ := hrecords record hrecord
    obtain ⟨artifact, snapshot, passport, hopen, -, -, hscan⟩ := (h.scanned href hfound).opened
    have hsuite : ¬ request.skipSafety = true := by
      intro hskip
      rw [hwhole.scanning hskip] at hrecord
      cases hrecord
    rw [if_neg hsuite] at hscan
    obtain ⟨hartifact, hpassport⟩ := openRecord_eq_ok hopen
    refine ⟨⟨passport, record.artifactDigest, artifact,
      suite passport record.artifactDigest artifact⟩, ?_, hpassport, rfl, hartifact⟩
    rw [h.scans]
    exact List.mem_flatMap.mpr ⟨ref, href, by simp [hscan]⟩
  · intro hpublic record hrecord
    obtain ⟨ref, href, -, hfound⟩ := hrecords record hrecord
    obtain ⟨artifact, snapshot, passport, hopen, hallowed, -, -⟩ := (h.scanned href hfound).opened
    exact ⟨artifact, snapshot, passport, hopen, hallowed hpublic⟩
  · intro record hrecord row hrow hsame
    obtain ⟨ref, href, hkey, hfound⟩ := hrecords record hrecord
    refine h.apart ref href ⟨Option.isSome_of_eq_some hfound, List.mem_map.mpr ⟨row, ?_, ?_⟩⟩
    · refine List.mem_filter.mpr ⟨hrow, ?_⟩
      rw [decide_eq_true_eq]
      exact .inr (hsame ▸ List.mem_map.mpr ⟨record, hrecord, rfl⟩)
    · exact hsame.trans (congrArg Prod.fst hkey).symm
  · intro ref href passport hpassport dependency hdependency
    have hdocument := (h.document_eq href).symm ▸ hpassport
    obtain ⟨other, hother, hkey⟩ :=
      List.mem_map.mp (h.known ref href passport hdocument dependency hdependency)
    exact ⟨other.passportDigest,
      hwhole.exact ref href passport hpassport dependency hdependency other hother hkey,
      h.pinned_iff.mpr ⟨other, hother, hkey, h.pin_digest hwhole.named hother⟩⟩

theorem whole_of_closed
    (hvalid : ∀ record ∈ document.embedded, validateRecord toolkit [] record = .ok ())
    (hclosed : Closed toolkit request catalog document result) :
    Whole toolkit request catalog document := by
  have hnamed : ∀ ref ∈ document.components, ∀ record ∈ document.embedded,
      record.ref.key = ref.key → ref.passportDigest = record.passportDigest := by
    intro ref href record hrecord hkey
    obtain ⟨other, hother, hsame, hdigest⟩ := h.pinned_iff.mp (hclosed.components ref href)
    have hfound := h.record?_of_mem hrecord (hkey.trans hsame.symm)
    rw [← hdigest, (h.scanned hother hfound).digest]
  have hscans : ∀ record ∈ document.embedded, ∃ ref ∈ document.components,
      record.ref.key = ref.key ∧ request.skipSafety = false := by
    intro record hrecord
    obtain ⟨scan, hscan, hpassport, -, -⟩ := hclosed.scanned record hrecord
    rw [h.scans] at hscan
    obtain ⟨ref, href, hmem⟩ := List.mem_flatMap.mp hscan
    refine ⟨ref, href, ?_⟩
    cases hfound : (membersOf catalog document).record? ref.key with
    | none =>
      obtain ⟨row, -, hmember, -⟩ := h.catalogued href hfound
      rw [hmember] at hmem
      cases hmem
    | some held =>
      obtain ⟨hheld, hkey⟩ := Members.record?_key hfound
      obtain ⟨artifact, snapshot, passport, hopen, -, -, hscanned⟩ :=
        (h.scanned href hfound).opened
      rw [hscanned] at hmem
      split_ifs at hmem with hskip
      · cases hmem
      · have hsame : passport = scan.passport := by
          rw [← Option.some.inj (Option.mem_toList.mp hmem)]
        have hopened := (openRecord_eq_ok hopen).2
        obtain ⟨-, _, first, -, hfirst, hid, hversion⟩ := validateRecord_eq_ok (hvalid held hheld)
        obtain ⟨-, _, second, -, hsecond, hid', hversion'⟩ :=
          validateRecord_eq_ok (hvalid record hrecord)
        obtain rfl : passport = first := Option.some.inj (hopened.symm.trans hfirst)
        obtain rfl : scan.passport = second := Option.some.inj (hpassport.symm.trans hsecond)
        refine ⟨Eq.trans ?_ hkey, Bool.eq_false_iff.mpr hskip⟩
        rw [hsame] at hid hversion
        exact Prod.ext (hid'.symm.trans hid) (hversion'.symm.trans hversion)
  refine ⟨?_, hnamed, ?_, ?_⟩
  · intro record hrecord
    obtain ⟨ref, href, hkey, -⟩ := hscans record hrecord
    exact List.mem_map.mpr ⟨ref, href, hkey.symm⟩
  · intro ref href passport hpassport dependency hdependency other hother hkey
    obtain ⟨digest, hdigest, hpinned⟩ :=
      hclosed.dependencies ref href passport hpassport dependency hdependency
    obtain ⟨met, hmet, hsame, hpin⟩ := h.pinned_iff.mp hpinned
    rw [hdigest, ← hpin, h.pin_digest_congr hmet hother (hsame.trans hkey.symm),
      h.pin_digest hnamed hother]
  · intro hskip
    by_contra hsome
    obtain ⟨record, hrecord⟩ := List.exists_mem_of_ne_nil _ hsome
    obtain ⟨-, -, -, hsuite⟩ := hscans record hrecord
    rw [hskip] at hsuite
    cases hsuite

end Passed

end Passing

/-! ### Definitions that are whole -/

/-- A resolution that passes is of a closed setup exactly when the definition is whole. -/
theorem closed_iff_whole (toolkit : Toolkit) (suite : SafetySuite) (request : Request)
    (catalog : List CatalogRow) (bytes : Bytes) (document : DefinitionDocument)
    (result : EmbeddedSetupResolution)
    (hparsed : tryParseSetupDefinition toolkit bytes = some document)
    (hresult : resolveEmbeddedSetup toolkit suite request catalog bytes = some result)
    (hpasses : result.passes = true) :
    Closed toolkit request catalog document result ↔ Whole toolkit request catalog document := by
  have hresolved : resolveDocument toolkit suite request catalog bytes document = result := by
    rw [resolveEmbeddedSetup, hparsed] at hresult
    exact Option.some.inj hresult
  have hvalid : validateSetupDefinition toolkit bytes [] = .ok document := by
    rw [tryParseSetupDefinition] at hparsed
    cases hread : validateSetupDefinition toolkit bytes [] with
    | error code =>
      rw [hread] at hparsed
      cases hparsed
    | ok read =>
      rw [hread] at hparsed
      rw [Option.some.inj hparsed]
  rw [← hresolved] at hpasses ⊢
  have hpassed := passed_of_passes hpasses
  exact ⟨hpassed.whole_of_closed (validateSetupDefinition_embedded hvalid),
    hpassed.closed_of_whole⟩

/-! A definition with one row and one embedded record. The bytes are the text of the document. -/

namespace Packed

mutual

/-- The text of a document whose words are ASCII and need no escape. -/
def printed : Json → List Char
  | .null => "null".toList
  | .bool value => if value then "true".toList else "false".toList
  | .number (.integer value) => (toString value).toList
  | .number _ => []
  | .string text => '"' :: text.toList ++ ['"']
  | .array items => '[' :: printedItems [] items ++ [']']
  | .object fields => '\x7b' :: printedFields [] fields ++ ['\x7d']

def printedItems (separator : List Char) : List Json → List Char
  | [] => []
  | item :: items => separator ++ printed item ++ printedItems [','] items

def printedFields (separator : List Char) : List (String × Json) → List Char
  | [] => []
  | (name, value) :: fields =>
    separator ++ '"' :: name.toList ++ ['"', ':'] ++ printed value ++ printedFields [','] fields

end

def written (document : Json) : Bytes := (printed document).map Char.toUInt8

def owner : String := "account_01ARZ3NDEKTSV4RRFFQ69G5FAV"

def catalogId : String := "component_01ARZ3NDEKTSV4RRFFQ69G5FAV"

def embeddedId : String := "component_01ARZ3NDEKTSV4RRFFQ69G5FAW"

def rowDigest : String := "sha256:" ++ String.ofList (List.replicate 64 'b')

def artifactDigest : String :=
  "sha256:46b64b009ace200d26cc60e7dc727b3aef7c8744a6f9765f750956ad90a2483b"

def passportDigest : String :=
  "sha256:443a7c188ff718cccd865dc80e5678d102d612853324a28a341a2e65403c0b3c"

/-- An archive without entries. -/
def artifact : Bytes := [80, 75, 5, 6] ++ List.replicate 18 0

def passport : Json :=
  .object [("license", .object [("redistribution_allowed", .bool true), ("spdx_id", .string "MIT")]),
    ("owner_id", .string owner)]

def reference (stableId digest : String) : Json :=
  .object [("passport_digest", .string digest), ("stable_id", .string stableId),
    ("version", .string "1.0")]

def record : Json :=
  .object [("artifact_b64", .string "UEsFBgAAAAAAAAAAAAAAAAAAAAAAAA"),
    ("artifact_digest", .string artifactDigest), ("artifact_size_bytes", .number (.integer 22)),
    ("passport", passport), ("passport_digest", .string passportDigest),
    ("passport_size_bytes", .number (.integer 107)),
    ("ref", reference embeddedId passportDigest), ("snapshot", .object [("kind", .string "path")])]

def definition (components : List Json) : Json :=
  .object [("components", .array components), ("embedded", .array [record]),
    ("format", .string definitionV2), ("harness_id", .string "claude_code"),
    ("input_digest", .string rowDigest), ("schema_version", .number (.integer 2)),
    ("stable_id", .string "setup_01ARZ3NDEKTSV4RRFFQ69G5FAV"), ("version", .string "1.0")]

/-- What the server's readers answer about one definition and its record. -/
def readers (document : Json) : Toolkit where
  fromJsonBytes := fun payload ↦ if payload = written document then some document else none
  canonize := fun value ↦ some (written value)
  digestBytes := fun domain _ ↦
    if domain = artifactDigestDomain then artifactDigest else passportDigest
  integer := fun value ↦
    match value with
    | .number (.integer value) => some value
    | _ => none
  matchesVersion := (· = "1.0")
  unb64url := fun text ↦ if text = "UEsFBgAAAAAAAAAAAAAAAAAAAAAAAA" then some artifact else none
  validatePassport := fun value ↦
    if value = passport then
      some ⟨embeddedId, "1.0", "packed", artifactDigest, 22, [[.string "project"]], passport⟩
    else none
  verifyProjection := fun _ payload ↦ payload = artifact
  validateSnapshot := fun _ ↦ some ⟨.path, "path:packed", artifactDigest, false⟩
  isFullCommit := fun _ ↦ false
  upper := id

def noFindings : SafetySuite := fun _ _ _ ↦ ⟨[], .object []⟩

def published : Request := ⟨owner, true, false⟩

def catalog : List CatalogRow :=
  [⟨catalogId, "row", "1.0", some rowDigest, .object [], .object []⟩]

def listed : Json := definition [reference catalogId rowDigest, reference embeddedId passportDigest]

/-- The embedded record is not among the components. -/
def unlisted : Json := definition [reference catalogId rowDigest]

end Packed

/-- A definition that reads as one with embedded records, and what it is resolved to. -/
theorem exists_resolved {toolkit : Toolkit} {suite : SafetySuite} {request : Request}
    {catalog : List CatalogRow} {bytes : Bytes} {check : EmbeddedSetupResolution → Bool}
    (hcheck : (tryParseSetupDefinition toolkit bytes).any (fun document ↦
      document.embedded ≠ [] ∧
        check (resolveDocument toolkit suite request catalog bytes document)) = true) :
    ∃ document result, tryParseSetupDefinition toolkit bytes = some document ∧
      document.embedded ≠ [] ∧
      resolveEmbeddedSetup toolkit suite request catalog bytes = some result ∧
      check result = true := by
  obtain ⟨document, hdocument, hcheck⟩ := (Option.any_eq_true _ _).mp hcheck
  obtain ⟨hembedded, hcheck⟩ := of_decide_eq_true hcheck
  refine ⟨document, _, hdocument, hembedded, ?_, hcheck⟩
  rw [resolveEmbeddedSetup, hdocument, Option.map_some]

/-- A definition that lists its embedded record passes, and is whole. -/
theorem closed_iff_whole_listed :
    ∃ document result,
      resolveEmbeddedSetup (Packed.readers Packed.listed) Packed.noFindings Packed.published
        Packed.catalog (Packed.written Packed.listed) = some result ∧
      result.passes = true ∧ document.embedded ≠ [] ∧
      (Closed (Packed.readers Packed.listed) Packed.published Packed.catalog document result ↔
        Whole (Packed.readers Packed.listed) Packed.published Packed.catalog document) := by
  obtain ⟨document, result, hread, hembedded, hresult, hpasses⟩ :
      ∃ document result, tryParseSetupDefinition (Packed.readers Packed.listed)
          (Packed.written Packed.listed) = some document ∧ document.embedded ≠ [] ∧
        resolveEmbeddedSetup (Packed.readers Packed.listed) Packed.noFindings Packed.published
          Packed.catalog (Packed.written Packed.listed) = some result ∧ result.passes = true :=
    exists_resolved (by decide +kernel)
  exact ⟨document, result, hresult, hpasses, hembedded,
    closed_iff_whole _ _ _ _ _ _ _ hread hresult hpasses⟩

/-- A definition passes whose embedded record is in none of its components, and was not scanned. -/
theorem passes_unlisted :
    ¬ ∀ (toolkit : Toolkit) (suite : SafetySuite) (request : Request) (catalog : List CatalogRow)
      (bytes : Bytes) (document : DefinitionDocument) (result : EmbeddedSetupResolution),
      tryParseSetupDefinition toolkit bytes = some document →
      resolveEmbeddedSetup toolkit suite request catalog bytes = some result →
      result.passes = true → Closed toolkit request catalog document result := by
  intro hclosed
  obtain ⟨document, result, hread, hembedded, hresult, hpasses⟩ :
      ∃ document result, tryParseSetupDefinition (Packed.readers Packed.unlisted)
          (Packed.written Packed.unlisted) = some document ∧ document.embedded ≠ [] ∧
        resolveEmbeddedSetup (Packed.readers Packed.unlisted) Packed.noFindings Packed.published
          Packed.catalog (Packed.written Packed.unlisted) = some result ∧
        (result.passes && decide (result.scans = [])) = true :=
    exists_resolved (by decide +kernel)
  obtain ⟨hpasses, hscans⟩ := Bool.and_eq_true_iff.mp hpasses
  obtain ⟨record, hrecord⟩ := List.exists_mem_of_ne_nil _ hembedded
  obtain ⟨scan, hscan, -⟩ :=
    (hclosed _ _ _ _ _ _ _ hread hresult hpasses).scanned record hrecord
  rw [of_decide_eq_true hscans] at hscan
  cases hscan

end AiStp.Setups
