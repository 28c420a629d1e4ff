import AiStp.Client.Store.Revisions
import AiStp.Library.ParentLog
import AiStp.Library.Runs

/-!
# The heads of the client's entities

Which revisions are drafts is not written in the registry: a draft is a revision that a head-moving
write stored, or the acquired version that opened an entity. `History` carries the ids of the
drafts beside the registry. `Sound` is the invariant of every run of commits and forgets: the
revisions are parents-first and stay inside their entity, only drafts have parents, the head rows
are the leaves of the drafts of their entity, and all revisions of a setup declare one harness.

`heads_maximal_drafts` is the result: the heads of an entity are its maximal drafts.
-/

set_option autoImplicit false

namespace AiStp.Client.Store

open Library Foundation

/-! ### Runs -/

/-- A registry with the ids of its draft revisions. -/
structure History where
  registry : Registry
  drafts : List String

inductive Action where
  | commit (document : Json) (deviceId : String) (operationId : Option String) (write : Write)
  | forget (stableId : String)

/-- The writes that make a draft; an acquired version is one when it opens its entity. -/
def Write.makesDraft (write : Write) (existed : Bool) : Bool :=
  match write with
  | .advance _ | .transfer _ _ | .received _ => true
  | .acquired => !existed
  | .immutable | .receivedSnapshot _ => false

/-- The draft that a successful commit of a document stored. -/
def newDrafts (registry : Registry) (write : Write) (document : Json) : List String :=
  match (document.index "stable_id").asString?, (document.index "revision_id").asString? with
  | some id, some revision =>
    if !registry.stored revision && write.makesDraft (registry.kind? id).isSome then [revision]
    else []
  | _, _ => []

section Runs

variable (platform : Platform) (validateVersion : Json → Except Failure Unit)

/-- One action; a refused commit changes nothing. -/
def History.step (history : History) : Action → History
  | .commit document deviceId operationId write =>
    match commit platform validateVersion history.registry document deviceId operationId write with
    | .ok (held, settled) =>
      ⟨settled, history.drafts ++ newDrafts history.registry write held⟩
    | .error _ => history
  | .forget stableId => { history with registry := history.registry.forget stableId }

def History.empty : History := ⟨.empty, []⟩

/-- The history reached from an empty registry. -/
def reached (actions : List Action) : History :=
  Runs.run (History.step platform validateVersion) .empty actions

end Runs

/-! ### Drafts and ancestry -/

/-- The draft rows of an entity. -/
def History.draftRows (history : History) (id : String) : List RevisionRow :=
  history.registry.revisions.filter fun row ↦
    row.stableId = id ∧ row.revisionId ∈ history.drafts

/-- `revision` is a draft of the entity. -/
def History.Draft (history : History) (id revision : String) : Prop :=
  revision ∈ (history.draftRows id).map RevisionRow.revisionId

/-- `ancestor` is reached from `descendant` along at least one parent link of the registry. -/
def Registry.ProperAncestor (registry : Registry) (ancestor descendant : String) : Prop :=
  ParentLog.ProperAncestor RevisionRow.revisionId RevisionRow.parents registry.revisions
    ancestor descendant

/-- The passport that the registry reads back from a row. -/
def RevisionRow.Reads (platform : Platform) (row : RevisionRow) (held : Json) : Prop :=
  Canonical.parse platform row.content = some held

structure History.Sound (platform : Platform) (history : History) : Prop where
  ids_nodup : (history.registry.revisions.map RevisionRow.revisionId).Nodup
  parents_first : ParentLog.ParentsFirst RevisionRow.revisionId RevisionRow.parents
    history.registry.revisions
  parents_entity : ∀ row ∈ history.registry.revisions, ∀ other ∈ history.registry.revisions,
    other.revisionId ∈ row.parents → other.stableId = row.stableId
  entity_known : ∀ row ∈ history.registry.revisions,
    (history.registry.kind? row.stableId).isSome
  drafts_stored : ∀ revision ∈ history.drafts,
    revision ∈ history.registry.revisions.map RevisionRow.revisionId
  snapshots_rootless : ∀ row ∈ history.registry.revisions,
    row.revisionId ∉ history.drafts → row.parents = []
  heads_leaves : ∀ id revision, ⟨id, revision⟩ ∈ history.registry.headRows ↔
    ParentLog.Leaf RevisionRow.revisionId RevisionRow.parents (history.draftRows id) revision
  heads_nonempty : ∀ id, (history.registry.kind? id).isSome →
    ∃ revision, ⟨id, revision⟩ ∈ history.registry.headRows
  kinds : ∀ row ∈ history.registry.revisions, ∀ held, row.Reads platform held →
    ∃ kind, history.registry.kind? row.stableId = some kind ∧
      held.index "kind" = .string kind
  harness : ∀ id, history.registry.kind? id = some "setup" →
    ∃ harness, ∀ row ∈ history.registry.revisions, row.stableId = id →
      ∀ held, row.Reads platform held → setupHarness held = .ok harness

section Reads

variable {registry : Registry} {id revision : String}

theorem mem_sorted {texts : List String} {text : String} : text ∈ sorted texts ↔ text ∈ texts :=
  List.mem_insertionSort _

theorem Registry.mem_heads : revision ∈ registry.heads id ↔ ⟨id, revision⟩ ∈ registry.headRows := by
  simp only [Registry.heads, mem_sorted, List.mem_map, List.mem_filter, decide_eq_true_eq]
  constructor
  · rintro ⟨⟨stableId, revisionId⟩, ⟨hrow, rfl⟩, rfl⟩
    exact hrow
  · intro hrow
    exact ⟨⟨id, revision⟩, ⟨hrow, rfl⟩, rfl⟩

theorem Registry.stored_eq_true :
    registry.stored revision = true ↔
      revision ∈ registry.revisions.map RevisionRow.revisionId := by
  simp [Registry.stored, List.any_eq_true]

theorem Registry.stored_eq_false :
    registry.stored revision = false ↔
      revision ∉ registry.revisions.map RevisionRow.revisionId := by
  rw [← Registry.stored_eq_true, Bool.not_eq_true]

theorem History.mem_draftRows {history : History} {row : RevisionRow} :
    row ∈ history.draftRows id ↔ row ∈ history.registry.revisions ∧ row.stableId = id ∧
      row.revisionId ∈ history.drafts := by
  simp [History.draftRows]

end Reads

theorem History.Sound.empty (platform : Platform) : History.empty.Sound platform := by
  refine ⟨List.nodup_nil, ParentLog.parentsFirst_nil, ?_, ?_, ?_, ?_, ?_, ?_, ?_, ?_⟩
  all_goals simp [History.empty, Registry.empty, History.draftRows, ParentLog.Leaf, Registry.kind?]

/-! ### A new revision -/

section Insert

variable {platform : Platform} {history : History} {settled : Registry} {write : Write}
  {candidate : Candidate} {row : RevisionRow}

/-- A write that makes no draft stores a revision without parents in an existing entity. -/
theorem checkWrite_rootless {registry : Registry}
    (hwrite : checkWrite registry write candidate = .ok ())
    (hdraft : write.makesDraft (registry.kind? candidate.id).isSome = false) :
    Passport.parents candidate.document = [] ∧ (registry.kind? candidate.id).isSome := by
  cases write <;>
    simp_all [checkWrite, Write.makesDraft, List.isEmpty_iff, Option.isSome_iff_ne_none]

/-- A new draft takes the place of its parents among the head rows of its entity. -/
theorem mem_moveHeads (hsound : history.Sound platform)
    (hwrite : checkWrite history.registry write candidate = .ok ())
    (hdraft : write.makesDraft (history.registry.kind? candidate.id).isSome = true)
    (head : HeadRow) :
    head ∈ history.registry.moveHeads write candidate
        (history.registry.kind? candidate.id).isSome ↔
      head = ⟨candidate.id, candidate.revision⟩ ∨
        head ∈ history.registry.headRows ∧
          ¬ (head.stableId = candidate.id ∧
            head.revisionId ∈ Passport.parents candidate.document) := by
  -- A head row of the entity names one of the parents that an advance declares.
  have hplanned : ∀ expectedHeads : List String,
      history.registry.heads candidate.id = sorted expectedHeads →
      sorted (Passport.parents candidate.document) = sorted expectedHeads →
      ∀ head ∈ history.registry.headRows, head.stableId = candidate.id →
        head.revisionId ∈ Passport.parents candidate.document := by
    intro expectedHeads hheads hparents head hhead hid
    have hmem : head.revisionId ∈ history.registry.heads candidate.id :=
      Registry.mem_heads.mpr (hid ▸ hhead)
    rw [hheads, ← hparents] at hmem
    exact mem_sorted.mp hmem
  -- Replacing all head rows of the entity is then replacing the parents.
  have hreplaced : (∀ head ∈ history.registry.headRows, head.stableId = candidate.id →
        head.revisionId ∈ Passport.parents candidate.document) →
      (head ∈ history.registry.headRows.filter (fun held ↦ held.stableId ≠ candidate.id) ++
          [⟨candidate.id, candidate.revision⟩] ↔
        head = ⟨candidate.id, candidate.revision⟩ ∨
          head ∈ history.registry.headRows ∧
            ¬ (head.stableId = candidate.id ∧
              head.revisionId ∈ Passport.parents candidate.document)) := by
    intro hall
    simp only [List.mem_append, List.mem_filter, List.mem_singleton, decide_eq_true_eq]
    have := hall head
    tauto
  cases write with
  | advance expectedHeads | transfer expectedHeads =>
    have hfields := ensure_eq_ok.mp hwrite
    simp only [Bool.and_eq_true, beq_iff_eq] at hfields
    exact hreplaced (hplanned expectedHeads hfields.1 hfields.2)
  | received accountId =>
    simp only [Registry.moveHeads, List.mem_append, List.mem_filter, List.mem_singleton,
      decide_eq_true_eq]
    tauto
  | acquired =>
    have hnew : (history.registry.kind? candidate.id).isSome = false := by
      simpa [Write.makesDraft] using hdraft
    rw [hnew]
    refine hreplaced ?_
    intro head hhead hid
    -- A head row belongs to a known entity.
    obtain ⟨hmem, -⟩ := (hsound.heads_leaves head.stableId head.revisionId).mp hhead
    obtain ⟨row, hrow, -⟩ := List.mem_map.mp hmem
    obtain ⟨hstored, hentity, -⟩ := History.mem_draftRows.mp hrow
    have hknown := hsound.entity_known row hstored
    rw [hentity, hid, hnew] at hknown
    exact absurd hknown Bool.false_ne_true
  | immutable => simp [Write.makesDraft] at hdraft
  | receivedSnapshot accountId => simp [Write.makesDraft] at hdraft

theorem moveHeads_of_not_draft {registry : Registry}
    (hdraft : write.makesDraft (registry.kind? candidate.id).isSome = false) :
    registry.moveHeads write candidate (registry.kind? candidate.id).isSome =
      registry.headRows := by
  cases write <;> simp_all [Write.makesDraft, Registry.moveHeads]

theorem passportKind_plain (word : String) (h : word ∈ "kind" :: Sync.passportKinds) :
    Text.isPlain word = true := by
  revert h word
  decide +kernel

/-- A checked candidate and the row it became. -/
structure Extends (platform : Platform) (history : History) (settled : Registry) (write : Write)
    (candidate : Candidate) (row : RevisionRow) : Prop where
  inserted : Inserted platform history.registry settled write candidate row
  valid : candidate.Valid platform
  existing : checkExisting platform history.registry write candidate = .ok ()
  fresh : candidate.revision ∉ history.registry.revisions.map RevisionRow.revisionId
  checked : checkWrite history.registry write candidate = .ok ()
  parents_held : ∀ parent ∈ row.parents, ∃ other ∈ history.registry.revisions,
    other.revisionId = parent ∧ other.stableId = candidate.id

/-- The history after the row is stored. -/
def History.extended (history : History) (settled : Registry) (write : Write)
    (candidate : Candidate) : History :=
  ⟨settled, history.drafts ++ newDrafts history.registry write candidate.document⟩

section Extended

variable (hsound : history.Sound platform)
  (hextends : Extends platform history settled write candidate row)

include hextends

theorem Extends.revisions :
    (history.extended settled write candidate).registry.revisions =
      history.registry.revisions ++ [row] :=
  hextends.inserted.revisions

/-- No stored revision has the new id. -/
theorem Extends.other_id {other : RevisionRow} (hother : other ∈ history.registry.revisions) :
    other.revisionId ≠ candidate.revision := by
  intro hid
  exact hextends.fresh (List.mem_map.mpr ⟨other, hother, hid⟩)

theorem Extends.newDrafts :
    newDrafts history.registry write candidate.document =
      if write.makesDraft (history.registry.kind? candidate.id).isSome then [candidate.revision]
      else [] := by
  have hstored := Registry.stored_eq_false.mpr hextends.fresh
  simp [Store.newDrafts, hextends.valid.id_declared, hextends.valid.revision_declared,
    Json.asString?, hstored]

theorem Extends.mem_drafts {revision : String} :
    revision ∈ (history.extended settled write candidate).drafts ↔
      revision ∈ history.drafts ∨ revision = candidate.revision ∧
        write.makesDraft (history.registry.kind? candidate.id).isSome = true := by
  rw [History.extended, List.mem_append, hextends.newDrafts]
  split_ifs with hdraft <;> simp [hdraft]

/-- The kinds of entities never change. -/
theorem Extends.kind_kept {id kind : String} (h : history.registry.kind? id = some kind) :
    (history.extended settled write candidate).registry.kind? id = some kind := by
  change settled.kind? id = some kind
  rw [hextends.inserted.kinds]
  split_ifs with hid
  · subst hid
    rw [(checkExisting_cases hextends.existing h).1]
  · exact h

theorem Extends.kind_row :
    (history.extended settled write candidate).registry.kind? candidate.id =
      some candidate.kind := by
  change settled.kind? candidate.id = some candidate.kind
  rw [hextends.inserted.kinds, if_pos rfl]

theorem Extends.kind_other {id : String} (hid : id ≠ candidate.id) :
    (history.extended settled write candidate).registry.kind? id = history.registry.kind? id := by
  change settled.kind? id = history.registry.kind? id
  rw [hextends.inserted.kinds, if_neg hid]

/-- The new row is a draft of its entity when the write makes a draft. -/
theorem Extends.draftRows (hstored : ∀ revision ∈ history.drafts,
      revision ∈ history.registry.revisions.map RevisionRow.revisionId) (id : String) :
    (history.extended settled write candidate).draftRows id =
      history.draftRows id ++
        if id = candidate.id ∧
          write.makesDraft (history.registry.kind? candidate.id).isSome = true then [row]
        else [] := by
  have hundrafted : candidate.revision ∉ history.drafts := by
    intro hmem
    exact hextends.fresh (hstored _ hmem)
  rw [History.draftRows, hextends.revisions, List.filter_append]
  congr 1
  · refine List.filter_congr ?_
    intro other hother
    have hother := hextends.other_id hother
    simp only [hextends.mem_drafts, hother, false_and, or_false]
  · rw [List.filter_singleton]
    simp only [hextends.mem_drafts, hextends.inserted.row_id, hextends.inserted.row_entity,
      hundrafted, false_or, true_and, Bool.cond_decide, @eq_comm _ id]

theorem Extends.parents_mem {parent : String} (hparent : parent ∈ row.parents) :
    parent ∈ history.registry.revisions.map RevisionRow.revisionId := by
  obtain ⟨other, hother, rfl, -⟩ := hextends.parents_held parent hparent
  exact List.mem_map_of_mem hother

/-- What the registry reads back of the new row is the normal form of the candidate. -/
theorem Extends.reread {held : Json} (hheld : row.Reads platform held) :
    Canonical.Reread platform candidate.document held :=
  Canonical.reread_of_parse hextends.inserted.row_content hheld

include hsound

/-- Nothing names the new revision as a parent. -/
theorem Extends.unnamed :
    ∀ other ∈ history.registry.revisions ++ [row], row.revisionId ∉ other.parents := by
  intro other hother hparent
  rw [hextends.inserted.row_id] at hparent
  rcases List.mem_append.mp hother with hother | hother
  · exact hextends.fresh (hsound.parents_first.parent_mem hother hparent)
  · obtain rfl := List.mem_singleton.mp hother
    exact hextends.fresh (hextends.parents_mem hparent)

theorem Extends.parents_entity :
    ∀ child ∈ history.registry.revisions ++ [row],
      ∀ parent ∈ history.registry.revisions ++ [row],
        parent.revisionId ∈ child.parents → parent.stableId = child.stableId := by
  intro child hchild parent hparent hnamed
  rcases List.mem_append.mp hparent with hheld | hnew
  · rcases List.mem_append.mp hchild with hold | hchild
    · exact hsound.parents_entity child hold parent hheld hnamed
    · obtain rfl := List.mem_singleton.mp hchild
      obtain ⟨other, hother, hid, hentity⟩ := hextends.parents_held _ hnamed
      obtain rfl := List.inj_on_of_nodup_map hsound.ids_nodup hother hheld hid
      rw [hentity, hextends.inserted.row_entity]
  · obtain rfl := List.mem_singleton.mp hnew
    exact absurd hnamed (hextends.unnamed hsound child hchild)

theorem Extends.entity_known :
    ∀ other ∈ history.registry.revisions ++ [row],
      ((history.extended settled write candidate).registry.kind? other.stableId).isSome := by
  intro other hother
  rcases List.mem_append.mp hother with hother | hother
  · obtain ⟨kind, hkind⟩ := Option.isSome_iff_exists.mp (hsound.entity_known other hother)
    rw [hextends.kind_kept hkind]
    rfl
  · rw [List.mem_singleton.mp hother, hextends.inserted.row_entity, hextends.kind_row]
    rfl

theorem Extends.snapshots_rootless :
    ∀ other ∈ history.registry.revisions ++ [row],
      other.revisionId ∉ (history.extended settled write candidate).drafts →
        other.parents = [] := by
  intro other hother hundrafted
  rw [hextends.mem_drafts, not_or] at hundrafted
  rcases List.mem_append.mp hother with hother | hother
  · exact hsound.snapshots_rootless other hother hundrafted.1
  · obtain rfl := List.mem_singleton.mp hother
    have hdraft : write.makesDraft (history.registry.kind? candidate.id).isSome = false := by
      by_contra hmakes
      exact hundrafted.2 ⟨hextends.inserted.row_id, by simpa using hmakes⟩
    rw [hextends.inserted.row_parents, (checkWrite_rootless hextends.checked hdraft).1]

/-- The head rows stay the leaves of the drafts. -/
theorem Extends.heads_leaves (id revision : String) :
    ⟨id, revision⟩ ∈ (history.extended settled write candidate).registry.headRows ↔
      ParentLog.Leaf RevisionRow.revisionId RevisionRow.parents
        ((history.extended settled write candidate).draftRows id) revision := by
  change ⟨id, revision⟩ ∈ settled.headRows ↔ _
  rw [hextends.inserted.headRows, hextends.draftRows hsound.drafts_stored]
  by_cases hdraft : write.makesDraft (history.registry.kind? candidate.id).isSome = true
  · rw [mem_moveHeads hsound hextends.checked hdraft, hsound.heads_leaves]
    by_cases hid : id = candidate.id
    · subst hid
      have hunnamed : ∀ other ∈ history.draftRows candidate.id ++ [row],
          row.revisionId ∉ other.parents := by
        intro other hother
        refine hextends.unnamed hsound other ?_
        rcases List.mem_append.mp hother with hother | hother
        · exact List.mem_append_left _ (History.mem_draftRows.mp hother).1
        · exact List.mem_append_right _ hother
      rw [if_pos ⟨rfl, hdraft⟩, ParentLog.leaf_snoc hunnamed, hextends.inserted.row_id,
        hextends.inserted.row_parents]
      simp
    · rw [if_neg (fun hnew ↦ hid hnew.1), List.append_nil]
      simp [hid]
  · rw [if_neg (fun hnew ↦ hdraft hnew.2), List.append_nil,
      moveHeads_of_not_draft (by simpa using hdraft), hsound.heads_leaves]

theorem Extends.heads_nonempty (id : String)
    (hid : ((history.extended settled write candidate).registry.kind? id).isSome) :
    ∃ revision,
      ⟨id, revision⟩ ∈ (history.extended settled write candidate).registry.headRows := by
  change ∃ revision, ⟨id, revision⟩ ∈ settled.headRows
  rw [hextends.inserted.headRows]
  by_cases hdraft : write.makesDraft (history.registry.kind? candidate.id).isSome = true
  · simp only [mem_moveHeads hsound hextends.checked hdraft]
    by_cases hsame : id = candidate.id
    · exact ⟨candidate.revision, Or.inl (by rw [hsame])⟩
    · rw [hextends.kind_other hsame] at hid
      obtain ⟨revision, hrevision⟩ := hsound.heads_nonempty id hid
      exact ⟨revision, Or.inr ⟨hrevision, fun h ↦ hsame h.1⟩⟩
  · have hfalse := Bool.eq_false_iff.mpr hdraft
    rw [moveHeads_of_not_draft hfalse]
    refine hsound.heads_nonempty id ?_
    by_cases hsame : id = candidate.id
    · rw [hsame]
      exact (checkWrite_rootless hextends.checked hfalse).2
    · rwa [hextends.kind_other hsame] at hid

theorem Extends.kinds :
    ∀ other ∈ history.registry.revisions ++ [row], ∀ held, other.Reads platform held →
      ∃ kind,
        (history.extended settled write candidate).registry.kind? other.stableId = some kind ∧
          held.index "kind" = .string kind := by
  intro other hother held hheld
  rcases List.mem_append.mp hother with hother | hother
  · obtain ⟨kind, hkind, hdeclared⟩ := hsound.kinds other hother held hheld
    exact ⟨kind, hextends.kind_kept hkind, hdeclared⟩
  · obtain rfl := List.mem_singleton.mp hother
    refine ⟨candidate.kind, by rw [hextends.inserted.row_entity, hextends.kind_row], ?_⟩
    obtain ⟨kind, hkind, hplain⟩ :=
      Passport.kind_of_envelope (Passport.envelope_of_validate hextends.valid.validated)
    obtain rfl : kind = candidate.kind :=
      Json.string.inj (hkind.symm.trans hextends.valid.kind_declared)
    have hindex := (hextends.reread hheld).index (passportKind_plain "kind" (by decide))
    rw [hextends.valid.kind_declared] at hindex
    exact hindex.string (passportKind_plain _ (List.mem_cons_of_mem _ hplain))

/-- A setup keeps its harness: the heads were compared with the candidate. -/
theorem Extends.harness (id : String)
    (hid : (history.extended settled write candidate).registry.kind? id = some "setup") :
    ∃ harness, ∀ other ∈ history.registry.revisions ++ [row], other.stableId = id →
      ∀ held, other.Reads platform held → setupHarness held = .ok harness := by
  by_cases hsame : id = candidate.id
  · subst hsame
    have hsetup : candidate.kind = "setup" :=
      Option.some.inj (hextends.kind_row.symm.trans hid)
    obtain ⟨harness, hharness⟩ := hextends.valid.harness hsetup
    refine ⟨harness, ?_⟩
    intro other hother hentity held hheld
    rcases List.mem_append.mp hother with hother | hother
    · obtain ⟨kind, hkind⟩ :=
        Option.isSome_iff_exists.mp (hentity ▸ hsound.entity_known other hother)
      obtain ⟨rfl, hheads, hchecked⟩ := checkExisting_cases hextends.existing hkind
      obtain ⟨before, hbefore⟩ := hsound.harness candidate.id (hsetup ▸ hkind)
      obtain ⟨head, hhead⟩ := List.exists_mem_of_ne_nil _ hheads
      obtain ⟨read, hread, hreadId, hagrees⟩ := checkHeads_cases hchecked head hhead
      obtain ⟨headRow, hheadRow, -, hparse, hheadId, -⟩ := revision_cases hread
      have hheadEntity : headRow.stableId = candidate.id :=
        Json.string.inj (hheadId.symm.trans hreadId)
      have hsameHarness : (Except.ok before : Except Failure String) = .ok harness := by
        rw [← hbefore headRow hheadRow hheadEntity read hparse, hagrees hsetup, hharness]
      rw [hbefore other hother hentity held hheld, hsameHarness]
    · obtain rfl := List.mem_singleton.mp hother
      exact setupHarness_reread (hextends.reread hheld) hharness
  · rw [hextends.kind_other hsame] at hid
    obtain ⟨harness, hharness⟩ := hsound.harness id hid
    refine ⟨harness, ?_⟩
    intro other hother hentity
    rcases List.mem_append.mp hother with hother | hother
    · exact hharness other hother hentity
    · rw [List.mem_singleton.mp hother, hextends.inserted.row_entity] at hentity
      exact absurd hentity.symm hsame

theorem Extends.sound : (history.extended settled write candidate).Sound platform := by
  have hrevisions := hextends.revisions
  refine ⟨?_, ?_, ?_, ?_, ?_, ?_, hextends.heads_leaves hsound, hextends.heads_nonempty hsound,
    ?_, ?_⟩
  · rw [hrevisions, List.map_append, List.nodup_append]
    refine ⟨hsound.ids_nodup, List.nodup_singleton _, ?_⟩
    intro left hleft right hright heq
    rw [List.map_singleton, List.mem_singleton, hextends.inserted.row_id] at hright
    exact hextends.fresh (hright ▸ heq ▸ hleft)
  · rw [hrevisions]
    exact hsound.parents_first.snoc fun parent hparent ↦ hextends.parents_mem hparent
  · rw [hrevisions]
    exact hextends.parents_entity hsound
  · rw [hrevisions]
    exact hextends.entity_known hsound
  · intro revision hrevision
    rw [hrevisions, List.map_append, List.mem_append]
    rcases hextends.mem_drafts.mp hrevision with hold | ⟨rfl, -⟩
    · exact Or.inl (hsound.drafts_stored revision hold)
    · exact Or.inr (by simp [hextends.inserted.row_id])
  · rw [hrevisions]
    exact hextends.snapshots_rootless hsound
  · rw [hrevisions]
    exact hextends.kinds hsound
  · rw [hrevisions]
    exact hextends.harness hsound

end Extended

end Insert

/-! ### Steps -/

section Steps

variable {platform : Platform} {validateVersion : Json → Except Failure Unit}
  {history : History} {document held : Json} {deviceId : String} {operationId : Option String}
  {write : Write} {settled : Registry}

/-- A successful commit replayed a stored revision or extended the history by a new one. -/
theorem commit_extends
    (h : commit platform validateVersion history.registry document deviceId operationId write =
      .ok (held, settled)) :
    (∃ revision, history.registry.stored revision = true ∧
        held.index "revision_id" = .string revision ∧ settled = history.registry) ∨
      ∃ candidate row, held = candidate.document ∧
        Extends platform history settled write candidate row := by
  obtain ⟨candidate, hvalid, hexisting, hreplayed | hinserted⟩ := commit_cases h
  · obtain ⟨hstored, rfl, hread⟩ := hreplayed
    obtain ⟨_, -, -, -, -, hrevision⟩ := revision_cases hread
    exact Or.inl ⟨candidate.revision, hstored, hrevision, rfl⟩
  · obtain ⟨hstored, hheld, hwrite, hparents, hinsert⟩ := hinserted
    have hkind : ∀ kind, history.registry.kind? candidate.id = some kind →
        kind = candidate.kind := fun kind hkind ↦ (checkExisting_cases hexisting hkind).1
    obtain ⟨row, hrow⟩ := insert_cases hinsert hkind
    refine Or.inr ⟨candidate, row, hheld, hrow, hvalid, hexisting,
      Registry.stored_eq_false.mp hstored, hwrite, ?_⟩
    rw [hrow.row_parents]
    exact checkParents_cases hparents

variable {revision : String}

/-- Only a revision that was not stored becomes a draft. -/
theorem mem_newDrafts {registry : Registry} (h : revision ∈ newDrafts registry write document) :
    registry.stored revision = false ∧ document.index "revision_id" = .string revision := by
  unfold newDrafts at h
  cases hid : (document.index "stable_id").asString? with
  | none => simp [hid] at h
  | some id =>
    cases hrevision : (document.index "revision_id").asString? with
    | none => simp [hid, hrevision] at h
    | some declared =>
      simp only [hid, hrevision] at h
      split_ifs at h with hnew
      · obtain rfl := List.mem_singleton.mp h
        simp only [Bool.and_eq_true, Bool.not_eq_true'] at hnew
        exact ⟨hnew.1, asString?_eq_some hrevision⟩
      · cases h

theorem newDrafts_replayed {registry : Registry}
    (hrevision : document.index "revision_id" = .string revision)
    (hstored : registry.stored revision = true) : newDrafts registry write document = [] := by
  refine List.eq_nil_iff_forall_not_mem.mpr ?_
  intro other hother
  obtain ⟨hnew, hother⟩ := mem_newDrafts hother
  rw [Json.string.inj (hother.symm.trans hrevision), hstored] at hnew
  exact absurd hnew.symm Bool.false_ne_true

theorem Registry.forget_rows (registry : Registry) (stableId : String) :
    (registry.forget stableId).entities = registry.entities ∧
      (registry.forget stableId).revisions = registry.revisions ∧
      (registry.forget stableId).headRows = registry.headRows := by
  unfold Registry.forget
  split_ifs <;> exact ⟨rfl, rfl, rfl⟩

theorem History.Sound.forget (hsound : history.Sound platform) (stableId : String) :
    ({ history with registry := history.registry.forget stableId } : History).Sound platform := by
  obtain ⟨registry, drafts⟩ := history
  obtain ⟨hentities, hrevisions, hheadRows⟩ := registry.forget_rows stableId
  have hkind : ∀ id, (registry.forget stableId).kind? id = registry.kind? id := by
    intro id
    rw [Registry.kind?, hentities, Registry.kind?]
  obtain ⟨hids, hfirst, hparents, hentity, hdrafts, hroots, hleaves, hnonempty, hkinds,
    hharness⟩ := hsound
  refine ⟨?_, ?_, ?_, ?_, ?_, ?_, ?_, ?_, ?_, ?_⟩ <;>
    simp only [History.draftRows, hrevisions, hheadRows, hkind] at *
  all_goals assumption

theorem History.step_commit
    (h : commit platform validateVersion history.registry document deviceId operationId write =
      .ok (held, settled)) :
    history.step platform validateVersion (.commit document deviceId operationId write) =
      ⟨settled, history.drafts ++ newDrafts history.registry write held⟩ := by
  simp only [History.step, h]

theorem History.step_refused {failure : Failure}
    (h : commit platform validateVersion history.registry document deviceId operationId write =
      .error failure) :
    history.step platform validateVersion (.commit document deviceId operationId write) =
      history := by
  simp only [History.step, h]

theorem History.step_sound (hsound : history.Sound platform) (action : Action) :
    (history.step platform validateVersion action).Sound platform := by
  cases action with
  | forget stableId => exact hsound.forget stableId
  | commit document deviceId operationId write =>
    cases hresult : commit platform validateVersion history.registry document deviceId
        operationId write with
    | error failure => rwa [History.step_refused hresult]
    | ok result =>
      obtain ⟨held, settled⟩ := result
      rw [History.step_commit hresult]
      rcases commit_extends hresult with ⟨revision, hstored, hrevision, rfl⟩ |
        ⟨candidate, row, rfl, hextends⟩
      · rwa [newDrafts_replayed hrevision hstored, List.append_nil]
      · exact hextends.sound hsound

theorem reached_sound (platform : Platform) (validateVersion : Json → Except Failure Unit)
    (actions : List Action) : (reached platform validateVersion actions).Sound platform := by
  have hstep : ∀ (history : History) action, history.Sound platform →
      (history.step platform validateVersion action).Sound platform :=
    fun _ action hsound ↦ History.step_sound hsound action
  exact Runs.run_invariant hstep _ (History.Sound.empty platform) actions

/-- A stored revision that is not a draft. -/
def History.Snapshot (history : History) (revision : String) : Prop :=
  history.registry.stored revision = true ∧ revision ∉ history.drafts

/-- A stored revision that is not a draft stays stored and no draft. -/
theorem History.step_snapshot (h : history.Snapshot revision) (action : Action) :
    (history.step platform validateVersion action).Snapshot revision := by
  obtain ⟨hstored, hundrafted⟩ := h
  cases action with
  | forget stableId =>
    obtain ⟨-, hrevisions, -⟩ := history.registry.forget_rows stableId
    refine ⟨?_, hundrafted⟩
    rw [Registry.stored_eq_true] at hstored ⊢
    exact hrevisions.symm ▸ hstored
  | commit document deviceId operationId write =>
    cases hresult : commit platform validateVersion history.registry document deviceId
        operationId write with
    | error failure => rw [History.step_refused hresult]; exact ⟨hstored, hundrafted⟩
    | ok result =>
      obtain ⟨held, settled⟩ := result
      rw [History.step_commit hresult]
      have hnew : revision ∉ newDrafts history.registry write held := by
        intro hnew
        rw [(mem_newDrafts hnew).1] at hstored
        exact Bool.false_ne_true hstored
      refine ⟨?_, List.mem_append.not.mpr (not_or.mpr ⟨hundrafted, hnew⟩)⟩
      rw [Registry.stored_eq_true] at hstored ⊢
      rcases commit_extends hresult with ⟨_, -, -, rfl⟩ | ⟨candidate, row, -, hextends⟩
      · exact hstored
      · rw [hextends.inserted.revisions, List.map_append]
        exact List.mem_append_left _ hstored

theorem run_snapshot (h : history.Snapshot revision) (later : List Action) :
    (Runs.run (History.step platform validateVersion) history later).Snapshot revision := by
  have hstep : ∀ (history : History) action, history.Snapshot revision →
      (history.step platform validateVersion action).Snapshot revision :=
    fun _ action h ↦ History.step_snapshot h action
  exact Runs.run_invariant hstep history h later

end Steps

/-! ### The heads of an entity -/

section Heads

variable {platform : Platform} {history : History} (hsound : history.Sound platform)

include hsound

variable {revision : String}

theorem History.Sound.mem_heads {id : String} :
    revision ∈ history.registry.heads id ↔
      ParentLog.Leaf RevisionRow.revisionId RevisionRow.parents (history.draftRows id) revision :=
  Registry.mem_heads.trans (hsound.heads_leaves id revision)

/-- A child of a draft of the entity is a draft of the entity: only drafts have parents. -/
theorem History.Sound.child_draft {id : String} (hdraft : history.Draft id revision)
    {child : RevisionRow} (hchild : child ∈ history.registry.revisions)
    (hparent : revision ∈ child.parents) : child ∈ history.draftRows id := by
  obtain ⟨row, hrow, rfl⟩ := List.mem_map.mp hdraft
  obtain ⟨hstored, hentity, -⟩ := History.mem_draftRows.mp hrow
  refine History.mem_draftRows.mpr ⟨hchild, ?_, ?_⟩
  · rw [← hsound.parents_entity child hchild row hstored hparent, hentity]
  · by_contra hundrafted
    rw [hsound.snapshots_rootless child hchild hundrafted] at hparent
    exact List.not_mem_nil hparent

theorem History.Sound.not_properAncestor_of_head {id : String}
    (hhead : revision ∈ history.registry.heads id) (other : String) :
    ¬ history.registry.ProperAncestor revision other := by
  intro hancestor
  obtain ⟨hdraft, hleaf⟩ := hsound.mem_heads.mp hhead
  obtain ⟨child, hchild, hparent, -⟩ := hancestor.exists_child
  exact hleaf child (hsound.child_draft hdraft hchild hparent) hparent

/-- The heads are the drafts that no draft descends from. -/
theorem History.Sound.mem_heads_iff_maximal {id : String} :
    revision ∈ history.registry.heads id ↔
      history.Draft id revision ∧
        ∀ other, history.Draft id other → ¬ history.registry.ProperAncestor revision other := by
  constructor
  · intro hhead
    exact ⟨(hsound.mem_heads.mp hhead).1,
      fun other _ ↦ hsound.not_properAncestor_of_head hhead other⟩
  · rintro ⟨hdraft, hmaximal⟩
    refine hsound.mem_heads.mpr ⟨hdraft, ?_⟩
    intro child hchild hparent
    have hstored := (History.mem_draftRows.mp hchild).1
    exact hmaximal child.revisionId (List.mem_map_of_mem hchild)
      (ParentLog.ProperAncestor.of_parent hstored hparent)

theorem History.Sound.kind_of_draft {id : String} (hdraft : history.Draft id revision) :
    (history.registry.kind? id).isSome := by
  obtain ⟨row, hrow, -⟩ := List.mem_map.mp hdraft
  obtain ⟨hstored, rfl, -⟩ := History.mem_draftRows.mp hrow
  exact hsound.entity_known row hstored

theorem History.Sound.heads_ne_nil {id : String} (hdraft : history.Draft id revision) :
    history.registry.heads id ≠ [] := by
  obtain ⟨head, hhead⟩ := hsound.heads_nonempty id (hsound.kind_of_draft hdraft)
  exact List.ne_nil_of_mem (Registry.mem_heads.mpr hhead)

theorem History.Sound.mem_drafts_of_head {id : String}
    (hhead : revision ∈ history.registry.heads id) : revision ∈ history.drafts := by
  obtain ⟨row, hrow, rfl⟩ := List.mem_map.mp (hsound.mem_heads.mp hhead).1
  exact (History.mem_draftRows.mp hrow).2.2

/-- The parents of a stored revision are stored revisions of its entity and kind. -/
theorem History.Sound.parent_stored {row : RevisionRow}
    (hrow : row ∈ history.registry.revisions) {parent : String} (hparent : parent ∈ row.parents) :
    ∃ other ∈ history.registry.revisions, other.revisionId = parent ∧
      other.stableId = row.stableId ∧
      ∀ held read, row.Reads platform held → other.Reads platform read →
        read.index "kind" = held.index "kind" := by
  obtain ⟨other, hother, rfl⟩ :=
    List.mem_map.mp (hsound.parents_first.parent_mem hrow hparent)
  have hentity := hsound.parents_entity row hrow other hother hparent
  refine ⟨other, hother, rfl, hentity, ?_⟩
  intro held read hheld hread
  obtain ⟨kind, hkind, hdeclared⟩ := hsound.kinds row hrow held hheld
  obtain ⟨otherKind, hotherKind, hotherDeclared⟩ := hsound.kinds other hother read hread
  rw [hentity, hkind] at hotherKind
  rw [hdeclared, hotherDeclared, Option.some.inj hotherKind]

end Heads

/-- The writes of immutable versions. -/
def Write.isSnapshot : Write → Bool
  | .immutable | .acquired | .receivedSnapshot _ => true
  | .advance _ | .transfer _ _ | .received _ => false

/-- An immutable version moves no head of an entity that has one. -/
theorem commit_snapshot {platform : Platform} {validateVersion : Json → Except Failure Unit}
    {history : History} (hsound : history.Sound platform) {document held : Json}
    {deviceId id : String} {operationId : Option String} {write : Write} {settled : Registry}
    (h : commit platform validateVersion history.registry document deviceId operationId write =
      .ok (held, settled))
    (hid : held.index "stable_id" = .string id) (hheads : history.registry.heads id ≠ [])
    (hsnapshot : write.isSnapshot = true) : settled.headRows = history.registry.headRows := by
  rcases commit_extends h with ⟨_, -, -, rfl⟩ | ⟨candidate, row, rfl, hextends⟩
  · rfl
  · obtain rfl : id = candidate.id :=
      Json.string.inj (hid.symm.trans hextends.valid.id_declared)
    obtain ⟨head, hhead⟩ := List.exists_mem_of_ne_nil _ hheads
    have hknown := hsound.kind_of_draft (hsound.mem_heads_iff_maximal.mp hhead).1
    rw [hextends.inserted.headRows, moveHeads_of_not_draft]
    cases write <;> simp_all [Write.isSnapshot, Write.makesDraft]

/-- In every run of commits and forgets the heads of an entity are its maximal drafts: an
antichain, and not empty once a draft exists. Parents are stored revisions of the same entity and
kind, the revisions of a setup declare one harness, an immutable version never is a head and moves
none, and a revision that is committed again changes nothing. -/
theorem heads_maximal_drafts (platform : Platform) (validateVersion : Json → Except Failure Unit)
    (actions : List Action) : let history := reached platform validateVersion actions
    let registry := history.registry
    (∀ id revision, revision ∈ registry.heads id ↔
        history.Draft id revision ∧
          ∀ other, history.Draft id other → ¬ registry.ProperAncestor revision other) ∧
      (∀ id, ∀ left ∈ registry.heads id, ∀ right ∈ registry.heads id,
        ¬ registry.ProperAncestor left right) ∧
      (∀ id revision, history.Draft id revision → registry.heads id ≠ []) ∧
      (∀ row ∈ registry.revisions, ∀ parent ∈ row.parents, ∃ other ∈ registry.revisions,
        other.revisionId = parent ∧ other.stableId = row.stableId ∧
          ∀ held read, row.Reads platform held → other.Reads platform read →
            read.index "kind" = held.index "kind") ∧
      (∀ id, registry.kind? id = some "setup" →
        ∃ harness, ∀ row ∈ registry.revisions, row.stableId = id →
          ∀ held, row.Reads platform held → setupHarness held = .ok harness) ∧
      (∀ revision, registry.stored revision = true → revision ∉ history.drafts →
        ∀ later id, revision ∉
          (reached platform validateVersion (actions ++ later)).registry.heads id) ∧
      (∀ document deviceId operationId write held settled,
        commit platform validateVersion registry document deviceId operationId write =
            .ok (held, settled) →
          (∀ id, held.index "stable_id" = .string id → registry.heads id ≠ [] →
              write.isSnapshot = true → settled.headRows = registry.headRows) ∧
            (∀ revision, held.index "revision_id" = .string revision →
              registry.stored revision = true → settled = registry)) := by
  intro history registry
  have hsound : history.Sound platform := reached_sound platform validateVersion actions
  refine ⟨fun id revision ↦ hsound.mem_heads_iff_maximal, ?_,
    fun id revision ↦ hsound.heads_ne_nil,
    fun row hrow parent hparent ↦ hsound.parent_stored hrow hparent, hsound.harness, ?_, ?_⟩
  · intro id left hleft right _
    exact hsound.not_properAncestor_of_head hleft right
  · intro revision hstored hundrafted later id hhead
    have hdraft := (reached_sound platform validateVersion (actions ++ later)).mem_drafts_of_head
      hhead
    rw [reached, Runs.run_append] at hdraft
    exact (run_snapshot ⟨hstored, hundrafted⟩ later).2 hdraft
  · intro document deviceId operationId write held settled hcommit
    refine ⟨fun id ↦ commit_snapshot hsound hcommit, ?_⟩
    intro revision hrevision hstored
    rcases commit_extends hcommit with ⟨_, -, -, hsame⟩ | ⟨candidate, row, rfl, hextends⟩
    · exact hsame
    · have hid := Json.string.inj (hrevision.symm.trans hextends.valid.revision_declared)
      rw [hid, Registry.stored_eq_true] at hstored
      exact absurd hstored hextends.fresh

end AiStp.Client.Store
