import AiStp.Catalog.Memberships

/-!
# Calls on families

A call that is carried out answers with the family of its key, or has changed the one family that it
answers with (`Answered`). A call that is refused has written nothing when its caller does not roll
it back: a creation is checked before it writes (`careful_createFresh`), and the patch with which a
recast joins a family is refused before it writes because the family was sound (`join_refused`).
-/

set_option autoImplicit false

namespace AiStp.Catalog

open Library Attempt

/-! ### Creating -/

section Creating

variable {ownerId familyId stableId : String} {createdFrom : FamilyCreatedFrom}
  {body : SetupFamilyCreateRequest} {harnesses result : List (String × String)}
  {before after : Registry}

theorem reading_checkNewMember (ownerId : String) (harnesses : List (String × String))
    (stableId : String) : Reading (checkNewMember ownerId harnesses stableId) :=
  (reading_fetch _ _).bind fun _ ↦ (reading_check _ _).bind fun _ ↦
    (reading_fetch _ _).bind fun harness ↦ (reading_check _ _).bind fun _ ↦ .pure harness

theorem reading_checkNewMembers (ownerId : String) (harnesses : List (String × String))
    (members : List String) : Reading (checkNewMembers ownerId harnesses members) := by
  induction members generalizing harnesses with
  | nil => exact .pure harnesses
  | cons stableId rest ih =>
    exact (reading_checkNewMember ownerId harnesses stableId).bind fun _ ↦ ih _

theorem reading_checkBaseline (ownerId : String) (baseline : SetupRef) :
    Reading (checkBaseline ownerId baseline) :=
  (reading_fetch _ _).bind fun _ ↦ reading_check _ _

theorem checkNewMember_eq_ok {harness : String}
    (h : checkNewMember ownerId harnesses stableId before = (.ok harness, after)) :
    before.Owns ownerId stableId := by
  simp only [checkNewMember, Attempt.bind_eq_ok, fetch_eq_ok] at h
  obtain ⟨row, middle, ⟨hrow, -⟩, -⟩ := h
  exact Registry.owns_of_ownedSetup hrow

theorem checkNewMembers_eq_ok {members : List String}
    (h : checkNewMembers ownerId harnesses members before = (.ok result, after)) :
    result.map Prod.snd = harnesses.map Prod.snd ++ members ∧
      ∀ stableId ∈ members, before.Owns ownerId stableId := by
  induction members generalizing harnesses with
  | nil =>
    have hresult := (pure_eq_ok.mp h).1
    rw [← hresult]
    exact ⟨(List.append_nil _).symm, nofun⟩
  | cons stableId rest ih =>
    obtain ⟨harness, middle, hmember, hrest⟩ := Attempt.bind_eq_ok.mp h
    rw [(reading_checkNewMember ownerId harnesses stableId).state_eq hmember] at hrest
    obtain ⟨hmap, howns⟩ := ih hrest
    constructor
    · rw [hmap]
      simp
    · intro other hother
      rcases List.mem_cons.mp hother with hsame | hother
      · rw [hsame]
        exact checkNewMember_eq_ok hmember
      · exact howns other hother

theorem insertMembers_eq_ok {entries : List (String × String)} {value : Unit}
    (h : forEach (fun entry ↦ insertMember familyId entry.2 entry.1) entries before =
      (.ok value, after)) : Reshaped familyId [] (entries.map Prod.snd) before after :=
  forEach_eq_ok (fun entries before after ↦ Reshaped familyId [] (entries.map Prod.snd) before after)
    (Reshaped.refl familyId)
    (fun _ _ _ _ _ hfirst hrest ↦ (insertMember_eq_ok hfirst).add hrest) h

theorem insertNewFamily_eq_ok {value : Unit} (hentries : harnesses.map Prod.snd = body.members)
    (htwo : 2 ≤ body.members.length)
    (howns : ∀ stableId ∈ body.members, before.Owns ownerId stableId)
    (h : insertNewFamily ownerId familyId createdFrom body harnesses before = (.ok value, after)) :
    before.families.get? familyId = none ∧
      Changed familyId (newFamily ownerId createdFrom body) body.idempotencyKey
        (newRevision ownerId familyId body) before after := by
  simp only [insertNewFamily, insertFamily, insertRevision, Attempt.bind_eq_ok, write_eq_ok,
    Option.map_eq_some_iff] at h
  obtain ⟨_, opened, ⟨families, hfamilies, rfl⟩, _, filled, hfill, history, hhistory, rfl⟩ := h
  have hreshaped := insertMembers_eq_ok hfill
  rw [hentries] at hreshaped
  obtain ⟨hfree, hget⟩ := Table.insert?_eq_some hfamilies
  have hmembers : filled.memberSet familyId =
      before.memberSet familyId ∪ body.members.toFinset := by
    rw [hreshaped.members]
    simp [Registry.memberSet]
  have hsub : body.members.toFinset ⊆ filled.memberSet familyId := by
    rw [hmembers]
    exact Finset.subset_union_right
  refine ⟨hfree, ?_⟩
  constructor
  · exact hreshaped.catalog
  · exact hreshaped.others
  · show filled.memberSet familyId = _
    rw [hmembers]
    simp [newRevision]
  · exact hreshaped.harness
  · intro other
    show filled.families.get? other = _
    rw [hreshaped.families]
    exact hget other
  · rw [hreshaped.history] at hhistory
    exact hhistory
  · rfl
  · calc 2 ≤ body.members.length := htwo
      _ = body.members.toFinset.card := (List.toFinset_card_of_nodup body.unique).symm
      _ ≤ (filled.memberSet familyId).card := Finset.card_le_card hsub
  · exact hsub (List.mem_toFinset.mpr body.baseline_is_a_member)
  · exact howns

theorem createFresh_eq_ok {created : String}
    (h : createFresh ownerId familyId createdFrom body before = (.ok created, after)) :
    created = familyId ∧ before.families.get? familyId = none ∧
      Changed familyId (newFamily ownerId createdFrom body) body.idempotencyKey
        (newRevision ownerId familyId body) before after := by
  simp only [createFresh, Attempt.bind_eq_ok, check_eq_ok, decide_eq_true_eq, pure_eq_ok] at h
  obtain ⟨_, _, ⟨htwo, rfl⟩, harnesses, checked, hmembers, _, based, hbaseline, _, written, hwrite,
    rfl, rfl⟩ := h
  have hchecked := (reading_checkNewMembers _ _ _).state_eq hmembers
  rw [(reading_checkBaseline _ _).state_eq hbaseline, hchecked] at hwrite
  obtain ⟨hmap, howns⟩ := checkNewMembers_eq_ok hmembers
  exact ⟨rfl, insertNewFamily_eq_ok hmap htwo howns hwrite⟩

theorem failsOnly_insertNewFamily (ownerId familyId : String) (createdFrom : FamilyCreatedFrom)
    (body : SetupFamilyCreateRequest) (harnesses : List (String × String)) :
    FailsOnly .integrity (insertNewFamily ownerId familyId createdFrom body harnesses) :=
  (failsOnly_write _ _).bind fun _ ↦
    (failsOnly_forEach (fun _ ↦ failsOnly_write _ _) harnesses).bind fun _ ↦ failsOnly_write _ _

end Creating

/-- The failures that a recast skips. -/
def Refused : Failure → Prop
  | .refused _ _ => True
  | .integrity => False
  | .invalid => False

/-- A creation that is refused has written nothing. -/
theorem careful_createFresh (ownerId familyId : String) (createdFrom : FamilyCreatedFrom)
    (body : SetupFamilyCreateRequest) :
    Careful Refused (createFresh ownerId familyId createdFrom body) := by
  refine (reading_check _ _).bind_careful fun _ ↦ ?_
  refine (reading_checkNewMembers _ _ _).bind_careful fun harnesses ↦ ?_
  refine (reading_checkBaseline _ _).bind_careful fun _ ↦ ?_
  have honly := (failsOnly_insertNewFamily ownerId familyId createdFrom body harnesses).bind
    fun _ ↦ FailsOnly.pure Failure.integrity familyId
  exact honly.careful id

/-! ### Patching -/

section Patching

variable {ownerId familyId stableId : String} {family : SetupFamily}
  {body : SetupFamilyPatchRequest} {before after : Registry}

theorem patchedBaseline_eq_ok {requested : Option SetupRef} {held baseline : SetupRef}
    (h : patchedBaseline ownerId familyId held requested before = (.ok baseline, after)) :
    after = before ∧ baseline.stableId ∈ before.memberSet familyId := by
  cases requested with
  | none =>
    simp only [patchedBaseline, Attempt.bind_eq_ok, check_eq_ok, pure_eq_ok] at h
    obtain ⟨_, middle, ⟨hmember, rfl⟩, rfl, rfl⟩ := h
    exact ⟨rfl, Registry.memberOf_iff.mp hmember⟩
  | some requested =>
    simp only [patchedBaseline, Attempt.bind_eq_ok, check_eq_ok, pure_eq_ok] at h
    obtain ⟨_, _, ⟨hmember, rfl⟩, _, _, ⟨-, rfl⟩, rfl, rfl⟩ := h
    exact ⟨rfl, Registry.memberOf_iff.mp hmember⟩

theorem patchedBaseline_kept (ownerId : String) {held : SetupRef}
    (hmember : before.memberOf familyId held.stableId = true) :
    patchedBaseline ownerId familyId held none before = (.ok held, before) := by
  refine Attempt.bind_eq_ok.mpr ⟨(), before, ?_, pure_eq_ok.mpr ⟨rfl, rfl⟩⟩
  exact check_eq_ok.mpr ⟨hmember, rfl⟩

theorem patchFresh_eq_ok {patched : String}
    (hfamily : before.families.get? familyId = some family)
    (howner : family.ownerAccountId = ownerId)
    (h : patchFresh ownerId familyId family body before = (.ok patched, after)) :
    patched = familyId ∧ ∃ baseline,
      Changed familyId (patchedFamily family body baseline) body.idempotencyKey
        (patchedRevision ownerId familyId family body baseline) before after := by
  simp only [patchFresh, updateFamily, insertRevision, Attempt.bind_eq_ok, check_eq_ok,
    write_eq_ok, decide_eq_true_eq, pure_eq_ok, Option.some.injEq, Option.map_eq_some_iff] at h
  obtain ⟨_, _, ⟨-, rfl⟩, _, removed, hremoved, _, reshaped, hadded, _, _, ⟨htwo, rfl⟩, baseline,
    based, hbased, _, _, rfl, _, _, ⟨history, hhistory, rfl⟩, rfl, rfl⟩ := h
  obtain ⟨hsame, hbaseline⟩ := patchedBaseline_eq_ok hbased
  rw [hsame] at hhistory ⊢
  have hfirst := removeMembers_eq_ok hremoved
  obtain ⟨hsecond, howns⟩ := addMembers_eq_ok hadded
  have hreshaped := hfirst.trans hsecond
  refine ⟨rfl, baseline, ?_⟩
  constructor
  · exact hreshaped.catalog
  · exact hreshaped.others
  · exact hreshaped.members
  · exact hreshaped.harness
  · intro other
    show (reshaped.families.update familyId _).get? other = _
    rw [hreshaped.families, Table.get?_update, hfamily]
    rfl
  · rw [← hreshaped.history]
    exact hhistory
  · rfl
  · exact htwo
  · exact hbaseline
  · intro other hother
    show before.Owns family.ownerAccountId other
    rw [howner, ← hfirst.owns]
    exact howns other hother

theorem careful_addMember (ownerId familyId stableId : String) :
    Careful Refused (addMember ownerId familyId stableId) := by
  refine (reading_check _ _).bind_careful fun _ ↦ ?_
  refine (reading_fetch _ _).bind_careful fun row ↦ ?_
  refine (reading_check _ _).bind_careful fun _ ↦ ?_
  refine (reading_fetch _ _).bind_careful fun harness ↦ ?_
  refine (reading_check _ _).bind_careful fun _ ↦ ?_
  exact (failsOnly_write _ _).careful id

/-- The patch with which a recast joins a family that is sound is refused before it has written:
the family keeps its members, so it still has two, and its baseline. -/
theorem join_refused {revision : Nat} {key code message : String}
    (hsound : FamilySound before familyId family)
    (h : patchFresh ownerId familyId family (joinRequest revision key stableId) before =
      (.error (.refused code message), after)) : after = before := by
  rcases Attempt.bind_eq_error.mp h with hrevision | ⟨_, _, hrevision, h⟩
  · exact (reading_check _ _).state_eq hrevision
  rw [(reading_check _ _).state_eq hrevision] at h
  rcases Attempt.bind_eq_error.mp h with hremoved | ⟨_, removed, hremoved, h⟩
  · cases (Prod.mk.inj hremoved).1
  obtain rfl : before = removed := (pure_eq_ok.mp hremoved).2
  rcases Attempt.bind_eq_error.mp h with hadded | ⟨_, joined, hadded, h⟩
  · rcases Attempt.bind_eq_error.mp hadded with hmember | ⟨_, _, -, hnil⟩
    · exact careful_addMember ownerId familyId stableId before (.refused code message) after trivial
        hmember
    · cases (Prod.mk.inj hnil).1
  have hjoined := (addMembers_eq_ok hadded).1
  have hsub : before.memberSet familyId ⊆ joined.memberSet familyId := by
    rw [hjoined.members]
    simp
  have htwo : 2 ≤ (joined.memberSet familyId).card :=
    hsound.two.trans (Finset.card_le_card hsub)
  have hbaseline : joined.memberOf familyId family.baseline.stableId = true :=
    Registry.memberOf_iff.mpr (hsub hsound.baseline)
  rcases Attempt.bind_eq_error.mp h with hcard | ⟨_, counted, hcard, h⟩
  · simp [check, htwo] at hcard
  obtain rfl : joined = counted := (check_eq_ok.mp hcard).2
  rcases Attempt.bind_eq_error.mp h with hbased | ⟨baseline, based, -, h⟩
  · cases (patchedBaseline_kept ownerId hbaseline).symm.trans hbased
  have honly : FailsOnly .integrity (do
      updateFamily familyId (patchedFamily family (joinRequest revision key stableId) baseline)
      insertRevision key (patchedRevision ownerId familyId family
        (joinRequest revision key stableId) baseline)
      return familyId) :=
    (failsOnly_write _ _).bind fun _ ↦ (failsOnly_write _ _).bind fun _ ↦ .pure _ _
  cases honly based _ after h

end Patching

/-! ### Families that are answered -/

def Registry.OwnedBy (registry : Registry) (ownerId familyId : String) : Prop :=
  ∃ family, registry.families.get? familyId = some family ∧ family.ownerAccountId = ownerId

instance (registry : Registry) (ownerId familyId : String) :
    Decidable (registry.OwnedBy ownerId familyId) :=
  match hfamily : registry.families.get? familyId with
  | none => isFalse fun ⟨_, hheld, _⟩ ↦ by
      rw [hfamily] at hheld
      cases hheld
  | some family => decidable_of_iff (family.ownerAccountId = ownerId) (by simp [Registry.OwnedBy, hfamily])

/-- A call returned a family: the one of its key, or, if the key is new, one of its caller, which is
all that it may have changed. -/
inductive Answered (ownerId key familyId : String) (removed : List String)
    (before after : Registry) : Prop
  | replayed (revision : SetupFamilyRevision)
      (hrevision : before.history.get? key = some revision)
      (hfamily : revision.familyId = familyId) (hsame : after = before)
  | served (hkey : before.history.get? key = none) (hsound : Sound after)
      (howner : after.OwnedBy ownerId familyId) (helsewhere : Elsewhere familyId before after)
      (hleft : ∀ stableId ∈ before.memberSet familyId,
        stableId ∈ after.memberSet familyId ∨ stableId ∈ removed)

section Answers

variable {ownerId familyId answered key : String} {before after : Registry}

theorem Sound.memberSet_eq_empty (hsound : Sound before)
    (hfree : before.families.get? familyId = none) : before.memberSet familyId = ∅ := by
  rw [Finset.eq_empty_iff_forall_notMem]
  intro stableId hmember
  obtain ⟨member, hrow, hfamily⟩ := Registry.mem_memberSet.mp hmember
  obtain ⟨family, hheld⟩ := hsound.members stableId member hrow
  rw [hfamily, hfree] at hheld
  cases hheld

theorem Sound.historyOf_eq_nil (hsound : Sound before)
    (hfree : before.families.get? familyId = none) : before.historyOf familyId = [] := by
  unfold Registry.historyOf
  rw [List.filter_eq_nil_iff]
  intro revision hrevision
  obtain ⟨⟨key, row⟩, hentry, rfl⟩ := List.mem_map.mp hrevision
  obtain ⟨family, hheld⟩ := hsound.history key row (Table.mem_entries.mp hentry)
  rw [decide_eq_true_eq]
  intro hfamily
  rw [hfamily, hfree] at hheld
  cases hheld

theorem Sound.ready_of_free (hsound : Sound before)
    (hfree : before.families.get? familyId = none) (createdFrom : FamilyCreatedFrom)
    (body : SetupFamilyCreateRequest) :
    Ready before familyId (newFamily ownerId createdFrom body) where
  harness := by
    intro first second one two hone htwo hfirst
    obtain ⟨family, hheld⟩ := hsound.members first one hone
    rw [hfirst, hfree] at hheld
    cases hheld
  owned := by
    rw [hsound.memberSet_eq_empty hfree]
    nofun
  folded := by
    rw [hsound.memberSet_eq_empty hfree, hsound.historyOf_eq_nil hfree]
    rfl
  counted := by
    rw [hsound.historyOf_eq_nil hfree]
    rfl

theorem FamilySound.ready {family : SetupFamily} (h : FamilySound before familyId family)
    (body : SetupFamilyPatchRequest) (baseline : SetupRef) :
    Ready before familyId (patchedFamily family body baseline) where
  harness := h.harness
  owned := h.owned
  folded := h.folded
  counted := congrArg (· + 1) h.counted

section

variable (hsound : Sound before)
include hsound

theorem createFresh_answered {createdFrom : FamilyCreatedFrom} {body : SetupFamilyCreateRequest}
    (h : createFresh ownerId familyId createdFrom body before = (.ok answered, after)) :
    Answered ownerId body.idempotencyKey answered [] before after := by
  obtain ⟨rfl, hfree, hchanged⟩ := createFresh_eq_ok h
  obtain ⟨hkey, hget⟩ := Table.insert?_eq_some hchanged.history
  refine .served hkey (hchanged.sound hsound (hsound.ready_of_free hfree createdFrom body) ?_) ?_
    hchanged.elsewhere fun _ ↦ hchanged.mem_or_removed
  · refine ⟨newRevision ownerId answered body, ?_, rfl⟩
    exact (hget _).trans (if_pos rfl)
  · exact ⟨_, (hchanged.families answered).trans (if_pos rfl), rfl⟩

theorem createFamily_eq_ok {createdFrom : FamilyCreatedFrom} {body : SetupFamilyCreateRequest}
    (h : createFamily ownerId familyId createdFrom body before = (.ok answered, after)) :
    Answered ownerId body.idempotencyKey answered [] before after := by
  unfold createFamily at h
  split at h
  · next existingId family hfind =>
    obtain ⟨hfamily, hkey⟩ := Table.find?_eq_some hfind
    obtain ⟨revision, hrevision, hnamed⟩ := hsound.keys existingId family hfamily
    rw [of_decide_eq_true hkey] at hrevision
    obtain ⟨hexisting, hsame⟩ := Prod.mk.inj h
    exact .replayed revision hrevision (hnamed.trans (Except.ok.inj hexisting)) hsame.symm
  · exact createFresh_answered hsound h

theorem patchFresh_answered {family : SetupFamily} {body : SetupFamilyPatchRequest}
    (hfamily : before.families.get? familyId = some family)
    (howner : family.ownerAccountId = ownerId)
    (h : patchFresh ownerId familyId family body before = (.ok answered, after)) :
    Answered ownerId body.idempotencyKey answered body.removeMembers before after := by
  obtain ⟨rfl, baseline, hchanged⟩ := patchFresh_eq_ok hfamily howner h
  have hready := (hsound.families answered family hfamily).ready body baseline
  refine .served (Table.insert?_eq_some hchanged.history).1 (hchanged.sound hsound hready ?_) ?_
    hchanged.elsewhere fun _ ↦ hchanged.mem_or_removed
  · obtain ⟨row, hrow, hnamed⟩ := hsound.keys answered family hfamily
    exact ⟨row, hchanged.keeps_revision hrow, hnamed⟩
  · exact ⟨_, (hchanged.families answered).trans (if_pos rfl), howner⟩

theorem patchFamily_eq_ok {body : SetupFamilyPatchRequest}
    (h : patchFamily ownerId familyId body before = (.ok answered, after)) :
    Answered ownerId body.idempotencyKey answered body.removeMembers before after := by
  unfold patchFamily at h
  split at h
  · next replay family hreplay hfamily =>
    by_cases hsame : replay.familyId = familyId
    · rw [if_pos hsame] at h
      obtain ⟨hanswer, hafter⟩ := Prod.mk.inj h
      exact .replayed replay hreplay (hsame.trans (Except.ok.inj hanswer)) hafter.symm
    · rw [if_neg hsame] at h
      cases (Prod.mk.inj h).1
  · cases (Prod.mk.inj h).1
  · next family hreplay hfamily =>
    by_cases howner : family.ownerAccountId = ownerId
    · rw [if_pos howner] at h
      exact patchFresh_answered hsound hfamily howner h
    · rw [if_neg howner] at h
      cases (Prod.mk.inj h).1
  · cases (Prod.mk.inj h).1

end

end Answers

end AiStp.Catalog
