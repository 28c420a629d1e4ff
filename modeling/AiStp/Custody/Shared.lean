import AiStp.Custody.Review

/-!
# Entries that subjects share

A review releases the references of its subjects and sets theirs anew. Every entry stays in its
place while this is done, so an entry of the snapshot before is followed by its position; what is
appended after them is new and has the reference of its claim. An entry that somebody else refers to
therefore keeps its value, and its planned effect is to leave that value.

Two entries conflict when their recorded addresses name one file and their ownerships overlap. A
review adds no conflict. Completion reads the addresses of touched files again and compares them
with nothing, and an address that names a directory that has been replaced is not the address of the
file that stands in its place.
-/

set_option autoImplicit false

namespace AiStp.Custody

open Foundation Library

variable {environment : Environment}

/-! ### Conflicts -/

def Ownership.overlaps : Ownership → Ownership → Prop
  | .contribution parserId key, .contribution parserId' key' => parserId ≠ parserId' ∨ key = key'
  | _, _ => True

instance (first second : Ownership) : Decidable (first.overlaps second) := by
  unfold Ownership.overlaps
  split <;> infer_instance

/-- Two entries whose recorded addresses name one file and whose ownerships overlap. -/
def Entry.conflicts (environment : Environment) (first second : Entry) : Prop :=
  first.address.sameFile environment second.address ∧ first.ownership.overlaps second.ownership

def Apart (environment : Environment) (entries : List Entry) : Prop :=
  entries.Pairwise fun first second ↦ ¬ first.conflicts environment second

variable {entry : Entry} {entries : List Entry}

theorem apart_set {index : Nat} {next : Entry} (hentry : entries[index]? = some entry)
    (haddress : next.address = entry.address) (hownership : next.ownership = entry.ownership)
    (hapart : Apart environment entries) : Apart environment (entries.set index next) := by
  rw [Apart, List.pairwise_iff_getElem] at hapart ⊢
  intro first second hfirst hsecond hlt
  have hplain := hapart first second (by simpa using hfirst) (by simpa using hsecond) hlt
  obtain ⟨hindex, rfl⟩ := List.getElem?_eq_some_iff.mp hentry
  simp only [Entry.conflicts, List.getElem_set] at hplain ⊢
  grind

/-! ### What one round does -/

theorem observeHeld_cases {subject : Subject} {observations next : SortedMap Observed}
    (hrun : observeHeld environment subject observations entry = some next) :
    subject.key ∉ entry.references.keys ∧ next = observations ∨
      ∃ observed, entry.shownBy observed ∧ next = observations.insert entry.id observed := by
  unfold observeHeld at hrun
  split at hrun
  next hnone =>
    exact .inl ⟨SortedMap.get?_eq_none.mp hnone, (Option.some.inj hrun).symm⟩
  next reference hsome =>
    rw [Option.bind_eq_bind, Option.bind_eq_some_iff] at hrun
    obtain ⟨observed, -, hrest⟩ := hrun
    simp only [Option.bind_eq_bind, Option.bind_eq_some_iff, Option.guard_eq_some',
      Option.some.injEq] at hrest
    obtain ⟨-, hshown, hnext⟩ := hrest
    exact .inr ⟨observed, hshown, hnext.symm⟩

/-- What the observation of a subject's entries adds is theirs, and shows them. -/
theorem observed_cases {subject : Subject} {observations next : SortedMap Observed}
    (hrun : entries.foldlM (observeHeld environment subject) observations = some next)
    {observation : String × Observed} (hmem : observation ∈ next) :
    observation ∈ observations ∨
      ∃ entry ∈ entries, entry.id = observation.1 ∧ entry.shownBy observation.2 := by
  refine foldlM_invariant (fun current ↦ ∀ observation ∈ current,
    observation ∈ observations ∨
      ∃ entry ∈ entries, entry.id = observation.1 ∧ entry.shownBy observation.2)
    hrun (fun _ ↦ .inl) ?_ observation hmem
  intro entry hentry current later hcurrent hstep observation hmem
  rcases observeHeld_cases hstep with ⟨-, rfl⟩ | ⟨observed, hshown, rfl⟩
  · exact hcurrent observation hmem
  · rcases SortedMap.mem_insert.mp hmem with rfl | ⟨hold, -⟩
    · exact .inr ⟨entry, hentry, rfl, hshown⟩
    · exact hcurrent observation hold

theorem observeHeld_keeps {subject : Subject} {observations next : SortedMap Observed} {id : String}
    (hrun : observeHeld environment subject observations entry = some next)
    (hid : id ∈ observations.keys) : id ∈ next.keys := by
  rcases observeHeld_cases hrun with ⟨-, rfl⟩ | ⟨observed, -, rfl⟩
  · exact hid
  · exact SortedMap.mem_keys_insert.mpr (.inr hid)

/-- An entry that the subject holds is observed. -/
theorem observed_held {subject : Subject} {observations next : SortedMap Observed}
    (hrun : entries.foldlM (observeHeld environment subject) observations = some next)
    (hentry : entry ∈ entries) (hheld : subject.key ∈ entry.references.keys) :
    entry.id ∈ next.keys := by
  refine foldlM_reached (fun current ↦ entry.id ∈ current.keys) hrun hentry ?_ ?_
  · intro current later hstep
    rcases observeHeld_cases hstep with ⟨hfree, -⟩ | ⟨observed, -, rfl⟩
    · exact absurd hheld hfree
    · exact SortedMap.mem_keys_insert.mpr (.inl rfl)
  · intro later hlater current following hcurrent hstep
    exact observeHeld_keeps hstep hcurrent

variable {before : Snapshot} {draft : Draft}

theorem release_cases {next : Draft} {change : Change}
    (hrun : release environment before draft change = some next) :
    next.entries = draft.entries.map (Entry.release change.subject.key) ∧
      before.entries.foldlM (observeHeld environment change.subject) draft.observations =
        some next.observations := by
  simp only [release, Option.bind_eq_bind, Option.bind_eq_some_iff, Option.some.injEq] at hrun
  obtain ⟨-, -, -, -, -, -, -, -, observations, hobservations, hnext⟩ := hrun
  subst hnext
  exact ⟨rfl, hobservations⟩

/-- When no entry was matched, none conflicts with what was observed. -/
theorem matchEntry_none {observed : Observed}
    (hrun : entries.zipIdx.foldlM (matchEntry environment observed) none = some none) :
    ∀ entry ∈ entries, entry.address.sameFile environment observed.address →
      ¬ entry.ownership.overlaps observed.locator.ownership := by
  have hdone : (none : Option Nat) = none → ∀ place ∈ entries.zipIdx,
      place.1.address.sameFile environment observed.address →
        ¬ place.1.ownership.overlaps observed.locator.ownership := by
    refine foldlM_done_invariant (fun done matched ↦ matched = none →
      ∀ place ∈ done, place.1.address.sameFile environment observed.address →
        ¬ place.1.ownership.overlaps observed.locator.ownership) hrun (by simp) ?_
    intro done place matched next hpart hdone hstep hnone
    subst hnone
    unfold matchEntry at hstep
    split at hstep
    next hsame =>
      split at hstep
      next => simp at hstep
      next parserId key parserId' key' howned hclaimed =>
        by_cases hparser : parserId = parserId' <;> by_cases hkey : key = key' <;>
          simp only [hparser, hkey, if_true, if_false, Option.some.injEq, reduceCtorEq] at hstep
        intro other hother
        rcases List.mem_append.mp hother with hold | hnew
        · exact hdone hstep other hold
        · intro _
          rw [List.mem_singleton.mp hnew, howned, hclaimed]
          simp [Ownership.overlaps, hparser, hkey]
      next => simp at hstep
    next happart =>
      intro other hother
      rcases List.mem_append.mp hother with hold | hnew
      · exact hdone (Option.some.inj hstep) other hold
      · intro hsame
        rw [List.mem_singleton.mp hnew] at hsame
        exact absurd hsame happart
  intro entry hentry
  obtain ⟨index, hindex, rfl⟩ := List.mem_iff_getElem.mp hentry
  exact hdone rfl (entries[index], index) (List.mem_zipIdx_iff_getElem?.mpr (by simp [hindex]))

variable {operationId : String} {proofs : List Adoption}

/-- A claim sets an entry in its place, or appends one that conflicts with none. -/
theorem claim_cases {next : Draft} {wanted : Subject × Desired}
    (hrun : claim environment operationId proofs draft wanted = some next) :
    ∃ entry : Entry,
      next.observations = draft.observations.insert entry.id wanted.2.observed ∧
      ((∃ index, draft.entries[index]? = some entry ∧ entry.shownBy wanted.2.observed ∧
          (entry.value = wanted.2.value ∨ entry.references = []) ∧
          next.entries =
            draft.entries.set index (entry.claim operationId wanted.1 wanted.2)) ∨
        ((∀ other ∈ draft.entries, ¬ other.conflicts environment entry) ∧
          next.entries = draft.entries ++ [entry.claim operationId wanted.1 wanted.2])) := by
  simp only [claim, Option.bind_eq_bind, Option.bind_eq_some_iff, Option.some.injEq] at hrun
  obtain ⟨-, -, -, -, -, -, matched, hmatched, place, hplace, entry, hentry, hnext⟩ := hrun
  subst hnext
  refine ⟨entry, rfl, ?_⟩
  cases matched with
  | some index =>
    simp only [placeClaim, Option.bind_eq_bind, Option.bind_eq_some_iff, Option.guard_eq_some',
      Option.some.injEq] at hplace
    obtain ⟨found, hfound, -, hshown, -, hvalue, rfl⟩ := hplace
    have hsame : found = entry := Option.some.inj (hfound.symm.trans hentry)
    subst hsame
    exact .inl ⟨index, hfound, hshown, hvalue, rfl⟩
  | none =>
    simp only [placeClaim, Option.bind_eq_bind, Option.bind_eq_some_iff, Option.some.injEq]
      at hplace
    obtain ⟨-, -, id, -, rfl⟩ := hplace
    have hnew : Entry.mk id wanted.2.observed.address wanted.2.observed.locator.ownership
        wanted.2.value [] = entry := by simpa using hentry
    subst hnew
    refine .inr ⟨?_, by simp⟩
    rintro other hother ⟨hsame, hoverlap⟩
    exact matchEntry_none hmatched other hother hsame hoverlap

/-! ### Following an entry -/

/-- Somebody whose key is not among those of the changes refers to the entry. -/
def Entry.HeldOutside (keys : List String) (entry : Entry) : Prop :=
  ∃ reference ∈ entry.references, reference.1 ∉ keys

/-- The entry in its place: what others hold of it is as it was. -/
structure Keeps (keys : List String) (entry next : Entry) : Prop where
  id : next.id = entry.id
  address : next.address = entry.address
  ownership : next.ownership = entry.ownership
  references : ∀ reference : String × Reference, reference.1 ∉ keys →
    (reference ∈ next.references ↔ reference ∈ entry.references)
  value : entry.HeldOutside keys → next.value = entry.value

theorem Keeps.refl (keys : List String) (entry : Entry) : Keeps keys entry entry :=
  ⟨rfl, rfl, rfl, fun _ _ ↦ Iff.rfl, fun _ ↦ rfl⟩

variable {keys : List String}

/-- What others hold keeps an entry from being dropped. -/
theorem Keeps.referenced {next : Entry} (hkeeps : Keeps keys entry next)
    (houtside : entry.HeldOutside keys) : next.references ≠ [] := by
  obtain ⟨reference, hreference, hother⟩ := houtside
  exact List.ne_nil_of_mem ((hkeeps.references reference hother).mpr hreference)

theorem Keeps.release {next : Entry} {key : String} (hkeeps : Keeps keys entry next)
    (hkey : key ∈ keys) : Keeps keys entry (next.release key) := by
  refine ⟨hkeeps.id, hkeeps.address, hkeeps.ownership, ?_, hkeeps.value⟩
  intro reference houtside
  have hother : reference.1 ≠ key := fun hsame ↦ houtside (hsame ▸ hkey)
  simp [Entry.release, hother, hkeeps.references reference houtside]

theorem Keeps.claim {next : Entry} {subject : Subject} {desired : Desired}
    (hkeeps : Keeps keys entry next) (hkey : subject.key ∈ keys)
    (hvalue : next.value = desired.value ∨ next.references = []) :
    Keeps keys entry (next.claim operationId subject desired) := by
  refine ⟨hkeeps.id, hkeeps.address, hkeeps.ownership, ?_, ?_⟩
  · intro reference houtside
    have hother : reference.1 ≠ subject.key := fun hsame ↦ houtside (hsame ▸ hkey)
    have hnew : reference ≠ (subject.key, desired.reference operationId subject) :=
      fun hsame ↦ hother (congrArg Prod.fst hsame)
    simp [Entry.claim, hother, hnew, hkeeps.references reference houtside]
  · rintro ⟨reference, hreference, houtside⟩
    have hheld : reference ∈ next.references :=
      (hkeeps.references reference houtside).mpr hreference
    have hsame : next.value = desired.value :=
      hvalue.resolve_right (List.ne_nil_of_mem hheld)
    exact hsame.symm.trans (hkeeps.value ⟨reference, hreference, houtside⟩)

/-- A draft in the course of a review of the entries before it, with the keys that it has
released. -/
structure Draft.Continues (environment : Environment) (before : List Entry)
    (keys released : List String) (draft : Draft) : Prop where
  kept : ∀ (index : Nat) (entry : Entry), before[index]? = some entry →
    ∃ next, draft.entries[index]? = some next ∧ Keeps keys entry next
  fresh : ∀ (index : Nat) (entry : Entry), before[index]? = none → draft.entries[index]? = some entry →
    entry.references ≠ []
  observed : ∀ observation ∈ draft.observations,
    (∃ entry ∈ before, entry.id = observation.1 ∧
        (entry.HeldOutside keys → observation.2.value = some entry.value)) ∨
      ∃ (index : Nat) (entry : Entry), before[index]? = none ∧
        draft.entries[index]? = some entry ∧ entry.id = observation.1
  held : ∀ entry ∈ before, ∀ key ∈ released, key ∈ entry.references.keys →
    entry.id ∈ draft.observations.keys
  apart : Apart environment before → Apart environment draft.entries

theorem continues_start (before : List Entry) (keys : List String) :
    Draft.Continues environment before keys []
      { subjects := [], files := [], entries := before, observations := [] } where
  kept := fun _ entry hentry ↦ ⟨entry, hentry, .refl keys entry⟩
  fresh := by
    intro index entry hnone hsome
    exact absurd (hnone.symm.trans hsome) (by simp)
  observed := by simp
  held := by simp
  apart := id

theorem Entry.shownBy_value {observed : Observed} (hshown : entry.shownBy observed) :
    observed.value = some entry.value := by
  simp only [Entry.shownBy, Bool.and_eq_true, decide_eq_true_eq] at hshown
  exact hshown.1

/-- Releasing a change keeps every entry in its place and adds none. -/
theorem continues_release {released : List String} {next : Draft} {change : Change}
    (hrun : release environment before draft change = some next) (hkey : change.subject.key ∈ keys)
    (hcontinues : draft.Continues environment before.entries keys released)
    (hlength : draft.entries.length = before.entries.length) :
    next.Continues environment before.entries keys (released ++ [change.subject.key]) ∧
      next.entries.length = before.entries.length := by
  obtain ⟨hentries, hobservations⟩ := release_cases hrun
  have hlength' : next.entries.length = before.entries.length := by
    rw [hentries, List.length_map, hlength]
  refine ⟨⟨?_, ?_, ?_, ?_, ?_⟩, hlength'⟩
  · intro index entry hentry
    obtain ⟨current, hcurrent, hkeeps⟩ := hcontinues.kept index entry hentry
    refine ⟨current.release change.subject.key, ?_, hkeeps.release hkey⟩
    rw [hentries, List.getElem?_map, hcurrent, Option.map_some]
  · intro index entry hnone hsome
    have hbound := List.getElem?_eq_none_iff.mp hnone
    have hinside := (List.getElem?_eq_some_iff.mp hsome).1
    omega
  · intro observation hmem
    rcases observed_cases hobservations hmem with hold | ⟨entry, hentry, hid, hshown⟩
    · rcases hcontinues.observed observation hold with hkept | ⟨index, entry, hnone, hsome, -⟩
      · exact .inl hkept
      · have hbound := List.getElem?_eq_none_iff.mp hnone
        have hinside := (List.getElem?_eq_some_iff.mp hsome).1
        omega
    · exact .inl ⟨entry, hentry, hid, fun _ ↦ entry.shownBy_value hshown⟩
  · intro entry hentry key hmem hheld
    rcases List.mem_append.mp hmem with hold | hnew
    · have hid := hcontinues.held entry hentry key hold hheld
      exact foldlM_invariant (fun current ↦ entry.id ∈ current.keys) hobservations
        hid fun _ _ _ _ hcurrent hstep ↦ observeHeld_keeps hstep hcurrent
    · rw [List.mem_singleton.mp hnew] at hheld
      exact observed_held hobservations hentry hheld
  · intro hapart
    rw [hentries, Apart, List.pairwise_map]
    exact hcontinues.apart hapart

theorem continues_claim {before : List Entry} {released : List String} {next : Draft}
    {wanted : Subject × Desired}
    (hrun : claim environment operationId proofs draft wanted = some next)
    (hkey : wanted.1.key ∈ keys) (hcontinues : draft.Continues environment before keys released) :
    next.Continues environment before keys released := by
  obtain ⟨entry, hobservations, hplace⟩ := claim_cases hrun
  have hheld : ∀ entry ∈ before, ∀ key ∈ released, key ∈ entry.references.keys →
      entry.id ∈ next.observations.keys := by
    intro other hother key hmem hheld
    rw [hobservations]
    exact SortedMap.mem_keys_insert.mpr (.inr (hcontinues.held other hother key hmem hheld))
  have hclaimed : (entry.claim operationId wanted.1 wanted.2).references ≠ [] :=
    SortedMap.insert_ne_nil _ _ _
  rcases hplace with ⟨index, hentry, hshown, hvalue, hentries⟩ | ⟨hfree, hentries⟩
  · have hinside : index < draft.entries.length := (List.getElem?_eq_some_iff.mp hentry).1
    have hother : ∀ place, place ≠ index → next.entries[place]? = draft.entries[place]? := by
      intro place hplace
      rw [hentries, List.getElem?_set_ne hplace.symm]
    have hthere : next.entries[index]? = some (entry.claim operationId wanted.1 wanted.2) := by
      rw [hentries, List.getElem?_set_self hinside]
    refine ⟨?_, ?_, ?_, hheld, ?_⟩
    · intro place first hfirst
      obtain ⟨current, hcurrent, hkeeps⟩ := hcontinues.kept place first hfirst
      by_cases hplace : place = index
      · subst hplace
        have hsame : current = entry := Option.some.inj (hcurrent.symm.trans hentry)
        subst hsame
        exact ⟨_, hthere, hkeeps.claim hkey hvalue⟩
      · exact ⟨current, (hother place hplace).trans hcurrent, hkeeps⟩
    · intro place current hnone hcurrent
      by_cases hplace : place = index
      · subst hplace
        have hsame := Option.some.inj (hcurrent.symm.trans hthere)
        exact hsame ▸ hclaimed
      · exact hcontinues.fresh place current hnone ((hother place hplace).symm.trans hcurrent)
    · intro observation hmem
      rw [hobservations, SortedMap.mem_insert] at hmem
      rcases hmem with rfl | ⟨hold, -⟩
      · -- The claimed entry is one of those before, or one that an earlier claim appended.
        cases hbefore : before[index]? with
        | some first =>
          obtain ⟨current, hcurrent, hkeeps⟩ := hcontinues.kept index first hbefore
          have hsame : current = entry := Option.some.inj (hcurrent.symm.trans hentry)
          subst hsame
          refine .inl ⟨first, List.mem_of_getElem? hbefore, hkeeps.id.symm, fun houtside ↦ ?_⟩
          rw [current.shownBy_value hshown, hkeeps.value houtside]
        | none => exact .inr ⟨index, _, hbefore, hthere, rfl⟩
      · rcases hcontinues.observed observation hold with hkept | ⟨place, current, hnone, hsome, hid⟩
        · exact .inl hkept
        · by_cases hplace : place = index
          · subst hplace
            have hsame : current = entry := Option.some.inj (hsome.symm.trans hentry)
            exact .inr ⟨place, _, hnone, hthere, hsame ▸ hid⟩
          · exact .inr ⟨place, current, hnone, (hother place hplace).trans hsome, hid⟩
    · intro hapart
      rw [hentries]
      exact apart_set hentry rfl rfl (hcontinues.apart hapart)
  · have hold : ∀ (place : Nat) (current : Entry), draft.entries[place]? = some current →
        next.entries[place]? = some current := by
      intro place current hcurrent
      have hinside : place < draft.entries.length := (List.getElem?_eq_some_iff.mp hcurrent).1
      rw [hentries, List.getElem?_append_left hinside, hcurrent]
    have hlong : before.length ≤ draft.entries.length := by
      by_contra hshort
      have hinside : draft.entries.length < before.length := by omega
      obtain ⟨current, hcurrent, -⟩ := hcontinues.kept draft.entries.length _
        (List.getElem?_eq_getElem hinside)
      simp at hcurrent
    refine ⟨?_, ?_, ?_, hheld, ?_⟩
    · intro place first hfirst
      obtain ⟨current, hcurrent, hkeeps⟩ := hcontinues.kept place first hfirst
      exact ⟨current, hold place current hcurrent, hkeeps⟩
    · intro place current hnone hcurrent
      rw [hentries, List.getElem?_append] at hcurrent
      split at hcurrent
      · exact hcontinues.fresh place current hnone hcurrent
      · have hsame : entry.claim operationId wanted.1 wanted.2 = current :=
          List.mem_singleton.mp (List.mem_of_getElem? hcurrent) |>.symm
        exact hsame ▸ hclaimed
    · intro observation hmem
      rw [hobservations, SortedMap.mem_insert] at hmem
      rcases hmem with rfl | ⟨hmem, -⟩
      · refine .inr ⟨draft.entries.length, entry.claim operationId wanted.1 wanted.2,
          List.getElem?_eq_none hlong, ?_, rfl⟩
        rw [hentries, List.getElem?_concat_length]
      · rcases hcontinues.observed observation hmem with hkept | ⟨place, current, hnone, hsome, hid⟩
        · exact .inl hkept
        · exact .inr ⟨place, current, hnone, hold place current hsome, hid⟩
    · intro hapart
      rw [hentries, Apart, List.pairwise_append]
      refine ⟨hcontinues.apart hapart, by simp, ?_⟩
      intro other hother added hadded
      rw [List.mem_singleton.mp hadded]
      exact hfree other hother

variable {changes : List Change}

/-- The draft of a review continues the snapshot before it. -/
theorem reviewDraft_continues
    (hrun : reviewDraft environment operationId changes proofs before = some draft) :
    draft.Continues environment before.entries (changes.map (·.subject.key))
      (changes.map (·.subject.key)) := by
  rw [reviewDraft, Option.bind_eq_bind, Option.bind_eq_some_iff] at hrun
  obtain ⟨released, hreleased, hclaimed⟩ := hrun
  have hstart : released.Continues environment before.entries (changes.map (·.subject.key))
      (changes.map (·.subject.key)) ∧ released.entries.length = before.entries.length := by
    refine foldlM_done_invariant (fun done current ↦
      current.Continues environment before.entries (changes.map (·.subject.key))
        (done.map (·.subject.key)) ∧ current.entries.length = before.entries.length) hreleased
      ⟨continues_start _ _, rfl⟩ ?_
    intro done change current next hpart ⟨hcontinues, hlength⟩ hstep
    have hkey : change.subject.key ∈ changes.map (·.subject.key) :=
      List.mem_map_of_mem (hpart.subset (by simp))
    simpa using continues_release hstep hkey hcontinues hlength
  refine foldlM_invariant (fun current ↦ current.Continues environment before.entries
    (changes.map (·.subject.key)) (changes.map (·.subject.key))) hclaimed hstart.1 ?_
  intro wanted hwanted current next hcontinues hstep
  obtain ⟨change, hchange, hmem⟩ := List.mem_flatMap.mp hwanted
  obtain ⟨desired, -, rfl⟩ := List.mem_map.mp hmem
  exact continues_claim hstep (List.mem_map_of_mem hchange) hcontinues

/-! ### The finished review -/

theorem validate_ids {root : Identity} {snapshot : Snapshot}
    (hvalid : snapshot.validate environment root) :
    (snapshot.entries.map (·.id)).Nodup ∧ ∀ entry ∈ snapshot.entries, entry.references ≠ [] := by
  simp only [Snapshot.validate, Bool.and_eq_true, decide_eq_true_eq, List.all_eq_true] at hvalid
  refine ⟨hvalid.1.1.2, fun entry hentry ↦ ?_⟩
  have hentry := hvalid.1.2 entry hentry
  simp only [Entry.validate, Bool.and_eq_true, decide_eq_true_eq] at hentry
  exact hentry.1.1.1.2

theorem review_cases {result : Review}
    (hrun : review environment operationId changes proofs before = some result) :
    ∃ draft, reviewDraft environment operationId changes proofs before = some draft ∧
      before.validate environment before.metadataRoot ∧
      (draft.snapshot before operationId).validate environment before.metadataRoot ∧
      result.after = draft.snapshot before operationId ∧
      result.effects = draft.observations.map draft.effect := by
  simp only [review, Option.bind_eq_bind, Option.bind_eq_some_iff, Option.guard_eq_some',
    Option.some.injEq] at hrun
  obtain ⟨-, -, -, -, -, hbefore, draft, hdraft, -, hafter, -, -, hresult⟩ := hrun
  subst hresult
  exact ⟨draft, hdraft, hbefore, hafter, rfl, rfl⟩

/-- Two retained entries of one id stand in one place. -/
theorem retained_place {root : Identity}
    (hvalid : (draft.snapshot before operationId).validate environment root) {place place' : Nat}
    {entry' : Entry} (hentry : draft.entries[place]? = some entry)
    (hentry' : draft.entries[place']? = some entry') (hheld : entry.references ≠ [])
    (hheld' : entry'.references ≠ []) (hid : entry.id = entry'.id) : place = place' := by
  have hnodup : draft.entries.Pairwise fun first second ↦
      first.references ≠ [] → second.references ≠ [] → first.id ≠ second.id := by
    have hids := (validate_ids hvalid).1
    simp only [Draft.snapshot, List.Nodup, List.pairwise_map, List.pairwise_filter,
      decide_eq_true_eq] at hids
    exact hids
  rw [List.pairwise_iff_getElem] at hnodup
  obtain ⟨hinside, rfl⟩ := List.getElem?_eq_some_iff.mp hentry
  obtain ⟨hinside', rfl⟩ := List.getElem?_eq_some_iff.mp hentry'
  rcases Nat.lt_trichotomy place place' with hlt | hsame | hlt
  · exact absurd hid (hnodup place place' hinside hinside' hlt hheld hheld')
  · exact hsame
  · exact absurd hid.symm (hnodup place' place hinside' hinside hlt hheld' hheld)

theorem remains_eq_none {id : String} :
    draft.remains id = none ↔ ∀ entry ∈ draft.entries, entry.id = id → entry.references = [] := by
  simp only [Draft.remains, Option.map_eq_none_iff, List.find?_eq_none, Bool.and_eq_true,
    decide_eq_true_eq, not_and, not_not]

theorem remains_eq_some {id : String} {value : OwnedValue}
    (hremains : draft.remains id = some value) :
    ∃ entry ∈ draft.entries, entry.id = id ∧ entry.references ≠ [] ∧ entry.value = value := by
  obtain ⟨entry, hfound, rfl⟩ := Option.map_eq_some_iff.mp hremains
  have hentry := List.mem_of_find?_eq_some hfound
  have hpasses := List.find?_some hfound
  simp only [Bool.and_eq_true, decide_eq_true_eq] at hpasses
  exact ⟨entry, hentry, hpasses.1, hpasses.2, rfl⟩

/-- What a review of the changes of some keys does to the entries. -/
structure Review.Guards (environment : Environment) (keys : List String) (before : Snapshot)
    (review : Review) : Prop where
  /-- An entry that somebody else holds stays, with its value and with what the others hold. -/
  kept : ∀ entry ∈ before.entries, entry.HeldOutside keys →
    ∃ next ∈ review.after.entries, Keeps keys entry next
  /-- The effect of such an entry leaves its value. -/
  spared : ∀ entry ∈ before.entries, entry.HeldOutside keys → ∀ effect ∈ review.effects,
    effect.entry = entry.id → effect.before = some entry.value ∧ effect.after = some entry.value
  /-- An effect removes exactly when no reference to its entry remains. -/
  removes : ∀ effect ∈ review.effects, effect.after = none ↔
    ¬ ∃ entry ∈ review.after.entries, entry.id = effect.entry ∧ entry.references ≠ []
  /-- An entry that is dropped has an effect that removes it. -/
  dropped : ∀ entry ∈ before.entries, (∀ next ∈ review.after.entries, next.id ≠ entry.id) →
    ∃ effect ∈ review.effects, effect.entry = entry.id ∧ effect.after = none
  referenced : ∀ entry ∈ review.after.entries, entry.references ≠ []
  apart : Apart environment before.entries → Apart environment review.after.entries

theorem review_guards {result : Review}
    (hrun : review environment operationId changes proofs before = some result) :
    result.Guards environment (changes.map (·.subject.key)) before := by
  obtain ⟨draft, hdraft, hbefore, hafter, hresult, heffects⟩ := review_cases hrun
  have hcontinues := reviewDraft_continues hdraft
  have hretained : ∀ entry, entry ∈ result.after.entries ↔
      entry ∈ draft.entries ∧ entry.references ≠ [] := by
    intro entry
    rw [hresult, Draft.snapshot, List.mem_filter, decide_eq_true_eq]
  refine ⟨?_, ?_, ?_, ?_, ?_, ?_⟩
  · intro entry hentry houtside
    obtain ⟨place, hplace⟩ := List.mem_iff_getElem?.mp hentry
    obtain ⟨next, hnext, hkeeps⟩ := hcontinues.kept place entry hplace
    exact ⟨next, (hretained next).mpr ⟨List.mem_of_getElem? hnext, hkeeps.referenced houtside⟩, hkeeps⟩
  · intro entry hentry houtside effect heffect hid
    obtain ⟨place, hplace⟩ := List.mem_iff_getElem?.mp hentry
    obtain ⟨next, hnext, hkeeps⟩ := hcontinues.kept place entry hplace
    have hheld := hkeeps.referenced houtside
    rw [heffects] at heffect
    obtain ⟨observation, hobservation, rfl⟩ := List.mem_map.mp heffect
    have hid : observation.1 = entry.id := hid
    constructor
    · show observation.2.value = some entry.value
      rcases hcontinues.observed observation hobservation with
        ⟨other, hother, hsame, hvalue⟩ | ⟨place', added, hnone, hadded, hsame⟩
      · have hentries : other = entry :=
          List.inj_on_of_nodup_map (validate_ids hbefore).1 hother hentry (hsame.trans hid)
        exact hentries ▸ hvalue (hentries ▸ houtside)
      · -- A new entry of that id would stand in the place of the old one.
        have hfresh := hcontinues.fresh place' added hnone hadded
        have hids : added.id = next.id := hsame.trans (hid.trans hkeeps.id.symm)
        have hplaces := retained_place hafter hadded hnext hfresh hheld hids
        subst hplaces
        exact absurd (hnone.symm.trans hplace) (by simp)
    · show draft.remains observation.1 = some entry.value
      cases hremains : draft.remains observation.1 with
      | none =>
        have hfree := remains_eq_none.mp hremains next (List.mem_of_getElem? hnext)
          (hkeeps.id.trans hid.symm)
        exact absurd hfree hheld
      | some value =>
        obtain ⟨other, hother, hsame, hother', rfl⟩ := remains_eq_some hremains
        obtain ⟨place', hplace'⟩ := List.mem_iff_getElem?.mp hother
        have hplaces := retained_place hafter hplace' hnext hother' hheld
          (hsame.trans (hid.trans hkeeps.id.symm))
        subst hplaces
        have hentries : other = next := Option.some.inj (hplace'.symm.trans hnext)
        rw [hentries, hkeeps.value houtside]
  · intro effect heffect
    rw [heffects] at heffect
    obtain ⟨observation, -, rfl⟩ := List.mem_map.mp heffect
    show draft.remains observation.1 = none ↔
      ¬ ∃ entry ∈ result.after.entries, entry.id = observation.1 ∧ entry.references ≠ []
    rw [remains_eq_none]
    grind
  · intro entry hentry hgone
    obtain ⟨place, hplace⟩ := List.mem_iff_getElem?.mp hentry
    obtain ⟨next, hnext, hkeeps⟩ := hcontinues.kept place entry hplace
    have hfree : ∀ other ∈ draft.entries, other.id = entry.id → other.references = [] := by
      intro other hother hid
      by_contra hheld
      exact hgone other ((hretained other).mpr ⟨hother, hheld⟩) hid
    have hnoone : ¬ entry.HeldOutside (changes.map (·.subject.key)) := by
      intro houtside
      exact hkeeps.referenced houtside (hfree next (List.mem_of_getElem? hnext) hkeeps.id)
    -- The entry had a reference, and a change released it.
    obtain ⟨reference, hreference⟩ :=
      List.exists_mem_of_ne_nil _ ((validate_ids hbefore).2 entry hentry)
    have hkey : reference.1 ∈ changes.map (·.subject.key) := by
      by_contra hout
      exact hnoone ⟨reference, hreference, hout⟩
    have hheld := hcontinues.held entry hentry reference.1 hkey
      (SortedMap.mem_keys.mpr ⟨reference, hreference, rfl⟩)
    obtain ⟨observation, hobservation, hid⟩ := SortedMap.mem_keys.mp hheld
    refine ⟨draft.effect observation, ?_, hid, ?_⟩
    · rw [heffects]
      exact List.mem_map_of_mem hobservation
    · show draft.remains observation.1 = none
      rw [hid]
      exact remains_eq_none.mpr hfree
  · exact fun entry hentry ↦ ((hretained entry).mp hentry).2
  · intro hapart
    rw [hresult]
    exact (hcontinues.apart hapart).sublist List.filter_sublist

/-! ### The completed snapshot -/

/-- What a completion makes of a reviewed entry: at most its address is another one, which is then
what a reference of the entry shows. -/
def Settles (environment : Environment) (entry next : Entry) : Prop :=
  next = { entry with address := next.address } ∧
    (next.address = entry.address ∨
      ∃ reference ∈ entry.references, ∃ observed,
        environment.observe reference.2.locator = some observed ∧
          observed.value = some entry.value ∧ next.address = observed.address)

theorem settle_settles {touched : List Address} {next : Entry}
    (hrun : entry.settle environment touched = some next) : Settles environment entry next := by
  unfold Entry.settle at hrun
  split at hrun
  · simp only [Option.bind_eq_bind, Option.bind_eq_some_iff, Option.guard_eq_some',
      Option.some.injEq] at hrun
    obtain ⟨reference, hreference, observed, hobserved, -, hvalue, hnext⟩ := hrun
    subst hnext
    have hmem : reference ∈ entry.references := List.mem_of_head? hreference
    exact ⟨rfl, .inr ⟨reference, hmem, observed, hobserved, hvalue, rfl⟩⟩
  · have hnext : entry = next := Option.some.inj hrun
    subst hnext
    exact ⟨rfl, .inl rfl⟩

theorem completed_settles {current committed : Snapshot} {reviewed : Review}
    (hrun : completed environment current reviewed = some committed) :
    List.Forall₂ (Settles environment) reviewed.after.entries committed.entries := by
  simp only [completed, Option.bind_eq_bind, Option.bind_eq_some_iff, Option.some.injEq] at hrun
  obtain ⟨shown, -, -, -, -, -, entries, hentries, -, -, hcommitted⟩ := hrun
  subst hcommitted
  exact (mapM_forall₂ hentries).imp fun _ _ ↦ settle_settles

/-- Two entries of one key or file at one path under one root, by the locators of their
references. -/
def Entry.meets (first second : Entry) : Prop :=
  first.ownership.overlaps second.ownership ∧
    ∃ reference ∈ first.references, ∃ reference' ∈ second.references,
      reference.2.locator.root.identity = reference'.2.locator.root.identity ∧
        reference.2.locator.path = reference'.2.locator.path

instance (first second : Entry) : Decidable (first.meets second) :=
  inferInstanceAs (Decidable (_ ∧ _))

namespace Example

theorem volume_lt : 0 < 25 := by decide

theorem object_lt : 9 < 25 := by decide

/-- The identity of an object of a Unix volume. -/
def inode (number : UInt8) : Identity :=
  ((Vector.replicate 25 0).set 0 1 volume_lt).set 9 number object_lt

def digest : String :=
  "sha256:0000000000000000000000000000000000000000000000000000000000000000"

def home : Root := { path := "/home", identity := inode 1 }

def subject (key : String) : Subject :=
  { key := key, harness := "codex", scope := .global, root := home }

def firstKey : String :=
  "sha256:1111111111111111111111111111111111111111111111111111111111111111"

def secondKey : String :=
  "sha256:2222222222222222222222222222222222222222222222222222222222222222"

def servers : Ownership := .contribution "json/1" "mcpServers"

def settings : Locator := { root := home, path := "dir/settings.json", ownership := servers }

def source : Source :=
  { stableId := "component_01ARZ3NDEKTSV4RRFFQ69G5FAV", version := "1.0"
    passportDigest := digest }

def value : OwnedValue := { digest := digest, mode := none }

def operation (last : String) : String :=
  "operation_01ARZ3NDEKTSV4RRFFQ69G5FA" ++ last

def reference (operationId key : String) : Reference :=
  { operationId := some operationId, subject := subject key, source := source
    locator := settings }

/-- What the settings file shows in a directory: nothing, or the file with the value in it. -/
def shown (directory : UInt8) (file : Option UInt8) : Observed :=
  let stamp := file.map fun number ↦
    { identity := inode number, digest := digest, length := 2, mode := 0o600 : Stamp }
  let before : Observation := { parents := [("dir", inode directory)], file := stamp }
  { locator := settings, before := before, address := before.address (inode 1) settings.path
    value := file.map fun _ ↦ value }

/-- A machine with one root, whose settings file is as observed. -/
def machine (observed : Observed) : Environment where
  platform := asciiPlatform
  isAbsolute := fun _ ↦ true
  opens := fun root ↦ root = home
  observe := fun locator ↦ if locator = settings then some observed else none
  disjoint := fun _ _ ↦ false
  foldCase := id
  claimId := fun _ _ _ ↦ some "claim_01ARZ3NDEKTSV4RRFFQ69G5FAB"
  stateDigest := fun _ ↦ digest
  fitsSnapshot := fun _ ↦ true
  fitsReview := fun _ ↦ true

/-- The first subject has installed its servers. -/
def installed (keys : List String) : Snapshot :=
  { metadataRoot := inode 9
    revision := operation "A"
    entries := [{
      id := "claim_01ARZ3NDEKTSV4RRFFQ69G5FAA"
      address := (shown 2 (some 3)).address
      ownership := servers
      value := value
      references := keys.map fun key ↦ (key, reference (operation "A") key) }] }

def wanted (observed : Observed) : Change :=
  { subject := subject secondKey
    desired := [{ observed := observed, value := value, source := source }] }

def withdrawn : Change := { subject := subject firstKey, desired := [] }

end Example

end AiStp.Custody
