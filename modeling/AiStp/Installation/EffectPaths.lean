import AiStp.Installation.Model
import AiStp.Library.PathSets
import AiStp.Projection.Archive

/-!
# Paths that can be written together

`validate_effects` and the `validate` of archives refuse lists of paths that cannot stand side by
side on a system that folds the case of names. Both put the paths in the order of their folded texts
and compare neighbours only. For effects that decides exactly whether the paths are apart. In an
archive a directory may be listed beside what it holds; what an archive that is accepted promises,
and what is enough for it to be accepted, differ in the spelling of the listed directories.
-/

set_option autoImplicit false

namespace AiStp.Installation.EffectPaths

open Library Library.PathSets Foundation

/-! ### Folding -/

/-- Case folding goes character by character. A slash is folded to itself, and no other character
is folded to a text with a slash. -/
structure FoldsCharacters (foldCase : String → String) : Prop where
  exists_fold : ∃ fold : Char → List Char, fold '/' = ['/'] ∧
    (∀ character, '/' ∈ fold character → character = '/') ∧
    ∀ text, (foldCase text).toList = text.toList.flatMap fold

/-- The characters of a folded part. -/
def folded (foldCase : String → String) (part : String) : List Char :=
  (foldCase part).toList

section Folding

variable {foldCase : String → String}

section

variable (hfold : FoldsCharacters foldCase)
include hfold

/-- The folded text of a path is the text of its folded parts. -/
theorem toList_foldCase_pathText (parts : List String) :
    (foldCase (pathText parts)).toList = key (folded foldCase) '/' parts := by
  obtain ⟨fold, hslash, -, hfold⟩ := hfold.exists_fold
  rw [hfold, pathText, String.toList_intercalate, key]
  have hparts : parts.map (folded foldCase) = (parts.map String.toList).map (·.flatMap fold) := by
    rw [List.map_map]
    exact List.map_congr_left fun part _ ↦ hfold part
  rw [hparts]
  generalize parts.map String.toList = lists
  show (['/'].intercalate lists).flatMap fold = _
  induction lists with
  | nil => rfl
  | cons first lists ih =>
    cases lists with
    | nil => simp
    | cons second lists =>
      rw [List.intercalate_cons_cons, List.flatMap_append, List.flatMap_append, ih, List.map_cons,
        List.map_cons, List.map_cons, List.intercalate_cons_cons, List.flatMap_singleton, hslash]

theorem slash_notMem_folded {part : String} (h : '/' ∉ part.toList) :
    '/' ∉ folded foldCase part := by
  obtain ⟨fold, -, hslash, hfold⟩ := hfold.exists_fold
  rw [folded, hfold, List.mem_flatMap]
  rintro ⟨character, hmem, hslash'⟩
  exact h (hslash character hslash' ▸ hmem)

theorem parted_of_safePath {platform : Platform} {path : List String}
    (h : safePath platform path = true) : Parted (folded foldCase) '/' path := by
  refine ⟨ne_nil_of_safePath h, fun part hpart ↦ slash_notMem_folded hfold ?_⟩
  simp only [safePath, Bool.and_eq_true, List.all_eq_true] at h
  have hsafe := h.2 part hpart
  simp only [safePart, Bool.and_eq_true, Bool.not_eq_true', List.contains_eq_mem,
    decide_eq_false_iff_not] at hsafe
  exact hsafe.1.1.1.1.1.1.2

theorem foldCase_pathText_inj {left right : List String} (hleft : Parted (folded foldCase) '/' left)
    (hright : Parted (folded foldCase) '/' right) :
    foldCase (pathText left) = foldCase (pathText right) ↔
      left.map (folded foldCase) = right.map (folded foldCase) := by
  rw [← String.toList_inj, toList_foldCase_pathText hfold, toList_foldCase_pathText hfold]
  exact ⟨key_injective hleft hright, fun h ↦ by rw [key, key, h]⟩

end

end Folding

/-! ### Effects -/

section Effects

variable {system : System}

/-- The bytes that a change asks to be written. -/
def desiredBytes (change : Change) : Nat :=
  (change.after.map (·.bytes.length)).getD 0

/-- What is asked of the changes of a list besides their paths, and of each path by itself. -/
structure Bounded (system : System) (limit byteLimit : Nat) (changes : List Change) : Prop where
  count : changes.length ≤ limit
  paths : ∀ change ∈ changes, system.validPath change.path = true
  contents : ∀ change ∈ changes, ∀ content ∈ change.after, content.validate = true
  bytes : (changes.map desiredBytes).sum ≤ byteLimit

theorem Bounded.perm {limit byteLimit : Nat} {changes others : List Change}
    (h : Bounded system limit byteLimit changes) (hperm : changes.Perm others) :
    Bounded system limit byteLimit others where
  count := hperm.length_eq ▸ h.count
  paths change hchange := h.paths change (hperm.mem_iff.mpr hchange)
  contents change hchange := h.contents change (hperm.mem_iff.mpr hchange)
  bytes := (hperm.map desiredBytes).sum_eq ▸ h.bytes

/-- The folded text of a change's path. -/
def changeKey (system : System) (change : Change) : String :=
  system.foldCase (pathText change.path)

/-- A new key comes to its place among the others. -/
theorem insert_new {held : SortedMap Path} {text : String} {path : Path} (h : text ∉ held.keys) :
    (held.insert text path).Perm ((text, path) :: held) := by
  have hremove : held.remove text = held := by
    refine List.filter_eq_self.mpr fun entry hentry ↦ ?_
    simpa using fun hsame : entry.1 = text ↦ h (SortedMap.mem_keys.mpr ⟨entry, hentry, hsame⟩)
  rw [SortedMap.insert, hremove]
  exact List.perm_orderedInsert _ _ _

theorem insert_ordered {held : SortedMap Path} {text : String} {path : Path}
    (h : held.Pairwise (·.1 ≤ ·.1)) : (held.insert text path).Pairwise (·.1 ≤ ·.1) := by
  have : Std.Total fun first second : String × Path ↦ first.1 ≤ second.1 :=
    ⟨fun first second ↦ le_total first.1 second.1⟩
  have : IsTrans (String × Path) fun first second ↦ first.1 ≤ second.1 :=
    ⟨fun _ _ _ hfirst hsecond ↦ le_trans hfirst hsecond⟩
  exact List.Pairwise.orderedInsert _ _ (h.filter _)

theorem addEffect_eq_some {limit byteLimit : Nat} {held next : SortedMap Path × Nat}
    {change : Change × Nat} :
    addEffect system limit byteLimit held change = some next ↔
      (change.2 < limit ∧ system.validPath change.1.path = true ∧
        changeKey system change.1 ∉ held.1.keys) ∧
      (∀ content ∈ change.1.after, content.validate = true) ∧
      held.2 + desiredBytes change.1 ≤ byteLimit ∧
      next = (held.1.insert (changeKey system change.1) change.1.path,
        held.2 + desiredBytes change.1) := by
  simp only [addEffect, Option.bind_eq_bind, Option.bind_eq_some_iff, Option.guard_eq_some',
    Option.some.injEq, exists_const, changeKey, desiredBytes, eq_comm (a := next)]

/-- The first loop, from any round on: what it asks of the changes and the paths it leaves. -/
theorem addEffects_eq_some {limit byteLimit : Nat} {changes : List Change} (start : Nat)
    (held : SortedMap Path × Nat) (hstart : start ≤ limit) (hbytes : held.2 ≤ byteLimit)
    (hordered : held.1.Pairwise (·.1 ≤ ·.1)) :
    (∀ result, (changes.zipIdx start).foldlM (addEffect system limit byteLimit) held =
        some result →
      start + changes.length ≤ limit ∧ (∀ change ∈ changes, system.validPath change.path = true) ∧
      (∀ change ∈ changes, ∀ content ∈ change.after, content.validate = true) ∧
      held.2 + (changes.map desiredBytes).sum ≤ byteLimit ∧
      (changes.map (changeKey system)).Nodup ∧
      (∀ change ∈ changes, changeKey system change ∉ held.1.keys) ∧
      result.1.Pairwise (·.1 ≤ ·.1) ∧
      result.1.Perm (changes.map (fun change ↦ (changeKey system change, change.path)) ++
        held.1)) ∧
    (start + changes.length ≤ limit → (∀ change ∈ changes, system.validPath change.path = true) →
      (∀ change ∈ changes, ∀ content ∈ change.after, content.validate = true) →
      held.2 + (changes.map desiredBytes).sum ≤ byteLimit →
      (changes.map (changeKey system)).Nodup →
      (∀ change ∈ changes, changeKey system change ∉ held.1.keys) →
      ∃ result, (changes.zipIdx start).foldlM (addEffect system limit byteLimit) held =
        some result) := by
  induction changes generalizing start held with
  | nil =>
    refine ⟨fun result hresult ↦ ?_, fun _ _ _ _ _ _ ↦ ⟨held, rfl⟩⟩
    obtain rfl : held = result := Option.some.inj hresult
    simp only [List.length_nil, Nat.add_zero, List.map_nil, List.sum_nil, List.nil_append]
    exact ⟨hstart, nofun, nofun, hbytes, .nil, nofun, hordered, .refl _⟩
  | cons change changes ih =>
    rw [List.zipIdx_cons, List.foldlM_cons, List.map_cons, List.map_cons, List.map_cons,
      List.sum_cons, List.length_cons, List.nodup_cons]
    simp only [List.forall_mem_cons]
    constructor
    · intro result hresult
      obtain ⟨next, hnext, hrest⟩ := Option.bind_eq_some_iff.mp hresult
      obtain ⟨⟨hcount, hpath, hnew⟩, hcontent, htotal, rfl⟩ := addEffect_eq_some.mp hnext
      obtain ⟨hlength, hpaths, hcontents, hsum, hnodup, hkeys, hpairwise, hperm⟩ :=
        (ih (start + 1) _ (by omega) htotal (insert_ordered hordered)).1 result hrest
      dsimp only at hkeys hperm hsum
      simp only [SortedMap.mem_keys_insert, not_or] at hkeys
      refine ⟨by omega, ⟨hpath, hpaths⟩, ⟨hcontent, hcontents⟩, by omega, ⟨?_, hnodup⟩,
        ⟨hnew, fun other hother ↦ (hkeys other hother).2⟩, hpairwise, ?_⟩
      · intro hmem
        obtain ⟨other, hother, hsame⟩ := List.mem_map.mp hmem
        exact (hkeys other hother).1 hsame
      · refine hperm.trans (((insert_new hnew).append_left _).trans ?_)
        exact List.perm_middle
    · rintro hlength ⟨hpath, hpaths⟩ ⟨hcontent, hcontents⟩ hsum ⟨hfresh, hnodup⟩ ⟨hnew, hkeys⟩
      have hnext : addEffect system limit byteLimit held (change, start) =
          some (held.1.insert (changeKey system change) change.path,
            held.2 + desiredBytes change) :=
        addEffect_eq_some.mpr ⟨⟨by dsimp only; omega, hpath, hnew⟩, hcontent, by dsimp only; omega,
          rfl⟩
      rw [hnext]
      refine (ih (start + 1) _ (by omega) (by dsimp only; omega)
        (insert_ordered hordered)).2 (by omega) hpaths hcontents (by dsimp only; omega) hnodup ?_
      intro other hother
      dsimp only
      rw [SortedMap.mem_keys_insert, not_or]
      exact ⟨fun hsame ↦ hfresh (List.mem_map.mpr ⟨other, hother, hsame⟩), hkeys other hother⟩

theorem spelledAlike_iff {left right : Path} :
    spelledAlike system left right = true ↔ SharedAlike (folded system.foldCase) left right := by
  induction left generalizing right with
  | nil => simp [spelledAlike]
  | cons part left ih =>
    cases right with
    | nil => simp [spelledAlike]
    | cons other right =>
      rw [spelledAlike, sharedAlike_cons, folded, folded, String.toList_inj]
      split_ifs with hfolds <;> simp [hfolds, ih]

theorem mem_ancestors {path ancestor : Path} :
    ancestor ∈ ancestors path ↔ ancestor ≠ [] ∧ ancestor <+: path ∧ ancestor ≠ path := by
  simp only [ancestors, List.mem_filter, List.mem_inits, ne_eq, decide_not, Bool.not_eq_true',
    decide_eq_false_iff_not]
  constructor
  · rintro ⟨hbegins, hne⟩
    refine ⟨hne, hbegins.trans (List.dropLast_prefix path), ?_⟩
    rintro rfl
    have hlength := hbegins.length_le
    have hpositive := List.length_pos_of_ne_nil hne
    rw [List.length_dropLast] at hlength
    omega
  · rintro ⟨hne, hbegins, hproper⟩
    refine ⟨?_, hne⟩
    rw [List.dropLast_eq_take, List.prefix_take_iff]
    have hlength := hbegins.length_le
    have hlt : ancestor.length ≠ path.length := fun hsame ↦ hproper (hbegins.eq_of_length hsame)
    exact ⟨hbegins, by omega⟩

theorem separate_iff {keys : List String} {paths : List Path} :
    separate system keys paths = true ↔
      paths.IsChain (SharedAlike (folded system.foldCase)) ∧
        ∀ path ∈ paths, ∀ ancestor ∈ ancestors path,
          system.foldCase (pathText ancestor) ∉ keys := by
  induction paths with
  | nil => simp [separate]
  | cons path paths ih =>
    rw [separate, Bool.and_eq_true, Bool.and_eq_true, ih, List.forall_mem_cons, List.all_eq_true]
    simp only [decide_eq_true_eq]
    cases paths with
    | nil => simp
    | cons next paths =>
      rw [List.isChain_cons_cons, List.head?_cons, Option.all_some, spelledAlike_iff]
      tauto

/-- Folded, a path is above another exactly if its folded text is that of an ancestor. -/
theorem above_iff {foldCase : String → String} (hfold : FoldsCharacters foldCase)
    {path other : Path} (hpath : Parted (folded foldCase) '/' path)
    (hother : Parted (folded foldCase) '/' other) :
    Above (folded foldCase) other path ↔
      ∃ ancestor ∈ ancestors path,
        foldCase (pathText ancestor) = foldCase (pathText other) := by
  constructor
  · rintro ⟨⟨rest, hrest⟩, hproper⟩
    have hlength : other.length < path.length := by
      have hlengths := congrArg List.length hrest
      simp only [List.length_append, List.length_map] at hlengths
      refine lt_of_le_of_ne (by omega) fun hsame ↦ hproper ?_
      have hnil : rest = [] := List.eq_nil_of_length_eq_zero (by omega)
      rw [← hrest, hnil, List.append_nil]
    have hfolds : (path.take other.length).map (folded foldCase) =
        other.map (folded foldCase) := by
      rw [List.map_take, ← hrest]
      exact List.take_left' (by simp)
    have hmem : path.take other.length ∈ ancestors path := by
      refine mem_ancestors.mpr ⟨?_, List.take_prefix _ _, fun hsame ↦ ?_⟩
      · intro hnil
        rw [hnil, List.map_nil, eq_comm, List.map_eq_nil_iff] at hfolds
        exact hother.1 hfolds
      · have hlengths := congrArg List.length hsame
        rw [List.length_take] at hlengths
        omega
    have hparted : Parted (folded foldCase) '/' (path.take other.length) :=
      ⟨(mem_ancestors.mp hmem).1, fun part hpart ↦ hpath.2 part (List.mem_of_mem_take hpart)⟩
    exact ⟨_, hmem, (foldCase_pathText_inj hfold hparted hother).mpr hfolds⟩
  · rintro ⟨ancestor, hancestor, hsame⟩
    obtain ⟨hne, hbegins, hproper⟩ := mem_ancestors.mp hancestor
    have hparted : Parted (folded foldCase) '/' ancestor :=
      ⟨hne, fun part hpart ↦ hpath.2 part (hbegins.subset hpart)⟩
    have hfolds := (foldCase_pathText_inj hfold hparted hother).mp hsame
    refine ⟨hfolds ▸ hbegins.map _, fun hwhole ↦ hproper ?_⟩
    refine hbegins.eq_of_length ?_
    simpa using congrArg List.length (hfolds.trans hwhole)

section

variable (hfold : FoldsCharacters system.foldCase)
include hfold

theorem leaves_iff {paths : List Path}
    (hparted : ∀ path ∈ paths, Parted (folded system.foldCase) '/' path) :
    (∀ path ∈ paths, ∀ ancestor ∈ ancestors path, ∀ other ∈ paths,
        system.foldCase (pathText ancestor) ≠ system.foldCase (pathText other)) ↔
      ∀ other ∈ paths, ∀ path ∈ paths, ¬Above (folded system.foldCase) other path := by
  constructor
  · intro h other hother path hpath habove
    obtain ⟨ancestor, hancestor, hsame⟩ :=
      (above_iff hfold (hparted path hpath) (hparted other hother)).mp habove
    exact h path hpath ancestor hancestor other hother hsame
  · intro h path hpath ancestor hancestor other hother hsame
    exact h other hother path hpath
      ((above_iff hfold (hparted path hpath) (hparted other hother)).mpr
        ⟨ancestor, hancestor, hsame⟩)

theorem parted_of_valid {limit byteLimit : Nat} {changes : List Change}
    (h : Bounded system limit byteLimit changes) :
    ∀ path ∈ changes.map (·.path), Parted (folded system.foldCase) '/' path := by
  intro path hpath
  obtain ⟨change, hchange, rfl⟩ := List.mem_map.mp hpath
  have hvalid := h.paths change hchange
  rw [System.validPath, Bool.and_eq_true] at hvalid
  exact parted_of_safePath hfold hvalid.1

theorem nodup_changeKey {changes : List Change}
    (hparted : ∀ path ∈ changes.map (·.path), Parted (folded system.foldCase) '/' path) :
    (changes.map (changeKey system)).Nodup ↔
      ((changes.map (·.path)).map (List.map (folded system.foldCase))).Nodup := by
  rw [List.Nodup, List.Nodup, List.map_map, List.pairwise_map, List.pairwise_map]
  refine List.Pairwise.iff_of_mem fun {left right} hleft hright ↦ not_congr ?_
  exact foldCase_pathText_inj hfold (hparted _ (List.mem_map_of_mem hleft))
    (hparted _ (List.mem_map_of_mem hright))

/-- The second loop, over what the first one leaves. -/
theorem separate_iff_apart {changes : List Change} {paths : SortedMap Path}
    (hparted : ∀ path ∈ changes.map (·.path), Parted (folded system.foldCase) '/' path)
    (hnodup : (changes.map (changeKey system)).Nodup) (hordered : paths.Pairwise (·.1 ≤ ·.1))
    (hperm : paths.Perm (changes.map fun change ↦ (changeKey system change, change.path))) :
    separate system paths.keys (paths.map (·.2)) = true ↔
      Apart (folded system.foldCase) (changes.map (·.path)) := by
  have hpaths : (paths.map (·.2)).Perm (changes.map (·.path)) := by
    have hmap := hperm.map (·.2)
    rwa [List.map_map] at hmap
  have hparted' : ∀ path ∈ paths.map (·.2), Parted (folded system.foldCase) '/' path :=
    fun path hpath ↦ hparted path (hpaths.mem_iff.mp hpath)
  have hentry : ∀ entry ∈ paths, entry.1 = system.foldCase (pathText entry.2) := by
    intro entry hmem
    obtain ⟨change, -, rfl⟩ := List.mem_map.mp (hperm.mem_iff.mp hmem)
    rfl
  have hkeys : ∀ ancestor : Path, system.foldCase (pathText ancestor) ∉ paths.keys ↔
      ∀ other ∈ paths.map (·.2),
        system.foldCase (pathText ancestor) ≠ system.foldCase (pathText other) := by
    intro ancestor
    simp only [SortedMap.mem_keys, not_exists, not_and, List.forall_mem_map]
    refine forall₂_congr fun entry hmem ↦ ?_
    rw [hentry entry hmem, ne_comm]
  have hsorted : (paths.map (·.2)).Pairwise fun left right ↦
      key (folded system.foldCase) '/' left ≤ key (folded system.foldCase) '/' right := by
    rw [List.pairwise_map]
    refine hordered.imp_of_mem fun {left right} hleft hright hle ↦ ?_
    rw [hentry left hleft, hentry right hright, String.le_iff_toList_le,
      toList_foldCase_pathText hfold, toList_foldCase_pathText hfold] at hle
    exact hle
  rw [separate_iff]
  simp only [hkeys]
  rw [leaves_iff hfold hparted']
  constructor
  · rintro ⟨hneighbours, hleaves⟩
    have hapart : Apart (folded system.foldCase) (paths.map (·.2)) :=
      { distinct := (hpaths.map _).nodup_iff.mpr ((nodup_changeKey hfold hparted).mp hnodup)
        leaves := hleaves
        alike := alike_of_neighbours hparted' hsorted hneighbours }
    exact hapart.perm hpaths
  · intro hapart
    have hheld := hapart.perm hpaths.symm
    exact ⟨hheld.neighbours, hheld.leaves⟩

/-- `validate_effects` accepts the lists that keep the bounds and whose paths are apart. -/
theorem validateEffects_iff {limit byteLimit : Nat} {changes : List Change} :
    validateEffects system limit byteLimit changes = true ↔
      Bounded system limit byteLimit changes ∧
        Apart (folded system.foldCase) (changes.map (·.path)) := by
  obtain ⟨hleaves, hadmits⟩ := @addEffects_eq_some system limit byteLimit changes 0
    ([], 0) (Nat.zero_le limit) (Nat.zero_le _) .nil
  simp only [Nat.zero_add, SortedMap.keys, List.map_nil, List.not_mem_nil, not_false_eq_true,
    implies_true, true_and, List.append_nil, forall_const] at hleaves hadmits
  unfold validateEffects
  constructor
  · intro h
    split at h
    · cases h
    · next result paths bytes hresult =>
      obtain ⟨hcount, hvalid, hcontents, hsum, hnodup, hordered, hperm⟩ := hleaves _ hresult
      have hbounded : Bounded system limit byteLimit changes := ⟨hcount, hvalid, hcontents, hsum⟩
      have hparted := parted_of_valid hfold hbounded
      exact ⟨hbounded, (separate_iff_apart hfold hparted hnodup hordered hperm).mp h⟩
  · rintro ⟨hbounded, hapart⟩
    have hparted := parted_of_valid hfold hbounded
    have hnodup := (nodup_changeKey hfold hparted).mpr hapart.distinct
    obtain ⟨result, hresult⟩ := hadmits hbounded.count hbounded.paths hbounded.contents
      hbounded.bytes hnodup
    obtain ⟨-, -, -, -, -, hordered, hperm⟩ := hleaves _ hresult
    rw [hresult]
    exact (separate_iff_apart hfold hparted hnodup hordered hperm).mpr hapart

end

end Effects

/-! ### Archives -/

section Archives

open Projection (Kind pathParts parentPaths sharedAlike adjacentAlike directoriesAgree
  filesAreLeaves entryNames admitEntries entrySize Limits Libraries)

variable {platform : Platform} {libraries : Libraries} {limits : Limits}

/-- What is asked of the entries besides their paths, and of each path by itself. -/
structure EntriesBounded (platform : Platform) (limits : Limits)
    (entries : List Projection.Entry) : Prop where
  count : entries.length ≤ limits.entries ∧ entries.length < 2 ^ 16 - 1
  portable : ∀ entry ∈ entries, entry.Portable platform
  files : ∀ entry ∈ entries, entry.bytes.length ≤ limits.fileBytes
  content : (entries.map (·.bytes.length)).sum ≤ limits.contentBytes
  /-- The size of an archive without entries is not compared. -/
  archive : entries ≠ [] → 22 + (entries.map entrySize).sum ≤ limits.archiveBytes
  size : 22 + (entries.map entrySize).sum < 2 ^ 32 - 1

/-- Entries that an archive can hold side by side: no two are one path up to folding, no file is a
directory above another entry, and the directories above them have one spelling each. -/
structure EntriesApart (libraries : Libraries) (entries : List Projection.Entry) : Prop where
  distinct : (entries.map fun entry ↦
    (pathParts entry.path).map (folded libraries.foldedCase)).Nodup
  leaves : ∀ file ∈ entries, file.kind = .file → ∀ entry ∈ entries,
    ¬Above (folded libraries.foldedCase) (pathParts file.path) (pathParts entry.path)
  alike : ∀ entry ∈ entries, ∀ other ∈ entries,
    DirectoriesAlike (folded libraries.foldedCase) (pathParts entry.path) (pathParts other.path)

/-- What is listed below a directory has the spelling of the directory. -/
def ListedAlike (libraries : Libraries) (entries : List Projection.Entry) : Prop :=
  ∀ directory ∈ entries, ∀ entry ∈ entries,
    Above (folded libraries.foldedCase) (pathParts directory.path) (pathParts entry.path) →
      pathParts directory.path <+: pathParts entry.path

theorem sharedAlike_iff {left right : List String} :
    sharedAlike libraries left right = true ↔
      SharedAlike (folded libraries.foldedCase) left right := by
  induction left generalizing right with
  | nil => simp [sharedAlike]
  | cons part left ih =>
    cases right with
    | nil => simp [sharedAlike]
    | cons other right =>
      rw [sharedAlike, sharedAlike_cons, folded, folded, String.toList_inj]
      split_ifs with hfolds hsame <;> simp_all

theorem adjacentAlike_iff {names : List String} :
    adjacentAlike libraries names = true ↔
      (names.map pathParts).IsChain (SharedAlike (folded libraries.foldedCase)) := by
  induction names with
  | nil => simp [adjacentAlike]
  | cons name names ih =>
    cases names with
    | nil => simp [adjacentAlike]
    | cons next names =>
      rw [adjacentAlike, Bool.and_eq_true, sharedAlike_iff, ih, List.map_cons, List.map_cons,
        List.map_cons, List.isChain_cons_cons]

variable {entries : List Projection.Entry}

/-- The loop over the entries, from any entry on. -/
theorem admitEntries_iff {content archive : Nat} {names : List String}
    (hcontent : content ≤ limits.contentBytes) (harchive : archive ≤ limits.archiveBytes)
    (hsize : archive < 2 ^ 32 - 1) :
    admitEntries platform libraries limits entries content archive names = true ↔
      (∀ entry ∈ entries, entry.Portable platform) ∧
      (∀ entry ∈ entries, entry.bytes.length ≤ limits.fileBytes) ∧
      content + (entries.map (·.bytes.length)).sum ≤ limits.contentBytes ∧
      archive + (entries.map entrySize).sum ≤ limits.archiveBytes ∧
      archive + (entries.map entrySize).sum < 2 ^ 32 - 1 ∧
      (entries.map fun entry ↦ libraries.foldedCase entry.path).Nodup ∧
      ∀ entry ∈ entries, libraries.foldedCase entry.path ∉ names := by
  induction entries generalizing content archive names with
  | nil =>
    rw [admitEntries]
    simp only [List.map_nil, List.sum_nil, Nat.add_zero]
    exact iff_of_true trivial ⟨List.forall_mem_nil _, List.forall_mem_nil _, hcontent, harchive,
      hsize, .nil, List.forall_mem_nil _⟩
  | cons entry entries ih =>
    rw [admitEntries]
    simp only [Bool.and_eq_true, decide_eq_true_eq, List.map_cons, List.sum_cons,
      List.forall_mem_cons, List.nodup_cons]
    constructor
    · rintro ⟨⟨⟨⟨⟨⟨⟨⟨hsafe, hmode⟩, hdirectory⟩, hfile⟩, hcontent'⟩, harchive'⟩, hsize'⟩, hnew⟩,
        hrest⟩
      obtain ⟨hportable, hfiles, hsum, hwhole, hlength, hnodup, hfresh⟩ :=
        (ih hcontent' harchive' hsize').mp hrest
      have hportable' : entry.Portable platform := ⟨hsafe, hmode, by
        simpa [imp_iff_not_or] using hdirectory⟩
      simp only [List.mem_cons, not_or] at hfresh
      refine ⟨⟨hportable', hportable⟩, ⟨hfile, hfiles⟩, by omega, by omega, by omega,
        ⟨?_, hnodup⟩, hnew, fun other hother ↦ (hfresh other hother).2⟩
      intro hmem
      obtain ⟨other, hother, hsame⟩ := List.mem_map.mp hmem
      exact (hfresh other hother).1 hsame
    · rintro ⟨⟨hportable, hportables⟩, ⟨hfile, hfiles⟩, hsum, hwhole, hlength, ⟨hfirst, hnodup⟩,
        hnew, hfresh⟩
      have hdirectory : (!(decide (entry.kind = .directory) && decide (entry.bytes ≠ []))) =
          true := by
        simpa [imp_iff_not_or] using hportable.directory
      refine ⟨⟨⟨⟨⟨⟨⟨⟨hportable.safe, hportable.mode⟩, hdirectory⟩, hfile⟩, by omega⟩, by omega⟩,
        by omega⟩, hnew⟩, ?_⟩
      refine (ih (by omega) (by omega) (by omega)).mpr
        ⟨hportables, hfiles, by omega, by omega, by omega, hnodup, fun other hother ↦ ?_⟩
      rw [List.mem_cons, not_or]
      exact ⟨fun hsame ↦ hfirst (List.mem_map.mpr ⟨other, hother, hsame⟩), hfresh other hother⟩

/-- The paths of the entries in the order of their folded texts. -/
def orderedPaths (libraries : Libraries) (entries : List Projection.Entry) : List String :=
  (entries.map (·.path)).insertionSort fun left right ↦
    libraries.foldedCase left ≤ libraries.foldedCase right

theorem admitted_iff :
    entries.length ≤ limits.entries ∧ entries.length < 2 ^ 16 - 1 ∧
      admitEntries platform libraries limits entries 0 22 [] = true ↔
    EntriesBounded platform limits entries ∧
      (entries.map fun entry ↦ libraries.foldedCase entry.path).Nodup := by
  have hstart : 22 < 2 ^ 32 - 1 := by norm_num
  by_cases hsize : 22 ≤ limits.archiveBytes
  · rw [admitEntries_iff (Nat.zero_le _) hsize hstart]
    simp only [Nat.zero_add]
    constructor
    · rintro ⟨hcount, hcount', hportable, hfiles, hcontent, harchive, hbytes, hnodup, -⟩
      exact ⟨⟨⟨hcount, hcount'⟩, hportable, hfiles, hcontent, fun _ ↦ harchive, hbytes⟩, hnodup⟩
    · rintro ⟨hbounded, hnodup⟩
      refine ⟨hbounded.count.1, hbounded.count.2, hbounded.portable, hbounded.files,
        hbounded.content, ?_, hbounded.size, hnodup, fun _ _ ↦ List.not_mem_nil⟩
      by_cases hempty : entries = []
      · subst hempty
        exact hsize
      · exact hbounded.archive hempty
  · cases entries with
    | nil =>
      constructor
      · rintro ⟨hcount, hcount', -⟩
        exact ⟨⟨⟨hcount, hcount'⟩, nofun, nofun, Nat.zero_le _, fun h ↦ absurd rfl h, hstart⟩, .nil⟩
      · exact fun h ↦ ⟨h.1.count.1, h.1.count.2, rfl⟩
    | cons entry entries =>
      constructor
      · rintro ⟨-, -, h⟩
        simp only [admitEntries, Bool.and_eq_true, decide_eq_true_eq] at h
        obtain ⟨⟨⟨⟨-, harchive⟩, -⟩, -⟩, -⟩ := h
        omega
      · rintro ⟨hbounded, -⟩
        have harchive := hbounded.archive (List.cons_ne_nil _ _)
        omega

/-- What `validate` asks of archives. -/
theorem validate_iff :
    Projection.validate platform libraries limits entries = true ↔
      EntriesBounded platform limits entries ∧
      (entries.map fun entry ↦ libraries.foldedCase entry.path).Nodup ∧
      ((orderedPaths libraries entries).map pathParts).IsChain
        (SharedAlike (folded libraries.foldedCase)) ∧
      ∀ entry ∈ entries, ∀ parent ∈ parentPaths entry.path, ∀ file ∈ entries,
        file.kind = .file → libraries.foldedCase file.path ≠ libraries.foldedCase parent := by
  have hleaves : filesAreLeaves libraries (entryNames entries) = true ↔
      ∀ entry ∈ entries, ∀ parent ∈ parentPaths entry.path, ∀ file ∈ entries,
        file.kind = .file → libraries.foldedCase file.path ≠ libraries.foldedCase parent := by
    simp [filesAreLeaves, entryNames]
  have hnames : (entryNames entries).map Prod.fst = entries.map (·.path) := by
    simp [entryNames]
  rw [Projection.validate, directoriesAgree, hnames]
  simp only [Bool.and_eq_true, decide_eq_true_eq]
  rw [hleaves, adjacentAlike_iff, ← orderedPaths, and_assoc (c := _ = true), admitted_iff,
    and_assoc, and_assoc]

section

variable (hfold : FoldsCharacters libraries.foldedCase)
include hfold

theorem key_pathParts (path : String) :
    key (folded libraries.foldedCase) '/' (pathParts path) =
      (libraries.foldedCase path).toList := by
  rw [← toList_foldCase_pathText hfold, Projection.pathText_pathParts]

theorem parted_of_portable {entry : Projection.Entry} (h : entry.Portable platform) :
    Parted (folded libraries.foldedCase) '/' (pathParts entry.path) :=
  parted_of_safePath hfold h.safe

theorem foldedCase_inj {entry other : Projection.Entry} (hentry : entry.Portable platform)
    (hother : other.Portable platform) :
    libraries.foldedCase entry.path = libraries.foldedCase other.path ↔
      (pathParts entry.path).map (folded libraries.foldedCase) =
        (pathParts other.path).map (folded libraries.foldedCase) := by
  have h := foldCase_pathText_inj hfold (parted_of_portable hfold hentry)
    (parted_of_portable hfold hother)
  rwa [Projection.pathText_pathParts, Projection.pathText_pathParts] at h

theorem nodup_foldedCase (h : ∀ entry ∈ entries, entry.Portable platform) :
    (entries.map fun entry ↦ libraries.foldedCase entry.path).Nodup ↔
      (entries.map fun entry ↦
        (pathParts entry.path).map (folded libraries.foldedCase)).Nodup := by
  rw [List.Nodup, List.Nodup, List.pairwise_map, List.pairwise_map]
  exact List.Pairwise.iff_of_mem fun {left right} hleft hright ↦
    not_congr (foldedCase_inj hfold (h left hleft) (h right hright))

end

theorem orderedPaths_perm (libraries : Libraries) (entries : List Projection.Entry) :
    (orderedPaths libraries entries).Perm (entries.map (·.path)) :=
  List.perm_insertionSort _ _

theorem orderedPaths_pairwise (libraries : Libraries) (entries : List Projection.Entry) :
    (orderedPaths libraries entries).Pairwise fun left right ↦
      libraries.foldedCase left ≤ libraries.foldedCase right := by
  have : Std.Total fun left right ↦ libraries.foldedCase left ≤ libraries.foldedCase right :=
    ⟨fun left right ↦ le_total (libraries.foldedCase left) (libraries.foldedCase right)⟩
  have : IsTrans String fun left right ↦
      libraries.foldedCase left ≤ libraries.foldedCase right :=
    ⟨fun _ _ _ hfirst hsecond ↦ le_trans hfirst hsecond⟩
  exact List.pairwise_insertionSort _ _

/-- Entries with one set of paths have their paths in one order. -/
theorem orderedPaths_eq_of_perm {others : List Projection.Entry} (hperm : entries.Perm others)
    (hnodup : (entries.map fun entry ↦ libraries.foldedCase entry.path).Nodup) :
    orderedPaths libraries entries = orderedPaths libraries others := by
  have hpaths := (orderedPaths_perm libraries entries).trans
    ((hperm.map (·.path)).trans (orderedPaths_perm libraries others).symm)
  refine hpaths.eq_of_pairwise ?_ (orderedPaths_pairwise libraries entries)
    (orderedPaths_pairwise libraries others)
  intro left right hleft hright hle hge
  have hmem : ∀ path ∈ orderedPaths libraries entries, ∃ entry ∈ entries, entry.path = path :=
    fun path hpath ↦ List.mem_map.mp ((orderedPaths_perm libraries entries).mem_iff.mp hpath)
  obtain ⟨first, hfirst, rfl⟩ := hmem left hleft
  obtain ⟨second, hsecond, rfl⟩ := hmem right (hpaths.mem_iff.mpr hright)
  rw [List.inj_on_of_nodup_map hnodup hfirst hsecond (le_antisymm hle hge)]

theorem mem_parentPaths {path parent : String} :
    parent ∈ parentPaths path ↔
      ∃ parts ∈ ancestors (pathParts path), pathText parts = parent := by
  have hdrop : ∀ parts : List String, parts ≠ [] →
      (parts ∈ (pathParts path).reverse.tails.drop 1 ↔
        parts.reverse <+: (pathParts path).dropLast) := by
    intro parts hparts
    rw [← List.reverse_suffix, List.reverse_reverse, ← List.tail_reverse]
    cases (pathParts path).reverse with
    | nil => simpa using hparts
    | cons last before => simp
  simp only [parentPaths, List.mem_map, List.mem_filter, decide_eq_true_eq, ancestors,
    List.mem_inits]
  constructor
  · rintro ⟨parts, ⟨hmem, hne⟩, rfl⟩
    exact ⟨parts.reverse, ⟨(hdrop parts hne).mp hmem, by simpa using hne⟩, rfl⟩
  · rintro ⟨parts, ⟨hbegins, hne⟩, rfl⟩
    refine ⟨parts.reverse, ⟨(hdrop parts.reverse (by simpa using hne)).mpr ?_, by simpa using hne⟩,
      by rw [List.reverse_reverse]⟩
    rwa [List.reverse_reverse]

section

variable (hfold : FoldsCharacters libraries.foldedCase)
include hfold

theorem files_leaves_iff (h : ∀ entry ∈ entries, entry.Portable platform) :
    (∀ entry ∈ entries, ∀ parent ∈ parentPaths entry.path, ∀ file ∈ entries,
        file.kind = .file → libraries.foldedCase file.path ≠ libraries.foldedCase parent) ↔
      ∀ file ∈ entries, file.kind = .file → ∀ entry ∈ entries,
        ¬Above (folded libraries.foldedCase) (pathParts file.path) (pathParts entry.path) := by
  have habove : ∀ entry ∈ entries, ∀ file ∈ entries,
      (Above (folded libraries.foldedCase) (pathParts file.path) (pathParts entry.path) ↔
        ∃ parent ∈ parentPaths entry.path,
          libraries.foldedCase file.path = libraries.foldedCase parent) := by
    intro entry hentry file hfile
    rw [above_iff hfold (parted_of_portable hfold (h entry hentry))
      (parted_of_portable hfold (h file hfile)), Projection.pathText_pathParts]
    simp only [mem_parentPaths, exists_exists_and_eq_and]
    exact exists_congr fun ancestor ↦ and_congr_right fun _ ↦ eq_comm
  constructor
  · intro hleaves file hfile hkind entry hentry hmem
    obtain ⟨parent, hparent, hsame⟩ := (habove entry hentry file hfile).mp hmem
    exact hleaves entry hentry parent hparent file hfile hkind hsame
  · intro hleaves entry hentry parent hparent file hfile hkind hsame
    exact hleaves file hfile hkind entry hentry
      ((habove entry hentry file hfile).mpr ⟨parent, hparent, hsame⟩)

/-- What is promised of the entries of an archive that is accepted. -/
theorem apart_of_validate (h : Projection.validate platform libraries limits entries = true) :
    EntriesBounded platform limits entries ∧ EntriesApart libraries entries := by
  obtain ⟨hbounded, hnodup, hneighbours, hleaves⟩ := validate_iff.mp h
  have hparted : ∀ path ∈ (orderedPaths libraries entries).map pathParts,
      Parted (folded libraries.foldedCase) '/' path := by
    intro path hpath
    obtain ⟨text, htext, rfl⟩ := List.mem_map.mp hpath
    obtain ⟨entry, hentry, rfl⟩ :=
      List.mem_map.mp ((orderedPaths_perm libraries entries).mem_iff.mp htext)
    exact parted_of_portable hfold (hbounded.portable entry hentry)
  have hordered : ((orderedPaths libraries entries).map pathParts).Pairwise fun left right ↦
      key (folded libraries.foldedCase) '/' left ≤
        key (folded libraries.foldedCase) '/' right := by
    rw [List.pairwise_map]
    refine (orderedPaths_pairwise libraries entries).imp fun {left right} hle ↦ ?_
    rwa [key_pathParts hfold, key_pathParts hfold, ← String.le_iff_toList_le]
  have hmem : ∀ entry ∈ entries,
      pathParts entry.path ∈ (orderedPaths libraries entries).map pathParts :=
    fun entry hentry ↦ List.mem_map_of_mem
      ((orderedPaths_perm libraries entries).mem_iff.mpr (List.mem_map_of_mem hentry))
  have halike := alike_of_neighbours hparted hordered hneighbours
  exact ⟨hbounded, (nodup_foldedCase hfold hbounded.portable).mp hnodup,
    (files_leaves_iff hfold hbounded.portable).mp hleaves,
    fun entry hentry other hother ↦ halike _ (hmem entry hentry) _ (hmem other hother)⟩

/-- Entries that are apart, with every listed directory spelled like what it holds, are accepted. -/
theorem validate_of_apart (hbounded : EntriesBounded platform limits entries)
    (hapart : EntriesApart libraries entries) (hlisted : ListedAlike libraries entries) :
    Projection.validate platform libraries limits entries = true := by
  have hnodup := (nodup_foldedCase hfold hbounded.portable).mpr hapart.distinct
  refine validate_iff.mpr ⟨hbounded, hnodup, ?_,
    (files_leaves_iff hfold hbounded.portable).mpr hapart.leaves⟩
  have hdistinct : (orderedPaths libraries entries).Pairwise fun left right ↦
      (pathParts left).map (folded libraries.foldedCase) ≠
        (pathParts right).map (folded libraries.foldedCase) := by
    have hpairwise := List.pairwise_map.mp hapart.distinct
    have : Std.Symm fun left right : String ↦
        (pathParts left).map (folded libraries.foldedCase) ≠
          (pathParts right).map (folded libraries.foldedCase) := ⟨fun _ _ h ↦ h.symm⟩
    exact ((orderedPaths_perm libraries entries).pairwise_iff fun h ↦ h.symm).mpr
      (List.pairwise_map.mpr hpairwise)
  have hentry : ∀ path ∈ orderedPaths libraries entries, ∃ entry ∈ entries, entry.path = path :=
    fun path hpath ↦ List.mem_map.mp ((orderedPaths_perm libraries entries).mem_iff.mp hpath)
  have hshared : (orderedPaths libraries entries).Pairwise fun left right ↦
      SharedAlike (folded libraries.foldedCase) (pathParts left) (pathParts right) := by
    refine hdistinct.imp_of_mem fun {left right} hleft hright hne ↦ ?_
    obtain ⟨first, hfirst, rfl⟩ := hentry left hleft
    obtain ⟨second, hsecond, rfl⟩ := hentry right hright
    exact (hapart.alike first hfirst second hsecond).shared hne
      (hlisted first hfirst second hsecond) (hlisted second hsecond first hfirst)
  exact (List.pairwise_map.mpr hshared).isChain

end

theorem EntriesBounded.perm {others : List Projection.Entry}
    (h : EntriesBounded platform limits entries) (hperm : entries.Perm others) :
    EntriesBounded platform limits others where
  count := hperm.length_eq ▸ h.count
  portable entry hentry := h.portable entry (hperm.mem_iff.mpr hentry)
  files entry hentry := h.files entry (hperm.mem_iff.mpr hentry)
  content := (hperm.map (·.bytes.length)).sum_eq ▸ h.content
  archive hne := (hperm.map entrySize).sum_eq ▸ h.archive fun hnil ↦ hne (by
    subst hnil
    exact hperm.nil_eq.symm)
  size := (hperm.map entrySize).sum_eq ▸ h.size

theorem validate_of_perm {others : List Projection.Entry} (hperm : entries.Perm others)
    (h : Projection.validate platform libraries limits entries = true) :
    Projection.validate platform libraries limits others = true := by
  obtain ⟨hbounded, hnodup, hneighbours, hleaves⟩ := validate_iff.mp h
  refine validate_iff.mpr ⟨hbounded.perm hperm, (hperm.map _).nodup_iff.mp hnodup, ?_, ?_⟩
  · rwa [← orderedPaths_eq_of_perm hperm hnodup]
  · intro entry hentry parent hparent file hfile
    exact hleaves entry (hperm.mem_iff.mpr hentry) parent hparent file (hperm.mem_iff.mpr hfile)

end Archives

/-! ### Both -/

section Verdicts

variable {system : System} {platform : Platform} {libraries : Projection.Libraries}

/-- Effects are accepted exactly if they keep the bounds and their paths are apart. Entries of an
archive that is accepted keep the bounds and are apart, and entries that are apart are accepted if
what is listed below a directory spells the directory alike. Neither verdict depends on the order. -/
theorem path_verdicts (hfold : FoldsCharacters system.foldCase)
    (hfold' : FoldsCharacters libraries.foldedCase) (limit byteLimit : Nat)
    (limits : Projection.Limits) :
    (∀ changes, validateEffects system limit byteLimit changes = true ↔
      Bounded system limit byteLimit changes ∧
        Apart (folded system.foldCase) (changes.map (·.path))) ∧
    (∀ changes others : List Change, changes.Perm others →
      validateEffects system limit byteLimit changes =
        validateEffects system limit byteLimit others) ∧
    (∀ entries, Projection.validate platform libraries limits entries = true →
      EntriesBounded platform limits entries ∧ EntriesApart libraries entries) ∧
    (∀ entries, EntriesBounded platform limits entries → EntriesApart libraries entries →
      ListedAlike libraries entries →
        Projection.validate platform libraries limits entries = true) ∧
    ∀ entries others : List Projection.Entry, entries.Perm others →
      Projection.validate platform libraries limits entries =
        Projection.validate platform libraries limits others := by
  refine ⟨fun changes ↦ validateEffects_iff hfold, ?_, fun entries ↦ apart_of_validate hfold',
    fun entries ↦ validate_of_apart hfold', ?_⟩
  · intro changes others hperm
    have hstep : ∀ {changes others : List Change}, changes.Perm others →
        validateEffects system limit byteLimit changes = true →
        validateEffects system limit byteLimit others = true := by
      intro changes others hperm h
      obtain ⟨hbounded, hapart⟩ := (validateEffects_iff hfold).mp h
      exact (validateEffects_iff hfold).mpr ⟨hbounded.perm hperm, hapart.perm (hperm.map _)⟩
    exact Bool.eq_iff_iff.mpr ⟨hstep hperm, hstep hperm.symm⟩
  · intro entries others hperm
    exact Bool.eq_iff_iff.mpr ⟨validate_of_perm hperm, validate_of_perm hperm.symm⟩

end Verdicts

/-! ### Listed paths -/

namespace Listed

def foldAscii (text : String) : String :=
  String.ofList (text.toList.map Char.toLower)

theorem foldAscii_folds : FoldsCharacters foldAscii := by
  refine ⟨fun character ↦ [character.toLower], by decide, fun character h ↦ ?_, fun text ↦ ?_⟩
  · have hlower : '/' = character.toLower := List.mem_singleton.mp h
    rw [Char.toLower] at hlower
    split_ifs at hlower with hupper
    · have hvalue := congrArg (·.val.toNat) hlower
      have hlow : 65 ≤ character.val.toNat := UInt32.le_iff_toNat_le.mp hupper.1
      have hhigh : character.val.toNat ≤ 90 := UInt32.le_iff_toNat_le.mp hupper.2
      have hsum : (character.val + ('a'.val - 'A'.val)).toNat = character.val.toNat + 32 := by
        rw [UInt32.toNat_add, show ('a'.val - 'A'.val).toNat = 32 from rfl]
        omega
      have hslash : '/'.val.toNat = 47 := rfl
      dsimp only at hvalue
      omega
    · exact hlower.symm
  · rw [foldAscii, String.toList_ofList, List.map_eq_flatMap]

def system : System := { sampleSystem with foldCase := foldAscii }

def libraries : Projection.Libraries where
  casefold := foldAscii
  foldedCase := foldAscii
  modelSpace := Char.isWhitespace
  schemaSpace := Char.isWhitespace
  sha256 := fun _ _ ↦ ""

def limits : Projection.Limits := ⟨16, 64, 64, 1024⟩

def removal (path : Path) : Change := ⟨path, ⟨[], none⟩, none⟩

def changes : List Change :=
  [removal ["a", "b"], removal ["a", "B c"], removal ["a-x"]]

def entry (path : String) (kind : Projection.Kind) : Projection.Entry := ⟨path, [], 0o600, kind⟩

def listing : List Projection.Entry :=
  [entry "a" .directory, entry "a/b" .file, entry "a-x" .file]

theorem path_verdicts_listed :
    Apart (folded foldAscii) (changes.map (·.path)) ∧ EntriesApart libraries listing := by
  have hverdicts := @path_verdicts system asciiPlatform libraries foldAscii_folds
    foldAscii_folds 16 64 limits
  have hchanges : validateEffects system 16 64 changes = true := by decide
  have hlisting : Projection.validate asciiPlatform libraries limits listing = true := by
    decide
  exact ⟨((hverdicts.1 changes).mp hchanges).2, (hverdicts.2.2.1 listing hlisting).2⟩

/-- An archive is accepted with a directory and a file in it. -/
theorem directory_beside_its_file :
    Projection.validate asciiPlatform libraries limits listing = true ∧
      ¬Apart (folded foldAscii) (listing.map fun entry ↦ Projection.pathParts entry.path) := by
  refine ⟨by decide, fun hapart ↦ ?_⟩
  refine hapart.leaves ["a"] (by decide) ["a", "b"] (by decide +kernel) ⟨?_, ?_⟩
  · decide
  · decide

end Listed

end AiStp.Installation.EffectPaths
