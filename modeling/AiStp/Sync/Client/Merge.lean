import AiStp.Library.Pointers
import AiStp.Library.ThreeWay
import AiStp.Sync.Client.MergeGraph

/-!
# The merge of two heads

`fields` merges two objects name by name against their base. A value that only one side has changed
is taken from that side, objects that both sides have changed are merged in their turn, and for
anything else the pointer is noted as a conflict. It refuses objects that both sides have changed at
a depth of 65. `candidate` merges the two heads of a developer passport and seals the result, unless
there is a conflict.
-/

set_option autoImplicit false

namespace AiStp.Sync.Client.Merge

open Library Library.Pointers Library.ThreeWay Foundation AiStp.Client

abbrev Fields := List (String × Json)

/-- The names of three objects, in their order. -/
def keys (base left right : Fields) : List String :=
  ((base ++ (left ++ right)).map Prod.fst).dedup.insertionSort (· ≤ ·)

/-- The merge of one name: its value, and the conflicts at its pointer and below. -/
def field (inner : Fields → Fields → Fields → String → Except Failure (Fields × List String))
    (before left right : Option Json) (place : String) :
    Except Failure (Option Json × List String) :=
  if left = right ∨ right = before then .ok (left, [])
  else if left = before then .ok (right, [])
  else
    match left, right, before with
    | some (.object first), some (.object second), none => do
      let (merged, conflicts) ← inner [] first second place
      return (some (.object merged), conflicts)
    | some (.object first), some (.object second), some (.object fields) => do
      let (merged, conflicts) ← inner fields first second place
      return (some (.object merged), conflicts)
    | _, _, _ => .ok (none, [place])

/-- The merge of objects, of which at most a given number may be nested. -/
def fieldsWithin : Nat → Fields → Fields → Fields → String → Except Failure (Fields × List String)
  | 0, _, _, _, _ => .error invalid
  | room + 1, base, left, right, path => do
    let results ← (keys base left right).mapM fun name ↦ do
      let outcome ← field (fieldsWithin room) (base.lookup name) (left.lookup name)
        (right.lookup name) (extend path name)
      return (name, outcome)
    return (results.filterMap fun (name, outcome) ↦ outcome.1.map (name, ·),
      results.flatMap fun (_, outcome) ↦ outcome.2)

/-- The merge of two objects. Its depth must not be more than 64. -/
def fields (base left right : Fields) : Except Failure (Fields × List String) :=
  fieldsWithin 65 base left right ""

/-- The fields of a passport that a merge is about. -/
def body (document : Json) : Except Failure Fields :=
  present ((document.erase "revision_id").erase "parent_revision_ids").asObject? invalid

/-- The merged passport, or the pointers in conflict. -/
def candidate (platform : Platform) (graph : Graph) :
    Except Failure (Option Json × List String) :=
  match graph.base, graph.documents with
  | some base, [left, right] =>
    if left.index "kind" ≠ .string "developer" ∨ right.index "kind" ≠ .string "developer" then
      .ok (none, ["/"])
    else do
      let base ← body base
      let left ← body left
      let right ← body right
      let (merged, conflicts) ← fields base left right
      if conflicts ≠ [] then return (none, conflicts)
      else
        let heads := Json.array (graph.heads.map .string)
        let sealed ← Passport.sealPassport platform
          ((Json.object merged).set "parent_revision_ids" heads)
        return (some sealed, conflicts)
  | _, _ => .ok (none, ["/"])

/-! ### One name -/

variable {failure : Failure}

section Field

variable {inner : Fields → Fields → Fields → String → Except Failure (Fields × List String)}
variable {before left right : Option Json} {place : String}

/-- The three ways a name is merged: a side is taken, the pointer is in conflict, or objects are
merged. -/
theorem field_eq_ok {outcome : Option Json × List String}
    (h : field inner before left right place = .ok outcome) :
    (outcome.2 = [] ∧ (left = right ∧ outcome.1 = left ∨ right = before ∧ outcome.1 = left ∨
      left = before ∧ outcome.1 = right)) ∨
    (Clash before left right ∧ outcome = (none, [place])) ∨
    ∃ base first second merged conflicts, Diverge before left right ∧
      (∀ name, child name before = base.lookup name) ∧ left = some (.object first) ∧
      right = some (.object second) ∧ inner base first second place = .ok (merged, conflicts) ∧
      outcome = (some (.object merged), conflicts) := by
  unfold field at h
  split_ifs at h with hleft hright
  · obtain rfl := Except.ok.inj h
    exact .inl ⟨rfl, hleft.elim (fun hsame ↦ .inl ⟨hsame, rfl⟩) fun hkept ↦ .inr (.inl ⟨hkept, rfl⟩)⟩
  · obtain rfl := Except.ok.inj h
    exact .inl ⟨rfl, .inr (.inr ⟨hright, rfl⟩)⟩
  · obtain ⟨hsame, hkept⟩ := not_or.mp hleft
    split at h
    · next first second =>
      obtain ⟨⟨merged, conflicts⟩, hinner, h⟩ := bind_eq_ok.mp h
      obtain rfl := Except.ok.inj h
      exact .inr (.inr ⟨[], first, second, merged, conflicts,
        ⟨⟨hsame, hright, hkept⟩, ⟨first, rfl⟩, ⟨second, rfl⟩, .inl rfl⟩, fun name ↦ rfl, rfl, rfl,
        hinner, rfl⟩)
    · next first second base =>
      obtain ⟨⟨merged, conflicts⟩, hinner, h⟩ := bind_eq_ok.mp h
      obtain rfl := Except.ok.inj h
      exact .inr (.inr ⟨base, first, second, merged, conflicts,
        ⟨⟨hsame, hright, hkept⟩, ⟨first, rfl⟩, ⟨second, rfl⟩, .inr ⟨base, rfl⟩⟩, fun name ↦ rfl,
        rfl, rfl, hinner, rfl⟩)
    · next hnone hobject =>
      obtain rfl := Except.ok.inj h
      refine .inr (.inl ⟨⟨⟨hsame, hright, hkept⟩, ?_⟩, rfl⟩)
      rintro ⟨⟨first, hfirst⟩, ⟨second, hsecond⟩, hbase | ⟨base, hbase⟩⟩
      · exact hnone first second hfirst hsecond hbase
      · exact hobject first second base hfirst hsecond hbase

/-- A name is refused where the objects of two sides that diverge are. -/
theorem field_eq_error :
    field inner before left right place = .error failure ↔ Diverge before left right ∧
      ∃ base first second, (∀ name, child name before = base.lookup name) ∧
        left = some (.object first) ∧ right = some (.object second) ∧
        (before = none ∧ base = [] ∨ before = some (.object base)) ∧
        inner base first second place = .error failure := by
  constructor
  · intro h
    unfold field at h
    split_ifs at h with hleft hright
    obtain ⟨hsame, hkept⟩ := not_or.mp hleft
    split at h
    · next first second =>
      cases hinner : inner [] first second place with
      | ok merged => rw [hinner] at h; cases h
      | error other =>
        rw [hinner] at h
        obtain rfl := Except.error.inj h
        exact ⟨⟨⟨hsame, hright, hkept⟩, ⟨first, rfl⟩, ⟨second, rfl⟩, .inl rfl⟩, [], first, second,
          fun name ↦ rfl, rfl, rfl, .inl ⟨rfl, rfl⟩, hinner⟩
    · next first second base =>
      cases hinner : inner base first second place with
      | ok merged => rw [hinner] at h; cases h
      | error other =>
        rw [hinner] at h
        obtain rfl := Except.error.inj h
        exact ⟨⟨⟨hsame, hright, hkept⟩, ⟨first, rfl⟩, ⟨second, rfl⟩, .inr ⟨base, rfl⟩⟩, base, first,
          second, fun name ↦ rfl, rfl, rfl, .inr rfl, hinner⟩
    · cases h
  · rintro ⟨⟨⟨hsame, hleft, hright⟩, -⟩, base, first, second, -, rfl, rfl, hbase, hinner⟩
    unfold field
    rw [if_neg (not_or.mpr ⟨hsame, hright⟩), if_neg hleft]
    rcases hbase with ⟨rfl, rfl⟩ | rfl
    · simp only [hinner]
      rfl
    · simp only [hinner]
      rfl

theorem field_swap {inner' : Fields → Fields → Fields → String → Except Failure (Fields × List String)}
    (hinner : ∀ base first second place, inner base first second place =
      inner' base second first place) :
    field inner before left right place = field inner' before right left place := by
  unfold field
  by_cases hsame : left = right
  · rw [if_pos (.inl hsame), if_pos (.inl hsame.symm), hsame]
  · by_cases hleft : left = before
    · by_cases hright : right = before
      · exact absurd (hleft.trans hright.symm) hsame
      · rw [if_neg (not_or.mpr ⟨hsame, hright⟩), if_pos hleft, if_pos (.inr hleft)]
    · by_cases hright : right = before
      · rw [if_pos (.inr hright), if_neg (not_or.mpr ⟨Ne.symm hsame, hleft⟩), if_pos hright]
      · rw [if_neg (not_or.mpr ⟨hsame, hright⟩), if_neg hleft,
          if_neg (not_or.mpr ⟨Ne.symm hsame, hleft⟩), if_neg hright]
        split
        · simp only [hinner]
        · simp only [hinner]
        · next hnone hobject =>
          split
          · exact absurd rfl (hnone _ _ rfl rfl)
          · exact absurd rfl (hobject _ _ _ rfl rfl)
          · rfl

end Field

/-! ### The names of three objects -/

variable {name : String}

theorem lookup_eq_none {base left right : Fields} (h : name ∉ keys base left right) :
    base.lookup name = none ∧ left.lookup name = none ∧ right.lookup name = none := by
  have hnone (fields : Fields) (hnot : name ∉ fields.map Prod.fst) :
      fields.lookup name = none := by
    rw [List.lookup_eq_none_iff]
    intro entry hentry
    have hne : name ≠ entry.1 := fun hsame ↦ hnot (hsame ▸ List.mem_map_of_mem hentry)
    simpa using hne
  simp only [keys, List.mem_insertionSort, List.mem_dedup, List.map_append, List.mem_append,
    not_or] at h
  exact ⟨hnone _ h.1, hnone _ h.2.1, hnone _ h.2.2⟩

theorem keys_swap (base left right : Fields) : keys base left right = keys base right left := by
  have hperm : ((base ++ (left ++ right)).map Prod.fst).dedup.Perm
      ((base ++ (right ++ left)).map Prod.fst).dedup :=
    ((List.perm_append_comm.append_left base).map Prod.fst).dedup
  refine List.Perm.eq_of_pairwise (fun _ _ _ _ ↦ le_antisymm)
    (List.pairwise_insertionSort _ _) (List.pairwise_insertionSort _ _)
    (((List.perm_insertionSort _ _).trans hperm).trans (List.perm_insertionSort _ _).symm)

/-- A name whose values differ is one of them. -/
theorem mem_keys_of_differ {base left right : Fields}
    (h : Differ (base.lookup name) (left.lookup name) (right.lookup name)) :
    name ∈ keys base left right := by
  by_contra hnot
  obtain ⟨hbase, hleft, -⟩ := lookup_eq_none hnot
  exact h.2.1 (hleft.trans hbase.symm)

/-! ### Mapping a list -/

section Items

variable {Item Result : Type} {step : Item → Except Failure Result}

variable {items : List Item}

theorem mapM_eq_ok {results : List Result} (h : items.mapM step = .ok results) :
    results = items.filterMap (fun item ↦ (step item).toOption) ∧
      ∀ item ∈ items, ∃ result, step item = .ok result := by
  induction items generalizing results with
  | nil =>
    obtain rfl := Except.ok.inj h
    exact ⟨rfl, by simp⟩
  | cons item items ih =>
    rw [List.mapM_cons] at h
    obtain ⟨result, hresult, h⟩ := bind_eq_ok.mp h
    obtain ⟨rest, hrest, h⟩ := bind_eq_ok.mp h
    obtain rfl := Except.ok.inj h
    obtain ⟨hlist, hall⟩ := ih hrest
    refine ⟨?_, List.forall_mem_cons.mpr ⟨⟨result, hresult⟩, hall⟩⟩
    rw [List.filterMap_cons, hresult, hlist]
    rfl

theorem bind_eq_error {First Second : Type} {first : Except Failure First}
    {next : First → Except Failure Second} :
    first >>= next = .error failure ↔
      first = .error failure ∨ ∃ value, first = .ok value ∧ next value = .error failure := by
  cases first with
  | error other =>
    constructor
    · intro h
      exact .inl (congrArg Except.error (Except.error.inj h))
    · rintro (h | ⟨_, hok, -⟩)
      · exact congrArg Except.error (Except.error.inj h)
      · cases hok
  | ok value =>
    constructor
    · exact fun h ↦ .inr ⟨value, rfl, h⟩
    · rintro (h | ⟨_, hok, h⟩)
      · cases h
      · obtain rfl := Except.ok.inj hok
        exact h

theorem exists_of_mapM_eq_error (h : items.mapM step = .error failure) :
    ∃ item ∈ items, step item = .error failure := by
  induction items with
  | nil => cases h
  | cons item items ih =>
    rw [List.mapM_cons] at h
    rcases bind_eq_error.mp h with hfirst | ⟨result, -, h⟩
    · exact ⟨item, List.mem_cons_self, hfirst⟩
    · rcases bind_eq_error.mp h with hrest | ⟨results, -, h⟩
      · obtain ⟨other, hmem, hother⟩ := ih hrest
        exact ⟨other, List.mem_cons_of_mem item hmem, hother⟩
      · cases h

/-- A list with a refused item is refused. -/
theorem mapM_refused {item : Item} (hitem : item ∈ items) (h : step item = .error failure) :
    ∃ other, items.mapM step = .error other := by
  cases hall : items.mapM step with
  | error other => exact ⟨other, rfl⟩
  | ok results =>
    obtain ⟨result, hresult⟩ := (mapM_eq_ok hall).2 item hitem
    rw [h] at hresult
    cases hresult

end Items

/-! ### Objects -/

section Objects

variable {room : Nat} {base left right merged : Fields} {path : String} {conflicts : List String}

/-- The merge of one of the names. -/
def nameMerge (room : Nat) (base left right : Fields) (path name : String) :
    Except Failure (Option Json × List String) :=
  field (fieldsWithin room) (base.lookup name) (left.lookup name) (right.lookup name)
    (extend path name)

theorem fieldsWithin_succ : fieldsWithin (room + 1) base left right path = (do
    let results ← (keys base left right).mapM fun name ↦ do
      let outcome ← nameMerge room base left right path name
      return (name, outcome)
    return (results.filterMap fun (name, outcome) ↦ outcome.1.map (name, ·),
      results.flatMap fun (_, outcome) ↦ outcome.2)) := rfl

theorem lookup_filterMap (names : List String) (value : String → Option Json) (name : String) :
    (names.filterMap fun name ↦ (value name).map (name, ·)).lookup name =
      if name ∈ names then value name else none := by
  induction names with
  | nil => rfl
  | cons first names ih =>
    rw [List.filterMap_cons]
    by_cases hname : name = first
    · subst hname
      cases hvalue : value name with
      | none => simp [ih, hvalue]
      | some held => simp
    · cases value first with
      | none => simp [ih, hname]
      | some held => simp [ih, hname, List.lookup_cons, beq_false_of_ne hname]

/-- The merged object and its conflicts, name by name. -/
theorem fieldsWithin_eq_ok (h : fieldsWithin (room + 1) base left right path =
    .ok (merged, conflicts)) :
    ∃ outcome : String → Option Json × List String,
      (∀ name ∈ keys base left right, nameMerge room base left right path name =
        .ok (outcome name)) ∧
      (∀ name, merged.lookup name =
        if name ∈ keys base left right then (outcome name).1 else none) ∧
      ∀ text, text ∈ conflicts ↔ ∃ name ∈ keys base left right, text ∈ (outcome name).2 := by
  rw [fieldsWithin_succ] at h
  obtain ⟨results, hresults, h⟩ := bind_eq_ok.mp h
  obtain ⟨hlist, hall⟩ := mapM_eq_ok hresults
  let outcome (name : String) : Option Json × List String :=
    ((nameMerge room base left right path name).toOption).getD (none, [])
  have hname : ∀ name ∈ keys base left right,
      nameMerge room base left right path name = .ok (outcome name) := by
    intro name hmem
    obtain ⟨result, hresult⟩ := hall name hmem
    obtain ⟨held, hheld, -⟩ := bind_eq_ok.mp hresult
    simp only [outcome, hheld]
    rfl
  have hmap : results = (keys base left right).map fun name ↦ (name, outcome name) := by
    rw [hlist, ← List.filterMap_eq_map]
    refine List.filterMap_congr fun name hmem ↦ ?_
    rw [hname name hmem]
    rfl
  obtain ⟨rfl, rfl⟩ := Prod.mk.inj (Except.ok.inj h)
  refine ⟨outcome, hname, fun name ↦ ?_, fun text ↦ ?_⟩
  · rw [hmap, List.filterMap_map]
    exact lookup_filterMap (keys base left right) (fun name ↦ (outcome name).1) name
  · rw [hmap, List.flatMap_map, List.mem_flatMap]

/-- What the merge of a value is to be: the conflicts are the pointers in conflict, and without any
the result is a merge at every pointer. -/
structure Exact (before left right merged : Option Json) (place : String)
    (conflicts : List String) : Prop where
  listed : ∀ text, text ∈ conflicts ↔
    ∃ names, Topmost names before left right ∧ pointer place names = text
  merged : conflicts = [] → ∀ names,
    Merged (valueAt names before) (valueAt names left) (valueAt names right) (valueAt names merged)

theorem exact_of_kept {before left right merged : Option Json} {place : String}
    (h : left = right ∧ merged = left ∨ right = before ∧ merged = left ∨
      left = before ∧ merged = right) : Exact before left right merged place [] := by
  refine ⟨fun text ↦ iff_of_false List.not_mem_nil ?_, fun _ names ↦ merged_of_kept h⟩
  rintro ⟨names, htop, -⟩
  obtain ⟨hsame, hleft, hright⟩ := htop.differ
  rcases h with ⟨heq, -⟩ | ⟨heq, -⟩ | ⟨heq, -⟩
  · exact hsame heq
  · exact hright heq
  · exact hleft heq

theorem exact_of_clash {before left right : Option Json} {place : String}
    (h : Clash before left right) : Exact before left right none place [place] := by
  refine ⟨fun text ↦ ?_, fun hnil ↦ absurd hnil (List.cons_ne_nil _ _)⟩
  rw [List.mem_singleton]
  constructor
  · rintro rfl
    exact ⟨[], h, rfl⟩
  · rintro ⟨names, htop, rfl⟩
    cases names with
    | nil => rfl
    | cons name names => exact absurd h htop.1

/-- Objects that diverge are merged exactly when all their names are. -/
theorem exact_of_names {before left right : Option Json} (h : Diverge before left right)
    (hnames : ∀ name, ∃ found, (∀ text, text ∈ found → text ∈ conflicts) ∧
      Exact (child name before) (child name left) (child name right) (merged.lookup name)
        (extend path name) found) (hconflicts : ∀ text ∈ conflicts, ∃ name names,
      Topmost names (child name before) (child name left) (child name right) ∧
        pointer (extend path name) names = text) :
    Exact before left right (some (.object merged)) path conflicts := by
  refine ⟨fun text ↦ ⟨fun hmem ↦ ?_, ?_⟩, fun hnil names ↦ ?_⟩
  · obtain ⟨name, names, htop, hpointer⟩ := hconflicts text hmem
    exact ⟨name :: names, topmost_cons.mpr ⟨h, htop⟩, hpointer⟩
  · rintro ⟨names, htop, rfl⟩
    cases names with
    | nil => exact absurd h.2 htop.2
    | cons name names =>
      obtain ⟨found, hsub, hexact⟩ := hnames name
      exact hsub _ ((hexact.listed _).mpr ⟨names, htop.2, rfl⟩)
  · cases names with
    | nil =>
      exact ⟨fun hsame ↦ absurd hsame h.1.1, fun hsame ↦ absurd hsame h.1.2.1,
        fun hsame ↦ absurd hsame h.1.2.2, fun _ ↦ ⟨merged, rfl⟩⟩
    | cons name names =>
      obtain ⟨found, hsub, hexact⟩ := hnames name
      have hfound : found = [] := by
        rw [List.eq_nil_iff_forall_not_mem]
        intro text hmem
        exact List.not_mem_nil (hnil ▸ hsub text hmem)
      exact hexact.merged hfound names

/-- The merge of two objects is exact at each of their names. -/
theorem fieldsWithin_exact (h : fieldsWithin room base left right path = .ok (merged, conflicts)) :
    (∀ name, ∃ found, (∀ text, text ∈ found → text ∈ conflicts) ∧
      Exact (base.lookup name) (left.lookup name) (right.lookup name) (merged.lookup name)
        (extend path name) found) ∧
    ∀ text ∈ conflicts, ∃ name names,
      Topmost names (base.lookup name) (left.lookup name) (right.lookup name) ∧
        pointer (extend path name) names = text := by
  induction room generalizing base left right path merged conflicts with
  | zero => cases h
  | succ room ih =>
    obtain ⟨outcome, hname, hlookup, hmem⟩ := fieldsWithin_eq_ok h
    have hexact (name : String) (hkey : name ∈ keys base left right) :
        Exact (base.lookup name) (left.lookup name) (right.lookup name) (outcome name).1
          (extend path name) (outcome name).2 := by
      rcases field_eq_ok (hname name hkey) with ⟨hnil, hkept⟩ | ⟨hclash, hplace⟩ |
        ⟨before, first, second, inner, below, hdiverge, hbase, hleft, hright, hinner, hobject⟩
      · rw [hnil]
        exact exact_of_kept hkept
      · rw [hplace]
        exact exact_of_clash hclash
      · obtain ⟨hnames, hconflicts⟩ := ih hinner
        rw [hobject]
        simp only [← child_object, ← hleft, ← hright] at hnames hconflicts
        simp only [child_object, ← hbase] at hnames hconflicts
        exact exact_of_names hdiverge hnames hconflicts
    refine ⟨fun name ↦ ?_, fun text htext ↦ ?_⟩
    · rw [hlookup]
      by_cases hkey : name ∈ keys base left right
      · rw [if_pos hkey]
        exact ⟨(outcome name).2, fun text htext ↦ (hmem text).mpr ⟨name, hkey, htext⟩,
          hexact name hkey⟩
      · obtain ⟨hbase, hleft, hright⟩ := lookup_eq_none hkey
        rw [if_neg hkey, hbase, hleft, hright]
        exact ⟨[], by simp, exact_of_kept (.inl ⟨rfl, rfl⟩)⟩
    · obtain ⟨name, hkey, htext⟩ := (hmem text).mp htext
      obtain ⟨names, htop, hpointer⟩ := ((hexact name hkey).listed text).mp htext
      exact ⟨name, names, htop, hpointer⟩

theorem fieldsWithin_swap (room : Nat) (base left right : Fields) (path : String) :
    fieldsWithin room base left right path = fieldsWithin room base right left path := by
  induction room generalizing base left right path with
  | zero => rfl
  | succ room ih =>
    have hname (name : String) : nameMerge room base left right path name =
        nameMerge room base right left path name := field_swap ih
    rw [fieldsWithin_succ, fieldsWithin_succ, keys_swap]
    simp only [hname]

theorem fieldsWithin_error (h : fieldsWithin (room + 1) base left right path = .error failure) :
    ∃ name ∈ keys base left right,
      nameMerge room base left right path name = .error failure := by
  rw [fieldsWithin_succ] at h
  rcases bind_eq_error.mp h with hname | ⟨results, -, h⟩
  · obtain ⟨name, hmem, hname⟩ := exists_of_mapM_eq_error hname
    rcases bind_eq_error.mp hname with hrefused | ⟨outcome, -, h⟩
    · exact ⟨name, hmem, hrefused⟩
    · cases h
  · cases h

theorem eq_invalid (h : fieldsWithin room base left right path = .error failure) :
    failure = invalid := by
  induction room generalizing base left right path with
  | zero => exact (Except.error.inj h).symm
  | succ room ih =>
    obtain ⟨name, -, hname⟩ := fieldsWithin_error h
    obtain ⟨-, before, first, second, -, -, -, -, hinner⟩ := field_eq_error.mp hname
    exact ih hinner

theorem refused_of_name (hkey : name ∈ keys base left right)
    (h : nameMerge room base left right path name = .error invalid) :
    fieldsWithin (room + 1) base left right path = .error invalid := by
  let step (name : String) : Except Failure (String × Option Json × List String) := do
    let outcome ← nameMerge room base left right path name
    return (name, outcome)
  have hstep : step name = .error invalid := by
    simp only [step, h]
    rfl
  obtain ⟨other, hother⟩ := mapM_refused hkey hstep
  have hrefused : fieldsWithin (room + 1) base left right path = .error other := by
    rw [fieldsWithin_succ, hother]
    rfl
  rw [hrefused, eq_invalid hrefused]

/-- A name whose objects diverge is refused when the objects are. -/
theorem refused_of_diverge
    (hdiverge : Diverge (base.lookup name) (left.lookup name) (right.lookup name))
    (hinner : ∀ before first second, (∀ next, child next (base.lookup name) = before.lookup next) →
      left.lookup name = some (.object first) → right.lookup name = some (.object second) →
      fieldsWithin room before first second (extend path name) = .error invalid) :
    nameMerge room base left right path name = .error invalid := by
  obtain ⟨-, ⟨first, hfirst⟩, ⟨second, hsecond⟩, hbase⟩ := id hdiverge
  refine field_eq_error.mpr ⟨hdiverge, ?_⟩
  rcases hbase with hnone | ⟨before, hbefore⟩
  · have hread (next : String) : child next (base.lookup name) = List.lookup next [] := by
      rw [hnone]
      rfl
    exact ⟨[], first, second, hread, hfirst, hsecond, .inl ⟨hnone, rfl⟩,
      hinner [] first second hread hfirst hsecond⟩
  · have hread (next : String) : child next (base.lookup name) = before.lookup next := by
      rw [hbefore]
      rfl
    exact ⟨before, first, second, hread, hfirst, hsecond, .inr hbefore,
      hinner before first second hread hfirst hsecond⟩

/-- Objects are refused where they are nested too deep and both sides have changed them all the way
down. -/
theorem fieldsWithin_eq_error :
    fieldsWithin (room + 1) base left right path = .error invalid ↔ ∃ name names,
      names.length = room ∧
        DivergeAlong names (base.lookup name) (left.lookup name) (right.lookup name) := by
  induction room generalizing base left right path with
  | zero =>
    constructor
    · intro h
      obtain ⟨name, -, hname⟩ := fieldsWithin_error h
      exact ⟨name, [], rfl, (field_eq_error.mp hname).1⟩
    · rintro ⟨name, names, hlength, hdiverge⟩
      obtain rfl := List.length_eq_zero_iff.mp hlength
      exact refused_of_name (mem_keys_of_differ hdiverge.1) (refused_of_diverge hdiverge fun _ _ _ _ _ _ ↦ rfl)
  | succ room ih =>
    constructor
    · intro h
      obtain ⟨name, -, hname⟩ := fieldsWithin_error h
      obtain ⟨hdiverge, before, first, second, hbefore, hfirst, hsecond, -, hinner⟩ :=
        field_eq_error.mp hname
      obtain ⟨next, names, hlength, halong⟩ := ih.mp hinner
      refine ⟨name, next :: names, by simp [hlength], hdiverge, ?_⟩
      rwa [hbefore, hfirst, hsecond]
    · rintro ⟨name, names, hlength, hdiverge⟩
      cases names with
      | nil => cases hlength
      | cons next names =>
        obtain ⟨hdiverge, halong⟩ := hdiverge
        refine refused_of_name (mem_keys_of_differ hdiverge.1) (refused_of_diverge hdiverge ?_)
        intro before first second hbefore hfirst hsecond
        refine ih.mpr ⟨next, names, Nat.succ.inj hlength, ?_⟩
        rwa [hbefore, hfirst, hsecond] at halong

end Objects

/-! ### The merge as a whole -/

section Whole

variable {base left right merged : Fields} {conflicts : List String}

abbrev document (fields : Fields) : Option Json := some (.object fields)

theorem not_clash_document : ¬Clash (document base) (document left) (document right) :=
  fun h ↦ h.2 ⟨⟨left, rfl⟩, ⟨right, rfl⟩, .inr ⟨base, rfl⟩⟩

section

variable (h : fields base left right = .ok (merged, conflicts))
include h

theorem fields_exact (name : String) :
    ∃ found, (∀ text, text ∈ found → text ∈ conflicts) ∧ Exact (base.lookup name)
      (left.lookup name) (right.lookup name) (merged.lookup name) (extend "" name) found :=
  (fieldsWithin_exact h).1 name

/-- The conflicts are the pointers in conflict. -/
theorem mem_conflicts (names : List String) :
    pointer "" names ∈ conflicts ↔
      Topmost names (document base) (document left) (document right) := by
  constructor
  · intro hmem
    obtain ⟨name, found, htop, hpointer⟩ := (fieldsWithin_exact h).2 _ hmem
    obtain rfl : name :: found = names := pointer_injective "" hpointer
    exact ⟨not_clash_document, htop⟩
  · intro htop
    cases names with
    | nil => exact absurd htop not_clash_document
    | cons name names =>
      obtain ⟨found, hsub, hexact⟩ := fields_exact h name
      exact hsub _ ((hexact.listed _).mpr ⟨names, htop.2, rfl⟩)

theorem exists_pointer {text : String} (htext : text ∈ conflicts) :
    ∃ names, text = pointer "" names := by
  obtain ⟨name, names, -, hpointer⟩ := (fieldsWithin_exact h).2 text htext
  exact ⟨name :: names, hpointer.symm⟩

theorem conflicts_eq_nil :
    conflicts = [] ↔ ∀ names, ¬Clash (valueAt names (document base))
      (valueAt names (document left)) (valueAt names (document right)) := by
  constructor
  · rintro rfl names hclash
    obtain ⟨top, -, htop⟩ := exists_topmost hclash
    exact List.not_mem_nil ((mem_conflicts h top).mpr htop)
  · intro hnone
    rw [List.eq_nil_iff_forall_not_mem]
    intro text htext
    obtain ⟨names, rfl⟩ := exists_pointer h htext
    exact hnone names ((mem_conflicts h names).mp htext).clash

end

/-- Without a conflict every value below the document is merged. -/
theorem merged_below (h : fields base left right = .ok (merged, [])) (name : String)
    (names : List String) :
    Merged (valueAt (name :: names) (document base)) (valueAt (name :: names) (document left))
      (valueAt (name :: names) (document right)) (valueAt (name :: names) (document merged)) := by
  obtain ⟨found, hsub, hexact⟩ := fields_exact h name
  have hfound : found = [] :=
    List.eq_nil_iff_forall_not_mem.mpr fun text hmem ↦ List.not_mem_nil (hsub text hmem)
  exact hexact.merged hfound names

theorem fields_eq_error :
    fields base left right = .error failure ↔ failure = invalid ∧ ∃ names, names.length = 65 ∧
      DivergeAlong names (document base) (document left) (document right) := by
  constructor
  · intro h
    obtain rfl := eq_invalid h
    obtain ⟨name, names, hlength, halong⟩ := fieldsWithin_eq_error.mp h
    have hdiverge : Diverge (base.lookup name) (left.lookup name) (right.lookup name) := by
      by_contra hnot
      exact not_divergeAlong hnot halong
    have hroot : Differ (document base) (document left) (document right) :=
      @Differ.of_child (document base) (document left) (document right) name hdiverge.1
    exact ⟨rfl, name :: names, by simp [hlength],
      ⟨hroot, ⟨left, rfl⟩, ⟨right, rfl⟩, .inr ⟨base, rfl⟩⟩, halong⟩
  · rintro ⟨rfl, names, hlength, halong⟩
    cases names with
    | nil => cases hlength
    | cons name names =>
      exact fieldsWithin_eq_error.mpr ⟨name, names, Nat.succ.inj hlength, halong.2⟩

/-- A side that has kept the base merges to the other side. -/
theorem fields_of_kept (h : left = base) :
    ∃ merged, fields base left right = .ok (merged, []) ∧
      ∀ name, merged.lookup name = right.lookup name := by
  subst h
  cases hmerge : fields left left right with
  | error failure =>
    obtain ⟨-, names, -, halong⟩ := fields_eq_error.mp hmerge
    exact absurd halong (not_divergeAlong fun hdiverge ↦ hdiverge.1.2.1 rfl)
  | ok result =>
    obtain ⟨merged, conflicts⟩ := result
    have hnil : conflicts = [] := by
      rw [List.eq_nil_iff_forall_not_mem]
      intro text htext
      obtain ⟨names, rfl⟩ := exists_pointer hmerge htext
      exact ((mem_conflicts hmerge names).mp htext).differ.2.1 rfl
    subst hnil
    exact ⟨merged, rfl, fun name ↦ (merged_below hmerge name []).right_changed rfl⟩

end Whole

/-- What `candidate` does with the heads of a developer passport. -/
theorem candidate_of_developers {platform : Platform} {graph : Graph} {before first second : Json}
    (hbase : graph.base = some before) (hdocuments : graph.documents = [first, second])
    (hfirst : first.index "kind" = .string "developer")
    (hsecond : second.index "kind" = .string "developer") {value : Option Json}
    {conflicts : List String} (h : candidate platform graph = .ok (value, conflicts)) :
    ∃ base left right merged, body before = .ok base ∧ body first = .ok left ∧
      body second = .ok right ∧ fields base left right = .ok (merged, conflicts) ∧
      (conflicts = [] ∧ (∃ sealed, Passport.sealPassport platform
        ((Json.object merged).set "parent_revision_ids" (.array (graph.heads.map .string))) =
          .ok sealed ∧ value = some sealed) ∨
        conflicts ≠ [] ∧ value = none) := by
  unfold candidate at h
  simp only [hbase, hdocuments, hfirst, hsecond, ne_eq, not_true_eq_false, or_self, if_false,
    bind_eq_ok] at h
  obtain ⟨base, hbefore, left, hleft, right, hright, ⟨merged, found⟩, hfields, h⟩ := h
  refine ⟨base, left, right, merged, hbefore, hleft, hright, ?_⟩
  by_cases hfound : found = []
  · rw [if_neg (not_not.mpr hfound)] at h
    obtain ⟨sealed, hsealed, h⟩ := bind_eq_ok.mp h
    obtain ⟨rfl, rfl⟩ := Prod.mk.inj (Except.ok.inj h)
    exact ⟨hfields, .inl ⟨hfound, sealed, hsealed, rfl⟩⟩
  · rw [if_pos hfound] at h
    obtain ⟨rfl, rfl⟩ := Prod.mk.inj (Except.ok.inj h)
    exact ⟨hfields, .inr ⟨hfound, rfl⟩⟩

/-- The merge of two objects is refused when objects that diverge are nested 65 deep, and only then.
Otherwise it lists the pointers in conflict. There are none when the sides clash nowhere, and then the
merge holds at every pointer what the sides have in common and what one of them has changed. The
sides can be swapped, a side that has kept the base gives the other side, and a candidate for the
heads of a developer is made of the merge without conflicts, and of no other. -/
theorem merge_exact (base left right : Fields) :
    fields base left right = fields base right left ∧
    (∀ failure, fields base left right = .error failure ↔ failure = invalid ∧
      ∃ names, names.length = 65 ∧
        DivergeAlong names (document base) (document left) (document right)) ∧
    (∀ merged conflicts, fields base left right = .ok (merged, conflicts) →
      (∀ names, pointer "" names ∈ conflicts ↔
        Topmost names (document base) (document left) (document right)) ∧
      (∀ text ∈ conflicts, ∃ names, text = pointer "" names) ∧
      (conflicts = [] ↔ ∀ names, ¬Clash (valueAt names (document base))
        (valueAt names (document left)) (valueAt names (document right))) ∧
      (conflicts = [] → ∀ name names, Merged (valueAt (name :: names) (document base))
        (valueAt (name :: names) (document left)) (valueAt (name :: names) (document right))
        (valueAt (name :: names) (document merged)))) ∧
    (left = base → ∃ merged, fields base left right = .ok (merged, []) ∧
      ∀ name, merged.lookup name = right.lookup name) ∧
    (right = base → ∃ merged, fields base left right = .ok (merged, []) ∧
      ∀ name, merged.lookup name = left.lookup name) ∧
    ∀ platform graph before first second, graph.base = some before →
      graph.documents = [first, second] → first.index "kind" = .string "developer" →
      second.index "kind" = .string "developer" → body before = .ok base → body first = .ok left →
      body second = .ok right → ∀ value conflicts, candidate platform graph = .ok (value, conflicts) →
        ∃ merged, fields base left right = .ok (merged, conflicts) ∧
          (conflicts = [] ∧ (∃ sealed, Passport.sealPassport platform
            ((Json.object merged).set "parent_revision_ids" (.array (graph.heads.map .string))) =
              .ok sealed ∧ value = some sealed) ∨
            conflicts ≠ [] ∧ value = none) := by
  refine ⟨fieldsWithin_swap 65 base left right "", fun failure ↦ fields_eq_error, ?_,
    fields_of_kept, ?_, ?_⟩
  · intro merged conflicts h
    refine ⟨mem_conflicts h, fun text htext ↦ exists_pointer h htext, conflicts_eq_nil h, ?_⟩
    rintro rfl
    exact merged_below h
  · intro hright
    rw [fields, fieldsWithin_swap]
    exact fields_of_kept hright
  · intro platform graph before first second hbase hdocuments hfirst hsecond hbefore hleft hright
      value conflicts h
    obtain ⟨base', left', right', merged, hbefore', hleft', hright', hfields, hvalue⟩ :=
      candidate_of_developers hbase hdocuments hfirst hsecond h
    obtain rfl := Except.ok.inj (hbefore.symm.trans hbefore')
    obtain rfl := Except.ok.inj (hleft.symm.trans hleft')
    obtain rfl := Except.ok.inj (hright.symm.trans hright')
    exact ⟨merged, hfields, hvalue⟩

/-! ### Objects in objects -/

namespace Nested

/-- Two flags in objects that are nested to a depth. -/
def nested : Nat → Bool → Bool → Json
  | 0, first, second => .object [("first", .bool first), ("second", .bool second)]
  | depth + 1, first, second => .object [("inner", nested depth first second)]

theorem not_clash (depth : Nat) (names : List String) :
    ¬Clash (valueAt names (some (nested depth false false)))
      (valueAt names (some (nested depth true false)))
      (valueAt names (some (nested depth false true))) := by
  have hkept {names : List String} {base left right : Option Json} (h : ¬Differ base left right) :
      ¬Clash (valueAt names base) (valueAt names left) (valueAt names right) := by
    intro hclash
    obtain ⟨top, -, htop⟩ := exists_topmost hclash
    exact not_topmost h htop
  induction depth generalizing names with
  | zero =>
    cases names with
    | nil => exact not_clash_document
    | cons name names =>
      refine @hkept names (child name _) (child name _) (child name _) fun hdiffer ↦ ?_
      by_cases hfirst : name = "first"
      · subst hfirst
        exact hdiffer.2.2 (by simp [nested, child, Json.asObject?])
      · refine hdiffer.2.1 ?_
        simp [nested, child, Json.asObject?, List.lookup_cons, beq_false_of_ne hfirst]
  | succ depth ih =>
    cases names with
    | nil => exact not_clash_document
    | cons name names =>
      by_cases hinner : name = "inner"
      · subst hinner
        exact ih names
      · refine @hkept names (child name _) (child name _) (child name _) fun hdiffer ↦
          hdiffer.1 ?_
        simp [nested, child, Json.asObject?, List.lookup_cons, beq_false_of_ne hinner]

/-- Each side changes a flag of its own, and the merge is refused for its depth. -/
theorem nested_refused : ∃ base left right : Fields,
    (∀ names, ¬Clash (valueAt names (document base)) (valueAt names (document left))
      (valueAt names (document right))) ∧ fields base left right = .error invalid := by
  refine ⟨[("inner", nested 64 false false)], [("inner", nested 64 true false)],
    [("inner", nested 64 false true)], not_clash 65, ?_⟩
  have hnone : (fields [("inner", nested 64 false false)] [("inner", nested 64 true false)]
      [("inner", nested 64 false true)]).toOption = none := by
    decide +kernel
  cases hmerge : fields [("inner", nested 64 false false)] [("inner", nested 64 true false)]
      [("inner", nested 64 false true)] with
  | ok result =>
    rw [hmerge] at hnone
    cases hnone
  | error failure => rw [eq_invalid hmerge]

end Nested

end AiStp.Sync.Client.Merge
