import AiStp.Selection.Graph

/-!
# What a dependency closure holds

`At roots depth reference`: a chain of so many requirements leads from a root to the reference. The
closure is `Complete` when all references that are reached so are exact and agree, can be read, lie
near the roots and are not too many, and `Resolvable` when no object requires itself through others.

A walk without a refusal keeps `Clean`. The first refusal shows that the closure is not complete, and
refusals stay. So the closure is resolved exactly when it is resolvable (`resolve_exact`).
-/

set_option autoImplicit false

namespace AiStp.Selection

open Library Foundation AiStp.Client

/-! ### Resolvable closures -/

section Specification

variable (platform : Platform) (catalogue : Catalogue) (roots : List Reference)

/-- The object can be registered and requires these references. -/
def Requires (target : Target) (requires : List Reference) : Prop :=
  ∃ revision, examine catalogue target = .ok (.node revision requires)

/-- A reference that is reached from the roots along so many requirements. -/
inductive At : ℕ → Reference → Prop
  | root {reference : Reference} : reference ∈ roots → At 0 reference
  | required {depth : ℕ} {reference next : Reference} {requires : List Reference} :
    At depth reference → Requires catalogue reference.toTarget requires → next ∈ requires →
    At (depth + 1) next

def Needed (reference : Reference) : Prop := ∃ depth, At catalogue roots depth reference

/-- An object of the closure. -/
def Member (target : Target) : Prop :=
  ∃ reference, Needed catalogue roots reference ∧ reference.toTarget = target

def requirementsOf (target : Target) : List Reference :=
  match examine catalogue target with
  | .ok (.node _ requires) => requires
  | _ => []

def Reference.Usable (reference : Reference) : Prop :=
  reference.hasVariant = false ∧ exact platform reference = true

/-- Every reference is usable, an id stands for one object, every object can be registered and lies
near the roots, and the bounds on objects and requirements are kept. -/
structure Complete : Prop where
  usable : ∀ reference, Needed catalogue roots reference → reference.Usable platform
  agree : ∀ first second, Member catalogue roots first → Member catalogue roots second →
    first.stableId = second.stableId → first = second
  held : ∀ target, Member catalogue roots target → ∃ requires, Requires catalogue target requires
  near : ∀ target, Member catalogue roots target →
    ∃ depth ≤ maxDepth, ∃ reference, At catalogue roots depth reference ∧ reference.toTarget = target
  nodes : ∀ targets : Finset Target, (∀ target ∈ targets, Member catalogue roots target) →
    targets.card ≤ maxNodes
  edges : ∀ targets : Finset Target, targets.Nonempty →
    (∀ target ∈ targets, Member catalogue roots target) →
    roots.length + ∑ target ∈ targets, (requirementsOf catalogue target).length ≤ maxEdges

/-- The id of an object and an id that it requires. -/
def Edge (child need : String) : Prop :=
  ∃ target, Member catalogue roots target ∧ target.stableId = child ∧
    ∃ item ∈ requirementsOf catalogue target, item.stableId = need

/-- A complete closure in which no object requires itself. -/
structure Resolvable : Prop extends Complete platform catalogue roots where
  acyclic : ¬∃ id, Relation.TransGen (Edge catalogue roots) id id

end Specification

variable {platform : Platform} {catalogue : Catalogue} {roots : List Reference}

variable {target : Target}

theorem requirementsOf_eq {requires : List Reference} (h : Requires catalogue target requires) :
    requirementsOf catalogue target = requires := by
  obtain ⟨revision, hexamine⟩ := h
  rw [requirementsOf, hexamine]

theorem Requires.unique {requires other : List Reference} (h : Requires catalogue target requires)
    (h' : Requires catalogue target other) : requires = other :=
  (requirementsOf_eq h).symm.trans (requirementsOf_eq h')

theorem Reference.place_injective : Function.Injective Reference.place := by
  rintro ⟨⟨id, version, digest⟩, by', variant⟩ ⟨⟨id', version', digest'⟩, by'', variant'⟩ h
  simp only [Reference.place, toLex_inj, Prod.mk.injEq] at h
  obtain ⟨rfl, rfl, rfl, rfl, rfl⟩ := h
  rfl

theorem sorted_congr {references other : List Reference} (h : other.Perm references) :
    sorted other = sorted references := by
  have hsorted (references : List Reference) : (sorted references).Pairwise
      fun first second ↦ first.place ≤ second.place := List.pairwise_insertionSort _ _
  have hperm : (sorted other).Perm (sorted references) :=
    (List.perm_insertionSort _ _).trans (h.trans (List.perm_insertionSort _ _).symm)
  refine List.Perm.eq_of_pairwise ?_ (hsorted other) (hsorted references) hperm
  exact fun _ _ _ _ hle hge ↦ Reference.place_injective (le_antisymm hle hge)

/-! ### One reference -/

/-- Why a reference is refused. -/
inductive Blocked (platform : Platform) (catalogue : Catalogue) (walk : Walk)
    (reference : Reference) (depth : ℕ) : Prop
  | unusable (h : ¬reference.Usable platform)
  | conflict {held : Reference} (hheld : held ∈ walk.pinned)
    (hid : held.stableId = reference.stableId) (hne : held.toTarget ≠ reference.toTarget)
  | deep (hnew : ∀ held ∈ walk.pinned, held.stableId ≠ reference.stableId) (h : maxDepth < depth)
  | full (hnew : ∀ held ∈ walk.pinned, held.stableId ≠ reference.stableId)
    (h : maxNodes ≤ walk.found.length)
  | unread (h : ∀ requires, ¬Requires catalogue reference.toTarget requires)
  | wide {requires : List Reference}
    (hnew : ∀ held ∈ walk.pinned, held.stableId ≠ reference.stableId)
    (hrequires : Requires catalogue reference.toTarget requires)
    (h : maxEdges < walk.edges + requires.length)

/-- The object of a reference is found. -/
structure Found (platform : Platform) (catalogue : Catalogue) (walk : Walk)
    (reference : Reference) (depth : ℕ) (node : Node) : Prop where
  usable : reference.Usable platform
  new : ∀ held ∈ walk.pinned, held.stableId ≠ reference.stableId
  is_reference : node.reference = reference
  examined : examine catalogue reference.toTarget = .ok (.node node.revision node.requires)
  at_depth : node.depth = depth
  near : depth ≤ maxDepth
  nodes : walk.found.length < maxNodes
  edges : walk.edges + node.requires.length ≤ maxEdges

/-- The walk with an object more. -/
def Walk.add (walk : Walk) (node : Node) : Walk :=
  { walk with
    pinned := node.reference :: walk.pinned
    frontier := walk.frontier ++ node.requires.map fun item ↦ (item, node.depth + 1)
    found := node :: walk.found
    edges := walk.edges + node.requires.length }

/-- What becomes of one reference: its object was found before, is found, or is refused. -/
theorem visit_cases {walk next : Walk} {reference : Reference} {depth : ℕ}
    (h : visit platform catalogue walk reference depth = .ok next) :
    (next = walk ∧ reference.Usable platform ∧
        ∃ held ∈ walk.pinned, held.toTarget = reference.toTarget) ∨
      (∃ node, Found platform catalogue walk reference depth node ∧ next = walk.add node) ∨
      (Blocked platform catalogue walk reference depth ∧
        (∃ refusal, next.refusals = refusal :: walk.refusals) ∧
        (next.halted = true ∨ next.frontier = walk.frontier ∧ next.edges = walk.edges)) := by
  rw [visit] at h
  by_cases hvariant : reference.hasVariant = true
  · rw [if_pos hvariant] at h
    obtain rfl := Except.ok.inj h
    exact .inr (.inr ⟨.unusable fun husable ↦ by simp [husable.1] at hvariant, ⟨_, rfl⟩,
      .inr ⟨rfl, rfl⟩⟩)
  rw [if_neg hvariant] at h
  by_cases hexact : exact platform reference = true
  case neg =>
    rw [if_pos (by simpa using hexact)] at h
    obtain rfl := Except.ok.inj h
    exact .inr (.inr ⟨.unusable fun husable ↦ hexact husable.2, ⟨_, rfl⟩, .inr ⟨rfl, rfl⟩⟩)
  rw [if_neg (by simpa using hexact)] at h
  have husable : reference.Usable platform := ⟨by simpa using hvariant, hexact⟩
  split at h
  · next held hfind =>
    have hid : held.stableId = reference.stableId := by simpa using List.find?_some hfind
    have hheld := List.mem_of_find?_eq_some hfind
    split_ifs at h with hother
    · obtain rfl := Except.ok.inj h
      refine .inr (.inr ⟨.conflict hheld hid fun hsame ↦ ?_, ⟨_, rfl⟩, .inr ⟨rfl, rfl⟩⟩)
      have hversion := congrArg Target.version hsame
      have hdigest := congrArg Target.passportDigest hsame
      exact hother.elim (fun hne ↦ hne hversion) fun hne ↦ hne hdigest
    · obtain rfl := Except.ok.inj h
      push Not at hother
      exact .inl ⟨rfl, husable, held, hheld,
        Target.ext_iff.mpr ⟨hid, hother.1, hother.2⟩⟩
  · next hfind =>
    have hnew : ∀ held ∈ walk.pinned, held.stableId ≠ reference.stableId := by
      simpa [List.find?_eq_none] using hfind
    rw [discover] at h
    by_cases hdeep : depth > maxDepth
    · rw [if_pos hdeep] at h
      obtain rfl := Except.ok.inj h
      exact .inr (.inr ⟨.deep hnew hdeep, ⟨_, rfl⟩, .inr ⟨rfl, rfl⟩⟩)
    rw [if_neg hdeep] at h
    by_cases hfull : walk.found.length ≥ maxNodes
    · rw [if_pos hfull] at h
      obtain rfl := Except.ok.inj h
      exact .inr (.inr ⟨.full hnew hfull, ⟨_, rfl⟩, .inr ⟨rfl, rfl⟩⟩)
    rw [if_neg hfull] at h
    split at h
    · cases h
    · next code summary details hexamine =>
      obtain rfl := Except.ok.inj h
      refine .inr (.inr ⟨.unread ?_, ⟨_, rfl⟩, .inr ⟨rfl, rfl⟩⟩)
      rintro requires ⟨revision, hnode⟩
      rw [hexamine] at hnode
      cases hnode
    · next revision requires hexamine =>
      dsimp only at h
      split_ifs at h with hwide
      · obtain rfl := Except.ok.inj h
        exact .inr (.inr ⟨.wide hnew ⟨revision, hexamine⟩ hwide, ⟨_, rfl⟩, .inl rfl⟩)
      · obtain rfl := Except.ok.inj h
        exact .inr (.inl ⟨⟨reference, revision, requires, depth⟩,
          ⟨husable, hnew, rfl, hexamine, rfl, not_lt.mp hdeep, not_le.mp hfull, not_lt.mp hwide⟩,
          rfl⟩)

/-! ### Chains of requirements -/

/-- The objects that are walked from an object, or from the roots. -/
def expand (catalogue : Catalogue) (roots : List Reference) :
    Option Target → Except Unit (List (Option Target))
  | none => .ok ((sorted roots).map fun root ↦ some root.toTarget)
  | some target =>
    match examine catalogue target with
    | .ok (.node _ requires) => .ok (requires.map fun item ↦ some item.toTarget)
    | _ => .error ()

theorem mem_sorted {references : List Reference} {reference : Reference} :
    reference ∈ sorted references ↔ reference ∈ references :=
  List.mem_insertionSort _

theorem link_start {target : Option Target} :
    Distances.Link (expand catalogue roots) none target ↔
      ∃ root ∈ roots, some root.toTarget = target := by
  simp [Distances.Link, expand, mem_sorted]

theorem expand_eq_ok {targets : List (Option Target)} :
    expand catalogue roots (some target) = .ok targets ↔
      ∃ requires, Requires catalogue target requires ∧
        requires.map (fun item ↦ some item.toTarget) = targets := by
  rw [expand]
  split
  · next revision requires hexamine =>
    rw [Except.ok.injEq]
    refine ⟨fun h ↦ ⟨requires, ⟨revision, hexamine⟩, h⟩, ?_⟩
    rintro ⟨other, hother, rfl⟩
    rw [Requires.unique hother ⟨revision, hexamine⟩]
  · next hnone =>
    refine ⟨nofun, ?_⟩
    rintro ⟨requires, ⟨revision, hexamine⟩, -⟩
    exact absurd hexamine (hnone revision requires)

theorem link_some {other : Option Target} :
    Distances.Link (expand catalogue roots) (some target) other ↔
      ∃ requires, Requires catalogue target requires ∧
        ∃ item ∈ requires, some item.toTarget = other := by
  simp only [Distances.Link, expand_eq_ok]
  constructor
  · rintro ⟨_, ⟨requires, hrequires, rfl⟩, hmem⟩
    exact ⟨requires, hrequires, List.mem_map.mp hmem⟩
  · rintro ⟨requires, hrequires, hitem⟩
    exact ⟨_, ⟨requires, hrequires, rfl⟩, List.mem_map.mpr hitem⟩

theorem At.path {depth : ℕ} {reference : Reference} (h : At catalogue roots depth reference) :
    Distances.Path (Distances.Link (expand catalogue roots)) none (depth + 1)
      (some reference.toTarget) := by
  induction h with
  | root hroot => exact .step .refl (link_start.mpr ⟨_, hroot, rfl⟩)
  | required _ hrequires hnext ih => exact ih.step (link_some.mpr ⟨_, hrequires, _, hnext, rfl⟩)

/-! ### Walks without a refusal -/

/-- The entries of a walk with their distances from the start of all chains. -/
def Walk.pending (walk : Walk) : List (Option Target × ℕ) :=
  walk.frontier.map fun entry ↦ (some entry.1.toTarget, entry.2 + 1)

def Walk.seen (walk : Walk) : List (Option Target × ℕ) :=
  walk.found.map (fun node ↦ (some node.reference.toTarget, node.depth + 1)) ++ [(none, 0)]

/-- A usable reference to an object that was found. -/
def Settled (platform : Platform) (walk : Walk) (reference : Reference) : Prop :=
  reference.Usable platform ∧ ∃ node ∈ walk.found, node.reference.toTarget = reference.toTarget

/-- What a walk keeps until its first refusal. -/
structure Clean (platform : Platform) (catalogue : Catalogue) (roots : List Reference)
    (walk : Walk) : Prop where
  refusals : walk.refusals = []
  running : walk.halted = false
  kept : Distances.Kept (expand catalogue roots) none walk.pending walk.seen
  pinned : walk.pinned = walk.found.map Node.reference
  reached : ∀ entry ∈ walk.frontier, At catalogue roots entry.2 entry.1
  found_reached : ∀ node ∈ walk.found, At catalogue roots node.depth node.reference
  usable : ∀ node ∈ walk.found, node.reference.Usable platform
  examined : ∀ node ∈ walk.found,
    examine catalogue node.reference.toTarget = .ok (.node node.revision node.requires)
  near : ∀ node ∈ walk.found, node.depth ≤ maxDepth
  from_roots : ∀ root ∈ roots, Settled platform walk root ∨ (root, 0) ∈ walk.frontier
  from_found : ∀ node ∈ walk.found, ∀ item ∈ node.requires,
    Settled platform walk item ∨ (item, node.depth + 1) ∈ walk.frontier
  ids : (walk.found.map fun node ↦ node.reference.stableId).Nodup
  nodes : walk.found.length ≤ maxNodes
  edges : walk.edges = roots.length + (walk.found.map fun node ↦ node.requires.length).sum
  bound : walk.found ≠ [] → walk.edges ≤ maxEdges

theorem Clean.start : Clean platform catalogue roots (.start (sorted roots)) where
  refusals := rfl
  running := rfl
  kept := by
    have hfirst : Distances.Kept (expand catalogue roots) none [(none, 0)] [] := .first none
    have hroots : expand catalogue roots none =
        .ok ((sorted roots).map fun root ↦ some root.toTarget) := rfl
    have hkept := hfirst.step (by simp) hroots
    simpa [Walk.pending, Walk.seen, Walk.start, Function.comp_def] using hkept
  pinned := rfl
  reached := by
    intro entry hentry
    obtain ⟨root, hroot, rfl⟩ := List.mem_map.mp hentry
    exact .root (mem_sorted.mp hroot)
  found_reached := nofun
  usable := nofun
  examined := nofun
  near := nofun
  from_roots := fun root hroot ↦ .inr (List.mem_map_of_mem (mem_sorted.mpr hroot))
  from_found := nofun
  ids := .nil
  nodes := Nat.zero_le _
  edges := by simp [Walk.start, sorted]
  bound := nofun

theorem Settled.mono {walk next : Walk} {reference : Reference}
    (h : Settled platform walk reference) (hfound : ∀ node ∈ walk.found, node ∈ next.found) :
    Settled platform next reference := by
  obtain ⟨husable, node, hnode, hsame⟩ := h
  exact ⟨husable, node, hfound node hnode, hsame⟩

variable {node : Node}

section Step

variable {walk : Walk} {reference : Reference} {depth : ℕ} {rest : List (Reference × ℕ)}

section

variable (h : Clean platform catalogue roots walk)
include h

theorem Clean.first_reached (hfrontier : walk.frontier = (reference, depth) :: rest) :
    At catalogue roots depth reference :=
  h.reached (reference, depth) (by rw [hfrontier]; exact List.mem_cons_self)

/-- A settled reference leaves the queue. -/
theorem Clean.skip (hfrontier : walk.frontier = (reference, depth) :: rest)
    (hsettled : Settled platform walk reference) :
    Clean platform catalogue roots { walk with frontier := rest } := by
  have hstays {item : Reference} {count : ℕ}
      (hitem : Settled platform walk item ∨ (item, count) ∈ walk.frontier) :
      Settled platform walk item ∨ (item, count) ∈ rest := by
    rcases hitem with hitem | hmem
    · exact .inl hitem
    · rw [hfrontier] at hmem
      rcases List.mem_cons.mp hmem with heq | hmem
      · exact .inl ((Prod.mk.inj heq).1 ▸ hsettled)
      · exact .inr hmem
  have hkept := h.kept
  rw [Walk.pending, hfrontier, List.map_cons] at hkept
  refine { h with
    kept := hkept.skip ?_
    reached := fun entry hentry ↦ h.reached entry
      (by rw [hfrontier]; exact List.mem_cons_of_mem _ hentry)
    from_roots := fun root hroot ↦ hstays (h.from_roots root hroot)
    from_found := fun node hnode item hitem ↦ hstays (h.from_found node hnode item hitem) }
  obtain ⟨-, node, hnode, hsame⟩ := hsettled
  rw [Walk.seen, List.map_append, List.map_map]
  exact List.mem_append_left _ (List.mem_map.mpr ⟨node, hnode, by rw [← hsame]; rfl⟩)

theorem Clean.not_seen (hnew : ∀ held ∈ walk.pinned, held.stableId ≠ reference.stableId) :
    some reference.toTarget ∉ walk.seen.map Prod.fst := by
  rw [Walk.seen, List.map_append, List.map_map, List.mem_append, not_or]
  refine ⟨fun hmem ↦ ?_, by simp⟩
  obtain ⟨node, hnode, hsame⟩ := List.mem_map.mp hmem
  refine hnew node.reference (by rw [h.pinned]; exact List.mem_map_of_mem hnode) ?_
  exact congrArg Target.stableId (Option.some.inj hsame)

/-- A new object is found, and the references that it requires join the queue. -/
theorem Clean.add (hfrontier : walk.frontier = (reference, depth) :: rest)
    (hfound : Found platform catalogue { walk with frontier := rest } reference depth node) :
    Clean platform catalogue roots (Walk.add { walk with frontier := rest } node) := by
  obtain ⟨husable, hnew, rfl, hexamined, rfl, hnear, hnodes, hedges⟩ := hfound
  dsimp only at hnew hnodes hedges
  have hat := h.first_reached hfrontier
  have hrequires : Requires catalogue node.reference.toTarget node.requires := ⟨_, hexamined⟩
  have hstays {item : Reference} {count : ℕ}
      (hitem : Settled platform walk item ∨ (item, count) ∈ walk.frontier) :
      Settled platform (Walk.add { walk with frontier := rest } node) item ∨
        (item, count) ∈ (Walk.add { walk with frontier := rest } node).frontier := by
    rcases hitem with hitem | hmem
    · exact .inl (hitem.mono fun other hother ↦ List.mem_cons_of_mem _ hother)
    · rw [hfrontier] at hmem
      rcases List.mem_cons.mp hmem with heq | hmem
      · obtain ⟨rfl, -⟩ := Prod.mk.inj heq
        exact .inl ⟨husable, node, List.mem_cons_self, rfl⟩
      · exact .inr (List.mem_append_left _ hmem)
  have hkept := h.kept
  rw [Walk.pending, hfrontier, List.map_cons] at hkept
  have hstep := hkept.step (h.not_seen hnew) (expand_eq_ok.mpr ⟨_, hrequires, rfl⟩)
  refine
    { refusals := h.refusals
      running := h.running
      kept := ?_
      pinned := ?_
      reached := ?_
      found_reached := List.forall_mem_cons.mpr ⟨hat, h.found_reached⟩
      usable := List.forall_mem_cons.mpr ⟨husable, h.usable⟩
      examined := List.forall_mem_cons.mpr ⟨hexamined, h.examined⟩
      near := List.forall_mem_cons.mpr ⟨hnear, h.near⟩
      from_roots := fun root hroot ↦ hstays (h.from_roots root hroot)
      from_found := ?_
      ids := ?_
      nodes := hnodes
      edges := ?_
      bound := fun _ ↦ hedges }
  · simpa [Walk.pending, Walk.seen, Walk.add, Function.comp_def] using hstep
  · rw [Walk.add, List.map_cons, ← h.pinned]
  · intro entry hentry
    rcases List.mem_append.mp hentry with hentry | hentry
    · exact h.reached entry (by rw [hfrontier]; exact List.mem_cons_of_mem _ hentry)
    · obtain ⟨item, hitem, rfl⟩ := List.mem_map.mp hentry
      exact hat.required hrequires hitem
  · refine List.forall_mem_cons.mpr ⟨fun item hitem ↦ ?_, fun other hother item hitem ↦
      hstays (h.from_found other hother item hitem)⟩
    exact .inr (List.mem_append_right _ (List.mem_map_of_mem hitem))
  · rw [Walk.add, List.map_cons, List.nodup_cons]
    refine ⟨fun hmem ↦ ?_, h.ids⟩
    obtain ⟨other, hother, hsame⟩ := List.mem_map.mp hmem
    exact hnew other.reference (by rw [h.pinned]; exact List.mem_map_of_mem hother) hsame
  · rw [Walk.add, List.map_cons, List.sum_cons]
    have hedges := h.edges
    dsimp only
    omega

end

/-! ### The first refusal -/

theorem Clean.member (h : Clean platform catalogue roots walk) (hnode : node ∈ walk.found) :
    Member catalogue roots node.reference.toTarget :=
  ⟨_, ⟨_, h.found_reached node hnode⟩, rfl⟩

/-- The objects of a walk. -/
def Walk.targets (walk : Walk) : Finset Target :=
  (walk.found.map fun node ↦ node.reference.toTarget).toFinset

theorem Walk.mem_targets :
    target ∈ walk.targets ↔ ∃ node ∈ walk.found, node.reference.toTarget = target := by
  simp [Walk.targets]

section

variable (h : Clean platform catalogue roots walk)
include h

theorem Clean.targets_nodup : (walk.found.map fun node ↦ node.reference.toTarget).Nodup := by
  refine List.Nodup.of_map Target.stableId ?_
  rw [List.map_map]
  exact h.ids

theorem Clean.card_targets : walk.targets.card = walk.found.length := by
  rw [Walk.targets, List.toFinset_card_of_nodup h.targets_nodup, List.length_map]

theorem Clean.sum_targets :
    roots.length + ∑ target ∈ walk.targets, (requirementsOf catalogue target).length =
      walk.edges := by
  rw [Walk.targets, List.sum_toFinset _ h.targets_nodup, List.map_map, h.edges]
  congr 2
  refine List.map_congr_left fun node hnode ↦ ?_
  rw [Function.comp_apply, requirementsOf_eq ⟨_, h.examined node hnode⟩]

theorem Clean.not_mem_targets (hnew : ∀ held ∈ walk.pinned, held.stableId ≠ reference.stableId) :
    reference.toTarget ∉ walk.targets := by
  intro hmem
  obtain ⟨node, hnode, hsame⟩ := Walk.mem_targets.mp hmem
  refine hnew node.reference (by rw [h.pinned]; exact List.mem_map_of_mem hnode) ?_
  exact congrArg Target.stableId hsame

/-- A reference that is refused first shows that the closure is not complete. -/
theorem Clean.blocked (hfrontier : walk.frontier = (reference, depth) :: rest)
    (hblocked : Blocked platform catalogue { walk with frontier := rest } reference depth) :
    ¬Complete platform catalogue roots := by
  intro hcomplete
  have hat := h.first_reached hfrontier
  have hmember : Member catalogue roots reference.toTarget := ⟨_, ⟨_, hat⟩, rfl⟩
  have hwith : ∀ target ∈ insert reference.toTarget walk.targets,
      Member catalogue roots target := by
    intro target htarget
    rcases Finset.mem_insert.mp htarget with rfl | htarget
    · exact hmember
    · obtain ⟨node, hnode, rfl⟩ := Walk.mem_targets.mp htarget
      exact h.member hnode
  cases hblocked with
  | unusable hunusable => exact hunusable (hcomplete.usable reference ⟨_, hat⟩)
  | conflict hheld hid hne =>
    dsimp only at hheld
    rw [h.pinned] at hheld
    obtain ⟨node, hnode, rfl⟩ := List.mem_map.mp hheld
    exact hne (hcomplete.agree _ _ (h.member hnode) hmember hid)
  | deep hnew hdeep =>
    obtain ⟨other, hle, same, hother, hsame⟩ := hcomplete.near _ hmember
    have hkept := h.kept
    rw [Walk.pending, hfrontier, List.map_cons] at hkept
    have hshortest := (hkept.distance (h.not_seen hnew)).2 (other + 1) (hsame ▸ hother.path)
    omega
  | full hnew hfull =>
    have hcard := hcomplete.nodes _ hwith
    rw [Finset.card_insert_of_notMem (h.not_mem_targets hnew), h.card_targets] at hcard
    dsimp only at hfull
    omega
  | unread hunread =>
    obtain ⟨requires, hrequires⟩ := hcomplete.held _ hmember
    exact hunread requires hrequires
  | wide hnew hrequires hwide =>
    have hsum := hcomplete.edges _ (Finset.insert_nonempty _ _) hwith
    rw [Finset.sum_insert (h.not_mem_targets hnew), requirementsOf_eq hrequires] at hsum
    have hedges := h.sum_targets
    dsimp only at hwide
    omega

end

end Step

/-! ### Whole walks -/

theorem loop_refusals {fuel : ℕ} {walk final : Walk} (h : walk.refusals ≠ [])
    (hloop : loop platform catalogue fuel walk = .ok final) : final.refusals ≠ [] := by
  induction fuel generalizing walk with
  | zero =>
    obtain rfl := Except.ok.inj hloop
    exact h
  | succ fuel ih =>
    rw [loop] at hloop
    by_cases hhalted : walk.halted = true
    · rw [if_pos hhalted] at hloop
      obtain rfl := Except.ok.inj hloop
      exact h
    rw [if_neg hhalted] at hloop
    split at hloop
    · obtain rfl := Except.ok.inj hloop
      exact h
    · obtain ⟨next, hvisit, hrest⟩ := bind_eq_ok.mp hloop
      refine ih ?_ hrest
      rcases visit_cases hvisit with ⟨rfl, -⟩ | ⟨node, -, rfl⟩ | ⟨-, ⟨refusal, hrefusals⟩, -⟩
      · exact h
      · exact h
      · rw [hrefusals]
        exact List.cons_ne_nil _ _

/-- With a step for every requirement the loop comes to its end. -/
theorem loop_done {limit fuel : ℕ} {walk final : Walk} (hlimit : maxEdges ≤ limit)
    (hfuel : walk.frontier.length + (limit - walk.edges) ≤ fuel)
    (hloop : loop platform catalogue fuel walk = .ok final) :
    final.halted = true ∨ final.frontier = [] := by
  induction fuel generalizing walk with
  | zero =>
    obtain rfl := Except.ok.inj hloop
    exact .inr (List.length_eq_zero_iff.mp (by omega))
  | succ fuel ih =>
    rw [loop] at hloop
    by_cases hhalted : walk.halted = true
    · rw [if_pos hhalted] at hloop
      obtain rfl := Except.ok.inj hloop
      exact .inl hhalted
    rw [if_neg hhalted] at hloop
    split at hloop
    · next hfrontier =>
      obtain rfl := Except.ok.inj hloop
      exact .inr hfrontier
    · next reference depth rest hfrontier =>
      obtain ⟨next, hvisit, hrest⟩ := bind_eq_ok.mp hloop
      rw [hfrontier, List.length_cons] at hfuel
      rcases visit_cases hvisit with ⟨rfl, -⟩ | ⟨node, hfound, rfl⟩ | ⟨-, -, hnext⟩
      · refine ih ?_ hrest
        dsimp only
        omega
      · refine ih ?_ hrest
        have hedges := hfound.edges
        simp only [Walk.add, List.length_append, List.length_map] at hedges ⊢
        omega
      · rcases hnext with hhalted | ⟨hsame, hedges⟩
        · cases fuel with
          | zero =>
            obtain rfl := Except.ok.inj hrest
            exact .inl hhalted
          | succ fuel =>
            rw [loop, if_pos hhalted] at hrest
            obtain rfl := Except.ok.inj hrest
            exact .inl hhalted
        · refine ih ?_ hrest
          rw [hsame, hedges]
          dsimp only
          omega

theorem visit_eq_error {walk : Walk} {reference : Reference} {depth : ℕ} {failure : Failure}
    (h : visit platform catalogue walk reference depth = .error failure) :
    examine catalogue reference.toTarget = .error failure := by
  rw [visit] at h
  split_ifs at h
  split at h
  · split_ifs at h
  · rw [discover] at h
    split_ifs at h
    split at h
    · next other hexamine =>
      obtain rfl := Except.error.inj h
      exact hexamine
    · cases h
    · dsimp only at h
      split_ifs at h

/-- A walk ends early only where the registry fails. -/
theorem loop_eq_error {fuel : ℕ} {walk : Walk} {failure : Failure}
    (h : ∀ entry ∈ walk.frontier, At catalogue roots entry.2 entry.1)
    (hloop : loop platform catalogue fuel walk = .error failure) :
    ∃ target, Member catalogue roots target ∧ examine catalogue target = .error failure := by
  induction fuel generalizing walk with
  | zero => cases hloop
  | succ fuel ih =>
    rw [loop] at hloop
    split_ifs at hloop with hhalted
    split at hloop
    · cases hloop
    · next reference depth rest hfrontier =>
      rw [hfrontier, List.forall_mem_cons] at h
      cases hvisit : visit platform catalogue { walk with frontier := rest } reference depth with
      | error other =>
        rw [hvisit] at hloop
        obtain rfl := Except.error.inj hloop
        exact ⟨_, ⟨reference, ⟨depth, h.1⟩, rfl⟩, visit_eq_error hvisit⟩
      | ok next =>
        rw [hvisit] at hloop
        rcases visit_cases hvisit with ⟨rfl, -⟩ | ⟨node, hfound, rfl⟩ | ⟨-, -, hnext⟩
        · exact ih h.2 hloop
        · refine ih (fun entry hentry ↦ ?_) hloop
          rcases List.mem_append.mp hentry with hentry | hentry
          · exact h.2 entry hentry
          · obtain ⟨item, hitem, rfl⟩ := List.mem_map.mp hentry
            have hat := h.1
            rw [← hfound.is_reference, ← hfound.at_depth] at hat
            exact hat.required ⟨_, hfound.is_reference ▸ hfound.examined⟩ hitem
        · rcases hnext with hhalted | ⟨hsame, -⟩
          · cases fuel with
            | zero => cases hloop
            | succ fuel =>
              rw [Except.bind, loop, if_pos hhalted] at hloop
              cases hloop
          · exact ih (by rw [hsame]; exact h.2) hloop

/-- A walk stays clean, or its refusals show that the closure is not complete. -/
theorem Clean.loop {fuel : ℕ} {walk final : Walk} (h : Clean platform catalogue roots walk)
    (hloop : loop platform catalogue fuel walk = .ok final) :
    Clean platform catalogue roots final ∨
      final.refusals ≠ [] ∧ ¬Complete platform catalogue roots := by
  induction fuel generalizing walk with
  | zero =>
    obtain rfl := Except.ok.inj hloop
    exact .inl h
  | succ fuel ih =>
    rw [Selection.loop, if_neg (by simp [h.running])] at hloop
    split at hloop
    · obtain rfl := Except.ok.inj hloop
      exact .inl h
    · next reference depth rest hfrontier =>
      obtain ⟨next, hvisit, hrest⟩ := bind_eq_ok.mp hloop
      rcases visit_cases hvisit with ⟨rfl, husable, held, hheld, hsame⟩ | ⟨node, hfound, rfl⟩ |
        ⟨hblocked, ⟨refusal, hrefusals⟩, -⟩
      · refine ih (h.skip hfrontier ⟨husable, ?_⟩) hrest
        dsimp only at hheld
        rw [h.pinned] at hheld
        obtain ⟨node, hnode, rfl⟩ := List.mem_map.mp hheld
        exact ⟨node, hnode, hsame⟩
      · exact ih (h.add hfrontier hfound) hrest
      · refine .inr ⟨loop_refusals ?_ hrest, h.blocked hfrontier hblocked⟩
        rw [hrefusals]
        exact List.cons_ne_nil _ _

/-! ### The end of a walk -/

section Done

variable {walk : Walk}

section

variable (h : Clean platform catalogue roots walk)
include h

/-- A clean walk that ends has found the object of every reference. -/
theorem Clean.settled (hdone : walk.frontier = []) {depth : ℕ} {reference : Reference}
    (hat : At catalogue roots depth reference) : Settled platform walk reference := by
  induction hat with
  | root hroot => exact (h.from_roots _ hroot).resolve_right (by simp [hdone])
  | required _ hrequires hnext ih =>
    obtain ⟨-, node, hnode, hsame⟩ := ih
    have hread : Requires catalogue node.reference.toTarget node.requires :=
      ⟨_, h.examined node hnode⟩
    rw [hsame] at hread
    rw [hrequires.unique hread] at hnext
    exact (h.from_found node hnode _ hnext).resolve_right (by simp [hdone])

theorem Clean.member_iff (hdone : walk.frontier = []) :
    Member catalogue roots target ↔ ∃ node ∈ walk.found, node.reference.toTarget = target := by
  constructor
  · rintro ⟨reference, ⟨depth, hat⟩, rfl⟩
    exact (h.settled hdone hat).2
  · rintro ⟨node, hnode, rfl⟩
    exact h.member hnode

theorem Clean.complete (hdone : walk.frontier = []) : Complete platform catalogue roots := by
  have hsubset {targets : Finset Target}
      (htargets : ∀ target ∈ targets, Member catalogue roots target) : targets ⊆ walk.targets :=
    fun target htarget ↦ Walk.mem_targets.mpr ((h.member_iff hdone).mp (htargets target htarget))
  refine ⟨?_, ?_, ?_, ?_, ?_, ?_⟩
  · rintro reference ⟨depth, hat⟩
    exact (h.settled hdone hat).1
  · intro first second hfirst hsecond hid
    obtain ⟨node, hnode, rfl⟩ := (h.member_iff hdone).mp hfirst
    obtain ⟨other, hother, rfl⟩ := (h.member_iff hdone).mp hsecond
    rw [List.inj_on_of_nodup_map h.ids hnode hother hid]
  · intro target hmember
    obtain ⟨node, hnode, rfl⟩ := (h.member_iff hdone).mp hmember
    exact ⟨_, _, h.examined node hnode⟩
  · intro target hmember
    obtain ⟨node, hnode, rfl⟩ := (h.member_iff hdone).mp hmember
    exact ⟨node.depth, h.near node hnode, node.reference, h.found_reached node hnode, rfl⟩
  · intro targets htargets
    have hcard := Finset.card_le_card (hsubset htargets)
    rw [h.card_targets] at hcard
    exact hcard.trans h.nodes
  · intro targets hnonempty htargets
    have hsum := Finset.sum_le_sum_of_subset (f := fun target ↦
      (requirementsOf catalogue target).length) (hsubset htargets)
    have hbound : walk.edges ≤ maxEdges := by
      refine h.bound fun hnil ↦ ?_
      obtain ⟨target, htarget⟩ := hnonempty
      obtain ⟨node, hnode, -⟩ := Walk.mem_targets.mp (hsubset htargets htarget)
      rw [hnil] at hnode
      cases hnode
    have hedges := h.sum_targets
    omega

end

/-! ### The order of the objects -/

variable {found : List Node}

theorem mem_entries {entry : String × List String} :
    entry ∈ entries found ↔ ∃ node ∈ found, (node.reference.stableId,
      ((node.requires.map fun item ↦ item.stableId).filter
        (· ∈ found.map fun node ↦ node.reference.stableId)).dedup) = entry := by
  rw [entries, List.mem_insertionSort, List.mem_map]

theorem perm_entries (found : List Node) :
    ((entries found).map Prod.fst).Perm (found.map fun node ↦ node.reference.stableId) := by
  have hperm := (List.perm_insertionSort (fun first second ↦ first.1 ≤ second.1)
    (found.map fun node ↦ (node.reference.stableId,
      ((node.requires.map fun item ↦ item.stableId).filter
        (· ∈ found.map fun node ↦ node.reference.stableId)).dedup))).map Prod.fst
  rwa [List.map_map] at hperm

theorem mem_needsOf (hids : (found.map fun node ↦ node.reference.stableId).Nodup)
    {child need : String} :
    need ∈ Rounds.needsOf (entries found) child ↔
      ∃ node ∈ found, node.reference.stableId = child ∧
        (∃ item ∈ node.requires, item.stableId = need) ∧
        need ∈ found.map fun node ↦ node.reference.stableId := by
  have hnodup : ((entries found).map Prod.fst).Nodup := (perm_entries found).nodup_iff.mpr hids
  rw [Rounds.needsOf]
  cases hlookup : (entries found).lookup child with
  | none =>
    refine ⟨fun hneed ↦ absurd hneed List.not_mem_nil, ?_⟩
    rintro ⟨node, hnode, rfl, -⟩
    have hentry := mem_entries.mpr ⟨node, hnode, rfl⟩
    rw [(Distances.lookup_eq_some_iff_mem hnodup).mpr hentry] at hlookup
    cases hlookup
  | some needs =>
    obtain ⟨node, hnode, hentry⟩ :=
      mem_entries.mp ((Distances.lookup_eq_some_iff_mem hnodup).mp hlookup)
    obtain ⟨rfl, rfl⟩ := Prod.mk.inj hentry
    rw [Option.getD_some, List.mem_dedup, List.mem_filter, List.mem_map, decide_eq_true_eq]
    constructor
    · rintro ⟨hitem, hheld⟩
      exact ⟨node, hnode, rfl, hitem, hheld⟩
    · rintro ⟨other, hother, hid, hitem, hheld⟩
      obtain rfl := List.inj_on_of_nodup_map hids hother hnode hid
      exact ⟨hitem, hheld⟩

variable (h : Clean platform catalogue roots walk)

include h in
theorem Clean.mem_needsOf_iff (hdone : walk.frontier = []) {child need : String} :
    need ∈ Rounds.needsOf (entries walk.found) child ↔ Edge catalogue roots child need := by
  rw [mem_needsOf h.ids]
  constructor
  · rintro ⟨node, hnode, rfl, hitem, -⟩
    refine ⟨_, h.member hnode, rfl, ?_⟩
    rwa [requirementsOf_eq ⟨_, h.examined node hnode⟩]
  · rintro ⟨target, hmember, rfl, item, hitem, rfl⟩
    obtain ⟨node, hnode, rfl⟩ := (h.member_iff hdone).mp hmember
    rw [requirementsOf_eq ⟨_, h.examined node hnode⟩] at hitem
    refine ⟨node, hnode, rfl, ⟨item, hitem, rfl⟩, ?_⟩
    obtain ⟨-, other, hother, hsame⟩ := h.settled hdone
      ((h.found_reached node hnode).required ⟨_, h.examined node hnode⟩ hitem)
    exact List.mem_map.mpr ⟨other, hother, congrArg Target.stableId hsame⟩

include h in
/-- The order of the objects, and what is left when they require each other. -/
theorem Clean.ordered (hdone : walk.frontier = []) :
    Rounds.Sorted (entries walk.found) (Selection.ordered walk.found).1 ∧
      ((Selection.ordered walk.found).2 = [] ↔
        ¬∃ id, Relation.TransGen (Edge catalogue roots) id id) ∧
      ((Selection.ordered walk.found).2 = [] → ∀ id, id ∈ (Selection.ordered walk.found).1 ↔
        id ∈ walk.found.map fun node ↦ node.reference.stableId) := by
  have hnodup := (perm_entries walk.found).nodup_iff.mpr h.ids
  have hclosed : ∀ child, ∀ need ∈ Rounds.needsOf (entries walk.found) child,
      need ∈ (entries walk.found).map Prod.fst := by
    intro child need hneed
    obtain ⟨-, -, -, -, hheld⟩ := (mem_needsOf h.ids).mp hneed
    exact (perm_entries walk.found).mem_iff.mpr hheld
  obtain ⟨hsorted, hcircle, hall⟩ := Rounds.ordered_spec hnodup hclosed
  have hsame : (fun child need ↦ need ∈ Rounds.needsOf (entries walk.found) child) =
      Edge catalogue roots := by
    funext child need
    exact propext (h.mem_needsOf_iff hdone)
  rw [Rounds.Circular, hsame] at hcircle
  refine ⟨hsorted, hcircle, fun hnil id ↦ ?_⟩
  rw [Selection.ordered, hall hnil id, (perm_entries walk.found).mem_iff]

/-- The objects of an order, looked up. -/
def nodesOf (found : List Node) (order : List String) : List Node :=
  order.filterMap fun id ↦ found.find? fun node ↦ node.reference.stableId = id

theorem mem_of_mem_nodesOf {order : List String} (h : node ∈ nodesOf found order) :
    node ∈ found ∧ node.reference.stableId ∈ order := by
  obtain ⟨id, hid, hfind⟩ := List.mem_filterMap.mp h
  have hsame : node.reference.stableId = id := by simpa using List.find?_some hfind
  exact ⟨List.mem_of_find?_eq_some hfind, hsame ▸ hid⟩

theorem ids_nodesOf {order : List String}
    (h : ∀ id ∈ order, id ∈ found.map fun node ↦ node.reference.stableId) :
    (nodesOf found order).map (fun node ↦ node.reference.stableId) = order := by
  rw [nodesOf, List.map_filterMap]
  conv_rhs => rw [← List.filterMap_some (l := order)]
  refine List.filterMap_congr fun id hid ↦ ?_
  obtain ⟨node, hnode, hsame⟩ := List.mem_map.mp (h id hid)
  cases hfind : found.find? fun node ↦ node.reference.stableId = id with
  | none =>
    rw [List.find?_eq_none] at hfind
    exact absurd hsame (by simpa using hfind node hnode)
  | some held =>
    have hheld : held.reference.stableId = id := by simpa using List.find?_some hfind
    rw [Option.map_some, hheld]

/-! ### The resolution -/

/-- The resolution of a closure: its objects, each once, as they are read, after the objects that they
require, and at the length of a shortest chain. -/
structure Closed (catalogue : Catalogue) (roots : List Reference) (result : Resolution) :
    Prop where
  members : ∀ target, Member catalogue roots target ↔
    ∃ node ∈ result.nodes, node.reference.toTarget = target
  ids : (result.nodes.map fun node ↦ node.reference.stableId).Nodup
  read : ∀ node ∈ result.nodes,
    examine catalogue node.reference.toTarget = .ok (.node node.revision node.requires)
  after : ∀ before node after, result.nodes = before ++ node :: after →
    ∀ item ∈ node.requires, ∃ other ∈ before, other.reference.toTarget = item.toTarget
  order : result.order =
    result.nodes.map fun node ↦ node.reference.stableId ++ "@" ++ node.reference.version
  near : ∀ node ∈ result.nodes, node.depth ≤ maxDepth
  depth : ∀ node ∈ result.nodes, IsLeast {depth | ∃ reference,
    At catalogue roots depth reference ∧ reference.toTarget = node.reference.toTarget} node.depth

include h in
theorem Clean.depth (hnode : node ∈ walk.found) :
    IsLeast {depth | ∃ reference,
      At catalogue roots depth reference ∧ reference.toTarget = node.reference.toTarget}
      node.depth := by
  refine ⟨⟨_, h.found_reached node hnode, rfl⟩, ?_⟩
  rintro depth ⟨reference, hat, hsame⟩
  have hdistance := h.kept.seen_distance (some node.reference.toTarget, node.depth + 1)
    (List.mem_append_left _ (List.mem_map.mpr ⟨node, hnode, rfl⟩))
  have hle := hdistance.2 (depth + 1) (hsame ▸ hat.path)
  omega

include h in
/-- The objects of a clean walk in the order of the rounds. -/
theorem Clean.closed (hdone : walk.frontier = []) (hnil : (Selection.ordered walk.found).2 = [])
    {result : Resolution}
    (hnodes : result.nodes = nodesOf walk.found (Selection.ordered walk.found).1)
    (horder : result.order =
      result.nodes.map fun node ↦ node.reference.stableId ++ "@" ++ node.reference.version) :
    Closed catalogue roots result := by
  obtain ⟨hsorted, -, hall⟩ := h.ordered hdone
  have hids := ids_nodesOf fun id hid ↦ (hall hnil id).mp hid
  have hfound : ∀ node, node ∈ result.nodes ↔ node ∈ walk.found := by
    intro node
    rw [hnodes]
    refine ⟨fun hnode ↦ (mem_of_mem_nodesOf hnode).1, fun hnode ↦ ?_⟩
    have hid := (hall hnil _).mpr (List.mem_map_of_mem hnode)
    rw [← hids] at hid
    obtain ⟨other, hother, hsame⟩ := List.mem_map.mp hid
    rwa [← List.inj_on_of_nodup_map h.ids (mem_of_mem_nodesOf hother).1 hnode hsame]
  refine ⟨fun target ↦ ?_, ?_, fun node hnode ↦ h.examined node ((hfound node).mp hnode), ?_, horder,
    fun node hnode ↦ h.near node ((hfound node).mp hnode),
    fun node hnode ↦ h.depth ((hfound node).mp hnode)⟩
  · rw [h.member_iff hdone]
    exact exists_congr fun node ↦ and_congr_left' (hfound node).symm
  · rw [hnodes, hids]
    exact hsorted.nodup
  · intro before node after hsplit item hitem
    have hnode : node ∈ walk.found := (hfound node).mp (by rw [hsplit]; simp)
    have hneed : item.stableId ∈ Rounds.needsOf (entries walk.found) node.reference.stableId := by
      rw [h.mem_needsOf_iff hdone]
      refine ⟨_, h.member hnode, rfl, item, ?_, rfl⟩
      rwa [requirementsOf_eq ⟨_, h.examined node hnode⟩]
    rw [← hnodes, hsplit, List.map_append, List.map_cons] at hids
    obtain ⟨other, hother, hsame⟩ := List.mem_map.mp (by
      simpa using hsorted.needs _ _ _ hids.symm item.stableId hneed)
    have hheld : other ∈ walk.found :=
      (hfound other).mp (by rw [hsplit]; exact List.mem_append_left _ hother)
    exact ⟨other, hother, (h.complete hdone).agree _ _ (h.member hheld)
      ⟨item, ⟨_, (h.found_reached node hnode).required ⟨_, h.examined node hnode⟩ hitem⟩, rfl⟩ hsame⟩

end Done

/-! ### The report -/

theorem report_nodes (walk : Walk) : (report walk).nodes =
    if (report walk).refusals = [] then nodesOf walk.found (ordered walk.found).1 else [] :=
  rfl

theorem report_order (walk : Walk) : (report walk).order =
    (report walk).nodes.map fun node ↦ node.reference.stableId ++ "@" ++ node.reference.version :=
  rfl

theorem report_resolved {walk : Walk} :
    (report walk).resolved = true ↔ (report walk).refusals = [] :=
  List.isEmpty_iff

theorem report_refusals {walk : Walk} :
    (report walk).refusals = [] ↔ walk.refusals = [] ∧ (ordered walk.found).2 = [] := by
  have hperm := List.perm_insertionSort (fun first second ↦ first.place ≤ second.place)
    (walk.refusals.reverse ++ cycleRefusals (ordered walk.found).2)
  have hcycle : cycleRefusals (ordered walk.found).2 = [] ↔ (ordered walk.found).2 = [] := by
    rw [cycleRefusals]
    split_ifs with hnil
    · simp [hnil]
    · simp [hnil]
  have hnil : (report walk).refusals = [] ↔
      walk.refusals.reverse ++ cycleRefusals (ordered walk.found).2 = [] :=
    ⟨fun hnil ↦ List.perm_nil.mp (hnil ▸ hperm.symm), fun hnil ↦ List.perm_nil.mp (hnil ▸ hperm)⟩
  rw [hnil, List.append_eq_nil_iff, List.reverse_eq_nil_iff, hcycle]

theorem resolve_eq_ok {result : Resolution} :
    resolve platform catalogue roots = .ok result ↔ ∃ walk,
      loop platform catalogue (max roots.length maxEdges) (.start (sorted roots)) = .ok walk ∧
        report walk = result := by
  rw [resolve]
  cases loop platform catalogue (max roots.length maxEdges) (.start (sorted roots)) with
  | error failure => exact ⟨nofun, nofun⟩
  | ok walk => simp [Except.map]

theorem start_done {final : Walk} (hloop : loop platform catalogue (max roots.length maxEdges)
    (.start (sorted roots)) = .ok final) : final.halted = true ∨ final.frontier = [] := by
  refine loop_done (le_max_right roots.length maxEdges) ?_ hloop
  simp only [Walk.start, List.length_map, sorted, List.length_insertionSort]
  omega

/-- A closure is resolved exactly when it is resolvable, and then the resolution holds its objects in
an order of installation. Otherwise there are refusals and no order. The resolution fails only where
the registry does, and does not depend on the order of the roots. -/
theorem resolve_exact (platform : Platform) (catalogue : Catalogue) (roots : List Reference) :
    (∀ result, resolve platform catalogue roots = .ok result →
      (result.resolved = true ↔ Resolvable platform catalogue roots) ∧
      (result.resolved = true → result.refusals = [] ∧ Closed catalogue roots result) ∧
      (result.resolved = false →
        result.refusals ≠ [] ∧ result.nodes = [] ∧ result.order = [])) ∧
    (∀ failure, resolve platform catalogue roots = .error failure →
      ∃ target, Member catalogue roots target ∧ examine catalogue target = .error failure) ∧
    ∀ other, other.Perm roots →
      resolve platform catalogue other = resolve platform catalogue roots := by
  refine ⟨fun result hresult ↦ ?_, fun failure hfailure ↦ ?_, fun other hother ↦ ?_⟩
  · obtain ⟨walk, hloop, rfl⟩ := resolve_eq_ok.mp hresult
    have hempty (hfalse : (report walk).resolved = false) :
        (report walk).refusals ≠ [] ∧ (report walk).nodes = [] ∧ (report walk).order = [] := by
      have hrefusals : (report walk).refusals ≠ [] := by simp [← report_resolved, hfalse]
      have hnodes : (report walk).nodes = [] := by rw [report_nodes, if_neg hrefusals]
      exact ⟨hrefusals, hnodes, by rw [report_order, hnodes]; rfl⟩
    rw [report_resolved, report_refusals]
    rcases Clean.start.loop hloop with hclean | ⟨hrefusals, hincomplete⟩
    · have hdone : walk.frontier = [] :=
        (start_done hloop).resolve_left (by simp [hclean.running])
      have hcircle := (hclean.ordered hdone).2.1
      refine ⟨⟨fun h ↦ ⟨hclean.complete hdone, hcircle.mp h.2⟩,
        fun h ↦ ⟨hclean.refusals, hcircle.mpr h.acyclic⟩⟩, fun h ↦ ?_, hempty⟩
      have hnil := report_refusals.mpr h
      exact ⟨h, hclean.closed hdone h.2 (by rw [report_nodes, if_pos hnil]) (report_order walk)⟩
    · exact ⟨⟨fun h ↦ absurd h.1 hrefusals, fun h ↦ absurd h.toComplete hincomplete⟩,
        fun h ↦ absurd h.1 hrefusals, hempty⟩
  · rw [resolve] at hfailure
    cases hloop : loop platform catalogue (max roots.length maxEdges) (.start (sorted roots)) with
    | ok walk =>
      rw [hloop] at hfailure
      cases hfailure
    | error held =>
      rw [hloop] at hfailure
      obtain rfl := Except.error.inj hfailure
      have hstart : Clean platform catalogue roots (.start (sorted roots)) := .start
      exact loop_eq_error hstart.reached hloop
  · rw [resolve, resolve, sorted_congr hother, hother.length_eq]

/-! ### A deleted object -/

namespace Withdrawn

def root : Reference where
  stableId := "component_01ARZ3NDEKTSV4RRFFQ69G5FAV"
  version := "1.0"
  passportDigest := "sha256:0000000000000000000000000000000000000000000000000000000000000000"
  requiredBy := ""
  hasVariant := false

def document : Json := .object [("kind", .string "component")]

/-- A registry that holds an object that needs nothing, and a tombstone for it. -/
def shelf : Catalogue where
  exactVersion := fun _ _ _ ↦ .ok document
  deleted := fun _ ↦ true

/-- Nothing is missing, disagrees, goes in a circle or exceeds a bound, and the root is refused. -/
theorem withdrawn_refused :
    (resolve asciiPlatform shelf [root]).toOption.map Resolution.resolved = some false ∧
      (∀ id version digest, shelf.exactVersion id version digest = .ok document) ∧
      ∀ id, requirements document id = [] := by
  refine ⟨?_, fun _ _ _ ↦ rfl, fun _ ↦ rfl⟩
  decide +kernel

end Withdrawn

end AiStp.Selection
