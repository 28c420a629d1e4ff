import AiStp.Foundation.Errors
import AiStp.Library.Redirects
import AiStp.Library.Runs
import AiStp.Technology.Interpretation

/-!
# Technology merges

A technology of an organization is merged into another one: the source redirects to the target, its
relations to projects and teams are moved and retired, and its facts, names and categories are added
to those of the target. A merge is planned from what is stored and applied only to that plan. What a
merge stores is read off every table (`Merged`): it keeps every current fact of the source, and
chains of redirects still end (`merge_loses_nothing`).
-/

set_option autoImplicit false

namespace AiStp.Merging

open Library Foundation Technology

/-! ### Rows -/

inductive Lifecycle where
  | draft
  | active
  | deprecated
  | archived
deriving DecidableEq

structure Technology where
  name : String
  lifecycle : Lifecycle
  restoreLifecycle : Lifecycle
  redirectId : Option String
  revision : Nat
deriving DecidableEq

structure TechnologyAlias where
  technologyId : String
  name : String
  canonical : Bool
deriving DecidableEq

structure OrganizationTechnologyDecision where
  leadAccountId : Option String
  approved : Bool
  adoption : String
  revision : Nat
deriving DecidableEq

/-- A fact with the evidence for it. -/
structure UsageFactView (Evidence : Type) where
  review : UsageReview
  version : Option String
  versionKind : VersionKind
  freshness : Freshness
  evidence : List Evidence
deriving DecidableEq

/-- The registry of an organization. Relations are held under a project and a technology,
responsibilities under a team and a technology, facts under the relation and a context. -/
structure Registry (Evidence : Type) where
  policyRevision : Nat
  technologies : Table String Technology
  aliases : Table String TechnologyAlias
  classifications : Table (String × String) Unit
  decisions : Table String OrganizationTechnologyDecision
  relations : Table (String × String) ProjectTechnologyRelation
  facts : Table ((String × String) × UsageContext) (UsageFactView Evidence)
  responsibilities : Table (String × String) ProjectTechnologyRelation

/-! ### The inputs of a merge -/

structure TechnologyView where
  technologyId : String
  row : Technology
  categoryIds : List String
  aliases : List String

/-- A pair of the source and, where there is one, the same pair of the target. -/
structure PairView where
  subjectId : String
  source : ProjectTechnologyRelation
  target : Option ProjectTechnologyRelation

structure ProjectTechnologyView (Evidence : Type) extends PairView where
  facts : List (UsageContext × UsageFactView Evidence)
  targetFacts : List (UsageContext × UsageFactView Evidence)

structure Inputs (Evidence : Type) where
  source : TechnologyView
  target : TechnologyView
  projects : List (ProjectTechnologyView Evidence)
  teams : List PairView
  decisions : List (String × OrganizationTechnologyDecision)

/-- Whether the caller has a permission on an entity. -/
abbrev Authorize := String → String → String → Except ApiError Unit

/-- What the service takes from elsewhere. -/
structure Rules (Evidence Canonical : Type) where
  normalizeTechnologyName : String → String
  canonize : Evidence → Canonical
  digest : Inputs Evidence → String

section Service

variable {Evidence Canonical : Type} [DecidableEq Canonical] (rules : Rules Evidence Canonical)
  (authorize : Authorize)

def technologyAuthority (sourceId targetId : String) : Except ApiError Unit :=
  [sourceId, targetId].forM fun technologyId ↦
    ["technology.read", "technology.merge", "technology_decision.read"].forM fun permission ↦
      authorize permission "technology" technologyId

def projectAuthority (projectId targetAction : String) : Except ApiError Unit :=
  ["project.read", "project_technology.read", "project_technology.delete",
    "project_technology." ++ targetAction].forM fun permission ↦
      authorize permission "project" projectId

def teamAuthority (sourceId targetId teamId targetAction : String) : Except ApiError Unit := do
  authorize "team.read" "team" teamId
  [(sourceId, "delete"), (targetId, targetAction)].forM fun (technologyId, action) ↦
    ["technology_team.read", "technology_team." ++ action].forM fun permission ↦
      authorize permission "technology" technologyId

def targetAction (target : Option ProjectTechnologyRelation) : String :=
  if target.isSome then "update" else "create"

/-- The entries of evidence by their canonical texts; a later entry takes the place of an equal one. -/
def evidenceTable (entries : List Evidence) : Table Canonical Evidence :=
  entries.foldl (fun table entry ↦ table.set (rules.canonize entry) entry) .empty

def combinedFact (source : UsageFactView Evidence) (target : Option (UsageFactView Evidence)) :
    Except ApiError (UsageFactView Evidence) :=
  match target with
  | none => .ok source
  | some target => do
    require (decide ((source.review, source.version, source.versionKind, source.freshness) =
        (target.review, target.version, target.versionKind, target.freshness))) .conflict
      "technology merge has conflicting usage facts"
    let evidence := (evidenceTable rules (target.evidence ++ source.evidence)).entries.map Prod.snd
    require (decide (evidence.length ≤ 64)) .conflict
      "technology merge evidence exceeds contract bounds"
    return { target with evidence }

variable (registry : Registry Evidence) (sourceId targetId : String)

def technologyView (technologyId : String) (row : Technology) : TechnologyView where
  technologyId
  row
  categoryIds := (((registry.classifications.entries.map Prod.fst).filter
    (·.1 == technologyId)).map Prod.snd).insertionSort (· ≤ ·)
  aliases := ((registry.aliases.entries.filter fun entry ↦
    entry.2.technologyId == technologyId && !entry.2.canonical).insertionSort
      fun first second ↦ first.1 ≤ second.1).map (·.2.name)

/-- The subjects with a current pair of the source, with both pairs. -/
def pairViews (pairs : Table (String × String) ProjectTechnologyRelation) : List PairView :=
  ((pairs.entries.filter fun entry ↦
    entry.1.2 == sourceId && decide (entry.2.state = .current)).insertionSort
      fun first second ↦ first.1.1 ≤ second.1.1).map fun entry ↦
        ⟨entry.1.1, entry.2, pairs.get? (entry.1.1, targetId)⟩

def usageContexts : List UsageContext := [.browserSupport, .development, .production, .testing]

/-- The facts of a relation in the order of their contexts. -/
def factsOf (projectId technologyId : String) : List (UsageContext × UsageFactView Evidence) :=
  usageContexts.filterMap fun context ↦
    (registry.facts.get? ((projectId, technologyId), context)).map (context, ·)

def projectView (pair : PairView) : ProjectTechnologyView Evidence :=
  { pair with
    facts := factsOf registry pair.subjectId sourceId
    targetFacts := if pair.target.isSome then factsOf registry pair.subjectId targetId else [] }

def projectViews : List (ProjectTechnologyView Evidence) :=
  (pairViews sourceId targetId registry.relations).map (projectView registry sourceId targetId)

/-- What decides: the lead, the approval and the adoption. -/
def decisionValues (decision : Option OrganizationTechnologyDecision) :
    Option String × Bool × String :=
  match decision with
  | none => (none, false, "none")
  | some decision => (decision.leadAccountId, decision.approved, decision.adoption)

def inputs : Except ApiError (Inputs Evidence) := do
  technologyAuthority authorize sourceId targetId
  let source ← found (registry.technologies.get? sourceId) .permission
    "technology merge endpoint is unavailable"
  let target ← found (registry.technologies.get? targetId) .permission
    "technology merge endpoint is unavailable"
  require (decide (sourceId ≠ targetId) && source.redirectId.isNone && target.redirectId.isNone)
    .conflict "technology merge requires distinct canonical endpoints"
  let projects := projectViews registry sourceId targetId
  projects.forM fun project ↦ do
    projectAuthority authorize project.subjectId (targetAction project.target)
    require (decide (project.target.map (·.state) ≠ some .retired)) .conflict
      "technology merge target pair is intentionally retired"
    require (project.target.isSome || decide (target.lifecycle = .active)) .conflict
      "technology merge new usage requires active target"
  projects.forM fun project ↦ project.facts.forM fun fact ↦
    (combinedFact rules fact.2 (project.targetFacts.lookup fact.1)).map fun _ ↦ ()
  let teams := pairViews sourceId targetId registry.responsibilities
  teams.forM fun team ↦ do
    teamAuthority authorize sourceId targetId team.subjectId (targetAction team.target)
    require (decide (team.target.map (·.state) ≠ some .retired)) .conflict
      "technology merge target responsibility is retired"
  let decisions := [sourceId, targetId].filterMap fun technologyId ↦
    (registry.decisions.get? technologyId).map (technologyId, ·)
  decisions.forM fun decision ↦ authorize "technology_decision.read" "technology" decision.1
  require (decide (decisionValues (registry.decisions.get? sourceId) =
      decisionValues (registry.decisions.get? targetId))) .conflict
    "technology merge has conflicting organization decisions"
  let source := technologyView registry sourceId source
  let target := technologyView registry targetId target
  let names := (((source.row.name :: source.aliases ++ target.aliases).map
    rules.normalizeTechnologyName).filter
      (· != rules.normalizeTechnologyName target.row.name)).dedup
  require (decide ((source.categoryIds ++ target.categoryIds).dedup.length ≤ 32) &&
      decide (names.length ≤ 64)) .conflict "technology merge metadata exceeds contract bounds"
  return { source, target, projects, teams, decisions }

/-! ### Applying a merge -/

def retire (pair : ProjectTechnologyRelation) : ProjectTechnologyRelation :=
  { state := .retired, revision := pair.revision + 1 }

/-- The pair of the target after it has taken over. -/
def takenOver : Option ProjectTechnologyRelation → ProjectTechnologyRelation
  | none => ⟨.current, 1⟩
  | some target => { target with revision := target.revision + 1 }

/-- A pair of the source is moved: the pair of the target is made or revised, and the pair of the
source is retired. -/
def movePair (pairs : Table (String × String) ProjectTechnologyRelation) (view : PairView) :
    Table (String × String) ProjectTechnologyRelation :=
  (pairs.set (view.subjectId, targetId) (takenOver view.target)).update (view.subjectId, sourceId)
    (retire view.source)

/-- The facts that are moved, with those that the target has in their place. -/
def movedFacts (projects : List (ProjectTechnologyView Evidence)) :
    List ((String × UsageContext) × UsageFactView Evidence × Option (UsageFactView Evidence)) :=
  projects.flatMap fun project ↦ project.facts.map fun fact ↦
    ((project.subjectId, fact.1), fact.2, project.targetFacts.lookup fact.1)

def moveFact (facts : Table ((String × String) × UsageContext) (UsageFactView Evidence))
    (moved : (String × UsageContext) × UsageFactView Evidence × Option (UsageFactView Evidence)) :
    Except ApiError (Table ((String × String) × UsageContext) (UsageFactView Evidence)) := do
  let merged ← combinedFact rules moved.2.1 moved.2.2
  return facts.set ((moved.1.1, targetId), moved.1.2) merged

structure Effect where
  subjectId : String
  targetAction : String
deriving DecidableEq

/-- The effects of a merge, of which its answer and its receipt are made. -/
structure TechnologyMergeResult where
  projectEffects : List Effect
  teamEffects : List Effect
deriving DecidableEq

def effectOf (view : PairView) : Effect := ⟨view.subjectId, targetAction view.target⟩

def moveAlias (held : TechnologyAlias) : TechnologyAlias :=
  if held.technologyId = sourceId then
    { technologyId := targetId, name := held.name, canonical := false }
  else held

def archived (source : Technology) : Technology :=
  { source with
    restoreLifecycle :=
      if source.lifecycle = .archived then source.restoreLifecycle else source.lifecycle
    lifecycle := .archived
    redirectId := some targetId
    revision := source.revision + 1 }

def applyMerge (inputs : Inputs Evidence) : Except ApiError (Registry Evidence) := do
  let facts ← (movedFacts inputs.projects).foldlM (moveFact rules targetId) registry.facts
  return {
    policyRevision := registry.policyRevision + 1
    technologies := (registry.technologies.update sourceId
      (archived targetId inputs.source.row)).update targetId
        { inputs.target.row with revision := inputs.target.row.revision + 1 }
    aliases := registry.aliases.mapRows fun _ ↦ moveAlias sourceId targetId
    classifications := inputs.source.categoryIds.foldl
      (fun classifications categoryId ↦ classifications.set (targetId, categoryId) ())
      registry.classifications
    decisions := registry.decisions
    relations := (inputs.projects.map (·.toPairView)).foldl (movePair sourceId targetId)
      registry.relations
    facts
    responsibilities := inputs.teams.foldl (movePair sourceId targetId) registry.responsibilities }

structure TechnologyMergeRequest where
  targetId : String
  expectedRevision : Nat
  targetExpectedRevision : Nat
  planDigest : String

/-- A merge. `receipt` is how the idempotency key of the request is answered: it is refused, it was
used for a merge with this result, or it is free. -/
def mergeTechnology (payload : TechnologyMergeRequest)
    (receipt : Except ApiError (Option TechnologyMergeResult)) :
    Except ApiError (Registry Evidence × TechnologyMergeResult) := do
  let receipt ← receipt
  technologyAuthority authorize sourceId payload.targetId
  match receipt with
  | some result => do
    result.projectEffects.forM fun effect ↦
      projectAuthority authorize effect.subjectId effect.targetAction
    result.teamEffects.forM fun effect ↦
      teamAuthority authorize sourceId payload.targetId effect.subjectId effect.targetAction
    return (registry, result)
  | none => do
    let inputs ← inputs rules authorize registry sourceId payload.targetId
    require (decide (inputs.source.row.revision = payload.expectedRevision) &&
        decide (inputs.target.row.revision = payload.targetExpectedRevision)) .conflict
      "technology merge revision changed"
    require (decide (rules.digest inputs = payload.planDigest)) .conflict
      "technology merge plan changed"
    let after ← applyMerge rules registry sourceId payload.targetId inputs
    return (after,
      { projectEffects := inputs.projects.map fun project ↦ effectOf project.toPairView
        teamEffects := inputs.teams.map effectOf })

end Service

/-! ### What a merge stores -/

section Stored

variable {Evidence Canonical : Type} [DecidableEq Canonical] {rules : Rules Evidence Canonical}

/-- The union of two lists of evidence, with one entry for each canonical text. -/
structure Union (canonize : Evidence → Canonical) (first second merged : List Evidence) :
    Prop where
  distinct : (merged.map canonize).Nodup
  sound : ∀ entry ∈ merged, entry ∈ first ∨ entry ∈ second
  complete : ∀ entry, entry ∈ first ∨ entry ∈ second →
    ∃ kept ∈ merged, canonize kept = canonize entry

theorem get?_evidenceTable (entries : List Evidence) (text : Canonical) :
    (evidenceTable rules entries).get? text =
      (entries.filter (rules.canonize · = text)).getLast? := by
  induction entries using List.reverseRecOn with
  | nil => rfl
  | append_singleton entries entry ih =>
    rw [evidenceTable, List.foldl_append, List.foldl_cons, List.foldl_nil, Table.get?_set,
      ← evidenceTable, ih, List.filter_append]
    by_cases hentry : rules.canonize entry = text
    · rw [if_pos hentry.symm, List.filter_cons_of_pos (by simpa using hentry), List.filter_nil,
        List.getLast?_append_of_ne_nil _ (List.cons_ne_nil _ _)]
      rfl
    · rw [if_neg (Ne.symm hentry), List.filter_cons_of_neg (by simpa using hentry),
        List.filter_nil, List.append_nil]

theorem mem_evidenceTable {entries : List Evidence} {text : Canonical} {entry : Evidence}
    (h : (text, entry) ∈ (evidenceTable rules entries).entries) :
    entry ∈ entries ∧ rules.canonize entry = text := by
  rw [Table.mem_entries, get?_evidenceTable] at h
  simpa using List.mem_of_getLast? h

theorem union_evidence (first second : List Evidence) :
    Union rules.canonize first second
      ((evidenceTable rules (first ++ second)).entries.map Prod.snd) := by
  constructor
  · rw [List.map_map]
    have hkeys : (evidenceTable rules (first ++ second)).entries.map
        (rules.canonize ∘ Prod.snd) =
          (evidenceTable rules (first ++ second)).entries.map Prod.fst :=
      List.map_congr_left fun entry hentry ↦ (mem_evidenceTable hentry).2
    rw [hkeys]
    exact Table.unique _
  · intro entry hentry
    obtain ⟨⟨text, kept⟩, hkept, rfl⟩ := List.mem_map.mp hentry
    exact List.mem_append.mp (mem_evidenceTable hkept).1
  · intro entry hentry
    have hmem : entry ∈ (first ++ second).filter (rules.canonize · = rules.canonize entry) := by
      rw [List.mem_filter]
      exact ⟨List.mem_append.mpr hentry, by simp⟩
    obtain ⟨kept, hkept⟩ : ∃ kept, ((first ++ second).filter
        (rules.canonize · = rules.canonize entry)).getLast? = some kept :=
      ⟨_, List.getLast?_eq_some_getLast (List.ne_nil_of_mem hmem)⟩
    rw [← get?_evidenceTable, ← Table.mem_entries] at hkept
    exact ⟨kept, List.mem_map.mpr ⟨_, hkept, rfl⟩, (mem_evidenceTable hkept).2⟩

/-- A fact of the source as it is kept on the target, where the target may hold a fact already. -/
structure Carried (canonize : Evidence → Canonical) (source : UsageFactView Evidence)
    (held : Option (UsageFactView Evidence)) (merged : UsageFactView Evidence) : Prop where
  review : merged.review = source.review
  version : merged.version = source.version ∧ merged.versionKind = source.versionKind
  freshness : merged.freshness = source.freshness
  alone : held = none → merged.evidence = source.evidence
  union : ∀ target, held = some target →
    Union canonize target.evidence source.evidence merged.evidence

theorem carried_of_combinedFact {source merged : UsageFactView Evidence}
    {held : Option (UsageFactView Evidence)}
    (h : combinedFact rules source held = .ok merged) :
    Carried rules.canonize source held merged := by
  cases held with
  | none =>
    obtain rfl := Except.ok.inj h
    exact ⟨rfl, ⟨rfl, rfl⟩, rfl, fun _ ↦ rfl, nofun⟩
  | some target =>
    rw [combinedFact, bind_eq_ok] at h
    obtain ⟨_, hsame, h⟩ := h
    rw [require_eq_ok, decide_eq_true_eq] at hsame
    rw [bind_eq_ok] at h
    obtain ⟨_, -, h⟩ := h
    obtain rfl := Except.ok.inj h
    obtain ⟨hreview, hversion, hkind, hfreshness⟩ : _ ∧ _ ∧ _ ∧ _ := by
      simpa only [Prod.mk.injEq] using hsame
    refine ⟨hreview.symm, ⟨hversion.symm, hkind.symm⟩, hfreshness.symm, nofun, ?_⟩
    rintro other ⟨rfl⟩
    exact union_evidence _ _

/-! ### Pairs that are moved -/

variable {sourceId targetId : String} {pairs : Table (String × String) ProjectTechnologyRelation}

/-- The subject has a current pair of the source. -/
def Held (pairs : Table (String × String) ProjectTechnologyRelation) (sourceId subjectId : String)
    (pair : ProjectTechnologyRelation) : Prop :=
  pairs.get? (subjectId, sourceId) = some pair ∧ pair.state = .current

theorem mem_pairViews {view : PairView} : view ∈ pairViews sourceId targetId pairs ↔
    Held pairs sourceId view.subjectId view.source ∧
      view.target = pairs.get? (view.subjectId, targetId) := by
  rw [pairViews, List.mem_map]
  simp only [List.mem_insertionSort, List.mem_filter, Bool.and_eq_true, beq_iff_eq,
    decide_eq_true_eq]
  constructor
  · rintro ⟨⟨⟨subjectId, technologyId⟩, pair⟩, ⟨hentry, htechnology, hstate⟩, rfl⟩
    dsimp only at htechnology
    subst htechnology
    exact ⟨⟨Table.mem_entries.mp hentry, hstate⟩, rfl⟩
  · rintro ⟨⟨hpair, hstate⟩, htarget⟩
    obtain ⟨subjectId, source, target⟩ := view
    dsimp only at hpair hstate htarget
    exact ⟨((subjectId, sourceId), source), ⟨Table.mem_entries.mpr hpair, rfl, hstate⟩,
      by rw [htarget]⟩

theorem nodup_pairViews : ((pairViews sourceId targetId pairs).map (·.subjectId)).Nodup := by
  rw [pairViews, List.map_map]
  refine List.Nodup.map_on ?_ ?_
  · rintro ⟨⟨subjectId, technologyId⟩, pair⟩ hfirst ⟨⟨otherId, otherTechnologyId⟩, other⟩ hsecond
      hsame
    simp only [List.mem_insertionSort, List.mem_filter, Bool.and_eq_true, beq_iff_eq,
      decide_eq_true_eq] at hfirst hsecond
    obtain ⟨hfirst, rfl, -⟩ := hfirst
    obtain ⟨hsecond, rfl, -⟩ := hsecond
    obtain rfl : subjectId = otherId := hsame
    rw [Table.mem_entries] at hfirst hsecond
    obtain rfl := Option.some.inj (hfirst.symm.trans hsecond)
    rfl
  · exact (List.perm_insertionSort _ _).nodup_iff.mpr
      ((pairs.unique.of_map _).filter _)

theorem get?_movePair (hne : sourceId ≠ targetId) {view : PairView}
    (hsource : pairs.get? (view.subjectId, sourceId) = some view.source) (key : String × String) :
    (movePair sourceId targetId pairs view).get? key =
      if key = (view.subjectId, sourceId) then some (retire view.source)
      else if key = (view.subjectId, targetId) then some (takenOver view.target)
      else pairs.get? key := by
  have hkeys : (view.subjectId, sourceId) ≠ (view.subjectId, targetId) :=
    fun hsame ↦ hne (Prod.mk.inj hsame).2
  rw [movePair, Table.get?_update, Table.get?_set, Table.get?_set, if_neg hkeys, hsource]
  rfl

/-- What a loop over the views leaves under a subject. -/
theorem get?_movePairs (hne : sourceId ≠ targetId) (views : List PairView)
    (hnodup : (views.map (·.subjectId)).Nodup)
    (hsource : ∀ view ∈ views, pairs.get? (view.subjectId, sourceId) = some view.source) :
    (∀ view ∈ views,
      (views.foldl (movePair sourceId targetId) pairs).get? (view.subjectId, sourceId) =
          some (retire view.source) ∧
        (views.foldl (movePair sourceId targetId) pairs).get? (view.subjectId, targetId) =
          some (takenOver view.target)) ∧
    ∀ key : String × String,
      (key.2 = sourceId ∨ key.2 = targetId → key.1 ∉ views.map (·.subjectId)) →
        (views.foldl (movePair sourceId targetId) pairs).get? key = pairs.get? key := by
  induction views generalizing pairs with
  | nil => exact ⟨nofun, fun _ _ ↦ rfl⟩
  | cons view views ih =>
    rw [List.map_cons, List.nodup_cons] at hnodup
    have hget := get?_movePair hne (hsource view List.mem_cons_self)
    have hother : ∀ other ∈ views, other.subjectId ≠ view.subjectId := by
      rintro other hother hsame
      exact hnodup.1 (hsame ▸ List.mem_map_of_mem hother)
    have hheld : ∀ other ∈ views, (movePair sourceId targetId pairs view).get?
        (other.subjectId, sourceId) = some other.source := by
      intro other hmem
      have hsubject := hother other hmem
      rw [hget, if_neg (by simp [hsubject]), if_neg (by simp [hsubject])]
      exact hsource other (List.mem_cons_of_mem _ hmem)
    obtain ⟨hmoved, hrest⟩ := ih hnodup.2 hheld
    rw [List.foldl_cons]
    refine ⟨fun other hmem ↦ ?_, fun key hkey ↦ ?_⟩
    · rcases List.mem_cons.mp hmem with rfl | hmem
      · rw [hrest _ fun _ ↦ hnodup.1, hrest _ fun _ ↦ hnodup.1, hget, hget]
        simp [Ne.symm hne]
      · exact hmoved other hmem
    · rw [List.map_cons] at hkey
      rw [hrest key fun htechnology hmem ↦ hkey htechnology (List.mem_cons_of_mem _ hmem), hget]
      have hnot (technologyId : String) (htechnology : technologyId = sourceId ∨
          technologyId = targetId) : key ≠ (view.subjectId, technologyId) := by
        rintro rfl
        exact hkey htechnology List.mem_cons_self
      rw [if_neg (hnot sourceId (.inl rfl)), if_neg (hnot targetId (.inr rfl))]

/-- The pairs of the source are moved to the target, and nothing else is changed. -/
structure Transferred (sourceId targetId : String)
    (before after : Table (String × String) ProjectTechnologyRelation) : Prop where
  moved : ∀ subjectId pair, Held before sourceId subjectId pair →
    after.get? (subjectId, sourceId) = some (retire pair) ∧
      after.get? (subjectId, targetId) = some (takenOver (before.get? (subjectId, targetId)))
  rest : ∀ subjectId technologyId,
    (technologyId = sourceId ∨ technologyId = targetId →
      ∀ pair, ¬ Held before sourceId subjectId pair) →
    after.get? (subjectId, technologyId) = before.get? (subjectId, technologyId)

theorem transferred (hne : sourceId ≠ targetId) : Transferred sourceId targetId pairs
    ((pairViews sourceId targetId pairs).foldl (movePair sourceId targetId) pairs) := by
  have hsource : ∀ view ∈ pairViews sourceId targetId pairs,
      pairs.get? (view.subjectId, sourceId) = some view.source :=
    fun view hview ↦ (mem_pairViews.mp hview).1.1
  obtain ⟨hmoved, hrest⟩ := get?_movePairs hne _ nodup_pairViews hsource
  constructor
  · intro subjectId pair hheld
    exact hmoved ⟨subjectId, pair, pairs.get? (subjectId, targetId)⟩ (mem_pairViews.mpr ⟨hheld, rfl⟩)
  · intro subjectId technologyId hnot
    refine hrest (subjectId, technologyId) fun htechnology hmem ↦ ?_
    obtain ⟨view, hview, rfl⟩ := List.mem_map.mp hmem
    exact hnot htechnology _ (mem_pairViews.mp hview).1

end Stored

/-! ### Facts that are moved -/

section Facts

variable {Evidence Canonical : Type} [DecidableEq Canonical] {rules : Rules Evidence Canonical}
  {registry : Registry Evidence} {sourceId targetId : String}

theorem mem_usageContexts (context : UsageContext) : context ∈ usageContexts := by
  cases context <;> simp [usageContexts]

theorem mem_factsOf {projectId technologyId : String} {context : UsageContext}
    {fact : UsageFactView Evidence} : (context, fact) ∈ factsOf registry projectId technologyId ↔
      registry.facts.get? ((projectId, technologyId), context) = some fact := by
  rw [factsOf, List.mem_filterMap]
  constructor
  · rintro ⟨other, -, hfact⟩
    obtain ⟨held, hheld, hsame⟩ := Option.map_eq_some_iff.mp hfact
    obtain ⟨rfl, rfl⟩ := Prod.mk.inj hsame
    exact hheld
  · intro hfact
    exact ⟨context, mem_usageContexts context, by rw [hfact, Option.map_some]⟩

theorem nodup_factsOf (projectId technologyId : String) :
    ((factsOf registry projectId technologyId).map Prod.fst).Nodup := by
  have hsub : ((factsOf registry projectId technologyId).map Prod.fst).Sublist usageContexts := by
    rw [factsOf]
    induction usageContexts with
    | nil => exact .slnil
    | cons context contexts ih =>
      cases hfact : registry.facts.get? ((projectId, technologyId), context) with
      | none => simpa [hfact] using ih.cons context
      | some fact => simpa [hfact] using ih.cons_cons context
  exact hsub.nodup (by decide)

theorem lookup_factsOf (projectId technologyId : String) (context : UsageContext) :
    (factsOf registry projectId technologyId).lookup context =
      registry.facts.get? ((projectId, technologyId), context) := by
  let held : Table UsageContext (UsageFactView Evidence) :=
    ⟨factsOf registry projectId technologyId, nodup_factsOf projectId technologyId⟩
  refine Option.ext fun fact ↦ ?_
  have hentries : (context, fact) ∈ held.entries ↔ held.get? context = some fact :=
    Table.mem_entries
  rw [← mem_factsOf]
  exact hentries.symm

/-- The fact that the relation of the target holds. -/
def heldFact (registry : Registry Evidence) (projectId targetId : String) (context : UsageContext) :
    Option (UsageFactView Evidence) :=
  (registry.relations.get? (projectId, targetId)).bind fun _ ↦
    registry.facts.get? ((projectId, targetId), context)

/-- A fact of a current relation of the source. -/
def Current (registry : Registry Evidence) (sourceId projectId : String) (context : UsageContext)
    (fact : UsageFactView Evidence) : Prop :=
  (∃ relation, Held registry.relations sourceId projectId relation) ∧
    registry.facts.get? ((projectId, sourceId), context) = some fact

theorem lookup_targetFacts {pair : PairView}
    (htarget : pair.target = registry.relations.get? (pair.subjectId, targetId))
    (context : UsageContext) :
    (projectView registry sourceId targetId pair).targetFacts.lookup context =
      heldFact registry pair.subjectId targetId context := by
  rw [projectView, heldFact, ← htarget]
  cases pair.target with
  | none => rfl
  | some target => exact lookup_factsOf _ _ _

theorem mem_movedFacts {moved : (String × UsageContext) × UsageFactView Evidence ×
      Option (UsageFactView Evidence)} :
    moved ∈ movedFacts (projectViews registry sourceId targetId) ↔
      Current registry sourceId moved.1.1 moved.1.2 moved.2.1 ∧
        moved.2.2 = heldFact registry moved.1.1 targetId moved.1.2 := by
  rw [movedFacts, List.mem_flatMap]
  constructor
  · rintro ⟨project, hproject, hmoved⟩
    obtain ⟨pair, hpair, rfl⟩ := List.mem_map.mp hproject
    obtain ⟨⟨context, fact⟩, hfact, rfl⟩ := List.mem_map.mp hmoved
    obtain ⟨hheld, htarget⟩ := mem_pairViews.mp hpair
    exact ⟨⟨⟨_, hheld⟩, mem_factsOf.mp hfact⟩, lookup_targetFacts htarget context⟩
  · rintro ⟨⟨⟨relation, hheld⟩, hfact⟩, hmoved⟩
    obtain ⟨⟨projectId, context⟩, fact, held⟩ := moved
    dsimp only at hheld hfact hmoved
    let pair : PairView := ⟨projectId, relation, registry.relations.get? (projectId, targetId)⟩
    refine ⟨projectView registry sourceId targetId pair,
      List.mem_map_of_mem (mem_pairViews.mpr ⟨hheld, rfl⟩), List.mem_map.mpr
        ⟨(context, fact), mem_factsOf.mpr hfact, ?_⟩⟩
    rw [hmoved]
    congr 2
    exact lookup_targetFacts rfl context

theorem nodup_movedFacts :
    ((movedFacts (projectViews registry sourceId targetId)).map Prod.fst).Nodup := by
  rw [movedFacts, List.map_flatMap, List.nodup_flatMap]
  constructor
  · intro project hproject
    obtain ⟨pair, -, rfl⟩ := List.mem_map.mp hproject
    rw [List.map_map]
    have hcontexts : ((factsOf registry pair.subjectId sourceId).map Prod.fst).Nodup :=
      nodup_factsOf pair.subjectId sourceId
    have hinjective : Function.Injective (Prod.mk (β := UsageContext) pair.subjectId) :=
      fun _ _ hsame ↦ (Prod.mk.inj hsame).2
    have hmapped := hcontexts.map hinjective
    rw [List.map_map] at hmapped
    exact hmapped
  · have hsubjects : ((projectViews registry sourceId targetId).map (·.subjectId)).Nodup := by
      rw [projectViews, List.map_map]
      exact nodup_pairViews
    rw [List.Nodup, List.pairwise_map] at hsubjects
    refine hsubjects.imp fun hne ↦ ?_
    intro key hfirst hsecond
    obtain ⟨moved, hmoved, rfl⟩ := List.mem_map.mp hfirst
    obtain ⟨other, hother, hsame⟩ := List.mem_map.mp hsecond
    obtain ⟨fact, -, rfl⟩ := List.mem_map.mp hmoved
    obtain ⟨fact', -, rfl⟩ := List.mem_map.mp hother
    exact hne (Prod.mk.inj hsame).1.symm

/-- The facts that are moved are kept on the target, and the others are not changed. -/
theorem foldlM_moveFact {facts after : Table ((String × String) × UsageContext)
      (UsageFactView Evidence)}
    {moved : List ((String × UsageContext) × UsageFactView Evidence ×
      Option (UsageFactView Evidence))}
    (hnodup : (moved.map Prod.fst).Nodup)
    (h : moved.foldlM (moveFact rules targetId) facts = .ok after) :
    (∀ item ∈ moved, ∃ merged, Carried rules.canonize item.2.1 item.2.2 merged ∧
      after.get? ((item.1.1, targetId), item.1.2) = some merged) ∧
    ∀ projectId technologyId context,
      (technologyId = targetId → (projectId, context) ∉ moved.map Prod.fst) →
        after.get? ((projectId, technologyId), context) =
          facts.get? ((projectId, technologyId), context) := by
  refine foldlM_ok_invariant (fun done table ↦
    (∀ item ∈ done, ∃ merged, Carried rules.canonize item.2.1 item.2.2 merged ∧
      table.get? ((item.1.1, targetId), item.1.2) = some merged) ∧
    ∀ projectId technologyId context,
      (technologyId = targetId → (projectId, context) ∉ done.map Prod.fst) →
        table.get? ((projectId, technologyId), context) =
          facts.get? ((projectId, technologyId), context)) h
    ⟨fun _ hitem ↦ absurd hitem List.not_mem_nil, fun _ _ _ _ ↦ rfl⟩ ?_
  rintro done ⟨⟨projectId, context⟩, fact, held⟩ table next hpart ⟨hdone, hrest⟩ hnext
  obtain ⟨merged, hmerged, hset⟩ := bind_eq_ok.mp hnext
  obtain rfl := Except.ok.inj hset
  have hfresh : (projectId, context) ∉ done.map Prod.fst := by
    have hkeys := hnodup.sublist (hpart.sublist.map Prod.fst)
    rw [List.map_append, List.map_singleton] at hkeys
    intro hmem
    exact (List.nodup_append.mp hkeys).2.2 _ hmem _ List.mem_cons_self rfl
  constructor
  · intro item hitem
    rcases List.mem_append.mp hitem with hold | hnew
    · obtain ⟨kept, hcarried, hkept⟩ := hdone item hold
      refine ⟨kept, hcarried, ?_⟩
      rw [Table.get?_set, if_neg ?_, hkept]
      intro hsame
      obtain ⟨hpair, hcontext⟩ := Prod.mk.inj hsame
      refine hfresh (List.mem_map.mpr ⟨item, hold, ?_⟩)
      exact Prod.ext (Prod.mk.inj hpair).1 hcontext
    · obtain rfl := List.mem_singleton.mp hnew
      exact ⟨merged, carried_of_combinedFact hmerged, by rw [Table.get?_set, if_pos rfl]⟩
  · intro otherId technologyId otherContext hother
    have hne : ((otherId, technologyId), otherContext) ≠ ((projectId, targetId), context) := by
      intro hsame
      obtain ⟨hpair, rfl⟩ := Prod.mk.inj hsame
      obtain ⟨rfl, rfl⟩ := Prod.mk.inj hpair
      exact hother rfl (by simp)
    rw [Table.get?_set, if_neg hne]
    refine hrest otherId technologyId otherContext fun htechnology hmem ↦ hother htechnology ?_
    rw [List.map_append]
    exact List.mem_append_left _ hmem

theorem get?_classifications {classifications : Table (String × String) Unit}
    (categoryIds : List String) (key : String × String) :
    (categoryIds.foldl (fun table categoryId ↦ table.set (targetId, categoryId) ())
      classifications).get? key =
      if key.1 = targetId ∧ key.2 ∈ categoryIds then some () else classifications.get? key := by
  induction categoryIds generalizing classifications with
  | nil => simp
  | cons categoryId categoryIds ih =>
    rw [List.foldl_cons, ih, Table.get?_set]
    obtain ⟨technologyId, other⟩ := key
    by_cases htechnology : technologyId = targetId
    · by_cases hother : other = categoryId
      · simp [htechnology, hother]
      · simp [htechnology, hother]
    · simp [htechnology]

end Facts

/-! ### A merge -/

section Result

variable {Evidence Canonical : Type} [DecidableEq Canonical] {rules : Rules Evidence Canonical}
  {authorize : Authorize} {registry after : Registry Evidence} {sourceId targetId : String}

/-- What the inputs of a merge have passed. -/
structure Planned (registry : Registry Evidence) (sourceId targetId : String)
    (inputs : Inputs Evidence) : Prop where
  distinct : sourceId ≠ targetId
  source : registry.technologies.get? sourceId = some inputs.source.row ∧
    inputs.source.row.redirectId = none
  target : registry.technologies.get? targetId = some inputs.target.row ∧
    inputs.target.row.redirectId = none
  projects : inputs.projects = projectViews registry sourceId targetId
  teams : inputs.teams = pairViews sourceId targetId registry.responsibilities
  categoryIds : ∀ categoryId, categoryId ∈ inputs.source.categoryIds ↔
    registry.classifications.get? (sourceId, categoryId) = some ()
  notRetired : ∀ projectId relation, Held registry.relations sourceId projectId relation →
    (registry.relations.get? (projectId, targetId)).map (·.state) ≠ some .retired

theorem mem_categoryIds {technologyId categoryId : String} {row : Technology} :
    categoryId ∈ (technologyView registry technologyId row).categoryIds ↔
      registry.classifications.get? (technologyId, categoryId) = some () := by
  rw [← Table.mem_entries, technologyView, List.mem_insertionSort]
  simp only [List.mem_map, List.mem_filter, beq_iff_eq]
  constructor
  · rintro ⟨⟨otherId, category⟩, ⟨⟨entry, hentry, hkey⟩, hother⟩, rfl⟩
    obtain ⟨key, _⟩ := entry
    dsimp only at hkey hother
    subst hkey hother
    exact hentry
  · intro hentry
    exact ⟨(technologyId, categoryId), ⟨⟨_, hentry, rfl⟩, rfl⟩, rfl⟩

theorem planned_of_inputs {inputs : Inputs Evidence}
    (h : Merging.inputs rules authorize registry sourceId targetId = .ok inputs) :
    Planned registry sourceId targetId inputs := by
  simp only [Merging.inputs, bind_eq_ok, found_eq_ok, require_eq_ok, Bool.and_eq_true,
    decide_eq_true_eq] at h
  obtain ⟨-, -, source, hsource, target, htarget, _, ⟨⟨hne, hfirst⟩, hsecond⟩, _, hprojects, -, -,
    -, -, -, -, -, -, -, -, hinputs⟩ := h
  obtain rfl := Except.ok.inj hinputs
  refine ⟨hne, ⟨hsource, Option.isNone_iff_eq_none.mp hfirst⟩,
    ⟨htarget, Option.isNone_iff_eq_none.mp hsecond⟩, rfl, rfl, fun _ ↦ mem_categoryIds, ?_⟩
  intro projectId relation hheld
  let pair : PairView := ⟨projectId, relation, registry.relations.get? (projectId, targetId)⟩
  have hproject := forM_eq_ok hprojects (projectView registry sourceId targetId pair)
    (List.mem_map_of_mem (mem_pairViews.mpr ⟨hheld, rfl⟩))
  simp only [bind_eq_ok, require_eq_ok, decide_eq_true_eq] at hproject
  obtain ⟨-, -, -, hstate, -⟩ := hproject
  exact hstate

/-- Each table after a merge, read off the registry before it. -/
structure Merged (rules : Rules Evidence Canonical) (sourceId targetId : String)
    (before after : Registry Evidence) : Prop where
  policyRevision : after.policyRevision = before.policyRevision + 1
  source : ∃ row, before.technologies.get? sourceId = some row ∧ row.redirectId = none ∧
    after.technologies.get? sourceId = some (archived targetId row)
  target : ∃ row, before.technologies.get? targetId = some row ∧ row.redirectId = none ∧
    after.technologies.get? targetId = some { row with revision := row.revision + 1 }
  technologies : ∀ technologyId, technologyId ≠ sourceId → technologyId ≠ targetId →
    after.technologies.get? technologyId = before.technologies.get? technologyId
  relations : Transferred sourceId targetId before.relations after.relations
  responsibilities : Transferred sourceId targetId before.responsibilities after.responsibilities
  carried : ∀ projectId context fact, Current before sourceId projectId context fact →
    ∃ merged, Carried rules.canonize fact (heldFact before projectId targetId context) merged ∧
      after.facts.get? ((projectId, targetId), context) = some merged
  facts : ∀ projectId technologyId context,
    (technologyId = targetId → ∀ fact, ¬ Current before sourceId projectId context fact) →
      after.facts.get? ((projectId, technologyId), context) =
        before.facts.get? ((projectId, technologyId), context)
  aliases : ∀ name, after.aliases.get? name =
    (before.aliases.get? name).map (moveAlias sourceId targetId)
  classifications : ∀ technologyId categoryId,
    after.classifications.get? (technologyId, categoryId) =
      if technologyId = targetId ∧ before.classifications.get? (sourceId, categoryId) = some ()
      then some () else before.classifications.get? (technologyId, categoryId)
  decisions : after.decisions = before.decisions

theorem merged_of_apply {inputs : Inputs Evidence} (hplanned : Planned registry sourceId targetId
      inputs) (h : applyMerge rules registry sourceId targetId inputs = .ok after) :
    Merged rules sourceId targetId registry after := by
  obtain ⟨facts, hfacts, hafter⟩ := bind_eq_ok.mp h
  obtain rfl := Except.ok.inj hafter
  rw [hplanned.projects] at hfacts
  obtain ⟨hcarried, hrest⟩ := foldlM_moveFact nodup_movedFacts hfacts
  have hne := hplanned.distinct
  have hpairs : inputs.projects.map (·.toPairView) =
      pairViews sourceId targetId registry.relations := by
    rw [hplanned.projects, projectViews, List.map_map]
    exact List.map_id _
  constructor
  · rfl
  · refine ⟨_, hplanned.source.1, hplanned.source.2, ?_⟩
    rw [Table.get?_update_of_ne hne, Table.get?_update_self hplanned.source.1]
  · refine ⟨_, hplanned.target.1, hplanned.target.2, ?_⟩
    have hheld := hplanned.target.1
    rw [← Table.get?_update_of_ne (Ne.symm hne)] at hheld
    exact Table.get?_update_self hheld
  · intro technologyId hsource htarget
    rw [Table.get?_update_of_ne htarget, Table.get?_update_of_ne hsource]
  · show Transferred _ _ _ ((inputs.projects.map (·.toPairView)).foldl _ _)
    rw [hpairs]
    exact transferred hne
  · show Transferred _ _ _ (inputs.teams.foldl _ _)
    rw [hplanned.teams]
    exact transferred hne
  · intro projectId context fact hcurrent
    exact hcarried ((projectId, context), fact, heldFact registry projectId targetId context)
      (mem_movedFacts.mpr ⟨hcurrent, rfl⟩)
  · intro projectId technologyId context hnot
    refine hrest projectId technologyId context fun htechnology hmem ↦ ?_
    obtain ⟨moved, hmoved, hkey⟩ := List.mem_map.mp hmem
    obtain ⟨⟨otherId, other⟩, fact, held⟩ := moved
    obtain ⟨rfl, rfl⟩ := Prod.mk.inj hkey
    exact hnot htechnology fact (mem_movedFacts.mp hmoved).1
  · intro name
    exact Table.get?_mapRows
  · intro technologyId categoryId
    refine (get?_classifications _ _).trans ?_
    simp only [hplanned.categoryIds]
  · rfl

/-- Where a technology redirects to. -/
def redirect (registry : Registry Evidence) (technologyId : String) : Option String :=
  (registry.technologies.get? technologyId).bind (·.redirectId)

omit [DecidableEq Canonical] in
theorem Merged.redirect_eq (h : Merged rules sourceId targetId registry after) :
    Merging.redirect after = Function.update (Merging.redirect registry) sourceId (some targetId) := by
  funext technologyId
  obtain ⟨source, hsource, -, hafter⟩ := h.source
  obtain ⟨target, htarget, -, hafter'⟩ := h.target
  by_cases hfirst : technologyId = sourceId
  · subst hfirst
    rw [Function.update_self, Merging.redirect, hafter]
    rfl
  · rw [Function.update_of_ne hfirst, Merging.redirect, Merging.redirect]
    by_cases hsecond : technologyId = targetId
    · subst hsecond
      rw [hafter', htarget]
      rfl
    · rw [h.technologies technologyId hfirst hsecond]

/-! ### Redirects -/

/-- Every redirect ends in a technology that is not redirected, and none comes back. -/
structure RedirectsEnd (registry : Registry Evidence) : Prop where
  acyclic : Redirects.Acyclic (redirect registry)
  ends : ∀ technologyId, (registry.technologies.get? technologyId).isSome = true →
    ∃ last, Redirects.Ends (redirect registry) technologyId last ∧
      (registry.technologies.get? last).isSome = true

omit [DecidableEq Canonical] in
theorem Merged.redirectsEnd (h : Merged rules sourceId targetId registry after)
    (hne : sourceId ≠ targetId) (hends : RedirectsEnd registry) : RedirectsEnd after := by
  obtain ⟨source, hsource, hsourceNone, hafter⟩ := h.source
  obtain ⟨target, htarget, htargetNone, hafter'⟩ := h.target
  have hfrom : redirect registry sourceId = none := by
    rw [Merging.redirect, hsource]
    exact hsourceNone
  have hto : redirect registry targetId = none := by
    rw [Merging.redirect, htarget]
    exact htargetNone
  have hstored (technologyId : String) : (after.technologies.get? technologyId).isSome =
      (registry.technologies.get? technologyId).isSome := by
    by_cases hfirst : technologyId = sourceId
    · rw [hfirst, hafter, hsource]
      rfl
    · by_cases hsecond : technologyId = targetId
      · rw [hsecond, hafter', htarget]
        rfl
      · rw [h.technologies technologyId hfirst hsecond]
  constructor
  · rw [h.redirect_eq]
    exact hends.acyclic.update hto hne
  · intro technologyId htechnology
    rw [hstored] at htechnology
    obtain ⟨last, hlast, hheld⟩ := hends.ends technologyId htechnology
    refine ⟨if last = sourceId then targetId else last, ?_, ?_⟩
    · rw [h.redirect_eq]
      exact hlast.update hfrom hto hne
    · rw [hstored]
      split_ifs
      · rw [htarget]
        rfl
      · exact hheld

/-- A merge that was answered was stored before, or its plan is applied. -/
theorem mergeTechnology_eq_ok {payload : TechnologyMergeRequest}
    {receipt : Except ApiError (Option TechnologyMergeResult)} {result : TechnologyMergeResult}
    (h : mergeTechnology rules authorize registry sourceId payload receipt = .ok (after, result)) :
    (receipt = .ok (some result) ∧ after = registry) ∨
      sourceId ≠ payload.targetId ∧ Merged rules sourceId payload.targetId registry after ∧
        ∀ projectId relation, Held registry.relations sourceId projectId relation →
          (registry.relations.get? (projectId, payload.targetId)).map (·.state) ≠
            some .retired := by
  obtain ⟨found, hreceipt, h⟩ := bind_eq_ok.mp h
  obtain ⟨_, -, h⟩ := bind_eq_ok.mp h
  cases found with
  | some stored =>
    obtain ⟨_, -, h⟩ := bind_eq_ok.mp h
    obtain ⟨_, -, h⟩ := bind_eq_ok.mp h
    obtain ⟨rfl, rfl⟩ := Prod.mk.inj (Except.ok.inj h)
    exact .inl ⟨hreceipt, rfl⟩
  | none =>
    obtain ⟨inputs, hinputs, h⟩ := bind_eq_ok.mp h
    obtain ⟨_, -, h⟩ := bind_eq_ok.mp h
    obtain ⟨_, -, h⟩ := bind_eq_ok.mp h
    obtain ⟨merged, hmerged, h⟩ := bind_eq_ok.mp h
    obtain ⟨rfl, -⟩ := Prod.mk.inj (Except.ok.inj h)
    have hplanned := planned_of_inputs hinputs
    exact .inr ⟨hplanned.distinct, merged_of_apply hplanned hmerged, hplanned.notRetired⟩

end Result

/-! ### Runs of merges -/

/-- A request to merge, with what is decided about its caller and its idempotency key. -/
structure Request where
  authorize : Authorize
  sourceId : String
  payload : TechnologyMergeRequest
  receipt : Except ApiError (Option TechnologyMergeResult)

section Main

variable {Evidence Canonical : Type} [DecidableEq Canonical] (rules : Rules Evidence Canonical)

def Request.answer (request : Request) (registry : Registry Evidence) :
    Except ApiError (Registry Evidence × TechnologyMergeResult) :=
  mergeTechnology rules request.authorize registry request.sourceId request.payload request.receipt

/-- The registry after a request: a refused one stores nothing. -/
def serve (registry : Registry Evidence) (request : Request) : Registry Evidence :=
  match request.answer rules registry with
  | .ok (after, _) => after
  | .error _ => registry

/-- What a merge of the source into the target has to keep. -/
structure LosesNothing (sourceId targetId : String) (before after : Registry Evidence) : Prop where
  merged : Merged rules sourceId targetId before after
  current : ∀ projectId relation, Held before.relations sourceId projectId relation →
    ∃ kept, after.relations.get? (projectId, targetId) = some kept ∧ kept.state = .current
  retired : ∀ projectId relation, ¬ Held after.relations sourceId projectId relation
  pairs : (after.relations.entries.map Prod.fst).Nodup
  names : (after.aliases.entries.map Prod.fst).Nodup

omit [DecidableEq Canonical] in
theorem losesNothing_of_merged {rules : Rules Evidence Canonical} {sourceId targetId : String}
    {before after : Registry Evidence} (h : Merged rules sourceId targetId before after)
    (hstates : ∀ projectId relation, Held before.relations sourceId projectId relation →
      (before.relations.get? (projectId, targetId)).map (·.state) ≠ some .retired) :
    LosesNothing rules sourceId targetId before after := by
  refine ⟨h, ?_, ?_, after.relations.unique, after.aliases.unique⟩
  · intro projectId relation hheld
    refine ⟨_, (h.relations.moved projectId relation hheld).2, ?_⟩
    have hstate := hstates projectId relation hheld
    cases htarget : before.relations.get? (projectId, targetId) with
    | none => rfl
    | some target =>
      rw [htarget] at hstate
      show target.state = .current
      cases htargetState : target.state with
      | current => rfl
      | retired => exact absurd (congrArg some htargetState) hstate
  · rintro projectId relation ⟨hrelation, hstate⟩
    by_cases hheld : ∃ pair, Held before.relations sourceId projectId pair
    · obtain ⟨pair, hpair⟩ := hheld
      rw [(h.relations.moved projectId pair hpair).1] at hrelation
      rw [← Option.some.inj hrelation] at hstate
      exact nomatch hstate
    · push Not at hheld
      rw [h.relations.rest projectId sourceId fun _ ↦ hheld] at hrelation
      exact hheld relation ⟨hrelation, hstate⟩

/-- A request keeps chains of redirects ending. -/
theorem redirectsEnd_serve (registry : Registry Evidence) (request : Request)
    (hends : RedirectsEnd registry) : RedirectsEnd (serve rules registry request) := by
  rw [serve]
  cases hanswer : request.answer rules registry with
  | error error => exact hends
  | ok answered =>
    obtain ⟨after, result⟩ := answered
    rcases mergeTechnology_eq_ok hanswer with ⟨-, rfl⟩ | ⟨hne, hmerged, -⟩
    · exact hends
    · exact hmerged.redirectsEnd hne hends

/-- A refused merge stores nothing; a merge that is answered was stored before or loses nothing;
and over any run of merges redirects go on to end in technologies that are not redirected. -/
theorem merge_loses_nothing (registry : Registry Evidence) :
    (∀ request : Request,
      (∀ error, request.answer rules registry = .error error →
        serve rules registry request = registry) ∧
      ∀ after result, request.answer rules registry = .ok (after, result) →
        (request.receipt = .ok (some result) ∧ after = registry) ∨
          LosesNothing rules request.sourceId request.payload.targetId registry after) ∧
    ∀ requests : List Request, RedirectsEnd registry →
      RedirectsEnd (Runs.run (serve rules) registry requests) := by
  refine ⟨fun request ↦ ⟨fun error herror ↦ ?_, fun after result hanswer ↦ ?_⟩,
    fun requests hends ↦ ?_⟩
  · rw [serve, herror]
  · rcases mergeTechnology_eq_ok hanswer with hstored | ⟨-, hmerged, hstates⟩
    · exact .inl hstored
    · exact .inr (losesNothing_of_merged hmerged hstates)
  · exact Runs.run_invariant (redirectsEnd_serve rules) registry hends requests

end Main

/-! ### A team that is moved -/

namespace Sample

def rules : Rules String String where
  normalizeTechnologyName := id
  canonize := id
  digest _ := "plan"

def technology (name : String) : Technology where
  name
  lifecycle := .active
  restoreLifecycle := .active
  redirectId := none
  revision := 1

/-- Two technologies, the first of which has a category and a team. -/
def registry : Registry String where
  policyRevision := 1
  technologies := Table.empty.set "first" (technology "First") |>.set "second" (technology "Second")
  aliases := .empty
  classifications := Table.empty.set ("first", "category") ()
  decisions := .empty
  relations := .empty
  facts := .empty
  responsibilities := Table.empty.set ("team", "first") ⟨.current, 1⟩

def request : Request where
  authorize _ _ _ := .ok ()
  sourceId := "first"
  payload := ⟨"second", 1, 1, "plan"⟩
  receipt := .ok none

end Sample

/-- A merge also moves the teams of the source and its categories. -/
theorem merge_moves_teams :
    ¬ ∀ (rules : Rules String String) (registry : Registry String) (request : Request)
      (after : Registry String) (result : TechnologyMergeResult),
      request.receipt = .ok none → request.answer rules registry = .ok (after, result) →
        after.responsibilities = registry.responsibilities ∧
          after.classifications = registry.classifications := by
  intro hall
  have hmoved : ((Sample.request.answer Sample.rules Sample.registry).toOption.map fun answered ↦
      (answered.1.responsibilities.get? ("team", "second")).isSome) = some true := by
    decide
  cases hanswer : Sample.request.answer Sample.rules Sample.registry with
  | error error =>
    rw [hanswer] at hmoved
    cases hmoved
  | ok answered =>
    obtain ⟨hsame, -⟩ := hall Sample.rules Sample.registry Sample.request answered.1 answered.2 rfl
      hanswer
    rw [hanswer] at hmoved
    have hteam : (answered.1.responsibilities.get? ("team", "second")).isSome = true :=
      Option.some.inj hmoved
    rw [hsame] at hteam
    exact absurd hteam (by decide)

end AiStp.Merging
