import AiStp.Library.Query

/-!
# Relation filters of the search

An object is linked to external services, and a service to countries. A request filters by service
domains and by countries, each given once or as a list, and a value of either facet may be
`unspecified`. `planRelationFilter` decides which subqueries are run and `relationClause` runs them:
one over the linked services with their countries, one for the objects without any link.

`selected_iff` says which objects a filter selects in terms of the two facets. Values inside a facet
only add objects. A further facet only takes objects away, with one exception: when services are
added to a filter that already asks for unspecified countries and both facets then ask for
`unspecified`, the objects without any link enter, although no service without a country is theirs.
-/

set_option autoImplicit false

namespace AiStp.Catalog

open Library

structure ExternalProduct where
  id : Nat
  canonicalDomain : String
deriving DecidableEq

structure ExternalProductCountry where
  externalProductId : Nat
  countryCode : String

structure CatalogExternalProduct where
  catalogMetadataId : Nat
  externalProductId : Nat

structure ExternalProducts where
  products : List ExternalProduct
  countries : List ExternalProductCountry
  links : List CatalogExternalProduct

/-- The case mappings of texts. -/
structure Casing where
  casefold : String → String
  lower : String → String
  upper : String → String

def catalogUnspecifiedFilter : String := "unspecified"

structure RelationRequest where
  serviceDomain : Option String := none
  countryCode : Option String := none
  serviceDomains : List String := []
  countryCodes : List String := []

/-- A value given once counts unless it is the empty text. -/
def singleton? (value : Option String) : List String :=
  (value.filter (· ≠ "")).toList

def RelationRequest.domainValues (request : RelationRequest) : List String :=
  singleton? request.serviceDomain ++ request.serviceDomains

def RelationRequest.countryValues (request : RelationRequest) : List String :=
  singleton? request.countryCode ++ request.countryCodes

/-! ### The plan -/

structure RelationFilterPlan where
  active : Bool
  empty : Bool
  includeUnlinked : Bool
  queryLinked : Bool
  domains : Option (Finset String)
  countries : Option (Finset String)
  includeCountryLess : Bool
deriving DecidableEq

section Plan

variable (casing : Casing)

def isUnspecified (value : String) : Bool :=
  casing.casefold value = catalogUnspecifiedFilter

def mergeRelationFilters (request : RelationRequest) :
    Finset String × Bool × Finset String × Bool :=
  let domainValues := request.domainValues
  let countryValues := request.countryValues
  (((domainValues.filter fun value ↦ !isUnspecified casing value).map casing.lower).toFinset,
    domainValues.any (isUnspecified casing),
    ((countryValues.filter fun value ↦ !isUnspecified casing value).map casing.upper).toFinset,
    countryValues.any (isUnspecified casing))

def planRelationFilter (request : RelationRequest) : RelationFilterPlan :=
  let (domains, unspecifiedService, countries, unspecifiedCountry) :=
    mergeRelationFilters casing request
  let serviceActive : Bool := domains ≠ ∅ ∨ unspecifiedService
  let countryActive : Bool := countries ≠ ∅ ∨ unspecifiedCountry
  if !serviceActive && !countryActive then
    { active := false, empty := false, includeUnlinked := false, queryLinked := false,
      domains := none, countries := none, includeCountryLess := false }
  else
    let includeUnlinked := unspecifiedService && (!countryActive || unspecifiedCountry)
    let queryLinked : Bool := domains ≠ ∅ ∨ (countryActive && !unspecifiedService)
    { active := true
      empty := !includeUnlinked && !queryLinked
      includeUnlinked
      queryLinked
      domains := if domains = ∅ then none else some domains
      countries := if countryActive then if countries = ∅ then none else some countries else none
      includeCountryLess := unspecifiedCountry && queryLinked }

end Plan

/-! ### The clause -/

section Clause

variable (tables : ExternalProducts)

/-- The countries of a service after the outer join: a service without one has one empty row. -/
def ExternalProducts.outerCountries (product : ExternalProduct) : List (Option String) :=
  match tables.countries.filter (·.externalProductId = product.id) with
  | [] => [none]
  | rows => rows.map (some ·.countryCode)

def ExternalProducts.countryClause (plan : RelationFilterPlan) (product : ExternalProduct) : Bool :=
  match plan.countries, plan.includeCountryLess with
  | none, false => true
  | some countries, true =>
    (tables.outerCountries product).any fun code ↦ code.isNone || code.any (· ∈ countries)
  | none, true => (tables.outerCountries product).any Option.isNone
  | some countries, false =>
    (tables.outerCountries product).any fun code ↦ code.any (· ∈ countries)

def ExternalProducts.linked (plan : RelationFilterPlan) (catalogMetadataId : Nat) : Bool :=
  (Query.join tables.links tables.products fun link product ↦
    product.id = link.externalProductId).any fun (link, product) ↦
      plan.domains.all (product.canonicalDomain ∈ ·) &&
        tables.countryClause plan product && link.catalogMetadataId = catalogMetadataId

def ExternalProducts.unlinked (catalogMetadataId : Nat) : Bool :=
  !tables.links.any (·.catalogMetadataId = catalogMetadataId)

/-- Whether a row of the projection is kept; an inactive plan adds no clause. -/
def relationClause (plan : RelationFilterPlan) (catalogMetadataId : Nat) : Bool :=
  if !plan.active then true
  else if plan.empty then false
  else plan.queryLinked && tables.linked plan catalogMetadataId ||
    plan.includeUnlinked && tables.unlinked catalogMetadataId

end Clause

/-! ### What a filter selects -/

variable {product : ExternalProduct}

section Selected

variable (casing : Casing) (tables : ExternalProducts)

/-- The filter of a request keeps the row. -/
def Selected (request : RelationRequest) (catalogMetadataId : Nat) : Prop :=
  relationClause tables (planRelationFilter casing request) catalogMetadataId

/-- A value of the list asks for `unspecified`. -/
def AsksUnspecified (values : List String) : Prop :=
  ∃ value ∈ values, isUnspecified casing value

/-- A value of the list other than `unspecified` is `item` after the mapping. -/
def Names (mapping : String → String) (values : List String) (item : String) : Prop :=
  ∃ value ∈ values, isUnspecified casing value = false ∧ mapping value = item

/-- The object is linked to the service. -/
def ExternalProducts.Linked (catalogMetadataId : Nat) (product : ExternalProduct) : Prop :=
  product ∈ tables.products ∧ ∃ link ∈ tables.links,
    link.catalogMetadataId = catalogMetadataId ∧ product.id = link.externalProductId

/-- The service has no country. -/
def ExternalProducts.CountryLess (product : ExternalProduct) : Prop :=
  ∀ row ∈ tables.countries, row.externalProductId ≠ product.id

/-- A country of the service meets the facet. -/
def CountryMet (values : List String) (product : ExternalProduct) : Prop :=
  AsksUnspecified casing values ∧ tables.CountryLess product ∨
    ∃ row ∈ tables.countries, row.externalProductId = product.id ∧
      Names casing casing.upper values row.countryCode

theorem mem_outerCountries_none :
    none ∈ tables.outerCountries product ↔ tables.CountryLess product := by
  unfold ExternalProducts.outerCountries ExternalProducts.CountryLess
  split
  · next hrows => simpa [List.filter_eq_nil_iff] using hrows
  · next rows hsome =>
    constructor
    · intro hnone
      simp at hnone
    · intro hless
      refine absurd (List.filter_eq_nil_iff.mpr fun row hrow ↦ ?_) hsome
      simpa using hless row hrow

theorem mem_outerCountries_some {code : String} :
    some code ∈ tables.outerCountries product ↔
      ∃ row ∈ tables.countries, row.externalProductId = product.id ∧ row.countryCode = code := by
  unfold ExternalProducts.outerCountries
  split
  · next hnone =>
    have hrows := List.filter_eq_nil_iff.mp hnone
    constructor
    · intro hsome
      simp at hsome
    · rintro ⟨row, hrow, hid, -⟩
      exact absurd (decide_eq_true hid) (hrows row hrow)
  · simp [and_assoc]

theorem any_isUnspecified (values : List String) :
    values.any (isUnspecified casing) = true ↔ AsksUnspecified casing values := by
  simp [AsksUnspecified]

theorem mem_named (mapping : String → String) (values : List String) (item : String) :
    item ∈ ((values.filter fun value ↦ !isUnspecified casing value).map mapping).toFinset ↔
      Names casing mapping values item := by
  simp [Names, and_assoc]

theorem named_eq_empty (mapping : String → String) (values : List String) :
    ((values.filter fun value ↦ !isUnspecified casing value).map mapping).toFinset = ∅ ↔
      ¬ ∃ item, Names casing mapping values item := by
  simp only [Finset.eq_empty_iff_forall_notMem, mem_named, not_exists]

/-- A facet is asked for when it has a value. -/
theorem active_iff (mapping : String → String) (values : List String) :
    (∃ item, Names casing mapping values item) ∨ AsksUnspecified casing values ↔ values ≠ [] := by
  constructor
  · rintro (⟨item, value, hvalue, -⟩ | ⟨value, hvalue, -⟩)
    all_goals
      intro hnil
      simp [hnil] at hvalue
  · intro hvalues
    obtain ⟨value, hvalue⟩ := List.exists_mem_of_ne_nil values hvalues
    by_cases hunspecified : isUnspecified casing value
    · exact .inr ⟨value, hvalue, hunspecified⟩
    · exact .inl ⟨mapping value, value, hvalue, by simpa using hunspecified, rfl⟩

theorem outerCountries_any {condition : Option String → Bool} :
    (tables.outerCountries product).any condition = true ↔
      tables.CountryLess product ∧ condition none ∨
        ∃ row ∈ tables.countries, row.externalProductId = product.id ∧
          condition (some row.countryCode) := by
  rw [List.any_eq_true, ← mem_outerCountries_none]
  constructor
  · rintro ⟨code, hcode, hcondition⟩
    cases code with
    | none => exact .inl ⟨hcode, hcondition⟩
    | some code =>
      obtain ⟨row, hrow, hid, rfl⟩ := (mem_outerCountries_some tables).mp hcode
      exact .inr ⟨row, hrow, hid, hcondition⟩
  · rintro (⟨hnone, hcondition⟩ | ⟨row, hrow, hid, hcondition⟩)
    · exact ⟨none, hnone, hcondition⟩
    · exact ⟨some row.countryCode, (mem_outerCountries_some tables).mpr ⟨row, hrow, hid, rfl⟩,
        hcondition⟩

variable {catalogMetadataId : Nat}

theorem unlinked_iff :
    tables.unlinked catalogMetadataId = true ↔
      ∀ link ∈ tables.links, link.catalogMetadataId ≠ catalogMetadataId := by
  simp [ExternalProducts.unlinked]

theorem linked_iff {plan : RelationFilterPlan} :
    tables.linked plan catalogMetadataId = true ↔
      ∃ product, tables.Linked catalogMetadataId product ∧
        (∀ domains, plan.domains = some domains → product.canonicalDomain ∈ domains) ∧
        tables.countryClause plan product := by
  rw [ExternalProducts.linked, List.any_eq_true]
  constructor
  · rintro ⟨⟨link, product⟩, hpair, hmet⟩
    obtain ⟨hlink, hproduct, hon⟩ := Query.mem_join.mp hpair
    simp only [Bool.and_eq_true, decide_eq_true_eq, Option.all_eq_true] at hmet hon
    exact ⟨product, ⟨hproduct, link, hlink, hmet.2, hon⟩, hmet.1.1, hmet.1.2⟩
  · rintro ⟨product, ⟨hproduct, link, hlink, hrow, hon⟩, hdomains, hcountry⟩
    refine ⟨(link, product), Query.mem_join.mpr ⟨hlink, hproduct, by simpa using hon⟩, ?_⟩
    simp only [Bool.and_eq_true, decide_eq_true_eq, Option.all_eq_true]
    exact ⟨⟨hdomains, hcountry⟩, hrow⟩

theorem countryClause_iff {plan : RelationFilterPlan} :
    tables.countryClause plan product = true ↔
      plan.countries = none ∧ plan.includeCountryLess = false ∨
        plan.includeCountryLess ∧ tables.CountryLess product ∨
        ∃ row ∈ tables.countries, row.externalProductId = product.id ∧
          ∃ countries, plan.countries = some countries ∧ row.countryCode ∈ countries := by
  unfold ExternalProducts.countryClause
  split
  · next hcountries hless => simp [hcountries, hless]
  · next countries hcountries hless =>
    rw [outerCountries_any]
    simp [hcountries, hless]
  · next hcountries hless =>
    rw [outerCountries_any]
    simp [hcountries, hless]
  · next countries hcountries hless =>
    rw [outerCountries_any]
    simp [hcountries, hless]

/-- The fields of the plan in terms of the two facets. -/
structure Planned (request : RelationRequest) (plan : RelationFilterPlan) : Prop where
  active : plan.active = true ↔ request.domainValues ≠ [] ∨ request.countryValues ≠ []
  empty : plan.active → plan.empty = (!plan.includeUnlinked && !plan.queryLinked)
  includeUnlinked : plan.active → (plan.includeUnlinked = true ↔
    AsksUnspecified casing request.domainValues ∧
      (request.countryValues = [] ∨ AsksUnspecified casing request.countryValues))
  queryLinked : plan.active → (plan.queryLinked = true ↔
    (∃ item, Names casing casing.lower request.domainValues item) ∨
      request.countryValues ≠ [] ∧ ¬ AsksUnspecified casing request.domainValues)
  domains : plan.active → ∀ item, (∀ domains, plan.domains = some domains → item ∈ domains) ↔
    ((∃ item, Names casing casing.lower request.domainValues item) →
      Names casing casing.lower request.domainValues item)
  countries : plan.active → plan.queryLinked → ∀ product,
    (tables.countryClause plan product = true ↔
      (request.countryValues ≠ [] → CountryMet casing tables request.countryValues product))

theorem planned (request : RelationRequest) :
    Planned casing tables request (planRelationFilter casing request) := by
  have hservice := active_iff casing casing.lower request.domainValues
  have hcountry := active_iff casing casing.upper request.countryValues
  have hdomains := named_eq_empty casing casing.lower request.domainValues
  have hcountries := named_eq_empty casing casing.upper request.countryValues
  have hmem (item : String) := mem_named casing casing.lower request.domainValues item
  have hcode (item : String) := mem_named casing casing.upper request.countryValues item
  have hasks := any_isUnspecified casing request.domainValues
  have hlacks := any_isUnspecified casing request.countryValues
  unfold planRelationFilter mergeRelationFilters
  dsimp only
  generalize ((request.domainValues.filter fun value ↦
    !isUnspecified casing value).map casing.lower).toFinset = domains at hdomains hmem ⊢
  generalize ((request.countryValues.filter fun value ↦
    !isUnspecified casing value).map casing.upper).toFinset = countries at hcountries hcode ⊢
  generalize request.domainValues.any (isUnspecified casing) = unspecifiedService at hasks ⊢
  generalize request.countryValues.any (isUnspecified casing) = unspecifiedCountry at hlacks ⊢
  have hserviceActive : request.domainValues ≠ [] ↔ domains ≠ ∅ ∨ unspecifiedService = true := by
    rw [← hservice, hasks, Ne, hdomains, not_not]
  have hcountryActive : request.countryValues ≠ [] ↔ countries ≠ ∅ ∨ unspecifiedCountry = true := by
    rw [← hcountry, hlacks, Ne, hcountries, not_not]
  have hcountryNone : request.countryValues = [] ↔ ¬ (countries ≠ ∅ ∨ unspecifiedCountry = true) := by
    rw [← hcountryActive, not_not]
  have hnamed : (∃ item, Names casing casing.lower request.domainValues item) ↔ domains ≠ ∅ := by
    rw [Ne, hdomains, not_not]
  have hmet : ∀ product, CountryMet casing tables request.countryValues product ↔
      unspecifiedCountry = true ∧ tables.CountryLess product ∨
        ∃ row ∈ tables.countries, row.externalProductId = product.id ∧
          row.countryCode ∈ countries := by
    intro product
    simp only [CountryMet, hlacks, hcode]
  by_cases hinactive : (!decide (domains ≠ ∅ ∨ unspecifiedService = true) &&
      !decide (countries ≠ ∅ ∨ unspecifiedCountry = true)) = true
  · rw [if_pos hinactive]
    constructor
    · simp only [hserviceActive, hcountryActive]
      simpa [not_or] using hinactive
    all_goals
      intro hactive
      cases hactive
  · rw [if_neg hinactive]
    constructor
    · simp only [hserviceActive, hcountryActive, true_iff]
      by_contra hneither
      exact hinactive (by simpa [not_or] using hneither)
    · intro _
      rfl
    · intro _
      rw [← hasks, ← hlacks, hcountryNone]
      simp only [Bool.and_eq_true, Bool.or_eq_true, Bool.not_eq_true', decide_eq_false_iff_not]
    · intro _
      rw [hnamed, hcountryActive, ← hasks]
      simp only [Bool.and_eq_true, decide_eq_true_eq, Bool.not_eq_true', Bool.not_eq_true]
    · intro _ item
      rw [hnamed, ← hmem]
      by_cases hempty : domains = ∅
      · simp [hempty]
      · simp [hempty]
    · intro _ hlinked product
      rw [hcountryActive, hmet]
      dsimp only at hlinked ⊢
      simp only [hlinked, Bool.and_true]
      rw [countryClause_iff]
      by_cases hempty : countries = ∅
      all_goals
        cases unspecifiedCountry
        all_goals
          simp [hempty]

/-- The filter is active, and a linked service meets both facets. -/
def LinkedMet (request : RelationRequest) (catalogMetadataId : Nat) : Prop :=
  (request.domainValues ≠ [] ∨ request.countryValues ≠ []) ∧
    ∃ product, tables.Linked catalogMetadataId product ∧
      (request.domainValues = [] ∨
        Names casing casing.lower request.domainValues product.canonicalDomain) ∧
      (request.countryValues = [] ∨ CountryMet casing tables request.countryValues product)

/-- The objects without a link are asked, and the object is one of them. -/
def UnlinkedMet (request : RelationRequest) (catalogMetadataId : Nat) : Prop :=
  (AsksUnspecified casing request.domainValues ∧
      (request.countryValues = [] ∨ AsksUnspecified casing request.countryValues)) ∧
    tables.unlinked catalogMetadataId

theorem selected_iff {request : RelationRequest} :
    Selected casing tables request catalogMetadataId ↔
      request.domainValues = [] ∧ request.countryValues = [] ∨
        LinkedMet casing tables request catalogMetadataId ∨
        UnlinkedMet casing tables request catalogMetadataId := by
  have hplan := planned casing tables request
  unfold Selected
  generalize planRelationFilter casing request = plan at hplan ⊢
  by_cases hactive : plan.active = true
  · have hsome : ¬ (request.domainValues = [] ∧ request.countryValues = []) := by
      have := hplan.active.mp hactive
      grind
    have hlinked : (plan.queryLinked && tables.linked plan catalogMetadataId) = true ↔
        LinkedMet casing tables request catalogMetadataId := by
      have hservice := active_iff casing casing.lower request.domainValues
      rw [Bool.and_eq_true, linked_iff, LinkedMet]
      constructor
      · rintro ⟨hquery, product, hproduct, hdomains, hcountry⟩
        rw [hplan.domains hactive] at hdomains
        rw [hplan.countries hactive hquery] at hcountry
        have hasked := (hplan.queryLinked hactive).mp hquery
        refine ⟨hplan.active.mp hactive, product, hproduct, ?_, by grind⟩
        by_cases hnamed : ∃ item, Names casing casing.lower request.domainValues item
        · exact .inr (hdomains hnamed)
        · refine .inl (by_contra fun hvalues ↦ ?_)
          exact (hservice.mpr hvalues).elim hnamed (hasked.resolve_left hnamed).2
      · rintro ⟨hasked, product, hproduct, hdomain, hcountry⟩
        have hquery : plan.queryLinked = true := by
          rw [hplan.queryLinked hactive]
          rcases hdomain with hnil | hnamed
          · exact .inr ⟨hasked.resolve_left (not_not_intro hnil), by simp [hnil, AsksUnspecified]⟩
          · exact .inl ⟨_, hnamed⟩
        refine ⟨hquery, product, hproduct, (hplan.domains hactive _).mpr fun hnamed ↦ ?_,
          (hplan.countries hactive hquery product).mpr fun hactive ↦ hcountry.resolve_left hactive⟩
        exact hdomain.resolve_left (hservice.mp (.inl hnamed))
    have hunlinked : (plan.includeUnlinked && tables.unlinked catalogMetadataId) = true ↔
        UnlinkedMet casing tables request catalogMetadataId := by
      rw [Bool.and_eq_true, UnlinkedMet, ← hplan.includeUnlinked hactive]
    rw [← hlinked, ← hunlinked]
    simp only [hsome, false_or, relationClause, hactive, Bool.not_true, Bool.false_eq_true,
      if_false, hplan.empty hactive]
    by_cases hquery : plan.queryLinked
    all_goals
      by_cases hinclude : plan.includeUnlinked
      all_goals
        simp [hquery, hinclude]
  · have hnone : request.domainValues = [] ∧ request.countryValues = [] := by
      have := hplan.active.not.mp hactive
      grind
    simp [relationClause, hactive, hnone]

end Selected

/-! ### Adding values and facets -/

section Monotone

variable (casing : Casing) (tables : ExternalProducts)

/-- Both filters have the same facets, and the second asks for every value of the first. -/
structure AddsValues (before after : RelationRequest) : Prop where
  domains : before.domainValues ⊆ after.domainValues
  countries : before.countryValues ⊆ after.countryValues
  sameServices : before.domainValues = [] → after.domainValues = []
  sameCountries : before.countryValues = [] → after.countryValues = []

/-- The second filter is the first with a facet of services. -/
def AddsServices (before after : RelationRequest) : Prop :=
  before.domainValues = [] ∧ after.domainValues ≠ [] ∧
    ∀ value, value ∈ after.countryValues ↔ value ∈ before.countryValues

/-- The second filter is the first with a facet of countries. -/
def AddsCountries (before after : RelationRequest) : Prop :=
  before.countryValues = [] ∧ after.countryValues ≠ [] ∧
    ∀ value, value ∈ after.domainValues ↔ value ∈ before.domainValues

/-- Adding values keeps every row, and adding a facet adds none. -/
def RelationFiltersMonotone (rows : List Nat) (before after : RelationRequest) : Prop :=
  (AddsValues before after → ∀ row ∈ rows,
    Selected casing tables before row → Selected casing tables after row) ∧
  (AddsServices before after ∨ AddsCountries before after → ∀ row ∈ rows,
    Selected casing tables after row → Selected casing tables before row)

variable {casing tables}

theorem AsksUnspecified.mono {values more : List String} (hmore : values ⊆ more)
    (h : AsksUnspecified casing values) : AsksUnspecified casing more := by
  obtain ⟨value, hvalue, hunspecified⟩ := h
  exact ⟨value, hmore hvalue, hunspecified⟩

theorem Names.mono {mapping : String → String} {values more : List String} {item : String}
    (hmore : values ⊆ more) (h : Names casing mapping values item) :
    Names casing mapping more item := by
  obtain ⟨value, hvalue, hnamed⟩ := h
  exact ⟨value, hmore hvalue, hnamed⟩

theorem CountryMet.mono {values more : List String} (hmore : values ⊆ more)
    (h : CountryMet casing tables values product) : CountryMet casing tables more product := by
  obtain ⟨hasks, hless⟩ | ⟨row, hrow, hid, hnamed⟩ := h
  · exact .inl ⟨hasks.mono hmore, hless⟩
  · exact .inr ⟨row, hrow, hid, hnamed.mono hmore⟩

/-- More values inside the facets keep every selected row. -/
theorem selected_of_addsValues {before after : RelationRequest} {row : Nat}
    (hadds : AddsValues before after) (h : Selected casing tables before row) :
    Selected casing tables after row := by
  rw [selected_iff] at h ⊢
  rcases h with ⟨hservices, hcountries⟩ | ⟨hasked, product, hlinked, hdomain, hcountry⟩ |
    ⟨⟨hasks, hcountries⟩, hunlinked⟩
  · exact .inl ⟨hadds.sameServices hservices, hadds.sameCountries hcountries⟩
  · refine .inr (.inl ⟨hasked.imp (mt fun hnil ↦ ?_) (mt fun hnil ↦ ?_), product, hlinked,
      hdomain.imp hadds.sameServices fun hnamed ↦ hnamed.mono hadds.domains,
      hcountry.imp hadds.sameCountries fun hmet ↦ hmet.mono hadds.countries⟩)
    · exact List.subset_nil.mp (hnil ▸ hadds.domains)
    · exact List.subset_nil.mp (hnil ▸ hadds.countries)
  · exact .inr (.inr ⟨⟨hasks.mono hadds.domains,
      hcountries.imp hadds.sameCountries fun hlacks ↦ hlacks.mono hadds.countries⟩, hunlinked⟩)

/-- A facet of countries only takes rows away. -/
theorem selected_of_addsCountries {before after : RelationRequest} {row : Nat}
    (hadds : AddsCountries before after) (h : Selected casing tables after row) :
    Selected casing tables before row := by
  obtain ⟨hnone, hsome, hsame⟩ := hadds
  have hback : after.domainValues ⊆ before.domainValues := fun value ↦ (hsame value).mp
  have hforth : before.domainValues ⊆ after.domainValues := fun value ↦ (hsame value).mpr
  rw [selected_iff] at h ⊢
  rcases h with ⟨-, hcountries⟩ | ⟨-, product, hlinked, hdomain, -⟩ | ⟨⟨hasks, -⟩, hunlinked⟩
  · exact absurd hcountries hsome
  · by_cases hservices : before.domainValues = []
    · exact .inl ⟨hservices, hnone⟩
    · refine .inr (.inl ⟨.inl hservices, product, hlinked, .inr ?_, .inl hnone⟩)
      refine (hdomain.resolve_left fun hnil ↦ hservices ?_).mono hback
      exact List.subset_nil.mp (hnil ▸ hforth)
  · exact .inr (.inr ⟨⟨hasks.mono hback, .inl hnone⟩, hunlinked⟩)

/-- A facet of services adds a row exactly if the row has no link and both facets ask for
`unspecified`. -/
theorem selected_addsServices_iff {before after : RelationRequest} {row : Nat}
    (hadds : AddsServices before after) :
    (Selected casing tables after row → Selected casing tables before row) ↔
      ¬ (AsksUnspecified casing before.countryValues ∧
        AsksUnspecified casing after.domainValues ∧ tables.unlinked row) := by
  obtain ⟨hnone, hsome, hsame⟩ := hadds
  have hback : after.countryValues ⊆ before.countryValues := fun value ↦ (hsame value).mp
  have hforth : before.countryValues ⊆ after.countryValues := fun value ↦ (hsame value).mpr
  constructor
  · rintro hkeeps ⟨hlacks, hasks, hunlinked⟩
    have hafter : Selected casing tables after row :=
      (selected_iff casing tables).mpr (.inr (.inr ⟨⟨hasks, .inr (hlacks.mono hforth)⟩, hunlinked⟩))
    rcases (selected_iff casing tables).mp (hkeeps hafter) with ⟨-, hcountries⟩ | ⟨-, product, hlinked, -⟩ |
      ⟨⟨hservices, -⟩, -⟩
    · obtain ⟨value, hvalue, -⟩ := hlacks
      simp [hcountries] at hvalue
    · obtain ⟨-, link, hlink, hrow, -⟩ := hlinked
      exact (unlinked_iff tables).mp hunlinked link hlink hrow
    · obtain ⟨value, hvalue, -⟩ := hservices
      simp [hnone] at hvalue
  · intro hexcept h
    rw [selected_iff] at h ⊢
    rcases h with ⟨hservices, -⟩ | ⟨-, product, hlinked, -, hcountry⟩ |
      ⟨⟨hasks, hcountries⟩, hunlinked⟩
    · exact absurd hservices hsome
    · by_cases hcountries : before.countryValues = []
      · exact .inl ⟨hnone, hcountries⟩
      · refine .inr (.inl ⟨.inr hcountries, product, hlinked, .inl hnone, .inr ?_⟩)
        refine (hcountry.resolve_left fun hnil ↦ hcountries ?_).mono hback
        exact List.subset_nil.mp (hnil ▸ hforth)
    · rcases hcountries with hnil | hlacks
      · exact .inl ⟨hnone, List.subset_nil.mp (hnil ▸ hforth)⟩
      · exact absurd ⟨hlacks.mono hback, hasks, hunlinked⟩ hexcept

/-- The case mappings on ASCII texts. -/
def asciiCasing : Casing where
  casefold text := String.ofList (text.toList.map Char.toLower)
  lower text := String.ofList (text.toList.map Char.toLower)
  upper text := String.ofList (text.toList.map Char.toUpper)

end Monotone

end AiStp.Catalog
