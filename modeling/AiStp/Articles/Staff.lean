import AiStp.Articles.Filing

/-!
# Staff articles

A staff publication serves both locales of one staff article from the requested contents, and a
staff unpublication stops serving both. Neither touches what the repository owns, and both go on
only when the caller expects the pair that is served.
-/

set_option autoImplicit false

namespace AiStp.Articles

open Foundation Library

/-- What a staff request leaves: the pages of one staff article may change. -/
structure Staffed (system : System) (before : Content) {Reply : Type}
    (outcome : Outcome Reply) : Prop where
  written : Written system before outcome.content outcome.effects
  state : outcome.content.state = before.state
  repository : ∀ page, outcome.content.pointer .repository page = before.pointer .repository page

theorem Content.pointer_other {content : Content} {owner : ContentSourceKind} {page : Page}
    (h : ∀ article, content.articles.get? page.1 = some article → article.sourceKind ≠ owner) :
    content.pointer owner page = none := by
  cases harticle : content.articles.get? page.1 with
  | none =>
    unfold Content.pointer
    rw [harticle]
    rfl
  | some article =>
    rw [Content.pointer_eq harticle, if_neg (h article harticle)]

section Staff

variable {system : System} {before after : Content} {identity : String} {now : DateTime}

/-- Pages of one staff article may change without a change of what the repository serves. -/
theorem repository_of_staff (hsound : Sound system before) (hgrows : Grows before after)
    {article : Article} (harticle : after.articles.get? identity = some article)
    (hkind : article.sourceKind = .staff)
    (hothers : ∀ page, page.1 ≠ identity → after.active.get? page = before.active.get? page)
    (page : Page) : after.pointer .repository page = before.pointer .repository page := by
  by_cases hpage : page.1 = identity
  · have hafter : after.pointer .repository page = none := by
      apply Content.pointer_other
      intro held hheld
      rw [hpage, harticle] at hheld
      rw [← Option.some.inj hheld, hkind]
      decide
    have hbefore : before.pointer .repository page = none := by
      apply Content.pointer_other
      intro held hheld
      have hlater := hgrows.articles page.1 held hheld
      rw [hpage, harticle] at hlater
      rw [← Option.some.inj hlater, hkind]
      decide
    rw [hafter, hbefore]
  · exact hsound.pointer_grows hgrows (hothers page hpage) .repository

/-! ### Publishing -/

/-- What one locale adds to the effects. -/
def localeEffect (page : Page) (filed : Filed) (activated : Bool) : List Effect :=
  if activated then [⟨page.1, page.2, filed.revision.contentDigest⟩] else []

theorem mem_localeEffect {page other : Page} {filed : Filed} {activated : Bool} :
    other ∈ (localeEffect page filed activated).map Effect.page ↔
      activated = true ∧ other = page := by
  unfold localeEffect
  cases activated with
  | true => simp [Effect.page]
  | false => simp

theorem publishLocale_spec {article : Article} {request : StaffContentPublishRequest}
    {actor : String} {publishing next : Publishing} {locale : ContentLocale}
    (hcurrent : publishing.content.active.get? (identity, locale) =
      before.active.get? (identity, locale))
    (h : publishLocale system before identity article request actor now publishing locale =
      .ok next) :
    ∃ filed activated, Served system publishing.content article (identity, locale)
        (request.translation locale) ⟨.staff, none, none⟩ filed activated next.content ∧
      next.changed = publishing.changed ++ localeEffect (identity, locale) filed activated := by
  simp only [publishLocale, bind_eq_ok, pure, Except.pure, Except.ok.injEq] at h
  obtain ⟨filed, hfile, ⟨content, activated⟩, hset, rfl⟩ := h
  exact ⟨filed, activated, served_of_set hfile hcurrent hset, rfl⟩

theorem expectedPair_staff {pair : Option String} {article : Article}
    (h : expectedPair system before identity = .ok pair)
    (harticle : before.articles.get? identity = some article) : article.sourceKind = .staff := by
  unfold expectedPair at h
  rw [harticle] at h
  simp only [bind_eq_ok, require_eq_ok, decide_eq_true_eq] at h
  obtain ⟨-, hkind, -⟩ := h
  exact hkind

/-- A publication that goes on serves both locales. -/
theorem publishStaffArticle_spec {articleType slug : String}
    {request : StaffContentPublishRequest} {actor : String}
    {outcome : Outcome StaffContentPublishResponse} (hsound : Sound system before)
    (h : publishStaffArticle system before articleType slug request actor now = .ok outcome) :
    Staffed system before outcome ∧ ∃ known, requireIdentity articleType slug = .ok known ∧
      expectedPair system before (articleIdentity known slug) =
        .ok request.expectedActiveDigest := by
  simp only [publishStaffArticle, bind_eq_ok, require_eq_ok, decide_eq_true_eq, contentLocales,
    List.foldlM_cons, List.foldlM_nil, pure, Except.pure, Except.ok.injEq] at h
  obtain ⟨known, hknown, current, hcurrent, -, hexpected, ⟨article, added⟩, hensure, publishing,
    ⟨first, hfirst, second, hsecond, rfl⟩, digest, -, rfl⟩ := h
  refine ⟨?_, known, hknown, hexpected ▸ hcurrent⟩
  have hensured := ensureArticle_spec hensure
  have hkind : article.sourceKind = .staff := by
    rcases hensured.known with hheld | ⟨-, hfresh⟩
    · exact expectedPair_staff hcurrent hheld
    · rw [hfresh]
  have hstart : (Publishing.mk added [] [] []).content.active.get? (articleIdentity known slug, .ru) =
      before.active.get? (articleIdentity known slug, .ru) := by
    rw [hensured.active]
  obtain ⟨filed, activated, hserved, hchanged⟩ := publishLocale_spec hstart hfirst
  have hen : first.content.active.get? (articleIdentity known slug, .en) =
      before.active.get? (articleIdentity known slug, .en) := by
    rw [hserved.active_other (by simp)]
    show added.active.get? _ = _
    rw [hensured.active]
  obtain ⟨filed', activated', hserved', hchanged'⟩ := publishLocale_spec hen hsecond
  have hgrows : Grows before second.content :=
    (hensured.grows.trans hserved.grows).trans hserved'.grows
  have hheld : first.content.articles.get? (articleIdentity known slug) = some article := by
    rw [hserved.articles]
    exact hensured.held
  have hsound' : Sound system second.content :=
    hserved'.sound (hserved.sound (hensured.sound hsound rfl) hensured.held) hheld
  have hru : second.content.active.get? (articleIdentity known slug, .ru) =
      some filed.revisionId := by
    rw [hserved'.active_other (by simp), hserved.active_page]
  have hothers : ∀ page : Page, page.1 ≠ articleIdentity known slug →
      second.content.active.get? page = before.active.get? page := by
    intro page hpage
    rw [hserved'.active_other fun hsame ↦ hpage (congrArg Prod.fst hsame),
      hserved.active_other fun hsame ↦ hpage (congrArg Prod.fst hsame)]
    show added.active.get? page = _
    rw [hensured.active]
  have hunchanged := hserved.unchanged
  have hunchanged' := hserved'.unchanged
  have hadded : added.active = before.active := hensured.active
  rw [hen] at hunchanged'
  change activated = true ↔ added.active.get? _ ≠ _ at hunchanged
  rw [hadded] at hunchanged
  constructor
  · constructor
    · exact hsound'
    · exact hgrows
    · intro hpaired other
      by_cases hother : other = articleIdentity known slug
      · subst hother
        rw [hru, hserved'.active_page]
        rfl
      · rw [hothers _ hother, hothers _ hother]
        exact hpaired other
    · intro page
      rw [hchanged', hchanged, List.map_append, List.mem_append, List.map_append, List.mem_append,
        mem_localeEffect, mem_localeEffect, hunchanged, hunchanged']
      obtain ⟨other, locale⟩ := page
      by_cases hother : other = articleIdentity known slug
      · subst hother
        cases locale with
        | ru =>
          rw [hru]
          simp [eq_comm]
        | en =>
          rw [hserved'.active_page]
          simp [eq_comm]
      · rw [hothers _ hother]
        simp [hother]
  · exact (hserved'.state.trans hserved.state).trans hensured.state
  · refine repository_of_staff hsound hgrows ?_ hkind hothers
    rw [hserved'.articles, hheld]

/-! ### Taking down -/

theorem pairDigest_none (h : pairDigest system before identity = .ok none) :
    ∀ locale, before.active.get? (identity, locale) = none := by
  unfold pairDigest at h
  split at h
  · next hru hen =>
    intro locale
    cases locale with
    | ru => exact hru
    | en => exact hen
  · next ru en _ _ =>
    cases hdigest : activeDigest system ru en with
    | error fault =>
      rw [hdigest] at h
      cases h
    | ok digest =>
      rw [hdigest] at h
      cases h
  · cases h

theorem pairDigest_some {digest : String}
    (h : pairDigest system before identity = .ok (some digest)) :
    ∀ locale, before.active.get? (identity, locale) ≠ none := by
  unfold pairDigest at h
  split at h
  · cases h
  · next ru en hru hen =>
    intro locale
    cases locale with
    | ru =>
      rw [hru]
      simp
    | en =>
      rw [hen]
      simp
  · cases h

theorem removeLocales_spec {article : Article} (hsound : Sound system before)
    (harticle : before.articles.get? identity = some article) (hkind : article.sourceKind = .staff)
    (hserved : ∀ locale, before.active.get? (identity, locale) ≠ none) :
    Staffed system before (removeLocales before identity now) := by
  have hactive : ∀ page, (removeLocales before identity now).content.active.get? page =
      if page.1 = identity then none else before.active.get? page := by
    intro page
    show (before.active.filter fun page _ ↦ page.1 ≠ identity).get? page = _
    rw [Table.get?_filter]
    cases before.active.get? page with
    | none => simp
    | some id =>
      by_cases hpage : page.1 = identity
      · simp [hpage]
      · simp [hpage]
  constructor
  · constructor
    · refine hsound.of_fewer rfl rfl ?_
      intro page id hid
      rw [hactive] at hid
      split_ifs at hid
      exact hid
    · exact .of_eq rfl rfl
    · intro hpaired other
      rw [hactive, hactive]
      by_cases hother : other = identity
      · rw [if_pos hother, if_pos hother]
      · rw [if_neg hother, if_neg hother]
        exact hpaired other
    · intro page
      have heffects : (removeLocales before identity now).effects.map Effect.page =
        [(identity, .ru), (identity, .en)] := rfl
      rw [heffects, hactive]
      obtain ⟨other, locale⟩ := page
      by_cases hother : other = identity
      · subst hother
        rw [if_pos rfl]
        have hsome := hserved locale
        cases locale with
        | ru => simpa [eq_comm] using hsome
        | en => simpa [eq_comm] using hsome
      · rw [if_neg hother]
        simp [hother]
  · rfl
  · refine repository_of_staff hsound (.of_eq rfl rfl) harticle hkind ?_
    intro page hpage
    rw [hactive, if_neg hpage]

theorem unpublishStaffArticle_spec {articleType slug : String} {expected : Option String}
    {outcome : Outcome StaffContentUnpublishResponse} (hsound : Sound system before)
    (h : unpublishStaffArticle system before articleType slug expected now = .ok outcome) :
    Staffed system before outcome ∧ ∃ known, requireIdentity articleType slug = .ok known ∧
      ((∀ locale, before.active.get? (articleIdentity known slug, locale) = none) ∧
          outcome.content = before ∧ outcome.effects = [] ∨
        ∃ digest, expected = some digest ∧
          pairDigest system before (articleIdentity known slug) = .ok (some digest)) := by
  simp only [unpublishStaffArticle, bind_eq_ok, require_eq_ok, decide_eq_true_eq] at h
  obtain ⟨known, hknown, article, harticle, -, hkind, h⟩ := h
  have hheld : before.articles.get? (articleIdentity known slug) = some article := by
    cases hget : before.articles.get? (articleIdentity known slug) with
    | none =>
      rw [hget] at harticle
      cases harticle
    | some held =>
      rw [hget] at harticle
      exact congrArg some (Except.ok.inj harticle)
  simp only [removePair, bind_eq_ok] at h
  obtain ⟨current, hcurrent, h⟩ := h
  cases current with
  | none =>
    cases h
    refine ⟨⟨.refl hsound, rfl, fun _ ↦ rfl⟩, known, hknown, .inl ?_⟩
    exact ⟨pairDigest_none hcurrent, rfl, rfl⟩
  | some digest =>
    simp only [bind_eq_ok, require_eq_ok, decide_eq_true_eq, pure, Except.pure,
      Except.ok.injEq] at h
    obtain ⟨-, hexpected, rfl⟩ := h
    refine ⟨removeLocales_spec hsound hheld hkind (pairDigest_some hcurrent), known, hknown, ?_⟩
    exact .inr ⟨digest, hexpected, hcurrent⟩

end Staff

end AiStp.Articles
