import AiStp.Articles.Filing

/-!
# Importing a snapshot

A verified snapshot has one entry for each locale of each of its articles, and every entry has the
digest of its content (`Verified`). `Replacing` is the invariant of the loop over the entries: the
pages of the entries that are done show their contents, and every other page is as before. When the
pages that the snapshot does not have are removed too, what the repository serves `Matches` the
snapshot.
-/

set_option autoImplicit false

namespace AiStp.Articles

open Foundation Library

/-! ### Verified snapshots -/

structure Verified (system : System) (snapshot : ContentRepositoryImportRequest) : Prop where
  distinct : (snapshot.entries.map (·.key)).Nodup
  digests : ∀ entry ∈ snapshot.entries, revisionContentDigest system entry.articleType entry.slug
    entry.locale entry.translation.sorted entry.source = .ok entry.contentDigest
  owned : ∀ entry ∈ snapshot.entries, entry.sourceKind = .repository
  paired : ∀ entry ∈ snapshot.entries, ∀ locale, ∃ other ∈ snapshot.entries,
    other.page = (entry.identity, locale)

variable {entries : List ContentSnapshotEntry}

section Verified

variable {system : System} {snapshot : ContentRepositoryImportRequest} {today : Date}

theorem verifyEntry_spec {seen after : List (ContentType × String × ContentLocale)}
    {entry : ContentSnapshotEntry} (h : verifyEntry system snapshot today seen entry = .ok after) :
    after = entry.key :: seen ∧ entry.key ∉ seen ∧
      revisionContentDigest system entry.articleType entry.slug entry.locale
        entry.translation.sorted entry.source = .ok entry.contentDigest ∧
      entry.sourceKind = .repository := by
  simp only [verifyEntry, bind_eq_ok, require_eq_ok, decide_eq_true_eq, pure, Except.pure,
    Except.ok.injEq, exists_and_left, exists_const] at h
  obtain ⟨hfresh, digest, hdigest, hsame, -, hkind, -, -, -, -, hafter⟩ := h
  exact ⟨hafter.symm, hfresh, hsame ▸ hdigest, hkind⟩

theorem paired_of_parity {value : Unit} (h : assertLocaleParity entries = .ok value)
    {entry : ContentSnapshotEntry} (hentry : entry ∈ entries) (locale : ContentLocale) :
    ∃ other ∈ entries, other.page = (entry.identity, locale) := by
  unfold assertLocaleParity at h
  rw [require_eq_ok, decide_eq_true_eq] at h
  by_contra hmissing
  have hlocale : locale ∈ contentLocales := by
    cases locale <;> decide
  have hmem : entry.identity ∈ unpairedIdentities entries := by
    unfold unpairedIdentities
    rw [List.mem_filter, List.mem_insertionSort, List.mem_eraseDups]
    constructor
    · exact List.mem_map.mpr ⟨entry, hentry, rfl⟩
    · rw [Bool.not_eq_true', ← Bool.not_eq_true, List.all_eq_true]
      intro hall
      have hany := hall locale hlocale
      rw [List.any_eq_true] at hany
      obtain ⟨other, hother, hpage⟩ := hany
      exact hmissing ⟨other, hother, of_decide_eq_true hpage⟩
  rw [h] at hmem
  cases hmem

theorem verified_of_verify {value : Unit}
    (h : verifySnapshotDigests system snapshot today = .ok value) : Verified system snapshot := by
  simp only [verifySnapshotDigests, bind_eq_ok] at h
  obtain ⟨seen, hloop, parity, hparity, -⟩ := h
  have hdone : seen = (snapshot.entries.map (·.key)).reverse ∧
      (snapshot.entries.map (·.key)).Nodup ∧ ∀ entry ∈ snapshot.entries,
        revisionContentDigest system entry.articleType entry.slug entry.locale
          entry.translation.sorted entry.source = .ok entry.contentDigest ∧
        entry.sourceKind = .repository := by
    refine foldlM_ok_invariant (fun done seen ↦ seen = (done.map (·.key)).reverse ∧
      (done.map (·.key)).Nodup ∧ ∀ entry ∈ done,
        revisionContentDigest system entry.articleType entry.slug entry.locale
          entry.translation.sorted entry.source = .ok entry.contentDigest ∧
        entry.sourceKind = .repository) hloop ⟨rfl, List.nodup_nil, by simp⟩ ?_
    intro done entry seen after _ hdone hentry
    obtain ⟨hseen, hnodup, hall⟩ := hdone
    obtain ⟨hafter, hfresh, hdigest, hkind⟩ := verifyEntry_spec hentry
    refine ⟨?_, ?_, ?_⟩
    · rw [hafter, hseen]
      simp
    · rw [hseen, List.mem_reverse] at hfresh
      rw [List.map_append, List.map_singleton, List.nodup_append]
      refine ⟨hnodup, by simp, ?_⟩
      intro key hkey other hother hsame
      rw [List.mem_singleton.mp hother] at hsame
      exact hfresh (hsame ▸ hkey)
    · intro other hother
      rcases List.mem_append.mp hother with hold | hnew
      · exact hall other hold
      · rw [List.mem_singleton.mp hnew]
        exact ⟨hdigest, hkind⟩
  constructor
  · exact hdone.2.1
  · exact fun entry hentry ↦ (hdone.2.2 entry hentry).1
  · exact fun entry hentry ↦ (hdone.2.2 entry hentry).2
  · exact fun entry hentry ↦ paired_of_parity hparity hentry

/-- Different entries have different pages. -/
theorem Verified.eq_of_page (h : Verified system snapshot) {first second : ContentSnapshotEntry}
    (hfirst : first ∈ snapshot.entries) (hsecond : second ∈ snapshot.entries)
    (hpage : first.page = second.page) : first = second :=
  List.inj_on_of_nodup_map h.distinct hfirst hsecond
    (ContentSnapshotEntry.key_of_page hpage)

end Verified

/-! ### The order of the entries -/

theorem nodup_eraseDups {Item : Type} [DecidableEq Item] : ∀ items : List Item,
    items.eraseDups.Nodup
  | [] => List.nodup_nil
  | item :: items => by
    rw [List.eraseDups_cons, List.nodup_cons]
    constructor
    · rw [List.mem_eraseDups]
      simp
    · exact nodup_eraseDups _
termination_by items => items.length
decreasing_by exact Nat.lt_succ_of_le (List.length_filter_le _ items)

/-- The entries as the import goes through them. -/
def ordered (entries : List ContentSnapshotEntry) : List ContentSnapshotEntry :=
  (grouped entries).flatMap (·.2)

theorem mem_grouped {group : String × List ContentSnapshotEntry} :
    group ∈ grouped entries ↔ (∃ entry ∈ entries, entry.identity = group.1) ∧
      group.2 = entries.filter (·.identity = group.1) := by
  unfold grouped
  rw [List.mem_map]
  simp only [List.mem_eraseDups, List.mem_map]
  constructor
  · rintro ⟨identity, hidentity, rfl⟩
    exact ⟨hidentity, rfl⟩
  · rintro ⟨hidentity, hentries⟩
    exact ⟨group.1, hidentity, Prod.ext rfl hentries.symm⟩

theorem mem_ordered {entry : ContentSnapshotEntry} : entry ∈ ordered entries ↔ entry ∈ entries := by
  unfold ordered
  rw [List.mem_flatMap]
  constructor
  · rintro ⟨group, hgroup, hentry⟩
    rw [(mem_grouped.mp hgroup).2, List.mem_filter] at hentry
    exact hentry.1
  · intro hentry
    refine ⟨(entry.identity, entries.filter (·.identity = entry.identity)), ?_, ?_⟩
    · exact mem_grouped.mpr ⟨⟨entry, hentry, rfl⟩, rfl⟩
    · rw [List.mem_filter]
      exact ⟨hentry, by simp⟩

theorem Verified.nodup_pages {system : System} {snapshot : ContentRepositoryImportRequest}
    (h : Verified system snapshot) : ((ordered snapshot.entries).map (·.page)).Nodup := by
  have hnodup : (ordered snapshot.entries).Nodup := by
    unfold ordered
    rw [List.nodup_flatMap]
    constructor
    · intro group hgroup
      rw [(mem_grouped.mp hgroup).2]
      exact (List.Nodup.of_map _ h.distinct).filter _
    · have hidentities : ((grouped snapshot.entries).map Prod.fst).Nodup := by
        unfold grouped
        rw [List.map_map]
        simpa [Function.comp_def] using
          nodup_eraseDups (snapshot.entries.map (·.identity))
      have hpairwise := List.pairwise_map.mp hidentities
      refine hpairwise.imp_of_mem ?_
      intro first second hfirst hsecond hne entry hentry hentry'
      change entry ∈ first.2 at hentry
      change entry ∈ second.2 at hentry'
      rw [(mem_grouped.mp hfirst).2, List.mem_filter, decide_eq_true_eq] at hentry
      rw [(mem_grouped.mp hsecond).2, List.mem_filter, decide_eq_true_eq] at hentry'
      exact hne (hentry.2.symm.trans hentry'.2)
  refine hnodup.map_on ?_
  intro first hfirst second hsecond hpage
  exact h.eq_of_page (mem_ordered.mp hfirst) (mem_ordered.mp hsecond) hpage

/-! ### The loop over the entries -/

/-- A page of the repository shows the content of an entry: its revision has the digest of the
entry, or has it with the commit of the entry in place of its own. -/
def Shows (system : System) (content : Content) (entry : ContentSnapshotEntry) : Prop :=
  ∃ article id revision, content.articles.get? entry.identity = some article ∧
    article.sourceKind = .repository ∧ content.active.get? entry.page = some id ∧
    content.revisions.get? id = some revision ∧
    (revision.contentDigest = entry.contentDigest ∨
      restampedDigest system article revision entry.sourceRef = .ok entry.contentDigest)

theorem Shows.grows {system : System} {content after : Content} {entry : ContentSnapshotEntry}
    (h : Shows system content entry) (hgrows : Grows content after)
    (hactive : after.active.get? entry.page = content.active.get? entry.page) :
    Shows system after entry := by
  obtain ⟨article, id, revision, harticle, hkind, hid, hrevision, hdigest⟩ := h
  exact ⟨article, id, revision, hgrows.articles entry.identity article harticle, hkind,
    hactive.trans hid, hgrows.revisions id revision hrevision, hdigest⟩

/-- The entries that are done are in place, and everything else is as before. -/
structure Replacing (system : System) (before : Content) (done : List ContentSnapshotEntry)
    (progress : Progress) : Prop where
  sound : Sound system progress.content
  grows : Grows before progress.content
  state : progress.content.state = before.state
  owned : ∀ id article, progress.content.articles.get? id = some article →
    before.articles.get? id = some article ∨ article.sourceKind = .repository
  kept : progress.kept = done.map (·.page)
  shows : ∀ entry ∈ done, Shows system progress.content entry
  others : ∀ page, page ∉ done.map (·.page) →
    progress.content.active.get? page = before.active.get? page
  changed : ∀ page, page ∈ progress.changed.map Effect.page ↔
    progress.content.active.get? page ≠ before.active.get? page

section Replacing

variable {system : System} {before : Content} {now : DateTime}
  {done : List ContentSnapshotEntry} {progress next : Progress} {article : Article}
  {entry : ContentSnapshotEntry}

theorem replacing_start (hsound : Sound system before) :
    Replacing system before [] (.start before) where
  sound := hsound
  grows := .refl before
  state := rfl
  owned := fun _ _ h ↦ .inl h
  kept := rfl
  shows := by simp
  others := fun _ _ ↦ rfl
  changed := by simp [Progress.start]

section

variable (h : Replacing system before done progress)
include h

/-- An entry whose content is served already. -/
theorem Replacing.keep (hfresh : entry.page ∉ done.map (·.page))
    (harticle : progress.content.articles.get? entry.identity = some article)
    (hkind : article.sourceKind = .repository)
    (hpublished : alreadyPublished system before article entry.page entry = .ok true) :
    Replacing system before (done ++ [entry]) (progress.keep entry.page) := by
  have hshows : Shows system progress.content entry := by
    unfold alreadyPublished at hpublished
    split at hpublished
    · cases hpublished
    · next revision hactive =>
      rw [Option.bind_eq_some_iff] at hactive
      obtain ⟨id, hid, hrevision⟩ := hactive
      simp only [publishes, bind_eq_ok, pure, Except.pure, Except.ok.injEq,
        decide_eq_true_eq] at hpublished
      obtain ⟨restamped, hrestamped, hsame⟩ := hpublished
      exact ⟨article, id, revision, harticle, hkind, (h.others entry.page hfresh).trans hid,
        h.grows.revisions id revision hrevision, .inr (hsame ▸ hrestamped)⟩
  constructor
  · exact h.sound
  · exact h.grows
  · exact h.state
  · exact h.owned
  · show progress.kept ++ [entry.page] = _
    rw [h.kept, List.map_append, List.map_singleton]
  · intro other hother
    rcases List.mem_append.mp hother with hold | hnew
    · exact h.shows other hold
    · rw [List.mem_singleton.mp hnew]
      exact hshows
  · intro page hpage
    rw [List.map_append, List.mem_append, not_or] at hpage
    exact h.others page hpage.1
  · exact h.changed

/-- An entry whose page is pointed to a revision with its content. -/
theorem Replacing.point (hfresh : entry.page ∉ done.map (·.page))
    (harticle : progress.content.articles.get? entry.identity = some article)
    (hkind : article.sourceKind = .repository)
    (hdigest : revisionContentDigest system article.articleType article.slug entry.locale
      entry.translation.sorted ⟨.repository, some entry.sourceRef, some entry.sourcePath⟩ =
        .ok entry.contentDigest)
    (hreplace : replaceEntry system before now article entry.page progress entry = .ok next) :
    Replacing system before (done ++ [entry]) next ∧
      next.content.articles = progress.content.articles := by
  simp only [replaceEntry, bind_eq_ok, pure, Except.pure, Except.ok.injEq] at hreplace
  obtain ⟨filed, hfile, ⟨content, activated⟩, hset, rfl⟩ := hreplace
  have hserved := served_of_set hfile (h.others entry.page hfresh) hset
  have hcontent : filed.revision.contentDigest = entry.contentDigest :=
    Except.ok.inj (hserved.digest.symm.trans hdigest)
  refine ⟨?_, hserved.articles⟩
  constructor
  · exact hserved.sound h.sound harticle
  · exact h.grows.trans hserved.grows
  · exact hserved.state.trans h.state
  · intro id held hheld
    change content.articles.get? id = some held at hheld
    rw [hserved.articles] at hheld
    exact h.owned id held hheld
  · show progress.kept ++ [entry.page] = _
    rw [h.kept, List.map_append, List.map_singleton]
  · intro other hother
    rcases List.mem_append.mp hother with hold | hnew
    · have hne : other.page ≠ entry.page := by
        intro hsame
        exact hfresh (hsame ▸ List.mem_map_of_mem hold)
      exact (h.shows other hold).grows hserved.grows (hserved.active_other hne)
    · rw [List.mem_singleton.mp hnew]
      have hheld : content.articles.get? entry.identity = some article := by
        rw [hserved.articles, harticle]
      exact ⟨article, filed.revisionId, filed.revision, hheld, hkind, hserved.active_page,
        hserved.stored, .inl hcontent⟩
  · intro page hpage
    rw [List.map_append, List.mem_append, not_or] at hpage
    have hne : page ≠ entry.page := by
      intro hsame
      exact hpage.2 (by rw [hsame, List.map_singleton, List.mem_singleton])
    show content.active.get? page = _
    rw [hserved.active_other hne]
    exact h.others page hpage.1
  · intro page
    show page ∈ (progress.changed ++ if activated = true then
      [(⟨entry.page.1, entry.page.2, filed.revision.contentDigest⟩ : Effect)] else []).map
        Effect.page ↔ content.active.get? page ≠ before.active.get? page
    rw [List.map_append, List.mem_append, h.changed]
    by_cases hpage : page = entry.page
    · have hold := h.others entry.page hfresh
      rw [hpage, hserved.active_page, hold]
      have hunchanged := hserved.unchanged
      rw [hold] at hunchanged
      by_cases hactivated : activated = true
      · rw [if_pos hactivated]
        have hne := hunchanged.mp hactivated
        simp [Effect.page, hne.symm]
      · rw [if_neg hactivated]
        have hsame : before.active.get? entry.page = some filed.revisionId := by
          by_contra hne
          exact hactivated (hunchanged.mpr hne)
        simp [hsame]
    · rw [hserved.active_other hpage]
      have hnone : page ∉ (if activated = true then
          [(⟨entry.page.1, entry.page.2, filed.revision.contentDigest⟩ : Effect)] else []).map
            Effect.page := by
        split_ifs
        · simpa [Effect.page] using hpage
        · simp
      simp [hnone]

theorem Replacing.step {identity : String} (hfresh : entry.page ∉ done.map (·.page))
    (hidentity : entry.identity = identity)
    (harticle : progress.content.articles.get? identity = some article)
    (hkind : article.sourceKind = .repository)
    (hdigest : revisionContentDigest system article.articleType article.slug entry.locale
      entry.translation.sorted ⟨.repository, some entry.sourceRef, some entry.sourcePath⟩ =
        .ok entry.contentDigest)
    (hentry : importEntry system before now identity article progress entry = .ok next) :
    Replacing system before (done ++ [entry]) next ∧
      next.content.articles.get? identity = some article := by
  subst hidentity
  simp only [importEntry, bind_eq_ok] at hentry
  obtain ⟨published, hpublished, hentry⟩ := hentry
  cases published with
  | true =>
    have hnext : progress.keep entry.page = next := Except.ok.inj hentry
    rw [← hnext]
    exact ⟨h.keep hfresh harticle hkind hpublished, harticle⟩
  | false =>
    obtain ⟨hnext, harticles⟩ := h.point hfresh harticle hkind hdigest hentry
    exact ⟨hnext, by rw [harticles, harticle]⟩

/-- Adding the article of a group of entries. -/
theorem Replacing.ensure {identity : String} {fresh : Article} {content : Content}
    (hensured : Ensured progress.content identity fresh article content)
    (hidentity : identity = articleIdentity fresh.articleType fresh.slug)
    (hfresh : fresh.sourceKind = .repository) :
    Replacing system before done { progress with content } := by
  constructor
  · exact hensured.sound h.sound hidentity
  · exact h.grows.trans hensured.grows
  · exact hensured.state.trans h.state
  · intro id held hheld
    by_cases hid : id = identity
    · rw [hid] at hheld ⊢
      change content.articles.get? identity = some held at hheld
      rw [hensured.held] at hheld
      rcases hensured.known with hknown | ⟨-, hnew⟩
      · exact h.owned identity held (hknown.trans hheld)
      · rw [← Option.some.inj hheld, hnew]
        exact .inr hfresh
    · exact h.owned id held ((hensured.others id hid).symm.trans hheld)
  · exact h.kept
  · intro entry hentry
    exact (h.shows entry hentry).grows hensured.grows (by rw [hensured.active])
  · intro page hpage
    show content.active.get? page = _
    rw [hensured.active]
    exact h.others page hpage
  · intro page
    show page ∈ progress.changed.map Effect.page ↔ content.active.get? page ≠ _
    rw [hensured.active]
    exact h.changed page

end

end Replacing

/-! ### All entries -/

/-- No identity of the snapshot belongs to another owner. -/
def Unclaimed (before : Content) (entries : List ContentSnapshotEntry) : Prop :=
  ∀ entry ∈ entries, ∀ article, before.articles.get? entry.identity = some article →
    article.sourceKind = .repository

theorem unclaimed_of_conflicts {before : Content} (h : conflicts before entries = false) :
    Unclaimed before entries := by
  intro entry hentry article harticle
  unfold conflicts at h
  rw [List.any_eq_false] at h
  have hentry' := h entry hentry
  rw [harticle] at hentry'
  simpa using hentry'

section Entries

variable {system : System} {before : Content} {now : DateTime}
  {snapshot : ContentRepositoryImportRequest} {done : List ContentSnapshotEntry}
  {progress next : Progress}

theorem Verified.digest_of_article (hverified : Verified system snapshot)
    {entry : ContentSnapshotEntry} (hentry : entry ∈ snapshot.entries) {article : Article}
    (hidentity : entry.identity = articleIdentity article.articleType article.slug) :
    revisionContentDigest system article.articleType article.slug entry.locale
      entry.translation.sorted ⟨.repository, some entry.sourceRef, some entry.sourcePath⟩ =
        .ok entry.contentDigest := by
  obtain ⟨htype, hslug⟩ := articleIdentity_inj hidentity
  have hdigest := hverified.digests entry hentry
  rw [ContentSnapshotEntry.source, hverified.owned entry hentry, htype, hslug] at hdigest
  exact hdigest

theorem Replacing.article (h : Replacing system before done progress)
    (hverified : Verified system snapshot) (hunclaimed : Unclaimed before snapshot.entries)
    {group : String × List ContentSnapshotEntry} (hgroup : group ∈ grouped snapshot.entries)
    (hnodup : ((done ++ group.2).map (·.page)).Nodup)
    (hrun : importArticle system before now progress group = .ok next) :
    Replacing system before (done ++ group.2) next := by
  have hentries : ∀ entry ∈ group.2, entry ∈ snapshot.entries ∧ entry.identity = group.1 := by
    intro entry hentry
    rw [(mem_grouped.mp hgroup).2, List.mem_filter, decide_eq_true_eq] at hentry
    exact hentry
  simp only [importArticle, bind_eq_ok, raising_eq_ok] at hrun
  obtain ⟨english, hfind, ⟨article, content⟩, hensure, hloop⟩ := hrun
  obtain ⟨henglish, hname⟩ := hentries english (List.mem_of_find?_eq_some hfind)
  have hensured := ensureArticle_spec hensure
  have hstart := h.ensure hensured hname.symm rfl
  have hkind : article.sourceKind = .repository := by
    rcases hensured.known with hknown | ⟨-, hfresh⟩
    · rcases h.owned group.1 article hknown with hold | hnew
      · exact hunclaimed english henglish article (hname.symm ▸ hold)
      · exact hnew
    · rw [hfresh]
  have htyped := hstart.sound.typed group.1 article hensured.held
  have hresult : Replacing system before (done ++ group.2) next ∧
      next.content.articles.get? group.1 = some article := by
    refine foldlM_ok_invariant (fun inner progress ↦
      Replacing system before (done ++ inner) progress ∧
        progress.content.articles.get? group.1 = some article) hloop ?_ ?_
    · rw [List.append_nil]
      exact ⟨hstart, hensured.held⟩
    · intro inner entry progress next hpart hinner hstep
      obtain ⟨hreplacing, hheld⟩ := hinner
      obtain ⟨hentry, hidentity⟩ := hentries entry (hpart.subset (by simp))
      have hfresh : entry.page ∉ (done ++ inner).map (·.page) := by
        have hsublist : ((done ++ (inner ++ [entry])).map (·.page)).Nodup :=
          hnodup.sublist ((List.Sublist.append_left hpart.sublist done).map _)
        rw [← List.append_assoc, List.map_append, List.nodup_append] at hsublist
        intro hmem
        exact hsublist.2.2 entry.page hmem entry.page (by simp) rfl
      rw [← List.append_assoc]
      exact hreplacing.step hfresh hidentity hheld hkind
        (hverified.digest_of_article hentry (hidentity.trans htyped)) hstep
  exact hresult.1

theorem replacing_entries (hsound : Sound system before) (hverified : Verified system snapshot)
    (hunclaimed : Unclaimed before snapshot.entries)
    (hrun : (grouped snapshot.entries).foldlM (importArticle system before now)
      (.start before) = .ok next) : Replacing system before (ordered snapshot.entries) next := by
  refine foldlM_ok_invariant (fun groups progress ↦
    Replacing system before (groups.flatMap (·.2)) progress) hrun (replacing_start hsound) ?_
  intro groups group progress next hpart hreplacing hstep
  have hparts : (groups ++ [group]).flatMap (·.2) = groups.flatMap (·.2) ++ group.2 := by
    simp
  rw [hparts]
  refine hreplacing.article hverified hunclaimed (hpart.subset (by simp)) ?_ hstep
  rw [← hparts]
  obtain ⟨rest, hrest⟩ := hpart
  have hpages := hverified.nodup_pages
  rw [ordered, ← hrest, List.flatMap_append, List.map_append] at hpages
  exact hpages.of_append_left

end Entries

/-! ### What the repository serves -/

/-- The pages of the repository are those of the snapshot, each with the content of its entry. -/
structure Matches (system : System) (content : Content)
    (snapshot : ContentRepositoryImportRequest) : Prop where
  pages : ∀ page, (content.pointer .repository page).isSome ↔
    ∃ entry ∈ snapshot.entries, entry.page = page
  shows : ∀ entry ∈ snapshot.entries, Shows system content entry

/-- What an import leaves when the snapshot is a new one. -/
structure Imported (system : System) (before : Content) (state : ArticleRepositoryState)
    (snapshot : ContentRepositoryImportRequest)
    (outcome : Outcome ContentRepositoryImportResponse) : Prop where
  written : Written system before outcome.content outcome.effects
  matched : Matches system outcome.content snapshot
  staff : ∀ page, outcome.content.pointer .staff page = before.pointer .staff page
  owners : ∀ id article, outcome.content.articles.get? id = some article →
    before.articles.get? id = some article ∨ article.sourceKind = .repository
  generation : ∃ generation, outcome.content.state =
      some ⟨generation, some snapshot.snapshotDigest, some snapshot.commit⟩ ∧
    ((∃ page, outcome.content.pointer .repository page ≠ before.pointer .repository page) ∧
        generation = state.generation + 1 ∨
      (∀ page, outcome.content.pointer .repository page = before.pointer .repository page) ∧
        generation = state.generation)

section Finish

variable {system : System} {before : Content} {state : ArticleRepositoryState}
  {snapshot : ContentRepositoryImportRequest} {progress : Progress}

variable {page : Page}

theorem mem_removedPages : page ∈ removedPages before progress ↔
    (∃ id, before.active.get? page = some id) ∧ page ∉ progress.kept ∧
      ∃ article, progress.content.articles.get? page.1 = some article ∧
        article.sourceKind = .repository := by
  unfold removedPages
  rw [List.mem_filter, Bool.and_eq_true, decide_eq_true_eq, Option.any_eq_true]
  simp only [decide_eq_true_eq]
  constructor
  · rintro ⟨hkey, hkept, howner⟩
    obtain ⟨⟨name, id⟩, hentry, rfl⟩ := List.mem_map.mp hkey
    exact ⟨⟨id, Table.mem_entries.mp hentry⟩, hkept, howner⟩
  · rintro ⟨⟨id, hid⟩, hkept, howner⟩
    exact ⟨List.mem_map.mpr ⟨(page, id), Table.mem_entries.mpr hid, rfl⟩, hkept, howner⟩

theorem finishImport_active (page : Page) :
    (finishImport before state snapshot progress).content.active.get? page =
      if page ∈ removedPages before progress then none else progress.content.active.get? page := by
  show (progress.content.active.filter fun page _ ↦
    page ∉ removedPages before progress).get? page = _
  rw [Table.get?_filter]
  cases hactive : progress.content.active.get? page with
  | none => simp
  | some id =>
    by_cases hremoved : page ∈ removedPages before progress
    · simp [hremoved]
    · simp [hremoved]

variable (h : Replacing system before (ordered snapshot.entries) progress)
include h

theorem Replacing.mem_kept :
    page ∈ progress.kept ↔ ∃ entry ∈ snapshot.entries, entry.page = page := by
  rw [h.kept, List.mem_map]
  constructor
  · rintro ⟨entry, hentry, hpage⟩
    exact ⟨entry, mem_ordered.mp hentry, hpage⟩
  · rintro ⟨entry, hentry, hpage⟩
    exact ⟨entry, mem_ordered.mpr hentry, hpage⟩

theorem Replacing.active_of_not_kept (hkept : page ∉ progress.kept) :
    progress.content.active.get? page = before.active.get? page := by
  rw [h.kept] at hkept
  exact h.others page hkept

/-- The pages that change are those of the effects. -/
theorem Replacing.reported (page : Page) :
    page ∈ (finishImport before state snapshot progress).effects.map Effect.page ↔
      (finishImport before state snapshot progress).content.active.get? page ≠
        before.active.get? page := by
  have heffects : (finishImport before state snapshot progress).effects.map Effect.page =
      progress.changed.map Effect.page ++ removedPages before progress := by
    show (progress.changed ++ (removedPages before progress).map _).map Effect.page = _
    rw [List.map_append, List.map_map]
    congr 1
    simp [Function.comp_def, Effect.page]
  rw [heffects, List.mem_append, h.changed, finishImport_active]
  by_cases hremoved : page ∈ removedPages before progress
  · rw [if_pos hremoved]
    obtain ⟨⟨id, hid⟩, -⟩ := mem_removedPages.mp hremoved
    simp [hremoved, hid]
  · rw [if_neg hremoved]
    simp [hremoved]

theorem Replacing.finish_grows :
    Grows before (finishImport before state snapshot progress).content :=
  h.grows.trans (.of_eq rfl rfl)

theorem Replacing.finish_sound :
    Sound system (finishImport before state snapshot progress).content := by
  refine h.sound.of_fewer rfl rfl ?_
  intro page id hid
  rw [finishImport_active] at hid
  split_ifs at hid
  exact hid

theorem Replacing.finish_shows {entry : ContentSnapshotEntry} (hentry : entry ∈ snapshot.entries) :
    Shows system (finishImport before state snapshot progress).content entry := by
  refine (h.shows entry (mem_ordered.mpr hentry)).grows (.of_eq rfl rfl) ?_
  have hkept := h.mem_kept.mpr ⟨entry, hentry, rfl⟩
  rw [finishImport_active, if_neg fun hremoved ↦ (mem_removedPages.mp hremoved).2.1 hkept]

/-- The pages of an article whose owner is the repository. -/
theorem Replacing.finish_pointer {article : Article}
    (harticle : progress.content.articles.get? page.1 = some article)
    (hkind : article.sourceKind = .repository) (hkept : page ∉ progress.kept) :
    (finishImport before state snapshot progress).content.active.get? page = none := by
  rw [finishImport_active]
  cases hactive : before.active.get? page with
  | none =>
    rw [h.active_of_not_kept hkept, hactive]
    simp
  | some id =>
    rw [if_pos (mem_removedPages.mpr ⟨⟨id, hactive⟩, hkept, article, harticle, hkind⟩)]

/-- The pages of an article whose owner is the staff. -/
theorem Replacing.finish_staff {article : Article}
    (harticle : progress.content.articles.get? page.1 = some article)
    (hkind : article.sourceKind ≠ .repository) :
    (finishImport before state snapshot progress).content.active.get? page =
      before.active.get? page := by
  have hkept : page ∉ progress.kept := by
    intro hmem
    obtain ⟨entry, hentry, rfl⟩ := h.mem_kept.mp hmem
    obtain ⟨held, -, -, hheld, howner, -⟩ := h.shows entry (mem_ordered.mpr hentry)
    have hsame : held = article := Option.some.inj (hheld.symm.trans harticle)
    exact hkind (hsame ▸ howner)
  have hremoved : page ∉ removedPages before progress := by
    intro hmem
    obtain ⟨-, -, held, hheld, howner⟩ := mem_removedPages.mp hmem
    have hsame : held = article := Option.some.inj (hheld.symm.trans harticle)
    exact hkind (hsame ▸ howner)
  rw [finishImport_active, if_neg hremoved, h.active_of_not_kept hkept]

theorem Replacing.finish_matches :
    Matches system (finishImport before state snapshot progress).content snapshot := by
  constructor
  · intro page
    constructor
    · intro hsome
      by_contra hmissing
      have hkept : page ∉ progress.kept := fun hmem ↦ hmissing (h.mem_kept.mp hmem)
      unfold Content.pointer at hsome
      split_ifs at hsome with howner
      · obtain ⟨article, harticle, hkind⟩ := Option.any_eq_true _ _ |>.mp howner
        rw [h.finish_pointer harticle (of_decide_eq_true hkind) hkept] at hsome
        cases hsome
      · cases hsome
    · rintro ⟨entry, hentry, rfl⟩
      obtain ⟨article, id, -, harticle, hkind, hid, -⟩ := h.finish_shows hentry
      have hheld : (finishImport before state snapshot progress).content.articles.get?
        entry.page.1 = some article := harticle
      rw [Content.pointer_eq hheld, if_pos hkind, hid]
      rfl
  · exact fun entry hentry ↦ h.finish_shows hentry

theorem Replacing.finish_paired (hverified : Verified system snapshot) (hpaired : Paired before) :
    Paired (finishImport before state snapshot progress).content := by
  intro identity
  by_cases hnamed : ∃ entry ∈ snapshot.entries, entry.identity = identity
  · obtain ⟨entry, hentry, hidentity⟩ := hnamed
    have hlocale : ∀ locale, ((finishImport before state snapshot progress).content.active.get?
        (identity, locale)).isSome = true := by
      intro locale
      obtain ⟨other, hother, hpage⟩ := hverified.paired entry hentry locale
      have hshows : Shows system (finishImport before state snapshot progress).content other :=
        h.finish_shows hother
      obtain ⟨-, id, -, -, -, hid, -⟩ := hshows
      rw [← hidentity, ← hpage, hid]
      rfl
    rw [hlocale, hlocale]
  · have hkept : ∀ locale, ((identity, locale) : Page) ∉ progress.kept := by
      intro locale hmem
      obtain ⟨entry, hentry, hpage⟩ := h.mem_kept.mp hmem
      exact hnamed ⟨entry, hentry, congrArg Prod.fst hpage⟩
    cases harticle : progress.content.articles.get? identity with
    | none =>
      have hnone : ∀ locale, (finishImport before state snapshot progress).content.active.get?
          (identity, locale) = none := by
        intro locale
        cases hactive : (finishImport before state snapshot progress).content.active.get?
            (identity, locale) with
        | none => rfl
        | some id =>
          obtain ⟨article, hheld⟩ := h.finish_sound.article_of_active hactive
          change progress.content.articles.get? identity = some article at hheld
          rw [harticle] at hheld
          cases hheld
      rw [hnone, hnone]
    | some article =>
      by_cases hkind : article.sourceKind = .repository
      · rw [h.finish_pointer harticle hkind (hkept .ru), h.finish_pointer harticle hkind (hkept .en)]
      · rw [h.finish_staff harticle hkind, h.finish_staff harticle hkind]
        exact hpaired identity

theorem Replacing.finish_staff_pointer (hsound : Sound system before) (page : Page) :
    (finishImport before state snapshot progress).content.pointer .staff page =
      before.pointer .staff page := by
  cases harticle : progress.content.articles.get? page.1 with
  | none =>
    have hnone : before.articles.get? page.1 = none := by
      cases hheld : before.articles.get? page.1 with
      | none => rfl
      | some article =>
        have hlater := h.grows.articles page.1 article hheld
        rw [harticle] at hlater
        cases hlater
    have hafter : (finishImport before state snapshot progress).content.articles.get? page.1 =
      none := harticle
    unfold Content.pointer
    rw [hafter, hnone]
    rfl
  | some article =>
    by_cases hkind : article.sourceKind = .repository
    · have hheld : (finishImport before state snapshot progress).content.articles.get? page.1 =
        some article := harticle
      rw [Content.pointer_eq hheld, if_neg (by rw [hkind]; decide)]
      unfold Content.pointer
      cases hheld : before.articles.get? page.1 with
      | none => rfl
      | some held =>
        have hsame : held = article := by
          have hlater := h.grows.articles page.1 held hheld
          exact Option.some.inj (hlater.symm.trans harticle)
        rw [hsame]
        simp [hkind]
    · exact hsound.pointer_grows h.finish_grows (h.finish_staff harticle hkind) .staff

theorem Replacing.finish_generation (hsound : Sound system before) :
    (∃ page, (finishImport before state snapshot progress).content.pointer .repository page ≠
        before.pointer .repository page) ↔
      (finishImport before state snapshot progress).effects ≠ [] := by
  constructor
  · rintro ⟨page, hpage⟩ hnone
    have hactive : (finishImport before state snapshot progress).content.active.get? page =
        before.active.get? page := by
      by_contra hne
      have hmem := (h.reported page).mpr hne
      rw [hnone] at hmem
      cases hmem
    exact hpage (hsound.pointer_grows h.finish_grows hactive .repository)
  · intro hsome
    obtain ⟨effect, heffect⟩ := List.exists_mem_of_ne_nil _ hsome
    have hactive := (h.reported effect.page).mp (List.mem_map_of_mem heffect)
    cases harticle : progress.content.articles.get? effect.page.1 with
    | none =>
      exfalso
      apply hactive
      have hserved : ∀ id, before.active.get? effect.page ≠ some id := by
        intro id hid
        obtain ⟨article, hheld⟩ := hsound.article_of_active hid
        have hlater := h.grows.articles effect.page.1 article hheld
        rw [harticle] at hlater
        cases hlater
      have hserved' : ∀ id, (finishImport before state snapshot progress).content.active.get?
          effect.page ≠ some id := by
        intro id hid
        obtain ⟨article, hheld⟩ := h.finish_sound.article_of_active hid
        change progress.content.articles.get? effect.page.1 = some article at hheld
        rw [harticle] at hheld
        cases hheld
      rw [Option.eq_none_iff_forall_ne_some.mpr hserved,
        Option.eq_none_iff_forall_ne_some.mpr hserved']
    | some article =>
      by_cases hkind : article.sourceKind = .repository
      · exact ⟨effect.page, hsound.pointer_ne h.finish_grows harticle hkind hactive⟩
      · exact absurd (h.finish_staff harticle hkind) hactive

omit h in
theorem replaceSnapshot_spec {now : DateTime} {outcome : Outcome ContentRepositoryImportResponse}
    (hsound : Sound system before) (hverified : Verified system snapshot)
    (hunclaimed : Unclaimed before snapshot.entries)
    (hrun : replaceSnapshot system before state snapshot now = .ok outcome) :
    Imported system before state snapshot outcome := by
  simp only [replaceSnapshot, bind_eq_ok, pure, Except.pure, Except.ok.injEq] at hrun
  obtain ⟨progress, hloop, rfl⟩ := hrun
  have h := replacing_entries hsound hverified hunclaimed hloop
  constructor
  · exact ⟨h.finish_sound, h.finish_grows, h.finish_paired hverified, h.reported⟩
  · exact h.finish_matches
  · exact h.finish_staff_pointer hsound
  · exact h.owned
  · by_cases heffects : (finishImport before state snapshot progress).effects = []
    · refine ⟨state.generation, ?_, .inr ⟨?_, rfl⟩⟩
      · show some (ArticleRepositoryState.mk (if (finishImport before state snapshot
          progress).effects = [] then _ else _) _ _) = _
        rw [if_pos heffects]
      · intro page
        by_contra hne
        exact (h.finish_generation hsound).mp ⟨page, hne⟩ heffects
    · refine ⟨state.generation + 1, ?_, .inl ⟨(h.finish_generation hsound).mpr heffects, rfl⟩⟩
      show some (ArticleRepositoryState.mk (if (finishImport before state snapshot
        progress).effects = [] then _ else _) _ _) = _
      rw [if_neg heffects]

end Finish

end AiStp.Articles
