import CppBlog.Fresh

set_option autoImplicit false

/-! # What a cached page shows of the request it was made for

A page is cached under a key made of the numbers in the path and of the search text, and is served to
every later request that computes the same key. The page of a post shows the method of its request and
the pager of a listing repeats the whole query string; neither is part of the key. -/

namespace CppBlog

open Effect Store App

/-! ## The pager -/

theorem multiPageLink_injective {query query' href cls text : String}
    (h : multiPageLink query href cls text = multiPageLink query' href cls text) : query = query' := by
  have hne (q : String) : "?" ++ q ≠ "" := by
    intro hq
    have hlist := congrArg String.toList hq
    exact absurd hlist (by simp)
  simp only [multiPageLink, PageItem.link.injEq, and_true] at h
  have hlist := congrArg String.toList h
  simp only [String.toList_append] at hlist
  have hquery := String.toList_injective (List.append_cancel_left hlist)
  split_ifs at hquery with hq hq' hq'
  · rw [String.isEmpty_iff.1 hq, String.isEmpty_iff.1 hq']
  · exact absurd hquery.symm (hne query')
  · exact absurd hquery (hne query)
  · have hlist := congrArg String.toList hquery
    simp only [String.toList_append] at hlist
    exact String.toList_injective (List.append_cancel_left hlist)

/-- The page shown is one of the pages. -/
theorem Paging.curpage_range {p : Paging} (h : 1 < p.calcPages.pageTotal) :
    0 ≤ p.calcPages.curpage ∧ p.calcPages.curpage < p.calcPages.pageTotal := by
  unfold Paging.calcPages at h ⊢
  split
  · rename_i hnone
    rw [if_pos hnone] at h
    exact absurd h (lt_irrefl _)
  · rename_i hsome
    rw [if_neg hsome] at h
    dsimp only at h ⊢
    generalize -(-p.pageRecords / (if p.pageSize ≤ 0 then 10 else p.pageSize)) = total at h ⊢
    split_ifs <;> omega

/-- A pager of several pages has a link, and every link repeats the query string. -/
theorem multiPage_inj {url : Option Int → String} {query query' : String} {p : Paging}
    (htotal : 1 < p.pageTotal) (hcur : 0 ≤ p.curpage ∧ p.curpage < p.pageTotal)
    (h : multiPage url query p = multiPage url query' p) : query = query' := by
  have hitems := congrArg MultiPage.items h
  simp only [multiPage, if_pos htotal] at hitems
  generalize hb : (if p.curpage - 5 < 0 then 0 else p.curpage - 5) = b at hitems
  generalize he : (if p.pageTotal ≤ b + 9 then p.pageTotal - 1 else b + 9) = e at hitems
  by_cases hfirst : 0 < b
  · -- the link to the first page
    simp only [if_pos hfirst, List.cons_append, List.cons.injEq] at hitems
    exact multiPageLink_injective hitems.1
  · simp only [if_neg hfirst, List.nil_append] at hitems
    have hpages := (List.append_inj hitems (by simp)).1
    -- at least two pages are listed, and one of the first two is not the page shown
    have htwo : 1 < (e - b + 1).toNat := by
      split_ifs at hb he <;> omega
    obtain ⟨i, hi, hne⟩ : ∃ i : Nat, i < (e - b + 1).toNat ∧ b + (i : Int) ≠ p.curpage := by
      by_cases hzero : b = p.curpage
      · exact ⟨1, htwo, by omega⟩
      · exact ⟨0, by omega, by simpa using hzero⟩
    have hlink := congrArg (fun l => l[i]?) hpages
    simp only [List.getElem?_map, List.getElem?_range hi, Option.map_some, Option.some.injEq,
      if_neg hne] at hlink
    exact multiPageLink_injective hlink

/-! ## Two requests under one key -/

/-- A request that has not answered anything yet, in a locale, with nothing cached. -/
structure Blank (locale : Nat) (s : St) : Prop where
  tx : s.tx = none
  cache : s.cache = []
  response : s.own.response = { locale := locale }

/-- The body a handler renders. -/
def renderedBody (p : App Unit) (s : St) : List Output := (answer p s).2.body

/-- The page of the post is shown. -/
def Post.Shown (d : Db) (sid : String) : Prop :=
  (∃ x, d.selectPostJoinUser (Text.atoi sid) = some x ∧ x.1.isOpen ≠ 0) ∧ d.info.isSome

/-- The numbers of a listing as its key has them: below zero is zero. -/
def Summary.number (n : Int) : Int := if n < 0 then 0 else n

/-- The page of the listing is shown, with links to other pages. -/
structure Summary.ShowsLinks (e : Env) (d : Db) (catId page : Int) (q : String) : Prop where
  info : d.info.isSome
  category : catId ≠ 0 → ((d.selectCatName catId).getD "").isEmpty = false
  current : (Summary.paging e d catId page q).curpage = page
  rows : (Summary.rows e d catId page q).isEmpty = false
  pages : 1 < (Summary.paging e d catId page q).pageTotal

theorem bodies_withInfo {d : Db} {r : Response} (hr : r.body = []) {page page' : GeneralInfo → Output} :
    (d.withInfo r page).2.body = (d.withInfo r page').2.body ↔
      ∀ info, d.info = some info → page info = page' info := by
  unfold Db.withInfo
  cases d.info with
  | none => simp [hr]
  | some info => simp [Response.show, hr]

/-- The page of a post shows the method of the request, and nothing else of it. -/
theorem postTemplate_eq_iff {e e' : Env} (hlib : e'.lib = e.lib) (c : PostContent) (text : String)
    (f : CommentForm) :
    postTemplate e c text f = postTemplate e' c text f ↔ e.req.method = e'.req.method := by
  constructor
  · intro h
    exact escape_injective (congrArg PostPage.requestMethod h)
  · intro h
    simp only [postTemplate, abstractHtml, commentPreview, hlib, h]
    have hentry : commentEntry e = commentEntry e' := by
      funext m
      simp only [commentEntry, commentItem, hlib]
    rw [hentry]

theorem masterPage_congr {e e' : Env} (hset : e'.settings = e.settings) (hlib : e'.lib = e.lib) (d : Db)
    (info : GeneralInfo) (locale : Nat) : masterPage e' d info locale = masterPage e d info locale := by
  simp only [masterPage, sidebarTemplate, hset, hlib]

namespace Summary

theorem condition_congr {e e' : Env} (hlib : e'.lib = e.lib) : condition e' = condition e := by
  funext q p
  simp only [condition, matchesLike, hlib]

theorem conditionInCat_congr {e e' : Env} (hlib : e'.lib = e.lib) :
    conditionInCat e' = conditionInCat e := by
  have hlike : matchesLike e' = matchesLike e := by
    funext pattern p
    simp only [matchesLike, hlib]
  funext q p
  simp only [conditionInCat, hlike]

theorem countRecords_congr {e e' : Env} (hlib : e'.lib = e.lib) : countRecords e' = countRecords e := by
  funext catId q d
  simp only [countRecords, condition_congr hlib, conditionInCat_congr hlib]

theorem selectPosts_congr {e e' : Env} (hlib : e'.lib = e.lib) : selectPosts e' = selectPosts e := by
  funext catId q n k d
  simp only [selectPosts, condition_congr hlib, conditionInCat_congr hlib]

theorem entries_congr {e e' : Env} (hlib : e'.lib = e.lib) (cats : List (Int × Cat))
    (rows : List SummaryRow) : entries e' cats rows = entries e cats rows := by
  induction rows with
  | nil => rfl
  | cons r rest ih => simp only [entries, abstractHtml, hlib, ih]

/-- A listing shows the query string of the request in its pager, and nothing else of it. -/
theorem summaryTemplate_eq_iff {e e' : Env} (hset : e'.settings = e.settings) (hlib : e'.lib = e.lib)
    {catId : Int} {name q : String} {p : Paging} {cats : List (Int × Cat)} {rows : List SummaryRow}
    (hcur : 1 < p.pageTotal → 0 ≤ p.curpage ∧ p.curpage < p.pageTotal) :
    summaryTemplate e catId name q p cats rows = summaryTemplate e' catId name q p cats rows ↔
      (rows.isEmpty = false → 1 < p.pageTotal → e.req.queryString = e'.req.queryString) := by
  have hurl : (if catId ≠ 0 then urlCategory e' catId else urlFrom e') =
      (if catId ≠ 0 then urlCategory e catId else urlFrom e) := by
    have hcat : urlCategory e' catId = urlCategory e catId := by
      funext page
      simp only [urlCategory, hset]
    have hfrom : urlFrom e' = urlFrom e := by
      funext page
      simp only [urlFrom, hset]
    rw [hcat, hfrom]
  unfold summaryTemplate
  rw [hurl, entries_congr hlib]
  simp only [SummaryPage.mk.injEq, true_and]
  cases hrows : rows.isEmpty with
  | true => simp
  | false =>
    simp only [Bool.false_eq_true, if_false, Option.some.injEq, forall_const]
    constructor
    · intro h htotal
      exact multiPage_inj htotal (hcur htotal) h
    · intro h
      by_cases htotal : 1 < p.pageTotal
      · rw [h htotal]
      · simp only [multiPage, if_neg htotal]

end Summary

theorem postDisplay_body_eq_iff {e e' : Env} {s s' : St} {locale : Nat}
    (hset : e'.settings = e.settings) (hlib : e'.lib = e.lib) (hs : Blank locale s)
    (hs' : Blank locale s') (hdb : s'.db = s.db) (hv : Versioned s.db) (sid : String) :
    renderedBody (Post.display e sid) s = renderedBody (Post.display e' sid) s' ↔
      (Post.Shown s.db sid → e.req.method = e'.req.method) := by
  rw [renderedBody, renderedBody, answer_postDisplay e sid hs.tx hv hs.cache,
    answer_postDisplay e' sid hs'.tx (hdb.symm ▸ hv) hs'.cache, hdb, hs.response, hs'.response]
  unfold Post.displayed Post.Shown
  cases hpost : s.db.selectPostJoinUser (Text.atoi sid) with
  | none => simp
  | some x =>
    obtain ⟨p, username⟩ := x
    dsimp only
    by_cases hopen : p.isOpen = 0
    · simp [hopen]
    · rw [if_neg hopen, if_neg hopen, bodies_withInfo rfl]
      cases hinfo : s.db.info with
      | none => simp
      | some info =>
        simp only [Option.some.injEq, forall_eq', masterPage_congr hset hlib, Output.blogPost.injEq,
          true_and, postTemplate_eq_iff hlib, exists_eq_left', Option.isSome_some, and_true]
        exact ⟨fun h _ => h, fun h => h hopen⟩

theorem bodies_listed {e e' : Env} {d : Db} {locale : Nat} {catId page : Int} {name q : String}
    (hset : e'.settings = e.settings) (hlib : e'.lib = e.lib) :
    (Summary.listed e d { locale := locale } catId page name q).2.body =
        (Summary.listed e' d { locale := locale } catId page name q).2.body ↔
      (d.info.isSome → (Summary.paging e d catId page q).curpage = page →
        (Summary.rows e d catId page q).isEmpty = false →
        1 < (Summary.paging e d catId page q).pageTotal → e.req.queryString = e'.req.queryString) := by
  have hpaging : Summary.paging e' d catId page q = Summary.paging e d catId page q := by
    simp only [Summary.paging, Summary.countRecords_congr hlib]
  have hrows : Summary.rows e' d catId page q = Summary.rows e d catId page q := by
    simp only [Summary.rows, hpaging, Summary.selectPosts_congr hlib]
  unfold Summary.listed
  rw [hpaging]
  split
  · rename_i hother
    simp [hother]
  · rename_i hcur
    rw [bodies_withInfo rfl]
    cases hinfo : d.info with
    | none => simp
    | some info =>
      simp only [Option.some.injEq, forall_eq', masterPage_congr hset hlib, Output.blogSummary.injEq,
        true_and, Option.isSome_some, not_not.1 hcur, forall_const]
      unfold Summary.view
      rw [hpaging, hrows]
      exact Summary.summaryTemplate_eq_iff hset hlib fun htotal => Paging.curpage_range htotal

theorem summary_body_eq_iff {e e' : Env} {s s' : St} {locale : Nat}
    (hset : e'.settings = e.settings) (hlib : e'.lib = e.lib) (hs : Blank locale s)
    (hs' : Blank locale s') (hdb : s'.db = s.db) (hv : Versioned s.db) {catId page catId' page' : Int}
    (hcat : Summary.number catId = Summary.number catId')
    (hpage : Summary.number page = Summary.number page')
    (hq : e.req.getValue "q" = e'.req.getValue "q") :
    renderedBody (Summary.prepare e catId page) s = renderedBody (Summary.prepare e' catId' page') s' ↔
      (Summary.ShowsLinks e s.db (Summary.number catId) (Summary.number page) (e.req.getValue "q") →
        e.req.queryString = e'.req.queryString) := by
  rw [renderedBody, renderedBody, answer_summary e catId page hs.tx hv hs.cache,
    answer_summary e' catId' page' hs'.tx (hdb.symm ▸ hv) hs'.cache, hdb, hs.response, hs'.response]
  unfold Summary.displayed
  unfold Summary.number at hcat hpage ⊢
  dsimp only
  rw [← hcat, ← hpage, ← hq]
  generalize (if catId < 0 then 0 else catId) = k
  generalize (if page < 0 then 0 else page) = n
  generalize e.req.getValue "q" = q
  split
  · rename_i hk
    split
    · rename_i hempty
      constructor
      · intro _ hlinks
        exact absurd hempty (by simp [hlinks.category hk])
      · intro _
        rfl
    · rename_i hname
      rw [bodies_listed hset hlib]
      constructor
      · intro h hlinks
        exact h hlinks.info hlinks.current hlinks.rows hlinks.pages
      · intro h hinfo hcur hrows htotal
        exact h ⟨hinfo, fun _ => by simpa using hname, hcur, hrows, htotal⟩
  · rename_i hk
    rw [bodies_listed hset hlib]
    constructor
    · intro h hlinks
      exact h hlinks.info hlinks.current hlinks.rows hlinks.pages
    · intro h hinfo hcur hrows htotal
      exact h ⟨hinfo, fun hk' => absurd hk' hk, hcur, hrows, htotal⟩

/-- **Two requests that compute one page key over the same tables, in one locale, get the same body
    exactly if the page shows none of what they differ in: the method, on the page of a post that is
    shown, and the query string, on a listing with links to other pages.** -/
theorem keyed_bodies_eq_iff {e e' : Env} {s s' : St} {locale : Nat} (hset : e'.settings = e.settings)
    (hlib : e'.lib = e.lib) (hs : Blank locale s) (hs' : Blank locale s') (hdb : s'.db = s.db)
    (hv : Versioned s.db) :
    (∀ sid sid', "post_" ++ sid = "post_" ++ sid' →
      (renderedBody (Post.display e sid) s = renderedBody (Post.display e' sid') s' ↔
        (Post.Shown s.db sid → e.req.method = e'.req.method))) ∧
    (∀ catId page catId' page',
      Summary.key (Summary.number catId) (Summary.number page) (e.req.getValue "q") =
        Summary.key (Summary.number catId') (Summary.number page') (e'.req.getValue "q") →
      (renderedBody (Summary.prepare e catId page) s =
          renderedBody (Summary.prepare e' catId' page') s' ↔
        (Summary.ShowsLinks e s.db (Summary.number catId) (Summary.number page)
            (e.req.getValue "q") → e.req.queryString = e'.req.queryString))) := by
  constructor
  · intro sid sid' hkey
    have hlist := congrArg String.toList hkey
    simp only [String.toList_append] at hlist
    obtain rfl := String.toList_injective (List.append_cancel_left hlist)
    exact postDisplay_body_eq_iff hset hlib hs hs' hdb hv sid
  · intro catId page catId' page' hkey
    have hsame := @CachedPage.key_injective (.summary _ _ _) (.summary _ _ _) hkey
    obtain ⟨hcat, hpage, hq⟩ := CachedPage.summary.inj hsame
    exact summary_body_eq_iff hset hlib hs hs' hdb hv hcat hpage hq

/-- A blog with one open post. -/
def publishedWorld : World :=
  run .sample [.request (.configure "b" "bob"), .request (.login "b" "bob"),
    .request (.post "b" "/admin/post" [("_1", "T"), ("_2", "A"), ("_6", "")])] (World.fresh [])

/-- The start of a request in the second locale with an empty cache. -/
def World.blank (w : World) : St where
  db := w.shared.db
  tx := none
  cache := []
  files := []
  own := { response := { locale := 2 } }

theorem blank_blank (w : World) : Blank 2 w.blank := ⟨rfl, rfl, rfl⟩

theorem publishedWorld_versioned : Versioned publishedWorld.shared.db := by
  unfold Versioned
  decide

/-- The first post by two methods. -/
def Arrival.byMethod (method : String) : Arrival :=
  { req := { sid := "v", path := "/post/1", method := method } }

section

attribute [local irreducible] publishedWorld

theorem keyed_bodies_eq_iff_published :
    renderedBody (Post.display (Site.sample.env (.byMethod "GET")) "1") publishedWorld.blank =
        renderedBody (Post.display (Site.sample.env (.byMethod "POST")) "1") publishedWorld.blank ↔
      (Post.Shown publishedWorld.shared.db "1" → "GET" = "POST") :=
  (@keyed_bodies_eq_iff (Site.sample.env (.byMethod "GET")) (Site.sample.env (.byMethod "POST"))
    publishedWorld.blank publishedWorld.blank 2 rfl rfl (blank_blank _) (blank_blank _) rfl
    publishedWorld_versioned).1 "1" "1" rfl

end

/-- The page of a post rendered for a `POST` is not the one rendered for a `GET` under the same key. -/
theorem post_page_shows_method :
    routedToDisplay (Site.sample.env (.byMethod "GET")) = some "1" ∧
      routedToDisplay (Site.sample.env (.byMethod "POST")) = some "1" ∧
      renderedBody (Post.display (Site.sample.env (.byMethod "GET")) "1") publishedWorld.blank ≠
        renderedBody (Post.display (Site.sample.env (.byMethod "POST")) "1") publishedWorld.blank := by
  exact ⟨by decide, by decide, by decide⟩

end CppBlog
