import CppBlog.CachedSidebar

set_option autoImplicit false

/-! # Cached listings

A page of a listing depends on the trigger of its category and on those of the posts it shows. A post of
another page is deleted, taken out of the category or rewritten with its own trigger risen only, so the posts
move up and the number of records changes behind the cached pages; where no request does that to a listing
that is cached, its pages are those of the tables. -/

namespace CppBlog

open Effect Store App

variable {e : Env} {d d' : Db} {ts : List String} {k page : Int} {q : String}

/-! ## What a listing shows -/

/-- An entry without the names of its author and of its categories. -/
def SummaryEntry.ofPost (x : SummaryEntry) : SummaryEntry := { x with author := "", categories := [] }

/-- What a listing shows of its posts: no names, and of the pager the numbers of pages and records. -/
def SummaryPage.ofPosts (s : SummaryPage) : SummaryPage :=
  { s with
    categoryName := ""
    posts := s.posts.map SummaryEntry.ofPost
    pager := s.pager.map (fun m => { m with items := [] }) }

namespace Summary

/-- What `summary::prepare` shows of the tables, with the number of records counted anew. -/
def fresh (e : Env) (k page : Int) (q : String) (d : Db) : SummaryPage :=
  let paging := pageOf (countRecords e k q d) page
  summaryTemplate e k "" q paging [] (postsOf e k q paging d)

/-- The posts of a page of a listing. -/
def shown (e : Env) (k page : Int) (q : String) (d : Db) : List Post := limitOffset 10 (page * 10) (listing e k q d)

/-- The entry of a post, without names. -/
def entryOf (e : Env) (p : Post) : SummaryEntry where
  id := p.id
  title := escape p.title
  published := p.publish
  author := ""
  categories := []
  commentCount := p.commentCount
  abstract := abstractHtml e p.abstract
  hasContent := !p.content.isEmpty

/-- A page of posts, without names. -/
def pageOfPosts (e : Env) (k : Int) (q : String) (paging : Paging) (posts : List Post) : SummaryPage where
  id := k
  categoryName := ""
  q := escape q
  posts := posts.map (entryOf e)
  pager := if posts.isEmpty then none else some ⟨paging.pageTotal, paging.pageRecords, []⟩

theorem entries_ofPost (cats : List (Int × Cat)) (f : Post → Option String) (posts : List Post) :
    (entries e cats (posts.map (fun p => summaryRow (some p, f p)))).map SummaryEntry.ofPost =
      posts.map (entryOf e) := by
  induction posts with
  | nil => rfl
  | cons p posts ih =>
    rw [List.map_cons, entries, List.map_cons, ih, List.map_cons]
    rfl

theorem summaryTemplate_ofPosts (name : String) (paging : Paging) (cats : List (Int × Cat))
    (f : Post → Option String) (posts : List Post) :
    (summaryTemplate e k name q paging cats (posts.map (fun p => summaryRow (some p, f p)))).ofPosts =
      pageOfPosts e k q paging posts := by
  rw [SummaryPage.ofPosts, summaryTemplate, pageOfPosts]
  simp only [entries_ofPost, List.isEmpty_map]
  congr 1
  split <;> rfl

theorem pageOf_size (n page : Int) : (pageOf n page).pageSize = 10 := by
  unfold pageOf Paging.calcPages
  split <;> rfl

/-- The posts a page selects are those of the listing, with the names of their authors. -/
theorem postsOf_eq (hd : Mirrored d) {n : Int} (hcur : (pageOf n page).curpage = page) :
    postsOf e k q (pageOf n page) d = (shown e k page q d).map
      (fun p => summaryRow (some p, (d.users.find? p.authorId).map User.username)) := by
  rw [postsOf, hd.selectPosts, pageOf_size, hcur]
  rfl

/-- What is shown of the posts of a page is determined by their number and the posts on the page. -/
theorem fresh_ofPosts (hd : Mirrored d) (hcur : (pageOf (countRecords e k q d) page).curpage = page) :
    (fresh e k page q d).ofPosts =
      pageOfPosts e k q (pageOf (countRecords e k q d) page) (shown e k page q d) := by
  rw [fresh, postsOf_eq hd hcur, summaryTemplate_ofPosts]

end Summary

/-! ## What a step does to a listing -/

/-- A request changes a listing whose trigger it does not rise: it deletes an open post of the listing, takes it
out of the category, or rewrites its texts so that it starts or stops to match the search. -/
def Unsettles (e : Env) (k : Int) (q : String) (d : Db) : Prop :=
  ∃ sid ∈ routedToEditor e, ∃ p ∈ d.openPosts k, p.id = Text.atoi sid ∧ e.req.method = "POST" ∧
    let f := AdminPost.submission e.req.postOrGet d (Text.atoi sid)
    (f.remove = true ∧ Summary.condition e q p = true ∨
      f.remove = false ∧ f.valid = true ∧ f.changeStatus = false ∧
        (k ∈ tickedIds f.delFromCatList ∧ Summary.condition e q p = true ∨
          Summary.condition e q (Db.writeRow f 1 p) ≠ Summary.condition e q p))

theorem Unsettles.routed (h : Unsettles e k q d) : (routedToEditor e).isSome := by
  obtain ⟨sid, hsid, -⟩ := h
  rw [Option.mem_def.1 hsid]
  rfl

/-- Posts with the same texts match the same searches. -/
theorem condition_congr {p p' : Post} (htitle : p'.title = p.title) (habstract : p'.abstract = p.abstract)
    (hcontent : p'.content = p.content) : Summary.condition e q p' = Summary.condition e q p := by
  rw [Summary.condition, Summary.condition, Summary.matchesLike, Summary.matchesLike, htitle, habstract, hcontent]

/-- A post of the listing stays one of the category. -/
theorem Invalidates.keepsListed (h : Invalidates e d ts d') (hnot : ¬Unsettles e k q d) (hd : Mirrored d)
    (hkey : catKey k ∉ ts) {p : Post} (hp : p ∈ d.openPosts k) (hmatch : Summary.condition e q p = true) :
    p.id ∈ d'.postIds k := by
  obtain ⟨hmem, hopen⟩ := Db.mem_openPosts.1 hp
  cases h.rows with
  | kept hkept _ => exact hkept k hkey p.id hmem
  | remove hroute hmethod hsel hremove hposts hrows =>
    rename_i sid isOpen
    have hne : p.id ≠ Text.atoi sid := fun hid =>
      hnot ⟨sid, hroute, p, hp, hid, hmethod, .inl ⟨hremove, hmatch⟩⟩
    unfold Db.postIds at hmem ⊢
    split at hmem
    · rename_i hk
      obtain ⟨r, hr, hid⟩ := List.mem_map.1 hmem
      rw [if_pos hk, hposts, AutoTable.delete_rows]
      exact List.mem_map.2 ⟨r, List.mem_filter.2 ⟨hr, by simp [hid, hne]⟩, hid⟩
    · rename_i hk
      obtain ⟨r, hr, hpost⟩ := List.mem_map.1 hmem
      obtain ⟨hr, hcat⟩ := List.mem_filter.1 hr
      rw [if_neg hk, hrows, Table.delete_rows]
      exact List.mem_map.2 ⟨r, List.mem_filter.2 ⟨List.mem_filter.2 ⟨hr, by simp [hpost, hne]⟩, hcat⟩, hpost⟩
  | save hroute hmethod hsel hf hvalid hremove hsave hts =>
    rename_i sid isOpen f
    have hoffers : d.Offers (Text.atoi sid) f := hf ▸ offers_submission _ d _
    obtain ⟨m, g, publish, hrewritten, -, hposts, hrows⟩ := Db.savePost_eq_ok hsave
    by_cases hk : k = 0
    · rw [Db.postIds, if_pos hk] at hmem ⊢
      rw [hposts, postIds_of_update hrewritten.posts]
      exact hmem
    obtain ⟨h', hkey', hpost2cat⟩ := hrewritten.post2cat
    have hticked : catKey k ∉ tickedTriggers f.addToCatList := fun hmem => hkey (by
      rw [hts, saveTriggers]
      exact List.mem_append_right _ (List.mem_append_right _ (List.mem_append_left _ hmem)))
    rw [hpost2cat] at hrows
    rw [postIds_of_rows hk hkey' (catId_ne_of_not_risen _ _ _ hoffers.add_subset hticked) hrows]
    refine List.mem_filter.2 ⟨hmem, ?_⟩
    by_contra hdropped
    simp only [Bool.not_eq_true, Bool.not_eq_false', Bool.and_eq_true, decide_eq_true_eq] at hdropped
    obtain ⟨hid, hdel⟩ := hdropped
    have hchange := changeStatus_of_not_risen hd hoffers (hid ▸ hmem) (hts ▸ hkey)
    rw [hf] at hvalid hremove hchange hdel
    exact hnot ⟨sid, hroute, p, hp, hid, hmethod, .inr ⟨hremove, hvalid, hchange, .inl ⟨hdel, hmatch⟩⟩⟩

/-- A post that is left in the category matches the search as before. -/
theorem Invalidates.keepsMatch (h : Invalidates e d ts d') (hnot : ¬Unsettles e k q d) (hd : Mirrored d)
    (hkey : catKey k ∉ ts) {p p' : Post} (hp : p ∈ d.openPosts k) (hp' : d'.followed k p = some p') :
    Summary.condition e q p' = Summary.condition e q p := by
  obtain ⟨hmem, hopen⟩ := Db.mem_openPosts.1 hp
  obtain ⟨hfind, hone⟩ := Db.openPost_eq_some.1 hopen
  have hfind' : d'.posts.find? p.id = some p' := by
    unfold Db.followed at hp'
    split at hp'
    · exact (Db.openPost_eq_some.1 hp').1
    · cases hp'
  cases h.rows with
  | kept _ htexts =>
    obtain ⟨htitle, habstract, hcontent⟩ := htexts p.id p p' hfind hfind'
    exact condition_congr htitle habstract hcontent
  | remove hroute hmethod hsel hremove hposts hrows =>
    rw [hposts, AutoTable.find?_delete] at hfind'
    rw [Option.some.inj (hfind.symm.trans hfind'.1)]
  | save hroute hmethod hsel hf hvalid hremove hsave hts =>
    rename_i sid isOpen f
    have hoffers : d.Offers (Text.atoi sid) f := hf ▸ offers_submission _ d _
    obtain ⟨m, g, publish, hrewritten, hwrite, hposts, -⟩ := Db.savePost_eq_ok hsave
    rw [hposts, hrewritten.posts] at hfind'
    by_cases hid : p.id = Text.atoi sid
    · have hchange := changeStatus_of_not_risen hd hoffers (hid ▸ hmem) (hts ▸ hkey)
      rw [AutoTable.find?_update, hfind] at hfind'
      obtain rfl := Option.some.inj hfind'
      dsimp only
      rw [if_pos (decide_eq_true hid), hwrite hchange]
      have hsame : Summary.condition e q (Db.writeRow f (AdminPost.openStatus (isOpen ≠ 0) f.changeStatus) p) =
          Summary.condition e q (Db.writeRow f 1 p) := condition_congr rfl rfl rfl
      rw [hsame]
      by_contra hne
      rw [hf] at hvalid hremove hchange hne
      exact hnot ⟨sid, hroute, p, hp, hid, hmethod, .inr ⟨hremove, hvalid, hchange, .inr hne⟩⟩
    · rw [AutoTable.find?_update_ne hid, hfind] at hfind'
      rw [Option.some.inj hfind']

/-- **A listing whose trigger is not risen keeps its posts**, each as it is now, in their order. -/
theorem Invalidates.listing (h : Invalidates e d ts d') (hnot : ¬Unsettles e k q d) (hd : Mirrored d)
    (hkey : catKey k ∉ ts) : Summary.listing e k q d' =
      (Summary.listing e k q d).map (fun p => (d'.followed k p).getD p) := by
  have hd' : Mirrored d' := hd.change h.change
  rw [h.posts.listing hd hkey e q fun p hp p' hp' => h.keepsMatch hnot hd hkey hp hp', ← List.filterMap_eq_map]
  refine List.filterMap_congr fun p hp => ?_
  obtain ⟨hopen, hmatch⟩ := mem_listing.1 hp
  obtain ⟨p', hp'⟩ := Option.isSome_iff_exists.1
    (h.posts.followed_isSome hd hd' hkey hopen (h.keepsListed hnot hd hkey hopen hmatch))
  rw [hp', Function.comp_apply, hp', Option.getD_some]

/-- The number of records, and the posts of a page of which none is touched. -/
theorem Invalidates.shown (h : Invalidates e d ts d') (hnot : ¬Unsettles e k q d) (hd : Mirrored d)
    (hkey : catKey k ∉ ts) : Summary.countRecords e k q d' = Summary.countRecords e k q d ∧
      ((∀ p ∈ Summary.shown e k page q d, postKey p.id ∉ ts) →
        Summary.shown e k page q d' = Summary.shown e k page q d) := by
  have hd' : Mirrored d' := hd.change h.change
  have hlisting := h.listing hnot hd hkey
  refine ⟨?_, fun hposts => ?_⟩
  · rw [hd'.countRecords, hd.countRecords, hlisting, count, count, List.length_map]
  · rw [Summary.shown, hlisting, limitOffset_map]
    refine (List.map_congr_left fun p hp => ?_).trans (List.map_id _)
    have hmem : p ∈ Summary.listing e k q d := List.mem_of_mem_drop (List.mem_of_mem_take hp)
    rw [h.posts.followed_self hd hkey (mem_listing.1 hmem).1 (hposts p hp), Option.getD_some]
    rfl

/-! ## What is said of cached listings -/

/-- A cached page of a listing is one of its pages, shows its posts, and depends on them. -/
structure ListingPage (e : Env) (d : Db) (k page : Int) (q : String) (v : Cached) (ts : List String) : Prop where
  cat : catKey k ∈ ts
  current : (Summary.pageOf (Summary.countRecords e k q d) page).curpage = page
  posts : ∀ p ∈ Summary.shown e k page q d, postKey p.id ∈ ts
  shown : ∃ master s, v = .page [.blogSummary master s] ∧ s.ofPosts = (Summary.fresh e k page q d).ofPosts

/-- The family of the listings, whatever request they are rendered for. -/
def listingFamily (site : Site) : Family
  | d, .catCount k q, v, ts => catKey k ∈ ts ∧ ∀ a, v = .pageRecords (Summary.countRecords (site.env a) k q d)
  | d, .page _ (.summary k page q), v, ts => ∀ a, ListingPage (site.env a) d k page q v ts
  | _, _, _, _ => True

section
variable {site : Site}

theorem listingFamily_renders {a : Arrival} {l : Nat} (hd : Mirrored d) {o : CachedObject} {v : Cached}
    (ho : Renders (site.env a) l (listingFamily site) d o v ts) : listingFamily site d o v ts := by
  cases ho with
  | catCount hts => exact ⟨hts, fun _ => rfl⟩
  | page hshows hkey =>
    cases hshows with
    | summary _ _ _ hcat _ hcount hcur hposts _ _ =>
      rename_i k page n q name info master
      obtain ⟨us, -, -, hn⟩ := hcount
      obtain rfl := Cached.pageRecords.inj (hn a)
      refine fun a' => ⟨hcat, hcur, fun p hp => ?_, _, _, rfl, ?_⟩
      · rw [Summary.postsOf_eq hd hcur] at hposts
        exact hposts _ (List.mem_map_of_mem hp)
      · rw [Summary.postsOf_eq hd hcur, Summary.summaryTemplate_ofPosts]
        exact (Summary.fresh_ofPosts (e := site.env a') hd hcur).symm
    | _ => trivial
  | _ => trivial

/-- A page that depends on nothing risen is still right where its listing is not unsettled. -/
theorem ListingPage.step {e' : Env} {v : Cached} {us : List String} (h : ListingPage e d k page q v ts)
    (hd : Mirrored d) (hstep : Invalidates e' d us d')
    (hshown : catKey k ∉ us → Summary.countRecords e k q d' = Summary.countRecords e k q d ∧
      ((∀ p ∈ Summary.shown e k page q d, postKey p.id ∉ us) →
        Summary.shown e k page q d' = Summary.shown e k page q d))
    (hus : ∀ t ∈ us, t ∉ ts) : ListingPage e d' k page q v ts := by
  have hd' : Mirrored d' := hd.change hstep.change
  obtain ⟨hcount, hposts⟩ := hshown fun hk => hus _ hk h.cat
  have hsame := hposts fun p hp hrisen => hus _ hrisen (h.posts p hp)
  have hcurrent : (Summary.pageOf (Summary.countRecords e k q d') page).curpage = page := by
    rw [hcount]
    exact h.current
  refine ⟨h.cat, hcurrent, ?_, ?_⟩
  · rw [hsame]
    exact h.posts
  · obtain ⟨master, s, hv, hs⟩ := h.shown
    refine ⟨master, s, hv, hs.trans ?_⟩
    rw [Summary.fresh_ofPosts hd h.current, Summary.fresh_ofPosts hd' hcurrent, hcount, hsame]

/-- Some page of a listing, or the number of its records, is cached. -/
def ListingCached (k : Int) (q : String) (c : Cache) : Prop :=
  ∃ x ∈ c, x.key = Summary.countKey k q ∨ ∃ g page, x.key = (CachedObject.page g (.summary k page q)).key

/-- A request unsettles no listing that is cached, or is refused. -/
def Settles (site : Site) (w : World) (a : Arrival) : Prop :=
  ∀ k q, ListingCached k q w.shared.cache → Unsettles (site.env a) k q w.shared.db →
    (serve site a w).2.shared.db = w.shared.db

theorem listingFamily_survives {w : World} {a : Arrival} (hd : Mirrored w.shared.db) (h : Settles site w a) :
    SurvivesTo (listingFamily site) (site.env a) w.shared.db (serve site a w).2.shared.db (w.kept site a) := by
  intro us hstep x hx o ho hS hus
  -- the listing an object is about is as it was, or is not unsettled
  have hshown {k page : Int} {q : String} (hcached : ListingCached k q w.shared.cache) (hkey : catKey k ∉ us) :
      Summary.countRecords (site.env a) k q (serve site a w).2.shared.db =
          Summary.countRecords (site.env a) k q w.shared.db ∧
        ((∀ p ∈ Summary.shown (site.env a) k page q w.shared.db, postKey p.id ∉ us) →
          Summary.shown (site.env a) k page q (serve site a w).2.shared.db =
            Summary.shown (site.env a) k page q w.shared.db) := by
    by_cases hun : Unsettles (site.env a) k q w.shared.db
    · rw [h k q hcached hun]
      exact ⟨rfl, fun _ => rfl⟩
    · exact hstep.shown hun hd hkey
  have hmem := mem_of_keptCache hx
  cases o with
  | catCount k q =>
    obtain ⟨hcat, hv⟩ := hS
    refine ⟨hcat, fun a' => (hv a').trans (congrArg Cached.pageRecords ?_)⟩
    exact (@hshown k 0 q ⟨x, hmem, .inl ho⟩ fun hk => hus _ hk hcat).1.symm
  | page g view =>
    cases view with
    | summary k page q =>
      exact fun a' => (hS a').step hd hstep (fun hkey => hshown ⟨x, hmem, .inr ⟨g, page, ho⟩⟩ hkey) hus
    | _ => trivial
  | _ => trivial

/-- **Cached listings are current** in every run whose requests unsettle no listing that is cached: the number of
records is that of the tables, and a page shows the posts it would show if it were rendered now. -/
theorem cached_listing_current {w : World} (hw : Reachable site w) (hempty : w.shared.cache = [])
    {events : List Event} (h : EachRequest site (Settles site) w events) (a : Arrival) (k : Int) (q : String) :
    (∀ x ∈ (run site events w).shared.cache, x.key = Summary.countKey k q →
      x.value = .pageRecords (Summary.countRecords (site.env a) k q (run site events w).shared.db)) ∧
    ∀ x ∈ (run site events w).shared.cache, ∀ g page, x.key = (CachedObject.page g (.summary k page q)).key →
      (Summary.pageOf (Summary.countRecords (site.env a) k q (run site events w).shared.db) page).curpage = page ∧
      ∃ master s, x.value = .page [.blogSummary master s] ∧
        s.ofPosts = (Summary.fresh (site.env a) k page q (run site events w).shared.db).ofPosts := by
  have hstart := hw.tables (J := Mirrored) mirrored_fresh fun _ _ _ _ h hstep => h.change hstep.change
  have hinv : Cached.Inv (listingFamily site) Mirrored (run site events w) := by
    refine run_cached (P := Settles site) (fun w a ts d' _ hd hstep => hd.change hstep.change)
      (fun w a d o v ts _ hd ho => listingFamily_renders hd ho) (fun w a hP hd => listingFamily_survives hd hP)
      ⟨hstart.versioned, hstart.tables, fun x hx => ?_⟩ h
    rw [hempty] at hx
    exact absurd hx List.not_mem_nil
  constructor
  · intro x hx hkey
    obtain ⟨o, ho, hS⟩ := hinv.cache x hx
    obtain rfl : o = .catCount k q := CachedObject.key_injective (ho.symm.trans hkey)
    exact hS.2 a
  · intro x hx g page hkey
    obtain ⟨o, ho, hS⟩ := hinv.cache x hx
    obtain rfl : o = .page g (.summary k page q) := CachedObject.key_injective (ho.symm.trans hkey)
    exact ⟨(hS a).current, (hS a).shown⟩

end

/-- A request to another handler unsettles nothing. -/
theorem Settles.of_routed {site : Site} {w : World} {a : Arrival} (h : routedToEditor (site.env a) = none) :
    Settles site w a := by
  intro k q _ hun
  have hsome := hun.routed
  rw [h] at hsome
  cases hsome

/-- A post is published in a category, and a visitor reads the listings. -/
def listingEvents : List Event :=
  [.request (.login "b" "bob"), .request (.get "b" "/admin"),
   .request (.post "b" "/admin/categories" [("id", ""), ("cat", "C")]),
   .request (.post "b" "/admin/post" [("_1", "T"), ("_2", "A"), ("_6", ""), ("_10", "1")]),
   .request (.get "v" "/"), .request (.get "v" "/cat/1")]

theorem cached_listing_current_one :
    (∃ x ∈ (run .sample listingEvents feedWorld).shared.cache,
      x.key = (CachedObject.page false (.summary 1 0 "")).key) ∧
    ((∀ x ∈ (run .sample listingEvents feedWorld).shared.cache, x.key = Summary.countKey 1 "" →
        x.value = .pageRecords (Summary.countRecords (Site.sample.env (.get "v" "/")) 1 ""
          (run .sample listingEvents feedWorld).shared.db)) ∧
      ∀ x ∈ (run .sample listingEvents feedWorld).shared.cache, ∀ g page,
        x.key = (CachedObject.page g (.summary 1 page "")).key →
        (Summary.pageOf (Summary.countRecords (Site.sample.env (.get "v" "/")) 1 ""
            (run .sample listingEvents feedWorld).shared.db) page).curpage = page ∧
          ∃ master s, x.value = .page [.blogSummary master s] ∧
            s.ofPosts = (Summary.fresh (Site.sample.env (.get "v" "/")) 1 page ""
              (run .sample listingEvents feedWorld).shared.db).ofPosts) := by
  have hw : Reachable .sample feedWorld := ⟨[], _, rfl⟩
  have hempty : feedWorld.shared.cache = [] := by decide +kernel
  have h : EachRequest .sample (Settles .sample) feedWorld listingEvents :=
    ⟨.of_routed (by decide +kernel), .of_routed (by decide +kernel), .of_routed (by decide +kernel),
      .of_routed (by decide +kernel), .of_routed (by decide +kernel), .of_routed (by decide +kernel), trivial⟩
  exact ⟨by decide +kernel, cached_listing_current hw hempty h (.get "v" "/") 1 ""⟩

end CppBlog
