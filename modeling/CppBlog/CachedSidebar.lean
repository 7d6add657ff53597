import CppBlog.CachedFeeds

set_option autoImplicit false

/-! # The cached side bar

The side bar counts the open posts of each category, and depends on the triggers of the categories, not on
those of the posts. A post that is deleted, or taken out of a category without a change of its status, rises
its own trigger only. -/

namespace CppBlog

open Effect Store App

variable {e : Env} {d d' : Db} {ts : List String} {k : Int}

/-! ## Pages -/

/-- The row of a page that is not open is not open. -/
theorem isOpen_of_selectPage {id : Int} {p : Page} (hp : d.selectPage id = some p) (hopen : p.isOpen ≠ 1) :
    ∀ r ∈ d.pages.rows, r.id = id → r.isOpen ≠ 1 := by
  intro r hr hid
  have hfind : d.selectPage id = some r := (Table.find?_eq_some _ _ _).2 ⟨hr, hid⟩
  rw [← Option.some.inj (hp.symm.trans hfind)]
  exact hopen

/-- Rewriting pages that are not open, and leaving them closed, leaves the open ones. -/
theorem filter_open_map {f : Page → Page} {l : List Page}
    (h : ∀ r ∈ l, f r = r ∨ r.isOpen ≠ 1 ∧ (f r).isOpen ≠ 1) :
    (l.map f).filter (fun r => r.isOpen = 1) = l.filter (fun r => r.isOpen = 1) := by
  induction l with
  | nil => rfl
  | cons r l ih =>
    rw [List.map_cons, List.filter_cons, List.filter_cons, ih fun r' hr' => h r' (List.mem_cons_of_mem r hr')]
    rcases h r List.mem_cons_self with heq | ⟨hold, hnew⟩
    · rw [heq]
    · rw [if_neg (by simpa using hnew), if_neg (by simpa using hold)]

/-- A step that does not rise the trigger of the pages leaves the open ones as they are. -/
theorem Invalidates.openPages (h : Invalidates e d ts d') (hts : "pages" ∉ ts) :
    d'.selectOpenPages = d.selectOpenPages := by
  have hhidden {visible : Bool} {id : Int} (h : ts = pageTriggers visible id) : visible = false := by
    cases visible with
    | false => rfl
    | true => exact absurd (h ▸ List.mem_cons_of_mem _ List.mem_cons_self) hts
  cases h.pages with
  | same hpages => rw [Db.selectOpenPages, hpages, Db.selectOpenPages]
  | create hd hrisen =>
    rename_i changeStatus
    cases changeStatus with
    | true => exact absurd (hrisen ▸ List.mem_cons_self) hts
    | false =>
      obtain ⟨t, ht, rfl⟩ := Option.map_eq_some_iff.1 (Db.orRefuse_eq_ok.1 hd)
      rw [Db.selectOpenPages, Db.selectOpenPages]
      simp only [(AutoTable.insert?_eq_some ht).2.1, List.filter_append]
      simp [AdminPost.openStatus]
  | save hp hd hrisen =>
    rename_i id p title content changeStatus
    -- the page was closed and stays so
    have hclosed : p.isOpen = 0 ∧ changeStatus = false := by
      have hfalse := hhidden hrisen
      cases changeStatus with
      | true => simp at hfalse
      | false => simpa [AdminPost.openStatus] using hfalse
    have hrows := isOpen_of_selectPage hp (by rw [hclosed.1]; decide)
    subst hd
    rw [Db.selectOpenPages, Db.selectOpenPages, Db.updatePage, hclosed.1, hclosed.2, AutoTable.update_rows,
      filter_open_map fun r hr => ?_]
    by_cases hid : r.id = id
    · rw [if_pos (decide_eq_true hid)]
      exact .inr ⟨hrows r hr hid, by simp [AdminPost.openStatus]⟩
    · exact .inl (if_neg (by simpa using hid))
  | remove hp hd hrisen =>
    rename_i id p
    have hclosed : p.isOpen = 0 := by simpa using hhidden hrisen
    have hrows := isOpen_of_selectPage hp (by rw [hclosed]; decide)
    subst hd
    rw [Db.selectOpenPages, Db.selectOpenPages, Db.deletePage]
    simp only [AutoTable.delete_rows, List.filter_filter]
    refine congrArg _ (List.filter_congr fun r hr => ?_)
    by_cases hid : r.id = id
    · simp [hid, hrows r hr hid]
    · simp [hid]

/-! ## Numbers of posts -/

/-- The number of open posts of a category is that of its open rows. -/
theorem Mirrored.catCount (hd : Mirrored d) (e : Env) (hk : k ≠ 0) :
    count (d.post2cat.rows.filter (fun r => r.catId = k && r.isOpen = 1)) = count (d.openPosts k) := by
  have hcount := hd.countRecords (e := e) k ""
  have hall : Summary.conditionInCat e "" = fun _ => true := rfl
  rw [Summary.countRecords, if_pos hk, Db.countInCat, Db.openRowsInCat, hall, List.filter_true, listing_all] at hcount
  rw [count, count, List.length_map, orderByDesc, List.length_insertionSort] at hcount
  exact hcount

/-- An open post that stays in a category whose trigger is not risen stays open. -/
theorem PostStep.followed_isSome (h : PostStep e d ts d') (hd : Mirrored d) (hd' : Mirrored d') (hk : catKey k ∉ ts)
    {p : Post} (hp : p ∈ d.openPosts k) (hkept : p.id ∈ d'.postIds k) : (d'.followed k p).isSome := by
  obtain ⟨hmem, hopen⟩ := Db.mem_openPosts.1 hp
  obtain ⟨p', hp'⟩ := hd'.find_postIds hkept
  obtain ⟨q, hq, -, hstatus⟩ := (h.post hd hk hmem).2 p' hp'
  obtain ⟨hfind, hone⟩ := Db.openPost_eq_some.1 hopen
  obtain rfl := Option.some.inj (hq.symm.trans hfind)
  rw [Db.followed, if_pos hkept, Db.openPost_eq_some.2 ⟨hp', hstatus.trans hone⟩]
  rfl

/-- A category that keeps its open posts and whose trigger is not risen keeps their number. -/
theorem PostStep.length_openPosts (h : PostStep e d ts d') (hd : Mirrored d) (hd' : Mirrored d') (hk : catKey k ∉ ts)
    (hkept : ∀ p ∈ d.openPosts k, p.id ∈ d'.postIds k) : (d'.openPosts k).length = (d.openPosts k).length := by
  have hmap := congrArg List.length
    (map_some_filterMap fun p hp => h.followed_isSome hd hd' hk hp (hkept p hp))
  rw [List.length_map, List.length_map] at hmap
  rw [h.openPosts hd hk, hmap]

/-- A request takes an open post out of its categories, or out of some of them, and changes neither its status nor
puts it into others. -/
def Drops (e : Env) (d : Db) : Prop :=
  ∃ sid ∈ routedToEditor e, ∃ isOpen ∈ d.selectPostIsOpen (Text.atoi sid), isOpen ≠ 0 ∧ e.req.method = "POST" ∧
    ((AdminPost.submission e.req.postOrGet d (Text.atoi sid)).remove = true ∧
        (∃ r ∈ d.post2cat.rows, r.postId = Text.atoi sid) ∨
      (AdminPost.submission e.req.postOrGet d (Text.atoi sid)).remove = false ∧
        (AdminPost.submission e.req.postOrGet d (Text.atoi sid)).valid = true ∧
        (AdminPost.submission e.req.postOrGet d (Text.atoi sid)).changeStatus = false ∧
        tickedIds (AdminPost.submission e.req.postOrGet d (Text.atoi sid)).addToCatList = [] ∧
        tickedIds (AdminPost.submission e.req.postOrGet d (Text.atoi sid)).delFromCatList ≠ [])

instance (e : Env) (d : Db) : Decidable (Drops e d) := by
  unfold Drops
  infer_instance

/-- The posts that stay have the same texts. -/
def SameTexts (d d' : Db) : Prop :=
  ∀ n p p', d.posts.find? n = some p → d'.posts.find? n = some p' →
    p'.title = p.title ∧ p'.abstract = p.abstract ∧ p'.content = p.content

theorem SameTexts.of_eq (h : d'.posts = d.posts) : SameTexts d d' := by
  intro n p p' hp hp'
  rw [h, hp] at hp'
  obtain rfl := Option.some.inj hp'
  exact ⟨rfl, rfl, rfl⟩

theorem SameTexts.of_count {id c : Int} (h : d'.posts = d.posts.update (fun r => r.id = id)
    (fun r => { r with commentCount := c }) fun _ => rfl) : SameTexts d d' := by
  intro n p p' hp hp'
  rw [h, AutoTable.find?_update, hp] at hp'
  obtain rfl := Option.some.inj hp'
  dsimp only
  split <;> exact ⟨rfl, rfl, rfl⟩

/-- What a step does to the texts of the posts, and to the posts of a category whose trigger it does not rise. -/
inductive RowStep (e : Env) (d : Db) (ts : List String) (d' : Db) : Prop where
  | kept : (∀ k, catKey k ∉ ts → ∀ n ∈ d.postIds k, n ∈ d'.postIds k) → SameTexts d d' → RowStep e d ts d'
  | remove {sid : String} {isOpen : Int} : routedToEditor e = some sid → e.req.method = "POST" →
      d.selectPostIsOpen (Text.atoi sid) = some isOpen →
      (AdminPost.submission e.req.postOrGet d (Text.atoi sid)).remove = true →
      d'.posts = d.posts.delete (fun r => r.id = Text.atoi sid) →
      d'.post2cat = d.post2cat.delete (fun r => r.postId = Text.atoi sid) → RowStep e d ts d'
  | save {sid : String} {isOpen : Int} {f : PostForm} : routedToEditor e = some sid → e.req.method = "POST" →
      d.selectPostIsOpen (Text.atoi sid) = some isOpen →
      f = AdminPost.submission e.req.postOrGet d (Text.atoi sid) → f.valid = true → f.remove = false →
      d.savePost (Text.atoi sid) f e.chance.now (AdminPost.openStatus (isOpen ≠ 0) f.changeStatus) = .ok d' →
      ts = saveTriggers (Text.atoi sid) f → RowStep e d ts d'

theorem RowStep.of_rows (h : d'.posts.rows.map Post.id = d.posts.rows.map Post.id) (h' : d'.post2cat = d.post2cat)
    (htexts : SameTexts d d') : RowStep e d ts d' :=
  .kept (fun k _ n hn => by
    rw [Db.postIds] at hn ⊢
    rw [h, h']
    exact hn) htexts

theorem RowStep.of_eq (h : d'.posts = d.posts) (h' : d'.post2cat = d.post2cat) : RowStep e d ts d' :=
  .of_rows (by rw [h]) h' (.of_eq h)

theorem RowStep.of_count {id c : Int} (h : d'.posts = d.posts.update (fun r => r.id = id)
    (fun r => { r with commentCount := c }) fun _ => rfl) (h' : d'.post2cat = d.post2cat) : RowStep e d ts d' :=
  .of_rows (postIds_of_update h) h' (.of_count h)

theorem Invalidates.rows (h : Invalidates e d ts d') : RowStep e d ts d' := by
  cases h with
  | comment _ _ _ hm =>
    rename_i m _ _ _
    have hframe := (Db.insertComment_eq_ok hm).1
    have hposts : m.posts = d.posts := by rw [hframe]
    have hpost2cat : m.post2cat = d.post2cat := by rw [hframe]
    exact .of_count (by rw [← hposts]; rfl) hpost2cat
  | eraseComment _ => exact .of_count rfl rfl
  | editComment _ _ _ _ _ => exact .of_eq rfl rfl
  | configure f _ hf => exact .of_eq (by rw [Db.configure_frame hf]) (by rw [Db.configure_frame hf])
  | storeOptions f hf => exact .of_eq (by rw [Db.storeOptions_frame hf]) (by rw [Db.storeOptions_frame hf])
  | createPost _ f _ hf hd =>
    obtain ⟨p, -, -, hposts, hpost2cat⟩ := Db.createPost_eq_ok hd
    refine .kept (fun k _ n hn => ?_) fun n p' p'' hp' hp'' => ?_
    · rw [Db.postIds] at hn ⊢
      split at hn
      · rename_i hk
        rw [if_pos hk, hposts, List.map_append]
        exact List.mem_append_left _ hn
      · rename_i hk
        rw [if_neg hk, hpost2cat, List.filter_append, List.map_append]
        exact List.mem_append_left _ hn
    · have hold : d.posts.rows.find? (fun r => r.id = n) = some p' := hp'
      rw [Table.find?, hposts, List.find?_append, hold, Option.some_or] at hp''
      obtain rfl := Option.some.inj hp''
      exact ⟨rfl, rfl, rfl⟩
  | removePost hroute hmethod hopen hremove => exact .remove hroute hmethod hopen hremove rfl rfl
  | savePost hroute hmethod hopen hf hvalid hremove hd => exact .save hroute hmethod hopen hf hvalid hremove hd rfl
  | createCat _ _ _ _ _ hd =>
    have hframe := (Db.insertCat_eq_ok hd).1
    exact .of_eq (by rw [hframe]) (by rw [hframe])
  | renameCat _ _ => exact .of_eq rfl rfl
  | removeEmptyCat _ => exact .of_eq rfl rfl
  | removeCat =>
    rename_i id
    refine .kept (fun k hts n hn => ?_) (.of_eq rfl)
    have hne : k ≠ id := fun heq => hts (heq ▸ List.mem_cons_of_mem _ List.mem_cons_self)
    rw [Db.postIds] at hn ⊢
    split at hn
    · rename_i hk
      rw [if_pos hk]
      exact hn
    · rename_i hk
      obtain ⟨r, hr, hpost⟩ := List.mem_map.1 hn
      obtain ⟨hmem, hcat⟩ := List.mem_filter.1 hr
      rw [if_neg hk]
      refine List.mem_map.2 ⟨r, List.mem_filter.2 ⟨List.mem_filter.2 ⟨hmem, ?_⟩, hcat⟩, hpost⟩
      simp [of_decide_eq_true hcat, hne]
  | createPage _ _ _ _ hd => exact .of_eq (by rw [Db.insertPage_frame hd]) (by rw [Db.insertPage_frame hd])
  | savePage _ _ _ _ => exact .of_eq rfl rfl
  | removePage _ => exact .of_eq rfl rfl
  | createUser _ _ hd => exact .of_eq (by rw [Db.insertUser_frame hd]) (by rw [Db.insertUser_frame hd])
  | saveUser _ hd => exact .of_eq (by rw [Db.updateUser_frame hd]) (by rw [Db.updateUser_frame hd])
  | removeUser _ => exact .of_eq rfl rfl

/-- A ticked box is that of a category. -/
theorem catId_of_ticked {boxes : List CatBox} (h : boxes.map CatBox.identification ⊆ d.selectCats.map (fun c => toString c.id))
    {n : Int} (hn : n ∈ tickedIds boxes) : ∃ c ∈ d.cats.rows, c.id = n := by
  obtain ⟨cb, hcb, rfl⟩ := List.mem_map.1 hn
  obtain ⟨c, hc, hid⟩ := List.mem_map.1 (h (List.mem_map_of_mem (List.mem_filter.1 hcb).1))
  exact ⟨c, hc, by rw [← hid, atoi_toString_cat hc]⟩

/-- **A step that rises no category's trigger takes an open post out of a category only if the request drops it.** -/
theorem Invalidates.keepsOpen (h : Invalidates e d ts d') (hd : Mirrored d) (hnot : ¬Drops e d)
    (hall : ∀ c ∈ d.cats.rows, catKey c.id ∉ ts) (hk : k ≠ 0) (hkey : catKey k ∉ ts) :
    ∀ p ∈ d.openPosts k, p.id ∈ d'.postIds k := by
  intro p hp
  obtain ⟨hmem, hopen⟩ := Db.mem_openPosts.1 hp
  obtain ⟨hfind, hone⟩ := Db.openPost_eq_some.1 hopen
  have hstatus {id isOpen : Int} (hsel : d.selectPostIsOpen id = some isOpen) (hid : p.id = id) : isOpen ≠ 0 := by
    rw [Db.selectPostIsOpen, ← hid, hfind, Option.map_some] at hsel
    rw [← Option.some.inj hsel, hone]
    decide
  cases h.rows with
  | kept hkept _ => exact hkept k hkey p.id hmem
  | remove hroute hmethod hsel hremove hposts hrows =>
    rename_i sid isOpen
    rw [Db.postIds, if_neg hk] at hmem ⊢
    obtain ⟨r, hr, hpost⟩ := List.mem_map.1 hmem
    obtain ⟨hr, hcat⟩ := List.mem_filter.1 hr
    have hne : p.id ≠ Text.atoi sid := fun hid =>
      hnot ⟨sid, hroute, isOpen, hsel, hstatus hsel hid, hmethod, .inl ⟨hremove, r, hr, hpost.trans hid⟩⟩
    refine List.mem_map.2 ⟨r, List.mem_filter.2 ⟨?_, hcat⟩, hpost⟩
    rw [hrows, Table.delete_rows]
    exact List.mem_filter.2 ⟨hr, by simp [hpost, hne]⟩
  | save hroute hmethod hsel hf hvalid hremove hsave hts =>
    rename_i sid isOpen f
    have hoffers : d.Offers (Text.atoi sid) f := hf ▸ offers_submission _ d _
    obtain ⟨m, g, publish, hrewritten, -, -, hrows⟩ := Db.savePost_eq_ok hsave
    obtain ⟨h', hkey', hpost2cat⟩ := hrewritten.post2cat
    have hticked : catKey k ∉ tickedTriggers f.addToCatList := fun hmem => hkey (by
      rw [hts, saveTriggers]
      exact List.mem_append_right _ (List.mem_append_right _ (List.mem_append_left _ hmem)))
    rw [hpost2cat] at hrows
    rw [postIds_of_rows hk hkey' (catId_ne_of_not_risen _ _ _ hoffers.add_subset hticked) hrows]
    refine List.mem_filter.2 ⟨hmem, ?_⟩
    by_contra hdropped
    simp only [Bool.not_eq_true, Bool.not_eq_false', Bool.and_eq_true, decide_eq_true_eq] at hdropped
    obtain ⟨hid, hdel⟩ := hdropped
    have hchange := changeStatus_of_not_risen hd hoffers (hid ▸ hmem) (hts ▸ hkey)
    have hadd : tickedIds f.addToCatList = [] := by
      refine List.eq_nil_iff_forall_not_mem.2 fun n hn => ?_
      obtain ⟨c, hc, rfl⟩ := catId_of_ticked hoffers.add_subset hn
      refine hall c hc ?_
      rw [hts, saveTriggers]
      exact List.mem_append_right _ (List.mem_append_right _
        (List.mem_append_left _ (catKey_mem_tickedTriggers hoffers.add_subset hn)))
    rw [hf] at hvalid hremove hchange hadd hdel
    exact hnot ⟨sid, hroute, isOpen, hsel, hstatus hsel hid, hmethod,
      .inr ⟨hremove, hvalid, hchange, hadd, List.ne_nil_of_mem hdel⟩⟩

/-! ## The side bar -/

/-- A step that rises none of the side bar's triggers leaves what it shows. -/
theorem Invalidates.sidebarInfo (h : Invalidates e d ts d') (hd : Mirrored d) (hnot : ¬Drops e d)
    (hpages : "pages" ∉ ts) (hcats : "cats" ∉ ts) (hall : ∀ c ∈ d.cats.rows, catKey c.id ∉ ts) :
    d'.cats = d.cats ∧ d'.sidebarInfo = d.sidebarInfo := by
  have hsame : d'.cats = d.cats := by
    cases h.cats with
    | same hcats => exact hcats
    | create _ _ hts => exact absurd (hts ▸ List.mem_cons_self) hcats
    | rename _ _ hts => exact absurd (hts ▸ List.mem_cons_self) hcats
    | remove _ hts => exact absurd (hts ▸ List.mem_cons_self) hcats
  have hd' : Mirrored d' := hd.change h.change
  refine ⟨hsame, ?_⟩
  rw [Db.sidebarInfo, Db.sidebarInfo, h.openPages hpages, Db.selectCatCounts, Db.selectCatCounts, hsame]
  congr 2
  refine List.map_congr_left fun c hc => ?_
  have hne : c.id ≠ 0 := by
    have hpos := d.cats.key_pos c hc
    omega
  have hlength := h.posts.length_openPosts hd hd' (hall c hc) (h.keepsOpen hd hnot hall hne (hall c hc))
  rw [hd'.catCount e hne, hd.catCount e hne, count, count, hlength]

/-- The cached counts are those of the tables, and depend on all categories. -/
def sidebarFamily : Family
  | d, .sidebarInfo, v, ts => "pages" ∈ ts ∧ "cats" ∈ ts ∧ (∀ c ∈ d.cats.rows, catKey c.id ∈ ts) ∧
      v = .sidebarInfo d.sidebarInfo
  | _, _, _, _ => True

theorem sidebarFamily_renders {l : Nat} {o : CachedObject} {v : Cached}
    (ho : Renders e l sidebarFamily d o v ts) : sidebarFamily d o v ts := by
  cases ho with
  | sidebarInfo hpages hcats hcat => exact ⟨hpages, hcats, hcat, rfl⟩
  | _ => trivial

/-- While the side bar is cached the request drops no open post, or is refused. -/
def Retains (site : Site) (w : World) (a : Arrival) : Prop :=
  (∃ x ∈ w.shared.cache, x.key = "sidebar_info") → Drops (site.env a) w.shared.db →
    (serve site a w).2.shared.db = w.shared.db

theorem sidebarFamily_survives {site : Site} {w : World} {a : Arrival} (hd : Mirrored w.shared.db)
    (h : Retains site w a) : SurvivesTo sidebarFamily (site.env a) w.shared.db (serve site a w).2.shared.db
      (w.kept site a) := by
  intro us hstep x hx o ho hS hus
  cases o with
  | sidebarInfo =>
    obtain ⟨hpages, hcats, hcat, hv⟩ := hS
    by_cases hdrops : Drops (site.env a) w.shared.db
    · rw [h ⟨x, mem_of_keptCache hx, ho⟩ hdrops]
      exact ⟨hpages, hcats, hcat, hv⟩
    · obtain ⟨hsame, hinfo⟩ := hstep.sidebarInfo hd hdrops (fun ht => hus _ ht hpages) (fun ht => hus _ ht hcats)
        fun c hc ht => hus _ ht (hcat c hc)
      refine ⟨hpages, hcats, ?_, ?_⟩
      · rw [hsame]
        exact hcat
      · rw [hinfo]
        exact hv
  | _ => trivial

/-- **A cached side bar is current** in every run whose requests retain the open posts of the categories while
    it is cached. -/
theorem cached_sidebar_current {site : Site} {w : World} (hw : Reachable site w) (hempty : w.shared.cache = [])
    {events : List Event} (h : EachRequest site (Retains site) w events) :
    ∀ x ∈ (run site events w).shared.cache, x.key = "sidebar_info" →
      x.value = .sidebarInfo (run site events w).shared.db.sidebarInfo := by
  have hstart := hw.tables (J := Mirrored) mirrored_fresh fun _ _ _ _ h hstep => h.change hstep.change
  have hinv : Cached.Inv sidebarFamily Mirrored (run site events w) := by
    refine run_cached (P := Retains site) (fun w a ts d' _ hd hstep => hd.change hstep.change)
      (fun w a d o v ts _ _ ho => sidebarFamily_renders ho) (fun w a hP hd => sidebarFamily_survives hd hP)
      ⟨hstart.versioned, hstart.tables, fun x hx => ?_⟩ h
    rw [hempty] at hx
    exact absurd hx List.not_mem_nil
  intro x hx hkey
  obtain ⟨o, ho, hS⟩ := hinv.cache x hx
  obtain rfl : o = .sidebarInfo := CachedObject.key_injective (ho.symm.trans hkey)
  exact hS.2.2.2

/-- A post is published in a category, and a visitor reads it. -/
def sidebarEvents : List Event :=
  [.request (.login "b" "bob"), .request (.get "b" "/admin"),
   .request (.post "b" "/admin/categories" [("id", ""), ("cat", "C")]),
   .request (.post "b" "/admin/post" [("_1", "T"), ("_2", "A"), ("_6", ""), ("_10", "1")]),
   .request (.get "v" "/post/1")]

theorem cached_sidebar_current_one :
    (∃ x ∈ (run .sample sidebarEvents feedWorld).shared.cache, x.key = "sidebar_info") ∧
      ∀ x ∈ (run .sample sidebarEvents feedWorld).shared.cache, x.key = "sidebar_info" →
        x.value = .sidebarInfo (run .sample sidebarEvents feedWorld).shared.db.sidebarInfo := by
  have hw : Reachable .sample feedWorld := ⟨[], _, rfl⟩
  have hempty : feedWorld.shared.cache = [] := by decide +kernel
  have h : EachRequest .sample (Retains .sample) feedWorld sidebarEvents :=
    ⟨fun _ h => absurd h (by decide +kernel), fun _ h => absurd h (by decide +kernel),
      fun _ h => absurd h (by decide +kernel), fun _ h => absurd h (by decide +kernel),
      fun _ h => absurd h (by decide +kernel), trivial⟩
  exact ⟨by decide +kernel, cached_sidebar_current hw hempty h⟩

/-- The post is deleted, and still counted. -/
def deletedEvents : List Event :=
  sidebarEvents ++ [.request (.post "b" "/admin/post/1" [("_1", "T"), ("_2", "A"), ("_7", ""), ("_8", "y")])]

theorem not_cached_sidebar_current : ¬∀ (site : Site) (w : World) (events : List Event), Reachable site w →
    w.shared.cache = [] → ∀ x ∈ (run site events w).shared.cache, x.key = "sidebar_info" →
      x.value = .sidebarInfo (run site events w).shared.db.sidebarInfo := by
  intro h
  have hcurrent := h .sample feedWorld deletedEvents ⟨[], _, rfl⟩ (by decide +kernel)
  have hstale : ∃ x ∈ (run .sample deletedEvents feedWorld).shared.cache, x.key = "sidebar_info" ∧
      x.value ≠ .sidebarInfo (run .sample deletedEvents feedWorld).shared.db.sidebarInfo := by decide +kernel
  obtain ⟨x, hx, hkey, hvalue⟩ := hstale
  exact hvalue (hcurrent x hx hkey)

end CppBlog
