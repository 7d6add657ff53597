import CppBlog.FreshFeeds
import CppBlog.Listings

set_option autoImplicit false

/-! # Cached feeds

A feed depends on its posts and on the trigger of its category, though every other post could move into
its ten entries. None does: a step that rises neither leaves the ten newest posts as they are, because
it publishes nothing and drops only posts behind them. -/

namespace CppBlog

open Effect Store App

/-! ## The ten newest posts -/

/-- The posts of a feed. -/
def Db.newest (k : Int) (d : Db) : List Post :=
  (orderByDesc (fun p => (p.publish : Int)) (d.openPosts k)).take 10

/-- One item of a feed of posts; it does not show the author. -/
def Feed.itemOf (e : Env) (p : Post) : FeedPost := Feed.postItem e (summaryRow (some p, none))

section
variable {e : Env} {d d' : Db} {ts : List String} {k : Int}

/-- Without a search text a listing shows all open posts. -/
theorem listing_all (e : Env) (k : Int) (d : Db) :
    Summary.listing e k "" d = orderByDesc (fun p => (p.publish : Int)) (d.openPosts k) := by
  have hall : Summary.condition e "" = fun _ => true := rfl
  rw [Summary.listing, hall, List.filter_true]

theorem Mirrored.selectNewest (hd : Mirrored d) (e : Env) (k : Int) :
    Summary.selectPosts e k "" 10 0 d = (d.newest k).map
      (fun p => summaryRow (some p, (d.users.find? p.authorId).map User.username)) := by
  rw [hd.selectPosts, listing_all]
  rfl

theorem Mirrored.lastPosts (hd : Mirrored d) (e : Env) :
    Feed.lastPosts d = (d.newest 0).map
      (fun p => summaryRow (some p, (d.users.find? p.authorId).map User.username)) :=
  hd.selectNewest e 0

theorem Mirrored.lastPostsIn (hd : Mirrored d) (e : Env) (hk : k ≠ 0) :
    Feed.lastPostsIn k d = (d.newest k).map
      (fun p => summaryRow (some p, (d.users.find? p.authorId).map User.username)) := by
  rw [← hd.selectNewest e k, Summary.selectPosts, if_pos hk]
  rfl

/-- **A step that rises neither the trigger of the category nor one of the posts shown** leaves the posts
    shown. -/
theorem PostStep.newest (h : PostStep e d ts d') (hd : Mirrored d) (hk : catKey k ∉ ts)
    (hposts : ∀ p ∈ d.newest k, postKey p.id ∉ ts) : d'.newest k = d.newest k := by
  have hlisting := h.listing hd hk e "" fun _ _ _ _ => rfl
  rw [listing_all, listing_all] at hlisting
  rw [Db.newest, Db.newest, hlisting]
  refine take_filterMap_self fun p hp => ?_
  have hopen : p ∈ d.openPosts k := (List.mem_insertionSort _).1 (List.mem_of_mem_take hp)
  exact h.followed_self hd hk hopen (hposts p hp)

end

/-! ## What is said of cached feeds -/

/-- A feed shows the ten newest posts of a category, and depends on them. -/
structure PostsFeed (e : Env) (l : Nat) (d : Db) (k : Int) (category : Option (Int × String)) (v : Cached)
    (ts : List String) : Prop where
  cat : catKey k ∈ ts
  options : "options" ∈ ts
  posts : ∀ p ∈ d.newest k, postKey p.id ∈ ts
  shown : ∃ info, d.info = some info ∧
    v = .page [.feedPosts (feedAround e info l) category ((d.newest k).map (Feed.itemOf e))]

/-- The family of the feeds, whatever request they are rendered for. -/
def feedFamily (site : Site) (l : Nat) : Family
  | d, .options, v, ts => "options" ∈ ts ∧ ∃ info, d.info = some info ∧ v = .info info
  | d, .page _ .rssPosts, v, ts => ∀ a, PostsFeed (site.env a) l d 0 none v ts
  | d, .page _ (.rssCat id), v, ts => ∀ n : Int, 0 ≤ n → n ≤ maxId → id.text = toString n →
      ∃ name, d.selectCatName n = some name ∧ ∀ a, PostsFeed (site.env a) l d n (Feed.channel n name) v ts
  | d, .page _ .comments, v, ts => "comments" ∈ ts ∧ "options" ∈ ts ∧ ∃ info, d.info = some info ∧
      ∀ a, v = .page [.feedComments (feedAround (site.env a) info l)
        (d.selectLastComments.map (Feed.commentItem (site.env a)))]
  | _, _, _, _ => True

section
variable {site : Site} {l : Nat} {d d' : Db} {ts us : List String}

/-- The options a page has used. -/
theorem options_of_uses {info : GeneralInfo} (h : Uses (feedFamily site l) d .options (.info info) ts) :
    "options" ∈ ts ∧ d.info = some info := by
  obtain ⟨us, hus, hoptions, info', hinfo, hv⟩ := h
  obtain rfl := Cached.info.inj hv
  exact ⟨hus hoptions, hinfo⟩

/-- A feed that is rendered from the posts selected. -/
theorem PostsFeed.of_rows {e : Env} {k : Int} {category : Option (Int × String)} {rows : List SummaryRow}
    {info : GeneralInfo} (hrows : rows = (d.newest k).map
      (fun p => summaryRow (some p, (d.users.find? p.authorId).map User.username)))
    (hcat : catKey k ∈ ts) (hposts : ∀ r ∈ rows, postKey r.id ∈ ts)
    (hinfo : Uses (feedFamily site l) d .options (.info info) ts) :
    PostsFeed e l d k category (.page [.feedPosts (feedAround e info l) category
      (rows.map (Feed.postItem e))]) ts where
  cat := hcat
  options := (options_of_uses hinfo).1
  posts p hp := hposts _ (hrows ▸ List.mem_map_of_mem hp)
  shown := by
    refine ⟨info, (options_of_uses hinfo).2, ?_⟩
    rw [hrows, List.map_map]
    rfl

/-- **A feed is cached as it is rendered.** -/
theorem feedFamily_renders {a : Arrival} (hd : Mirrored d) {o : CachedObject} {v : Cached}
    (ho : Renders (site.env a) l (feedFamily site l) d o v ts) : feedFamily site l d o v ts := by
  cases ho with
  | options hinfo hts => exact ⟨hts, _, hinfo, rfl⟩
  | page hshows hkey =>
    cases hshows with
    | rssPosts hcat hposts hinfo =>
      exact fun _ => PostsFeed.of_rows (hd.lastPosts (site.env a)) hcat hposts hinfo
    | rssCat hroute hcat hname hposts hinfo =>
      intro n hn hmax hid
      rw [hid] at hcat
      rw [hid, Text.atoi_toString hn hmax] at hname hposts
      rw [hid, Text.atoi_toString hn hmax]
      have hne : n ≠ 0 := by
        obtain ⟨c, hc, -⟩ := Option.map_eq_some_iff.1 hname
        obtain ⟨hmem, hcid⟩ := (Table.find?_eq_some _ _ _).1 hc
        have hpos := d.cats.key_pos c hmem
        omega
      exact ⟨_, hname, fun _ => PostsFeed.of_rows (hd.lastPostsIn (site.env a) hne) hcat hposts hinfo⟩
    | comments hinfo =>
      obtain ⟨hoptions, hinfo⟩ := options_of_uses hinfo
      exact ⟨hkey, hoptions, _, hinfo, fun _ => rfl⟩
    | _ => trivial
  | _ => trivial

/-- The options that are shown depend on their table only. -/
theorem info_congr (h : d'.textOptions = d.textOptions) : d'.info = d.info := by
  rw [Db.info, Db.info, Db.selectOptions, Db.selectOptions, h]

theorem PostsFeed.step {e e' : Env} {k : Int} {category : Option (Int × String)} {v : Cached}
    (h : PostsFeed e l d k category v ts) (hd : Mirrored d) (hstep : Invalidates e' d us d')
    (hoptions : "options" ∉ us → d'.textOptions = d.textOptions) (hus : ∀ t ∈ us, t ∉ ts) :
    PostsFeed e l d' k category v ts := by
  have hnewest : d'.newest k = d.newest k :=
    hstep.posts.newest hd (fun hk => hus _ hk h.cat) fun p hp hpost => hus _ hpost (h.posts p hp)
  have hinfo : d'.info = d.info := info_congr (hoptions fun ht => hus _ ht h.options)
  refine ⟨h.cat, h.options, ?_, ?_⟩
  · rw [hnewest]
    exact h.posts
  · rw [hnewest, hinfo]
    exact h.shown

/-- The name of a category whose trigger is not risen. -/
theorem selectCatName_step {e : Env} {n : Int} {name : String} (hstep : Invalidates e d us d')
    (hn : catKey n ∉ us) (hname : d.selectCatName n = some name) : d'.selectCatName n = some name := by
  have hsame (hfind : d'.cats.find? n = d.cats.find? n) : d'.selectCatName n = some name := by
    rw [Db.selectCatName, hfind]
    exact hname
  cases hstep.cats with
  | same hcats => exact hsame (by rw [hcats])
  | create _ hd _ =>
    obtain ⟨t, ht, rfl⟩ := Option.map_eq_some_iff.1 (Db.orRefuse_eq_ok.1 hd)
    obtain ⟨c, hc, hcname⟩ := Option.map_eq_some_iff.1 hname
    exact Option.map_eq_some_iff.2 ⟨c, AutoTable.find?_insert_of_some ht hc, hcname⟩
  | rename _ hd hts =>
    subst hd
    refine hsame (AutoTable.find?_update_ne ?_)
    rintro rfl
    exact hn (hts ▸ List.mem_cons_of_mem _ List.mem_cons_self)
  | remove hcats hts =>
    rw [hcats] at hsame
    refine hsame (AutoTable.find?_delete_ne ?_)
    rintro rfl
    exact hn (hts ▸ List.mem_cons_of_mem _ List.mem_cons_self)

/-- **A cached feed that depends on nothing risen is still right.** -/
theorem feedFamily_survives {a : Arrival} (hd : Mirrored d)
    (hwritten : ∀ us, Invalidates (site.env a) d us d' → "options" ∉ us → d'.textOptions = d.textOptions)
    (c : Cache) : SurvivesTo (feedFamily site l) (site.env a) d d' c := by
  intro us hstep x _ o _ hS hus
  have hoptions := hwritten us hstep
  cases o with
  | options =>
    obtain ⟨hts, info, hinfo, hv⟩ := hS
    exact ⟨hts, info, (info_congr (hoptions fun ht => hus _ ht hts)).trans hinfo, hv⟩
  | page g view =>
    cases view with
    | rssPosts => exact fun a' => (hS a').step hd hstep hoptions hus
    | rssCat id =>
      intro n hn hmax hid
      obtain ⟨name, hname, hfeed⟩ := hS n hn hmax hid
      exact ⟨name, selectCatName_step hstep (fun hk => hus _ hk (hfeed a).cat) hname,
        fun a' => (hfeed a').step hd hstep hoptions hus⟩
    | comments =>
      obtain ⟨hcomments, hts, info, hinfo, hv⟩ := hS
      have hinfo' : d'.info = d.info := info_congr (hoptions fun ht => hus _ ht hts)
      have hlast : d'.selectLastComments = d.selectLastComments := by
        have hrisen : "comments" ∉ us := fun ht => hus _ ht hcomments
        cases hstep.comments with
        | same h => rw [Db.selectLastComments, h, Db.selectLastComments]
        | insert _ hts => exact absurd (hts ▸ List.mem_cons_of_mem _ List.mem_cons_self) hrisen
        | erase _ _ hts => exact absurd (hts ▸ List.mem_cons_of_mem _ List.mem_cons_self) hrisen
        | edit _ _ hts => exact absurd (hts ▸ List.mem_cons_of_mem _ List.mem_cons_self) hrisen
        | eraseOf _ hts => exact absurd (hts ▸ List.mem_cons_self) hrisen
      exact ⟨hcomments, hts, info, hinfo'.trans hinfo, fun a' => hlast.symm ▸ hv a'⟩
    | _ => trivial
  | _ => trivial

end

/-! ## Runs -/

/-- A state in which nothing is cached. -/
def St.afresh (d : Db) (l : Nat) : St where
  db := d
  tx := none
  cache := []
  files := []
  own := { response := { locale := l } }

/-- What a handler writes when it renders everything afresh. -/
def afresh (p : App Unit) (d : Db) (l : Nat) : List Output := (answer p (St.afresh d l)).2.body

/-- The request is in the locale, and does not write the configuration. -/
def Editorial (site : Site) (l : Nat) (w : World) (a : Arrival) : Prop :=
  nlang (site.env a) = l ∧ (routedToConfig (site.env a) = true →
    (serve site a w).2.shared.db.textOptions.rows = w.shared.db.textOptions.rows)

/-- Of these requests only those to the editor of the options write them. -/
theorem Editorial.textOptions {site : Site} {l : Nat} {w : World} {a : Arrival} (h : Editorial site l w a)
    (us : List String) (hstep : Invalidates (site.env a) w.shared.db us (serve site a w).2.shared.db)
    (hus : "options" ∉ us) : (serve site a w).2.shared.db.textOptions = w.shared.db.textOptions := by
  cases hroute : routedToConfig (site.env a) with
  | false => exact hstep.textOptions hroute hus
  | true => exact Table.ext (h.2 hroute)

instance (site : Site) (l : Nat) (w : World) (a : Arrival) : Decidable (Editorial site l w a) :=
  inferInstanceAs (Decidable (_ ∧ _))

/-- A feed rendered afresh. -/
theorem afresh_feedPosts {e : Env} {d : Db} {l : Nat} (hd : Mirrored d) (hv : Versioned d) {v : Cached}
    {ts : List String} (h : PostsFeed e l d 0 none v ts) : v = .page (afresh (Feed.posts e) d l) := by
  obtain ⟨info, hinfo, hvalue⟩ := h.shown
  rw [hvalue, afresh, answer_feedPosts e rfl hv rfl]
  simp only [St.afresh, Feed.postsShown, Feed.shown, Db.withInfo, hinfo, hd.lastPosts e, List.map_map]
  rfl

theorem afresh_feedCats {e : Env} {d : Db} {l : Nat} (hd : Mirrored d) (hv : Versioned d) {n : Int}
    (hn : 0 ≤ n) (hmax : n ≤ maxId) {name : String} (hname : d.selectCatName n = some name) {v : Cached}
    {ts : List String} (h : PostsFeed e l d n (Feed.channel n name) v ts) :
    v = .page (afresh (Feed.cats e (toString n)) d l) := by
  obtain ⟨info, hinfo, hvalue⟩ := h.shown
  have hne : n ≠ 0 := by
    obtain ⟨c, hc, -⟩ := Option.map_eq_some_iff.1 hname
    obtain ⟨hmem, hcid⟩ := (Table.find?_eq_some _ _ _).1 hc
    have hpos := d.cats.key_pos c hmem
    omega
  rw [hvalue, afresh, answer_feedCats e _ rfl hv rfl]
  simp only [St.afresh, Feed.catsShown, Text.atoi_toString hn hmax, hname, Feed.shown, Db.withInfo, hinfo,
    hd.lastPostsIn e hne, List.map_map]
  rfl

/-- A server whose blog is configured. -/
def feedWorld : World := run .sample [.request (.configure "b" "bob")] (World.fresh [])

/-- A post is published in a category, and a visitor asks for the feed of the category. -/
def feedEvents : List Event :=
  [.request (.login "b" "bob"), .request (.get "b" "/admin"),
   .request (.post "b" "/admin/categories" [("id", ""), ("cat", "C")]),
   .request (.post "b" "/admin/post" [("_1", "T"), ("_2", "A"), ("_6", ""), ("_10", "1")]),
   .request (.get "v" "/rss/cat/1")]

end CppBlog
