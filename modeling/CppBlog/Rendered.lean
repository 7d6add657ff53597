import CppBlog.CacheKeys
import CppBlog.Fresh
import CppBlog.Requests

set_option autoImplicit false

/-! # What requests put into the cache

A statement about the cache is a `Family`: what holds of a cached object, given the tables. `Renders`
lists every object a request may store, with the value computed from the tables and from other cached
objects and with the triggers noted on the way. A family that `Renders` does not leave is kept by every
request that only reads (`Ready`), however its calls to the database fail. -/

namespace CppBlog

open Effect Store App

/-! ## Families of statements -/

/-- What is said of the cached objects: by the tables, the object, its value and its triggers. -/
abbrev Family := Db → CachedObject → Cached → List String → Prop

/-- Every entry of the cache is an object of which the family holds. -/
def Sound (S : Family) (d : Db) (c : Cache) : Prop :=
  TriggerCache.Valid (fun x => ∃ o : CachedObject, x.key = o.key ∧ S d o x.value x.triggers) c

/-- A cached object was used: its triggers are among those noted. -/
def Uses (S : Family) (d : Db) (o : CachedObject) (v : Cached) (ts : List String) : Prop :=
  ∃ us, us ⊆ ts ∧ S d o v us

theorem Uses.mono {S : Family} {d : Db} {o : CachedObject} {v : Cached} {ts ts' : List String}
    (h : Uses S d o v ts) (hts : ts ⊆ ts') : Uses S d o v ts' := by
  obtain ⟨us, hus, hS⟩ := h
  exact ⟨us, fun t ht => hts (hus ht), hS⟩

/-- The object under its key. -/
theorem Sound.fetch {S : Family} {d : Db} {c : Cache} (h : Sound S d c) {o : CachedObject}
    {x : CacheEntry Cached} (hx : c.fetch o.key = some x) : S d o x.value x.triggers := by
  obtain ⟨hmem, hkey⟩ := TriggerCache.mem_of_fetch hx
  obtain ⟨o', ho', hS⟩ := h x hmem
  have ho : o = o' := CachedObject.key_injective (hkey.symm.trans ho')
  exact ho ▸ hS

/-! ## The objects a request stores -/

/-- The part around the content of a blog page, with a side bar that may come from the cache. -/
def masterAround (e : Env) (info : GeneralInfo) (locale : Nat) (sidebar : Sidebar) : MasterPage where
  locale := locale
  media := escape e.settings.media
  cookiePrefix := escape e.settings.cookiePrefix
  blogTitle := escape info.blogTitle
  blogDescription := escape info.blogDescription
  contact := escape info.contact
  sidebar := sidebar

/-- The part around the content of a feed. -/
def feedAround (e : Env) (info : GeneralInfo) (locale : Nat) : FeedMaster where
  locale := locale
  host := escape e.settings.host
  blogTitle := escape info.blogTitle
  blogDescription := escape info.blogDescription

/-- The posts of a feed of all posts. -/
def Feed.lastPosts (d : Db) : List SummaryRow :=
  (d.selectOpenPosts (fun _ => true) 10 0).map (fun r => summaryRow (some r.1, r.2))

/-- The posts of the feed of a category. -/
def Feed.lastPostsIn (id : Int) (d : Db) : List SummaryRow :=
  (d.selectPostsInCat id (fun _ => true) 10 0).map summaryRow

/-- The paging of a listing with `n` records at a page. -/
def Summary.pageOf (n page : Int) : Paging :=
  ({ pageRecords := n, curpage := page } : Paging).calcPages

/-- The posts of a listing that a paging shows. -/
def Summary.postsOf (e : Env) (catId : Int) (q : String) (p : Paging) (d : Db) : List SummaryRow :=
  selectPosts e catId q p.pageSize (p.curpage * p.pageSize) d

/-- The categories of the posts a listing shows. -/
def Summary.catsOf (rows : List SummaryRow) (d : Db) : List (Int × Cat) :=
  if rows.isEmpty then [] else d.selectCatsOfPosts (rows.map SummaryRow.id)

section
variable (e : Env) (locale : Nat) (S : Family) (d : Db)

/-- A side bar was used for the part around the content of a blog page. -/
def MasterOf (info : GeneralInfo) (ts : List String) (master : MasterPage) : Prop :=
  ∃ sidebar, Uses S d .sidebar (.sidebar sidebar) ts ∧ master = masterAround e info locale sidebar

/-- The pages of the page cache, made from the tables `d`. -/
inductive Shows : CachedPage → List String → Output → Prop where
  | post {id : Digits} {p : Post} {username : String} {info : GeneralInfo} {master : MasterPage}
      {ts : List String} : routedToDisplay e = some id.text →
      d.selectPostJoinUser (Text.atoi id.text) = some (p, username) → p.isOpen ≠ 0 →
      Uses S d .options (.info info) ts → MasterOf e locale S d info ts master →
      Shows (.post id) ts (.blogPost master
        (postTemplate e (d.postContent (Text.atoi id.text) p username info) "" {}))
  | page {id : Digits} {p : Page} {info : GeneralInfo} {master : MasterPage} {ts : List String} :
      routedToPage e = some id.text → d.selectPage (Text.atoi id.text) = some p → p.isOpen ≠ 0 →
      Uses S d .options (.info info) ts → MasterOf e locale S d info ts master →
      Shows (.page id) ts (.blogPage master (Text.atoi id.text) (escape p.title) p.content)
  | summary {catId page n : Int} {q name : String} {info : GeneralInfo} {master : MasterPage}
      {ts : List String} : 0 ≤ catId → 0 ≤ page → q = e.req.getValue "q" → catKey catId ∈ ts →
      (catId ≠ 0 → Uses S d (.catName catId) (.frame name) ts ∧ name.isEmpty = false) →
      Uses S d (.catCount catId q) (.pageRecords n) ts → (Summary.pageOf n page).curpage = page →
      (∀ r ∈ Summary.postsOf e catId q (Summary.pageOf n page) d, postKey r.id ∈ ts) →
      Uses S d .options (.info info) ts → MasterOf e locale S d info ts master →
      Shows (.summary catId page q) ts (.blogSummary master
        (Summary.summaryTemplate e catId name q (Summary.pageOf n page)
          (Summary.catsOf (Summary.postsOf e catId q (Summary.pageOf n page) d) d)
          (Summary.postsOf e catId q (Summary.pageOf n page) d)))
  | rssPosts {info : GeneralInfo} {ts : List String} : "cat_0" ∈ ts →
      (∀ r ∈ Feed.lastPosts d, postKey r.id ∈ ts) → Uses S d .options (.info info) ts →
      Shows .rssPosts ts (.feedPosts (feedAround e info locale) none
        ((Feed.lastPosts d).map (Feed.postItem e)))
  | rssCat {id : Digits} {name : String} {info : GeneralInfo} {ts : List String} :
      routedToCats e = some id.text → "cat_" ++ id.text ∈ ts →
      d.selectCatName (Text.atoi id.text) = some name →
      (∀ r ∈ Feed.lastPostsIn (Text.atoi id.text) d, postKey r.id ∈ ts) →
      Uses S d .options (.info info) ts →
      Shows (.rssCat id) ts (.feedPosts (feedAround e info locale)
        (Feed.channel (Text.atoi id.text) name)
        ((Feed.lastPostsIn (Text.atoi id.text) d).map (Feed.postItem e)))
  | comments {info : GeneralInfo} {ts : List String} : Uses S d .options (.info info) ts →
      Shows .comments ts (.feedComments (feedAround e info locale)
        (d.selectLastComments.map (Feed.commentItem e)))

/-- The objects a request may store, made from the tables `d`. -/
inductive Renders : CachedObject → Cached → List String → Prop where
  | options {info : GeneralInfo} {ts : List String} : d.info = some info → "options" ∈ ts →
      Renders .options (.info info) ts
  | sidebarInfo {ts : List String} : "pages" ∈ ts → "cats" ∈ ts →
      (∀ c ∈ d.cats.rows, catKey c.id ∈ ts) →
      Renders .sidebarInfo (.sidebarInfo d.sidebarInfo) ts
  | sidebar {sidebar : SidebarInfo} {info : GeneralInfo} {ts : List String} :
      Uses S d .sidebarInfo (.sidebarInfo sidebar) ts → "options" ∈ ts →
      Renders .sidebar (.sidebar (sidebarTemplate e info locale sidebar)) ts
  | maxCatId {ts : List String} : "cats" ∈ ts →
      Renders .maxCatId (.frame ((d.selectMaxCatId.map toString).getD "")) ts
  | catName {catId : Int} {ts : List String} : catKey catId ∈ ts →
      Renders (.catName catId) (.frame ((d.selectCatName catId).getD "")) ts
  | catCount {catId : Int} {q : String} {ts : List String} : catKey catId ∈ ts →
      Renders (.catCount catId q) (.pageRecords (Summary.countRecords e catId q d)) ts
  | page {view : CachedPage} {out : Output} {ts : List String} : Shows e locale S d view ts out →
      view.key ∈ ts → Renders (.page e.req.gzip view) (.page [out]) ts

/-- What a handler may write to the response, whether it is cached or not. -/
inductive Displays : Output → Prop where
  | page {view : CachedPage} {ts : List String} {out : Output} : Shows e locale S d view ts out →
      Displays out
  | blogPost {info : GeneralInfo} {ts : List String} {master : MasterPage} (page : PostPage) :
      MasterOf e locale S d info ts master → Displays (.blogPost master page)
  | blogPage {info : GeneralInfo} {ts : List String} {master : MasterPage} (id : Int)
      (title content : String) : MasterOf e locale S d info ts master →
      Displays (.blogPage master id title content)
  | admin {master : AdminMaster} (view : AdminView) : master.locale = locale →
      Displays (.admin master view)
  | config (media csrf : String) (form : ConfigForm) : Displays (.config locale media csrf form)
  | configVersion (media version expected : String) :
      Displays (.configVersion locale media version expected)
  | error (status : Nat) : Displays (.error status)
  | captcha (code : String) : Displays (.captcha code)
  | file (content : List UInt8) : Displays (.file content)
  | json (status : Bool) (fields : List (String × String)) : Displays (.json status fields)

/-- A family that requests do not leave, with what it says of the outputs they write. -/
structure Closed (O : Output → Prop) : Prop where
  renders : ∀ o v ts, Renders e locale S d o v ts → S d o v ts
  displays : ∀ out, Displays e locale S d out → O out
  served : ∀ g view body ts, S d (.page g view) (.page body) ts → ∀ out ∈ body, O out

/-- A state in which a request reads the tables `d`. -/
structure Ready (s : St) : Prop where
  db : s.db = d
  tx : s.tx = none
  locale : s.own.response.locale = locale
  cache : Sound S d s.cache

end

/-! ## Parts of a handler that leave the response alone -/

/-- Of the request's own data only the triggers have changed: `ts` were noted. -/
structure Added (ts : List String) (s s' : St) : Prop where
  response : s'.own.response = s.own.response
  triggers : s'.own.triggers = s.own.triggers ++ ts
  recorders : s'.own.recorders = s.own.recorders.map (· ++ ts)

theorem Added.refl (s : St) : Added [] s s := ⟨rfl, by simp, by simp⟩

theorem Added.trans {ts ts' : List String} {s s' s'' : St} (h : Added ts s s') (h' : Added ts' s' s'') :
    Added (ts ++ ts') s s'' where
  response := h'.response.trans h.response
  triggers := by rw [h'.triggers, h.triggers, List.append_assoc]
  recorders := by
    rw [h'.recorders, h.recorders, List.map_map]
    congr 1
    funext r
    exact List.append_assoc r ts ts'

variable {α β : Type} {S : Family} {locale : Nat} {d : Db}

/-- A part of a handler that reads: it returns what `R` says, with the triggers it noted, and the cache
    is still as the family says. -/
def Notes (S : Family) (locale : Nat) (d : Db) (R : α → List String → Prop) (p : App α) : Prop :=
  ∀ s, Ready locale S d s → p.wp calls
    (fun a s' => Ready locale S d s' ∧ ∃ ts, Added ts s s' ∧ R a ts)
    (fun _ s' => Ready locale S d s' ∧ s'.own.response = s.own.response) s

theorem Ready.current {s : St} (h : Ready locale S d s) : s.current = d :=
  (St.current_of_none h.tx).trans h.db

theorem Ready.setOwn {s : St} {o : Own} (h : Ready locale S d s) (ho : o.response.locale = locale) :
    Ready locale S d (s.setOwn o) := ⟨h.db, h.tx, ho, h.cache⟩

theorem Ready.setCache {s : St} {c : Cache} (h : Ready locale S d s) (hc : Sound S d c) :
    Ready locale S d (s.setCache c) := ⟨h.db, h.tx, h.locale, hc⟩

namespace Notes

theorem ret (a : α) : Notes S locale d (fun b ts => b = a ∧ ts = []) (.ret a : App α) :=
  fun s hs => ⟨hs, [], .refl s, rfl, rfl⟩

theorem throw (err : Error) (R : α → List String → Prop) :
    Notes S locale d R (.throw err : App α) := fun _ hs => ⟨hs, rfl⟩

theorem mono {R R' : α → List String → Prop} {p : App α} (hp : Notes S locale d R p)
    (h : ∀ a ts, R a ts → R' a ts) : Notes S locale d R' p := by
  intro s hs
  refine Prog.wp_mono (fun a s' h' => ?_) (fun _ _ h' => h') (hp s hs)
  obtain ⟨hs', ts, hts, hR⟩ := h'
  exact ⟨hs', ts, hts, h a ts hR⟩

theorem bind {R : α → List String → Prop} {R' : β → List String → Prop} {p : App α} {k : α → App β}
    (hp : Notes S locale d R p)
    (hk : ∀ a ts, R a ts → Notes S locale d (fun b ts' => R' b (ts ++ ts')) (k a)) :
    Notes S locale d R' (p.bind k) := by
  intro s hs
  refine Prog.wp_seq (hp s hs) (fun a s' h => ?_) (fun _ _ h => h)
  obtain ⟨hs', ts, hts, hR⟩ := h
  refine Prog.wp_mono (fun b s'' h' => ?_) (fun _ s'' h' => ?_) (hk a ts hR s' hs')
  · obtain ⟨hs'', ts', hts', hR'⟩ := h'
    exact ⟨hs'', ts ++ ts', hts.trans hts', hR'⟩
  · exact ⟨h'.1, h'.2.trans hts.response⟩

theorem query (f : Db → β) : Notes S locale d (fun b ts => b = f d ∧ ts = []) (App.query f) := by
  intro s hs
  rw [wp_query, hs.current]
  exact ⟨⟨hs, [], .refl s, rfl, rfl⟩, hs, rfl⟩

theorem getLocale :
    Notes S locale d (fun l ts => l = locale ∧ ts = []) (getOwn (fun o => o.response.locale)) := by
  intro s hs
  rw [wp_getOwn]
  exact ⟨hs, [], .refl s, hs.locale, rfl⟩

theorem getOwn (f : Own → β) : Notes S locale d (fun _ ts => ts = []) (App.getOwn f) := by
  intro s hs
  rw [wp_getOwn]
  exact ⟨hs, [], .refl s, rfl⟩

theorem addTriggers (ts : List String) :
    Notes S locale d (fun _ ts' => ts' = ts) (App.addTriggers ts) := by
  intro s hs
  rw [App.addTriggers, wp_modifyOwn]
  exact ⟨hs.setOwn hs.locale, ts, ⟨rfl, rfl, rfl⟩, rfl⟩

/-- An object found in the cache is as the family says, and its triggers are noted. -/
theorem fetch (o : CachedObject) :
    Notes S locale d (fun r ts => (r = none ∧ ts = []) ∨ ∃ v, r = some v ∧ S d o v ts)
      (App.fetch o.key) := by
  intro s hs
  rw [App.fetch, Prog.wp_bind, wp_cache]
  dsimp only
  cases hx : TriggerCache.fetch s.cache o.key with
  | none => exact ⟨hs, [], .refl s, .inl ⟨rfl, rfl⟩⟩
  | some x =>
    dsimp only
    rw [Prog.wp_bind, App.addTriggers, wp_modifyOwn]
    exact ⟨hs.setOwn hs.locale, x.triggers, ⟨rfl, rfl, rfl⟩, .inr ⟨x.value, rfl, hs.cache.fetch hx⟩⟩

/-- Storing an object as the family says, with the triggers given and its key. -/
theorem store {o : CachedObject} {v : Cached} {us : List String}
    (h : S d o v (TriggerCache.storedTriggers o.key us)) :
    Notes S locale d (fun _ ts => Uses S d o v ts) (App.store o.key v us) := by
  intro s hs
  rw [App.store, Prog.wp_bind, App.addTriggers, wp_modifyOwn, wp_cache]
  refine ⟨⟨hs.db, hs.tx, hs.locale, TriggerCache.Valid.store hs.cache ⟨o, rfl, h⟩⟩, us ++ [o.key],
    ⟨rfl, rfl, rfl⟩, _, fun t ht => ?_, h⟩
  rcases TriggerCache.mem_storedTriggers.1 ht with rfl | ht
  · simp
  · exact List.mem_append_left _ ht

/-- A recorder hands out the triggers noted while it was alive. -/
theorem record {R : α → List String → Prop} {p : App α} (hp : Notes S locale d R p) :
    Notes S locale d (fun x ts => R x.1 ts ∧ x.2 = ts) (App.record p) := by
  intro s hs
  rw [App.record, Prog.wp_bind, wp_modifyOwn, Prog.wp_bind]
  have hstart : Ready locale S d (s.setOwn { s.own with recorders := [] :: s.own.recorders }) :=
    hs.setOwn hs.locale
  refine Prog.wp_mono (fun a s' h => ?_) (fun _ s' h => h) (hp _ hstart)
  obtain ⟨hs', ts, hts, hR⟩ := h
  rw [Prog.wp_bind, wp_own, Prog.wp_ret]
  have hrecorders : s'.own.recorders = ts :: s.own.recorders.map (· ++ ts) := hts.recorders
  refine ⟨hs'.setOwn hs'.locale, ts, ⟨hts.response, hts.triggers, ?_⟩, hR, ?_⟩
  · simp [St.setOwn, hrecorders]
  · simp [hrecorders]

end Notes

/-! ## The parts all pages share -/

section
variable {e : Env} {O : Output → Prop}

/-- The options of a page are cached. -/
theorem notes_basicPrepare (hclosed : Closed e locale S d O) (hv : Versioned d) :
    Notes S locale d (fun info ts => Uses S d .options (.info info) ts) basicPrepare := by
  have hversion : checkVersion (d.selectOptions.foldl OptionRows.read {}).dbversion = .ret () := by
    have hv' : d.option "dbversion" = some cppblogDbversion := hv
    rw [read_dbversion, hv', checkVersion]
    simp
  refine (Notes.fetch .options).bind fun r ts hr => ?_
  rcases hr with ⟨rfl, rfl⟩ | ⟨v, rfl, hS⟩
  · refine (Notes.query Db.selectOptions).bind fun rows ts hrows => ?_
    obtain ⟨rfl, rfl⟩ := hrows
    dsimp only
    rw [hversion, Prog.ret_bind]
    split
    · exact .throw _ _
    · rename_i hyes
      have hinfo : d.info = some (d.selectOptions.foldl OptionRows.read {}).info :=
        if_pos (not_not.1 hyes)
      refine (Notes.store (hclosed.renders .options _ _ (.options hinfo ?_))).bind fun _ ts hts => ?_
      · exact TriggerCache.mem_storedTriggers.2 (.inl rfl)
      · refine (Notes.ret _).mono fun info ts' h => ?_
        obtain ⟨rfl, rfl⟩ := h
        exact hts.mono (by simp)
  · cases v with
    | info i =>
      refine (Notes.ret i).mono fun info ts' h => ?_
      obtain ⟨rfl, rfl⟩ := h
      exact ⟨ts, by simp, hS⟩
    | _ => exact .throw _ _

theorem notes_querySidebar :
    Notes S locale d (fun sidebar ts => sidebar = d.sidebarInfo ∧ "pages" ∈ ts ∧ "cats" ∈ ts ∧
      ∀ c ∈ d.cats.rows, catKey c.id ∈ ts) querySidebar := by
  refine (Notes.query Db.selectOpenPages).bind fun pages ts h => ?_
  obtain ⟨rfl, rfl⟩ := h
  refine (Notes.addTriggers ["pages"]).bind fun _ ts h => ?_
  subst h
  refine (Notes.query Db.selectCatCounts).bind fun cats ts h => ?_
  obtain ⟨rfl, rfl⟩ := h
  refine (Notes.addTriggers _).bind fun _ ts h => ?_
  subst h
  refine (Notes.addTriggers ["cats", "general_info"]).bind fun _ ts h => ?_
  subst h
  refine (Notes.ret _).mono fun sidebar ts h => ?_
  obtain ⟨rfl, rfl⟩ := h
  refine ⟨rfl, by simp, by simp, fun c hc => ?_⟩
  have hmem : catKey c.id ∈ d.selectCatCounts.map (fun c => catKey c.1.id) := by
    rw [Db.selectCatCounts, List.map_map]
    exact List.mem_map.2 ⟨c, hc, rfl⟩
  simp [hmem]

theorem notes_loadSidebar (hclosed : Closed e locale S d O) :
    Notes S locale d (fun sidebar ts => Uses S d .sidebarInfo (.sidebarInfo sidebar) ts) loadSidebar := by
  refine (Notes.fetch .sidebarInfo).bind fun r ts hr => ?_
  rcases hr with ⟨rfl, rfl⟩ | ⟨v, rfl, hS⟩
  · refine (Notes.record notes_querySidebar).bind fun x ts hx => ?_
    obtain ⟨⟨hinfo, hpages, hcats, hcat⟩, rfl⟩ := hx
    have hstored (t : String) (ht : t ∈ x.2) : t ∈ TriggerCache.storedTriggers "sidebar_info" x.2 :=
      TriggerCache.mem_storedTriggers.2 (.inr ht)
    rw [hinfo]
    refine (Notes.store (hclosed.renders .sidebarInfo _ _ (.sidebarInfo (hstored _ hpages)
      (hstored _ hcats) fun c hc => hstored _ (hcat c hc)))).bind fun _ ts hts => ?_
    refine (Notes.ret _).mono fun sidebar ts' h => ?_
    obtain ⟨rfl, rfl⟩ := h
    exact hts.mono (by simp)
  · cases v with
    | sidebarInfo i =>
      refine (Notes.ret i).mono fun info ts' h => ?_
      obtain ⟨rfl, rfl⟩ := h
      exact ⟨ts, by simp, hS⟩
    | _ => exact .throw _ _

theorem notes_renderSidebar (hclosed : Closed e locale S d O) (info : GeneralInfo) :
    Notes S locale d (fun sidebar ts => Uses S d .sidebar (.sidebar sidebar) ts)
      (renderSidebar e info) := by
  refine (Notes.fetch .sidebar).bind fun r ts hr => ?_
  rcases hr with ⟨rfl, rfl⟩ | ⟨v, rfl, hS⟩
  · have hload : Notes S locale d
        (fun sidebar ts => Uses S d .sidebarInfo (.sidebarInfo sidebar) ts ∧ "options" ∈ ts)
        (loadSidebar.bind fun s => (addTrigger "options").bind fun _ => .ret s) := by
      refine (notes_loadSidebar hclosed).bind fun sidebar ts hts => ?_
      refine (Notes.addTriggers ["options"]).bind fun _ ts' h => ?_
      subst h
      refine (Notes.ret _).mono fun sidebar ts' h => ?_
      obtain ⟨rfl, rfl⟩ := h
      exact ⟨hts.mono (by simp), by simp⟩
    refine (Notes.record hload).bind fun x ts hx => ?_
    obtain ⟨⟨hinfo, hoptions⟩, rfl⟩ := hx
    refine Notes.getLocale.bind fun l ts h => ?_
    obtain ⟨rfl, rfl⟩ := h
    refine (Notes.store (hclosed.renders .sidebar _ _ (.sidebar (hinfo.mono fun t ht => ?_) ?_))).bind
      fun _ ts hts => ?_
    · exact TriggerCache.mem_storedTriggers.2 (.inr ht)
    · exact TriggerCache.mem_storedTriggers.2 (.inr hoptions)
    · refine (Notes.ret _).mono fun sidebar ts' h => ?_
      obtain ⟨rfl, rfl⟩ := h
      exact hts.mono (by simp)
  · cases v with
    | sidebar sidebar =>
      refine (Notes.ret sidebar).mono fun info ts' h => ?_
      obtain ⟨rfl, rfl⟩ := h
      exact ⟨ts, by simp, hS⟩
    | _ => exact .throw _ _

theorem notes_renderMaster (hclosed : Closed e locale S d O) (info : GeneralInfo) :
    Notes S locale d (fun master ts => MasterOf e locale S d info ts master)
      (renderMaster e info) := by
  refine (notes_renderSidebar hclosed info).bind fun sidebar ts hts => ?_
  refine Notes.getLocale.bind fun l ts' h => ?_
  obtain ⟨rfl, rfl⟩ := h
  refine (Notes.ret _).mono fun master ts' h => ?_
  obtain ⟨rfl, rfl⟩ := h
  exact ⟨sidebar, hts.mono (by simp), rfl⟩

theorem notes_feedMaster (info : GeneralInfo) :
    Notes S locale d (fun master ts => master = feedAround e info locale ∧ ts = [])
      (Feed.feedMaster e info) := by
  refine Notes.getLocale.bind fun l ts h => ?_
  obtain ⟨rfl, rfl⟩ := h
  refine (Notes.ret _).mono fun master ts h => ?_
  obtain ⟨rfl, rfl⟩ := h
  exact ⟨rfl, rfl⟩

end

end CppBlog
