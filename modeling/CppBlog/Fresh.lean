import CppBlog.CacheKeys
import CppBlog.PublicAccess
import CppBlog.Unfailing

set_option autoImplicit false

/-! # Pages made from the tables

What the public handlers answer when nothing they need is cached and no call to the database fails, as
functions of the request and of the tables. These are the pages a cached page is compared with. -/

namespace CppBlog

open Effect Store App

/-! ## What all pages show -/

/-- The options of a database that was configured. -/
def Db.info (d : Db) : Option GeneralInfo :=
  let o := d.selectOptions.foldl OptionRows.read {}
  if o.isConfigured = "yes" then some o.info else none

/-- What the side bar shows. -/
def Db.sidebarInfo (d : Db) : SidebarInfo where
  pages := d.selectOpenPages
  cats := d.selectCatCounts.map (fun c => (c.1.id, c.1.name, c.2))

/-- The part around the content of a blog page. -/
def masterPage (e : Env) (d : Db) (info : GeneralInfo) (locale : Nat) : MasterPage where
  locale := locale
  media := escape e.settings.media
  cookiePrefix := escape e.settings.cookiePrefix
  blogTitle := escape info.blogTitle
  blogDescription := escape info.blogDescription
  contact := escape info.contact
  sidebar := sidebarTemplate e info locale d.sidebarInfo

/-- The content of the page of a post. -/
def Db.postContent (d : Db) (id : Int) (p : Post) (username : String) (info : GeneralInfo) :
    PostContent where
  id := id
  title := p.title
  abstract := p.abstract
  content := p.content
  published := p.publish
  author := username
  comments := d.selectCommentsOf id
  categories := d.selectCatsOf id
  info := info

/-! ## Reading without the cache -/

/-- Nothing but the cache, under some keys, and the triggers noted has changed. -/
structure Unseen (keys : List String) (s s' : St) : Prop where
  db : s'.db = s.db
  tx : s'.tx = s.tx
  response : s'.own.response = s.own.response
  session : s'.own.session = s.own.session
  cache : ∀ key, key ∉ keys → s'.cache.fetch key = s.cache.fetch key

namespace Unseen

theorem refl (keys : List String) (s : St) : Unseen keys s s := ⟨rfl, rfl, rfl, rfl, fun _ _ => rfl⟩

theorem trans {keys keys' : List String} {s s' s'' : St} (h : Unseen keys s s')
    (h' : Unseen keys' s' s'') : Unseen (keys ++ keys') s s'' where
  db := h'.db.trans h.db
  tx := h'.tx.trans h.tx
  response := h'.response.trans h.response
  session := h'.session.trans h.session
  cache key hkey := by
    rw [List.mem_append, not_or] at hkey
    exact (h'.cache key hkey.2).trans (h.cache key hkey.1)

theorem mono {keys keys' : List String} {s s' : St} (h : Unseen keys s s') (hk : keys ⊆ keys') :
    Unseen keys' s s' :=
  { h with cache := fun key hkey => h.cache key fun hmem => hkey (hk hmem) }

theorem miss {keys : List String} {s s' : St} (h : Unseen keys s s') {key : String}
    (hkey : key ∉ keys) (hmiss : s.cache.fetch key = none) : s'.cache.fetch key = none :=
  (h.cache key hkey).trans hmiss

/-- Noting triggers. -/
theorem own {s : St} {o : Own} (hr : o.response = s.own.response) (hs : o.session = s.own.session) :
    Unseen [] s (s.setOwn o) := ⟨rfl, rfl, hr, hs, fun _ _ => rfl⟩

theorem then_own {keys : List String} {s s' : St} {o : Own} (h : Unseen keys s s')
    (hr : o.response = s'.own.response) (hs : o.session = s'.own.session) :
    Unseen keys s (s'.setOwn o) :=
  ⟨h.db, h.tx, hr.trans h.response, hs.trans h.session, h.cache⟩

end Unseen

section
variable {α β : Type} {E : Error → St → Prop} {s : St}

theorem wp_addTriggers_sure {ts : List String} {Q : Unit → St → Prop}
    (h : ∀ s', Unseen [] s s' → Q () s') : (addTriggers ts).wp sure Q E s :=
  Sure.wp_modifyOwn.2 (h _ (.own rfl rfl))

/-- Nothing is cached under a key. -/
theorem wp_fetch_miss {key : String} (hmiss : s.cache.fetch key = none) {Q : Option Cached → St → Prop} :
    (fetch key).wp sure Q E s ↔ Q none s := by
  simp only [fetch, Prog.wp_bind, Sure.wp_cache, hmiss, Prog.wp_ret]
  rfl

theorem wp_fetchPage_miss {e : Env} {key : String} (hmiss : s.cache.fetch (pageKey e key) = none)
    {Q : Bool → St → Prop} : (fetchPage e key).wp sure Q E s ↔ Q false s := by
  simp only [fetchPage, Prog.wp_bind, Sure.wp_cache, hmiss, Prog.wp_ret]
  rfl

theorem wp_store_sure {key : String} {value : Cached} {triggers : List String} {Q : Unit → St → Prop}
    (h : ∀ s', Unseen [key] s s' → Q () s') : (store key value triggers).wp sure Q E s := by
  rw [store, Prog.wp_bind]
  refine wp_addTriggers_sure fun s' h' => ?_
  rw [Sure.wp_cache]
  refine h _ ⟨h'.db, h'.tx, h'.response, h'.session, fun k hk => ?_⟩
  have hne : k ≠ key := by simpa using hk
  exact (TriggerCache.fetch_store_ne _ hne _ _).trans (h'.cache k (by simp))

theorem wp_storePage_sure {e : Env} {key : String} {Q : Unit → St → Prop}
    (h : ∀ s', s'.own.response = s.own.response → Q () s') : (storePage e key).wp sure Q E s := by
  rw [storePage, addTrigger, Prog.wp_bind]
  refine wp_addTriggers_sure fun s' h' => ?_
  rw [Prog.wp_bind, Sure.wp_getOwn, Sure.wp_cache]
  exact h _ h'.response

/-- A recorder around a part that returns what `R` says. -/
theorem wp_record_sure {body : App α} {keys : List String} {R : α → Prop}
    (hbody : ∀ s₁, Unseen [] s s₁ → body.wp sure (fun a s' => R a ∧ Unseen keys s₁ s') E s₁)
    {Q : α × List String → St → Prop} (h : ∀ a ts s', R a → Unseen keys s s' → Q (a, ts) s') :
    (record body).wp sure Q E s := by
  rw [record, Prog.wp_bind, Sure.wp_modifyOwn, Prog.wp_bind]
  have hstart : Unseen [] s (s.setOwn { s.own with recorders := [] :: s.own.recorders }) :=
    .own rfl rfl
  refine Prog.wp_mono (fun a s' h' => ?_) (fun _ _ h' => h') (hbody _ hstart)
  rw [Prog.wp_bind, Sure.wp_own]
  exact h _ _ _ h'.1 ((hstart.trans h'.2).then_own rfl rfl)

/-- `basic_master::prepare` on a database of the expected version. -/
theorem wp_basicPrepare_sure (hs : s.tx = none) (hv : Versioned s.db)
    (hmiss : s.cache.fetch "options" = none) {Q : GeneralInfo → St → Prop}
    (hok : ∀ info s', s.db.info = some info → Unseen ["options"] s s' → Q info s')
    (herr : s.db.info = none → E .notConfigured s) : basicPrepare.wp sure Q E s := by
  have hversion : checkVersion (s.db.selectOptions.foldl OptionRows.read {}).dbversion = .ret () := by
    have hv' : s.db.option "dbversion" = some cppblogDbversion := hv
    rw [read_dbversion, hv', checkVersion]
    simp
  rw [basicPrepare, Prog.wp_bind, wp_fetch_miss hmiss]
  dsimp only
  rw [Prog.wp_bind, Sure.wp_query, St.current_of_none hs, hversion, Prog.ret_bind]
  unfold Db.info at hok herr
  split
  · rename_i hno
    exact herr (if_neg hno)
  · rename_i hyes
    rw [Prog.wp_bind]
    exact wp_store_sure fun s' h' => hok _ s' (if_pos (by simpa using hyes)) h'

theorem wp_loadSidebar_sure (hs : s.tx = none) (hmiss : s.cache.fetch "sidebar_info" = none)
    {Q : SidebarInfo → St → Prop}
    (h : ∀ s', Unseen ["sidebar_info"] s s' → Q s.db.sidebarInfo s') : loadSidebar.wp sure Q E s := by
  rw [loadSidebar, Prog.wp_bind, wp_fetch_miss hmiss]
  dsimp only
  rw [Prog.wp_bind]
  have hquery : ∀ s₁, Unseen [] s s₁ → querySidebar.wp sure
      (fun a s' => a = s.db.sidebarInfo ∧ Unseen [] s₁ s') E s₁ := by
    intro s₁ h₁
    have hcur {s' : St} (h' : Unseen [] s s') : s'.current = s.db :=
      (St.current_of_none (h'.tx.trans hs)).trans h'.db
    rw [querySidebar, Prog.wp_bind, Sure.wp_query, addTrigger, Prog.wp_bind]
    refine wp_addTriggers_sure fun s₂ h₂ => ?_
    rw [Prog.wp_bind, Sure.wp_query, Prog.wp_bind]
    refine wp_addTriggers_sure fun s₃ h₃ => ?_
    rw [Prog.wp_bind]
    refine wp_addTriggers_sure fun s₄ h₄ => ⟨?_, (h₂.trans h₃).trans h₄⟩
    rw [hcur h₁, hcur (h₁.trans h₂)]
    rfl
  refine wp_record_sure hquery fun a ts s' ha h' => ?_
  rw [Prog.wp_bind, ha]
  exact wp_store_sure fun s'' h'' => h s'' (h'.trans h'')

/-- The side bar rendered anew. -/
theorem wp_renderMaster_sure (e : Env) (info : GeneralInfo) (hs : s.tx = none)
    (hmiss : s.cache.fetch "sidebar" = none) (hmiss' : s.cache.fetch "sidebar_info" = none)
    {Q : MasterPage → St → Prop}
    (h : ∀ s', Unseen ["sidebar", "sidebar_info"] s s' →
      Q (masterPage e s.db info s.own.response.locale) s') : (renderMaster e info).wp sure Q E s := by
  rw [renderMaster, renderSidebar, Prog.bind_assoc, Prog.wp_bind, wp_fetch_miss hmiss]
  dsimp only
  rw [Prog.bind_assoc, Prog.wp_bind]
  have hload : ∀ s₁, Unseen [] s s₁ →
      (loadSidebar.bind fun x => (addTrigger "options").bind fun _ => .ret x).wp sure
        (fun a s' => a = s.db.sidebarInfo ∧ Unseen ["sidebar_info"] s₁ s') E s₁ := by
    intro s₁ h₁
    rw [Prog.wp_bind]
    refine wp_loadSidebar_sure (h₁.tx.trans hs) (h₁.miss (by simp) hmiss') fun s₂ h₂ => ?_
    rw [addTrigger, Prog.wp_bind]
    refine wp_addTriggers_sure fun s₃ h₃ => ⟨by rw [h₁.db], (h₂.trans h₃).mono (by simp)⟩
  refine wp_record_sure hload fun a ts s₁ ha h₁ => ?_
  rw [Prog.bind_assoc, Prog.wp_bind, Sure.wp_getOwn, Prog.bind_assoc, Prog.wp_bind, ha, h₁.response]
  refine wp_store_sure fun s₂ h₂ => ?_
  rw [Prog.ret_bind, Prog.wp_bind, Sure.wp_getOwn, h₂.response, h₁.response]
  exact h s₂ ((h₁.trans h₂).mono (by simp))

end

/-! ## Answers -/

/-- How a handler ends, and the response it leaves. -/
def answer (p : App Unit) (s : St) : Except Error Unit × Response :=
  ((runSurely p s).1, (runSurely p s).2.own.response)

theorem answer_of_wp {p : App Unit} {s : St} {x : Except Error Unit × Response}
    (h : p.wp sure (fun _ s' => (.ok (), s'.own.response) = x)
      (fun err s' => (.error err, s'.own.response) = x) s) : answer p s = x := by
  have hends := Sure.wp_iff.1 h
  unfold answer
  cases hr : (runSurely p s).1 with
  | ok u =>
    rw [hr] at hends
    exact hends
  | error err =>
    rw [hr] at hends
    exact hends

/-- An output at the end of the response. -/
def Response.show (r : Response) (out : Output) : Response := { r with body := r.body ++ [out] }

/-- `response().make_error_response(status)` -/
def Response.error (r : Response) (status : Nat) : Response :=
  { r with status := status, body := r.body ++ [.error status] }

/-- What is answered where the options are needed. -/
def Db.withInfo (d : Db) (r : Response) (page : GeneralInfo → Output) : Except Error Unit × Response :=
  match d.info with
  | none => (.error .notConfigured, r)
  | some info => (.ok (), r.show (page info))

/-- The answer of `post::display`. -/
def Post.displayed (e : Env) (d : Db) (r : Response) (sid : String) : Except Error Unit × Response :=
  match d.selectPostJoinUser (Text.atoi sid) with
  | none => (.ok (), r.error 404)
  | some (p, username) =>
      if p.isOpen = 0 then (.ok (), r.error 403)
      else d.withInfo r fun info => .blogPost (masterPage e d info r.locale)
        (postTemplate e (d.postContent (Text.atoi sid) p username info) "" {})

/-- The answer of `page::display`. -/
def Page.displayed (e : Env) (d : Db) (r : Response) (sid : String) : Except Error Unit × Response :=
  match d.selectPage (Text.atoi sid) with
  | none => (.ok (), r.error 404)
  | some p =>
      if p.isOpen = 0 then (.ok (), r.error 404)
      else d.withInfo r fun info =>
        .blogPage (masterPage e d info r.locale) (Text.atoi sid) (escape p.title) p.content

namespace Summary

/-- The paging of a listing. -/
def paging (e : Env) (d : Db) (catId page : Int) (q : String) : Paging :=
  ({ pageRecords := countRecords e catId q d, curpage := page } : Paging).calcPages

/-- The posts of a page of a listing. -/
def rows (e : Env) (d : Db) (catId page : Int) (q : String) : List SummaryRow :=
  selectPosts e catId q (paging e d catId page q).pageSize
    ((paging e d catId page q).curpage * (paging e d catId page q).pageSize) d

/-- The view of a page of a listing. -/
def view (e : Env) (d : Db) (catId page : Int) (name q : String) : SummaryPage :=
  summaryTemplate e catId name q (paging e d catId page q)
    (if (rows e d catId page q).isEmpty then []
      else d.selectCatsOfPosts ((rows e d catId page q).map SummaryRow.id))
    (rows e d catId page q)

/-- The answer of a listing. -/
def listed (e : Env) (d : Db) (r : Response) (catId page : Int) (name q : String) :
    Except Error Unit × Response :=
  if (paging e d catId page q).curpage ≠ page then
    (.ok (), { r with
      location := some (redirectUrl e catId (paging e d catId page q).curpage q), status := 302 })
  else d.withInfo r fun info =>
    .blogSummary (masterPage e d info r.locale) (view e d catId page name q)

/-- The answer of `summary::prepare`; numbers below zero stand for zero. -/
def displayed (e : Env) (d : Db) (r : Response) (catId page : Int) : Except Error Unit × Response :=
  let page := if page < 0 then 0 else page
  let catId := if catId < 0 then 0 else catId
  let q := e.req.getValue "q"
  if catId ≠ 0 then
    if ((d.selectCatName catId).getD "").isEmpty then (.ok (), r.error 404)
    else listed e d r catId page ((d.selectCatName catId).getD "") q
  else listed e d r catId page "" q

end Summary

section
variable {s : St}

theorem current_eq (hs : s.tx = none) : s.current = s.db := St.current_of_none hs

/-- The post page. -/
theorem answer_postDisplay (e : Env) (sid : String) (hs : s.tx = none) (hv : Versioned s.db)
    (hcache : s.cache = []) :
    answer (Post.display e sid) s = Post.displayed e s.db s.own.response sid := by
  apply answer_of_wp
  have hmiss (key : String) : s.cache.fetch key = none := by rw [hcache, TriggerCache.fetch_nil]
  rw [Post.display, Prog.wp_bind, wp_fetchPage_miss (hmiss _), if_neg (by simp), Prog.wp_bind,
    Post.prepareContent, Prog.wp_bind, Sure.wp_query, current_eq hs]
  unfold Post.displayed
  cases hpost : s.db.selectPostJoinUser (Text.atoi sid) with
  | none =>
    rw [Prog.wp_bind, makeErrorResponse, Sure.wp_modifyResponse]
    rfl
  | some x =>
    obtain ⟨p, username⟩ := x
    dsimp only
    by_cases hopen : p.isOpen = 0
    · rw [if_pos ⟨hopen, by simp⟩, if_pos hopen, Prog.wp_bind, makeErrorResponse,
        Sure.wp_modifyResponse]
      rfl
    · rw [if_neg (fun h => hopen h.1), if_neg hopen, Prog.wp_bind]
      refine wp_basicPrepare_sure hs hv (hmiss _) (fun info s₁ hinfo h₁ => ?_) fun hnone => ?_
      · have hs₁ : s₁.tx = none := h₁.tx.trans hs
        rw [Prog.wp_bind, Sure.wp_query, Prog.wp_bind, Sure.wp_query, current_eq hs₁, h₁.db, Prog.wp_ret]
        dsimp only
        rw [Prog.wp_bind, Post.render, Prog.wp_bind]
        refine wp_renderMaster_sure e _ hs₁ (h₁.miss (by decide) (hmiss _))
          (h₁.miss (by decide) (hmiss _)) fun s₂ h₂ => ?_
        refine Sure.wp_modifyOwn.2 (wp_storePage_sure fun s₃ h₃ => ?_)
        simp only [Db.withInfo, hinfo, h₃, St.setOwn, h₂.response, h₁.response, h₁.db]
        rfl
      · simp only [Db.withInfo, hnone]

/-- One page of a listing. -/
theorem wp_showPage_sure (e : Env) (catId page : Int) (name q key : String) (hs : s.tx = none)
    (hv : Versioned s.db) (hmiss : ∀ key ∈ ["options", "sidebar", "sidebar_info"], s.cache.fetch key = none) :
    (Summary.showPage e key catId name q (Summary.paging e s.db catId page q)).wp sure
      (fun _ s' => (.ok (), s'.own.response) = s.db.withInfo s.own.response fun info =>
        .blogSummary (masterPage e s.db info s.own.response.locale)
          (Summary.view e s.db catId page name q))
      (fun err s' => (.error err, s'.own.response) = s.db.withInfo s.own.response fun info =>
        .blogSummary (masterPage e s.db info s.own.response.locale)
          (Summary.view e s.db catId page name q)) s := by
  have hrows : Summary.selectPosts e catId q (Summary.paging e s.db catId page q).pageSize
      ((Summary.paging e s.db catId page q).curpage * (Summary.paging e s.db catId page q).pageSize)
      s.db = Summary.rows e s.db catId page q := rfl
  rw [Summary.showPage, Prog.wp_bind, Sure.wp_query, current_eq hs, hrows, Prog.wp_bind]
  refine wp_addTriggers_sure fun s₁ h₁ => ?_
  have hmiss₁ (key : String) (hkey : key ∈ ["options", "sidebar", "sidebar_info"]) :
      s₁.cache.fetch key = none := h₁.miss (by simp) (hmiss key hkey)
  have hs₁ : s₁.tx = none := h₁.tx.trans hs
  rw [Prog.wp_bind]
  refine wp_basicPrepare_sure hs₁ (h₁.db.symm ▸ hv) (hmiss₁ _ (by simp))
    (fun info s₂ hinfo h₂ => ?_) fun hnone => ?_
  · have hs₂ : s₂.tx = none := h₂.tx.trans hs₁
    -- the categories are only asked for when there are posts
    have hcats {Q : List (Int × Cat) → St → Prop} {E : Error → St → Prop}
        (h : Q (if (Summary.rows e s.db catId page q).isEmpty then [] else
          s.db.selectCatsOfPosts ((Summary.rows e s.db catId page q).map SummaryRow.id)) s₂) :
        (if (Summary.rows e s.db catId page q).isEmpty then (.ret [] : App (List (Int × Cat)))
          else query (Db.selectCatsOfPosts ((Summary.rows e s.db catId page q).map SummaryRow.id))).wp
          sure Q E s₂ := by
      split
      · rename_i hempty
        rwa [if_pos hempty] at h
      · rename_i hempty
        rw [Sure.wp_query, current_eq hs₂, h₂.db, h₁.db]
        rwa [if_neg hempty] at h
    rw [Prog.wp_bind]
    refine hcats ?_
    rw [Prog.wp_bind]
    refine wp_renderMaster_sure e info hs₂ (h₂.miss (by decide) (hmiss₁ _ (by simp)))
      (h₂.miss (by decide) (hmiss₁ _ (by simp))) fun s₃ h₃ => ?_
    rw [Prog.wp_bind, write, Sure.wp_modifyResponse]
    refine wp_storePage_sure fun s₄ h₄ => ?_
    rw [h₁.db] at hinfo
    simp only [Db.withInfo, hinfo, h₄, St.setOwn, h₃.response, h₂.response, h₁.response, h₂.db, h₁.db]
    rfl
  · rw [h₁.db] at hnone
    simp only [Db.withInfo, hnone, h₁.response]

/-- A listing from the number of its records on. -/
theorem wp_list_sure (e : Env) (catId page : Int) (name q key : String) (hs : s.tx = none)
    (hv : Versioned s.db) (hmiss : ∀ key ∈ ["options", "sidebar", "sidebar_info",
      Summary.countKey catId q], s.cache.fetch key = none) :
    (Summary.list e key catId page name q).wp sure
      (fun _ s' => (.ok (), s'.own.response) = Summary.listed e s.db s.own.response catId page name q)
      (fun err s' => (.error err, s'.own.response) =
        Summary.listed e s.db s.own.response catId page name q) s := by
  have hcount : ∀ key ∈ ["options", "sidebar", "sidebar_info"], key ≠ Summary.countKey catId q := by
    have hother {o : CachedObject} (ho : o ≠ .catCount catId q) : o.key ≠ Summary.countKey catId q :=
      fun h => ho (CachedObject.key_injective h)
    intro key hkey
    simp only [List.mem_cons, List.not_mem_nil, or_false] at hkey
    rcases hkey with rfl | rfl | rfl
    · exact @hother .options (by simp)
    · exact @hother .sidebar (by simp)
    · exact @hother .sidebarInfo (by simp)
  rw [Summary.list, Summary.pageRecords, Prog.bind_assoc, Prog.wp_bind, wp_fetch_miss (hmiss _ (by simp))]
  dsimp only
  rw [Prog.bind_assoc, Prog.wp_bind, Sure.wp_query, current_eq hs, Prog.bind_assoc, Prog.wp_bind]
  refine wp_store_sure fun s₁ h₁ => ?_
  rw [Prog.ret_bind]
  unfold Summary.listed
  change (if (Summary.paging e s.db catId page q).curpage ≠ page then _ else _ : App Unit).wp sure _ _ _
  split
  · rw [setRedirectHeader, Sure.wp_modifyResponse]
    simp only [St.setOwn, h₁.response]
    rfl
  · have hshow := wp_showPage_sure e catId page name q key (h₁.tx.trans hs) (h₁.db.symm ▸ hv)
      fun k hk => h₁.miss (by simpa using hcount k hk) (hmiss k (by
        simp only [List.mem_cons, List.not_mem_nil, or_false] at hk ⊢
        rcases hk with rfl | rfl | rfl <;> simp))
    rw [h₁.db, h₁.response] at hshow
    exact hshow

theorem wp_checkMaxCatId_sure (catId : Int)
    (hmiss : s.cache.fetch "max_cat_id" = none) {Q : Bool → St → Prop} {E : Error → St → Prop}
    (h : ∀ s', Unseen ["max_cat_id"] s s' → Q true s') :
    (Summary.checkMaxCatId catId).wp sure Q E s := by
  unfold Summary.checkMaxCatId
  split
  · rw [Prog.wp_bind, wp_fetch_miss hmiss]
    dsimp only
    rw [Prog.wp_bind, Sure.wp_query, Prog.wp_bind]
    exact wp_store_sure h
  · exact h s ((Unseen.refl [] s).mono (by simp))

theorem wp_categoryName_sure (catId : Int) (hs : s.tx = none)
    (hmiss : s.cache.fetch ("cat_name_" ++ toString catId) = none) {Q : String → St → Prop}
    {E : Error → St → Prop}
    (h : ∀ s', Unseen ["cat_name_" ++ toString catId] s s' →
      Q ((s.db.selectCatName catId).getD "") s') :
    (Summary.categoryName catId).wp sure Q E s := by
  rw [Summary.categoryName, Prog.wp_bind, wp_fetch_miss hmiss]
  dsimp only
  rw [Prog.wp_bind, Sure.wp_query, current_eq hs, Prog.wp_bind]
  exact wp_store_sure h

/-- The listings. -/
theorem answer_summary (e : Env) (catId page : Int) (hs : s.tx = none) (hv : Versioned s.db)
    (hcache : s.cache = []) :
    answer (Summary.prepare e catId page) s =
      Summary.displayed e s.db s.own.response catId page := by
  apply answer_of_wp
  have hmiss (key : String) : s.cache.fetch key = none := by rw [hcache, TriggerCache.fetch_nil]
  rw [Summary.prepare]
  unfold Summary.displayed
  dsimp only
  generalize (if page < 0 then 0 else page) = page
  generalize (if catId < 0 then 0 else catId) = catId
  generalize e.req.getValue "q" = q
  have hkey {o o' : CachedObject} (ho : o ≠ o') : o.key ∉ [o'.key] := by
    intro hmem
    exact ho (CachedObject.key_injective (List.mem_singleton.1 hmem))
  -- the objects a listing asks for after the check of the category's number
  have hneeded (s' : St) (hmiss' : ∀ o, o ≠ CachedObject.maxCatId → s'.cache.fetch o.key = none) :
      ∀ key ∈ ["options", "sidebar", "sidebar_info", Summary.countKey catId q],
        s'.cache.fetch key = none := by
    intro key hk
    simp only [List.mem_cons, List.not_mem_nil, or_false] at hk
    rcases hk with rfl | rfl | rfl | rfl
    · exact hmiss' .options (by simp)
    · exact hmiss' .sidebar (by simp)
    · exact hmiss' .sidebarInfo (by simp)
    · exact hmiss' (.catCount catId q) (by simp)
  rw [Prog.wp_bind]
  refine wp_checkMaxCatId_sure catId (hmiss _) fun s₁ h₁ => ?_
  have hs₁ : s₁.tx = none := h₁.tx.trans hs
  have hmiss₁ (o : CachedObject) (ho : o ≠ .maxCatId) : s₁.cache.fetch o.key = none :=
    h₁.miss (hkey ho) (hmiss _)
  have hpage : s₁.cache.fetch (pageKey e (Summary.key catId page q)) = none :=
    hmiss₁ (.page e.req.gzip (.summary catId page q)) (by simp)
  rw [if_neg (by simp), Prog.wp_bind, wp_fetchPage_miss hpage, if_neg (by simp), addTrigger, Prog.wp_bind]
  refine wp_addTriggers_sure fun s₂ h₂ => ?_
  have hs₂ : s₂.tx = none := h₂.tx.trans hs₁
  have hdb₂ : s₂.db = s.db := h₂.db.trans h₁.db
  have hresponse₂ : s₂.own.response = s.own.response := h₂.response.trans h₁.response
  have hmiss₂ (o : CachedObject) (ho : o ≠ .maxCatId) : s₂.cache.fetch o.key = none :=
    h₂.miss (by simp) (hmiss₁ o ho)
  by_cases hcat : catId ≠ 0
  · rw [if_pos hcat, if_pos hcat, Prog.wp_bind]
    refine wp_categoryName_sure catId hs₂ (hmiss₂ (.catName catId) (by simp)) fun s₃ h₃ => ?_
    rw [hdb₂]
    split
    · rw [makeErrorResponse, Sure.wp_modifyResponse]
      simp only [St.setOwn, h₃.response, hresponse₂]
      rfl
    · have hdb₃ : s₃.db = s.db := h₃.db.trans hdb₂
      have hlist := wp_list_sure e catId page ((s.db.selectCatName catId).getD "") q
        (Summary.key catId page q) (h₃.tx.trans hs₂) (hdb₃.symm ▸ hv)
        (fun key hk => by
          refine (h₃.cache key ?_).trans (hneeded s₂ hmiss₂ key hk)
          simp only [List.mem_cons, List.not_mem_nil, or_false] at hk
          rcases hk with rfl | rfl | rfl | rfl
          · exact @hkey .options (.catName catId) (by simp)
          · exact @hkey .sidebar (.catName catId) (by simp)
          · exact @hkey .sidebarInfo (.catName catId) (by simp)
          · exact @hkey (.catCount catId q) (.catName catId) (by simp))
      rw [hdb₃, h₃.response, hresponse₂] at hlist
      exact hlist
  · rw [if_neg hcat, if_neg hcat]
    have hlist := wp_list_sure e catId page "" q (Summary.key catId page q) hs₂ (hdb₂.symm ▸ hv)
      (hneeded s₂ hmiss₂)
    rw [hdb₂, hresponse₂] at hlist
    exact hlist

end

end CppBlog
