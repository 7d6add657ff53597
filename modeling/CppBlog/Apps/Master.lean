import CppBlog.App
import CppBlog.Text.Filters

set_option autoImplicit false

/-! # What all applications share

`apps::basic_master`: the settings common to all pages, read from the cache or from `text_options`,
with the upgrade of an older database on the way; `apps::blog::master` and `apps::admin::master`: what
stands around the content of a blog page and of an administration page. -/

namespace CppBlog

open Effect App

/-! ## URLs -/

/-- `url("/blog/summary")` -/
def urlBlogSummary (e : Env) : String := e.settings.root ++ "/"

/-- `url("/blog/post",id)` -/
def urlBlogPost (e : Env) (id : Int) : String := e.settings.root ++ "/post/" ++ toString id

/-- `url("/blog/page",id)` -/
def urlBlogPage (e : Env) (id : Int) : String := e.settings.root ++ "/page/" ++ toString id

/-- `url("/admin/summary")` -/
def urlAdminSummary (e : Env) : String := e.settings.root ++ "/admin"

/-- `url("/admin/users")` -/
def urlAdminUsers (e : Env) : String := e.settings.root ++ "/admin/users"

/-- `url("/admin/users/list")` -/
def urlAdminUsersList (e : Env) : String := e.settings.root ++ "/admin/users/list"

/-- `url("/config")` -/
def urlConfig (e : Env) : String := e.settings.root ++ "/config"

/-- `url("/config/version")` -/
def urlConfigVersion (e : Env) : String := e.settings.root ++ "/config/version"

/-! ## Cache keys and triggers -/

/-- `"post_" << id` -/
def postKey (id : Int) : String := "post_" ++ toString id

/-- `"page_" << id` -/
def pageIdKey (id : Int) : String := "page_" ++ toString id

/-- `"cat_" << id` -/
def catKey (id : Int) : String := "cat_" ++ toString id

/-! ## Upgrading a database -/

def dummyUpgrade : App Bool := .throw .version

def upgrade23 : App Bool :=
  (exec Db.updatePost2CatFromPosts).bind fun _ =>
  (execTotal Db.updateDbversion).bind fun _ => .ret true

def callbacks : List (App Bool) := [dummyUpgrade, dummyUpgrade, upgrade23]

/-- The `while` of `upgrade`, with the number of rounds left; reading past the table is undefined in
    the source. -/
def upgradeLoop : Nat → Nat → App Bool
  | _, 0 => .ret true
  | ver, rounds + 1 =>
      match callbacks[ver]? with
      | none => .throw .outOfRange
      | some call => call.bind fun ok => if ok then upgradeLoop (ver + 1) rounds else .ret false

def upgrade (currentVer : String) : App Bool :=
  let ver := Text.atoi currentVer
  let finalVer := Text.atoi cppblogDbversion
  if finalVer < ver then .ret false
  else if ver < 2 then .ret false
  else
    transaction <|
      (upgradeLoop ver.toNat (finalVer - ver).toNat).bind fun ok =>
      if ok then commit.bind fun _ => .ret true else .ret false

/-! ## basic_master -/

/-- What `basic_master::prepare` reads from the rows of `text_options`. -/
structure OptionRows where
  info : GeneralInfo := {}
  dbversion : String := ""
  isConfigured : String := ""

/-- The body of the loop over the rows. -/
def OptionRows.read (o : OptionRows) (row : String × String) : OptionRows :=
  if row.1 = "blog_title" then { o with info := { o.info with blogTitle := row.2 } }
  else if row.1 = "blog_description" then { o with info := { o.info with blogDescription := row.2 } }
  else if row.1 = "copyright" then { o with info := { o.info with copyrightString := row.2 } }
  else if row.1 = "contact" then { o with info := { o.info with contact := row.2 } }
  else if row.1 = "dbversion" then { o with dbversion := row.2 }
  else if row.1 = "is_configured" then { o with isConfigured := row.2 }
  else o

/-- The check of the version: an older database is upgraded. -/
def checkVersion (dbversion : String) : App Unit :=
  if dbversion = cppblogDbversion then .ret ()
  else (upgrade dbversion).bind fun ok => if ok then .ret () else .throw .version

/-- `basic_master::prepare` -/
def basicPrepare : App GeneralInfo :=
  (fetch "options").bind fun r =>
  match r with
  | some (.info i) => .ret i
  | some _ => .throw .archive
  | none =>
      (query Db.selectOptions).bind fun rows =>
      let o := rows.foldl OptionRows.read {}
      (checkVersion o.dbversion).bind fun _ =>
      if o.isConfigured ≠ "yes" then .throw .notConfigured
      else (store "options" (.info o.info) []).bind fun _ => .ret o.info

/-! ## The side bar of blog pages -/

/-- The two queries of `master::load_sidebar` with the triggers it adds on the way. -/
def querySidebar : App SidebarInfo :=
  (query Db.selectOpenPages).bind fun pages =>
  (addTrigger "pages").bind fun _ =>
  (query Db.selectCatCounts).bind fun cats =>
  (addTriggers (cats.map (fun c => catKey c.1.id))).bind fun _ =>
  (addTriggers ["cats", "general_info"]).bind fun _ =>
  .ret { pages := pages, cats := cats.map (fun c => (c.1.id, c.1.name, c.2)) }

/-- `master::load_sidebar` -/
def loadSidebar : App SidebarInfo :=
  (fetch "sidebar_info").bind fun r =>
  match r with
  | some (.sidebarInfo i) => .ret i
  | some _ => .throw .archive
  | none =>
      (record querySidebar).bind fun x =>
      (store "sidebar_info" (.sidebarInfo x.1) x.2).bind fun _ => .ret x.1

/-- The template `sidebar()`, on the data of `load_sidebar`. -/
def sidebarTemplate (e : Env) (info : GeneralInfo) (locale : Nat) (sidebar : SidebarInfo) :
    Sidebar where
  locale := locale
  pages := sidebar.pages.map (fun p => (p.1, escape p.2))
  cats := sidebar.cats.map (fun c => (c.1, escape c.2.1, c.2.2))
  copyright :=
    if info.copyrightString.isEmpty then none else some (e.lib.markdownToHtml info.copyrightString)

/-- The cached fragment of the template `sidebar()`:
    `cache "sidebar" on miss load_sidebar() ... trigger "options" ... end cache`. -/
def renderSidebar (e : Env) (info : GeneralInfo) : App Sidebar :=
  (fetch "sidebar").bind fun r =>
  match r with
  | some (.sidebar s) => .ret s
  | some _ => .throw .archive
  | none =>
      (record (loadSidebar.bind fun s => (addTrigger "options").bind fun _ => .ret s)).bind fun x =>
      (getOwn (fun o => o.response.locale)).bind fun locale =>
      (store "sidebar" (.sidebar (sidebarTemplate e info locale x.1)) x.2).bind fun _ =>
      .ret (sidebarTemplate e info locale x.1)

/-- The view `master` around the content of a blog page. -/
def renderMaster (e : Env) (info : GeneralInfo) : App MasterPage :=
  (renderSidebar e info).bind fun sidebar =>
  (getOwn (fun o => o.response.locale)).bind fun locale =>
  .ret {
    locale := locale
    media := escape e.settings.media
    cookiePrefix := escape e.settings.cookiePrefix
    blogTitle := escape info.blogTitle
    blogDescription := escape info.blogDescription
    contact := escape info.contact
    sidebar := sidebar }

/-! ## Administration pages -/

/-- What `admin::master::prepare` puts into the content of an administration page. -/
structure AdminContent where
  info : GeneralInfo
  loginId : Int := 0
  loginUser : String := ""

/-- `admin::master::prepare` -/
def adminPrepare : App AdminContent :=
  basicPrepare.bind fun info =>
  (sessionIsSet "user").bind fun isUser =>
  if isUser then
    (sessionGetInt "id").bind fun id =>
    (sessionGet "user").bind fun user =>
    .ret { info := info, loginId := id, loginUser := user }
  else .ret { info := info }

/-- `render("admin_skin",...)` with the tab that is active -/
def renderAdmin (e : Env) (c : AdminContent) (active : String) (view : AdminView) : App Unit :=
  (getOwn (fun o => (o.response.locale, (o.session.find "_csrf").getD ""))).bind fun x =>
  write (.admin
    { locale := x.1
      media := escape e.settings.media
      blogTitle := escape c.info.blogTitle
      active := active
      loginId := c.loginId
      loginUser := escape c.loginUser
      csrf := x.2 } view)

end CppBlog
