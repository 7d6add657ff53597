import CppBlog.Apps.Master

set_option autoImplicit false

/-! # Categories, options, users and the other administration pages

`apps::admin::categories`, `options`, `caching`, `summary` and `users`. -/

namespace CppBlog

open Effect App

/-! ## Categories -/

namespace Categories

/-- Both triggers of a change to an existing category. -/
def riseCat (id : Int) : App Unit := (rise "cats").bind fun _ => rise (catKey id)

/-- `INSERT INTO cats` in its transaction -/
def create (f : CatsForm) : App Unit :=
  transaction <|
    (exec (Db.insertCat f.cat.value)).bind fun _ =>
    commit.bind fun _ => rise "cats"

/-- The transaction of a removal: a category with posts goes only with `cascade`. -/
def remove (id : Int) (f : CatsForm) : App String :=
  transaction <|
    (query (Db.selectPostInCat id)).bind fun r =>
    if r.isSome then
      if !f.cascade then .ret "The category is not empty, can't delete"
      else
        (execTotal (Db.deletePost2CatIn id)).bind fun _ =>
        (execTotal (Db.deleteCat id)).bind fun _ =>
        commit.bind fun _ =>
        (riseCat id).bind fun _ => .ret ""
    else
      (execTotal (Db.deleteCat id)).bind fun _ =>
      commit.bind fun _ =>
      (riseCat id).bind fun _ => .ret ""

/-- `UPDATE cats SET name` in its transaction -/
def rename (id : Int) (f : CatsForm) : App Unit :=
  transaction <|
    (execTotal (Db.updateCat id f.cat.value)).bind fun _ =>
    commit.bind fun _ => riseCat id

/-- The part of `categories::prepare` that runs on a `POST`; the error message to show. -/
def submit (e : Env) : App String :=
  (loadForm e (CatsForm.load {})).bind fun form =>
  let f := form.validate
  if !f.valid then .ret (if f.cat.valid then "" else "Invalid category name")
  else if f.id.value.isEmpty then (create f).bind fun _ => .ret ""
  else if f.remove then remove (Text.atoi f.id.value) f
  else (rename (Text.atoi f.id.value) f).bind fun _ => .ret ""

/-- `categories::prepare` -/
def prepare (e : Env) : App Unit :=
  (if e.req.method = "POST" then submit e else .ret "").bind fun errorMessage =>
  adminPrepare.bind fun c =>
  (query Db.selectCats).bind fun cats =>
  renderAdmin e c "categories"
    (.categories (escape errorMessage) (cats.map (fun k => (k.id, escape k.name))))

end Categories

/-! ## Options -/

namespace Options

/-- The options `options::prepare` deletes before it inserts them anew. -/
def replacedOptions : List String := ["blog_title", "blog_description", "copyright", "contact"]

/-- The transaction of `options::prepare`. -/
def store (f : OptionsForm) : App Unit :=
  transaction <|
    (execTotal (Db.deleteOptions replacedOptions)).bind fun _ =>
    (exec (Db.insertOption "blog_title" f.title.value)).bind fun _ =>
    (exec (Db.insertOption "blog_description" f.subtitle.value)).bind fun _ =>
    (exec (Db.insertOption "contact" f.contact.value)).bind fun _ =>
    (exec (Db.insertOption "copyright" f.copyright.value)).bind fun _ =>
    (rise "options").bind fun _ =>
    commit

/-- `options::load_form`: the form as the options are now -/
def loadOptions (f : OptionsForm) (info : GeneralInfo) : OptionsForm where
  title := f.title.setValue info.blogTitle
  subtitle := f.subtitle.setValue info.blogDescription
  contact := f.contact.setValue info.contact
  copyright := f.copyright.setValue info.copyrightString

/-- `options::prepare` -/
def prepare (e : Env) : App Unit :=
  if e.req.method = "POST" then
    (loadForm e (OptionsForm.load {})).bind fun form =>
    let f := form.validate
    if f.valid then
      (store f).bind fun _ =>
      adminPrepare.bind fun c => renderAdmin e c "options" (.options (loadOptions f c.info))
    else adminPrepare.bind fun c => renderAdmin e c "options" (.options f)
  else adminPrepare.bind fun c => renderAdmin e c "options" (.options (loadOptions {} c.info))

end Options

/-! ## The cache page -/

namespace Caching

/-- `caching::prepare` -/
def prepare (e : Env) : App Unit :=
  (if e.req.method = "POST" then clearCache else .ret ()).bind fun _ =>
  (cache (fun c => (c.length, c))).bind fun size =>
  adminPrepare.bind fun c => renderAdmin e c "cache" (.caching true size)

end Caching

/-! ## The overview -/

namespace AdminSummary

/-- `multi_page(key)` where the key's address is `url` and a page's number follows it -/
def pager (e : Env) (p : Paging) (url : String) : MultiPage :=
  multiPage (fun page => match page with | none => url | some n => url ++ "/" ++ toString n)
    e.req.queryString p

/-- `summary::prepare` -/
def prepare (e : Env) (page : Int) : App Unit :=
  adminPrepare.bind fun c =>
  (query Db.selectClosedPosts).bind fun posts =>
  (query (Db.countOpenPosts (fun _ => true))).bind fun n =>
  let paging := ({ pageRecords := n, curpage := page } : Paging).calcPages
  (query (Db.selectPublishedPosts paging.pageSize (paging.curpage * paging.pageSize))).bind
    fun publisheds =>
  (query Db.selectPages).bind fun pages =>
  (query Db.selectLastComments).bind fun comments =>
  renderAdmin e c "main" (.summary
    (posts.map (fun p => (p.1, escape p.2)))
    (publisheds.map (fun p => (p.1, escape p.2)))
    (if publisheds.isEmpty then none else some (pager e paging (urlAdminSummary e)))
    (pages.map (fun p => (p.id, escape p.title, p.isOpen)))
    (comments.map (fun m => (m.id, m.postId, escape m.author))))

end AdminSummary

/-! ## Users -/

namespace Users

/-- `try { ... } catch(cppdb::cppdb_error &e) { ... }` around a statement on the users: whether it was
    carried out. -/
def tryStore (e : Env) (statement : Db → Except SqlError Db) : App Bool :=
  ((transaction ((exec statement).bind fun _ => commit)).bind fun _ =>
    (setRedirectHeader (urlAdminUsersList e)).bind fun _ => .ret true).tryCatch
  fun err => match err with
    | .sql _ => .ret false
    | err => .throw err

/-- `users::add` -/
def add (e : Env) : App Unit :=
  let show_ (f : UserForm) (duplicate : Bool) : App Unit :=
    adminPrepare.bind fun c => renderAdmin e c "" (.userAdd f duplicate)
  if e.req.method = "POST" then
    (loadForm e (UserForm.load {})).bind fun form =>
    let f := form.validate
    if f.valid then
      (tryStore e (Db.insertUser f.username.value f.password.value)).bind fun done =>
      if done then .ret () else show_ { f with username := f.username.setValid false } true
    else show_ f false
  else show_ {} false

/-- The users a search text selects. -/
def condition (e : Env) (q : String) (u : User) : Bool :=
  if q.isEmpty then true else e.lib.idEq u.id q || e.lib.like u.username (likePattern q)

/-- `users::list` -/
def list (e : Env) (page : Int) : App Unit :=
  let q := e.req.getValue "q"
  (query (Db.countUsers (condition e q))).bind fun n =>
  let paging := ({ pageRecords := n, pageSize := 20, curpage := page } : Paging).calcPages
  (query (Db.selectUsers (condition e q) paging.pageSize (paging.curpage * paging.pageSize))).bind
    fun users =>
  adminPrepare.bind fun c =>
  renderAdmin e c "User Admin" (.userlist (escape q)
    (users.map (fun u => (u.id, escape u.username))) c.loginId
    (if users.isEmpty then none else some (AdminSummary.pager e paging (urlAdminUsersList e))))

/-- `users::edit` -/
def edit (e : Env) (sid : String) : App Unit :=
  let id := Text.atoi sid
  let show_ (f : UserForm) (duplicate : Bool) : App Unit :=
    adminPrepare.bind fun c => renderAdmin e c "" (.user id f duplicate)
  if id = 0 then makeErrorResponse 404
  else
    (query (Db.selectUser id)).bind fun r =>
    match r with
    | none => makeErrorResponse 404
    | some u =>
        if e.req.method = "POST" then
          (loadForm e (UserForm.load {})).bind fun form =>
          let f := form.validate
          if f.valid then
            (tryStore e (Db.updateUser id f.username.value f.password.value)).bind fun done =>
            if done then .ret () else show_ { f with username := f.username.setValid false } true
          else show_ f false
        else show_ { username := TextField.nonEmpty.setValue u.username
                     password := TextField.nonEmpty.setValue u.password } false

/-- `users::del` -/
def del (e : Env) (sid : String) : App Unit :=
  let id := Text.atoi sid
  (if id = 0 then .ret true
    else (sessionGetInt "id").bind fun own => .ret (decide (id = own))).bind fun refused =>
  if refused then makeErrorResponse 404
  else
    (transaction ((execTotal (Db.deleteUser id)).bind fun _ => commit)).bind fun _ =>
    setRedirectHeader (urlAdminUsersList e)

/-- The user a submitted login names, when its password is right. -/
def login (f : UserForm) : App (Option User) :=
  (query (Db.selectUserByName f.username.value)).bind fun r =>
  .ret (r.filter (fun u => f.username.value = u.username && f.password.value = u.password))

/-- `users::prepare`, the login page -/
def prepare (e : Env) : App Unit :=
  let show_ (f : UserForm) : App Unit :=
    adminPrepare.bind fun c => renderAdmin e c "" (.userLogin f)
  resetSession.bind fun _ =>
  sessionClear.bind fun _ =>
  if e.req.method = "POST" then
    (loadForm e (UserForm.load {})).bind fun form =>
    let f := form.validateLogin
    if !f.valid then show_ { f with password := f.password.setValue "" }
    else
      (login f).bind fun r =>
      match r with
      | some u =>
          (sessionSet "user" u.username).bind fun _ =>
          (sessionSet "id" (toString u.id)).bind fun _ =>
          setRedirectHeader (urlAdminSummary e)
      | none =>
          show_ { f with
            password := (f.password.setValue "").setValid false
            username := f.username.setValid false }
  else show_ {}

end Users

end CppBlog
