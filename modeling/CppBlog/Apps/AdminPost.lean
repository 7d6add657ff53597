import CppBlog.Apps.Master

set_option autoImplicit false

/-! # Editing posts, pages and comments

`apps::admin::post`, `apps::admin::page` and `apps::admin::comment`. The post editor reads the status
of the post and two lists of categories before its transaction and writes what it computes from them
inside it. -/

namespace CppBlog

open Effect App

/-! ## Posts -/

namespace AdminPost

/-- The check box made for a category. -/
def catBox (c : Cat) : CatBox := { identification := toString c.id, help := c.name }

/-- The first statement of the editor: the status of the post and, for a display, its texts. -/
def readStatus (isPost : Bool) (id : Int) : App (Option (Int × PostForm)) :=
  if isPost then query (fun d => (d.selectPostIsOpen id).map (fun o => (o, ({} : PostForm))))
  else query (fun d => (d.selectPost id).map (fun p => (p.isOpen,
    ({ title := TextField.nonEmpty.setValue p.title
       abstract := TextField.nonEmpty.setValue p.abstract
       content := ({} : TextField).setValue p.content } : PostForm))))

/-- What the editor reads about an existing post: its status, its texts and the categories it is in;
    `none` when there is no such post. -/
def readPost (isPost : Bool) (id : Int) : App (Option (Bool × PostForm)) :=
  (readStatus isPost id).bind fun r =>
  match r with
  | none => (makeErrorResponse 404).bind fun _ => .ret none
  | some (isOpen, form) =>
      (query (Db.selectCatsOf id)).bind fun cats =>
      .ret (some (isOpen ≠ 0, { form with delFromCatList := cats.map catBox }))

/-- Whether none of the check boxes is the one of a category, by its number. -/
def notAmong (boxes : List CatBox) (identification : String) : Bool :=
  Text.atoi identification ∉ boxes.map (fun b => Text.atoi b.identification)

/-- The editor's form with the categories the post is not in. -/
def readCats (form : PostForm) : App PostForm :=
  (query Db.selectCats).bind fun cats =>
  .ret { form with
    addToCatList := (cats.map catBox).filter
      (fun b => notAmong form.delFromCatList b.identification) }

/-- Put the post into the categories that are ticked. -/
def addToCats (id : Int) (now : Tm) (openStatus : Int) (boxes : List CatBox) : App Unit :=
  Prog.each (fun cb =>
    if !cb.value then .ret ()
    else
      (exec (Db.insertPost2Cat id (Text.atoi cb.identification) now openStatus)).bind fun _ =>
      rise ("cat_" ++ cb.identification)) boxes

/-- Take the post out of the categories that are ticked; a change of its status concerns them all. -/
def delFromCats (id : Int) (changeStatus : Bool) (boxes : List CatBox) : App Unit :=
  Prog.each (fun cb =>
    (if changeStatus then rise ("cat_" ++ cb.identification) else .ret ()).bind fun _ =>
    if !cb.value then .ret ()
    else execTotal (Db.deletePost2Cat id (Text.atoi cb.identification))) boxes

/-- The transaction that creates a post. -/
def createBlock (e : Env) (f : PostForm) (openStatus : Int) : App Int :=
  transaction <|
    (sessionGetInt "id").bind fun authorId =>
    (exec (Db.insertPost authorId f.title.value f.abstract.value f.content.value e.chance.now
      openStatus)).bind fun _ =>
    (query Db.lastPostId).bind fun id =>
    (addToCats id e.chance.now openStatus f.addToCatList).bind fun _ =>
    (if openStatus ≠ 0 then rise "cat_0" else .ret ()).bind fun _ =>
    commit.bind fun _ => .ret id

/-- The branch `id==0`: the id of the post to go on with, or `none` when the handler returned. -/
def create (e : Env) (f : PostForm) : App (Option Int) :=
  if f.remove then (setRedirectHeader (urlAdminSummary e)).bind fun _ => .ret none
  else
    (createBlock e f (if f.changeStatus then 1 else 0)).bind fun id =>
    if f.saveAndContinue then .ret (some id)
    else (setRedirectHeader (urlAdminSummary e)).bind fun _ => .ret none

/-- The transaction that deletes a post. -/
def removeBlock (id : Int) : App Unit :=
  transaction <|
    (execTotal (Db.deleteCommentsOf id)).bind fun _ =>
    (execTotal (Db.deletePost2CatOf id)).bind fun _ =>
    (execTotal (Db.deletePost id)).bind fun _ =>
    (rise "comments").bind fun _ =>
    (rise (postKey id)).bind fun _ =>
    commit

/-- Write the texts and the status of a post; the publication time its categories get. -/
def updateRow (e : Env) (id : Int) (f : PostForm) (openStatus : Int) : App Tm :=
  if f.changeStatus && openStatus ≠ 0 then
    (execTotal (Db.updatePostPublish id f.title.value f.abstract.value f.content.value e.chance.now
      openStatus)).bind fun _ =>
    (execTotal (Db.updatePost2CatPublish id e.chance.now openStatus)).bind fun _ =>
    .ret e.chance.now
  else
    (execTotal (Db.updatePost id f.title.value f.abstract.value f.content.value openStatus)).bind
      fun _ =>
    (query (Db.selectPostPublish id)).bind fun publish =>
    match publish with
    | none => .throw (.sql .failed)
    | some publish =>
        (if f.changeStatus then execTotal (Db.updatePost2CatOpen id openStatus) else .ret ()).bind
          fun _ => .ret publish

/-- The transaction that saves an existing post. -/
def saveBlock (e : Env) (id : Int) (f : PostForm) (openStatus : Int) : App Unit :=
  transaction <|
    (updateRow e id f openStatus).bind fun now =>
    (if f.changeStatus then rise "cat_0" else .ret ()).bind fun _ =>
    (rise (postKey id)).bind fun _ =>
    (addToCats id now openStatus f.addToCatList).bind fun _ =>
    (delFromCats id f.changeStatus f.delFromCatList).bind fun _ =>
    commit

/-- `open_status`, computed from the status read before the transaction -/
def openStatus (isOpen changeStatus : Bool) : Int := if isOpen ^^ changeStatus then 1 else 0

/-- The branch `id!=0`. -/
def save (e : Env) (id : Int) (isOpen : Bool) (f : PostForm) : App (Option Int) :=
  if f.remove then
    (removeBlock id).bind fun _ =>
    (setRedirectHeader (urlAdminSummary e)).bind fun _ => .ret none
  else
    (saveBlock e id f (openStatus isOpen f.changeStatus)).bind fun _ =>
    (if f.save || f.changeStatus then
      setRedirectHeader (if f.backurl.value.isEmpty then urlAdminSummary e else f.backurl.value)
      else .ret ()).bind fun _ => .ret (some id)

/-- `render("admin_skin","post",c)` -/
def render (e : Env) (id : Int) (isOpen : Bool) (f : PostForm) : App Unit :=
  adminPrepare.bind fun c => renderAdmin e c "write post" (.post id isOpen f)

/-- `post::prepare_shared` from the status and the form on. -/
def edit (e : Env) (id : Int) (isOpen : Bool) (form : PostForm) : App Unit :=
  if e.req.method = "POST" then
    (loadForm e form.load).bind fun form =>
    let f := form.validate
    if f.valid then
      (if id = 0 then create e f else save e id isOpen f).bind fun r =>
      match r with
      | none => .ret ()
      | some id => render e id isOpen f
    else render e id isOpen f
  else render e id isOpen { form with backurl := form.backurl.setValue e.req.httpReferer }

/-- `post::prepare_shared` -/
def prepareShared (e : Env) (id : Int) : App Unit :=
  (if id ≠ 0 then readPost (e.req.method = "POST") id else .ret (some (false, {}))).bind fun r =>
  match r with
  | none => .ret ()
  | some (isOpen, form) =>
      (readCats form).bind fun form => edit e id isOpen form

/-- `post::prepare(sid)` -/
def prepare (e : Env) (sid : String) : App Unit :=
  let id := Text.atoi sid
  if id = 0 then makeErrorResponse 404 else prepareShared e id

end AdminPost

/-! ## Static pages -/

namespace AdminPage

/-- What the editor reads about an existing page. -/
def readPage (isPost : Bool) (id : Int) : App (Option (Bool × PageForm)) :=
  (query (Db.selectPage id)).bind fun r =>
  match r with
  | none => (makeErrorResponse 404).bind fun _ => .ret none
  | some p =>
      .ret (some (p.isOpen ≠ 0,
        if isPost then {}
        else { title := TextField.nonEmpty.setValue p.title
               content := TextField.nonEmpty.setValue p.content }))

/-- The triggers of a page that is, was or becomes visible. -/
def risePage (id : Int) : App Unit := (rise (pageIdKey id)).bind fun _ => rise "pages"

/-- The branch `id==0`, outside of any transaction. -/
def create (e : Env) (f : PageForm) : App (Option Int) :=
  if f.remove then (setRedirectHeader (urlAdminSummary e)).bind fun _ => .ret none
  else
    let openStatus : Int := if f.changeStatus then 1 else 0
    (sessionGetInt "id").bind fun authorId =>
    (exec (Db.insertPage authorId f.title.value f.content.value openStatus)).bind fun _ =>
    (if openStatus ≠ 0 || f.changeStatus then rise "pages" else .ret ()).bind fun _ =>
    (query Db.lastPageId).bind fun id =>
    if openStatus ≠ 0 then (setRedirectHeader (urlBlogPage e id)).bind fun _ => .ret none
    else if f.saveAndContinue then .ret (some id)
    else (setRedirectHeader (urlAdminSummary e)).bind fun _ => .ret none

/-- The branch `id!=0`, outside of any transaction. -/
def save (e : Env) (id : Int) (isOpen : Bool) (f : PageForm) : App (Option Int) :=
  if f.remove then
    (execTotal (Db.deletePage id)).bind fun _ =>
    (if isOpen then risePage id else .ret ()).bind fun _ =>
    (setRedirectHeader (urlAdminSummary e)).bind fun _ => .ret none
  else
    let openStatus : Int := AdminPost.openStatus isOpen f.changeStatus
    (execTotal (Db.updatePage id f.title.value f.content.value openStatus)).bind fun _ =>
    (if openStatus ≠ 0 || f.changeStatus then risePage id else .ret ()).bind fun _ =>
    if f.changeStatus || f.save then
      (setRedirectHeader (if openStatus ≠ 0 then urlBlogPage e id else urlAdminSummary e)).bind
        fun _ => .ret none
    else .ret (some id)

/-- `render("admin_skin","page",c)` -/
def render (e : Env) (id : Int) (isOpen : Bool) (f : PageForm) : App Unit :=
  adminPrepare.bind fun c => renderAdmin e c "write page" (.page id isOpen f)

/-- `page::prepare_shared` from the status and the form on. -/
def edit (e : Env) (id : Int) (isOpen : Bool) (form : PageForm) : App Unit :=
  if e.req.method = "POST" then
    (loadForm e form.load).bind fun form =>
    let f := form.validate
    if f.valid then
      (if id = 0 then create e f else save e id isOpen f).bind fun r =>
      match r with
      | none => .ret ()
      | some id => render e id isOpen f
    else render e id isOpen f
  else render e id isOpen form

/-- `page::prepare_shared` -/
def prepareShared (e : Env) (id : Int) : App Unit :=
  (if id ≠ 0 then readPage (e.req.method = "POST") id else .ret (some (false, {}))).bind fun r =>
  match r with
  | none => .ret ()
  | some (isOpen, form) => edit e id isOpen form

/-- `page::prepare(sid)` -/
def prepare (e : Env) (sid : String) : App Unit :=
  let id := Text.atoi sid
  if id = 0 then makeErrorResponse 404 else prepareShared e id

end AdminPage

/-! ## Comments -/

namespace AdminComment

/-- The transaction of `comment::prepare`: the post of the comment, or `none` when there is no such
    comment. -/
def saveBlock (id : Int) (f : AdminCommentForm) : App (Option Int) :=
  transaction <|
    (query (fun d => (d.selectComment id).map Comment.postId)).bind fun r =>
    match r with
    | none => (makeErrorResponse 404).bind fun _ => .ret none
    | some postId =>
        (if f.erase then
          (execTotal (Db.deleteComment id)).bind fun _ => execTotal (Db.updateCommentCount postId)
          else execTotal (Db.updateComment id f.author.value f.mail.value f.url.value
            f.content.value)).bind fun _ =>
        (rise (postKey postId)).bind fun _ =>
        (rise "comments").bind fun _ =>
        commit.bind fun _ => .ret (some postId)

/-- `render("admin_skin","comment",c)` -/
def render (e : Env) (id postId : Int) (f : AdminCommentForm) : App Unit :=
  adminPrepare.bind fun c => renderAdmin e c "main" (.comment id postId f)

/-- `comment::prepare` -/
def prepare (e : Env) (sid : String) : App Unit :=
  let id := Text.atoi sid
  if e.req.method = "POST" then
    (loadForm e (AdminCommentForm.load {})).bind fun form =>
    let f := form.validate
    if f.valid then
      (saveBlock id f).bind fun r =>
      match r with
      | none => .ret ()
      | some postId => setRedirectHeader (urlBlogPost e postId)
    else render e id 0 f
  else
    (query (Db.selectComment id)).bind fun r =>
    match r with
    | none => makeErrorResponse 404
    | some c =>
        render e id c.postId {
          author := (TextField.limits 1 256).setValue c.author
          mail := ({} : TextField).setValue c.email
          url := ({} : TextField).setValue c.url
          content := (TextField.limits 1 32768).setValue c.content }

end AdminComment

end CppBlog
