import CppBlog.Apps.Master

set_option autoImplicit false

/-! # The blog: posts, static pages and listings

`apps::blog::post`, `apps::blog::page` and `apps::blog::summary`: the public pages and the public
comment form. The three ways a comment's text reaches a browser are `commentPreview` and
`commentItem` here and `feedItem` in the feeds. -/

namespace CppBlog

open Effect App

/-- `post::ascii_lower` -/
def asciiLower (c : Char) : Char :=
  if 'A' ≤ c ∧ c ≤ 'Z' then Char.ofNat (c.toNat - 'A'.toNat + 'a'.toNat) else c

/-- `data::blog::equal`: equality up to the case of ASCII letters -/
def equalNoCase (l r : String) : Bool :=
  l.length = r.length && (l.toList.zip r.toList).all (fun x => asciiLower x.1 = asciiLower x.2)

/-! ## Posts -/

/-- What `post::prepare_content` collects for the view. -/
structure PostContent where
  id : Int
  title : String
  abstract : String
  content : String
  published : Nat
  author : String
  comments : List Comment
  categories : List Cat
  info : GeneralInfo

/-- A comment's text in the template `comment_preview`. -/
def commentPreview (e : Env) (text : String) : String := e.lib.xss (e.lib.markdownToHtml text)

/-- A comment's text in the list of comments of the template `master_content`. -/
def commentItem (e : Env) (text : String) : String := e.lib.markdownToHtml text

/-- An abstract in the templates. -/
def abstractHtml (e : Env) (text : String) : String :=
  e.lib.markdownToHtml (latexFilter e.lib.tex text)

/-- One round of the template's loop over the comments. -/
def commentEntry (e : Env) (c : Comment) : CommentEntry where
  id := c.id
  url := if c.url.isEmpty then none else some (escape c.url)
  username := escape c.author
  date := c.publishTime
  content := commentItem e c.content

/-- The template `master_content()` of the view `post`. -/
def postTemplate (e : Env) (c : PostContent) (previewContent : String) (response : CommentForm) :
    PostPage where
  id := c.id
  title := escape c.title
  published := c.published
  author := escape c.author
  categories := c.categories.map (fun k => (k.id, escape k.name))
  commentCount := (c.comments.length : Int)
  abstract := abstractHtml e c.abstract
  content := if c.content.isEmpty then none else some c.content
  comments := c.comments.map (commentEntry e)
  preview := if previewContent.isEmpty then none else some (commentPreview e previewContent)
  response := response
  requestMethod := escape e.req.method

namespace Post

/-- `post::prepare_content` -/
def prepareContent (sid : String) (preview : Bool) : App (Option PostContent) :=
  let id := Text.atoi sid
  (query (Db.selectPostJoinUser id)).bind fun r =>
  match r with
  | none => (makeErrorResponse 404).bind fun _ => .ret none
  | some (p, username) =>
      if p.isOpen = 0 ∧ ¬ preview then (makeErrorResponse 403).bind fun _ => .ret none
      else
        basicPrepare.bind fun info =>
        (query (Db.selectCommentsOf id)).bind fun comments =>
        (query (Db.selectCatsOf id)).bind fun categories =>
        .ret (some {
          id := id, title := p.title, abstract := p.abstract, content := p.content
          published := p.publish, author := username, comments := comments
          categories := categories, info := info })

/-- `render("post",c)` -/
def render (e : Env) (c : PostContent) (previewContent : String) (response : CommentForm) :
    App Unit :=
  (renderMaster e c.info).bind fun master =>
  write (.blogPost master (postTemplate e c previewContent response))

/-- `post::display` -/
def display (e : Env) (id : String) : App Unit :=
  (fetchPage e ("post_" ++ id)).bind fun hit =>
  if hit then .ret ()
  else
    (prepareContent id false).bind fun r =>
    match r with
    | none => .ret ()
    | some c =>
        (render e c "" {}).bind fun _ =>
        storePage e ("post_" ++ id)

/-- `post::preview`, with the `user_` that `master::init` has set -/
def preview (e : Env) (id : String) : App Unit :=
  (getOwn (fun o => (o.session.find "user").getD "")).bind fun user =>
  if user.isEmpty then makeErrorResponse 403
  else
    (prepareContent id true).bind fun r =>
    match r with
    | none => .ret ()
    | some c => render e c "" {}

/-- The fields of a visitor's comment that `comment_form::validate` checks itself. -/
def checkFields (e : Env) (f : CommentForm) (isValid : Bool) : Bool × CommentForm :=
  let author := f.author.setValid (f.author.valid && !f.author.value.isEmpty)
  let mail := f.mail.setValid (f.mail.valid && !f.mail.value.isEmpty)
  let urlOk := f.url.value.isEmpty || e.lib.uriValid (escape f.url.value)
  (isValid && !f.author.value.isEmpty && !f.mail.value.isEmpty && urlOk,
    { f with author := author, mail := mail, url := f.url.setValid (f.url.valid && urlOk) })

/-- The captcha of a visitor: a right answer makes the session a `visitor`'s, a wrong one costs the
    session. -/
def checkCaptcha (f : CommentForm) : App (Bool × CommentForm) :=
  (getOwn (fun o => o.session.find "captcha")).bind fun code =>
  if code.all (fun c => !equalNoCase c f.captcha.value) then
    sessionClear.bind fun _ => .ret (false, { f with captcha := f.captcha.setValid false })
  else (sessionSet "visitor" "1").bind fun _ => .ret (true, f)

/-- `comment_form::validate(session)` -/
def validate (e : Env) (form : CommentForm) : App (Bool × CommentForm) :=
  let f := form.validate
  if !f.valid then .ret (false, f)
  else
    (sessionIsSet "user").bind fun isUser =>
    if isUser then .ret (true, f)
    else
      (sessionIsSet "visitor").bind fun isVisitor =>
      if isVisitor then .ret (true, f)
      else
        (sessionIsSet "visitor").bind fun isVisitor =>
        (if !isVisitor then checkCaptcha f else .ret (true, f)).bind fun r =>
        .ret (checkFields e r.2 r.1)

/-- The author, mail and url a comment is stored with: those of the form, or those of the user who is
    logged in. -/
def signature (e : Env) (f : CommentForm) : App (String × String × String) :=
  (sessionIsSet "user").bind fun isUser =>
  if isUser then (sessionGet "user").bind fun user => .ret (user, "", urlBlogSummary e)
  else .ret (f.author.value, f.mail.value, f.url.value)

/-- The block of `post::postback` that runs on a valid form: `none` when the handler returned inside
    it, otherwise the text to preview. -/
def postbackBlock (e : Env) (id : Int) (f : CommentForm) : App (Option String) :=
  transaction <|
    (query (Db.selectPostIsOpen id)).bind fun r =>
    match r with
    | none => (makeErrorResponse 404).bind fun _ => .ret none
    | some isOpen =>
        if isOpen = 0 then (makeErrorResponse 404).bind fun _ => .ret none
        else if f.send then
          (signature e f).bind fun s =>
          (exec (Db.insertComment id s.1 s.2.1 s.2.2 e.chance.now f.content.value)).bind fun _ =>
          (execTotal (Db.updateCommentCount id)).bind fun _ =>
          (rise (postKey id)).bind fun _ =>
          (rise "comments").bind fun _ =>
          commit.bind fun _ =>
          (setRedirectHeader (urlBlogPost e id)).bind fun _ => .ret (some "")
        else .ret (some f.content.value)

/-- `post::postback` -/
def postback (e : Env) (sid : String) : App Unit :=
  if e.req.method ≠ "POST" then makeErrorResponse 404
  else
    (loadForm e (CommentForm.load {})).bind fun form =>
    (validate e form).bind fun v =>
    (if v.1 then postbackBlock e (Text.atoi sid) v.2 else .ret (some "")).bind fun r =>
    match r with
    | none => .ret ()
    | some previewContent =>
        (prepareContent sid false).bind fun c =>
        match c with
        | none => .ret ()
        | some c => render e c previewContent v.2

end Post

/-! ## Static pages -/

namespace Page

/-- `page::prepare` -/
def prepare (e : Env) (sid : String) (preview : Bool) : App Bool :=
  let id := Text.atoi sid
  (query (Db.selectPage id)).bind fun r =>
  match r with
  | none => (makeErrorResponse 404).bind fun _ => .ret false
  | some p =>
      if ¬ preview ∧ p.isOpen = 0 then (makeErrorResponse 404).bind fun _ => .ret false
      else
        basicPrepare.bind fun info =>
        (renderMaster e info).bind fun master =>
        (write (.blogPage master id (escape p.title) p.content)).bind fun _ => .ret true

/-- `page::display` -/
def display (e : Env) (id : String) : App Unit :=
  (fetchPage e ("page_" ++ id)).bind fun hit =>
  if hit then .ret ()
  else
    (prepare e id false).bind fun ok =>
    if ok then storePage e ("page_" ++ id) else .ret ()

/-- `page::preview`, with the `user_` that `master::init` has set -/
def preview (e : Env) (id : String) : App Unit :=
  (getOwn (fun o => (o.session.find "user").getD "")).bind fun user =>
  if user.isEmpty then makeErrorResponse 403
  else (prepare e id true).bind fun _ => .ret ()

end Page

/-! ## Listings -/

/-- A post as a listing reads it; columns that are `NULL` leave the members as they were. -/
structure SummaryRow where
  id : Int
  author : String
  title : String
  abstract : String
  hasContent : Bool
  published : Nat
  commentCount : Int

/-- One round of the loop that reads the posts. -/
def summaryRow (r : Option Post × Option String) : SummaryRow where
  id := (r.1.map Post.id).getD 0
  author := r.2.getD ""
  title := (r.1.map Post.title).getD ""
  abstract := (r.1.map Post.abstract).getD ""
  hasContent := (r.1.map (fun p => !p.content.isEmpty)).getD false
  published := (r.1.map Post.publish).getD 0
  commentCount := (r.1.map Post.commentCount).getD 0

namespace Summary

/-- `title LIKE ? OR abstract LIKE ? OR content LIKE ?` -/
def matchesLike (e : Env) (pattern : String) (p : Post) : Bool :=
  e.lib.like p.title pattern || e.lib.like p.abstract pattern || e.lib.like p.content pattern

/-- The condition a search puts on the posts; without a search text there is none. -/
def condition (e : Env) (q : String) (p : Post) : Bool :=
  if q.isEmpty then true else matchesLike e (likePattern q) p

/-- The same on a joined post: `NULL` matches no pattern. -/
def conditionInCat (e : Env) (q : String) (p : Option Post) : Bool :=
  if q.isEmpty then true else p.any (matchesLike e (likePattern q))

/-- The check of the category number against the largest one. -/
def checkMaxCatId (catId : Int) : App Bool :=
  if 0 < catId then
    (fetch "max_cat_id").bind fun r =>
    match r with
    | some (.frame maxCatId) =>
        if Text.atoi maxCatId < catId then (makeErrorResponse 404).bind fun _ => .ret false
        else .ret true
    | some _ => .throw .archive
    | none =>
        (query Db.selectMaxCatId).bind fun m =>
        (store "max_cat_id" (.frame ((m.map toString).getD "")) ["cats"]).bind fun _ => .ret true
  else .ret true

/-- The name of the category, cached as `cat_name_<id>`; empty when there is none. -/
def categoryName (catId : Int) : App String :=
  (fetch ("cat_name_" ++ toString catId)).bind fun r =>
  match r with
  | some (.frame name) => .ret name
  | some _ => .throw .archive
  | none =>
      (query (Db.selectCatName catId)).bind fun n =>
      (store ("cat_name_" ++ toString catId) (.frame (n.getD "")) [catKey catId]).bind fun _ =>
      .ret (n.getD "")

/-- The number of records, cached under a key of its own. -/
def pageRecords (key : String) (catId : Int) (countRecords : Db → Int) : App Int :=
  (fetch key).bind fun r =>
  match r with
  | some (.pageRecords n) => .ret n
  | some _ => .throw .archive
  | none =>
      (query countRecords).bind fun n =>
      (store key (.pageRecords n) [catKey catId]).bind fun _ => .ret n

/-- The key of the number of records. -/
def countKey (catId : Int) (q : String) : String :=
  "cat_count_" ++ toString catId ++ (if q.isEmpty then "" else "_" ++ likePattern q)

def countRecords (e : Env) (catId : Int) (q : String) (d : Db) : Int :=
  if catId ≠ 0 then d.countInCat catId (conditionInCat e q) else d.countOpenPosts (condition e q)

def selectPosts (e : Env) (catId : Int) (q : String) (n k : Int) (d : Db) : List SummaryRow :=
  if catId ≠ 0 then (d.selectPostsInCat catId (conditionInCat e q) n k).map summaryRow
  else (d.selectOpenPosts (condition e q) n k).map (fun r => summaryRow (some r.1, r.2))

/-- `url("from")`, and `url("from",page)` -/
def urlFrom (e : Env) (page : Option Int) : String :=
  e.settings.root ++ (match page with | none => "/" | some n => "/from/" ++ toString n)

/-- `url("category",id)`, and `url("category",id,page)` -/
def urlCategory (e : Env) (catId : Int) (page : Option Int) : String :=
  e.settings.root ++ "/cat/" ++ toString catId ++
    (match page with | none => "" | some n => "/from/" ++ toString n)

/-- Where a request for a page that does not exist is sent. -/
def redirectUrl (e : Env) (catId curpage : Int) (q : String) : String :=
  e.settings.root ++ (if catId ≠ 0 then "/cat/" ++ toString catId else "") ++
    "/from/" ++ toString curpage ++ (if q.isEmpty then "" else "?" ++ e.req.queryString)

/-- The entries of the listing; of several rows with one id the last one gets the categories. -/
def entries (e : Env) (cats : List (Int × Cat)) : List SummaryRow → List SummaryEntry
  | [] => []
  | r :: rest =>
      { id := r.id
        title := escape r.title
        published := r.published
        author := escape r.author
        categories :=
          if rest.any (fun x => x.id = r.id) then []
          else (cats.filter (fun x => x.1 = r.id)).map (fun x => (x.2.id, escape x.2.name))
        commentCount := r.commentCount
        abstract := abstractHtml e r.abstract
        hasContent := r.hasContent } :: entries e cats rest

/-- The view `summary`. -/
def summaryTemplate (e : Env) (catId : Int) (categoryName q : String) (paging : Paging)
    (cats : List (Int × Cat)) (rows : List SummaryRow) : SummaryPage where
  id := catId
  categoryName := escape categoryName
  q := escape q
  posts := entries e cats rows
  pager :=
    if rows.isEmpty then none
    else some (multiPage (if catId ≠ 0 then urlCategory e catId else urlFrom e) e.req.queryString
      paging)

/-- The end of `summary::prepare`: the posts of a page, with their categories, rendered and cached. -/
def showPage (e : Env) (key : String) (catId : Int) (categoryName q : String) (paging : Paging) :
    App Unit :=
  (query (selectPosts e catId q paging.pageSize (paging.curpage * paging.pageSize))).bind fun rows =>
  (addTriggers (rows.map (fun r => postKey r.id))).bind fun _ =>
  basicPrepare.bind fun info =>
  (if rows.isEmpty then .ret [] else query (Db.selectCatsOfPosts (rows.map SummaryRow.id))).bind
    fun cats =>
  (renderMaster e info).bind fun master =>
  (write (.blogSummary master (summaryTemplate e catId categoryName q paging cats rows))).bind fun _ =>
  storePage e key

/-- The listing of one category, or of all posts, from the number of its records on. -/
def list (e : Env) (key : String) (catId page : Int) (categoryName q : String) : App Unit :=
  (pageRecords (countKey catId q) catId (countRecords e catId q)).bind fun n =>
  let paging := ({ pageRecords := n, curpage := page } : Paging).calcPages
  if paging.curpage ≠ page then setRedirectHeader (redirectUrl e catId paging.curpage q)
  else showPage e key catId categoryName q paging

/-- The key a listing is cached under. -/
def key (catId page : Int) (q : String) : String :=
  "summary_" ++ toString catId ++ "_" ++ toString page ++ "_" ++ q

/-- `summary::prepare` -/
def prepare (e : Env) (catId page : Int) : App Unit :=
  let page := if page < 0 then 0 else page
  let catId := if catId < 0 then 0 else catId
  (checkMaxCatId catId).bind fun ok =>
  if !ok then .ret ()
  else
    let q := e.req.getValue "q"
    (fetchPage e (key catId page q)).bind fun hit =>
    if hit then .ret ()
    else
      (addTrigger (catKey catId)).bind fun _ =>
      if catId ≠ 0 then
        (categoryName catId).bind fun name =>
        if name.isEmpty then makeErrorResponse 404
        else list e (key catId page q) catId page name q
      else list e (key catId page q) catId page "" q

/-- `summary::all` and `summary::category`, on the parts of the path -/
def all (e : Env) (page : String) : App Unit := prepare e 0 (Text.atoi page)

def category (e : Env) (id page : String) : App Unit := prepare e (Text.atoi id) (Text.atoi page)

end Summary

end CppBlog
