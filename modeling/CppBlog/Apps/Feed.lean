import CppBlog.Apps.Blog

set_option autoImplicit false

/-! # The feeds

`apps::feed::feed_master`: all posts, the posts of a category, and the comments. -/

namespace CppBlog

open Effect App

namespace Feed

/-- The view `master` around the items of a feed. -/
def feedMaster (e : Env) (info : GeneralInfo) : App FeedMaster :=
  (getOwn (fun o => o.response.locale)).bind fun locale =>
  .ret {
    locale := locale
    host := escape e.settings.host
    blogTitle := escape info.blogTitle
    blogDescription := escape info.blogDescription }

/-- A comment's text in the template `items()` of the view `comments`. -/
def feedItem (e : Env) (text : String) : String :=
  escape (e.lib.xss (e.lib.markdownToHtml text))

/-- One item of the comments feed. -/
def commentItem (e : Env) (c : Comment) : FeedComment where
  id := c.id
  postId := c.postId
  author := escape c.author
  content := feedItem e c.content

/-- One item of a posts feed. -/
def postItem (e : Env) (r : SummaryRow) : FeedPost where
  id := r.id
  title := escape r.title
  abstract := escape (abstractHtml e r.abstract)
  hasContent := r.hasContent

/-- `response().set_content_header("text/xml")` -/
def setXml : App Unit := setHeader "Content-Type" "text/xml"

/-- `feed_master::comments` -/
def comments (e : Env) : App Unit :=
  setXml.bind fun _ =>
  (fetchPage e "comments").bind fun hit =>
  if hit then .ret ()
  else
    (query Db.selectLastComments).bind fun rows =>
    basicPrepare.bind fun info =>
    (feedMaster e info).bind fun master =>
    (write (.feedComments master (rows.map (commentItem e)))).bind fun _ =>
    storePage e "comments"

/-- The end of `feed_master::posts` and `feed_master::cats`: the triggers of the posts shown, the
    feed, and its place in the cache. -/
def showPosts (e : Env) (key : String) (category : Option (Int × String)) (rows : List SummaryRow) :
    App Unit :=
  (addTriggers (rows.map (fun r => postKey r.id))).bind fun _ =>
  basicPrepare.bind fun info =>
  (feedMaster e info).bind fun master =>
  (write (.feedPosts master category (rows.map (postItem e)))).bind fun _ =>
  storePage e key

/-- `feed_master::posts` -/
def posts (e : Env) : App Unit :=
  setXml.bind fun _ =>
  (fetchPage e "rss_posts").bind fun hit =>
  if hit then .ret ()
  else
    (addTrigger "cat_0").bind fun _ =>
    (query (fun d => (d.selectOpenPosts (fun _ => true) 10 0).map
      (fun r => summaryRow (some r.1, r.2)))).bind fun rows =>
    showPosts e "rss_posts" none rows

/-- The text of a channel's title names the category unless its id is 0. -/
def channel (id : Int) (category : String) : Option (Int × String) :=
  if id = 0 then none else some (id, escape category)

/-- `feed_master::cats` -/
def cats (e : Env) (sid : String) : App Unit :=
  setXml.bind fun _ =>
  (fetchPage e ("rss_" ++ sid)).bind fun hit =>
  if hit then .ret ()
  else
    (addTrigger ("cat_" ++ sid)).bind fun _ =>
    let id := Text.atoi sid
    (query (Db.selectCatName id)).bind fun name =>
    match name with
    | none => makeErrorResponse 404
    | some category =>
        (query (fun d => (d.selectPostsInCat id (fun _ => true) 10 0).map summaryRow)).bind
          fun rows => showPosts e ("rss_" ++ sid) (channel id category) rows

end Feed

end CppBlog
