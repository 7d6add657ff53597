import CppBlog.Apps.AdminPost
import CppBlog.Apps.AdminSite
import CppBlog.Apps.Config
import CppBlog.Apps.Feed
import CppBlog.Apps.Transfer
import CppBlog.Text.Regex

set_option autoImplicit false

/-! # Routes

The dispatchers of the nested applications. A dispatcher tries its entries in order and runs the first
whose expression matches the whole path; a mounted application gets the part of the path that its
group captured. -/

namespace CppBlog

open Effect App Text

/-- One entry of a dispatcher. -/
abbrev Route := Rx × (Captures → App Unit)

/-- `application::main`: the first full match, or an error. -/
def dispatch : List Route → String → App Unit
  | [], _ => makeErrorResponse 404
  | (rx, handler) :: rest, path =>
      match rx.full path.toList with
      | some caps => handler caps
      | none => dispatch rest path

/-! ## Expressions -/

/-- A text of the expression. -/
def txt (s : String) : Rx := .lit s.toList

/-- `.`: any character but a line feed -/
def dot (c : Char) : Bool := c ≠ '\n'

/-- `prefix((/.*)?)` -/
def mountRx (base : String) : Rx :=
  .seq (txt base) (.grp 1 (.opt (.grp 2 (.seq (txt "/") (.star dot)))))

/-- `prefix((/?.*))` -/
def openMountRx (base : String) : Rx :=
  .seq (txt base) (.grp 1 (.grp 2 (.seq (.opt (txt "/")) (.star dot))))

/-- `prefix(/.+)` -/
def restRx (base : String) : Rx := .seq (txt base) (.grp 1 (.seq (txt "/") (.plus dot)))

/-- `/?` -/
def slashRx : Rx := .opt (txt "/")

/-- `text/?` -/
def nameRx (s : String) : Rx := .seq (txt s) slashRx

/-- `prefix(\d+)` with the number in a group -/
def numberRx (base : String) (i : Nat) : Rx := .seq (txt base) (.grp i (.plus isDigit))

/-- The text of a group. -/
def text (caps : Captures) (i : Nat) : String := String.ofList (Rx.group caps i)

/-! ## The blog -/

def pageRoutes (e : Env) : List Route :=
  [(numberRx "/" 1, fun m => Page.display e (text m 1)),
   (.seq (numberRx "/" 1) (txt "/preview"), fun m => Page.preview e (text m 1))]

def postRoutes (e : Env) : List Route :=
  [(numberRx "/" 1, fun m => Post.display e (text m 1)),
   (.seq (numberRx "/" 1) (txt "/preview"), fun m => Post.preview e (text m 1)),
   (.seq (numberRx "/" 1) (txt "/postback"), fun m => Post.postback e (text m 1))]

/-- `/([0-9a-f]+)/(\d+)/(.*)/?` -/
def downloadRx : Rx :=
  .seq (txt "/") (.seq (.grp 1 (.plus (fun c => isDigit c || ('a' ≤ c && c ≤ 'f'))))
    (.seq (numberRx "/" 2) (.seq (txt "/") (.seq (.grp 3 (.star dot)) slashRx))))

def downloadRoutes (e : Env) : List Route :=
  [(downloadRx, fun m => Download.prepare e (text m 1) (text m 2) (text m 3))]

def summaryRoutes (e : Env) : List Route :=
  [(slashRx, fun _ => Summary.prepare e 0 0),
   (slashRx, fun _ => Summary.prepare e 0 0),
   (.seq (numberRx "/from/" 1) slashRx, fun m => Summary.all e (text m 1)),
   (.seq (numberRx "/cat/" 1) slashRx, fun m => Summary.category e (text m 1) "0"),
   (.seq (numberRx "/cat/" 1) (.seq (numberRx "/from/" 2) slashRx),
     fun m => Summary.category e (text m 1) (text m 2))]

def blogRoutes (e : Env) : List Route :=
  [(mountRx "/page", fun m => dispatch (pageRoutes e) (text m 1)),
   (mountRx "/post", fun m => dispatch (postRoutes e) (text m 1)),
   (restRx "/download", fun m => dispatch (downloadRoutes e) (text m 1)),
   (.grp 0 (.star dot), fun m => dispatch (summaryRoutes e) (text m 0))]

/-! ## The administration -/

def usersRoutes (e : Env) : List Route :=
  [(nameRx "/list", fun _ => Users.list e 0),
   (.seq (numberRx "/list/" 1) slashRx, fun m => Users.list e (atoi (text m 1))),
   (nameRx "/add", fun _ => Users.add e),
   (.seq (numberRx "/del/" 1) slashRx, fun m => Users.del e (text m 1)),
   (.seq (numberRx "/" 1) slashRx, fun m => Users.edit e (text m 1)),
   (slashRx, fun _ => Users.prepare e)]

def adminRoutes (e : Env) : List Route :=
  [(mountRx "/cache", fun m => dispatch [(slashRx, fun _ => Caching.prepare e)] (text m 1)),
   (mountRx "/categories", fun m => dispatch [(slashRx, fun _ => Categories.prepare e)] (text m 1)),
   (mountRx "/options", fun m => dispatch [(slashRx, fun _ => Options.prepare e)] (text m 1)),
   (mountRx "/comment", fun m =>
     dispatch [(.seq (numberRx "/" 1) slashRx, fun m => AdminComment.prepare e (text m 1))] (text m 1)),
   (mountRx "/post", fun m =>
     dispatch
       [(.seq (numberRx "/" 1) slashRx, fun m => AdminPost.prepare e (text m 1)),
        (slashRx, fun _ => AdminPost.prepareShared e 0)] (text m 1)),
   (mountRx "/page", fun m =>
     dispatch
       [(.seq (numberRx "/" 1) slashRx, fun m => AdminPage.prepare e (text m 1)),
        (slashRx, fun _ => AdminPage.prepareShared e 0)] (text m 1)),
   (mountRx "/users", fun m => dispatch (usersRoutes e) (text m 1)),
   (mountRx "/upload", fun m => dispatch [(slashRx, fun _ => Upload.prepare e)] (text m 1)),
   (mountRx "", fun m =>
     dispatch
       [(.seq (numberRx "/" 1) slashRx, fun m => AdminSummary.prepare e (atoi (text m 1))),
        (slashRx, fun _ => AdminSummary.prepare e 0)] (text m 1))]

/-- `admin_master::main` -/
def adminMaster (e : Env) (path : String) : App Unit :=
  (sessionIsSet "user").bind fun isUser =>
  if isUser ∨ path = "/users" ∨ path = "/users/" then dispatch (adminRoutes e) path
  else setRedirectHeader (urlAdminUsers e)

/-! ## The site -/

def configRoutes (e : Env) : List Route :=
  [(slashRx, fun _ => Config.configure e), (txt "/version", fun _ => Config.version e)]

def feedRoutes (e : Env) : List Route :=
  [(slashRx, fun _ => Feed.posts e),
   (.seq (numberRx "/cat/" 1) slashRx, fun m => Feed.cats e (text m 1)),
   (nameRx "/comments", fun _ => Feed.comments e)]

/-- `/(.+)/?` -/
def mediaRoutes (e : Env) : List Route :=
  [(.seq (txt "/") (.seq (.grp 1 (.plus dot)) slashRx), fun m => Media.prepare e (text m 1))]

def siteRoutes (e : Env) : List Route :=
  [(openMountRx "/captcha", fun _ => Captcha.main e),
   (openMountRx "/config", fun m => dispatch (configRoutes e) (text m 1)),
   (mountRx "/admin", fun m => adminMaster e (text m 1)),
   (mountRx "/rss", fun m => dispatch (feedRoutes e) (text m 1))] ++
  (if e.settings.mediaAttached then
    [(restRx "/media", fun m => dispatch (mediaRoutes e) (text m 1))] else []) ++
  [(mountRx "", fun m => dispatch (blogRoutes e) (text m 1))]

/-- The language of the request: 1 for Chinese, 2 otherwise. -/
def nlang (e : Env) : Nat :=
  if e.req.httpAcceptLanguage.toList.take 2 = "zh".toList ∨
      e.req.httpAcceptLanguage.toList.take 2 = "cn".toList then 1 else 2

/-- A change of the visitor's language empties the cache. -/
def selectLanguage (e : Env) : App Unit :=
  (modifyResponse (fun r => { r with locale := nlang e })).bind fun _ =>
  (sessionIsSet "nlang").bind fun known =>
  (if known then (sessionGetInt "nlang").bind fun n => .ret (n = nlang e : Bool) else .ret false).bind
    fun same =>
  if same then .ret ()
  else (sessionSet "nlang" (toString (nlang e))).bind fun _ => clearCache

/-- The path the expressions see. -/
def routedPath (e : Env) : String := String.ofList (e.req.path.toList.takeWhile (· ≠ '\x00'))

/-- The request reaches `apps::config`: the second entry is the first that matches. -/
def routedToConfig (e : Env) : Bool :=
  ((openMountRx "/captcha").full (routedPath e).toList).isNone &&
    ((openMountRx "/config").full (routedPath e).toList).isSome

/-- `blog::main` -/
def main (e : Env) : App Unit :=
  (selectLanguage e).bind fun _ =>
  (dispatch (siteRoutes e) (routedPath e)).tryCatch fun err =>
    match err with
    | .version => setRedirectHeader (urlConfigVersion e)
    | .notConfigured => setRedirectHeader (urlConfig e)
    | err => .throw err

end CppBlog
