import CppBlog.Web.Form

set_option autoImplicit false

/-! # What pages show

The contents handed to the templates and the pages the templates make of them. A page is kept as the
structure of its variable parts, each with the text that stands in the page (after the filters of the
template); the fixed markup around them is left out. -/

namespace CppBlog

/-! ## Contents shared by all pages -/

/-- `data::general_info` -/
structure GeneralInfo where
  blogTitle : String := ""
  blogDescription : String := ""
  contact : String := ""
  copyrightString : String := ""
deriving DecidableEq

/-- `data::blog::sidebar_info` -/
structure SidebarInfo where
  pages : List (Int × String) := []
  /-- id, name and number of open posts -/
  cats : List (Int × String × Int) := []
deriving DecidableEq

/-- The rendered side bar, the fragment cached as `sidebar`, with the locale its titles are in. -/
structure Sidebar where
  locale : Nat
  pages : List (Int × String)
  cats : List (Int × String × Int)
  copyright : Option String
deriving DecidableEq

/-- `data::basic_master`: the paging fields. -/
structure Paging where
  pageRecords : Int := 0
  pageSize : Int := 10
  curpage : Int := 0
  pageTotal : Int := 1
deriving DecidableEq

/-- `calc_pages` -/
def Paging.calcPages (p : Paging) : Paging :=
  if p.pageRecords = 0 then { p with pageTotal := 1, curpage := 0 }
  else
    let size := if p.pageSize ≤ 0 then 10 else p.pageSize
    -- ceil(page_records / page_size), in exact arithmetic
    let total := -(-p.pageRecords / size)
    { p with
      pageSize := size
      pageTotal := total
      curpage := if p.curpage < 0 then 0 else if total ≤ p.curpage then total - 1 else p.curpage }

/-- What `multi_page` prints for one page: a link, or the number of the page shown. -/
inductive PageItem where
  | link (href cls text : String)
  | cur (text : String)
deriving DecidableEq

/-- The output of `multi_page`. -/
structure MultiPage where
  pageTotal : Int
  pageRecords : Int
  items : List PageItem
deriving DecidableEq

/-- `MULTI_PAGE_LINK` -/
def multiPageLink (query href cls text : String) : PageItem :=
  .link (href ++ (if query.isEmpty then "" else "?" ++ query)) cls text

/-- `MULTI_PAGE`; `url` is the address of the first page, or of a page with a number. -/
def multiPage (url : Option Int → String) (query : String) (p : Paging) : MultiPage where
  pageTotal := p.pageTotal
  pageRecords := p.pageRecords
  items :=
    if 1 < p.pageTotal then
      let b := if p.curpage - 5 < 0 then 0 else p.curpage - 5
      let e := if p.pageTotal ≤ b + 9 then p.pageTotal - 1 else b + 9
      (if 0 < b then [multiPageLink query (url none) "page first" "&laquo;"] else []) ++
      ((List.range (e - b + 1).toNat).map (fun (i : Nat) => b + (i : Int))).map (fun n =>
        if n = p.curpage then .cur (toString (n + 1))
        else multiPageLink query (url (if n = 0 then none else some n)) "page" (toString (n + 1))) ++
      (if e < p.pageTotal - 1 then
        [multiPageLink query (url (some (p.pageTotal - 1))) "page last" "&raquo;"] else [])
    else [.cur "1"]

/-! ## Blog pages -/

/-- The part of `master` around the content of a blog page. -/
structure MasterPage where
  locale : Nat
  media : String
  cookiePrefix : String
  blogTitle : String
  blogDescription : String
  contact : String
  sidebar : Sidebar
deriving DecidableEq

/-- One entry of the list of comments. -/
structure CommentEntry where
  id : Int
  url : Option String
  username : String
  date : Nat
  content : String
deriving DecidableEq

/-- The `post` view. -/
structure PostPage where
  id : Int
  title : String
  published : Nat
  author : String
  categories : List (Int × String)
  commentCount : Int
  abstract : String
  content : Option String
  comments : List CommentEntry
  preview : Option String
  response : CommentForm
  /-- `app().request().request_method()`, which a script of the page compares with `POST`. -/
  requestMethod : String
deriving DecidableEq

/-- One post of the `summary` view. -/
structure SummaryEntry where
  id : Int
  title : String
  published : Nat
  author : String
  categories : List (Int × String)
  commentCount : Int
  abstract : String
  hasContent : Bool
deriving DecidableEq

/-- The `summary` view; without posts it shows no pager. -/
structure SummaryPage where
  id : Int
  categoryName : String
  q : String
  posts : List SummaryEntry
  pager : Option MultiPage
deriving DecidableEq

/-- One item of a posts feed. -/
structure FeedPost where
  id : Int
  title : String
  abstract : String
  hasContent : Bool
deriving DecidableEq

/-- One item of the comments feed. -/
structure FeedComment where
  id : Int
  postId : Int
  author : String
  content : String
deriving DecidableEq

/-- The channel around the items of a feed. -/
structure FeedMaster where
  locale : Nat
  host : String
  blogTitle : String
  blogDescription : String
deriving DecidableEq

/-! ## Administration pages -/

/-- `data::admin::master` as rendered: the active tab, the user and the token of the session. -/
structure AdminMaster where
  locale : Nat
  media : String
  blogTitle : String
  active : String
  loginId : Int
  loginUser : String
  csrf : String
deriving DecidableEq

/-- The views of the administration with their contents. -/
inductive AdminView where
  | caching (isActive : Bool) (size : Nat)
  | categories (errorMessage : String) (current : List (Int × String))
  | comment (id postId : Int) (form : AdminCommentForm)
  | options (form : OptionsForm)
  | page (id : Int) (isOpen : Bool) (form : PageForm)
  | post (id : Int) (isOpen : Bool) (form : PostForm)
  | summary (posts publisheds : List (Int × String)) (pager : Option MultiPage)
      (pages : List (Int × String × Int)) (comments : List (Int × Int × String))
  | userLogin (form : UserForm)
  | userAdd (form : UserForm) (duplicate : Bool)
  | user (id : Int) (form : UserForm) (duplicate : Bool)
  | userlist (q : String) (users : List (Int × String)) (loginId : Int) (pager : Option MultiPage)
deriving DecidableEq

/-! ## Responses -/

/-- What a handler writes to a response. -/
inductive Output where
  | blogPost (master : MasterPage) (page : PostPage)
  | blogPage (master : MasterPage) (id : Int) (title content : String)
  | blogSummary (master : MasterPage) (page : SummaryPage)
  | feedPosts (master : FeedMaster) (category : Option (Int × String)) (items : List FeedPost)
  | feedComments (master : FeedMaster) (items : List FeedComment)
  | admin (master : AdminMaster) (view : AdminView)
  | config (locale : Nat) (media csrf : String) (form : ConfigForm)
  | configVersion (locale : Nat) (media version expected : String)
  | error (status : Nat)
  | captcha (code : String)
  | file (content : List UInt8)
  | json (status : Bool) (fields : List (String × String))
deriving DecidableEq

/-- A response; `locale` is the one in effect when it is written. -/
structure Response where
  status : Nat := 200
  location : Option String := none
  headers : List (String × String) := []
  locale : Nat := 0
  body : List Output := []
deriving DecidableEq

end CppBlog
