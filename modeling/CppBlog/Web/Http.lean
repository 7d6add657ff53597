import CppBlog.Text.CNumber

set_option autoImplicit false

/-! # Requests, sessions and settings

What a handler can read: the request, the session of its client, the settings of the site, and the
libraries the application calls (taken as parameters where their source is too large to embed or is
not part of the repository). -/

namespace CppBlog

/-! ## Requests -/

/-- One HTTP request. Names in `get` and `post` may repeat; `gzip` says whether the answer may be
    compressed (it selects the prefix of page-cache keys). -/
structure Request where
  method : String := "GET"
  path : String
  queryString : String := ""
  get : List (String × String) := []
  post : List (String × String) := []
  files : List (List UInt8) := []
  httpAcceptLanguage : String := ""
  httpReferer : String := ""
  httpRange : String := ""
  httpXCsrftoken : String := ""
  gzip : Bool := false
  /-- The client's session cookie. -/
  sid : String

namespace Request

/-- The value under a name when the name occurs exactly once, otherwise empty. -/
def single (data : List (String × String)) (name : String) : String :=
  match data.filter (fun x => x.1 = name) with
  | [x] => x.2
  | _ => ""

/-- `request().get(name)` -/
def getValue (r : Request) (name : String) : String := single r.get name

/-- `request().post(name)` -/
def postValue (r : Request) (name : String) : String := single r.post name

/-- `request().post_or_get()`: the data a form is loaded from. -/
def postOrGet (r : Request) : List (String × String) := if r.method = "POST" then r.post else r.get

end Request

/-! ## Sessions -/

/-- The data of a session. -/
abbrev Session := List (String × String)

namespace Session

def find (s : Session) (key : String) : Option String := s.lookup key

def isSet (s : Session) (key : String) : Bool := (s.find key).isSome

def erase (s : Session) (key : String) : Session := s.filter (fun x => x.1 ≠ key)

def set (s : Session) (key value : String) : Session := (key, value) :: s.erase key

@[simp] theorem find_nil (key : String) : find [] key = none := rfl

theorem find_cons (k v : String) (s : Session) (key : String) :
    find ((k, v) :: s) key = if key = k then some v else s.find key := by
  by_cases h : key = k
  · simp [find, h]
  · simp only [find, List.lookup_cons, if_neg h, beq_eq_false_iff_ne.2 h]

theorem erase_cons (k v : String) (s : Session) (key : String) :
    erase ((k, v) :: s) key = if k = key then s.erase key else (k, v) :: s.erase key := by
  by_cases h : k = key <;> simp [erase, h]

@[simp] theorem find_erase_self (s : Session) (key : String) : (s.erase key).find key = none := by
  induction s with
  | nil => rfl
  | cons x s ih =>
      obtain ⟨k, v⟩ := x
      rw [erase_cons]
      by_cases h : k = key
      · rw [if_pos h, ih]
      · rw [if_neg h, find_cons, if_neg (Ne.symm h), ih]

@[simp] theorem find_erase_ne (s : Session) {key key' : String} (h : key' ≠ key) :
    (s.erase key).find key' = s.find key' := by
  induction s with
  | nil => rfl
  | cons x s ih =>
      obtain ⟨k, v⟩ := x
      rw [erase_cons]
      by_cases hk : k = key
      · rw [if_pos hk, ih, find_cons, if_neg (hk ▸ h)]
      · rw [if_neg hk, find_cons, find_cons, ih]

@[simp] theorem find_set_self (s : Session) (key value : String) :
    (s.set key value).find key = some value := by simp [set, find_cons]

@[simp] theorem find_set_ne (s : Session) {key key' : String} (h : key' ≠ key) (value : String) :
    (s.set key value).find key' = s.find key' := by simp [set, find_cons, h]

theorem isSet_set_ne (s : Session) {key key' : String} (h : key' ≠ key) (value : String) :
    (s.set key value).isSet key' = s.isSet key' := by simp [isSet, h]

end Session

/-! ## Settings and libraries -/

/-- The settings the application reads. -/
structure Settings where
  /-- `blog.media` -/
  media : String := "/media"
  /-- `blog.root` -/
  root : String := ""
  /-- `blog.host` -/
  host : String := "localhost:8080"
  /-- `session.cookies.prefix` -/
  cookiePrefix : String := "cppcms_session"
  /-- `file_server.document_root` -/
  documentRoot : String := "."
  /-- Whether `apps::media` is attached: `file_server.enable` is off and `file_server.media` on. -/
  mediaAttached : Bool := true
  /-- `security.csrf.enable` -/
  csrf : Bool := true

/-- The code the application calls outside of its own sources and of what is embedded here. -/
structure Library where
  /-- The Markdown library, as `markdown_to_html` calls it. -/
  markdownToHtml : String → String
  /-- `cppcms::xss::filter` under the rules of `xss_filter()` -/
  xss : String → String
  /-- `cppcms::xss::rules::uri_validator()` -/
  uriValid : String → Bool
  /-- `tex_to_gif::convert`, or `none` when `blog.tex.enable` is off; empty is a failure. -/
  tex : Option (String → String)
  /-- `t LIKE p` of the database engine -/
  like : String → String → Bool
  /-- `id = ?` of the database engine with a text bound to the parameter -/
  idEq : Int → String → Bool
  /-- `cppcms::crypto::message_digest::md5()`, in lower-case hexadecimal -/
  md5 : List UInt8 → String
  /-- `Magick::Image` read, rotated and written, or `none` where it throws -/
  rotate : List UInt8 → Int → Option (List UInt8)

/-- What the machine contributes to one request: the time, the random texts drawn, and which of its
    database calls fail (in the order of the calls). -/
structure Chance where
  now : Nat := 0
  /-- `captcha_maker::create_captcha_line()` -/
  captchaLine : String := ""
  /-- `session_interface::generate_csrf_token()` -/
  csrfToken : String := ""
  faults : List Bool := []

/-- Everything a handler is given from outside. -/
structure Env where
  settings : Settings
  lib : Library
  req : Request
  chance : Chance

end CppBlog
