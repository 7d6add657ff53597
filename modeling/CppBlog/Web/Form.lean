import CppBlog.Web.Http

set_option autoImplicit false

/-! # Forms

The widgets of the form library and the forms of `data/*.h` built from them. A widget without a name
of its own is named `_1`, `_2`, ... by its running position in the whole form. A form is loaded from
the submitted data of the request and then validated; validation visits every widget and records in
each whether it is valid. -/

namespace CppBlog

/-- Characters the form library accepts in a text: no control characters but tab, line feed and
    carriage return. -/
def validChar (c : Char) : Bool :=
  c = '\t' || c = '\n' || c = '\r' ||
    (0x20 ≤ c.toNat && !(0x7F ≤ c.toNat && c.toNat < 0xA0))

/-- `widgets::text`, `textarea`, `password`, `hidden`: a text with limits on its length. -/
structure TextField where
  value : String := ""
  valid : Bool := true
  low : Nat := 0
  high : Option Nat := none
deriving DecidableEq

namespace TextField

/-- `t.non_empty()` -/
def nonEmpty : TextField := { low := 1 }

/-- `t.limits(low,high)` -/
def limits (low high : Nat) : TextField := { low := low, high := some high }

/-- `base_text::load` -/
def load (t : TextField) (data : List (String × String)) (name : String) : TextField :=
  match data.lookup name with
  | none => { t with value := "", valid := true }
  | some v => { t with value := v, valid := v.toList.all validChar }

/-- `base_text::validate` -/
def validate (t : TextField) : TextField :=
  { t with
    valid := t.valid && t.low ≤ t.value.length &&
      (match t.high with | none => true | some h => t.value.length ≤ h) }

/-- `t.value(v)` -/
def setValue (t : TextField) (v : String) : TextField := { t with value := v }

/-- `t.valid(b)` -/
def setValid (t : TextField) (b : Bool) : TextField := { t with valid := b }

/-- `password::validate`: an invalid password is emptied. -/
def validatePassword (t : TextField) : TextField :=
  if t.validate.valid then t.validate else t.validate.setValue ""

@[simp] theorem validate_value (t : TextField) : t.validate.value = t.value := rfl

@[simp] theorem load_low (t : TextField) (data : List (String × String)) (name : String) :
    (t.load data name).low = t.low := by
  unfold load; split <;> rfl

/-- A valid text is as long as its lower limit asks. -/
theorem le_length_of_validate {t : TextField} (h : t.validate.valid = true) :
    t.low ≤ t.value.length := by
  simp only [validate, Bool.and_eq_true, decide_eq_true_eq] at h
  exact h.1.2

end TextField

/-- `submit::load`: whether the button's name was submitted. -/
def submitted (data : List (String × String)) (name : String) : Bool := (data.lookup name).isSome

/-- `checkbox::load`: whether the box's identification was submitted under its name. -/
def checked (data : List (String × String)) (name identification : String) : Bool :=
  data.any (fun x => x.1 = name && x.2 = identification)

/-- The name of the unnamed widget at a position. -/
def widgetName (i : Nat) : String := "_" ++ toString i

/-! ## config_form -/

structure ConfigForm where
  title : TextField := .nonEmpty
  subtitle : TextField := .nonEmpty
  contact : TextField := {}
  username : TextField := .nonEmpty
  p1 : TextField := .nonEmpty
  p2 : TextField := .nonEmpty
deriving DecidableEq

namespace ConfigForm

def load (f : ConfigForm) (data : List (String × String)) : ConfigForm where
  title := f.title.load data "_1"
  subtitle := f.subtitle.load data "_2"
  contact := f.contact.load data "_3"
  username := f.username.load data "_4"
  p1 := f.p1.load data "_5"
  p2 := f.p2.load data "_6"

/-- `p1.validate()` and `p2.validate()`, where `p1.check_equal(p2)`: both are emptied when they
    differ. -/
def validatePasswords (p1 p2 : TextField) : TextField × TextField :=
  if !p1.validate.valid then (p1.validatePassword, p2.validatePassword)
  else if p2.value ≠ p1.value then
    ((p1.validate.setValid false).setValue "", p2.validatePassword.setValue "")
  else (p1.validatePassword, p2.validatePassword)

def validate (f : ConfigForm) : ConfigForm where
  title := f.title.validate
  subtitle := f.subtitle.validate
  contact := f.contact.validate
  username := f.username.validate
  p1 := (validatePasswords f.p1 f.p2).1
  p2 := (validatePasswords f.p1 f.p2).2

def valid (f : ConfigForm) : Bool :=
  f.title.valid && f.subtitle.valid && f.contact.valid && f.username.valid && f.p1.valid && f.p2.valid

end ConfigForm

/-! ## The comment form of a post page -/

structure CommentForm where
  author : TextField := .limits 0 256
  mail : TextField := .limits 0 256
  url : TextField := {}
  content : TextField := .limits 1 32768
  send : Bool := false
  preview : Bool := false
  captcha : TextField := {}
deriving DecidableEq

namespace CommentForm

def load (f : CommentForm) (data : List (String × String)) : CommentForm where
  author := f.author.load data "_1"
  mail := f.mail.load data "_2"
  url := f.url.load data "_3"
  content := f.content.load data "_4"
  send := submitted data "_5"
  preview := submitted data "_6"
  captcha := f.captcha.load data "captcha"

/-- The expression `([^@]+@[^@]+)?` of the mail field matches a whole text. -/
def mailRegex (s : String) : Bool :=
  s.isEmpty ||
    match s.toList.span (· ≠ '@') with
    | (user, _ :: host) => !user.isEmpty && !host.isEmpty && host.all (· ≠ '@')
    | (_, []) => false

/-- `regex_field::validate` -/
def validateMail (t : TextField) : TextField :=
  t.validate.setValid (t.validate.valid && mailRegex t.value)

/-- `cppcms::form::validate` on this form -/
def validate (f : CommentForm) : CommentForm :=
  { f with
    author := f.author.validate
    mail := validateMail f.mail
    url := f.url.validate
    content := f.content.validate
    captcha := f.captcha.validate }

def valid (f : CommentForm) : Bool :=
  f.author.valid && f.mail.valid && f.url.valid && f.content.valid && f.captcha.valid

end CommentForm

/-! ## The forms of the administration -/

/-- `data::admin::comment::comment_form` -/
structure AdminCommentForm where
  author : TextField := .limits 1 256
  url : TextField := {}
  mail : TextField := {}
  content : TextField := .limits 1 32768
  save : Bool := false
  erase : Bool := false
  confirm : Bool := false
  confirmValid : Bool := true
deriving DecidableEq

namespace AdminCommentForm

def load (f : AdminCommentForm) (data : List (String × String)) : AdminCommentForm where
  author := f.author.load data "_1"
  url := f.url.load data "_2"
  mail := f.mail.load data "_3"
  content := f.content.load data "_4"
  save := submitted data "_5"
  erase := submitted data "_6"
  confirm := checked data "_7" "y"

def fieldsValid (f : AdminCommentForm) : Bool :=
  f.author.valid && f.url.valid && f.mail.valid && f.content.valid

/-- An erase has to be confirmed. -/
def validate (f : AdminCommentForm) : AdminCommentForm :=
  let f := { f with
    author := f.author.validate, url := f.url.validate, mail := f.mail.validate,
    content := f.content.validate }
  if f.fieldsValid && f.erase && !f.confirm then { f with confirmValid := false } else f

def valid (f : AdminCommentForm) : Bool := f.fieldsValid && f.confirmValid

end AdminCommentForm

/-- A check box of `add_to_cat` or `del_from_cat`: the category's id as text and its name. -/
structure CatBox where
  identification : String
  help : String
  value : Bool := false
deriving DecidableEq

/-- `data::admin::post::post_form` -/
structure PostForm where
  title : TextField := .nonEmpty
  abstract : TextField := .nonEmpty
  content : TextField := {}
  save : Bool := false
  saveAndContinue : Bool := false
  changeStatus : Bool := false
  remove : Bool := false
  reallyRemove : Bool := false
  reallyRemoveValid : Bool := true
  backurl : TextField := {}
  addToCatList : List CatBox := []
  delFromCatList : List CatBox := []
deriving DecidableEq

/-- Load check boxes whose first one stands at position `i` of the form. -/
def loadBoxes (data : List (String × String)) (i : Nat) (l : List CatBox) : List CatBox :=
  l.mapIdx (fun k b => { b with value := checked data (widgetName (i + k)) b.identification })

namespace PostForm

def load (f : PostForm) (data : List (String × String)) : PostForm where
  title := f.title.load data "_1"
  abstract := f.abstract.load data "_2"
  content := f.content.load data "_3"
  save := submitted data "_4"
  saveAndContinue := submitted data "_5"
  changeStatus := submitted data "_6"
  remove := submitted data "_7"
  reallyRemove := checked data "_8" "y"
  backurl := f.backurl.load data "_9"
  addToCatList := loadBoxes data 10 f.addToCatList
  delFromCatList := loadBoxes data (10 + f.addToCatList.length) f.delFromCatList

def fieldsValid (f : PostForm) : Bool :=
  f.title.valid && f.abstract.valid && f.content.valid && f.backurl.valid

/-- A removal has to be confirmed. -/
def validate (f : PostForm) : PostForm :=
  let f := { f with
    title := f.title.validate, abstract := f.abstract.validate, content := f.content.validate,
    backurl := f.backurl.validate }
  if f.fieldsValid && f.remove && !f.reallyRemove then { f with reallyRemoveValid := false } else f

def valid (f : PostForm) : Bool := f.fieldsValid && f.reallyRemoveValid

end PostForm

/-- `data::admin::page::page_form` -/
structure PageForm where
  title : TextField := .nonEmpty
  content : TextField := .nonEmpty
  save : Bool := false
  saveAndContinue : Bool := false
  changeStatus : Bool := false
  remove : Bool := false
  reallyRemove : Bool := false
  reallyRemoveValid : Bool := true
deriving DecidableEq

namespace PageForm

def load (f : PageForm) (data : List (String × String)) : PageForm where
  title := f.title.load data "_1"
  content := f.content.load data "_2"
  save := submitted data "_3"
  saveAndContinue := submitted data "_4"
  changeStatus := submitted data "_5"
  remove := submitted data "_6"
  reallyRemove := checked data "_7" "y"

def fieldsValid (f : PageForm) : Bool := f.title.valid && f.content.valid

/-- A removal has to be confirmed. -/
def validate (f : PageForm) : PageForm :=
  let f := { f with title := f.title.validate, content := f.content.validate }
  if f.fieldsValid && f.remove && !f.reallyRemove then { f with reallyRemoveValid := false } else f

def valid (f : PageForm) : Bool := f.fieldsValid && f.reallyRemoveValid

end PageForm

/-- `data::admin::options::options_form` -/
structure OptionsForm where
  title : TextField := .nonEmpty
  subtitle : TextField := .nonEmpty
  contact : TextField := {}
  copyright : TextField := {}
deriving DecidableEq

namespace OptionsForm

def load (f : OptionsForm) (data : List (String × String)) : OptionsForm where
  title := f.title.load data "_1"
  subtitle := f.subtitle.load data "_2"
  contact := f.contact.load data "_3"
  copyright := f.copyright.load data "_4"

def validate (f : OptionsForm) : OptionsForm where
  title := f.title.validate
  subtitle := f.subtitle.validate
  contact := f.contact.validate
  copyright := f.copyright.validate

def valid (f : OptionsForm) : Bool :=
  f.title.valid && f.subtitle.valid && f.contact.valid && f.copyright.valid

end OptionsForm

/-- `login_form` and `user_form`: a user name and a password, both required; the login's password is a
    `widgets::password`. -/
structure UserForm where
  username : TextField := .nonEmpty
  password : TextField := .nonEmpty
deriving DecidableEq

namespace UserForm

def load (f : UserForm) (data : List (String × String)) : UserForm where
  username := f.username.load data "_1"
  password := f.password.load data "_2"

def validate (f : UserForm) : UserForm where
  username := f.username.validate
  password := f.password.validate

def validateLogin (f : UserForm) : UserForm where
  username := f.username.validate
  password := f.password.validatePassword

def valid (f : UserForm) : Bool := f.username.valid && f.password.valid

end UserForm

/-- `cats_form` -/
structure CatsForm where
  id : TextField := {}
  cat : TextField := .nonEmpty
  save : Bool := false
  remove : Bool := false
  cascade : Bool := false
deriving DecidableEq

namespace CatsForm

def load (f : CatsForm) (data : List (String × String)) : CatsForm where
  id := f.id.load data "id"
  cat := f.cat.load data "cat"
  save := submitted data "save"
  remove := submitted data "remove"
  cascade := checked data "cascade" "1"

def validate (f : CatsForm) : CatsForm := { f with id := f.id.validate, cat := f.cat.validate }

def valid (f : CatsForm) : Bool := f.id.valid && f.cat.valid

end CatsForm

end CppBlog
