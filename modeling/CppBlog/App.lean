import CppBlog.Effect.Prog
import CppBlog.Store.FileSystem
import CppBlog.Store.TriggerCache
import CppBlog.Statements
import CppBlog.Web.Views

set_option autoImplicit false

/-! # The operations of a handler

A handler is a program (`Effect.Prog`) over the operations below. Each of them is one atomic step:
a statement sent to the database, a boundary of a transaction, an access to the cache or to the file
system, or a step on the data of the request itself. `handle` executes them; a database call may fail
whenever the oracle of the request says so, and then changes nothing. -/

namespace CppBlog

open Effect Store

/-! ## State -/

/-- The exceptions a handler can raise. -/
inductive Error where
  /-- `cppdb::cppdb_error` -/
  | sql (err : SqlError)
  /-- `request_forgery_error` -/
  | forgery
  /-- `database_version_error` -/
  | version
  /-- `database_is_not_configured_error` -/
  | notConfigured
  /-- a session key that is missing or does not read as a number -/
  | sessionKey
  /-- a cached object that does not deserialize -/
  | archive
  /-- `std::out_of_range` -/
  | outOfRange
  /-- `cppcms_error` of a file that cannot be saved -/
  | file
  /-- `Magick::Exception` -/
  | magick
  /-- a loop that never ends -/
  | hang
deriving DecidableEq

/-- What the cache holds. -/
inductive Cached where
  | page (body : List Output)
  | frame (text : String)
  | sidebar (sidebar : Sidebar)
  | info (info : GeneralInfo)
  | sidebarInfo (info : SidebarInfo)
  | pageRecords (n : Int)
deriving DecidableEq

abbrev Cache := TriggerCache Cached

/-- The data of the request in progress. -/
structure Own where
  /-- `session_interface::data_` and `data_copy_` -/
  session : Session := []
  loaded : Session := []
  reset : Bool := false
  csrfChecked : Bool := false
  /-- `cache_interface::triggers_` and the triggers of the recorders alive -/
  triggers : List String := []
  recorders : List (List String) := []
  response : Response := {}

/-- What all requests share. -/
structure Shared where
  db : Db
  cache : Cache := []
  files : Files := []

/-- What one request has to itself: its data, the database of its open transaction and the failures
    still ahead of its database calls. -/
structure Local where
  own : Own := {}
  tx : Option Db := none
  faults : List Bool := []

/-! ## Operations -/

/-- One atomic step of a handler. -/
inductive Sig : Type → Type 1 where
  /-- a `SELECT` -/
  | query {β : Type} (f : Db → β) : Sig β
  /-- a statement that writes -/
  | exec (f : Db → Except SqlError Db) : Sig Unit
  | begin : Sig Unit
  | commit : Sig Unit
  /-- the destructor of a transaction: no effect after a commit -/
  | rollback : Sig Unit
  | cache {β : Type} (f : Cache → β × Cache) : Sig β
  | files {β : Type} (f : Files → β × Files) : Sig β
  | own {β : Type} (f : Own → β × Own) : Sig β

/-- The database a statement of the request works on. -/
def Local.current (l : Local) (s : Shared) : Db := l.tx.getD s.db

/-- The next database call fails or not. -/
def Local.fault (l : Local) : Bool × Local := (l.faults.headD false, { l with faults := l.faults.tail })

/-- Put the result of a statement where the request works: in its transaction, or at once. -/
def put (s : Shared) (l : Local) (d : Db) : Shared × Local :=
  match l.tx with
  | some _ => (s, { l with tx := some d })
  | none => ({ s with db := d }, l)

/-- Execute one operation. -/
def handle {β : Type} (o : Sig β) (m : Shared × Local) : Except Error β × (Shared × Local) :=
  match o with
  | .query f =>
      if m.2.fault.1 then (.error (.sql .failed), (m.1, m.2.fault.2))
      else (.ok (f (m.2.current m.1)), (m.1, m.2.fault.2))
  | .exec f =>
      if m.2.fault.1 then (.error (.sql .failed), (m.1, m.2.fault.2))
      else match f (m.2.current m.1) with
        | .error err => (.error (.sql err), (m.1, m.2.fault.2))
        | .ok d => (.ok (), put m.1 m.2.fault.2 d)
  | .begin =>
      if m.2.fault.1 then (.error (.sql .failed), (m.1, m.2.fault.2))
      else (.ok (), (m.1, { m.2.fault.2 with tx := some m.1.db }))
  | .commit =>
      if m.2.fault.1 then (.error (.sql .failed), (m.1, m.2.fault.2))
      else (.ok (), ({ m.1 with db := m.2.current m.1 }, { m.2.fault.2 with tx := none }))
  | .rollback => (.ok (), (m.1, { m.2 with tx := none }))
  | .cache f => (.ok (f m.1.cache).1, ({ m.1 with cache := (f m.1.cache).2 }, m.2))
  | .files f => (.ok (f m.1.files).1, ({ m.1 with files := (f m.1.files).2 }, m.2))
  | .own f => (.ok (f m.2.own).1, (m.1, { m.2 with own := (f m.2.own).2 }))

/-- A handler. -/
abbrev App (α : Type) := Prog Sig Error α

namespace App

variable {α β : Type}

/-! ## Database -/

/-- `sql() << "SELECT ..."` -/
def query (f : Db → β) : App β := .perform (.query f)

/-- `sql() << "..." << cppdb::exec` -/
def exec (f : Db → Except SqlError Db) : App Unit := .perform (.exec f)

/-- A statement no constraint refuses. -/
def execTotal (f : Db → Db) : App Unit := exec (fun d => .ok (f d))

/-- `tr.commit()` -/
def commit : App Unit := .perform .commit

/-- `cppdb::transaction tr(sql()); ...` up to the end of the block -/
def transaction (body : App α) : App α :=
  (Prog.perform .begin).bind (fun _ => body.ensure (.perform .rollback))

/-! ## Request data -/

def getOwn (f : Own → β) : App β := .perform (.own (fun o => (f o, o)))

def modifyOwn (f : Own → Own) : App Unit := .perform (.own (fun o => ((), f o)))

/-- `session().is_set(key)` -/
def sessionIsSet (key : String) : App Bool := getOwn (fun o => o.session.isSet key)

/-- `session().get(key)` -/
def sessionGet (key : String) : App String :=
  (getOwn (fun o => o.session.find key)).bind
    (fun v => match v with | some v => .ret v | none => .throw .sessionKey)

/-- `session().get<int>(key)` -/
def sessionGetInt (key : String) : App Int :=
  (sessionGet key).bind
    (fun v => match Text.readInt? v with | some i => .ret i | none => .throw .sessionKey)

/-- `session().set(key,value)` -/
def sessionSet (key value : String) : App Unit :=
  modifyOwn (fun o => { o with session := o.session.set key value })

/-- `session().clear()` -/
def sessionClear : App Unit := modifyOwn (fun o => { o with session := [] })

/-- `session().reset_session()` -/
def resetSession : App Unit := modifyOwn (fun o => { o with reset := true })

def modifyResponse (f : Response → Response) : App Unit :=
  modifyOwn (fun o => { o with response := f o.response })

/-- `response().out() << ...` -/
def write (out : Output) : App Unit := modifyResponse (fun r => { r with body := r.body ++ [out] })

/-- `response().make_error_response(status)` -/
def makeErrorResponse (status : Nat) : App Unit :=
  modifyResponse (fun r => { r with status := status, body := r.body ++ [.error status] })

/-- `response().set_redirect_header(location)` -/
def setRedirectHeader (location : String) : App Unit :=
  modifyResponse (fun r => { r with location := some location, status := 302 })

/-- `response().set_header(name,value)` -/
def setHeader (name value : String) : App Unit :=
  modifyResponse (fun r => { r with headers := r.headers ++ [(name, value)] })

/-- The token a `POST` carries: the field `_csrf`, or else the header. -/
def requestToken (e : Env) : String :=
  match e.req.post.filter (fun x => x.1 = "_csrf") with
  | [x] => x.2
  | _ => e.req.httpXCsrftoken

/-- Whether the token of a `POST` is not that of its session; a session without token accepts any. -/
def forged (e : Env) (o : Own) : Bool :=
  e.settings.csrf && e.req.method = "POST" && !o.csrfChecked &&
    (o.session.find "_csrf").getD "" ≠ "" && (o.session.find "_csrf").getD "" ≠ requestToken e

/-- `session_interface::validate_request_origin`, asked for once, when the first widget of a form is
    loaded. -/
def validateRequestOrigin (e : Env) : App Unit :=
  (Prog.perform (.own (fun o => (forged e o, { o with csrfChecked := true })))).bind
    (fun isForged => if isForged then .throw .forgery else .ret ())

/-- `form.load(context())`: the check of the origin, then the submitted data. -/
def loadForm {φ : Type} (e : Env) (load : List (String × String) → φ) : App φ :=
  (validateRequestOrigin e).bind (fun _ => .ret (load e.req.postOrGet))

/-! ## Cache -/

def cache (f : Cache → β × Cache) : App β := .perform (.cache f)

/-- A call on the file system. -/
def files (f : Files → β × Files) : App β := .perform (.files f)

/-- `cache().add_trigger(t)` for each trigger of a list -/
def addTriggers (ts : List String) : App Unit :=
  modifyOwn (fun o => { o with
    triggers := o.triggers ++ ts, recorders := o.recorders.map (· ++ ts) })

/-- `cache().add_trigger(t)` -/
def addTrigger (t : String) : App Unit := addTriggers [t]

/-- `cache().rise(t)` -/
def rise (t : String) : App Unit := cache (fun c => ((), c.rise t))

/-- `cache().clear()` -/
def clearCache : App Unit := cache (fun _ => ((), []))

/-- The key a page is cached under. -/
def pageKey (e : Env) (key : String) : String := (if e.req.gzip then "_Z:" else "_U:") ++ key

/-- `cache().fetch_page(key)` -/
def fetchPage (e : Env) (key : String) : App Bool :=
  (cache (fun c => (c.fetch (pageKey e key), c))).bind
    (fun r => match r with
      | none => .ret false
      | some x => match x.value with
        | .page body =>
            (modifyResponse (fun r => { r with body := r.body ++ body })).bind (fun _ => .ret true)
        | _ => .throw .archive)

/-- `cache().store_page(key)` -/
def storePage (e : Env) (key : String) : App Unit :=
  (addTrigger key).bind fun _ =>
  (getOwn (fun o => (o.response.body, o.triggers))).bind fun x =>
  cache (fun c => ((), c.store (pageKey e key) (.page x.1) x.2))

/-- `cache().fetch(key,result)`: on a hit the triggers of the entry become triggers of the page. -/
def fetch (key : String) : App (Option Cached) :=
  (cache (fun c => (c.fetch key, c))).bind
    (fun r => match r with
      | none => .ret none
      | some x => (addTriggers x.triggers).bind (fun _ => .ret (some x.value)))

/-- `cache().store(key,data,triggers)` -/
def store (key : String) (value : Cached) (triggers : List String) : App Unit :=
  (addTriggers (triggers ++ [key])).bind fun _ =>
  cache (fun c => ((), c.store key value triggers))

/-- `cppcms::triggers_recorder recorder(cache())` around `body`; `recorder.detach()` at its end. -/
def record (body : App α) : App (α × List String) :=
  (modifyOwn (fun o => { o with recorders := [] :: o.recorders })).bind fun _ =>
  body.bind fun a =>
  (Prog.perform (.own (fun o => (o.recorders.headD [], { o with recorders := o.recorders.tail })))).bind
    fun ts => .ret (a, ts)

end App

end CppBlog
