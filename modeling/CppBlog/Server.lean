import CppBlog.Dispatch

set_option autoImplicit false

/-! # The server

One request after the other: the session of the client is loaded, the handler runs, an exception
becomes an error page, the session is saved. A run is a sequence of requests, between which the cache
may evict entries. -/

namespace CppBlog

open Effect Store App

/-- What does not change while the server runs. -/
structure Site where
  settings : Settings
  lib : Library

/-- The state between two requests. -/
structure World where
  shared : Shared
  sessions : List (String × Session) := []

/-- The session of a client. -/
def World.session (w : World) (sid : String) : Session := (w.sessions.lookup sid).getD []

/-- The request and what the machine contributes to it. -/
structure Arrival where
  req : Request
  chance : Chance := {}

def Site.env (s : Site) (a : Arrival) : Env :=
  { settings := s.settings, lib := s.lib, req := a.req, chance := a.chance }

/-- The data of a request before its handler runs. -/
def Own.load (session : Session) : Own := { session := session, loaded := session }

/-- `session_interface::save`: the data kept for the client; a new session gets a token. -/
def Own.save (e : Env) (o : Own) : Session :=
  if o.session.isEmpty then []
  else if (o.loaded.isEmpty || o.reset) && e.settings.csrf then
    o.session.set "_csrf" e.chance.csrfToken
  else o.session

/-- The status of the error page of an exception. -/
def Error.status : Error → Nat
  | .forgery => 403
  | _ => 500

/-- The response a request ends with. -/
def finish (r : Except Error Unit) (response : Response) : Response :=
  match r with
  | .ok _ => response
  | .error err =>
      if response.body.isEmpty then
        { response with status := err.status, body := [.error err.status] }
      else response

/-- Run a handler for a request of a session. -/
def execute (p : App Unit) (session : Session) (faults : List Bool) (s : Shared) :
    Except Error Unit × (Shared × Local) :=
  p.run handle (s, { own := Own.load session, faults := faults })

/-- How the handler of a request ended, and the state it left. -/
def outcome (site : Site) (a : Arrival) (w : World) : Except Error Unit × (Shared × Local) :=
  execute (main (site.env a)) (w.session a.req.sid) a.chance.faults w.shared

/-- Serve one request. -/
def serve (site : Site) (a : Arrival) (w : World) : Response × World :=
  let r := outcome site a w
  (finish r.1 r.2.2.own.response,
    { shared := r.2.1
      sessions := (a.req.sid, r.2.2.own.save (site.env a)) ::
        w.sessions.filter (fun x => x.1 ≠ a.req.sid) })

/-- What can happen next. -/
inductive Event where
  | request (a : Arrival)
  | evict (keys : List String)

def step (site : Site) (w : World) : Event → World
  | .request a => (serve site a w).2
  | .evict keys => { w with shared := { w.shared with cache := w.shared.cache.evict keys } }

/-- The state after a sequence of events. -/
def run (site : Site) (events : List Event) (w : World) : World := events.foldl (step site) w

/-- A server started on an empty schema. -/
def World.fresh (files : Files) : World where
  shared := { db := Db.fresh, files := files }

/-- The states of all runs from an empty schema. -/
def Reachable (site : Site) (w : World) : Prop :=
  ∃ files events, w = run site events (World.fresh files)

/-- Every request of a run satisfies a condition on the state it meets. -/
def EachRequest (site : Site) (P : World → Arrival → Prop) : World → List Event → Prop
  | _, [] => True
  | w, .request a :: events => P w a ∧ EachRequest site P (step site w (.request a)) events
  | w, .evict keys :: events => EachRequest site P (step site w (.evict keys)) events

/-- An invariant of one event is one of every run. -/
theorem run_induction {site : Site} {I : World → Prop} (hstep : ∀ w ev, I w → I (step site w ev))
    {w : World} (hw : I w) (events : List Event) : I (run site events w) := by
  induction events generalizing w with
  | nil => exact hw
  | cons ev events ih => exact ih (hstep w ev hw)

/-- An invariant of the requests that satisfy a condition is one of the runs whose requests all do. -/
theorem EachRequest.induction {site : Site} {P : World → Arrival → Prop} {I : World → Prop}
    (hevict : ∀ w keys, I w → I (step site w (.evict keys)))
    (hstep : ∀ w a, I w → P w a → I (step site w (.request a))) {w : World} (hw : I w)
    {events : List Event} (h : EachRequest site P w events) : I (run site events w) := by
  induction events generalizing w with
  | nil => exact hw
  | cons ev events ih =>
    cases ev with
    | request a => exact ih (hstep w a hw h.1) h.2
    | evict keys => exact ih (hevict w keys hw) h

theorem Reachable.step {site : Site} {w : World} (h : Reachable site w) (ev : Event) :
    Reachable site (step site w ev) := by
  obtain ⟨files, events, rfl⟩ := h
  exact ⟨files, events ++ [ev], by simp [run]⟩

theorem Reachable.run {site : Site} {w : World} (h : Reachable site w) (events : List Event) :
    Reachable site (CppBlog.run site events w) := by
  obtain ⟨files, events', rfl⟩ := h
  exact ⟨files, events' ++ events, by simp [CppBlog.run]⟩

/-- What holds of a fresh server and survives every event holds of every reachable state. -/
theorem Reachable.induction {site : Site} {I : World → Prop} (hfresh : ∀ files, I (World.fresh files))
    (hstep : ∀ w ev, I w → I (CppBlog.step site w ev)) {w : World} (h : Reachable site w) : I w := by
  obtain ⟨files, events, rfl⟩ := h
  exact run_induction hstep (hfresh files) events

/-! ## Concrete requests -/

/-- A site to run requests on: its Markdown leaves a text as it is, and its filter escapes scripts, as
    the filter under the rules of `xss_filter()` does. -/
def Site.sample : Site where
  settings := {}
  lib := {
    markdownToHtml := id
    xss := fun s => strReplace (strReplace s "<script>" "&lt;script&gt;") "</script>" "&lt;/script&gt;"
    uriValid := fun s => !s.isEmpty
    tex := none
    like := fun t p => t = p
    idEq := fun i s => toString i = s
    md5 := fun _ => ""
    rotate := fun content _ => some content }

/-- A client asks for a path. -/
def Arrival.get (sid path : String) : Arrival := { req := { sid := sid, path := path } }

/-- A client submits a form. -/
def Arrival.post (sid path : String) (fields : List (String × String)) : Arrival :=
  { req := { sid := sid, path := path, method := "POST", post := fields } }

/-- The fields of `config_form`. -/
def Arrival.configure (sid user : String) : Arrival :=
  .post sid "/config" [("_1", "T"), ("_2", "S"), ("_3", ""), ("_4", user), ("_5", "p"), ("_6", "p")]

/-- The fields of the login page. -/
def Arrival.login (sid user : String) : Arrival :=
  .post sid "/admin/users" [("_1", user), ("_2", "p")]

end CppBlog
