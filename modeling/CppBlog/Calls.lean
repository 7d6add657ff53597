import CppBlog.Effect.Logic
import CppBlog.Server

set_option autoImplicit false

/-! # What the operations may do

The model of the operations over which handlers are reasoned about: any call to the database may
fail, everything else is as `handle` executes it. Each function a handler is built from gets its rule
here, so that later proofs never unfold it; `ends_outcome` transfers what is proved of a handler to
the requests the server serves. -/

namespace CppBlog

open Effect Store App

/-- The state of a request without the failures that lie ahead of it. -/
structure St where
  db : Db
  tx : Option Db
  cache : Cache
  files : Files
  own : Own

namespace St

/-- The database a statement works on. -/
def current (s : St) : Db := s.tx.getD s.db

/-- The state after a statement that leaves the database `d`. -/
def put (s : St) (d : Db) : St :=
  match s.tx with
  | some _ => { s with tx := some d }
  | none => { s with db := d }

def setOwn (s : St) (o : Own) : St := { s with own := o }

def setCache (s : St) (c : Cache) : St := { s with cache := c }

@[simp] theorem current_tx (d d' : Db) (c : Cache) (f : Files) (o : Own) :
    (St.mk d (some d') c f o).current = d' := rfl

@[simp] theorem current_none (d : Db) (c : Cache) (f : Files) (o : Own) :
    (St.mk d none c f o).current = d := rfl

@[simp] theorem setOwn_current (s : St) (o : Own) : (s.setOwn o).current = s.current := rfl

@[simp] theorem setCache_current (s : St) (c : Cache) : (s.setCache c).current = s.current := rfl

theorem current_of_none {s : St} (h : s.tx = none) : s.current = s.db := by simp [current, h]

@[simp] theorem put_own (s : St) (d : Db) : (s.put d).own = s.own := by unfold put; split <;> rfl

@[simp] theorem put_cache (s : St) (d : Db) : (s.put d).cache = s.cache := by
  unfold put; split <;> rfl

@[simp] theorem put_files (s : St) (d : Db) : (s.put d).files = s.files := by
  unfold put; split <;> rfl

@[simp] theorem put_current (s : St) (d : Db) : (s.put d).current = d := by
  unfold put
  split
  · rfl
  · next h => simp [current, h]

end St

/-- The answers and next states of an operation. -/
def Outcome : {β : Type} → Sig β → St → Except Error β → St → Prop
  | _, .query f, s, r, s' => s' = s ∧ (r = .error (.sql .failed) ∨ r = .ok (f s.current))
  | _, .exec f, s, r, s' =>
      (r = .error (.sql .failed) ∧ s' = s) ∨
        (∃ err, f s.current = .error err ∧ r = .error (.sql err) ∧ s' = s) ∨
        ∃ d, f s.current = .ok d ∧ r = .ok () ∧ s' = s.put d
  | _, .begin, s, r, s' =>
      (r = .error (.sql .failed) ∧ s' = s) ∨ (r = .ok () ∧ s' = { s with tx := some s.db })
  | _, .commit, s, r, s' =>
      (r = .error (.sql .failed) ∧ s' = s) ∨ (r = .ok () ∧ s' = { s with db := s.current, tx := none })
  | _, .rollback, s, r, s' => r = .ok () ∧ s' = { s with tx := none }
  | _, .cache f, s, r, s' => r = .ok (f s.cache).1 ∧ s' = s.setCache (f s.cache).2
  | _, .files f, s, r, s' => r = .ok (f s.files).1 ∧ s' = { s with files := (f s.files).2 }
  | _, .own f, s, r, s' => r = .ok (f s.own).1 ∧ s' = s.setOwn (f s.own).2

def calls : Model Sig Error St := ⟨Outcome⟩

/-! ## Rules for the operations -/

section
variable {α β : Type} {E : Error → St → Prop} {s : St}

@[simp] theorem wp_query {f : Db → β} {Q : β → St → Prop} :
    (query f).wp calls Q E s ↔ Q (f s.current) s ∧ E (.sql .failed) s := by
  refine (Prog.wp_perform _ _ _ _).trans ⟨fun h => ?_, fun h => ?_⟩
  · exact ⟨h.1 _ _ ⟨rfl, Or.inr rfl⟩, h.2 _ _ ⟨rfl, Or.inl rfl⟩⟩
  · refine ⟨fun b s' hb => ?_, fun e s' he => ?_⟩
    · obtain ⟨rfl, hb | hb⟩ := hb <;> cases hb
      exact h.1
    · obtain ⟨rfl, he | he⟩ := he <;> cases he
      exact h.2

@[simp] theorem wp_exec {f : Db → Except SqlError Db} {Q : Unit → St → Prop} :
    (exec f).wp calls Q E s ↔
      (∀ d, f s.current = .ok d → Q () (s.put d)) ∧
        (∀ err, f s.current = .error err → E (.sql err) s) ∧ E (.sql .failed) s := by
  refine (Prog.wp_perform _ _ _ _).trans ⟨fun h => ?_, fun h => ?_⟩
  · exact ⟨fun d hd => h.1 _ _ (Or.inr (Or.inr ⟨d, hd, rfl, rfl⟩)),
      fun err he => h.2 _ _ (Or.inr (Or.inl ⟨err, he, rfl, rfl⟩)), h.2 _ _ (Or.inl ⟨rfl, rfl⟩)⟩
  · refine ⟨fun b s' hb => ?_, fun e s' he => ?_⟩
    · obtain ⟨hb, -⟩ | ⟨err, -, hb, -⟩ | ⟨d, hd, -, rfl⟩ := hb
      · cases hb
      · cases hb
      · exact h.1 d hd
    · obtain ⟨he, rfl⟩ | ⟨err, hf, he, rfl⟩ | ⟨d, -, he, -⟩ := he <;> cases he
      · exact h.2.2
      · exact h.2.1 err hf

@[simp] theorem wp_execTotal {f : Db → Db} {Q : Unit → St → Prop} :
    (execTotal f).wp calls Q E s ↔ Q () (s.put (f s.current)) ∧ E (.sql .failed) s := by
  simp [execTotal]

theorem wp_begin {Q : Unit → St → Prop} :
    (Prog.perform .begin : App Unit).wp calls Q E s ↔ Q () { s with tx := some s.db } ∧ E (.sql .failed) s := by
  refine (Prog.wp_perform _ _ _ _).trans ⟨fun h => ?_, fun h => ?_⟩
  · exact ⟨h.1 _ _ (Or.inr ⟨rfl, rfl⟩), h.2 _ _ (Or.inl ⟨rfl, rfl⟩)⟩
  · refine ⟨fun b s' hb => ?_, fun e s' he => ?_⟩
    · obtain ⟨hb, -⟩ | ⟨-, rfl⟩ := hb
      · cases hb
      · exact h.1
    · obtain ⟨he, rfl⟩ | ⟨he, -⟩ := he <;> cases he
      exact h.2

@[simp] theorem wp_commit {Q : Unit → St → Prop} :
    commit.wp calls Q E s ↔ Q () { s with db := s.current, tx := none } ∧ E (.sql .failed) s := by
  refine (Prog.wp_perform _ _ _ _).trans ⟨fun h => ?_, fun h => ?_⟩
  · exact ⟨h.1 _ _ (Or.inr ⟨rfl, rfl⟩), h.2 _ _ (Or.inl ⟨rfl, rfl⟩)⟩
  · refine ⟨fun b s' hb => ?_, fun e s' he => ?_⟩
    · obtain ⟨hb, -⟩ | ⟨-, rfl⟩ := hb
      · cases hb
      · exact h.1
    · obtain ⟨he, rfl⟩ | ⟨he, -⟩ := he <;> cases he
      exact h.2

theorem wp_rollback {Q : Unit → St → Prop} :
    (Prog.perform .rollback : App Unit).wp calls Q E s ↔ Q () { s with tx := none } := by
  refine (Prog.wp_perform _ _ _ _).trans ⟨fun h => h.1 _ _ ⟨rfl, rfl⟩, fun h => ?_⟩
  refine ⟨fun b s' hb => ?_, fun e s' he => ?_⟩
  · obtain ⟨-, rfl⟩ := hb
    exact h
  · obtain ⟨he, -⟩ := he
    cases he

/-- A transaction: its block runs on a copy of the tables, and whatever was not committed is gone at
    its end. -/
@[simp] theorem wp_transaction {body : App α} {Q : α → St → Prop} :
    (transaction body).wp calls Q E s ↔
      body.wp calls (fun a s' => Q a { s' with tx := none }) (fun e s' => E e { s' with tx := none })
        { s with tx := some s.db } ∧ E (.sql .failed) s := by
  simp only [transaction, Prog.wp_bind, wp_begin, Prog.wp_ensure, wp_rollback]

@[simp] theorem wp_cache {f : Cache → β × Cache} {Q : β → St → Prop} :
    (cache f).wp calls Q E s ↔ Q (f s.cache).1 (s.setCache (f s.cache).2) := by
  refine (Prog.wp_perform _ _ _ _).trans ⟨fun h => h.1 _ _ ⟨rfl, rfl⟩, fun h => ?_⟩
  refine ⟨fun b s' hb => ?_, fun e s' he => ?_⟩
  · obtain ⟨hb, rfl⟩ := hb
    cases hb
    exact h
  · obtain ⟨he, -⟩ := he
    cases he

@[simp] theorem wp_files {f : Files → β × Files} {Q : β → St → Prop} :
    (App.files f).wp calls Q E s ↔ Q (f s.files).1 { s with files := (f s.files).2 } := by
  refine (Prog.wp_perform _ _ _ _).trans ⟨fun h => h.1 _ _ ⟨rfl, rfl⟩, fun h => ?_⟩
  refine ⟨fun b s' hb => ?_, fun e s' he => ?_⟩
  · obtain ⟨hb, rfl⟩ := hb
    cases hb
    exact h
  · obtain ⟨he, -⟩ := he
    cases he

theorem wp_own {f : Own → β × Own} {Q : β → St → Prop} :
    (Prog.perform (.own f) : App β).wp calls Q E s ↔ Q (f s.own).1 (s.setOwn (f s.own).2) := by
  refine (Prog.wp_perform _ _ _ _).trans ⟨fun h => h.1 _ _ ⟨rfl, rfl⟩, fun h => ?_⟩
  refine ⟨fun b s' hb => ?_, fun e s' he => ?_⟩
  · obtain ⟨hb, rfl⟩ := hb
    cases hb
    exact h
  · obtain ⟨he, -⟩ := he
    cases he

@[simp] theorem wp_getOwn {f : Own → β} {Q : β → St → Prop} :
    (getOwn f).wp calls Q E s ↔ Q (f s.own) s := wp_own

@[simp] theorem wp_modifyOwn {f : Own → Own} {Q : Unit → St → Prop} :
    (modifyOwn f).wp calls Q E s ↔ Q () (s.setOwn (f s.own)) := wp_own

@[simp] theorem wp_sessionIsSet {key : String} {Q : Bool → St → Prop} :
    (sessionIsSet key).wp calls Q E s ↔ Q (s.own.session.isSet key) s := wp_getOwn

@[simp] theorem wp_sessionSet {key value : String} {Q : Unit → St → Prop} :
    (sessionSet key value).wp calls Q E s ↔
      Q () (s.setOwn { s.own with session := s.own.session.set key value }) := wp_modifyOwn

@[simp] theorem wp_sessionClear {Q : Unit → St → Prop} :
    sessionClear.wp calls Q E s ↔ Q () (s.setOwn { s.own with session := [] }) := wp_modifyOwn

@[simp] theorem wp_resetSession {Q : Unit → St → Prop} :
    resetSession.wp calls Q E s ↔ Q () (s.setOwn { s.own with reset := true }) := wp_modifyOwn

@[simp] theorem wp_sessionGet {key : String} {Q : String → St → Prop} :
    (sessionGet key).wp calls Q E s ↔
      (∀ v, s.own.session.find key = some v → Q v s) ∧
        (s.own.session.find key = none → E .sessionKey s) := by
  simp only [sessionGet, Prog.wp_bind, wp_getOwn]
  cases s.own.session.find key <;> simp

theorem wp_sessionGetInt {key : String} {Q : Int → St → Prop} :
    (sessionGetInt key).wp calls Q E s ↔
      match (s.own.session.find key).bind Text.readInt? with
      | some i => Q i s
      | none => E .sessionKey s := by
  simp only [sessionGetInt, Prog.wp_bind, wp_sessionGet]
  cases s.own.session.find key with
  | none => simp
  | some v => cases h : Text.readInt? v <;> simp [h]

@[simp] theorem wp_modifyResponse {f : Response → Response} {Q : Unit → St → Prop} :
    (modifyResponse f).wp calls Q E s ↔
      Q () (s.setOwn { s.own with response := f s.own.response }) := wp_modifyOwn

@[simp] theorem wp_write {out : Output} {Q : Unit → St → Prop} :
    (write out).wp calls Q E s ↔
      Q () (s.setOwn { s.own with
        response := { s.own.response with body := s.own.response.body ++ [out] } }) := wp_modifyOwn

@[simp] theorem wp_makeErrorResponse {status : Nat} {Q : Unit → St → Prop} :
    (makeErrorResponse status).wp calls Q E s ↔
      Q () (s.setOwn { s.own with
        response := { s.own.response with
          status := status, body := s.own.response.body ++ [.error status] } }) := wp_modifyOwn

@[simp] theorem wp_setRedirectHeader {location : String} {Q : Unit → St → Prop} :
    (setRedirectHeader location).wp calls Q E s ↔
      Q () (s.setOwn { s.own with
        response := { s.own.response with location := some location, status := 302 } }) :=
  wp_modifyOwn

@[simp] theorem wp_rise {t : String} {Q : Unit → St → Prop} :
    (rise t).wp calls Q E s ↔ Q () (s.setCache (s.cache.rise t)) := wp_cache

/-- Loading a form: the check of the origin, then the data. -/
theorem wp_loadForm {φ : Type} (e : Env) (load : List (String × String) → φ) {Q : φ → St → Prop} :
    (loadForm e load).wp calls Q E s ↔
      if forged e s.own then E .forgery (s.setOwn { s.own with csrfChecked := true })
      else Q (load e.req.postOrGet) (s.setOwn { s.own with csrfChecked := true }) := by
  simp only [loadForm, validateRequestOrigin, Prog.wp_bind, wp_own, Prog.wp_ret]
  cases forged e s.own <;> simp

end

/-! ## The server runs what the model covers -/

/-- A running request as the model sees it. -/
def viewOf (m : Shared × Local) : St where
  db := m.1.db
  tx := m.2.tx
  cache := m.1.cache
  files := m.1.files
  own := m.2.own

theorem viewOf_fault (s : Shared) (l : Local) : viewOf (s, l.fault.2) = viewOf (s, l) := rfl

theorem viewOf_put (s : Shared) (l : Local) (d : Db) :
    viewOf (put s l.fault.2 d) = (viewOf (s, l)).put d := by
  cases h : l.tx <;> simp [put, Local.fault, viewOf, St.put, h]

theorem outcome_handle {β : Type} (o : Sig β) (m : Shared × Local) :
    Outcome o (viewOf m) (handle o m).1 (viewOf (handle o m).2) := by
  obtain ⟨s, l⟩ := m
  cases o with
  | query f =>
      by_cases h : l.fault.1 = true
      · simp only [handle, h, if_true]
        exact ⟨rfl, Or.inl rfl⟩
      · simp only [handle, h]
        exact ⟨rfl, Or.inr rfl⟩
  | exec f =>
      by_cases h : l.fault.1 = true
      · simp only [handle, h, if_true]
        exact Or.inl ⟨rfl, rfl⟩
      · cases hf : f (l.current s) with
        | error err =>
            simp only [handle, h, hf]
            exact Or.inr (Or.inl ⟨err, hf, rfl, rfl⟩)
        | ok d =>
            simp only [handle, h, hf]
            exact Or.inr (Or.inr ⟨d, hf, rfl, viewOf_put s l d⟩)
  | begin =>
      by_cases h : l.fault.1 = true
      · simp only [handle, h, if_true]
        exact Or.inl ⟨rfl, rfl⟩
      · simp only [handle, h]
        exact Or.inr ⟨rfl, rfl⟩
  | commit =>
      by_cases h : l.fault.1 = true
      · simp only [handle, h, if_true]
        exact Or.inl ⟨rfl, rfl⟩
      · simp only [handle, h]
        exact Or.inr ⟨rfl, rfl⟩
  | rollback => exact ⟨rfl, rfl⟩
  | cache f => exact ⟨rfl, rfl⟩
  | files f => exact ⟨rfl, rfl⟩
  | own f => exact ⟨rfl, rfl⟩

/-- The state in which the handler of a request starts. -/
def World.start (w : World) (a : Arrival) : St where
  db := w.shared.db
  tx := none
  cache := w.shared.cache
  files := w.shared.files
  own := Own.load (w.session a.req.sid)

/-- **What the model proves of the handler holds of every request the server serves.** -/
theorem ends_outcome {site : Site} {a : Arrival} {w : World} {Q : Unit → St → Prop}
    {E : Error → St → Prop} (h : (main (site.env a)).wp calls Q E (w.start a)) :
    Prog.Ends Q E (outcome site a w).1 (viewOf (outcome site a w).2) :=
  Prog.wp_run (M := calls) handle viewOf (fun o c => outcome_handle o c) h

end CppBlog
