import CppBlog.Calls

set_option autoImplicit false

/-! # Execution, call by call

The rules of `Calls.lean` let any call to the database fail. Here the failures are those the request
really meets: `executed` is the model in which each operation does what `handle` does, so a
precondition over it says what an execution ends with, and a condition on the request's failures can be
part of it. -/

namespace CppBlog

open Effect Store App

/-- Each operation as `handle` executes it. -/
def executed : Model Sig Error (Shared × Local) := Prog.exact handle

/-- The next `n` calls to the database do not fail. -/
def Calm (n : Nat) (faults : List Bool) : Prop := ∀ b ∈ faults.take n, b = false

theorem calm_succ {n : Nat} {faults : List Bool} :
    Calm (n + 1) faults ↔ faults.headD false = false ∧ Calm n faults.tail := by
  cases faults with
  | nil => simp [Calm]
  | cons b faults => simp [Calm]

namespace Executed

variable {α β : Type} {E : Error → Shared × Local → Prop} {s : Shared} {l : Local}

theorem wp_perform {o : Sig β} {Q : β → Shared × Local → Prop} {m : Shared × Local} :
    (Prog.perform o : App β).wp executed Q E m ↔ Prog.Ends Q E (handle o m).1 (handle o m).2 := by
  rw [executed, Prog.wp_exact, Prog.perform, Prog.run_op]
  cases (handle o m).1 <;> rfl

theorem wp_query {f : Db → β} {Q : β → Shared × Local → Prop} :
    (query f).wp executed Q E (s, l) ↔
      if l.fault.1 then E (.sql .failed) (s, l.fault.2) else Q (f (l.current s)) (s, l.fault.2) := by
  rw [query, wp_perform]
  cases h : l.fault.1 <;> simp [handle, h, Prog.Ends]

theorem wp_exec {f : Db → Except SqlError Db} {Q : Unit → Shared × Local → Prop} :
    (exec f).wp executed Q E (s, l) ↔
      if l.fault.1 then E (.sql .failed) (s, l.fault.2)
      else match f (l.current s) with
        | .error err => E (.sql err) (s, l.fault.2)
        | .ok d => Q () (put s l.fault.2 d) := by
  rw [exec, wp_perform]
  cases h : l.fault.1
  · cases hf : f (l.current s) <;> simp [handle, h, hf, Prog.Ends]
  · simp [handle, h, Prog.Ends]

theorem wp_commit {Q : Unit → Shared × Local → Prop} :
    commit.wp executed Q E (s, l) ↔
      if l.fault.1 then E (.sql .failed) (s, l.fault.2)
      else Q () ({ s with db := l.current s }, { l.fault.2 with tx := none }) := by
  rw [commit, wp_perform]
  cases h : l.fault.1 <;> simp [handle, h, Prog.Ends]

theorem wp_transaction {body : App α} {Q : α → Shared × Local → Prop} :
    (transaction body).wp executed Q E (s, l) ↔
      if l.fault.1 then E (.sql .failed) (s, l.fault.2)
      else body.wp executed (fun a m => Q a (m.1, { m.2 with tx := none }))
        (fun e m => E e (m.1, { m.2 with tx := none })) (s, { l.fault.2 with tx := some s.db }) := by
  rw [transaction, Prog.wp_bind, wp_perform]
  cases h : l.fault.1
  · simp only [handle, h, Prog.Ends, Prog.wp_ensure, wp_perform, Bool.false_eq_true, if_false]
  · simp [handle, h, Prog.Ends]

theorem wp_own {f : Own → β × Own} {Q : β → Shared × Local → Prop} :
    (Prog.perform (.own f) : App β).wp executed Q E (s, l) ↔
      Q (f l.own).1 (s, { l with own := (f l.own).2 }) := wp_perform

theorem wp_getOwn {f : Own → β} {Q : β → Shared × Local → Prop} :
    (getOwn f).wp executed Q E (s, l) ↔ Q (f l.own) (s, l) := wp_own

theorem wp_modifyOwn {f : Own → Own} {Q : Unit → Shared × Local → Prop} :
    (modifyOwn f).wp executed Q E (s, l) ↔ Q () (s, { l with own := f l.own }) := wp_own

theorem wp_sessionGetInt {key : String} {Q : Int → Shared × Local → Prop} :
    (sessionGetInt key).wp executed Q E (s, l) ↔
      match (l.own.session.find key).bind Text.readInt? with
      | some i => Q i (s, l)
      | none => E .sessionKey (s, l) := by
  simp only [sessionGetInt, sessionGet, Prog.wp_bind, wp_getOwn]
  cases l.own.session.find key with
  | none => rfl
  | some v =>
      cases h : Text.readInt? v with
      | none => simp [h]
      | some i => simp [h]

theorem wp_loadForm {φ : Type} (e : Env) (load : List (String × String) → φ)
    {Q : φ → Shared × Local → Prop} :
    (loadForm e load).wp executed Q E (s, l) ↔
      if forged e l.own then E .forgery (s, { l with own := { l.own with csrfChecked := true } })
      else Q (load e.req.postOrGet) (s, { l with own := { l.own with csrfChecked := true } }) := by
  simp only [loadForm, validateRequestOrigin, Prog.wp_bind, wp_own, Prog.wp_ret]
  cases forged e l.own <;> simp

/-- What the rules of `calls` say holds of the execution. -/
theorem wp_of_calls {p : App α} {Q : α → St → Prop} {X : Error → St → Prop} {m : Shared × Local}
    (h : p.wp calls Q X (viewOf m)) :
    p.wp executed (fun a m' => Q a (viewOf m')) (fun err m' => X err (viewOf m')) m := by
  rw [executed, Prog.wp_exact]
  have hends := Prog.wp_run (M := calls) handle viewOf (fun o c => outcome_handle o c) h
  revert hends
  cases (p.run handle m).1 <;> exact id

theorem wp_setRedirectHeader {location : String} {P : Shared → Prop} (h : P s) :
    (setRedirectHeader location).wp executed (fun _ m => P m.1) (fun _ m => P m.1) (s, l) :=
  wp_modifyOwn.2 h

/-! ## Blocks of statements -/

/-- In a transaction, with its last call a commit, the block commits what `f` computes from the
    transaction's tables if none of its `n` calls fails and `f` has a result; otherwise it raises an
    exception and commits nothing. -/
def Block (n : Nat) (f : Db → Except SqlError Db) (p : App Unit) : Prop :=
  ∀ s l d, l.tx = some d → p.wp executed
    (fun _ m => Calm n l.faults ∧ ∃ d', f d = .ok d' ∧ m.1 = { s with db := d' })
    (fun _ m => m.1 = s ∧ ¬(Calm n l.faults ∧ ∃ d', f d = .ok d')) (s, l)

theorem Block.congr {n : Nat} {f g : Db → Except SqlError Db} {p : App Unit} (hp : Block n f p)
    (h : ∀ d, f d = g d) : Block n g p := (funext h : f = g) ▸ hp

theorem Block.commit : Block 1 .ok App.commit := by
  intro s l d hl
  rw [wp_commit]
  have hcur : l.current s = d := by simp [Local.current, hl]
  split
  · next h =>
      refine ⟨rfl, fun hc => ?_⟩
      exact absurd (calm_succ.1 hc.1).1 (by simpa [Local.fault] using h)
  · next h =>
      refine ⟨calm_succ.2 ⟨by simpa [Local.fault] using h, by simp [Calm]⟩, d, rfl, by rw [hcur]⟩

theorem Block.exec {n : Nat} {f g : Db → Except SqlError Db} {p : App Unit} (hp : Block n g p) :
    Block (n + 1) (fun d => (f d).bind g) ((App.exec f).bind fun _ => p) := by
  intro s l d hl
  have hcur : l.current s = d := by simp [Local.current, hl]
  rw [Prog.wp_bind, wp_exec, hcur]
  split
  · next h =>
      refine ⟨rfl, fun hc => ?_⟩
      exact absurd (calm_succ.1 hc.1).1 (by simpa [Local.fault] using h)
  · next h =>
      have hhead : l.faults.headD false = false := by simpa [Local.fault] using h
      cases hf : f d with
      | error err => exact ⟨rfl, fun hc => by simp [hf, Except.bind] at hc⟩
      | ok d₁ =>
          have hbind : (f d).bind g = g d₁ := by rw [hf]; rfl
          have hput : put s l.fault.2 d₁ = (s, { l.fault.2 with tx := some d₁ }) := by
            simp [put, Local.fault, hl]
          simp only [hput]
          refine Prog.wp_mono (fun _ m h => ?_) (fun _ m h => ?_)
            (hp s { l.fault.2 with tx := some d₁ } d₁ rfl)
          · exact ⟨calm_succ.2 ⟨hhead, h.1⟩, hbind ▸ h.2⟩
          · exact ⟨h.1, fun hc => h.2 ⟨(calm_succ.1 hc.1).2, hbind ▸ hc.2⟩⟩

/-- A transaction around such a block. -/
theorem wp_transaction_block {n : Nat} {f : Db → Except SqlError Db} {p : App Unit}
    (hp : Block n f p) (s : Shared) (l : Local) :
    (App.transaction p).wp executed
      (fun _ m => Calm (n + 1) l.faults ∧ ∃ d', f s.db = .ok d' ∧ m.1 = { s with db := d' })
      (fun _ m => m.1 = s ∧ ¬(Calm (n + 1) l.faults ∧ ∃ d', f s.db = .ok d')) (s, l) := by
  rw [wp_transaction]
  split
  · next h =>
      refine ⟨rfl, fun hc => ?_⟩
      exact absurd (calm_succ.1 hc.1).1 (by simpa [Local.fault] using h)
  · next h =>
      have hhead : l.faults.headD false = false := by simpa [Local.fault] using h
      refine Prog.wp_mono (fun _ m h => ?_) (fun _ m h => ?_)
        (hp s { l.fault.2 with tx := some s.db } s.db rfl)
      · exact ⟨calm_succ.2 ⟨hhead, h.1⟩, h.2⟩
      · exact ⟨h.1, fun hc => h.2 ⟨(calm_succ.1 hc.1).2, hc.2⟩⟩

end Executed

/-- What holds however the execution of the handler ends holds of the request the server serves. -/
theorem outcome_of_executed {site : Site} {a : Arrival} {w : World} {P : Shared × Local → Prop}
    (h : (main (site.env a)).wp executed (fun _ => P) (fun _ => P)
      (w.shared, { own := Own.load (w.session a.req.sid), faults := a.chance.faults })) :
    P (outcome site a w).2 :=
  Prog.Ends.of_both (Prog.wp_exact.1 h)

end CppBlog
