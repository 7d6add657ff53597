import CppBlog.Calls
import CppBlog.Execution

set_option autoImplicit false

/-! # Execution without failures

When no call to the database fails, an execution is determined by the state it starts from. `sure` is
that model: what it says of a handler is what the handler does, and two of its executions can be
compared. -/

namespace CppBlog

open Effect Store App

/-- Each operation as it is carried out when no call to the database fails. -/
def handleSurely {β : Type} (o : Sig β) (s : St) : Except Error β × St :=
  match o with
  | .query f => (.ok (f s.current), s)
  | .exec f =>
      match f s.current with
      | .error err => (.error (.sql err), s)
      | .ok d => (.ok (), s.put d)
  | .begin => (.ok (), { s with tx := some s.db })
  | .commit => (.ok (), { s with db := s.current, tx := none })
  | .rollback => (.ok (), { s with tx := none })
  | .cache f => (.ok (f s.cache).1, s.setCache (f s.cache).2)
  | .files f => (.ok (f s.files).1, { s with files := (f s.files).2 })
  | .own f => (.ok (f s.own).1, s.setOwn (f s.own).2)

def sure : Model Sig Error St := Prog.exact handleSurely

/-- How a handler ends and what it leaves when no call to the database fails. -/
def runSurely {α : Type} (p : App α) (s : St) : Except Error α × St := p.run handleSurely s

namespace Sure

variable {α β : Type} {E : Error → St → Prop} {s : St}

theorem wp_iff {p : App α} {Q : α → St → Prop} :
    p.wp sure Q E s ↔ Prog.Ends Q E (runSurely p s).1 (runSurely p s).2 := Prog.wp_exact

theorem wp_perform {o : Sig β} {Q : β → St → Prop} :
    (Prog.perform o : App β).wp sure Q E s ↔
      Prog.Ends Q E (handleSurely o s).1 (handleSurely o s).2 := by
  rw [sure, Prog.wp_exact, Prog.perform, Prog.run_op]
  cases (handleSurely o s).1 <;> rfl

theorem wp_query {f : Db → β} {Q : β → St → Prop} :
    (query f).wp sure Q E s ↔ Q (f s.current) s := wp_perform

theorem wp_exec {f : Db → Except SqlError Db} {Q : Unit → St → Prop} :
    (exec f).wp sure Q E s ↔
      match f s.current with
      | .error err => E (.sql err) s
      | .ok d => Q () (s.put d) := by
  refine wp_perform.trans ?_
  cases hf : f s.current <;> simp [handleSurely, hf, Prog.Ends]

theorem wp_execTotal {f : Db → Db} {Q : Unit → St → Prop} :
    (execTotal f).wp sure Q E s ↔ Q () (s.put (f s.current)) := wp_exec

theorem wp_commit {Q : Unit → St → Prop} :
    commit.wp sure Q E s ↔ Q () { s with db := s.current, tx := none } := wp_perform

theorem wp_transaction {body : App α} {Q : α → St → Prop} :
    (transaction body).wp sure Q E s ↔
      body.wp sure (fun a s' => Q a { s' with tx := none }) (fun e s' => E e { s' with tx := none })
        { s with tx := some s.db } := by
  simp only [transaction, Prog.wp_bind, Prog.wp_ensure, wp_perform]
  rfl

theorem wp_cache {f : Cache → β × Cache} {Q : β → St → Prop} :
    (cache f).wp sure Q E s ↔ Q (f s.cache).1 (s.setCache (f s.cache).2) := wp_perform

theorem wp_own {f : Own → β × Own} {Q : β → St → Prop} :
    (Prog.perform (.own f) : App β).wp sure Q E s ↔ Q (f s.own).1 (s.setOwn (f s.own).2) := wp_perform

theorem wp_getOwn {f : Own → β} {Q : β → St → Prop} :
    (getOwn f).wp sure Q E s ↔ Q (f s.own) s := wp_perform

theorem wp_modifyOwn {f : Own → Own} {Q : Unit → St → Prop} :
    (modifyOwn f).wp sure Q E s ↔ Q () (s.setOwn (f s.own)) := wp_perform

theorem wp_modifyResponse {f : Response → Response} {Q : Unit → St → Prop} :
    (modifyResponse f).wp sure Q E s ↔
      Q () (s.setOwn { s.own with response := f s.own.response }) := wp_perform

theorem wp_rise {t : String} {Q : Unit → St → Prop} :
    (rise t).wp sure Q E s ↔ Q () (s.setCache (s.cache.rise t)) := wp_perform

theorem wp_loadForm {φ : Type} (e : Env) (load : List (String × String) → φ) {Q : φ → St → Prop} :
    (loadForm e load).wp sure Q E s ↔
      if forged e s.own then E .forgery (s.setOwn { s.own with csrfChecked := true })
      else Q (load e.req.postOrGet) (s.setOwn { s.own with csrfChecked := true }) := by
  simp only [loadForm, validateRequestOrigin, Prog.wp_bind, wp_own, Prog.wp_ret]
  cases forged e s.own <;> simp

theorem outcome_handleSurely (o : Sig β) (s : St) :
    Outcome o s (handleSurely o s).1 (handleSurely o s).2 := by
  cases o with
  | query f => exact ⟨rfl, .inr rfl⟩
  | exec f =>
    cases hf : f s.current with
    | error err =>
      simp only [handleSurely, hf]
      exact .inr (.inl ⟨err, hf, rfl, rfl⟩)
    | ok d =>
      simp only [handleSurely, hf]
      exact .inr (.inr ⟨d, hf, rfl, rfl⟩)
  | begin => exact .inr ⟨rfl, rfl⟩
  | commit => exact .inr ⟨rfl, rfl⟩
  | rollback => exact ⟨rfl, rfl⟩
  | cache f => exact ⟨rfl, rfl⟩
  | files f => exact ⟨rfl, rfl⟩
  | own f => exact ⟨rfl, rfl⟩

/-- What holds whatever fails holds when nothing does. -/
theorem wp_of_calls {p : App α} {Q : α → St → Prop} (h : p.wp calls Q E s) : p.wp sure Q E s :=
  wp_iff.2 (Prog.wp_run (M := calls) handleSurely id outcome_handleSurely h)

/-! ## Blocks of a transaction -/

/-- In a transaction whose copy of the tables is `d`, the program computes `g d`: it returns with that
    copy, or raises an exception where `g` refuses; nothing outside of the transaction changes. -/
def Computes (g : Db → Except SqlError (α × Db)) (p : App α) : Prop :=
  ∀ s d, s.tx = some d → p.wp sure
    (fun a s' => s'.db = s.db ∧ ∃ d', s'.tx = some d' ∧ g d = .ok (a, d'))
    (fun _ s' => s'.db = s.db ∧ ∃ err, g d = .error err) s

namespace Computes

theorem ret (a : α) : Computes (fun d => .ok (a, d)) (.ret a : App α) :=
  fun _ d hs => ⟨rfl, d, hs, rfl⟩

theorem rise (t : String) : Computes (fun d => .ok ((), d)) (App.rise t) :=
  fun _ d hs => wp_rise.2 ⟨rfl, d, hs, rfl⟩

theorem query (f : Db → α) : Computes (fun d => .ok (f d, d)) (App.query f) := by
  intro s d hs
  have hcur : s.current = d := by simp [St.current, hs]
  exact wp_query.2 ⟨rfl, d, hs, by rw [hcur]⟩

theorem exec (f : Db → Except SqlError Db) :
    Computes (fun d => (f d).map (fun d' => ((), d'))) (App.exec f) := by
  intro s d hs
  have hcur : s.current = d := by simp [St.current, hs]
  rw [wp_exec, hcur]
  cases hf : f d with
  | error err => exact ⟨rfl, err, by simp [hf, Except.map]⟩
  | ok d' =>
    simp only [St.put, hs]
    exact ⟨trivial, d', rfl, by simp [hf, Except.map]⟩

theorem execTotal (f : Db → Db) : Computes (fun d => .ok ((), f d)) (App.execTotal f) := exec _

theorem bind {g : Db → Except SqlError (α × Db)} {h : α → Db → Except SqlError (β × Db)} {p : App α}
    {k : α → App β} (hp : Computes g p) (hk : ∀ a, Computes (h a) (k a)) :
    Computes (fun d => (g d).bind (fun x => h x.1 x.2)) (p.bind k) := by
  intro s d hs
  refine Prog.wp_seq (hp s d hs) (fun a s' h' => ?_) (fun _ s' h' => ?_)
  · obtain ⟨hdb, d', hd', hg⟩ := h'
    refine Prog.wp_mono (fun b s'' h'' => ?_) (fun _ s'' h'' => ?_) (hk a s' d' hd')
    · exact ⟨h''.1.trans hdb, by simpa only [hg, Except.bind] using h''.2⟩
    · exact ⟨h''.1.trans hdb, by simpa only [hg, Except.bind] using h''.2⟩
  · obtain ⟨hdb, err, herr⟩ := h'
    exact ⟨hdb, err, by simp only [herr, Except.bind]⟩

theorem congr {g h : Db → Except SqlError (α × Db)} {p : App α} (hp : Computes g p)
    (hgh : ∀ d, g d = h d) : Computes h p := (funext hgh : g = h) ▸ hp

theorem ite {c : Prop} [Decidable c] {g h : Db → Except SqlError (α × Db)} {p q : App α}
    (hp : Computes g p) (hq : Computes h q) :
    Computes (fun d => if c then g d else h d) (if c then p else q) := by
  by_cases hc : c
  · simp only [hc, if_true]
    exact hp
  · simp only [hc, if_false]
    exact hq

end Computes

/-- A transaction that computes `g` and commits. -/
theorem wp_transaction_computes {g : Db → Except SqlError (Unit × Db)} {p : App Unit}
    (hp : Computes g p) (s : St) :
    (transaction (p.bind fun _ => commit)).wp sure
      (fun _ s' => s'.tx = none ∧ g s.db = .ok ((), s'.db))
      (fun _ s' => s'.tx = none ∧ s'.db = s.db ∧ ∃ err, g s.db = .error err) s := by
  rw [wp_transaction]
  refine Prog.wp_seq (hp { s with tx := some s.db } s.db rfl) (fun _ s' h => ?_) (fun _ s' h => ?_)
  · obtain ⟨-, d', hd', hg⟩ := h
    have hcur : s'.current = d' := by simp [St.current, hd']
    rw [wp_commit, hcur]
    exact ⟨rfl, hg⟩
  · exact ⟨rfl, h.1, h.2⟩

/-! ## The server without failures -/

theorem handle_of_calm {β : Type} (o : Sig β) (m : Shared × Local) (hm : m.2.faults = []) :
    (handle o m).1 = (handleSurely o (viewOf m)).1 ∧
      viewOf (handle o m).2 = (handleSurely o (viewOf m)).2 ∧ (handle o m).2.2.faults = [] := by
  obtain ⟨sh, l⟩ := m
  have hl : l.faults = [] := hm
  have hfault : l.fault = (false, l) := by
    cases l
    cases hl
    rfl
  cases o with
  | exec f =>
    cases hf : f (l.current sh) with
    | error err =>
      have hf' : f (viewOf (sh, l)).current = .error err := hf
      simp only [handle, hfault, hf, handleSurely, hf', Bool.false_eq_true, if_false]
      exact ⟨trivial, trivial, hl⟩
    | ok d =>
      have hf' : f (viewOf (sh, l)).current = .ok d := hf
      simp only [handle, hfault, hf, handleSurely, hf', Bool.false_eq_true, if_false]
      have hput := viewOf_put sh l d
      rw [hfault] at hput
      refine ⟨trivial, hput, ?_⟩
      unfold put
      split <;> exact hl
  | query f => simp only [handle, hfault, Bool.false_eq_true, if_false]; exact ⟨rfl, rfl, hl⟩
  | begin => simp only [handle, hfault, Bool.false_eq_true, if_false]; exact ⟨rfl, rfl, hl⟩
  | commit => simp only [handle, hfault, Bool.false_eq_true, if_false]; exact ⟨rfl, rfl, hl⟩
  | rollback => exact ⟨rfl, rfl, hl⟩
  | cache f => exact ⟨rfl, rfl, hl⟩
  | files f => exact ⟨rfl, rfl, hl⟩
  | own f => exact ⟨rfl, rfl, hl⟩

/-- A request that meets no failure is executed surely. -/
theorem run_of_calm (p : App α) (m : Shared × Local) (hm : m.2.faults = []) :
    (p.run handle m).1 = (runSurely p (viewOf m)).1 ∧
      viewOf (p.run handle m).2 = (runSurely p (viewOf m)).2 := by
  induction p generalizing m with
  | ret a => exact ⟨rfl, rfl⟩
  | throw e => exact ⟨rfl, rfl⟩
  | op o k ih =>
    obtain ⟨hr, hview, hfaults⟩ := handle_of_calm o m hm
    rw [runSurely, Prog.run_op, Prog.run_op, ← hr, ← hview]
    exact ih _ _ hfaults

end Sure

/-- What is said of a request that meets no failure holds of how the server serves it. -/
theorem ends_outcome_sure {site : Site} {a : Arrival} {w : World} (hcalm : a.chance.faults = [])
    {Q : Unit → St → Prop} {E : Error → St → Prop} (h : (main (site.env a)).wp sure Q E (w.start a)) :
    Prog.Ends Q E (outcome site a w).1 (viewOf (outcome site a w).2) := by
  have hrun := Sure.run_of_calm (main (site.env a))
    (w.shared, { own := Own.load (w.session a.req.sid), faults := a.chance.faults }) hcalm
  have hends := Sure.wp_iff.1 h
  have h₁ : (outcome site a w).1 = (runSurely (main (site.env a)) (w.start a)).1 := hrun.1
  have h₂ : viewOf (outcome site a w).2 = (runSurely (main (site.env a)) (w.start a)).2 := hrun.2
  rw [h₁, h₂]
  exact hends

end CppBlog
