import CppBlog.Effect.Logic

set_option autoImplicit false

/-! # The operations a program can ask for

`p.Every P` holds when each operation of the tree `p` satisfies `P`, whatever the operations before it
answered: a property of the text of a program, not of one execution. An invariant that such operations
keep is kept by every execution. -/

namespace Effect.Prog

variable {Sig : Type → Type 1} {ε α β S : Type}

/-- Every operation of the tree satisfies `P`. -/
def Every (P : (γ : Type) → Sig γ → Prop) : Prog Sig ε α → Prop
  | .ret _ => True
  | .throw _ => True
  | .op o k => P _ o ∧ ∀ r, (k r).Every P

namespace Every

variable {P : (γ : Type) → Sig γ → Prop}

theorem ret (a : α) : (Prog.ret a : Prog Sig ε α).Every P := trivial

theorem throw (e : ε) : (Prog.throw e : Prog Sig ε α).Every P := trivial

theorem perform {o : Sig β} (h : P β o) : (Prog.perform o : Prog Sig ε β).Every P :=
  ⟨h, fun r => by cases r <;> trivial⟩

theorem bind {p : Prog Sig ε α} {f : α → Prog Sig ε β} (hp : p.Every P) (hf : ∀ a, (f a).Every P) :
    (p.bind f).Every P := by
  induction p with
  | ret a => exact hf a
  | throw e => trivial
  | op o k ih => exact ⟨hp.1, fun r => ih r (hp.2 r)⟩

theorem attempt {p : Prog Sig ε α} (hp : p.Every P) : p.attempt.Every P := by
  induction p with
  | ret a => trivial
  | throw e => trivial
  | op o k ih => exact ⟨hp.1, fun r => ih r (hp.2 r)⟩

theorem ensure {p : Prog Sig ε α} {fin : Prog Sig ε Unit} (hp : p.Every P) (hfin : fin.Every P) :
    (p.ensure fin).Every P := by
  refine hp.attempt.bind fun r => hfin.bind fun _ => ?_
  cases r <;> trivial

theorem ite {c : Prop} [Decidable c] {p q : Prog Sig ε α} (hp : p.Every P) (hq : q.Every P) :
    (if c then p else q).Every P := by
  split
  · exact hp
  · exact hq

/-- What follows a program that came to its end. -/
theorem of_bind {handle : ∀ {β : Type}, Sig β → S → Except ε β × S} {p : Prog Sig ε α}
    {f : α → Prog Sig ε β} (h : (p.bind f).Every P) {s : S} {a : α} (hrun : (p.run handle s).1 = .ok a) :
    (f a).Every P := by
  induction p generalizing s with
  | ret b =>
      obtain rfl := Except.ok.inj hrun
      exact h
  | throw e => exact absurd hrun (by simp [Prog.run])
  | op o k ih => exact ih _ (h.2 _) hrun

/-- **An invariant of the operations is an invariant of the execution.** -/
theorem run {handle : ∀ {β : Type}, Sig β → S → Except ε β × S} {I : S → Prop}
    (hstep : ∀ {γ : Type} (o : Sig γ) (s : S), P γ o → I s → I (handle o s).2) {p : Prog Sig ε α}
    (hp : p.Every P) {s : S} (hs : I s) : I (p.run handle s).2 := by
  induction p generalizing s with
  | ret a => exact hs
  | throw e => exact hs
  | op o k ih => exact ih _ (hp.2 _) (hstep o s hp.1 hs)

/-- What the operations keep holds at the end of each execution a model allows. -/
theorem wp {M : Model Sig ε S} {I : S → Prop}
    (hstep : ∀ {γ : Type} (o : Sig γ) (s : S) (r : Except ε γ) (s' : S), P γ o → I s →
      M.outcome o s r s' → I s') {p : Prog Sig ε α} (hp : p.Every P) {s : S} (hs : I s) :
    p.wp M (fun _ => I) (fun _ => I) s := by
  induction p generalizing s with
  | ret a => exact hs
  | throw e => exact hs
  | op o k ih => exact fun r s' ho => ih r (hp.2 r) (hstep o s r s' hp.1 hs ho)

end Every

end Effect.Prog
