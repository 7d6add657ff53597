import CppBlog.Effect.Prog
import Mathlib.Order.Defs.Unbundled

set_option autoImplicit false

/-! # Preconditions over every outcome of the operations

A `Model` says, for each operation and state, which answers are possible and which states may follow
(an operation may fail, be answered by the environment, or be deterministic). `p.wp M Q E s` holds
when every execution of `p` from `s` that `M` allows either returns as `Q` demands or raises as `E`
demands. The rules compose: the `wp` of a sequence is a `wp` of a `wp`, and postconditions may be
weakened.

A model may be coarser than the machine it speaks about (it keeps only the part of the state a
property needs and leaves the rest to the environment); `wp_run` transfers what it proves to any
executable interpretation whose operations it covers. -/

namespace Effect

/-- What the operations of a signature may answer and do to a state of type `S`. -/
structure Model (Sig : Type → Type 1) (ε S : Type) where
  outcome : ∀ {β : Type}, Sig β → S → Except ε β → S → Prop

namespace Prog

variable {Sig : Type → Type 1} {ε α β γ S : Type}

/-- Every execution of `p` from `s` that `M` allows returns as `Q` demands or raises as `E` demands. -/
def wp (M : Model Sig ε S) : Prog Sig ε α → (α → S → Prop) → (ε → S → Prop) → S → Prop
  | .ret a, Q, _, s => Q a s
  | .throw e, _, E, s => E e s
  | .op o k, Q, E, s => ∀ r s', M.outcome o s r s' → (k r).wp M Q E s'

/-- However `p` ends, it ends in a state that `R` relates to the one it started from. -/
def Within (M : Model Sig ε S) (R : S → S → Prop) (p : Prog Sig ε α) : Prop :=
  ∀ s, p.wp M (fun _ s' => R s s') (fun _ s' => R s s') s

section
variable {M : Model Sig ε S}

@[simp] theorem wp_ret (a : α) (Q : α → S → Prop) (E : ε → S → Prop) (s : S) :
    (ret a : Prog Sig ε α).wp M Q E s ↔ Q a s := Iff.rfl

@[simp] theorem wp_throw (e : ε) (Q : α → S → Prop) (E : ε → S → Prop) (s : S) :
    (throw e : Prog Sig ε α).wp M Q E s ↔ E e s := Iff.rfl

@[simp] theorem wp_op (o : Sig β) (k : Except ε β → Prog Sig ε α) (Q : α → S → Prop)
    (E : ε → S → Prop) (s : S) :
    (op o k).wp M Q E s ↔ ∀ r s', M.outcome o s r s' → (k r).wp M Q E s' := Iff.rfl

theorem wp_mono {p : Prog Sig ε α} {Q Q' : α → S → Prop} {E E' : ε → S → Prop}
    (hQ : ∀ a s, Q a s → Q' a s) (hE : ∀ e s, E e s → E' e s) {s : S} (h : p.wp M Q E s) :
    p.wp M Q' E' s := by
  induction p generalizing s with
  | ret a => exact hQ _ _ h
  | throw e => exact hE _ _ h
  | op o k ih => exact fun r s' ho => ih r (h r s' ho)

/-- Two specs of one program hold together. -/
theorem wp_and {p : Prog Sig ε α} {Q Q' : α → S → Prop} {E E' : ε → S → Prop} {s : S}
    (h : p.wp M Q E s) (h' : p.wp M Q' E' s) :
    p.wp M (fun a s => Q a s ∧ Q' a s) (fun e s => E e s ∧ E' e s) s := by
  induction p generalizing s with
  | ret a => exact ⟨h, h'⟩
  | throw e => exact ⟨h, h'⟩
  | op o k ih => exact fun r s' ho => ih r (h r s' ho) (h' r s' ho)

/-- Postconditions that always hold. -/
theorem wp_of_forall {p : Prog Sig ε α} {Q : α → S → Prop} {E : ε → S → Prop}
    (hQ : ∀ a s, Q a s) (hE : ∀ e s, E e s) (s : S) : p.wp M Q E s := by
  induction p generalizing s with
  | ret a => exact hQ a s
  | throw e => exact hE e s
  | op o k ih => exact fun r s' _ => ih r s'

@[simp] theorem wp_bind (p : Prog Sig ε α) (f : α → Prog Sig ε β) (Q : β → S → Prop)
    (E : ε → S → Prop) (s : S) :
    (p.bind f).wp M Q E s ↔ p.wp M (fun a s' => (f a).wp M Q E s') E s := by
  induction p generalizing s with
  | ret a => rfl
  | throw e => rfl
  | op o k ih => simp only [op_bind, wp_op, ih]

/-- Sequencing with a spec of the first part in hand. -/
theorem wp_seq {p : Prog Sig ε α} {f : α → Prog Sig ε β} {Q : β → S → Prop} {E E' : ε → S → Prop}
    {R : α → S → Prop} {s : S} (hp : p.wp M R E' s) (hf : ∀ a s', R a s' → (f a).wp M Q E s')
    (hE : ∀ e s', E' e s' → E e s') : (p.bind f).wp M Q E s :=
  (wp_bind p f Q E s).2 (wp_mono hf hE hp)

theorem wp_attempt (p : Prog Sig ε α) (Q : Except ε α → S → Prop) (E : ε → S → Prop) (s : S) :
    p.attempt.wp M Q E s ↔ p.wp M (fun a => Q (.ok a)) (fun e => Q (.error e)) s := by
  induction p generalizing s with
  | ret a => rfl
  | throw e => rfl
  | op o k ih => simp only [attempt, wp_op, ih]

@[simp] theorem wp_tryCatch (p : Prog Sig ε α) (h : ε → Prog Sig ε α) (Q : α → S → Prop)
    (E : ε → S → Prop) (s : S) :
    (p.tryCatch h).wp M Q E s ↔ p.wp M Q (fun e s' => (h e).wp M Q E s') s := by
  rw [tryCatch, wp_bind, wp_attempt]
  rfl

@[simp] theorem wp_ensure (p : Prog Sig ε α) (fin : Prog Sig ε Unit) (Q : α → S → Prop)
    (E : ε → S → Prop) (s : S) :
    (p.ensure fin).wp M Q E s ↔
      p.wp M (fun a s' => fin.wp M (fun _ => Q a) E s')
        (fun e s' => fin.wp M (fun _ => E e) E s') s := by
  simp only [ensure, wp_bind, wp_attempt]
  rfl

/-- Asking for one operation. -/
theorem wp_perform (o : Sig β) (Q : β → S → Prop) (E : ε → S → Prop) (s : S) :
    (perform o : Prog Sig ε β).wp M Q E s ↔
      (∀ b s', M.outcome o s (.ok b) s' → Q b s') ∧
        ∀ e s', M.outcome o s (.error e) s' → E e s' := by
  simp only [perform, wp_op]
  constructor
  · exact fun h => ⟨fun b s' => h (.ok b) s', fun e s' => h (.error e) s'⟩
  · rintro ⟨hok, herr⟩ r s' ho
    cases r with
    | ok b => exact hok b s' ho
    | error e => exact herr e s' ho

/-- The rule for a loop: what holds of the state is known for every element that is left. -/
theorem wp_each {f : α → Prog Sig ε Unit} {I : List α → S → Prop} {E : ε → S → Prop}
    (hstep : ∀ a l s, I (a :: l) s → (f a).wp M (fun _ => I l) E s) {l : List α} {s : S}
    (h : I l s) : (each f l).wp M (fun _ => I []) E s := by
  induction l generalizing s with
  | nil => exact h
  | cons a l ih => exact wp_seq (hstep a l s h) (fun _ s' h' => ih h') (fun _ _ h' => h')

/-! ## What a program raises -/

/-- Whatever `p` raises satisfies `X`. -/
def Raises (M : Model Sig ε S) (X : ε → Prop) (p : Prog Sig ε α) : Prop :=
  ∀ s, p.wp M (fun _ _ => True) (fun e _ => X e) s

section
variable {X : ε → Prop}

theorem Raises.ret (a : α) : (Prog.ret a : Prog Sig ε α).Raises M X := fun _ => trivial

theorem Raises.throw {e : ε} (he : X e) : (Prog.throw e : Prog Sig ε α).Raises M X := fun _ => he

theorem Raises.bind {p : Prog Sig ε α} {f : α → Prog Sig ε β} (hp : p.Raises M X)
    (hf : ∀ a, (f a).Raises M X) : (p.bind f).Raises M X :=
  fun s => wp_seq (hp s) (fun a s' _ => hf a s') (fun _ _ h => h)

theorem Raises.ite {c : Prop} [Decidable c] {p q : Prog Sig ε α} (hp : p.Raises M X)
    (hq : q.Raises M X) : (if c then p else q).Raises M X := by
  split
  · exact hp
  · exact hq

theorem Raises.each {f : α → Prog Sig ε Unit} (hf : ∀ a, (f a).Raises M X) (l : List α) :
    (Prog.each f l).Raises M X := by
  induction l with
  | nil => exact Raises.ret ()
  | cons a l ih => exact (hf a).bind fun _ => ih

end

/-! ## Programs within a relation

Under a preorder `R` the rules follow the structure of the program. -/

section
variable {R : S → S → Prop}

theorem Within.mono {R' : S → S → Prop} {p : Prog Sig ε α} (hp : p.Within M R)
    (hR : ∀ s s', R s s' → R' s s') : p.Within M R' :=
  fun s => wp_mono (fun _ => hR s) (fun _ => hR s) (hp s)

/-- What holds along `R` holds after `p`. -/
theorem Within.wp {p : Prog Sig ε α} (hp : p.Within M R) {Q : α → S → Prop} {E : ε → S → Prop} {s : S}
    (hQ : ∀ a s', R s s' → Q a s') (hE : ∀ e s', R s s' → E e s') : p.wp M Q E s :=
  wp_mono hQ hE (hp s)

theorem Within.perform {o : Sig β} (ho : ∀ s r s', M.outcome o s r s' → R s s') :
    (Prog.perform o : Prog Sig ε β).Within M R :=
  fun s => (wp_perform o _ _ s).2 ⟨fun b s' => ho s (.ok b) s', fun e s' => ho s (.error e) s'⟩

theorem Within.attempt {p : Prog Sig ε α} (hp : p.Within M R) : p.attempt.Within M R :=
  fun s => (wp_attempt p _ _ s).2 (hp s)

theorem Within.ite {c : Prop} [Decidable c] {p q : Prog Sig ε α} (hp : p.Within M R)
    (hq : q.Within M R) : (if c then p else q).Within M R := by
  split
  · exact hp
  · exact hq

theorem Within.ret [Std.Refl R] (a : α) : (Prog.ret a : Prog Sig ε α).Within M R :=
  fun s => refl s

theorem Within.throw [Std.Refl R] (e : ε) : (Prog.throw e : Prog Sig ε α).Within M R :=
  fun s => refl s

/-- A program within a relation, started where the relation has already led. -/
theorem Within.after [IsTrans S R] {p : Prog Sig ε α} (hp : p.Within M R) {s s' : S} (h : R s s') :
    p.wp M (fun _ => R s) (fun _ => R s) s' :=
  hp.wp (fun _ s'' => IsTrans.trans s s' s'' h) (fun _ s'' => IsTrans.trans s s' s'' h)

theorem Within.bind [IsTrans S R] {p : Prog Sig ε α} {f : α → Prog Sig ε β} (hp : p.Within M R)
    (hf : ∀ a, (f a).Within M R) : (p.bind f).Within M R := by
  intro s
  exact wp_seq (hp s) (fun a s' h => (hf a).after h) (fun _ _ h => h)

theorem Within.each [Std.Refl R] [IsTrans S R] {f : α → Prog Sig ε Unit}
    (hf : ∀ a, (f a).Within M R) (l : List α) : (Prog.each f l).Within M R := by
  induction l with
  | nil => exact Within.ret ()
  | cons a l ih => exact (hf a).bind (fun _ => ih)

theorem Within.tryCatch [IsTrans S R] {p : Prog Sig ε α} {h : ε → Prog Sig ε α}
    (hp : p.Within M R) (hh : ∀ e, (h e).Within M R) : (p.tryCatch h).Within M R := by
  intro s
  rw [wp_tryCatch]
  exact wp_mono (fun _ _ h' => h') (fun e s' h' => (hh e).after h') (hp s)

end

/-! ## Programs that keep an invariant

Unlike `Within`, the invariant is assumed where the program starts, so it can justify what the program
reads; whatever is raised satisfies `X`. -/

/-- From a state in `I`, `p` ends in `I`, and what it raises satisfies `X`. -/
def Maintains (M : Model Sig ε S) (I : S → Prop) (X : ε → Prop) (p : Prog Sig ε α) : Prop :=
  ∀ s, I s → p.wp M (fun _ => I) (fun e s' => X e ∧ I s') s

section
variable {I : S → Prop} {X : ε → Prop}

theorem Maintains.ret (a : α) : (Prog.ret a : Prog Sig ε α).Maintains M I X := fun _ hs => hs

theorem Maintains.throw {e : ε} (he : X e) : (Prog.throw e : Prog Sig ε α).Maintains M I X :=
  fun _ hs => ⟨he, hs⟩

theorem Maintains.bind {p : Prog Sig ε α} {f : α → Prog Sig ε β} (hp : p.Maintains M I X)
    (hf : ∀ a, (f a).Maintains M I X) : (p.bind f).Maintains M I X :=
  fun s hs => wp_seq (hp s hs) (fun a s' hs' => hf a s' hs') (fun _ _ h => h)

theorem Maintains.ite {c : Prop} [Decidable c] {p q : Prog Sig ε α} (hp : p.Maintains M I X)
    (hq : q.Maintains M I X) : (if c then p else q).Maintains M I X := by
  split
  · exact hp
  · exact hq

theorem Maintains.each {f : α → Prog Sig ε Unit} (hf : ∀ a, (f a).Maintains M I X) (l : List α) :
    (Prog.each f l).Maintains M I X := by
  induction l with
  | nil => exact Maintains.ret ()
  | cons a l ih => exact (hf a).bind fun _ => ih

/-- A handler has to deal with what the body can raise only. -/
theorem Maintains.tryCatch {p : Prog Sig ε α} {h : ε → Prog Sig ε α} (hp : p.Maintains M I X)
    (hh : ∀ e, X e → (h e).Maintains M I X) : (p.tryCatch h).Maintains M I X := by
  intro s hs
  rw [wp_tryCatch]
  exact wp_mono (fun _ _ h' => h') (fun e s' h' => hh e h'.1 s' h'.2) (hp s hs)

/-- Whether the program keeps the invariant depends on the states in it only. -/
theorem Maintains.of_invariant {p : Prog Sig ε α}
    (h : ∀ s, I s → ∃ K : S → Prop, K s ∧ (∀ s', K s' → I s') ∧ p.Maintains M K X) :
    p.Maintains M I X := by
  intro s hs
  obtain ⟨K, hK, hKI, hp⟩ := h s hs
  exact wp_mono (fun _ s' => hKI s') (fun _ s' h' => ⟨h'.1, hKI s' h'.2⟩) (hp s hK)

end

end

/-! ## From a model to an executable interpretation -/

/-- How an execution ended, judged by a pair of postconditions. -/
def Ends (Q : α → S → Prop) (E : ε → S → Prop) : Except ε α → S → Prop
  | .ok a, s => Q a s
  | .error e, s => E e s

/-- One condition for both ways to end. -/
theorem Ends.of_both {P : S → Prop} {r : Except ε α} {s : S}
    (h : Ends (fun _ => P) (fun _ => P) r s) : P s := by
  cases r with
  | ok a => exact h
  | error e => exact h

/-- The model of an executable interpretation: each operation does what it does. -/
def exact {C : Type} (handle : ∀ {β : Type}, Sig β → C → Except ε β × C) : Model Sig ε C :=
  ⟨fun o c r c' => r = (handle o c).1 ∧ c' = (handle o c).2⟩

/-- Preconditions over the exact model speak of the execution. -/
theorem wp_exact {C : Type} {handle : ∀ {β : Type}, Sig β → C → Except ε β × C}
    {p : Prog Sig ε α} {Q : α → C → Prop} {E : ε → C → Prop} {c : C} :
    p.wp (exact handle) Q E c ↔ Ends Q E (p.run handle c).1 (p.run handle c).2 := by
  induction p generalizing c with
  | ret a => rfl
  | throw e => rfl
  | op o k ih =>
      rw [wp_op, run_op, ← ih]
      constructor
      · exact fun h => h _ _ ⟨rfl, rfl⟩
      · rintro h _ _ ⟨rfl, rfl⟩
        exact h

/-- Whatever a model proves of a program holds of every execution whose operations the model covers,
    seen through `view`. -/
theorem wp_run {C : Type} {M : Model Sig ε S}
    (handle : ∀ {β : Type}, Sig β → C → Except ε β × C) (view : C → S)
    (hcover : ∀ {β : Type} (o : Sig β) (c : C),
      M.outcome o (view c) (handle o c).1 (view (handle o c).2))
    {p : Prog Sig ε α} {Q : α → S → Prop} {E : ε → S → Prop} {c : C} (h : p.wp M Q E (view c)) :
    Ends Q E (p.run handle c).1 (view (p.run handle c).2) := by
  induction p generalizing c with
  | ret a => exact h
  | throw e => exact h
  | op o k ih => exact ih _ (h _ _ (hcover o c))

end Prog

end Effect
