import Mathlib.Logic.Basic
import Mathlib.Tactic.Common

set_option autoImplicit false

/-! # Programs as trees of atomic steps

A `Prog Sig ε α` is a finite tree: it stops with a value or an exception, or it asks for one atomic
operation of the signature `Sig` and continues with what the operation answered. One tree is read in
several ways: executed from a state (`Prog.run`), reasoned about over every possible answer
(`Prog.wp`, in `Logic.lean`), or stepped in turn with other trees (`Threads.lean`). Operations may
fail, so the continuation takes an `Except`; an exception handler is then an ordinary tree
transformer (`Prog.attempt`). -/

namespace Effect

/-- A program over the operations `Sig`, raising exceptions of type `ε`. -/
inductive Prog (Sig : Type → Type 1) (ε α : Type) : Type 1 where
  | ret (a : α)
  | throw (e : ε)
  | op {β : Type} (o : Sig β) (k : Except ε β → Prog Sig ε α)

namespace Prog

variable {Sig : Type → Type 1} {ε α β γ : Type}

/-- Sequencing: continue at every normal end, pass exceptions on. -/
def bind (p : Prog Sig ε α) (f : α → Prog Sig ε β) : Prog Sig ε β :=
  match p with
  | .ret a => f a
  | .throw e => .throw e
  | .op o k => .op o (fun r => (k r).bind f)

instance : Monad (Prog Sig ε) where
  pure := .ret
  bind := .bind

/-- Ask for one operation; a failure of the operation is raised as an exception. -/
def perform (o : Sig β) : Prog Sig ε β :=
  .op o (fun r => match r with | .ok b => .ret b | .error e => .throw e)

/-- Run a program to its end and hand out how it ended. -/
def attempt : Prog Sig ε α → Prog Sig ε (Except ε α)
  | .ret a => .ret (.ok a)
  | .throw e => .ret (.error e)
  | .op o k => .op o (fun r => (k r).attempt)

/-- End as a recorded outcome says. -/
def ofExcept : Except ε α → Prog Sig ε α
  | .ok a => .ret a
  | .error e => .throw e

/-- Handle the exceptions of `p`. -/
def tryCatch (p : Prog Sig ε α) (h : ε → Prog Sig ε α) : Prog Sig ε α :=
  p.attempt.bind (fun r => match r with | .ok a => .ret a | .error e => h e)

/-- Run `fin` when `p` is left, normally or by an exception (a destructor in the source). -/
def ensure (p : Prog Sig ε α) (fin : Prog Sig ε Unit) : Prog Sig ε α :=
  p.attempt.bind (fun r => fin.bind (fun _ => ofExcept r))

/-- Run `f` on every element of a list, in order. -/
def each (f : α → Prog Sig ε Unit) : List α → Prog Sig ε Unit
  | [] => .ret ()
  | a :: l => (f a).bind (fun _ => each f l)

@[simp] theorem pure_eq (a : α) : (pure a : Prog Sig ε α) = .ret a := rfl

@[simp] theorem bind_eq (p : Prog Sig ε α) (f : α → Prog Sig ε β) : p >>= f = p.bind f := rfl

@[simp] theorem ret_bind (a : α) (f : α → Prog Sig ε β) : (ret a).bind f = f a := rfl

@[simp] theorem throw_bind (e : ε) (f : α → Prog Sig ε β) :
    (throw e : Prog Sig ε α).bind f = .throw e := rfl

@[simp] theorem op_bind (o : Sig γ) (k : Except ε γ → Prog Sig ε α) (f : α → Prog Sig ε β) :
    (op o k).bind f = .op o (fun r => (k r).bind f) := rfl

@[simp] theorem bind_ret (p : Prog Sig ε α) : p.bind .ret = p := by
  induction p with
  | ret a => rfl
  | throw e => rfl
  | op o k ih => simp only [op_bind, ih]

@[simp] theorem bind_assoc (p : Prog Sig ε α) (f : α → Prog Sig ε β) (g : β → Prog Sig ε γ) :
    (p.bind f).bind g = p.bind (fun a => (f a).bind g) := by
  induction p with
  | ret a => rfl
  | throw e => rfl
  | op o k ih => simp only [op_bind, ih]

/-! ## Execution -/

variable {S : Type}

/-- Execute a program from a state, given what each operation does to the state. -/
def run (handle : ∀ {β : Type}, Sig β → S → Except ε β × S) :
    Prog Sig ε α → S → Except ε α × S
  | .ret a, s => (.ok a, s)
  | .throw e, s => (.error e, s)
  | .op o k, s => (k (handle o s).1).run handle (handle o s).2

section
variable (handle : ∀ {β : Type}, Sig β → S → Except ε β × S)

@[simp] theorem run_ret (a : α) (s : S) : (ret a : Prog Sig ε α).run handle s = (.ok a, s) := rfl

@[simp] theorem run_throw (e : ε) (s : S) :
    (throw e : Prog Sig ε α).run handle s = (.error e, s) := rfl

@[simp] theorem run_op (o : Sig β) (k : Except ε β → Prog Sig ε α) (s : S) :
    (op o k).run handle s = (k (handle o s).1).run handle (handle o s).2 := rfl

theorem run_bind (p : Prog Sig ε α) (f : α → Prog Sig ε β) (s : S) :
    (p.bind f).run handle s =
      match p.run handle s with
      | (.ok a, s') => (f a).run handle s'
      | (.error e, s') => (.error e, s') := by
  induction p generalizing s with
  | ret a => rfl
  | throw e => rfl
  | op o k ih => simp only [op_bind, run_op, ih]

end

end Prog

end Effect
