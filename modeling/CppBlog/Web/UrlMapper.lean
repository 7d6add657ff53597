import Mathlib.Data.List.Basic
import Mathlib.Tactic.Common

set_option autoImplicit false

/-! # Nested URL mappers

An application registers patterns under keys, one for each number of parameters, and mounts other
applications under names, each with a pattern for what the mounted application makes. A key is looked
up along a path of names. What each key stands for is kept beside its pattern, so that a statement about
all keys of a tree follows from one about each application. -/

namespace Web

universe u

/-- A piece of a pattern: a text, or `{i}`. -/
inductive Seg where
  | text (s : String)
  | param (i : Nat)

/-- The pattern with its parameters, counted from 1, in place. -/
def fill (pattern : List Seg) (ps : List String) : String :=
  String.ofList (pattern.flatMap fun seg =>
    match seg with
    | .text s => s.toList
    | .param i => (ps.getD (i - 1) "").toList)

/-- How many parameters a pattern takes. -/
def arity (pattern : List Seg) : Nat :=
  pattern.foldl (fun n seg => match seg with | .text _ => n | .param i => max n i) 0

/-- A pattern under a key, and what the key stands for with each list of parameters. -/
structure Assigned (α : Type u) where
  key : String
  pattern : List Seg
  run : List Nat → α

/-- An application: its own patterns, and the applications mounted in it. -/
inductive Mapper (α : Type u) where
  | node (assigned : List (Assigned α)) (mounted : List (String × List Seg × Mapper α))

namespace Mapper

variable {α : Type u}

/-- The URL of a key with parameters, and what it stands for. -/
def lookup : Mapper α → List String → String → List Nat → Option (String × α)
  | .node as _, [], key, ps =>
      (as.find? fun a => a.key = key && arity a.pattern = ps.length).map fun a =>
        (fill a.pattern (ps.map toString), a.run ps)
  | .node _ ms, name :: path, key, ps =>
      (ms.find? fun m => m.1 = name).bind fun m =>
        (m.2.2.lookup path key ps).map fun x => (fill m.2.1 [x.1], x.2)

/-- Every key of the tree, with parameters in a range, is related to what it stands for. -/
def All (P : Nat → Prop) (R : String → α → Prop) (m : Mapper α) : Prop :=
  ∀ path key ps url a, (∀ p ∈ ps, P p) → m.lookup path key ps = some (url, a) → R url a

/-- **It is enough to look at one application at a time.** -/
theorem All.node {P : Nat → Prop} {R : String → α → Prop} {as : List (Assigned α)}
    {ms : List (String × List Seg × Mapper α)}
    (has : ∀ a ∈ as, ∀ ps : List Nat, ps.length = arity a.pattern → (∀ p ∈ ps, P p) →
      R (fill a.pattern (ps.map toString)) (a.run ps))
    (hms : ∀ m ∈ ms, m.2.2.All P fun u a => R (fill m.2.1 [u]) a) : (Mapper.node as ms).All P R := by
  intro path key ps url a hps h
  cases path with
  | nil =>
      rw [lookup, Option.map_eq_some_iff] at h
      obtain ⟨x, hfind, heq⟩ := h
      obtain ⟨rfl, rfl⟩ := Prod.mk.inj heq
      have hx := List.find?_some hfind
      rw [Bool.and_eq_true, decide_eq_true_eq, decide_eq_true_eq] at hx
      exact has x (List.mem_of_find?_eq_some hfind) ps hx.2.symm hps
  | cons name path =>
      rw [lookup, Option.bind_eq_some_iff] at h
      obtain ⟨m, hfind, h⟩ := h
      rw [Option.map_eq_some_iff] at h
      obtain ⟨x, hlookup, heq⟩ := h
      obtain ⟨rfl, rfl⟩ := Prod.mk.inj heq
      exact hms m (List.mem_of_find?_eq_some hfind) path key ps x.1 x.2 hps hlookup

theorem All.mono {P : Nat → Prop} {R R' : String → α → Prop} {m : Mapper α} (h : m.All P R)
    (hR : ∀ url a, R url a → R' url a) : m.All P R' :=
  fun path key ps url a hps hlookup => hR url a (h path key ps url a hps hlookup)

end Mapper

end Web
