import Mathlib.Data.List.Infix
import Mathlib.Tactic.Common

set_option autoImplicit false

/-! # The `LIKE` operator

A pattern is read into items once the escape character of the engine is known: `%` stands for any text,
`_` for any one character, and an escaped character for itself, as every other character does. Texts are
compared up to a map on the characters: the identity, or one that forgets the case of letters. -/

namespace Sql

/-- One item of a pattern. -/
inductive Wild where
  | any
  | one
  | lit (c : Char)
deriving DecidableEq

/-- What a character stands for that is not escaped. -/
def Wild.of (c : Char) : Wild :=
  if c = '%' then .any else if c = '_' then .one else .lit c

/-- Read a pattern; an escape character at its end stands for itself. -/
def readPattern (esc : Option Char) : List Char → List Wild
  | [] => []
  | [c] => [if esc = some c then .lit c else Wild.of c]
  | c :: d :: p =>
      if esc = some c then .lit d :: readPattern esc p else Wild.of c :: readPattern esc (d :: p)

variable (fold : Char → Char)

/-- Whether a text matches a pattern from its first character to its last. -/
def likes : List Wild → List Char → Bool
  | [], t => t.isEmpty
  | .any :: p, t => t.tails.any (likes p)
  | .one :: _, [] => false
  | .one :: p, _ :: t => likes p t
  | .lit _ :: _, [] => false
  | .lit c :: p, d :: t => fold c == fold d && likes p t

/-- `t LIKE p` under an engine with the escape character `esc`. -/
def like (esc : Option Char) (t p : String) : Bool :=
  likes fold (readPattern esc p.toList) t.toList

/-! ## Reading a pattern -/

theorem readPattern_escaped (c d : Char) (p : List Char) :
    readPattern (some c) (c :: d :: p) = .lit d :: readPattern (some c) p := by
  rw [readPattern, if_pos rfl]

theorem readPattern_of_ne {esc : Option Char} {c : Char} (h : esc ≠ some c) (p : List Char) :
    readPattern esc (c :: p) = Wild.of c :: readPattern esc p := by
  cases p with
  | nil => simp [readPattern, h]
  | cons d p => rw [readPattern, if_neg h]

/-- Without an escape character each character is an item of its own. -/
theorem readPattern_none (p : List Char) : readPattern none p = p.map Wild.of := by
  induction p with
  | nil => rfl
  | cons c p ih => rw [readPattern_of_ne (by simp), ih, List.map_cons]

/-! ## What a pattern matches -/

variable {fold}

theorem likes_nil {t : List Char} : likes fold [] t = true ↔ t = [] := by
  rw [likes, List.isEmpty_iff]

theorem likes_any {p : List Wild} {t : List Char} :
    likes fold (.any :: p) t = true ↔ ∃ s, s <:+ t ∧ likes fold p s = true := by
  simp only [likes, List.any_eq_true, List.mem_tails]

theorem likes_any_nil (t : List Char) : likes fold [.any] t = true :=
  likes_any.2 ⟨[], List.nil_suffix, likes_nil.2 rfl⟩

theorem likes_lit {c : Char} {p : List Wild} {t : List Char} :
    likes fold (.lit c :: p) t = true ↔ ∃ d s, t = d :: s ∧ fold c = fold d ∧ likes fold p s = true := by
  cases t with
  | nil => simp [likes]
  | cons d s => simp [likes]

/-- Characters that stand for themselves, in front of `%`: a text matches that begins with them. -/
theorem likes_lits_any {l t : List Char} :
    likes fold (l.map .lit ++ [.any]) t = true ↔ l.map fold <+: t.map fold := by
  induction l generalizing t with
  | nil =>
    rw [List.map_nil, List.nil_append]
    exact iff_of_true (likes_any_nil t) List.nil_prefix
  | cons c l ih =>
    rw [List.map_cons, List.cons_append, likes_lit]
    cases t with
    | nil => simp
    | cons d t =>
      rw [List.map_cons, List.map_cons, List.cons_prefix_cons, ← ih]
      constructor
      · rintro ⟨d', s, heq, hfold, hlikes⟩
        obtain ⟨rfl, rfl⟩ := List.cons.inj heq
        exact ⟨hfold, hlikes⟩
      · rintro ⟨hfold, hlikes⟩
        exact ⟨d, t, rfl, hfold, hlikes⟩

/-- **Characters that stand for themselves, between two `%`**: a text matches they occur in. -/
theorem likes_any_lits_any {l t : List Char} :
    likes fold (.any :: (l.map .lit ++ [.any])) t = true ↔ l.map fold <:+: t.map fold := by
  rw [likes_any, List.infix_iff_prefix_suffix]
  constructor
  · rintro ⟨s, hs, hlikes⟩
    exact ⟨s.map fold, likes_lits_any.1 hlikes, hs.map fold⟩
  · rintro ⟨u, hprefixed, hu⟩
    obtain ⟨v, hv⟩ := hu
    -- the suffix of the folded text is the folded form of a suffix
    obtain ⟨a, b, rfl, rfl, rfl⟩ := List.map_eq_append_iff.1 hv.symm
    exact ⟨b, List.suffix_append a b, likes_lits_any.2 hprefixed⟩

/-! ## Characters a text must have -/

/-- Whether an item of a pattern is a character that stands for itself, equal to `c` when folded. -/
def Wild.isLit (fold : Char → Char) (c : Char) : Wild → Bool
  | .lit d => fold d = fold c
  | _ => false

/-- **A text that matches has each character at least as often as the pattern has it.** -/
theorem countP_isLit_le {p : List Wild} {t : List Char} (c : Char) (h : likes fold p t = true) :
    p.countP (Wild.isLit fold c) ≤ t.countP (fun d => fold d = fold c) := by
  induction p generalizing t with
  | nil => simp
  | cons w p ih =>
    cases w with
    | any =>
      obtain ⟨s, hs, hlikes⟩ := likes_any.1 h
      exact (ih hlikes).trans hs.sublist.countP_le
    | one =>
      cases t with
      | nil => exact absurd h (by simp [likes])
      | cons d t => exact (ih h).trans (List.sublist_cons_self d t).countP_le
    | lit d =>
      obtain ⟨d', s, rfl, hfold, hlikes⟩ := likes_lit.1 h
      have hrest := ih hlikes
      have hsame : Wild.isLit fold c (.lit d) = decide (fold d' = fold c) := by
        rw [Wild.isLit, hfold]
      rw [List.countP_cons, List.countP_cons, hsame]
      exact Nat.add_le_add_right hrest _

end Sql
