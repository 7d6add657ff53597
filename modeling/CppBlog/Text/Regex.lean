import Mathlib.Data.List.Basic
import Mathlib.Tactic.Common

set_option autoImplicit false

/-! # Perl-style regular expressions with groups

The expressions a web application routes with: literals, character classes, greedy repetition of a
class, options, alternatives and numbered groups. `Rx.go` lists every way an expression can match a
prefix of the input in the order a backtracking matcher tries them (greedy first, left alternative
first), with the groups it captured; `Rx.full` is the first of them that uses the whole input. The
language an expression denotes is `Rx.Matches`, and `full_isSome` says that the matcher decides it. -/

namespace Text

/-- Regular expressions; repetition is over single-character classes. -/
inductive Rx where
  | eps
  | cls (p : Char → Bool)
  | star (p : Char → Bool)
  | seq (a b : Rx)
  | alt (a b : Rx)
  | opt (a : Rx)
  | grp (i : Nat) (a : Rx)

/-- Captured groups, by number. -/
abbrev Captures := List (Nat × List Char)

namespace Rx

/-- A literal text. -/
def lit : List Char → Rx
  | [] => .eps
  | c :: s => .seq (.cls (fun x => x = c)) (lit s)

/-- One or more characters of a class. -/
def plus (p : Char → Bool) : Rx := .seq (.cls p) (.star p)

/-- The language an expression denotes. -/
def Matches : Rx → List Char → Prop
  | .eps, s => s = []
  | .cls p, s => ∃ c, p c = true ∧ s = [c]
  | .star p, s => ∀ c ∈ s, p c = true
  | .seq a b, s => ∃ u v, s = u ++ v ∧ a.Matches u ∧ b.Matches v
  | .alt a b, s => a.Matches s ∨ b.Matches s
  | .opt a, s => a.Matches s ∨ s = []
  | .grp _ a, s => a.Matches s

/-- What is left of the input after each number of characters of a class, most characters first. -/
def spans (p : Char → Bool) : List Char → List (List Char)
  | [] => [[]]
  | c :: s => if p c then spans p s ++ [c :: s] else [c :: s]

/-- Every match of a prefix in backtracking order: the captured groups and the rest of the input. -/
def go : Rx → List Char → List (Captures × List Char)
  | .eps, s => [([], s)]
  | .cls _, [] => []
  | .cls p, c :: s => if p c then [([], s)] else []
  | .star p, s => (spans p s).map (fun t => ([], t))
  | .seq a b, s => (a.go s).flatMap (fun x => (b.go x.2).map (fun y => (x.1 ++ y.1, y.2)))
  | .alt a b, s => a.go s ++ b.go s
  | .opt a, s => a.go s ++ [([], s)]
  | .grp i a, s => (a.go s).map (fun x => ((i, s.take (s.length - x.2.length)) :: x.1, x.2))

/-- The groups of the first match of the whole input. -/
def full (r : Rx) (s : List Char) : Option Captures :=
  ((r.go s).find? (fun x => x.2.isEmpty)).map Prod.fst

/-- The text of a group; a group that took no part is empty. -/
def group (caps : Captures) (i : Nat) : List Char := (caps.lookup i).getD []

/-! ## The matcher decides the language -/

theorem mem_spans {p : Char → Bool} {s t : List Char} :
    t ∈ spans p s ↔ ∃ u, s = u ++ t ∧ ∀ c ∈ u, p c = true := by
  induction s with
  | nil =>
      simp only [spans, List.mem_singleton]
      constructor
      · rintro rfl; exact ⟨[], rfl, by simp⟩
      · rintro ⟨u, hu, _⟩; exact (List.append_eq_nil_iff.1 hu.symm).2
  | cons c s ih =>
      by_cases hc : p c = true
      · simp only [spans, hc, if_true, List.mem_append, List.mem_singleton, ih]
        constructor
        · rintro (⟨u, rfl, hu⟩ | rfl)
          · exact ⟨c :: u, rfl, by simpa [hc] using hu⟩
          · exact ⟨[], rfl, by simp⟩
        · rintro ⟨u, hu, hp⟩
          cases u with
          | nil => exact Or.inr hu.symm
          | cons d u =>
              simp only [List.cons_append, List.cons.injEq] at hu
              exact Or.inl ⟨u, hu.2, fun x hx => hp x (List.mem_cons_of_mem _ hx)⟩
      · simp only [spans, hc]
        constructor
        · intro h
          exact ⟨[], (List.mem_singleton.1 h).symm, by simp⟩
        · rintro ⟨u, hu, hp⟩
          cases u with
          | nil => simpa using hu.symm
          | cons d u =>
              simp only [List.cons_append, List.cons.injEq] at hu
              exact absurd (hu.1 ▸ hp d List.mem_cons_self) hc

/-- The rests the matcher leaves are those after a prefix in the language. -/
theorem exists_mem_go (r : Rx) (s t : List Char) :
    (∃ caps, (caps, t) ∈ r.go s) ↔ ∃ u, s = u ++ t ∧ r.Matches u := by
  induction r generalizing s t with
  | eps =>
      simp only [go, List.mem_singleton, Prod.mk.injEq, exists_eq_left, Matches]
      constructor
      · rintro rfl; exact ⟨[], rfl, rfl⟩
      · rintro ⟨u, rfl, rfl⟩; rfl
  | cls p =>
      cases s with
      | nil => simp [go, Matches]
      | cons c s =>
          by_cases hc : p c = true
          · simp only [go, hc, if_true, List.mem_singleton, Prod.mk.injEq, exists_eq_left, Matches]
            constructor
            · rintro rfl; exact ⟨[c], rfl, c, hc, rfl⟩
            · rintro ⟨u, hu, d, _, rfl⟩
              simp only [List.cons_append, List.nil_append, List.cons.injEq] at hu
              exact hu.2.symm
          · simp only [go, hc, Matches]
            constructor
            · rintro ⟨caps, h⟩; exact absurd h (by simp)
            · rintro ⟨u, hu, d, hd, rfl⟩
              simp only [List.cons_append, List.nil_append, List.cons.injEq] at hu
              exact absurd (hu.1 ▸ hd) hc
  | star p => simp [go, Matches, mem_spans]
  | seq a b iha ihb =>
      constructor
      · rintro ⟨caps, h⟩
        simp only [go, List.mem_flatMap, List.mem_map, Prod.mk.injEq, Prod.exists] at h
        obtain ⟨ca, m, ha, cb, n, hb, -, rfl⟩ := h
        obtain ⟨u, rfl, hu⟩ := (iha s m).1 ⟨ca, ha⟩
        obtain ⟨v, rfl, hv⟩ := (ihb m n).1 ⟨cb, hb⟩
        exact ⟨u ++ v, by simp, u, v, rfl, hu, hv⟩
      · rintro ⟨w, rfl, u, v, rfl, hu, hv⟩
        obtain ⟨ca, ha⟩ := (iha (u ++ v ++ t) (v ++ t)).2 ⟨u, by simp, hu⟩
        obtain ⟨cb, hb⟩ := (ihb (v ++ t) t).2 ⟨v, rfl, hv⟩
        refine ⟨ca ++ cb, ?_⟩
        simp only [go, List.mem_flatMap, List.mem_map]
        exact ⟨(ca, v ++ t), ha, (cb, t), hb, rfl⟩
  | alt a b iha ihb =>
      simp only [go, List.mem_append, exists_or, iha, ihb, Matches]
      constructor
      · rintro (⟨u, hs, h⟩ | ⟨u, hs, h⟩)
        · exact ⟨u, hs, Or.inl h⟩
        · exact ⟨u, hs, Or.inr h⟩
      · rintro ⟨u, hs, h | h⟩
        · exact Or.inl ⟨u, hs, h⟩
        · exact Or.inr ⟨u, hs, h⟩
  | opt a iha =>
      simp only [go, List.mem_append, List.mem_singleton, Prod.mk.injEq, exists_or, iha,
        exists_eq_left, Matches]
      constructor
      · rintro (⟨u, hs, h⟩ | rfl)
        · exact ⟨u, hs, Or.inl h⟩
        · exact ⟨[], rfl, Or.inr rfl⟩
      · rintro ⟨u, hs, h | rfl⟩
        · exact Or.inl ⟨u, hs, h⟩
        · exact Or.inr hs.symm
  | grp i a iha =>
      simp only [go, List.mem_map, Prod.mk.injEq, Prod.exists, Matches]
      rw [← iha s t]
      constructor
      · rintro ⟨_, caps, t', h, -, rfl⟩; exact ⟨caps, h⟩
      · rintro ⟨caps, h⟩; exact ⟨_, caps, t, h, rfl, rfl⟩

/-- **The matcher accepts exactly the language.** -/
theorem full_isSome (r : Rx) (s : List Char) : (r.full s).isSome ↔ r.Matches s := by
  have hgo := exists_mem_go r s []
  simp only [List.append_nil, exists_eq_left'] at hgo
  rw [← hgo, full, Option.isSome_map, List.find?_isSome]
  constructor
  · rintro ⟨⟨caps, t⟩, hmem, ht⟩
    exact ⟨caps, by simpa using (List.isEmpty_iff.1 ht) ▸ hmem⟩
  · rintro ⟨caps, hmem⟩
    exact ⟨(caps, []), hmem, rfl⟩

theorem full_eq_none (r : Rx) (s : List Char) : r.full s = none ↔ ¬ r.Matches s := by
  rw [← full_isSome, Option.not_isSome_iff_eq_none]

/-! ## What the small expressions denote -/

@[simp] theorem matches_lit (w s : List Char) : (lit w).Matches s ↔ s = w := by
  induction w generalizing s with
  | nil => rfl
  | cons c w ih =>
      simp only [lit, Matches, ih, decide_eq_true_eq]
      constructor
      · rintro ⟨u, v, rfl, ⟨d, rfl, rfl⟩, rfl⟩; rfl
      · rintro rfl; exact ⟨[c], w, rfl, ⟨c, rfl, rfl⟩, rfl⟩

@[simp] theorem matches_plus (p : Char → Bool) (s : List Char) :
    (plus p).Matches s ↔ s ≠ [] ∧ ∀ c ∈ s, p c = true := by
  simp only [plus, Matches]
  constructor
  · rintro ⟨u, v, rfl, ⟨c, hc, rfl⟩, hv⟩
    exact ⟨by simp, by simpa [hc] using hv⟩
  · rintro ⟨hne, h⟩
    cases s with
    | nil => exact absurd rfl hne
    | cons c s =>
        exact ⟨[c], s, rfl, ⟨c, h c List.mem_cons_self, rfl⟩,
          fun d hd => h d (List.mem_cons_of_mem _ hd)⟩

/-! ## Groups after a fixed text -/

theorem go_lit (w s : List Char) :
    (lit w).go s = if w.isPrefixOf s then [([], s.drop w.length)] else [] := by
  induction w generalizing s with
  | nil => rfl
  | cons c w ih =>
      cases s with
      | nil => rfl
      | cons d s =>
          by_cases hd : d = c
          · subst hd
            simp [lit, go, ih]
          · simp [lit, go, hd, Ne.symm hd]

/-- A group over all that follows a fixed text is that rest. -/
theorem group_of_full_lit {w s : List Char} {i : Nat} {a : Rx} {caps : Captures}
    (h : (seq (lit w) (grp i a)).full s = some caps) : s = w ++ group caps i := by
  obtain ⟨⟨caps', t⟩, hfind, rfl⟩ := Option.map_eq_some_iff.1 h
  have hmem := List.mem_of_find?_eq_some hfind
  have ht : t = [] := by simpa using List.find?_some hfind
  subst ht
  simp only [go, go_lit] at hmem
  split at hmem
  · next hpre =>
      simp only [List.flatMap_cons, List.flatMap_nil, List.append_nil, List.map_map, List.mem_map,
        Function.comp_apply, List.nil_append, Prod.mk.injEq] at hmem
      obtain ⟨x, -, rfl, hx⟩ := hmem
      have hs := List.prefix_iff_eq_append.1 (List.isPrefixOf_iff_prefix.1 hpre)
      have hgroup : (s.drop w.length).take ((s.drop w.length).length - x.2.length) =
          s.drop w.length := List.take_of_length_le (by simp [hx])
      rw [hgroup]
      simp [group, hs]
  · exact absurd hmem (by simp)

/-- What one of the matches of a sequence captures. -/
theorem mem_go_seq {a b : Rx} {s t : List Char} {caps : Captures} :
    (caps, t) ∈ (seq a b).go s ↔
      ∃ c u c', (c, u) ∈ a.go s ∧ (c', t) ∈ b.go u ∧ caps = c ++ c' := by
  simp only [go, List.mem_flatMap, List.mem_map, Prod.mk.injEq]
  constructor
  · rintro ⟨⟨c, u⟩, hx, ⟨c', t'⟩, hy, rfl, rfl⟩
    exact ⟨c, u, c', hx, hy, rfl⟩
  · rintro ⟨c, u, c', hx, hy, rfl⟩
    exact ⟨(c, u), hx, (c', t), hy, rfl, rfl⟩

/-- A group captures a text of its expression, before what the expression captures itself. -/
theorem mem_go_grp {i : Nat} {a : Rx} {s t : List Char} {caps : Captures}
    (h : (caps, t) ∈ (grp i a).go s) : ∃ w c, caps = (i, w) :: c ∧ a.Matches w := by
  simp only [go, List.mem_map, Prod.mk.injEq] at h
  obtain ⟨⟨c, u⟩, hx, rfl, rfl⟩ := h
  obtain ⟨w, hs, hw⟩ := (exists_mem_go a s u).1 ⟨c, hx⟩
  refine ⟨_, c, rfl, ?_⟩
  have htake : s.take (s.length - u.length) = w := by simp [hs]
  rw [htake]
  exact hw

/-- The number after a fixed text, with anything behind it. -/
theorem group_of_full_number {w s : List Char} {i : Nat} {p : Char → Bool} {b : Rx} {caps : Captures}
    (h : (seq (seq (lit w) (grp i (plus p))) b).full s = some caps) :
    group caps i ≠ [] ∧ ∀ c ∈ group caps i, p c = true := by
  obtain ⟨⟨caps', t⟩, hfind, rfl⟩ := Option.map_eq_some_iff.1 h
  obtain ⟨c, u, c', hnumber, -, rfl⟩ := mem_go_seq.1 (List.mem_of_find?_eq_some hfind)
  obtain ⟨c₁, v, c₂, hlit, hgroup, rfl⟩ := mem_go_seq.1 hnumber
  rw [go_lit] at hlit
  split at hlit
  · obtain ⟨rfl, -⟩ := Prod.mk.inj (List.mem_singleton.1 hlit)
    obtain ⟨text, c₃, rfl, htext⟩ := mem_go_grp hgroup
    have hcaptured : group ([] ++ (i, text) :: c₃ ++ c') i = text := by simp [group]
    rw [hcaptured]
    exact (matches_plus p text).1 htext
  · exact absurd hlit List.not_mem_nil

/-- A fixed text captures nothing. -/
theorem mem_go_lit {w s t : List Char} {caps : Captures} (h : (caps, t) ∈ (lit w).go s) :
    caps = [] ∧ s = w ++ t := by
  rw [go_lit] at h
  split at h
  · rename_i hpre
    obtain ⟨rfl, rfl⟩ := Prod.mk.inj (List.mem_singleton.1 h)
    exact ⟨rfl, (List.prefix_iff_eq_append.1 (List.isPrefixOf_iff_prefix.1 hpre)).symm⟩
  · exact absurd h List.not_mem_nil

/-- What a group over an expression without groups captures, and what it leaves. -/
theorem mem_go_grp_of_nil {i : Nat} {a : Rx} {s t : List Char} {caps : Captures}
    (ha : ∀ c u, (c, u) ∈ a.go s → c = []) (h : (caps, t) ∈ (grp i a).go s) :
    ∃ w, caps = [(i, w)] ∧ s = w ++ t ∧ a.Matches w := by
  simp only [go, List.mem_map, Prod.mk.injEq] at h
  obtain ⟨⟨c, u⟩, hx, rfl, rfl⟩ := h
  obtain rfl := ha c u hx
  obtain ⟨w, hs, hw⟩ := (exists_mem_go a s u).1 ⟨_, hx⟩
  have htake : s.take (s.length - u.length) = w := by simp [hs]
  exact ⟨w, by rw [htake], hs, hw⟩

theorem eq_nil_of_mem_go_star {p : Char → Bool} {s u : List Char} {c : Captures}
    (h : (c, u) ∈ (star p).go s) : c = [] := by
  simp only [go, List.mem_map, Prod.mk.injEq] at h
  obtain ⟨_, -, rfl, -⟩ := h
  rfl

theorem eq_nil_of_mem_go_cls {p : Char → Bool} {s u : List Char} {c : Captures}
    (h : (c, u) ∈ (cls p).go s) : c = [] := by
  cases s with
  | nil => exact absurd h List.not_mem_nil
  | cons d s =>
      simp only [go] at h
      split at h
      · exact (Prod.mk.inj (List.mem_singleton.1 h)).1
      · exact absurd h List.not_mem_nil

theorem eq_nil_of_mem_go_plus {p : Char → Bool} {s u : List Char} {c : Captures}
    (h : (c, u) ∈ (plus p).go s) : c = [] := by
  obtain ⟨c₁, v, c₂, h₁, h₂, rfl⟩ := mem_go_seq.1 h
  rw [eq_nil_of_mem_go_cls h₁, eq_nil_of_mem_go_star h₂]
  rfl

/-- A match of the whole text is one of the ways to match. -/
theorem mem_go_of_full {r : Rx} {s : List Char} {caps : Captures} (h : r.full s = some caps) :
    (caps, []) ∈ r.go s := by
  obtain ⟨⟨c, t⟩, hfind, rfl⟩ := Option.map_eq_some_iff.1 h
  have ht : t = [] := by simpa using List.find?_some hfind
  exact ht ▸ List.mem_of_find?_eq_some hfind

/-- An expression that may be followed by nothing more. -/
theorem full_seq_eps (a : Rx) (s : List Char) : (seq a eps).full s = a.full s := by
  simp [full, go]

end Rx

end Text
