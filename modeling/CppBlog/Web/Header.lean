import Mathlib.Tactic.Common
import Mathlib.Data.List.Basic

set_option autoImplicit false

/-! # Header values

Line breaks in the value of a header, and its first parameter when that is a `quoted-string`. -/

namespace CppBlog

namespace Header

/-- A character that ends a header. -/
def breaks (c : Char) : Bool := c = '\r' || c = '\n'

/-- `qdtext`: what stands for itself between quotes; past ASCII everything does. -/
def qdtext (c : Char) : Bool :=
  c = '\t' || (0x20 ≤ c.toNat && c ≠ '"' && c ≠ '\\' && c.toNat ≠ 0x7F)

/-- What may follow a backslash between quotes. -/
def quotable (c : Char) : Bool := c = '\t' || (0x20 ≤ c.toNat && c.toNat ≠ 0x7F)

/-- A `quoted-string` after its opening quote: the text it stands for and what follows its closing quote. -/
def quotedString : List Char → Option (List Char × List Char)
  | [] => none
  | '"' :: rest => some ([], rest)
  | '\\' :: c :: rest =>
      if quotable c then (quotedString rest).map fun x => (c :: x.1, x.2) else none
  | c :: rest => if qdtext c then (quotedString rest).map fun x => (c :: x.1, x.2) else none

/-- The first parameter of a value, when it has the name and is quoted, and ends where the next one begins
    or with the value. -/
def firstQuoted (name : String) (value : String) : Option String :=
  let start := ((value.toList.dropWhile (· ≠ ';')).drop 1).dropWhile fun c => c = ' ' || c = '\t'
  let opening := (name ++ "=\x22").toList
  if opening.isPrefixOf start then
    match quotedString (start.drop opening.length) with
    | some (text, rest) =>
        if rest = [] ∨ rest.head? = some ';' then some (String.ofList text) else none
    | none => none
  else none

theorem breaks_of_qdtext {c : Char} (h : qdtext c = true) : breaks c = false := by
  cases hb : breaks c with
  | false => rfl
  | true =>
    obtain rfl | rfl : c = '\r' ∨ c = '\n' := by simpa [breaks] using hb
    · exact absurd h (by decide)
    · exact absurd h (by decide)

theorem quotedString_qdtext {c : Char} (h : qdtext c = true) (rest : List Char) :
    quotedString (c :: rest) = (quotedString rest).map fun x => (c :: x.1, x.2) := by
  have hquote : c ≠ '"' := by rintro rfl; exact absurd h (by decide)
  have hslash : c ≠ '\\' := by rintro rfl; exact absurd h (by decide)
  rw [quotedString, if_pos h]
  · exact hquote
  · rintro d t rfl
    exact absurd rfl hslash

/-- **Text that stands for itself is read back up to the closing quote.** -/
theorem quotedString_append {text : List Char} (h : ∀ c ∈ text, qdtext c = true) (rest : List Char) :
    quotedString (text ++ '"' :: rest) = some (text, rest) := by
  induction text with
  | nil => rfl
  | cons c text ih =>
    rw [List.cons_append, quotedString_qdtext (h c List.mem_cons_self),
      ih fun d hd => h d (List.mem_cons_of_mem c hd)]
    rfl

/-- The first parameter of a value that begins with a word and a parameter of the name. -/
theorem firstQuoted_eq {name value : String} {word rest : List Char} (hword : ';' ∉ word)
    (hname : ∀ c ∈ (name ++ "=\x22").toList.head?, ¬(c = ' ' ∨ c = '\t'))
    (h : value.toList = word ++ ';' :: ' ' :: ((name ++ "=\x22").toList ++ rest)) :
    firstQuoted name value =
      match quotedString rest with
      | some (text, after) =>
          if after = [] ∨ after.head? = some ';' then some (String.ofList text) else none
      | none => none := by
  have hpass : ∀ c ∈ word, decide (c ≠ ';') = true := fun c hc =>
    decide_eq_true fun heq => hword (heq ▸ hc)
  have hstart : ((value.toList.dropWhile (· ≠ ';')).drop 1).dropWhile (fun c => c = ' ' || c = '\t') =
      (name ++ "=\x22").toList ++ rest := by
    rw [h, List.dropWhile_append_of_pos hpass,
      List.dropWhile_cons_of_neg (by decide), List.drop_succ_cons, List.drop_zero,
      List.dropWhile_cons_of_pos (by decide)]
    cases hopening : (name ++ "=\x22").toList with
    | nil => simp at hopening
    | cons c opening =>
      rw [hopening] at hname
      rw [List.cons_append, List.dropWhile_cons_of_neg]
      simpa using hname c rfl
  unfold firstQuoted
  dsimp only
  rw [hstart, if_pos (List.isPrefixOf_iff_prefix.2 (List.prefix_append _ _)), List.drop_left]

/-- What is read ends at a quote, and what was written for it is longer unless it stands for itself. -/
theorem of_quotedString {s text rest : List Char} (h : quotedString s = some (text, rest)) :
    ∃ written, s = written ++ '"' :: rest ∧
      ((written = text ∧ ∀ c ∈ text, qdtext c = true) ∨ text.length < written.length) := by
  fun_induction quotedString s generalizing text rest with
  | case1 => exact absurd h (by simp)
  | case2 tail =>
    obtain ⟨rfl, rfl⟩ : text = [] ∧ rest = tail := by simpa using h.symm
    exact ⟨[], rfl, .inl ⟨rfl, by simp⟩⟩
  | case3 c tail hc ih =>
    obtain ⟨⟨text', rest'⟩, hread, hx⟩ := Option.map_eq_some_iff.1 h
    obtain ⟨rfl, rfl⟩ : c :: text' = text ∧ rest' = rest := Prod.mk.inj hx
    obtain ⟨written, rfl, hlength⟩ := ih hread
    refine ⟨'\\' :: c :: written, rfl, .inr ?_⟩
    rcases hlength with ⟨rfl, -⟩ | hlt
    · simp
    · simp only [List.length_cons]
      omega
  | case4 c tail hc => exact absurd h (by simp)
  | case5 c tail hquote hslash hc ih =>
    obtain ⟨⟨text', rest'⟩, hread, hx⟩ := Option.map_eq_some_iff.1 h
    obtain ⟨rfl, rfl⟩ : c :: text' = text ∧ rest' = rest := Prod.mk.inj hx
    obtain ⟨written, rfl, hlength⟩ := ih hread
    refine ⟨c :: written, rfl, ?_⟩
    rcases hlength with ⟨rfl, hall⟩ | hlt
    · exact .inl ⟨rfl, by simpa using ⟨hc, hall⟩⟩
    · exact .inr (by simpa using hlt)
  | case6 c tail hquote hslash hc => exact absurd h (by simp)

/-- **A text between quotes is read back as it is if and only if it stands for itself**, when no quote
    follows the closing one. -/
theorem quotedString_eq_iff {text rest : List Char} (hrest : '"' ∉ rest) :
    (∃ r, quotedString (text ++ '"' :: rest) = some (text, r)) ↔ ∀ c ∈ text, qdtext c = true := by
  constructor
  · rintro ⟨r, h⟩
    obtain ⟨written, heq, ⟨-, hall⟩ | hlt⟩ := of_quotedString h
    · exact hall
    · -- the text that was read would end at a quote beyond the closing one
      have hclose := congrArg (List.drop (text.length + 1)) heq
      rw [← List.drop_drop, List.drop_left, List.drop_succ_cons, List.drop_zero,
        List.drop_append_of_le_length (by omega)] at hclose
      exact absurd (hclose ▸ List.mem_append_right _ List.mem_cons_self) hrest
  · exact fun h => ⟨rest, quotedString_append h rest⟩

end Header

end CppBlog
