import Mathlib.Data.List.Infix
import Mathlib.Tactic.Common

set_option autoImplicit false

/-! # Searching a stream

A word whose first letter stands nowhere else in it can be searched for in a stream with a single counter:
where the letters stop to agree, no shorter beginning of the word can be left, except the first letter
itself. What was held back is given out then. -/

namespace Text

variable {α : Type}

/-- A word whose first letter stands nowhere else in it. -/
structure Needle (α : Type) where
  head : α
  tail : List α
  head_notMem : head ∉ tail

namespace Needle

/-- The letters of the word. -/
def word (n : Needle α) : List α := n.head :: n.tail

/-- What was given out, and how many letters of the word are held back. -/
structure Search (α : Type) where
  out : List α
  held : Nat

/-- One letter of the stream. -/
def next [DecidableEq α] (n : Needle α) (s : Search α) (c : α) : Search α :=
  if n.word[s.held]? = some c then ⟨s.out, s.held + 1⟩
  else if c = n.head then ⟨s.out ++ n.word.take s.held, 1⟩
  else ⟨s.out ++ n.word.take s.held ++ [c], 0⟩

/-- The search stands behind `l`, in which the word was not found: no more of it could be held back. -/
structure Behind (n : Needle α) (l : List α) (s : Search α) : Prop where
  consumed : s.out ++ n.word.take s.held = l
  short : s.held < n.word.length
  most : ∀ j, n.word.take j <:+ l → j ≤ n.word.length → j ≤ s.held

theorem behind_nil (n : Needle α) : n.Behind [] ⟨[], 0⟩ where
  consumed := rfl
  short := Nat.succ_pos _
  most j h _ := by
    have hnil := List.suffix_nil.1 h
    rw [word, List.take_eq_nil_iff] at hnil
    exact Nat.le_of_eq (hnil.resolve_right (List.cons_ne_nil _ _))

/-- Of two beginnings of the word that end a text, the shorter is not more than empty. -/
theorem eq_zero_of_suffix (n : Needle α) {l : List α} {j k : Nat} (hj : n.word.take j <:+ l) (hk : n.word.take k <:+ l)
    (hlt : j < k) (hle : k ≤ n.word.length) : j = 0 := by
  by_contra hpos
  obtain ⟨i, rfl⟩ := Nat.exists_eq_succ_of_ne_zero hpos
  have hlengths : (n.word.take (i + 1)).length < (n.word.take k).length := by
    rw [List.length_take, List.length_take]
    omega
  obtain ⟨front, hfront⟩ := List.suffix_of_suffix_length_le hj hk (le_of_lt hlengths)
  -- the first letter of the shorter one would stand behind the first of the longer one
  have hne : front ≠ [] := by
    rintro rfl
    rw [List.nil_append] at hfront
    rw [hfront] at hlengths
    omega
  obtain ⟨a, front, rfl⟩ := List.exists_cons_of_ne_nil hne
  obtain ⟨k, rfl⟩ := Nat.exists_eq_succ_of_ne_zero (Nat.ne_of_gt (Nat.lt_of_le_of_lt (Nat.zero_le _) hlt))
  rw [word, List.take_succ_cons, List.take_succ_cons, List.cons_append] at hfront
  have htail : n.head ∈ n.tail.take k := by
    rw [← (List.cons.inj hfront).2]
    exact List.mem_append_right _ List.mem_cons_self
  exact n.head_notMem (List.mem_of_mem_take htail)

/-- A beginning of the word that ends with one more letter. -/
theorem take_suffix_concat {n : Needle α} {l : List α} {c : α} {j : Nat} (hj : j < n.word.length)
    (h : n.word.take (j + 1) <:+ l ++ [c]) : n.word.take j <:+ l ∧ n.word[j]? = some c := by
  obtain ⟨front, hfront⟩ := h
  rw [List.take_succ_eq_append_getElem hj, ← List.append_assoc] at hfront
  obtain ⟨hl, hc⟩ := List.append_inj' hfront rfl
  refine ⟨⟨front, hl⟩, ?_⟩
  rw [List.getElem?_eq_getElem hj, (List.cons.inj hc).1]

variable [DecidableEq α]

/-- **One letter more**: the search is still behind, or has found the word. -/
theorem Behind.next {n : Needle α} {l : List α} {s : Search α} (h : n.Behind l s) (c : α) :
    (n.next s c).out ++ n.word.take (n.next s c).held = l ++ [c] ∧
      (n.next s c).held ≤ n.word.length ∧
      ∀ j, n.word.take j <:+ l ++ [c] → j ≤ n.word.length → j ≤ (n.next s c).held := by
  have hsplit {j : Nat} (hj : n.word.take j <:+ l ++ [c]) (hle : j ≤ n.word.length) (hpos : j ≠ 0) :
      ∃ i, j = i + 1 ∧ n.word[i]? = some c ∧ (i = s.held ∨ i = 0) := by
    obtain ⟨i, rfl⟩ := Nat.exists_eq_succ_of_ne_zero hpos
    obtain ⟨hi, hc⟩ := take_suffix_concat hle hj
    have hmost := h.most i hi (Nat.le_of_succ_le hle)
    refine ⟨i, rfl, hc, ?_⟩
    rcases Nat.lt_or_eq_of_le hmost with hlt | heq
    · exact .inr (n.eq_zero_of_suffix hi ⟨s.out, h.consumed⟩ hlt (le_of_lt h.short))
    · exact .inl heq
  unfold Needle.next
  split
  · rename_i hagree
    refine ⟨?_, h.short, fun j hj hle => ?_⟩
    · have hshort := h.short
      have hc : n.word[s.held] = c := by
        rw [List.getElem?_eq_getElem h.short] at hagree
        exact Option.some.inj hagree
      rw [List.take_succ_eq_append_getElem h.short, hc, ← List.append_assoc, h.consumed]
    · by_cases hpos : j = 0
      · omega
      · obtain ⟨i, rfl, -, rfl | rfl⟩ := hsplit hj hle hpos
        · exact le_rfl
        · exact Nat.succ_le_succ (Nat.zero_le _)
  · rename_i hdiffer
    split
    · rename_i hhead
      refine ⟨?_, Nat.succ_le_of_lt (Nat.succ_pos _), fun j hj hle => ?_⟩
      · dsimp only
        rw [h.consumed, hhead]
        rfl
      · by_cases hpos : j = 0
        · omega
        · obtain ⟨i, rfl, hc, rfl | rfl⟩ := hsplit hj hle hpos
          · exact absurd hc hdiffer
          · exact le_rfl
    · rename_i hhead
      refine ⟨?_, Nat.zero_le _, fun j hj hle => ?_⟩
      · dsimp only
        rw [h.consumed, List.take_zero, List.append_nil]
      · by_cases hpos : j = 0
        · omega
        · obtain ⟨i, rfl, hc, rfl | rfl⟩ := hsplit hj hle hpos
          · exact absurd hc hdiffer
          · exact absurd (Option.some.inj hc).symm hhead

/-- The search is still behind where the word does not end the text. -/
theorem Behind.next_of_short {n : Needle α} {l : List α} {s : Search α} (h : n.Behind l s) (c : α)
    (hshort : (n.next s c).held ≠ n.word.length) : n.Behind (l ++ [c]) (n.next s c) where
  consumed := (h.next c).1
  short := Nat.lt_of_le_of_ne (h.next c).2.1 hshort
  most := (h.next c).2.2

/-- All of the word is held back exactly where it ends the text. -/
theorem Behind.held_eq_iff {n : Needle α} {l : List α} {s : Search α} (h : n.Behind l s) (c : α) :
    (n.next s c).held = n.word.length ↔ n.word <:+ l ++ [c] := by
  obtain ⟨hconsumed, hle, hmost⟩ := h.next c
  constructor
  · intro heq
    rw [heq, List.take_length] at hconsumed
    exact ⟨_, hconsumed⟩
  · intro hsuffix
    have hall := hmost n.word.length (by rwa [List.take_length]) le_rfl
    exact Nat.le_antisymm hle hall

/-! ## Where the word is found -/

/-- What stands in front of the word where it is found, and behind it. -/
def split (n : Needle α) : Search α → List α → Option (List α × List α)
  | _, [] => none
  | s, c :: l => if (n.next s c).held = n.word.length then some ((n.next s c).out, l) else n.split (n.next s c) l

omit [DecidableEq α] in
theorem infix_concat {n : Needle α} {l : List α} {c : α} (h : n.word <:+: l ++ [c]) :
    n.word <:+: l ∨ n.word <:+ l ++ [c] := by
  obtain ⟨front, behind, heq⟩ := h
  cases behind using List.reverseRecOn with
  | nil => exact .inr ⟨front, by simpa using heq⟩
  | append_singleton behind d _ =>
    rw [← List.append_assoc] at heq
    exact .inl ⟨front, behind, (List.append_inj' heq rfl).1⟩

theorem split_sound {n : Needle α} {l₀ l u rest : List α} {s : Search α} (h : n.Behind l₀ s)
    (hno : ¬n.word <:+: l₀) (hsplit : n.split s l = some (u, rest)) :
    l₀ ++ l = u ++ n.word ++ rest ∧ ¬n.word <:+: u := by
  induction l generalizing l₀ s with
  | nil => cases hsplit
  | cons c l ih =>
    rw [split] at hsplit
    rw [← List.singleton_append, ← List.append_assoc]
    split at hsplit
    · rename_i hfound
      cases hsplit
      have hconsumed := (h.next c).1
      rw [hfound, List.take_length] at hconsumed
      refine ⟨by rw [hconsumed], fun hwithin => hno (hwithin.trans ?_)⟩
      -- what stands in front of the word was read before its last letter
      have hprefix : (n.next s c).out <+: l₀ := by
        refine List.prefix_of_prefix_length_le (hconsumed ▸ List.prefix_append _ _) (List.prefix_append _ [c]) ?_
        have hlength := congrArg List.length hconsumed
        rw [List.length_append, List.length_append, List.length_singleton] at hlength
        have hword : n.word.length = n.tail.length + 1 := rfl
        omega
      exact hprefix.isInfix
    · rename_i hshort
      refine ih (h.next_of_short c hshort) (fun hwithin => ?_) hsplit
      rcases infix_concat hwithin with hbefore | hsuffix
      · exact hno hbefore
      · exact hshort ((h.held_eq_iff c).2 hsuffix)

theorem split_none {n : Needle α} {l₀ l : List α} {s : Search α} (h : n.Behind l₀ s) (hno : ¬n.word <:+: l₀)
    (hsplit : n.split s l = none) : ¬n.word <:+: l₀ ++ l := by
  induction l generalizing l₀ s with
  | nil => rwa [List.append_nil]
  | cons c l ih =>
    rw [split] at hsplit
    rw [← List.singleton_append, ← List.append_assoc]
    split at hsplit
    · cases hsplit
    · rename_i hshort
      refine ih (h.next_of_short c hshort) (fun hwithin => ?_) hsplit
      rcases infix_concat hwithin with hbefore | hsuffix
      · exact hno hbefore
      · exact hshort ((h.held_eq_iff c).2 hsuffix)

omit [DecidableEq α] in
/-- Two occurrences of the word do not overlap, so the first one is the only one with none in front. -/
theorem first_unique {n : Needle α} {u v rest rest' : List α} (h : u ++ n.word ++ rest = v ++ n.word ++ rest')
    (hv : ¬n.word <:+: v) (hle : u.length ≤ v.length) : u = v ∧ rest = rest' := by
  have hu : u <+: v ++ n.word ++ rest' := by
    rw [← h, List.append_assoc]
    exact List.prefix_append _ _
  have hv' : v <+: v ++ n.word ++ rest' := by
    rw [List.append_assoc]
    exact List.prefix_append _ _
  have hprefix : u <+: v := List.prefix_of_prefix_length_le hu hv' hle
  obtain ⟨t, rfl⟩ := hprefix
  rw [List.append_assoc, List.append_assoc, List.append_assoc, List.append_cancel_left_eq] at h
  cases t with
  | nil =>
    rw [List.nil_append, List.append_cancel_left_eq] at h
    exact ⟨(List.append_nil u).symm, h⟩
  | cons a t =>
    exfalso
    obtain ⟨rfl, htail⟩ := List.cons.inj h
    -- the second occurrence starts inside of the first one or behind it
    rcases List.append_eq_append_iff.1 htail with ⟨z, rfl, -⟩ | ⟨z, hz, hword⟩
    · exact hv ⟨u, z, by rw [word, List.append_assoc, List.cons_append]⟩
    · cases z with
      | nil =>
        rw [List.append_nil] at hz
        exact hv ⟨u, [], by rw [word, hz, List.append_nil]⟩
      | cons b z =>
        obtain ⟨rfl, -⟩ := List.cons.inj hword
        exact n.head_notMem (hz ▸ List.mem_append_right t List.mem_cons_self)

/-- **The first occurrence**: the search finds the word with what stands in front of its first occurrence. -/
theorem split_eq_some_iff {n : Needle α} {l u rest : List α} :
    n.split ⟨[], 0⟩ l = some (u, rest) ↔ l = u ++ n.word ++ rest ∧ ¬n.word <:+: u := by
  have hno : ¬n.word <:+: ([] : List α) := by
    rw [List.infix_nil]
    exact List.cons_ne_nil _ _
  constructor
  · intro hsplit
    exact split_sound n.behind_nil hno hsplit
  · rintro ⟨rfl, hu⟩
    cases hsplit : n.split ⟨[], 0⟩ (u ++ n.word ++ rest) with
    | none => exact absurd ⟨u, rest, rfl⟩ (split_none n.behind_nil hno hsplit)
    | some x =>
      obtain ⟨v, rest'⟩ := x
      obtain ⟨heq, hv⟩ := split_sound n.behind_nil hno hsplit
      rw [List.nil_append] at heq
      rcases le_total u.length v.length with hle | hle
      · obtain ⟨rfl, rfl⟩ := first_unique heq hv hle
        rfl
      · obtain ⟨rfl, rfl⟩ := first_unique heq.symm hu hle
        rfl

end Needle

end Text
