import CppBlog.Text.Filters

set_option autoImplicit false

/-! # Searching and replacing in place

`str_replace` rewrites the text while it looks through it. What is to the left of its position is final,
and what is to the right of it is still the original, so each round finds the leftmost occurrence in the
part of the original that has not been looked at. The measure of the loop is that part. -/

namespace CppBlog

/-! ## The first occurrence -/

/-- In front of `after`, behind `before`, is where `src` occurs for the first time. -/
structure FirstAt (src before after : List Char) : Prop where
  first : ∀ j < before.length, ¬src <+: (before ++ src ++ after).drop j

theorem findSub_eq_none {src s : List Char} : findSub src s = none ↔ ¬src <:+: s := by
  induction s with
  | nil =>
    rw [findSub, List.infix_nil]
    cases src <;> simp
  | cons c t ih =>
    rw [findSub]
    by_cases hhead : src.isPrefixOf (c :: t) = true
    · rw [if_pos hhead]
      exact iff_of_false (by simp) fun h => h ( List.isPrefixOf_iff_prefix.1 hhead).isInfix
    · rw [if_neg hhead, Option.map_eq_none_iff, ih, List.infix_cons_iff, not_or,
        and_iff_right fun h => hhead ( List.isPrefixOf_iff_prefix.2 h)]

/-- **The search finds the first occurrence.** -/
theorem findSub_eq_some {src s : List Char} {k : Nat} (h : findSub src s = some k) :
    ∃ before after, s = before ++ src ++ after ∧ before.length = k ∧ FirstAt src before after := by
  induction s generalizing k with
  | nil =>
    rw [findSub] at h
    split at h
    · rename_i hempty
      obtain rfl : src = [] := by simpa using hempty
      obtain rfl := Option.some.inj h
      exact ⟨[], [], rfl, rfl, ⟨fun j hj => absurd hj (Nat.not_lt_zero j)⟩⟩
    · exact absurd h (by simp)
  | cons c t ih =>
    rw [findSub] at h
    split at h
    · rename_i hhead
      obtain ⟨after, hafter⟩ := List.isPrefixOf_iff_prefix.1 hhead
      obtain rfl := Option.some.inj h
      exact ⟨[], after, hafter.symm, rfl, ⟨fun j hj => absurd hj (Nat.not_lt_zero j)⟩⟩
    · rename_i hhead
      obtain ⟨j, hj, rfl⟩ := Option.map_eq_some_iff.1 h
      obtain ⟨before, after, rfl, rfl, hfirst⟩ := ih hj
      refine ⟨c :: before, after, rfl, rfl, ⟨fun i hi hpre => ?_⟩⟩
      cases i with
      | zero => exact hhead ( List.isPrefixOf_iff_prefix.2 hpre)
      | succ i => exact hfirst.first i (Nat.lt_of_succ_lt_succ hi) hpre

/-- The first occurrence is at one place. -/
theorem FirstAt.unique {src before after before' after' : List Char} (h : FirstAt src before after)
    (h' : FirstAt src before' after') (heq : before ++ src ++ after = before' ++ src ++ after') :
    before = before' ∧ after = after' := by
  have hoccurs (b a : List Char) : src <+: (b ++ src ++ a).drop b.length := by
    rw [List.append_assoc, List.drop_left]
    exact List.prefix_append src a
  have hlen : before.length = before'.length := by
    rcases Nat.lt_trichotomy before.length before'.length with hlt | heq' | hlt
    · exact absurd (heq ▸ hoccurs before after) (h'.first _ hlt)
    · exact heq'
    · exact absurd (heq ▸ hoccurs before' after') (h.first _ hlt)
  rw [List.append_assoc, List.append_assoc] at heq
  obtain ⟨rfl, hrest⟩ := List.append_inj heq hlen
  exact ⟨rfl, List.append_cancel_left hrest⟩

theorem exists_firstAt {src s : List Char} (h : src <:+: s) :
    ∃ before after, s = before ++ src ++ after ∧ FirstAt src before after := by
  cases hfind : findSub src s with
  | none => exact absurd h (findSub_eq_none.1 hfind)
  | some k =>
    obtain ⟨before, after, hs, -, hfirst⟩ := findSub_eq_some hfind
    exact ⟨before, after, hs, hfirst⟩

/-- **The search finds it there.** -/
theorem FirstAt.findSub {src before after : List Char} (h : FirstAt src before after) :
    findSub src (before ++ src ++ after) = some before.length := by
  cases hfind : CppBlog.findSub src (before ++ src ++ after) with
  | none => exact absurd ⟨before, after, rfl⟩ (findSub_eq_none.1 hfind)
  | some k =>
    obtain ⟨before', after', heq, rfl, hfirst⟩ := findSub_eq_some hfind
    rw [(h.unique hfirst heq).1]

/-! ## The result of a replacement -/

/-- The leftmost occurrences of `src` that do not overlap, replaced from left to right. -/
inductive Replaced (src dst : List Char) : List Char → List Char → Prop where
  | none {s : List Char} : ¬src <:+: s → Replaced src dst s s
  | first {before after out : List Char} : FirstAt src before after → Replaced src dst after out →
      Replaced src dst (before ++ src ++ after) (before ++ dst ++ out)

theorem Replaced.unique {src dst s out out' : List Char} (h : Replaced src dst s out)
    (h' : Replaced src dst s out') : out = out' := by
  have hoccurs (before after : List Char) : src <:+: before ++ src ++ after := ⟨before, after, rfl⟩
  induction h generalizing out' with
  | none hnone =>
    cases h' with
    | none => rfl
    | first => exact absurd (hoccurs _ _) hnone
  | first hfirst _ ih =>
    generalize hs : _ ++ src ++ _ = s at h'
    cases h' with
    | none hnone => exact absurd (hs ▸ hoccurs _ _) hnone
    | first hfirst' hrest' =>
      obtain ⟨rfl, rfl⟩ := hfirst.unique hfirst' hs
      rw [ih hrest']

/-- The loop of `str_replace`; `none` when the rounds are not enough for it to end. -/
def strReplaceRounds (src dst : List Char) : Nat → Nat → List Char → Option (List Char)
  | 0, _, _ => none
  | rounds + 1, pos, s =>
      match findFrom src pos s with
      | none => some s
      | some p => strReplaceRounds src dst rounds (p + dst.length) (s.take p ++ dst ++ s.drop (p + src.length))

/-- A loop that ends computes what `strReplaceLoop` does. -/
theorem strReplaceLoop_of_rounds {src dst out : List Char} {rounds pos : Nat} {s : List Char}
    (h : strReplaceRounds src dst rounds pos s = some out) : strReplaceLoop src dst rounds pos s = out := by
  induction rounds generalizing pos s with
  | zero => exact absurd h (by simp [strReplaceRounds])
  | succ rounds ih =>
    rw [strReplaceRounds] at h
    rw [strReplaceLoop]
    cases hfind : findFrom src pos s with
    | none =>
      rw [hfind] at h
      exact Option.some.inj h
    | some p =>
      rw [hfind] at h
      exact ih h

/-- **The loop ends, with the rest of the original replaced.** -/
theorem strReplaceRounds_eq_some {src : List Char} (dst : List Char) (hsrc : src ≠ []) {rounds : Nat} (done : List Char)
    {rest : List Char} (hrounds : rest.length < rounds) :
    ∃ out, strReplaceRounds src dst rounds done.length (done ++ rest) = some (done ++ out) ∧
      Replaced src dst rest out := by
  induction rounds generalizing done rest with
  | zero => exact absurd hrounds (Nat.not_lt_zero _)
  | succ rounds ih =>
    rw [strReplaceRounds, findFrom, List.drop_left]
    cases hfind : findSub src rest with
    | none => exact ⟨rest, rfl, .none (findSub_eq_none.1 hfind)⟩
    | some k =>
      obtain ⟨before, after, rfl, rfl, hfirst⟩ := findSub_eq_some hfind
      have htake : (done ++ (before ++ src ++ after)).take (done.length + before.length) = done ++ before := by
        rw [List.append_assoc, ← List.append_assoc, ← List.length_append, List.take_left]
      have hdrop : (done ++ (before ++ src ++ after)).drop (done.length + before.length + src.length) = after := by
        rw [← List.append_assoc, ← List.append_assoc, ← List.length_append, ← List.length_append, List.drop_left]
      have hpos : done.length + before.length + dst.length = (done ++ before ++ dst).length := by
        simp only [List.length_append]
      -- the measure is what has not been looked at
      have hless : after.length < rounds := by
        have hpositive : 0 < src.length := List.length_pos_iff.2 hsrc
        simp only [List.length_append] at hrounds
        omega
      obtain ⟨out, hout, hreplaced⟩ := ih (done ++ before ++ dst) hless
      refine ⟨before ++ dst ++ out, ?_, .first hfirst hreplaced⟩
      rw [Option.map_some]
      dsimp only
      rw [htake, hdrop, hpos, hout]
      simp only [List.append_assoc]

/-- **`str_replace` ends, and replaces the leftmost occurrences that do not overlap**, and nothing else
is such a result. -/
theorem strReplace_replaced (s src dst : String) (hsrc : src ≠ "") :
    (∃ rounds, strReplaceRounds src.toList dst.toList rounds 0 s.toList = some (strReplace s src dst).toList) ∧
      ∀ out, Replaced src.toList dst.toList s.toList out ↔ out = (strReplace s src dst).toList := by
  have hsrc' : src.toList ≠ [] := fun h => hsrc (String.toList_inj.1 h)
  have hrounds : s.toList.length < s.length + 1 := Nat.lt_succ_of_le (le_of_eq String.length_toList)
  obtain ⟨out, hout, hreplaced⟩ := strReplaceRounds_eq_some dst.toList hsrc' [] hrounds
  have hresult : (strReplace s src dst).toList = out := by
    rw [strReplace, String.toList_ofList]
    exact strReplaceLoop_of_rounds hout
  rw [hresult]
  refine ⟨⟨_, hout⟩, fun out' => ⟨fun h => h.unique hreplaced, ?_⟩⟩
  rintro rfl
  exact hreplaced

/-- A replacement that contains what is searched is not looked through again. -/
theorem strReplace_replaced_grows :
    (∃ rounds, strReplaceRounds "aa".toList "aaa".toList rounds 0 "aaaaa".toList =
        some (strReplace "aaaaa" "aa" "aaa").toList) ∧
      ∀ out, Replaced "aa".toList "aaa".toList "aaaaa".toList out ↔ out = (strReplace "aaaaa" "aa" "aaa").toList :=
  strReplace_replaced "aaaaa" "aa" "aaa" (by decide)

end CppBlog
