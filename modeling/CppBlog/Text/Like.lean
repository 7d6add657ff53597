import CppBlog.Text.Filters

set_option autoImplicit false

/-! # The escaping of search texts

`mysql_like` runs `str_replace` four times, each time for one character. A replacement of one character
is a substitution on the characters of the text, so the four of them together put a backslash before
each of the four special characters; the text can be read back from the result. -/

namespace CppBlog

/-! ## Replacing one character -/

theorem findSub_singleton_eq_none {c : Char} {l : List Char} (h : findSub [c] l = none) : c ∉ l := by
  induction l with
  | nil => simp
  | cons a l ih =>
    simp only [findSub] at h
    split at h
    · exact absurd h (by simp)
    · rename_i hhead
      have hne : c ≠ a := by
        intro hca
        exact hhead (by simp [hca])
      have hrest : findSub [c] l = none := by simpa using h
      intro hmem
      rcases List.mem_cons.1 hmem with hca | hmem
      · exact hne hca
      · exact ih hrest hmem

theorem findSub_singleton_eq_some {c : Char} {l : List Char} {k : Nat}
    (h : findSub [c] l = some k) :
    ∃ before after, l = before ++ c :: after ∧ before.length = k ∧ c ∉ before := by
  induction l generalizing k with
  | nil => exact absurd h (by simp [findSub])
  | cons a l ih =>
    simp only [findSub] at h
    split at h
    · rename_i hhead
      have hca : c = a := by simpa using hhead
      subst hca
      obtain rfl : 0 = k := by simpa using h
      exact ⟨[], l, rfl, rfl, by simp⟩
    · rename_i hhead
      obtain ⟨j, hj, rfl⟩ := Option.map_eq_some_iff.1 h
      obtain ⟨before, after, rfl, hlen, hnot⟩ := ih hj
      refine ⟨a :: before, after, rfl, by simp [hlen], ?_⟩
      intro hmem
      rcases List.mem_cons.1 hmem with hca | hmem
      · exact hhead (by simp [hca])
      · exact hnot hmem

/-- What stands for a character after the replacement of `c`. -/
def replaced (c : Char) (dst : List Char) (x : Char) : List Char := if x = c then dst else [x]

theorem flatMap_replaced_of_not_mem {c : Char} {dst l : List Char} (h : c ∉ l) :
    l.flatMap (replaced c dst) = l := by
  induction l with
  | nil => rfl
  | cons a l ih =>
    rw [List.mem_cons, not_or] at h
    rw [List.flatMap_cons, ih h.2, replaced, if_neg (Ne.symm h.1)]
    rfl

/-- What is done stays, and each round replaces the next occurrence. -/
theorem strReplaceLoop_singleton (c : Char) (dst : List Char) {fuel : Nat} (done : List Char)
    {rest : List Char} (hfuel : rest.length < fuel) :
    strReplaceLoop [c] dst fuel done.length (done ++ rest) =
      done ++ rest.flatMap (replaced c dst) := by
  induction fuel generalizing done rest with
  | zero => omega
  | succ fuel ih =>
    simp only [strReplaceLoop, findFrom, List.drop_left]
    cases hfind : findSub [c] rest with
    | none => simp [flatMap_replaced_of_not_mem (findSub_singleton_eq_none hfind)]
    | some k =>
      obtain ⟨before, after, rfl, rfl, hnot⟩ := findSub_singleton_eq_some hfind
      have htake : (done ++ (before ++ c :: after)).take (done.length + before.length) =
          done ++ before := by
        rw [← List.append_assoc, ← List.length_append, List.take_left]
      have hdrop : (done ++ (before ++ c :: after)).drop (done.length + before.length + 1) =
          after := by
        rw [← List.append_assoc, ← List.drop_drop, ← List.length_append, List.drop_left]
        rfl
      have hlen : done.length + before.length + dst.length = (done ++ before ++ dst).length := by
        simp only [List.length_append]
      simp only [Option.map_some, List.length_singleton]
      rw [htake, hdrop, hlen, ih _ (by simp at hfuel; omega)]
      simp [flatMap_replaced_of_not_mem hnot, replaced]

/-- `str_replace` for one character. -/
theorem strReplace_singleton (s : String) (c : Char) (src dst : String) (hsrc : src.toList = [c]) :
    (strReplace s src dst).toList = s.toList.flatMap (replaced c dst.toList) := by
  have hfuel : s.toList.length < s.length + 1 := Nat.lt_succ_of_le (le_of_eq String.length_toList)
  have hloop := strReplaceLoop_singleton c dst.toList [] hfuel
  rw [strReplace, hsrc, String.toList_ofList]
  exact hloop

/-! ## `mysql_like` -/

/-- The characters that get a backslash. -/
def isSpecial (c : Char) : Bool := c = '\\' || c = '_' || c = '|' || c = '%'

/-- What stands for a character in a pattern. -/
def escapeLike (c : Char) : List Char := if isSpecial c then ['\\', c] else [c]

theorem mysqlLike_toList (s : String) : (mysqlLike s).toList = s.toList.flatMap escapeLike := by
  rw [mysqlLike, strReplace_singleton _ '%' "%" _ rfl, strReplace_singleton _ '|' "|" _ rfl,
    strReplace_singleton _ '_' "_" _ rfl, strReplace_singleton _ '\\' "\\" _ rfl,
    List.flatMap_assoc, List.flatMap_assoc, List.flatMap_assoc]
  congr 1
  funext x
  by_cases h1 : x = '\\'
  · subst h1; decide
  by_cases h2 : x = '_'
  · subst h2; decide
  by_cases h3 : x = '|'
  · subst h3; decide
  by_cases h4 : x = '%'
  · subst h4; decide
  simp [replaced, escapeLike, isSpecial, h1, h2, h3, h4]

/-- A text can be read back from what stands for its characters, one by one, when no two characters
    can be confused at its beginning. -/
theorem flatMap_injective {α β : Type} {f : α → List β} (hne : ∀ a, f a ≠ [])
    (hstep : ∀ a a' t t', f a ++ t = f a' ++ t' → a = a' ∧ t = t') {l l' : List α}
    (h : l.flatMap f = l'.flatMap f) : l = l' := by
  induction l generalizing l' with
  | nil =>
    cases l' with
    | nil => rfl
    | cons a l' => exact absurd (List.append_eq_nil_iff.1 h.symm).1 (hne a)
  | cons a l ih =>
    cases l' with
    | nil => exact absurd (List.append_eq_nil_iff.1 h).1 (hne a)
    | cons a' l' =>
      obtain ⟨rfl, hrest⟩ := hstep _ _ _ _ h
      rw [ih hrest]

theorem escapeLike_inj (c c' : Char) (t t' : List Char) (h : escapeLike c ++ t = escapeLike c' ++ t') :
    c = c' ∧ t = t' := by
  -- the first character of the result tells whether one or two stand for the next of the text
  unfold escapeLike at h
  split_ifs at h with hc hc' hc'
  · simpa using h
  · obtain ⟨rfl, -⟩ := List.cons.inj h
    exact absurd (by decide) hc'
  · obtain ⟨rfl, -⟩ := List.cons.inj h
    exact absurd (by decide) hc
  · simpa using h

theorem flatMap_escapeLike_injective {l l' : List Char}
    (h : l.flatMap escapeLike = l'.flatMap escapeLike) : l = l' := by
  refine flatMap_injective (fun c => ?_) escapeLike_inj h
  unfold escapeLike
  split <;> simp

/-- **A search text can be read back from its pattern.** -/
theorem likePattern_injective {q q' : String} (h : likePattern q = likePattern q') : q = q' := by
  have hlist := congrArg String.toList h
  simp only [likePattern, String.toList_append, mysqlLike_toList] at hlist
  have hmiddle := List.append_cancel_right hlist
  have hinner := List.append_cancel_left hmiddle
  exact String.toList_injective (flatMap_escapeLike_injective hinner)

/-! ## The HTML escape -/

theorem escape_toList (s : String) :
    (escape s).toList = s.toList.flatMap (fun c => (escapeChar c).toList) := by
  rw [escape]
  induction s.toList with
  | nil => rfl
  | cons c l ih => simp [ih]

theorem escapeChar_inj (c c' : Char) (t t' : List Char)
    (h : (escapeChar c).toList ++ t = (escapeChar c').toList ++ t') : c = c' ∧ t = t' := by
  unfold escapeChar at h
  -- an ampersand stands only at the beginning of an escape
  split at h <;> split at h <;> simp at h ⊢ <;> grind

/-- **A text can be read back from its escaped form.** -/
theorem escape_injective {s s' : String} (h : escape s = escape s') : s = s' := by
  have hlist := congrArg String.toList h
  rw [escape_toList, escape_toList] at hlist
  refine String.toList_injective (flatMap_injective (fun c => ?_) escapeChar_inj hlist)
  unfold escapeChar
  split <;> simp

end CppBlog
