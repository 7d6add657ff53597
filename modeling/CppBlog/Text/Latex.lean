import CppBlog.Text.Replacing

set_option autoImplicit false

/-! # Formulas in a text

`latex_filter` looks for both markers from the same position, the end of the last formula it replaced.
A closing marker that stands alone is then found before the next opening one, and ends the loop: what
follows is copied with its formulas. -/

namespace CppBlog

def opening : List Char := "[tex]".toList

def closing : List Char := "[/tex]".toList

/-- The text of a formula between its markers. -/
def formula (before tex after : List Char) : List Char := before ++ opening ++ (tex ++ closing ++ after)

/-- The first opening marker with a closing one behind it, up to the first closing one. -/
structure Block (before tex after : List Char) : Prop where
  opens : ∀ j < before.length, opening <+: (formula before tex after).drop j →
    ¬closing <:+: (formula before tex after).drop (j + opening.length)
  closes : FirstAt closing tex after

/-- No opening marker has a closing one behind it. -/
def NoBlock (s : List Char) : Prop := ∀ before after, s = before ++ opening ++ after → ¬closing <:+: after

/-- What the filter is for: the formulas replaced from left to right. -/
inductive Latexed (convert : String → String) : List Char → List Char → Prop where
  | rest {s : List Char} : NoBlock s → Latexed convert s s
  | block {before tex after out : List Char} : Block before tex after → Latexed convert after out →
      Latexed convert (formula before tex after)
        (before ++ (latexBlock convert (String.ofList tex)).toList ++ out)

/-- Formulas with no closing marker alone in front of them. -/
inductive MarkersPaired : List Char → Prop where
  | rest {s : List Char} : NoBlock s → MarkersPaired s
  | block {before tex after : List Char} : Block before tex after → ¬closing <:+: before → MarkersPaired after →
      MarkersPaired (formula before tex after)

/-- What the loop of `latex_filter` makes of a text. -/
inductive Scanned (convert : String → String) : List Char → List Char → Prop where
  | rest {s : List Char} : NoBlock s → Scanned convert s s
  | stray {before tex after : List Char} : Block before tex after → closing <:+: before →
      Scanned convert (formula before tex after) (formula before tex after)
  | block {before tex after out : List Char} : Block before tex after → ¬closing <:+: before →
      Scanned convert after out → Scanned convert (formula before tex after)
        (before ++ (latexBlock convert (String.ofList tex)).toList ++ out)

/-! ## Where a formula stands -/

section
variable {before tex after before' tex' after' : List Char}

/-- The first opening marker with a closing one behind it is the first opening marker. -/
theorem Block.firstAt (h : Block before tex after) : FirstAt opening before (tex ++ closing ++ after) := by
  refine ⟨fun j hj hpre => h.opens j hj hpre ?_⟩
  -- the closing marker of the formula is behind it
  have hle : j + opening.length ≤ (before ++ opening).length := by
    rw [List.length_append]
    omega
  rw [formula, List.drop_append_of_le_length hle, List.append_assoc tex]
  exact ⟨(before ++ opening).drop (j + opening.length) ++ tex, after, by simp only [List.append_assoc]⟩

theorem Block.unique (h : Block before tex after) (h' : Block before' tex' after')
    (heq : formula before tex after = formula before' tex' after') :
    before = before' ∧ tex = tex' ∧ after = after' := by
  obtain ⟨rfl, hrest⟩ := h.firstAt.unique h'.firstAt heq
  obtain ⟨rfl, rfl⟩ := h.closes.unique h'.closes hrest
  exact ⟨rfl, rfl, rfl⟩

theorem not_noBlock : ¬NoBlock (formula before tex after) :=
  fun h => h before (tex ++ closing ++ after) rfl ⟨tex, after, rfl⟩

/-- A text with a formula begins with one. -/
theorem exists_block {s : List Char} (h : ¬NoBlock s) :
    ∃ before tex after, s = formula before tex after ∧ Block before tex after := by
  simp only [NoBlock, not_forall, not_not] at h
  obtain ⟨b, a, hs, hclosing⟩ := h
  obtain ⟨before, after, hs', hfirst⟩ := exists_firstAt (show opening <:+: s from ⟨b, a, hs.symm⟩)
  -- what follows the first opening marker ends with what follows the other
  have hlen : before.length ≤ b.length := by
    by_contra hlt
    refine hfirst.first b.length (Nat.lt_of_not_le hlt) ?_
    rw [← hs', hs, List.append_assoc, List.drop_left]
    exact List.prefix_append _ _
  have hsuffix : a <:+ after := by
    refine List.suffix_of_suffix_length_le ⟨b ++ opening, hs.symm⟩ ⟨before ++ opening, hs'.symm⟩ ?_
    have hboth := congrArg List.length (hs.symm.trans hs')
    simp only [List.length_append] at hboth
    omega
  obtain ⟨tex, after', rfl, hcloses⟩ := exists_firstAt (hclosing.trans hsuffix.isInfix)
  refine ⟨before, tex, after', hs', ⟨fun j hj hpre => ?_, hcloses⟩⟩
  exact absurd hpre (hfirst.first j hj)

end

/-! ## Where markers stand -/

theorem getElem?_of_occurs {src s : List Char} {j : Nat} (h : src <+: s.drop j) {i : Nat} (hi : i < src.length) :
    s[j + i]? = src[i]? := by
  obtain ⟨t, ht⟩ := h
  rw [← List.getElem?_drop, ← ht, List.getElem?_append_left hi]

/-- Two markers do not overlap: a bracket stands at the beginning of each only. -/
theorem markers_apart {s : List Char} {k j : Nat} (hopen : opening <+: s.drop k) (hclose : closing <+: s.drop j) :
    j + closing.length ≤ k ∨ k + opening.length ≤ j := by
  by_contra hoverlap
  have hlt : k < j + 6 ∧ j < k + 5 := by
    have hlen : opening.length = 5 ∧ closing.length = 6 := ⟨rfl, rfl⟩
    omega
  have hinside : ∀ d < 6, 1 ≤ d → closing[d]? ≠ opening[0]? := by decide
  have hinside' : ∀ d < 5, 1 ≤ d → opening[d]? ≠ closing[0]? := by decide
  rcases Nat.lt_trichotomy j k with hjk | rfl | hkj
  · have hat := getElem?_of_occurs hclose (show k - j < closing.length from by show k - j < 6; omega)
    have hat' := getElem?_of_occurs hopen (show 0 < opening.length by decide)
    rw [show j + (k - j) = k + 0 by omega, hat'] at hat
    exact hinside (k - j) (by omega) (by omega) hat.symm
  · have hat := getElem?_of_occurs hclose (show 1 < closing.length by decide)
    have hat' := getElem?_of_occurs hopen (show 1 < opening.length by decide)
    exact absurd (hat.symm.trans hat') (by decide)
  · have hat := getElem?_of_occurs hopen (show j - k < opening.length from by show j - k < 5; omega)
    have hat' := getElem?_of_occurs hclose (show 0 < closing.length by decide)
    rw [show k + (j - k) = j + 0 by omega, hat'] at hat
    exact hinside' (j - k) (by omega) (by omega) hat.symm

theorem occurs_length (b src a : List Char) : src <+: (b ++ src ++ a).drop b.length := by
  rw [List.append_assoc, List.drop_left]
  exact List.prefix_append src a

section
variable {before tex after : List Char}

/-- **The closing marker of a formula is the first one** when none stands alone in front of it. -/
theorem Block.firstAt_closing (h : Block before tex after) (halone : ¬closing <:+: before) :
    FirstAt closing (before ++ opening ++ tex) after := by
  refine ⟨fun j hj hpre => ?_⟩
  have hs : before ++ opening ++ tex ++ closing ++ after = before ++ opening ++ (tex ++ closing ++ after) := by
    simp only [List.append_assoc]
  rw [hs] at hpre
  rcases markers_apart (occurs_length before opening _) hpre with hle | hle
  · -- it would be in front of the opening marker
    refine halone ?_
    have hdrop : closing <+: before.drop j := by
      rw [List.append_assoc, List.drop_append_of_le_length (by omega)] at hpre
      refine List.prefix_of_prefix_length_le hpre (List.prefix_append _ _) ?_
      rw [List.length_drop]
      omega
    exact hdrop.isInfix.trans (List.drop_suffix j before).isInfix
  · -- it would be inside the formula
    obtain ⟨i, rfl⟩ := Nat.exists_eq_add_of_le hle
    rw [← List.length_append, ← List.drop_drop, List.drop_left] at hpre
    refine h.closes.first i ?_ hpre
    simp only [List.length_append] at hj
    omega

/-- A closing marker in front of a formula is found before it. -/
theorem findSub_closing_lt (tex after : List Char) (halone : closing <:+: before) :
    ∃ k, findSub closing (formula before tex after) = some k ∧ k < before.length := by
  obtain ⟨b, a, rfl⟩ := halone
  cases hfind : findSub closing (formula (b ++ closing ++ a) tex after) with
  | none =>
    refine absurd ?_ (findSub_eq_none.1 hfind)
    exact ⟨b, a ++ opening ++ (tex ++ closing ++ after), by simp only [formula, List.append_assoc]⟩
  | some k =>
    obtain ⟨b', a', heq, rfl, hfirst⟩ := findSub_eq_some hfind
    refine ⟨b'.length, rfl, ?_⟩
    have hle : b'.length ≤ b.length := by
      by_contra hlt
      refine hfirst.first b.length (Nat.lt_of_not_le hlt) ?_
      rw [← heq, formula, List.append_assoc, List.append_assoc, List.append_assoc, List.drop_left]
      exact List.prefix_append _ _
    have hlen : closing.length = 6 := rfl
    simp only [List.length_append]
    omega

end

/-! ## The loop -/

section
variable {convert : String → String} {inp : List Char} {fuel pOld p1 p2 : Nat} {out : String}

theorem latexLoop_ends (h : ∀ p1 p2, findFrom opening pOld inp = some p1 → findFrom closing pOld inp = some p2 → ¬p1 < p2) :
    latexLoop convert inp (fuel + 1) pOld out = out ++ String.ofList (inp.drop pOld) := by
  rw [latexLoop, show "[tex]".toList = opening from rfl, show "[/tex]".toList = closing from rfl]
  split
  · rename_i p1 p2 h1 h2
    rw [if_neg (h p1 p2 h1 h2)]
  · rfl

theorem latexLoop_block (h1 : findFrom opening pOld inp = some p1) (h2 : findFrom closing pOld inp = some p2)
    (hlt : p1 < p2) : latexLoop convert inp (fuel + 1) pOld out =
      latexLoop convert inp fuel (p2 + 6) (out ++ String.ofList ((inp.drop pOld).take (p1 - pOld)) ++
        latexBlock convert (String.ofList ((inp.drop (p1 + 5)).take (p2 - (p1 + 5))))) := by
  rw [latexLoop, show "[tex]".toList = opening from rfl, show "[/tex]".toList = closing from rfl, h1, h2]
  exact if_pos hlt

end

/-- **A round of the loop either ends it or replaces one formula.** -/
theorem latexLoop_scanned (convert : String → String) {fuel : Nat} (done : List Char) {rest : List Char} (out : String)
    (hfuel : rest.length < fuel) : ∃ out', Scanned convert rest out' ∧
      latexLoop convert (done ++ rest) fuel done.length out = out ++ String.ofList out' := by
  induction fuel generalizing done rest out with
  | zero => exact absurd hfuel (Nat.not_lt_zero _)
  | succ fuel ih =>
    by_cases hnone : NoBlock rest
    · refine ⟨rest, .rest hnone, ?_⟩
      rw [latexLoop_ends, List.drop_left]
      intro p1 p2 h1 h2 hlt
      rw [findFrom, List.drop_left] at h1 h2
      obtain ⟨k, hk, rfl⟩ := Option.map_eq_some_iff.1 h1
      obtain ⟨j, hj, rfl⟩ := Option.map_eq_some_iff.1 h2
      obtain ⟨b, a, hb, rfl, -⟩ := findSub_eq_some hk
      obtain ⟨b', a', hb', rfl, -⟩ := findSub_eq_some hj
      -- the closing marker would be behind the opening one
      refine hnone b a hb ?_
      have hopen := hb ▸ occurs_length b opening a
      have hclose := hb' ▸ occurs_length b' closing a'
      have hle : b.length + opening.length ≤ b'.length := by
        rcases markers_apart hopen hclose with h | h
        · omega
        · exact h
      obtain ⟨i, hi⟩ := Nat.exists_eq_add_of_le hle
      rw [hi, hb, ← List.length_append, ← List.drop_drop, List.drop_left] at hclose
      exact hclose.isInfix.trans (List.drop_suffix i a).isInfix
    · obtain ⟨before, tex, after, rfl, hblock⟩ := exists_block hnone
      have hopen : findFrom opening done.length (done ++ formula before tex after) =
          some (done.length + before.length) := by
        rw [findFrom, List.drop_left, formula, hblock.firstAt.findSub, Option.map_some]
      by_cases hstray : closing <:+: before
      · refine ⟨_, .stray hblock hstray, ?_⟩
        rw [latexLoop_ends, List.drop_left]
        intro p1 p2 h1 h2
        obtain ⟨k, hk, hlt⟩ := findSub_closing_lt tex after hstray
        rw [findFrom, List.drop_left, hk] at h2
        rw [hopen] at h1
        obtain rfl := Option.some.inj h1
        obtain rfl := Option.some.inj h2
        show ¬done.length + before.length < done.length + k
        omega
      · have hfirst := hblock.firstAt_closing hstray
        have hformula : formula before tex after = before ++ opening ++ tex ++ closing ++ after := by
          simp only [formula, List.append_assoc]
        have hclose : findFrom closing done.length (done ++ formula before tex after) =
            some (done.length + (before ++ opening ++ tex).length) := by
          rw [findFrom, List.drop_left, hformula, hfirst.findSub, Option.map_some]
        have hlen : opening.length = 5 ∧ closing.length = 6 := ⟨rfl, rfl⟩
        have hless : after.length < fuel := by
          rw [hformula] at hfuel
          simp only [List.length_append] at hfuel
          omega
        obtain ⟨out', hscanned, hloop⟩ := ih (done ++ before ++ opening ++ tex ++ closing)
          (out ++ String.ofList before ++ latexBlock convert (String.ofList tex)) hless
        refine ⟨_, .block hblock hstray hscanned, ?_⟩
        have htake : ((done ++ formula before tex after).drop done.length).take (done.length + before.length - done.length) =
            before := by
          rw [List.drop_left, Nat.add_sub_cancel_left, formula, List.append_assoc, List.take_left]
        have htex : ((done ++ formula before tex after).drop (done.length + before.length + 5)).take
            (done.length + (before ++ opening ++ tex).length - (done.length + before.length + 5)) = tex := by
          have hdrop : done.length + before.length + 5 = (done ++ (before ++ opening)).length := by
            simp only [List.length_append]
            omega
          have htake' : done.length + (before ++ opening ++ tex).length - (done.length + before.length + 5) =
              tex.length := by
            simp only [List.length_append]
            omega
          rw [htake', hdrop, formula, ← List.append_assoc done _ (tex ++ closing ++ after), List.drop_left,
            List.append_assoc tex, List.take_left]
        have hpos : done.length + (before ++ opening ++ tex).length + 6 =
            (done ++ before ++ opening ++ tex ++ closing).length := by
          simp only [List.length_append]
          omega
        have hinp : done ++ formula before tex after = done ++ before ++ opening ++ tex ++ closing ++ after := by
          simp only [formula, List.append_assoc]
        rw [latexLoop_block hopen hclose (by simp only [List.length_append]; omega), htake, htex, hpos, hinp, hloop]
        simp only [String.ofList_append, String.append_assoc, String.ofList_toList]

/-! ## The filter -/

section
variable {convert : String → String} {before tex after s out : List Char}

theorem Latexed.of_block (h : Latexed convert (formula before tex after) out) (hblock : Block before tex after) :
    ∃ rest, out = before ++ (latexBlock convert (String.ofList tex)).toList ++ rest ∧ Latexed convert after rest := by
  generalize hs : formula before tex after = s at h
  cases h with
  | rest hnone => exact absurd (hs ▸ hnone) not_noBlock
  | block hblock' hrest =>
    obtain ⟨rfl, rfl, rfl⟩ := hblock.unique hblock' hs
    exact ⟨_, rfl, hrest⟩

theorem MarkersPaired.of_block (h : MarkersPaired (formula before tex after)) (hblock : Block before tex after) :
    ¬closing <:+: before ∧ MarkersPaired after := by
  generalize hs : formula before tex after = s at h
  cases h with
  | rest hnone => exact absurd (hs ▸ hnone) not_noBlock
  | block hblock' halone hrest =>
    obtain ⟨rfl, rfl, rfl⟩ := hblock.unique hblock' hs
    exact ⟨halone, hrest⟩

/-- Formulas with their markers in pairs are all replaced. -/
theorem Scanned.latexed (h : Scanned convert s out) (hpaired : MarkersPaired s) : Latexed convert s out := by
  induction h with
  | rest hnone => exact .rest hnone
  | stray hblock hstray => exact absurd hstray (hpaired.of_block hblock).1
  | block hblock _ _ ih => exact .block hblock (ih (hpaired.of_block hblock).2)

theorem head?_latexBlock (tex : String) : (latexBlock (fun _ => "f") tex).toList.head? = some '<' := by
  rw [latexBlock, if_neg (by decide)]
  simp only [String.toList_append]
  rfl

/-- A formula that is copied is not replaced. -/
theorem not_latexed_copied (hblock : Block before tex after) :
    ¬Latexed (fun _ => "f") (formula before tex after) (formula before tex after) := by
  intro h
  obtain ⟨rest, heq, -⟩ := h.of_block hblock
  rw [formula, List.append_assoc before, List.append_assoc before] at heq
  have hrest := congrArg List.head? (List.append_cancel_left heq)
  simp only [List.head?_append, head?_latexBlock] at hrest
  exact absurd (show some '[' = some '<' from hrest) (by decide)

theorem Scanned.paired (h : Scanned (fun _ => "f") s out) (hlatexed : Latexed (fun _ => "f") s out) : MarkersPaired s := by
  induction h with
  | rest hnone => exact .rest hnone
  | stray hblock hstray => exact absurd hlatexed (not_latexed_copied hblock)
  | block hblock halone _ ih =>
    obtain ⟨rest, heq, hrest⟩ := hlatexed.of_block hblock
    obtain rfl := List.append_cancel_left heq
    exact .block hblock halone (ih hrest)

end

/-- **The filter replaces the formulas of a text, whatever the conversion makes of them, exactly when no
closing marker stands alone in front of one.** -/
theorem latexFilter_latexed_iff (inp : String) :
    (∀ convert, Latexed convert inp.toList (latexFilter (some convert) inp).toList) ↔ MarkersPaired inp.toList := by
  have hscanned (convert : String → String) : Scanned convert inp.toList (latexFilter (some convert) inp).toList := by
    have hfuel : inp.toList.length < inp.length + 1 := Nat.lt_succ_of_le (le_of_eq String.length_toList)
    obtain ⟨out, hout, hloop⟩ := latexLoop_scanned convert [] "" hfuel
    rw [latexFilter, show latexLoop convert inp.toList (inp.length + 1) 0 "" = _ from hloop, String.empty_append,
      String.toList_ofList]
    exact hout
  constructor
  · intro h
    exact (hscanned fun _ => "f").paired (h fun _ => "f")
  · intro h convert
    exact (hscanned convert).latexed h

/-- A closing marker alone in front of a formula leaves the formula as it is. -/
theorem not_latexFilter_latexed : ¬∀ (convert : String → String) (inp : String),
    Latexed convert inp.toList (latexFilter (some convert) inp).toList := by
  intro h
  have hcopied := h (fun _ => "f") "[/tex][tex]x[/tex]"
  rw [show latexFilter (some fun _ => "f") "[/tex][tex]x[/tex]" = "[/tex][tex]x[/tex]" from by decide] at hcopied
  refine @not_latexed_copied "[/tex]".toList ['x'] [] ⟨?_, ⟨?_⟩⟩ hcopied
  · decide
  · decide

end CppBlog
