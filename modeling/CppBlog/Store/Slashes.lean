import CppBlog.Store.Paths

set_option autoImplicit false

/-! # Repeated slashes, and what stays below a path

A run of slashes in a path means what a single one means: `collapse` keeps one slash of each run, and
a path resolves to what its collapsed form resolves to. A path that goes on behind a slash without a
component `..` resolves to something at or below what it goes on from. -/

namespace Store

/-- A text with one slash for each run of slashes. -/
def collapse : List Char → List Char
  | [] => []
  | c :: s => if c = '/' ∧ s.head? = some '/' then collapse s else c :: collapse s

theorem head?_collapse (s : List Char) : (collapse s).head? = s.head? := by
  induction s with
  | nil => rfl
  | cons c s ih =>
      rw [collapse]
      split
      · rename_i h
        rw [ih, h.2, h.1]
        rfl
      · rfl

theorem collapse_cons_of_ne {c : Char} (h : c ≠ '/') (s : List Char) :
    collapse (c :: s) = c :: collapse s := by
  rw [collapse, if_neg fun hc => h hc.1]

/-- Texts collapse one by one unless a run of slashes stands where they meet. -/
theorem collapse_append {s t : List Char} (h : s.getLast? ≠ some '/' ∨ t.head? ≠ some '/') :
    collapse (s ++ t) = collapse s ++ collapse t := by
  induction s with
  | nil => rfl
  | cons c s ih =>
      cases s with
      | nil =>
          have hne : ¬(c = '/' ∧ t.head? = some '/') := by
            rintro ⟨rfl, ht⟩
            exact h.elim (fun h => h rfl) fun h => h ht
          simp only [List.cons_append, List.nil_append, collapse]
          rw [if_neg hne, if_neg (by simp)]
          rfl
      | cons d s =>
          have htail := ih (by simpa using h)
          have hcons (u : List Char) : collapse (c :: d :: u) =
              if c = '/' ∧ d = '/' then collapse (d :: u) else c :: collapse (d :: u) := by
            rw [collapse]
            simp
          simp only [List.cons_append] at htail ⊢
          rw [hcons, hcons, htail]
          split <;> rfl

/-- More slashes in front of a slash do not count. -/
theorem collapse_slashes (s t : List Char) (k : Nat) :
    collapse (s ++ (List.replicate k '/' ++ '/' :: t)) = collapse (s ++ '/' :: t) := by
  have hrun : collapse (List.replicate k '/' ++ '/' :: t) = collapse ('/' :: t) := by
    induction k with
    | zero => rfl
    | succ k ih =>
        have hhead : (List.replicate k '/' ++ '/' :: t).head? = some '/' := by cases k <;> rfl
        rw [List.replicate_succ, List.cons_append, collapse, if_pos ⟨rfl, hhead⟩, ih]
  have hhead : (List.replicate k '/' ++ '/' :: t).head? = some '/' := by cases k <;> rfl
  induction s with
  | nil => exact hrun
  | cons c s ih =>
      have heq : (s ++ (List.replicate k '/' ++ '/' :: t)).head? = (s ++ '/' :: t).head? := by
        cases s with
        | nil => exact hhead
        | cons d s => rfl
      rw [List.cons_append, List.cons_append, collapse, collapse, heq, ih]

/-- The first slash of a text parts it in one way. -/
theorem eq_of_append_slash {u v s t : List Char} (hu : '/' ∉ u) (hv : '/' ∉ v)
    (h : u ++ '/' :: s = v ++ '/' :: t) : u = v ∧ s = t := by
  induction u generalizing v with
  | nil =>
      cases v with
      | nil => exact ⟨rfl, (List.cons.inj h).2⟩
      | cons d v => exact absurd (List.cons.inj h).1 (List.ne_of_not_mem_cons hv)
  | cons c u ih =>
      cases v with
      | nil => exact absurd (List.cons.inj h).1.symm (List.ne_of_not_mem_cons hu)
      | cons d v =>
          obtain ⟨rfl, htail⟩ := List.cons.inj h
          obtain ⟨rfl, rfl⟩ :=
            ih (List.not_mem_of_not_mem_cons hu) (List.not_mem_of_not_mem_cons hv) htail
          exact ⟨rfl, rfl⟩

/-! ## Resolving -/

theorem takeWhile_collapse (s : List Char) :
    (collapse s).takeWhile (· ≠ '\x00') = collapse (s.takeWhile (· ≠ '\x00')) := by
  induction s with
  | nil => rfl
  | cons c s ih =>
      by_cases hnul : c = '\x00'
      · subst hnul
        rw [collapse_cons_of_ne (by decide)]
        rfl
      · have htake (u : List Char) : (c :: u).takeWhile (· ≠ '\x00') = c :: u.takeWhile (· ≠ '\x00') :=
          List.takeWhile_cons_of_pos (by simpa using hnul)
        have hhead : s.head? = some '/' ↔ (s.takeWhile (· ≠ '\x00')).head? = some '/' := by
          cases s with
          | nil => rfl
          | cons d s =>
              by_cases hd : d = '\x00'
              · subst hd
                simp
              · rw [List.takeWhile_cons_of_pos (by simpa using hd)]
                rfl
        rw [htake, collapse, collapse]
        by_cases hrun : c = '/' ∧ s.head? = some '/'
        · rw [if_pos hrun, if_pos ⟨hrun.1, hhead.1 hrun.2⟩]
          exact ih
        · rw [if_neg hrun, if_neg fun h => hrun ⟨h.1, hhead.2 h.2⟩, htake, ih]

/-- Components count but for the empty ones. -/
def nonempty (ws : List (List Char)) : List (List Char) := ws.filter (· ≠ [])

theorem nonempty_nil_cons (ws : List (List Char)) : nonempty ([] :: ws) = nonempty ws := by
  simp [nonempty]

theorem foldl_pushComponent (ws : List (List Char)) (done : Path) :
    ws.foldl pushComponent done = (nonempty ws).foldl pushComponent done := by
  induction ws generalizing done with
  | nil => rfl
  | cons w ws ih =>
      by_cases hw : w = []
      · subst hw
        rw [nonempty_nil_cons, List.foldl_cons, ih]
        simp [pushComponent]
      · have hcons : nonempty (w :: ws) = w :: nonempty ws := by simp [nonempty, hw]
        rw [hcons, List.foldl_cons, List.foldl_cons, ih]

/-- Collapsing keeps the first component, and the others but for empty ones. -/
theorem splitSlash_collapse (s : List Char) :
    ∃ w ws ws', splitSlash s = w :: ws ∧ splitSlash (collapse s) = w :: ws' ∧
      nonempty ws' = nonempty ws := by
  induction s with
  | nil => exact ⟨[], [], [], rfl, rfl, rfl⟩
  | cons c s ih =>
      obtain ⟨w, ws, ws', hs, hcs, hws⟩ := ih
      by_cases hc : c = '/'
      · subst hc
        have hsplit (u : List Char) : splitSlash ('/' :: u) = [] :: splitSlash u := rfl
        rw [collapse, hsplit]
        split
        · rename_i hrun
          -- the next component is empty as well
          obtain ⟨d, t, rfl⟩ : ∃ d t, s = d :: t := by
            cases s with
            | nil => exact absurd hrun.2 (by simp)
            | cons d t => exact ⟨d, t, rfl⟩
          obtain rfl : d = '/' := Option.some.inj hrun.2
          rw [hsplit] at hs
          obtain ⟨rfl, rfl⟩ := List.cons.inj hs
          exact ⟨[], _, ws', rfl, hcs, by rw [hsplit, nonempty_nil_cons, hws]⟩
        · refine ⟨[], _, _, rfl, hsplit _, ?_⟩
          rw [hs, hcs]
          simp only [nonempty, List.filter_cons] at hws ⊢
          rw [hws]
      · rw [collapse_cons_of_ne hc, splitSlash, splitSlash, if_neg hc, if_neg hc, hs, hcs]
        exact ⟨c :: w, ws, ws', rfl, rfl, hws⟩

/-- **Paths that collapse to the same text resolve to the same path.** -/
theorem resolve_eq_of_collapse {p q : String} (h : collapse p.toList = collapse q.toList) :
    resolve p = resolve q := by
  have hresolve (p : String) : resolve p =
      ((splitSlash ((collapse p.toList).takeWhile (· ≠ '\x00'))).foldl pushComponent
        (if ((collapse p.toList).takeWhile (· ≠ '\x00')).head? = some '/' then [[]] else [])).reverse := by
    rw [takeWhile_collapse, head?_collapse, resolve]
    generalize p.toList.takeWhile (· ≠ '\x00') = cs
    obtain ⟨w, ws, ws', hs, hcs, hws⟩ := splitSlash_collapse cs
    rw [hs, hcs, List.foldl_cons, List.foldl_cons, foldl_pushComponent ws, foldl_pushComponent ws', hws]
  rw [hresolve p, hresolve q, h]

/-! ## At or below a path -/

/-- The components of a text, as far as it is read. -/
def components (t : List Char) : List (List Char) := splitSlash (t.takeWhile (· ≠ '\x00'))

theorem splitSlash_append_slash (s t : List Char) :
    splitSlash (s ++ '/' :: t) = splitSlash s ++ splitSlash t := by
  induction s with
  | nil => rfl
  | cons c s ih =>
      rw [List.cons_append, splitSlash, splitSlash, ih]
      split
      · rfl
      · obtain ⟨w, ws, -, hs, -⟩ := splitSlash_collapse s
        rw [hs]
        rfl

theorem pushComponent_suffix {w : List Char} (hw : w ≠ ['.', '.']) (done : Path) :
    done <:+ pushComponent done w := by
  unfold pushComponent
  rw [if_neg hw]
  split
  · exact List.suffix_rfl
  · exact List.suffix_cons w done

theorem foldl_pushComponent_suffix {ws : List (List Char)} (hws : ['.', '.'] ∉ ws) (done : Path) :
    done <:+ ws.foldl pushComponent done := by
  induction ws generalizing done with
  | nil => exact List.suffix_rfl
  | cons w ws ih =>
      rw [List.mem_cons, not_or] at hws
      exact (pushComponent_suffix (Ne.symm hws.1) done).trans (ih hws.2 _)

/-- Nothing behind a NUL is read. -/
theorem resolve_of_nul {s t : String} {u : List Char} (hnul : '\x00' ∈ s.toList)
    (ht : t.toList = s.toList ++ u) : resolve t = resolve s := by
  have hshort : (s.toList.takeWhile (· ≠ '\x00')).length ≠ s.toList.length := by
    intro hfull
    have hself := (List.takeWhile_prefix fun c => decide (c ≠ '\x00')).eq_of_length hfull
    rw [← hself] at hnul
    simpa using List.all_eq_true.1 (List.all_takeWhile (p := fun c => decide (c ≠ '\x00'))) _ hnul
  have hread : t.toList.takeWhile (· ≠ '\x00') = s.toList.takeWhile (· ≠ '\x00') := by
    rw [ht, List.takeWhile_append, if_neg hshort]
  rw [resolve, resolve, hread]

/-- **Without a component `..` a path leads to something at or below where it starts.** -/
theorem resolve_below {s t u : String} (ht : t.toList = s.toList ++ '/' :: u.toList)
    (hu : ['.', '.'] ∉ components u.toList) : resolve s <+: resolve t := by
  by_cases hnul : '\x00' ∈ s.toList
  · exact (resolve_of_nul hnul ht) ▸ List.prefix_rfl
  have hread : t.toList.takeWhile (· ≠ '\x00') = s.toList ++ '/' :: u.toList.takeWhile (· ≠ '\x00') := by
    rw [ht, List.takeWhile_append, takeWhile_ne_eq_self hnul, if_pos rfl,
      List.takeWhile_cons_of_pos (by decide)]
  cases hs : s.toList with
  | nil =>
      have hempty : resolve s = [] := by rw [resolve, hs]; rfl
      rw [hempty]
      exact List.nil_prefix
  | cons c l =>
      have hhead : (s.toList ++ '/' :: u.toList.takeWhile (· ≠ '\x00')).head? = s.toList.head? := by
        rw [hs]
        rfl
      rw [resolve, resolve, hread, takeWhile_ne_eq_self hnul, hhead, splitSlash_append_slash,
        List.foldl_append, List.reverse_prefix]
      exact foldl_pushComponent_suffix hu _

/-! ### Texts without such a component -/

/-- A component stands somewhere in the text. -/
theorem infix_of_mem_splitSlash {w s : List Char} (h : w ∈ splitSlash s) : w <:+: s := by
  have hsplit : ∀ s : List Char, (∀ v ∈ (splitSlash s).head?, v <+: s) ∧ ∀ v ∈ splitSlash s, v <:+: s := by
    intro s
    induction s with
    | nil => exact ⟨by simp [splitSlash], by simp [splitSlash]⟩
    | cons c s ih =>
        obtain ⟨v, vs, -, hs, -⟩ := splitSlash_collapse s
        rw [hs] at ih
        have hfirst : v <+: s := ih.1 v rfl
        rw [splitSlash, hs]
        split
        · refine ⟨by simp, fun w hw => ?_⟩
          rcases List.mem_cons.1 hw with rfl | hw
          · exact List.nil_infix
          · exact (ih.2 w hw).trans (List.suffix_cons c s).isInfix
        · have hcons : c :: v <+: c :: s := List.cons_prefix_cons.2 ⟨rfl, hfirst⟩
          refine ⟨fun w hw => Option.some.inj hw ▸ hcons, fun w hw => ?_⟩
          rcases List.mem_cons.1 hw with rfl | hw
          · exact hcons.isInfix
          · exact (ih.2 w (List.mem_cons_of_mem _ hw)).trans (List.suffix_cons c s).isInfix
  exact (hsplit s).2 w h

theorem infix_of_mem_components {w t : List Char} (h : w ∈ components t) : w <:+: t :=
  (infix_of_mem_splitSlash h).trans (List.takeWhile_prefix _).isInfix

/-- One dot makes no `..`. -/
theorem notMem_components_of_count {t : List Char} (h : t.count '.' ≤ 1) : ['.', '.'] ∉ components t := by
  intro hmem
  have hcount := (infix_of_mem_components hmem).sublist.count_le '.'
  have htwo : ['.', '.'].count '.' = 2 := by decide
  omega

/-- The components of a text whose components are known. -/
theorem components_cons {w t : List Char} (hslash : '/' ∉ w) (hnul : '\x00' ∉ w) :
    components (w ++ '/' :: t) = w :: components t := by
  have hread : (w ++ '/' :: t).takeWhile (· ≠ '\x00') = w ++ '/' :: t.takeWhile (· ≠ '\x00') := by
    rw [List.takeWhile_append, takeWhile_ne_eq_self hnul, if_pos rfl,
      List.takeWhile_cons_of_pos (by decide)]
  rw [components, hread, splitSlash_append_slash, splitSlash_of_notMem hslash]
  rfl

theorem components_single {w : List Char} (hslash : '/' ∉ w) (hnul : '\x00' ∉ w) : components w = [w] := by
  rw [components, takeWhile_ne_eq_self hnul, splitSlash_of_notMem hslash]

end Store
