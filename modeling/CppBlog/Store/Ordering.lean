import Mathlib.Data.List.Sort

set_option autoImplicit false

/-! # Sorting and selecting

Sorting by insertion is stable, so rows may be dropped and rewritten before they are sorted or after it,
as long as what is left of them is ordered as the rows were; and rows behind the first `n` do not matter
to the first `n`. -/

namespace Store

variable {α β : Type} {r : α → α → Prop} {s : β → β → Prop}

/-- What is left of the rows is ordered as they were. -/
def OrderedAs (r : α → α → Prop) (s : β → β → Prop) (f : α → Option β) (l : List α) : Prop :=
  ∀ a ∈ l, ∀ b ∈ l, ∀ a' b', f a = some a' → f b = some b' → (r a b ↔ s a' b')

theorem OrderedAs.tail {f : α → Option β} {a : α} {l : List α} (h : OrderedAs r s f (a :: l)) :
    OrderedAs r s f l := fun b hb c hc => h b (List.mem_cons_of_mem a hb) c (List.mem_cons_of_mem a hc)

variable [DecidableRel r] [DecidableRel s]

theorem filterMap_orderedInsert_none {f : α → Option β} {a : α} (ha : f a = none) (l : List α) :
    (l.orderedInsert r a).filterMap f = l.filterMap f := by
  induction l with
  | nil => simp [ha]
  | cons b l ih =>
    rw [List.orderedInsert_cons]
    split
    · rw [List.filterMap_cons_none ha]
    · rw [List.filterMap_cons, List.filterMap_cons, ih]

/-- In front of rows it comes before, a row stays in front of what is left of them. -/
theorem orderedInsert_filterMap_of_forall {f : α → Option β} {a' : β} {l : List α}
    (h : ∀ b ∈ l, ∀ b', f b = some b' → s a' b') :
    (l.filterMap f).orderedInsert s a' = a' :: l.filterMap f := by
  cases hl : l.filterMap f with
  | nil => rfl
  | cons b' l' =>
    have hmem : b' ∈ l.filterMap f := hl ▸ List.mem_cons_self
    obtain ⟨b, hb, hfb⟩ := List.mem_filterMap.1 hmem
    exact List.orderedInsert_cons_of_le s l' (h b hb b' hfb)

theorem filterMap_orderedInsert_some [IsTrans α r] {f : α → Option β} {a : α} {a' : β}
    (ha : f a = some a') {l : List α} (hl : l.Pairwise r) (h : OrderedAs r s f (a :: l)) :
    (l.orderedInsert r a).filterMap f = (l.filterMap f).orderedInsert s a' := by
  induction l with
  | nil => simp [ha]
  | cons b l ih =>
    have hsub : OrderedAs r s f (a :: l) := fun x hx y hy =>
      h x (List.cons_subset_cons a (List.subset_cons_self b l) hx) y
        (List.cons_subset_cons a (List.subset_cons_self b l) hy)
    rw [List.orderedInsert_cons]
    split
    · rename_i hab
      -- all rows behind `b` come behind `a`
      rw [List.filterMap_cons_some ha, orderedInsert_filterMap_of_forall]
      intro c hc c' hfc
      refine (h a List.mem_cons_self c (List.mem_cons_of_mem a hc) a' c' ha hfc).1 ?_
      rcases List.mem_cons.1 hc with rfl | hc
      · exact hab
      · exact trans_of r hab (List.rel_of_pairwise_cons hl hc)
    · rename_i hab
      rw [List.filterMap_cons, List.filterMap_cons, ih hl.of_cons hsub]
      cases hfb : f b with
      | none => rfl
      | some b' =>
        have hne : ¬s a' b' := fun hs => hab ((h a List.mem_cons_self b
          (List.mem_cons_of_mem a List.mem_cons_self) a' b' ha hfb).2 hs)
        exact (List.orderedInsert_of_not_le s _ hne).symm

/-- **Rows can be dropped and rewritten before they are sorted or after it.** -/
theorem filterMap_insertionSort [Std.Total r] [IsTrans α r] {f : α → Option β} {l : List α}
    (h : OrderedAs r s f l) : (l.insertionSort r).filterMap f = (l.filterMap f).insertionSort s := by
  induction l with
  | nil => rfl
  | cons a l ih =>
    rw [List.insertionSort_cons]
    cases ha : f a with
    | none => rw [filterMap_orderedInsert_none ha, List.filterMap_cons_none ha, ih h.tail]
    | some a' =>
      have hperm : ∀ b, b ∈ a :: l.insertionSort r → b ∈ a :: l := by
        intro b hb
        rcases List.mem_cons.1 hb with rfl | hb
        · exact List.mem_cons_self
        · exact List.mem_cons_of_mem a ((List.mem_insertionSort r).1 hb)
      rw [filterMap_orderedInsert_some ha (List.pairwise_insertionSort r l)
        (fun b hb c hc => h b (hperm b hb) c (hperm c hc)), List.filterMap_cons_some ha,
        List.insertionSort_cons, ih h.tail]

/-- Dropping rows behind the first ones. -/
theorem take_filterMap_self {f : α → Option α} {n : Nat} {l : List α} (h : ∀ a ∈ l.take n, f a = some a) :
    (l.filterMap f).take n = l.take n := by
  induction l generalizing n with
  | nil => simp
  | cons a l ih =>
    cases n with
    | zero => simp
    | succ n =>
      rw [List.take_succ_cons] at h
      have ha := h a List.mem_cons_self
      rw [List.filterMap_cons_some ha, List.take_succ_cons, List.take_succ_cons,
        ih fun b hb => h b (List.mem_cons_of_mem a hb)]

end Store
