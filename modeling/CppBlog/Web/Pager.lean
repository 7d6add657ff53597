import CppBlog.Web.Views
import CppBlog.Text.CNumber
import Mathlib.Data.Int.SuccPred
import Mathlib.Order.SuccPred.Relation

set_option autoImplicit false

/-! # Links from page to page

The pages `multi_page` shows are a window around the present one. Its ends are found one after the
other, the first from the present page and the last from the first; together they leave out neither
neighbour, so links lead from each page to the next and to the one before, and along them anywhere. -/

namespace CppBlog

open Text

/-- The address a page with a number is linked with. -/
def pageAddress (url : Option Int → String) (query : String) (n : Int) : String :=
  url (if n = 0 then none else some n) ++ (if query.isEmpty then "" else "?" ++ query)

/-- An item of the window that stands for page `n`. -/
def PageItem.Shows (url : Option Int → String) (query : String) (n : Int) (item : PageItem) : Prop :=
  item = .cur (toString (n + 1)) ∨ item = .link (pageAddress url query n) "page" (toString (n + 1))

/-- What the items of a pager look like: a window from `b` to `e` among the pages from 0 to `total`,
    around page `cur`. -/
structure Windowed (url : Option Int → String) (query : String) (total cur : Int) (items : List PageItem)
    (b e : Int) : Prop where
  ten : e < b + 10
  within : 0 ≤ b ∧ e < total
  current : b ≤ cur ∧ cur ≤ e
  neighbours : (0 < cur → b < cur) ∧ (cur + 1 < total → cur < e)
  shown : ∀ n, (∃ item ∈ items, item.Shows url query n) ↔ b ≤ n ∧ n ≤ e
  present : ∀ text, .cur text ∈ items ↔ text = toString (cur + 1)
  toFirst : .link (pageAddress url query 0) "page first" "&laquo;" ∈ items ↔ ¬b ≤ 0
  toLast : .link (pageAddress url query (total - 1)) "page last" "&raquo;" ∈ items ↔ ¬total - 1 ≤ e
  inside : ∀ href cls text, .link href cls text ∈ items →
    ∃ n, 0 ≤ n ∧ n < total ∧ n ≠ cur ∧ href = pageAddress url query n

/-- From page `n` a link leads to page `m`. -/
def LinksTo (url : Option Int → String) (query : String) (p : Paging) (n m : Int) : Prop :=
  ∃ cls text, .link (pageAddress url query m) cls text ∈ (multiPage url query { p with curpage := n }).items

section
variable {url : Option Int → String} {query : String} {p : Paging}

theorem multiPageLink_zero (cls text : String) :
    multiPageLink query (url none) cls text = .link (pageAddress url query 0) cls text := by
  rw [multiPageLink, pageAddress, if_pos rfl]

theorem multiPageLink_page (n : Int) (cls text : String) :
    multiPageLink query (url (if n = 0 then none else some n)) cls text = .link (pageAddress url query n) cls text := by
  rw [multiPageLink, pageAddress]

/-- The first page of the window. -/
def windowBegin (p : Paging) : Int := if p.curpage - 5 < 0 then 0 else p.curpage - 5

/-- The last page of the window. -/
def windowEnd (p : Paging) : Int :=
  if p.pageTotal ≤ windowBegin p + 9 then p.pageTotal - 1 else windowBegin p + 9

/-- The items, one for each page of the window and one for each end that is outside of it. -/
theorem mem_multiPage (htotal : 2 ≤ p.pageTotal) (item : PageItem) :
    item ∈ (multiPage url query p).items ↔
      (0 < windowBegin p ∧ item = .link (pageAddress url query 0) "page first" "&laquo;") ∨
      (∃ n, windowBegin p ≤ n ∧ n ≤ windowEnd p ∧
        item = if n = p.curpage then .cur (toString (n + 1))
          else .link (pageAddress url query n) "page" (toString (n + 1))) ∨
      (windowEnd p < p.pageTotal - 1 ∧
        item = .link (pageAddress url query (p.pageTotal - 1)) "page last" "&raquo;") := by
  have hitems : (multiPage url query p).items =
      (if 0 < windowBegin p then [multiPageLink query (url none) "page first" "&laquo;"] else []) ++
      ((List.range (windowEnd p - windowBegin p + 1).toNat).map (fun (i : Nat) => windowBegin p + (i : Int))).map
        (fun n => if n = p.curpage then .cur (toString (n + 1))
          else multiPageLink query (url (if n = 0 then none else some n)) "page" (toString (n + 1))) ++
      (if windowEnd p < p.pageTotal - 1 then
        [multiPageLink query (url (some (p.pageTotal - 1))) "page last" "&raquo;"] else []) := by
    rw [multiPage, if_pos (by omega)]
    rfl
  have hlast : url (some (p.pageTotal - 1)) = url (if p.pageTotal - 1 = 0 then none else some (p.pageTotal - 1)) := by
    rw [if_neg (by omega)]
  rw [hitems, hlast]
  simp only [multiPageLink_zero, multiPageLink_page, List.mem_append, List.mem_map, List.mem_range,
    List.mem_ite_nil_right, List.mem_singleton, or_assoc]
  refine or_congr Iff.rfl (or_congr ⟨?_, ?_⟩ Iff.rfl)
  · rintro ⟨n, ⟨i, hi, rfl⟩, rfl⟩
    exact ⟨windowBegin p + i, by omega, by omega, rfl⟩
  · rintro ⟨n, hb, he, rfl⟩
    exact ⟨n, ⟨(n - windowBegin p).toNat, by omega, by omega⟩, rfl⟩

end

/-- **The window of a pager.** -/
theorem windowed_multiPage (url : Option Int → String) (query : String) {p : Paging} (htotal : 2 ≤ p.pageTotal)
    (hcur : 0 ≤ p.curpage ∧ p.curpage < p.pageTotal) :
    Windowed url query p.pageTotal p.curpage (multiPage url query p).items (windowBegin p) (windowEnd p) := by
  have hb : windowBegin p = max 0 (p.curpage - 5) := by
    rw [windowBegin]
    omega
  have he : windowEnd p = min (p.pageTotal - 1) (windowBegin p + 9) := by
    rw [windowEnd]
    omega
  have hmem := @mem_multiPage url query p htotal
  constructor
  · omega
  · omega
  · omega
  · omega
  · intro n
    constructor
    · rintro ⟨item, hitem, hshows⟩
      obtain ⟨-, rfl⟩ | ⟨m, hm, hm', rfl⟩ | ⟨-, rfl⟩ := (hmem item).1 hitem
      · -- the links to the ends are of another class
        exact absurd hshows (by simp [PageItem.Shows])
      · have hsame : m + 1 = n + 1 := by
          split at hshows
          · exact toString_int_injective (by simpa [PageItem.Shows] using hshows)
          · have hlink : pageAddress url query m = pageAddress url query n ∧ toString (m + 1) = toString (n + 1) := by
              simpa [PageItem.Shows] using hshows
            exact toString_int_injective hlink.2
        omega
      · exact absurd hshows (by simp [PageItem.Shows])
    · intro hn
      refine ⟨_, (hmem _).2 (.inr (.inl ⟨n, hn.1, hn.2, rfl⟩)), ?_⟩
      split
      · exact .inl rfl
      · exact .inr rfl
  · intro text
    rw [hmem]
    constructor
    · rintro (⟨-, heq⟩ | ⟨m, -, -, heq⟩ | ⟨-, heq⟩)
      · exact absurd heq (by simp)
      · split at heq
        · rename_i hpresent
          rw [← hpresent]
          exact PageItem.cur.inj heq
        · exact absurd heq (by simp)
      · exact absurd heq (by simp)
    · rintro rfl
      exact .inr (.inl ⟨p.curpage, by omega, by omega, by rw [if_pos rfl]⟩)
  · rw [hmem]
    constructor
    · rintro (⟨hfirst, -⟩ | ⟨m, -, -, hm⟩ | ⟨-, hm⟩)
      · omega
      · split at hm
        · exact absurd hm (by simp)
        · exact absurd hm (by simp)
      · exact absurd hm (by simp)
    · intro hfirst
      exact .inl ⟨by omega, rfl⟩
  · rw [hmem]
    constructor
    · rintro (⟨-, hm⟩ | ⟨m, -, -, hm⟩ | ⟨hlast, -⟩)
      · exact absurd hm (by simp)
      · split at hm
        · exact absurd hm (by simp)
        · exact absurd hm (by simp)
      · omega
    · intro hlast
      exact .inr (.inr ⟨by omega, rfl⟩)
  · intro href cls text hlink
    obtain ⟨hfirst, heq⟩ | ⟨m, hm, hm', heq⟩ | ⟨hlast, heq⟩ := (hmem _).1 hlink
    · obtain ⟨rfl, -, -⟩ := PageItem.link.inj heq
      exact ⟨0, by omega, by omega, by omega, rfl⟩
    · split at heq
      · exact absurd heq (by simp)
      · rename_i hother
        obtain ⟨rfl, -, -⟩ := PageItem.link.inj heq
        exact ⟨m, by omega, by omega, hother, rfl⟩
    · obtain ⟨rfl, -, -⟩ := PageItem.link.inj heq
      exact ⟨p.pageTotal - 1, by omega, by omega, by omega, rfl⟩

/-! ## From page to page -/

/-- Every page of the window but the present one is linked. -/
theorem Windowed.linked {url : Option Int → String} {query : String} {total cur b e : Int} {items : List PageItem}
    (h : Windowed url query total cur items b e) {n : Int} (hn : b ≤ n ∧ n ≤ e) (hother : n ≠ cur) :
    ∃ cls text, PageItem.link (pageAddress url query n) cls text ∈ items := by
  obtain ⟨item, hitem, rfl | rfl⟩ := (h.shown n).2 hn
  · have hsame := toString_int_injective ((h.present _).1 hitem)
    omega
  · exact ⟨_, _, hitem⟩

/-- **Links lead from each page to the next and to the one before.** -/
theorem linksTo_neighbour (url : Option Int → String) (query : String) {p : Paging} (htotal : 2 ≤ p.pageTotal)
    {n m : Int} (hn : 0 ≤ n ∧ n < p.pageTotal) (hm : 0 ≤ m ∧ m < p.pageTotal) (hnext : m = n + 1 ∨ n = m + 1) :
    LinksTo url query p n m := by
  have hwindow : Windowed url query p.pageTotal n (multiPage url query { p with curpage := n }).items _ _ :=
    windowed_multiPage url query (p := { p with curpage := n }) htotal hn
  have hneighbours := hwindow.neighbours
  have hcurrent := hwindow.current
  exact hwindow.linked (by omega) (by omega)

theorem reaches (url : Option Int → String) (query : String) {p : Paging} (htotal : 2 ≤ p.pageTotal) {n m : Int}
    (hn : 0 ≤ n ∧ n < p.pageTotal) (hm : 0 ≤ m ∧ m < p.pageTotal) :
    Relation.ReflTransGen (LinksTo url query p) n m := by
  refine reflTransGen_of_succ _ ?_ ?_
  · intro i hi
    rw [Set.mem_Ico] at hi
    exact linksTo_neighbour url query htotal (by omega) (by rw [Order.succ_eq_add_one]; omega) (.inl rfl)
  · intro i hi
    rw [Set.mem_Ico] at hi
    exact linksTo_neighbour url query htotal (by rw [Order.succ_eq_add_one]; omega) (by omega) (.inr rfl)

/-- **The pager of every page shows a window around it, and along its links every page is reached from
every other.** -/
theorem multiPage_windowed (url : Option Int → String) (query : String) (p : Paging) (htotal : 2 ≤ p.pageTotal)
    (hcur : 0 ≤ p.curpage ∧ p.curpage < p.pageTotal) :
    (∃ b e, Windowed url query p.pageTotal p.curpage (multiPage url query p).items b e) ∧
      ∀ m, 0 ≤ m ∧ m < p.pageTotal → Relation.ReflTransGen (LinksTo url query p) p.curpage m := by
  refine ⟨⟨_, _, windowed_multiPage url query htotal hcur⟩, ?_⟩
  intro m hm
  exact reaches url query htotal hcur hm

/-- The pager of the seventh of twenty pages. -/
theorem multiPage_windowed_seventh :
    (2 ≤ (20 : Int) ∧ (0 ≤ (6 : Int) ∧ (6 : Int) < 20)) ∧
    ((∃ b e, Windowed (fun _ => "/from") "q=a" 20 6
        (multiPage (fun _ => "/from") "q=a" { curpage := 6, pageTotal := 20 }).items b e) ∧
      ∀ m, 0 ≤ m ∧ m < 20 → Relation.ReflTransGen
        (LinksTo (fun _ => "/from") "q=a" { curpage := 6, pageTotal := 20 }) 6 m) :=
  ⟨by decide, multiPage_windowed (fun _ => "/from") "q=a" { curpage := 6, pageTotal := 20 } (by decide) (by decide)⟩

end CppBlog
