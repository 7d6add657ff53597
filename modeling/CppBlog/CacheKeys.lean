import CppBlog.Apps.Feed
import CppBlog.Text.Like

set_option autoImplicit false

/-! # The keys of the cache

All cached objects share one name space with the triggers. A key is a word, followed by numbers and, for
searches, by the text a visitor typed. `CachedObject` lists the objects with their parameters;
`CachedObject.key` is the key each of them is stored under. -/

namespace CppBlog

open Text

/-! ## The objects -/

/-- A number as the routes accept it: digits, in any spelling. -/
structure Digits where
  text : String
  isDigits : ∀ c ∈ text.toList, isDigit c = true
  nonempty : text ≠ ""

/-- A page of the page cache. -/
inductive CachedPage where
  | post (id : Digits)
  | page (id : Digits)
  | summary (catId number : Int) (q : String)
  | rssPosts
  | rssCat (id : Digits)
  | comments

/-- An object of the cache. -/
inductive CachedObject where
  | options
  | sidebar
  | sidebarInfo
  | maxCatId
  | catName (catId : Int)
  | catCount (catId : Int) (q : String)
  | page (gzip : Bool) (view : CachedPage)

/-- The key a handler asks the page cache for. -/
def CachedPage.key : CachedPage → String
  | .post id => "post_" ++ id.text
  | .page id => "page_" ++ id.text
  | .summary catId number q => Summary.key catId number q
  | .rssPosts => "rss_posts"
  | .rssCat id => "rss_" ++ id.text
  | .comments => "comments"

/-- The prefix of the page cache: it keeps compressed pages apart. -/
def pagePrefix (gzip : Bool) : String := if gzip then "_Z:" else "_U:"

def CachedObject.key : CachedObject → String
  | .options => "options"
  | .sidebar => "sidebar"
  | .sidebarInfo => "sidebar_info"
  | .maxCatId => "max_cat_id"
  | .catName catId => "cat_name_" ++ toString catId
  | .catCount catId q => Summary.countKey catId q
  | .page gzip view => pagePrefix gzip ++ view.key

theorem pageKey_eq (e : Env) (view : CachedPage) :
    App.pageKey e view.key = (CachedObject.page e.req.gzip view).key := rfl

/-- The triggers handlers rise. -/
inductive Risen : String → Prop where
  | comments : Risen "comments"
  | cats : Risen "cats"
  | pages : Risen "pages"
  | options : Risen "options"
  | post (id : Int) : Risen (postKey id)
  | page (id : Int) : Risen (pageIdKey id)
  | cat (id : Int) : Risen (catKey id)

/-- The key contains the text a visitor searched for. -/
def CachedObject.hasQuery : CachedObject → Prop
  | .catCount _ q => q ≠ ""
  | .page _ (.summary _ _ _) => True
  | _ => False

/-! ## Reading a key back -/

theorem noDigit_nil : NoDigit [] := by simp [NoDigit]

theorem noDigit_underscore (s : List Char) : NoDigit ('_' :: s) := by
  intro c hc
  obtain rfl : '_' = c := by simpa using hc
  decide

theorem Digits.ext {d d' : Digits} (h : d.text = d'.text) : d = d' := by
  cases d
  cases d'
  cases h
  rfl

/-- The canonical spelling of a number. -/
def Digits.canonical (n : Int) (hn : 0 ≤ n) : Digits where
  text := toString n
  isDigits c hc := by
    obtain ⟨m, rfl⟩ := Int.eq_ofNat_of_zero_le hn
    rw [toString_natCast_toList] at hc
    exact isDigit_of_mem_toDigits hc
  nonempty h := by
    obtain ⟨m, rfl⟩ := Int.eq_ofNat_of_zero_le hn
    have hlist := congrArg String.toList h
    rw [toString_natCast_toList] at hlist
    exact absurd hlist (List.ne_nil_of_length_pos Nat.length_toDigits_pos)

/-- Two pages with one key are one page. -/
theorem CachedPage.key_injective {p p' : CachedPage} (h : p.key = p'.key) : p = p' := by
  have hlist := congrArg String.toList h
  have hdigits (d : Digits) (s : List Char) : d.text.toList ≠ 'p' :: s := by
    intro hd
    exact absurd (d.isDigits 'p' (hd ▸ List.mem_cons_self)) (by decide)
  cases p <;> cases p' <;>
    simp only [CachedPage.key, Summary.key, String.toList_append, String.reduceToList,
      List.cons_append, List.nil_append, List.append_assoc, List.cons.injEq, Char.reduceEq, true_and,
      false_and, and_false, reduceCtorEq] at hlist
  · rw [Digits.ext (String.toList_injective hlist)]
  · rw [Digits.ext (String.toList_injective hlist)]
  · obtain ⟨rfl, hrest⟩ := toString_append_inj (noDigit_underscore _) (noDigit_underscore _) hlist
    obtain ⟨rfl, hq⟩ := toString_append_inj (noDigit_underscore _) (noDigit_underscore _)
      (List.cons.inj hrest).2
    rw [String.toList_injective (List.cons.inj hq).2]
  · rfl
  · exact absurd hlist.symm (hdigits _ _)
  · exact absurd hlist (hdigits _ _)
  · rw [Digits.ext (String.toList_injective hlist)]
  · rfl

/-- The part of a record count's key behind the number of the category. -/
theorem countSuffix_noDigit (q : String) :
    NoDigit (if q.isEmpty then "" else "_" ++ likePattern q).toList := by
  split
  · exact noDigit_nil
  · rw [String.toList_append]
    exact noDigit_underscore _

theorem countSuffix_injective {q q' : String}
    (h : (if q.isEmpty then "" else "_" ++ likePattern q) =
      (if q'.isEmpty then "" else "_" ++ likePattern q')) : q = q' := by
  have hne (q : String) : "_" ++ likePattern q ≠ "" := by
    intro hq
    have hlist := congrArg String.toList hq
    exact absurd hlist (by simp)
  split_ifs at h with hq hq' hq'
  · rw [String.isEmpty_iff.1 hq, String.isEmpty_iff.1 hq']
  · exact absurd h.symm (hne q')
  · exact absurd h (hne q)
  · apply likePattern_injective
    have hlist := congrArg String.toList h
    simp only [String.toList_append] at hlist
    exact String.toList_injective (List.append_cancel_left hlist)

theorem pagePrefix_append_inj {g g' : Bool} {s s' : String}
    (h : pagePrefix g ++ s = pagePrefix g' ++ s') : g = g' ∧ s = s' := by
  have hlist := congrArg String.toList h
  cases g <;> cases g' <;>
    simp only [pagePrefix, Bool.false_eq_true, if_true, if_false, String.toList_append,
      String.reduceToList, List.cons_append, List.nil_append, List.cons.injEq, Char.reduceEq,
      true_and, false_and, and_false] at hlist
  · exact ⟨rfl, String.toList_injective hlist⟩
  · exact ⟨rfl, String.toList_injective hlist⟩

/-- The key of a page begins with an underscore, those of all other objects with a letter. -/
theorem pagePrefix_append_ne (g : Bool) (s : String) {t : String} (h : t.toList.head? ≠ some '_') :
    pagePrefix g ++ s ≠ t := by
  rintro rfl
  cases g <;> exact h (by simp [pagePrefix])

/-- **Two cached objects with one key are one object.** -/
theorem CachedObject.key_injective {o o' : CachedObject} (h : o.key = o'.key) : o = o' := by
  have hpage (g : Bool) (v : CachedPage) (o : CachedObject) (ho : o.key.toList.head? ≠ some '_') :
      (CachedObject.page g v).key ≠ o.key := pagePrefix_append_ne g _ ho
  have hlist := congrArg String.toList h
  cases o <;> cases o'
  case page.page g v g' v' =>
    obtain ⟨rfl, hv⟩ := pagePrefix_append_inj h
    rw [CachedPage.key_injective hv]
  case catName.catName k k' =>
    simp only [CachedObject.key, String.toList_append] at hlist
    have hnumbers := List.append_cancel_left hlist
    rw [toString_int_injective (String.toList_injective hnumbers)]
  case catCount.catCount k q k' q' =>
    simp only [CachedObject.key, Summary.countKey, String.toList_append, List.append_assoc] at hlist
    obtain ⟨rfl, hq⟩ := toString_append_inj (countSuffix_noDigit q) (countSuffix_noDigit q')
      (List.append_cancel_left hlist)
    rw [countSuffix_injective (String.toList_injective hq)]
  case page.catName g v k => exact absurd h (hpage g v (.catName k) (by simp [CachedObject.key]))
  case page.catCount g v k q =>
    exact absurd h (hpage g v (.catCount k q) (by simp [CachedObject.key, Summary.countKey]))
  case catName.page k g v => exact absurd h.symm (hpage g v (.catName k) (by simp [CachedObject.key]))
  case catCount.page k q g v =>
    exact absurd h.symm (hpage g v (.catCount k q) (by simp [CachedObject.key, Summary.countKey]))
  case page.options g v => exact absurd h (hpage g v .options (by decide))
  case page.sidebar g v => exact absurd h (hpage g v .sidebar (by decide))
  case page.sidebarInfo g v => exact absurd h (hpage g v .sidebarInfo (by decide))
  case page.maxCatId g v => exact absurd h (hpage g v .maxCatId (by decide))
  case options.page g v => exact absurd h.symm (hpage g v .options (by decide))
  case sidebar.page g v => exact absurd h.symm (hpage g v .sidebar (by decide))
  case sidebarInfo.page g v => exact absurd h.symm (hpage g v .sidebarInfo (by decide))
  case maxCatId.page g v => exact absurd h.symm (hpage g v .maxCatId (by decide))
  all_goals first
    | rfl
    | simp [CachedObject.key, Summary.countKey] at hlist

/-- **No key that contains a search text is a trigger some handler rises.** -/
theorem CachedObject.hasQuery_not_risen {o : CachedObject} (hq : o.hasQuery) (t : String)
    (ht : Risen t) : o.key ≠ t := by
  intro h
  have hlist := congrArg String.toList h
  cases o with
  | options => exact hq
  | sidebar => exact hq
  | sidebarInfo => exact hq
  | maxCatId => exact hq
  | catName k => exact hq
  | catCount k q =>
    cases ht with
    | cat id =>
      -- behind `cat_` stands a number in the trigger and `count_` in the key
      simp only [CachedObject.key, Summary.countKey, catKey, String.toList_append,
        String.reduceToList, List.cons_append, List.nil_append, List.cons.injEq, true_and] at hlist
      have hc : 'c' ∈ (toString id).toList := hlist ▸ List.mem_cons_self
      rcases mem_toString_int hc with h | h <;> exact absurd h (by decide)
    | _ => simp [CachedObject.key, Summary.countKey, postKey, pageIdKey] at hlist
  | page g v =>
    refine pagePrefix_append_ne g _ ?_ h
    cases ht <;> simp [postKey, pageIdKey, catKey]

end CppBlog
