import CppBlog.Text.Html
import CppBlog.Web.Pager

set_option autoImplicit false

/-! # The markup of a pager

`multi_page` puts the addresses of its links into markup as they are, the query string of the request among
them. Here is the markup it prints, and for which query strings a browser finds in it the links it is meant to
have. -/

namespace CppBlog

open Html Text

/-! ## What is printed -/

/-- `Total {1} pages, {2} records.` in the language of the request -/
def pagesText (locale : Nat) (pageTotal pageRecords : Int) : String :=
  if locale = 1 then "共 " ++ toString pageTotal ++ " 页，" ++ toString pageRecords ++ " 条记录。"
  else "Total " ++ toString pageTotal ++ " pages, " ++ toString pageRecords ++ " records."

/-- What `MULTI_PAGE_LINK` prints, or the line of the page shown. -/
def PageItem.html : PageItem → String
  | .link href cls text =>
      "<a href=\x22" ++ href ++ "\x22 class=\x22" ++ cls ++ "\x22>" ++ text ++ "</a>\n"
  | .cur text => "<span class=\x22page cur\x22>" ++ text ++ "</span>\n"

/-- What `MULTI_PAGE` prints. -/
def MultiPage.html (locale : Nat) (m : MultiPage) : String :=
  "<div class=\x22multi-page\x22>\n" ++
  ("<span class=\x22desc\x22>" ++ pagesText locale m.pageTotal m.pageRecords ++ "</span>\n") ++
  String.join (m.items.map PageItem.html) ++ "</div>"

/-! ## What is meant -/

variable {R : References}

/-- An element that has a class and some text, and the newline behind it. -/
def element (R : References) (name : String) (attrs : List (List Char × List Char)) (text : String) : List Token :=
  [.start name.toList attrs, .text (decode R false text.toList), .stop name.toList, .text ['\n']]

/-- A link has its address, whatever that is, as the value of its attribute. -/
def PageItem.meant (R : References) : PageItem → List Token
  | .link href cls text => element R "a" [("href".toList, href.toList), ("class".toList, cls.toList)] text
  | .cur text => element R "span" [("class".toList, "page cur".toList)] text

def MultiPage.meant (R : References) (locale : Nat) (m : MultiPage) : List Token :=
  [.start "div".toList [("class".toList, "multi-page".toList)], .text ['\n']] ++
  element R "span" [("class".toList, "desc".toList)] (pagesText locale m.pageTotal m.pageRecords) ++
  m.items.flatMap (PageItem.meant R) ++ [.stop "div".toList]

/-! ## Reading what is printed -/

/-- A text without characters that end it or change it, when it is the value of an attribute. -/
structure Inert (R : References) (s : List Char) : Prop where
  quote : '"' ∉ s
  null : '\x00' ∉ s
  newline : '\r' ∉ s
  references : NoReference R true s

theorem map_shown_iff {s : List Char} : s.map shown = s ↔ '\x00' ∉ s := by
  induction s with
  | nil => simp
  | cons c s ih =>
    have hc : shown c = c ↔ c ≠ '\x00' := by
      unfold shown
      split
      · rename_i h
        subst h
        decide
      · rename_i h
        exact iff_of_true rfl h
    rw [List.map_cons, List.cons.injEq, ih, hc, List.mem_cons, not_or, eq_comm]

theorem run_openSpan (out : List Token) (text : List Char) :
    Html.run (.data out text) "<span class=\x22".toList =
      some (.inTag (.value (some '"') "class".toList []) (flush out text) { stops := false, name := "span".toList }) := by
  rfl

theorem run_openLink (out : List Token) (text : List Char) :
    Html.run (.data out text) "<a href=\x22".toList =
      some (.inTag (.value (some '"') "href".toList []) (flush out text) { stops := false, name := "a".toList }) := by
  rfl

theorem run_closeSpan (out : List Token) (text : List Char) :
    Html.run (.data out text) "</span>\n".toList = some (.data (flush out text ++ [.stop "span".toList]) ['\n']) := by
  rfl

theorem run_closeLink (out : List Token) (text : List Char) :
    Html.run (.data out text) "</a>\n".toList = some (.data (flush out text ++ [.stop "a".toList]) ['\n']) := by
  rfl

/-- A value in quotes, with the quote. -/
theorem run_quoted {v : List Char} (h : '"' ∉ v) (n : List Char) (out : List Token) (tag : Tag) (t : List Char) :
    Html.run (.inTag (.value (some '"') n []) out tag) (v ++ '"' :: t) =
      Html.run (.inTag .between out (tag.add n (v.map shown))) t := by
  rw [run_append, run_value h]
  rfl

/-- The last value of a tag, and the text of its element. -/
theorem run_lastValue {v w : List Char} (hv : '"' ∉ v) (hnull : '\x00' ∉ v) (hw : '<' ∉ w) (n : List Char)
    (out : List Token) (tag : Tag) :
    Html.run (.inTag (.value (some '"') n []) out tag) (v ++ '"' :: '>' :: w) =
      some (.data (out ++ [(tag.add n v).token]) w) := by
  rw [run_quoted hv, map_shown_iff.2 hnull]
  exact run_text hw _ []

/-- What is printed for a span, and read again. -/
theorem run_span {cls text : String} (hcls : '"' ∉ cls.toList ∧ '\x00' ∉ cls.toList) (htext : '<' ∉ text.toList)
    (hne : text.toList ≠ []) (out : List Token) (before : List Char) :
    Html.run (.data out before) ("<span class=\x22" ++ cls ++ "\x22>" ++ text ++ "</span>\n").toList =
      some (.data (flush out before ++ [.start "span".toList [("class".toList, cls.toList)], .text text.toList,
        .stop "span".toList]) ['\n']) := by
  have hquote : "\x22>".toList = ['"', '>'] := by simp
  have hsplit : ("<span class=\x22" ++ cls ++ "\x22>" ++ text ++ "</span>\n").toList =
      "<span class=\x22".toList ++ ((cls.toList ++ '"' :: '>' :: text.toList) ++ "</span>\n".toList) := by
    rw [String.toList_append, String.toList_append, String.toList_append, String.toList_append, hquote]
    simp only [List.append_assoc, List.cons_append, List.nil_append]
  rw [hsplit, run_append, run_openSpan, Option.bind_some, run_append,
    run_lastValue hcls.1 hcls.2 htext, Option.bind_some, run_closeSpan, flush, if_neg hne]
  simp [Tag.add, Tag.token]

/-- What is printed for a link, in parts. -/
theorem html_link_toList (href cls text : String) :
    (PageItem.link href cls text).html.toList = "<a href=\x22".toList ++ (href.toList ++ '"' ::
      (" class=\x22".toList ++ ((cls.toList ++ '"' :: '>' :: text.toList) ++ "</a>\n".toList))) := by
  have hquote : "\x22>".toList = ['"', '>'] := by simp
  have hclass : "\x22 class=\x22".toList = '"' :: " class=\x22".toList := by simp
  unfold PageItem.html
  rw [String.toList_append, String.toList_append, String.toList_append, String.toList_append,
    String.toList_append, String.toList_append, hquote, hclass]
  simp only [List.append_assoc, List.cons_append, List.nil_append]

/-- What is printed for a link with an address that changes nothing, and read again. -/
theorem run_link {href cls text : String} (hhref : '"' ∉ href.toList ∧ '\x00' ∉ href.toList)
    (hcls : '"' ∉ cls.toList ∧ '\x00' ∉ cls.toList) (htext : '<' ∉ text.toList) (hne : text.toList ≠ [])
    (out : List Token) (before : List Char) :
    Html.run (.data out before) (PageItem.link href cls text).html.toList =
      some (.data (flush out before ++ [.start "a".toList [("href".toList, href.toList),
        ("class".toList, cls.toList)], .text text.toList, .stop "a".toList]) ['\n']) := by
  have hclass (out : List Token) (tag : Tag) (t : List Char) :
      Html.run (.inTag .between out tag) (" class=\x22".toList ++ t) =
        Html.run (.inTag (.value (some '"') "class".toList []) out tag) t := rfl
  rw [html_link_toList, run_append, run_openLink, Option.bind_some, run_quoted hhref.1,
    map_shown_iff.2 hhref.2, hclass, run_append, run_lastValue hcls.1 hcls.2 htext, Option.bind_some,
    run_closeLink, flush, if_neg hne]
  have hne : "class".toList ≠ "href".toList := by decide
  simp [Tag.add, Tag.token]

theorem exists_takeWhile_append (href rest : List Char) :
    ∃ after, href ++ '"' :: rest = href.takeWhile (· ≠ '"') ++ '"' :: after := by
  induction href with
  | nil => exact ⟨rest, rfl⟩
  | cons c href ih =>
    by_cases hc : c = '"'
    · subst hc
      exact ⟨href ++ '"' :: rest, by simp⟩
    · obtain ⟨after, hafter⟩ := ih
      refine ⟨after, ?_⟩
      rw [List.takeWhile_cons_of_pos (by simpa using hc), List.cons_append, hafter, List.cons_append]

/-- Whatever an address is, its attribute ends at its first quote. -/
theorem began_link {href rest : List Char} {out : List Token} {before : List Char} {scan : Scan}
    (h : Html.run (.data out before) ("<a href=\x22".toList ++ (href ++ '"' :: rest)) = some scan) :
    Began (flush out before) "a".toList [("href".toList, (href.takeWhile (· ≠ '"')).map shown)] scan := by
  obtain ⟨after, hafter⟩ := exists_takeWhile_append href rest
  have hquote : '"' ∉ href.takeWhile (· ≠ '"') := fun hmem => by simpa using List.mem_takeWhile_imp hmem
  rw [run_append, run_openLink, Option.bind_some, hafter, run_quoted hquote] at h
  exact Began.run (.reading .between [] (by simp)) h

/-! ## Items -/

/-- A text that is the value of an attribute as it is. -/
structure PlainValue (s : List Char) : Prop where
  quote : '"' ∉ s
  null : '\x00' ∉ s
  newline : '\r' ∉ s
  ampersand : '&' ∉ s

/-- A text that is the text of an element, references apart. -/
structure PlainText (s : List Char) : Prop where
  tag : '<' ∉ s
  newline : '\r' ∉ s
  nonempty : s ≠ []

/-- All is plain but the address of a link. -/
def PageItem.Plain : PageItem → Prop
  | .link _ cls text => PlainValue cls.toList ∧ PlainText text.toList
  | .cur text => PlainText text.toList

/-- The address of a link is read as it is printed. -/
def PageItem.Faithful (R : References) : PageItem → Prop
  | .link href _ _ => Inert R href.toList
  | .cur _ => True

theorem decode_of_plain {s : List Char} {inValue : Bool} (h : '&' ∉ s) : decode R inValue s = s := by
  refine decode_eq_self ?_
  have happend := (@noReference_append R inValue s [] h).2 trivial
  rwa [List.append_nil] at happend

theorem flush_newline (out : List Token) : flush out ['\n'] = out ++ [.text ['\n']] := rfl

/-- An item with a faithful address is read as it is meant. -/
theorem run_item {item : PageItem} (hplain : item.Plain) (hfaithful : item.Faithful R) (out : List Token)
    (before : List Char) : ∃ out', Html.run (.data out before) item.html.toList = some (.data out' ['\n']) ∧
      (flush out' ['\n']).map (Token.decode R) = (flush out before).map (Token.decode R) ++ item.meant R := by
  have hnewline : decode R false ['\n'] = ['\n'] := decode_of_plain (by decide)
  cases item with
  | link href cls text =>
    refine ⟨_, run_link ⟨hfaithful.quote, hfaithful.null⟩ ⟨hplain.1.quote, hplain.1.null⟩ hplain.2.tag
      hplain.2.nonempty out before, ?_⟩
    rw [flush_newline]
    simp [Token.decode, PageItem.meant, element, decode_eq_self hfaithful.references,
      decode_of_plain hplain.1.ampersand, hnewline]
  | cur text =>
    have hcur : decode R true "page cur".toList = "page cur".toList := decode_of_plain (by decide)
    refine ⟨_, @run_span "page cur" text (by decide) hplain.tag hplain.nonempty out before, ?_⟩
    rw [flush_newline]
    simp only [List.map_append, List.map_cons, List.map_nil, Token.decode, PageItem.meant, element, hcur, hnewline,
      List.append_assoc, List.cons_append, List.nil_append]

theorem run_items {items : List PageItem} (hplain : ∀ item ∈ items, item.Plain)
    (hfaithful : ∀ item ∈ items, item.Faithful R) (out : List Token) (before : List Char) :
    ∃ out' before', Html.run (.data out before) (items.flatMap fun item => item.html.toList) = some (.data out' before') ∧
      (flush out' before').map (Token.decode R) =
        (flush out before).map (Token.decode R) ++ items.flatMap (PageItem.meant R) := by
  induction items generalizing out before with
  | nil => exact ⟨out, before, rfl, by simp⟩
  | cons item items ih =>
    obtain ⟨out₁, hrun, hmeant⟩ := run_item (hplain item List.mem_cons_self) (hfaithful item List.mem_cons_self) out before
    obtain ⟨out', before', hrest, hmeant'⟩ := ih (fun x hx => hplain x (List.mem_cons_of_mem item hx))
      (fun x hx => hfaithful x (List.mem_cons_of_mem item hx)) out₁ ['\n']
    refine ⟨out', before', ?_, ?_⟩
    · rw [List.flatMap_cons, run_append, hrun, Option.bind_some, hrest]
    · rw [hmeant', hmeant, List.flatMap_cons, List.append_assoc]

theorem shown_eq {c d : Char} (hd : d ≠ replacement) (h : shown c = d) : c = d := by
  unfold shown at h
  split at h
  · exact absurd h.symm hd
  · exact h

/-- **An address that is read back whole is inert**: a quote, another newline, a character that may not be or a
    reference would each have cost something. -/
theorem inert_of_decode {s : List Char}
    (h : decode R true (((normalise s).takeWhile (· ≠ '"')).map shown) = s) : Inert R s := by
  have hdecode := @length_decode R true (((normalise s).takeWhile (· ≠ '"')).map shown)
  have htake : ((normalise s).takeWhile (· ≠ '"')).length ≤ (normalise s).length :=
    (List.takeWhile_prefix _).length_le
  have hnormal := length_normalise s
  have hlength := congrArg List.length h
  rw [List.length_map] at hdecode
  have hwhole : (normalise s).takeWhile (· ≠ '"') = normalise s :=
    (List.takeWhile_prefix _).eq_of_length (by omega)
  rw [hwhole] at h hlength hdecode
  have hreference : NoReference R true ((normalise s).map shown) :=
    noReference_of_length (by rw [List.length_map]; omega)
  rw [decode_eq_self hreference] at h
  have hmem {c : Char} (hc : c ≠ replacement) (hnot : c ∉ normalise s) : c ∉ s := by
    intro hcs
    rw [← h] at hcs
    obtain ⟨d, hd, hshown⟩ := List.mem_map.1 hcs
    exact hnot (shown_eq hc hshown ▸ hd)
  refine ⟨hmem (by decide) fun hq => ?_, fun hnull => ?_, hmem (by decide) (not_mem_normalise s), h ▸ hreference⟩
  · have := List.mem_takeWhile_imp (hwhole.symm ▸ hq : '"' ∈ (normalise s).takeWhile (· ≠ '"'))
    exact absurd this (by decide)
  · rw [← h] at hnull
    obtain ⟨d, -, hshown⟩ := List.mem_map.1 hnull
    unfold shown at hshown
    split at hshown
    · exact absurd hshown (by decide)
    · rename_i hd
      exact hd hshown

theorem newline_html {item : PageItem} (hplain : item.Plain) (hfaithful : item.Faithful R) :
    '\r' ∉ item.html.toList := by
  cases item with
  | link href cls text =>
    rw [html_link_toList]
    simp [hfaithful.newline, hplain.1.newline, hplain.2.newline]
  | cur text =>
    unfold PageItem.html
    rw [String.toList_append, String.toList_append]
    simp [hplain.newline]

/-- A link whose address is not read back is not found where it is meant. -/
theorem not_meant {items : List PageItem} (hplain : ∀ item ∈ items, item.Plain)
    (hbad : ∃ item ∈ items, ¬item.Faithful R) (out : List Token) (before rest : List Char) {scan : Scan}
    (h : Html.run (.data out before) (normalise ((items.flatMap fun item => item.html.toList) ++ rest)) = some scan)
    (more : List Token) :
    scan.finish.map (Token.decode R) ≠
      (flush out before).map (Token.decode R) ++ (items.flatMap (PageItem.meant R) ++ more) := by
  induction items generalizing out before with
  | nil =>
    obtain ⟨item, hitem, -⟩ := hbad
    exact absurd hitem (by simp)
  | cons item items ih =>
    rw [List.flatMap_cons, List.append_assoc] at h
    by_cases hfaithful : item.Faithful R
    · have hplain' : ∀ x ∈ items, x.Plain := fun x hx => hplain x (List.mem_cons_of_mem item hx)
      have hbad' : ∃ x ∈ items, ¬x.Faithful R := by
        obtain ⟨x, hx, hnot⟩ := hbad
        rcases List.mem_cons.1 hx with rfl | hx
        · exact absurd hfaithful hnot
        · exact ⟨x, hx, hnot⟩
      obtain ⟨out₁, hrun, hmeant⟩ := run_item (hplain item List.mem_cons_self) hfaithful out before
      rw [normalise_append (newline_html (hplain item List.mem_cons_self) hfaithful), run_append, hrun,
        Option.bind_some] at h
      have hrest := ih hplain' hbad' out₁ ['\n'] h
      rw [hmeant] at hrest
      rwa [List.flatMap_cons, List.append_assoc, ← List.append_assoc]
    · cases item with
      | cur text => exact absurd trivial hfaithful
      | link href cls text =>
        rw [html_link_toList, List.append_assoc, List.append_assoc, List.cons_append,
          normalise_append (by decide), normalise_append_cons (by decide) (by decide)] at h
        intro heq
        rw [List.flatMap_cons, PageItem.meant, element, List.append_assoc] at heq
        rcases (began_link h).finish with hfinish | ⟨more', rest', hfinish⟩
        · rw [hfinish] at heq
          exact absurd (congrArg List.length heq) (by simp)
        · -- the tag is there, but its address is another one
          rw [hfinish, List.map_append] at heq
          have htag := (List.cons.inj (List.append_cancel_left heq)).1
          have hvalue := (List.cons.inj (Token.start.inj htag).2).1
          exact hfaithful (inert_of_decode (Prod.mk.inj hvalue).2)

/-! ## The pager -/

theorem toString_int_ne_nil (i : Int) : (toString i).toList ≠ [] := by
  cases i with
  | ofNat n =>
    rw [Int.ofNat_eq_natCast, toString_natCast_toList]
    exact Nat.toDigits_ne_nil
  | negSucc n =>
    rw [toString_negSucc_toList]
    exact List.cons_ne_nil _ _

theorem notMem_toString_int {c : Char} (hdigit : isDigit c = false) (hminus : c ≠ '-') (i : Int) :
    c ∉ (toString i).toList := by
  intro hc
  rcases mem_toString_int hc with h | h
  · exact absurd h (by simp [hdigit])
  · exact hminus h

theorem plainText_int (i : Int) : PlainText (toString i).toList :=
  ⟨notMem_toString_int (by decide) (by decide) i, notMem_toString_int (by decide) (by decide) i,
    toString_int_ne_nil i⟩

theorem plain_multiPage (url : Option Int → String) (query : String) (p : Paging) :
    ∀ item ∈ (multiPage url query p).items, item.Plain := by
  have hvalue (s : String) (h : s = "page first" ∨ s = "page" ∨ s = "page last") : PlainValue s.toList := by
    rcases h with rfl | rfl | rfl <;> exact ⟨by decide, by decide, by decide, by decide⟩
  have harrow (s : String) (h : s = "&laquo;" ∨ s = "&raquo;") : PlainText s.toList := by
    rcases h with rfl | rfl <;> exact ⟨by decide, by decide, by decide⟩
  intro item hitem
  by_cases htotal : 2 ≤ p.pageTotal
  · obtain ⟨-, rfl⟩ | ⟨n, -, -, rfl⟩ | ⟨-, rfl⟩ := (mem_multiPage htotal item).1 hitem
    · exact ⟨hvalue _ (by simp), harrow _ (by simp)⟩
    · split
      · exact plainText_int _
      · exact ⟨hvalue _ (by simp), plainText_int _⟩
    · exact ⟨hvalue _ (by simp), harrow _ (by simp)⟩
  · rw [multiPage, if_neg (by omega), List.mem_singleton] at hitem
    subst hitem
    exact ⟨by decide, by decide, by decide⟩

theorem plain_pagesText (locale : Nat) (total records : Int) :
    PlainText (pagesText locale total records).toList ∧ '&' ∉ (pagesText locale total records).toList := by
  have hwords {c : Char} (hdigit : isDigit c = false) (hminus : c ≠ '-')
      (hchinese : c ∉ "共 ".toList ∧ c ∉ " 页，".toList ∧ c ∉ " 条记录。".toList)
      (henglish : c ∉ "Total ".toList ∧ c ∉ " pages, ".toList ∧ c ∉ " records.".toList) :
      c ∉ (pagesText locale total records).toList := by
    unfold pagesText
    split <;> rw [String.toList_append, String.toList_append, String.toList_append, String.toList_append]
    · simp only [List.mem_append, not_or]
      exact ⟨⟨⟨⟨hchinese.1, notMem_toString_int hdigit hminus _⟩, hchinese.2.1⟩,
        notMem_toString_int hdigit hminus _⟩, hchinese.2.2⟩
    · simp only [List.mem_append, not_or]
      exact ⟨⟨⟨⟨henglish.1, notMem_toString_int hdigit hminus _⟩, henglish.2.1⟩,
        notMem_toString_int hdigit hminus _⟩, henglish.2.2⟩
  refine ⟨⟨hwords (by decide) (by decide) (by decide) (by decide), hwords (by decide) (by decide) (by decide)
    (by decide), fun hnil => ?_⟩, hwords (by decide) (by decide) (by decide) (by decide)⟩
  unfold pagesText at hnil
  split at hnil <;> simp at hnil

/-- What is printed before the items. -/
def pagerHead (locale : Nat) (total records : Int) : List Char :=
  "<div class=\x22multi-page\x22>\n".toList ++
    ("<span class=\x22desc\x22>" ++ pagesText locale total records ++ "</span>\n").toList

theorem html_toList (locale : Nat) (m : MultiPage) :
    (m.html locale).toList = pagerHead locale m.pageTotal m.pageRecords ++
      ((m.items.flatMap fun item => item.html.toList) ++ "</div>".toList) := by
  unfold MultiPage.html pagerHead
  rw [String.toList_append, String.toList_append, String.toList_append, String.toList_join, List.flatMap_map,
    List.append_assoc]

theorem newline_pagerHead (locale : Nat) (total records : Int) : '\r' ∉ pagerHead locale total records := by
  have hwords : '\r' ∉ "<div class=\x22multi-page\x22>\n".toList ∧ '\r' ∉ "<span class=\x22desc\x22>".toList ∧
      '\r' ∉ "</span>\n".toList := by decide
  unfold pagerHead
  rw [String.toList_append, String.toList_append]
  simp only [List.mem_append, not_or]
  exact ⟨hwords.1, ⟨hwords.2.1, (plain_pagesText locale total records).1.newline⟩, hwords.2.2⟩

/-- What is printed before the items is read as it is meant. -/
theorem run_pagerHead (R : References) (locale : Nat) (total records : Int) :
    ∃ out, Html.run (.data [] []) (pagerHead locale total records) = some (.data out ['\n']) ∧
      (flush out ['\n']).map (Token.decode R) =
        [.start "div".toList [("class".toList, "multi-page".toList)], .text ['\n']] ++
          element R "span" [("class".toList, "desc".toList)] (pagesText locale total records) := by
  have hplain := (plain_pagesText locale total records).1
  have hdiv : Html.run (.data [] []) "<div class=\x22multi-page\x22>\n".toList =
      some (.data [.start "div".toList [("class".toList, "multi-page".toList)]] ['\n']) := by rfl
  have hbehind (t : List Char) : Html.run (.data [] []) ("<div class=\x22multi-page\x22>\n".toList ++ t) =
      Html.run (.data [.start "div".toList [("class".toList, "multi-page".toList)]] ['\n']) t := by
    rw [run_append, hdiv, Option.bind_some]
  have hnewline : decode R false ['\n'] = ['\n'] := decode_of_plain (by decide)
  have hdesc : decode R true "desc".toList = "desc".toList := decode_of_plain (by decide)
  have hpager : decode R true "multi-page".toList = "multi-page".toList := decode_of_plain (by decide)
  have hrun := @run_span "desc" (pagesText locale total records) (by decide) hplain.tag hplain.nonempty
    [.start "div".toList [("class".toList, "multi-page".toList)]] ['\n']
  have hwords : "<span class=\x22desc\x22>" = "<span class=\x22" ++ "desc" ++ "\x22>" := by decide
  have hhead : Html.run (.data [] []) (pagerHead locale total records) =
      Html.run (.data [.start "div".toList [("class".toList, "multi-page".toList)]] ['\n'])
        ("<span class=\x22" ++ "desc" ++ "\x22>" ++ pagesText locale total records ++ "</span>\n").toList := by
    unfold pagerHead
    rw [hbehind, hwords]
  rw [hrun] at hhead
  refine ⟨_, hhead, ?_⟩
  rw [flush_newline, flush_newline]
  simp only [List.map_cons, List.map_nil, Token.decode, element, hdesc, hpager, hnewline, List.cons_append,
    List.nil_append]

/-- **The markup of a pager is read as it is meant if and only if each address in it is.** -/
theorem tokens_html_iff (locale : Nat) {m : MultiPage} (hplain : ∀ item ∈ m.items, item.Plain) :
    tokens R (m.html locale).toList = some (m.meant R locale) ↔ ∀ item ∈ m.items, item.Faithful R := by
  have hend (out : List Token) (before : List Char) : Html.run (.data out before) "</div>".toList =
      some (.data (flush out before ++ [.stop "div".toList]) []) := rfl
  obtain ⟨out, hhead, hmeant⟩ := run_pagerHead R locale m.pageTotal m.pageRecords
  unfold tokens MultiPage.meant
  rw [html_toList, normalise_append (newline_pagerHead _ _ _), run_append, hhead, Option.bind_some, ← hmeant]
  constructor
  · intro h
    by_contra hbad
    obtain ⟨scan, hrun, hfinish⟩ := Option.map_eq_some_iff.1 h
    rw [List.append_assoc] at hfinish
    exact not_meant hplain (by simpa using hbad) out ['\n'] "</div>".toList hrun _ hfinish
  · intro hfaithful
    have hnewline : '\r' ∉ (m.items.flatMap fun item => item.html.toList) ++ "</div>".toList := by
      rw [List.mem_append, not_or, List.mem_flatMap]
      refine ⟨?_, by decide⟩
      rintro ⟨item, hitem, hmem⟩
      exact newline_html (hplain item hitem) (hfaithful item hitem) hmem
    obtain ⟨out', before', hitems, hmeant'⟩ := run_items hplain hfaithful out ['\n']
    rw [normalise_eq_self hnewline, run_append, hitems, Option.bind_some, hend, Option.map_some, Scan.finish,
      flush, if_pos rfl, List.map_append, hmeant']
    rfl

theorem inert_append {s t : List Char} (hs : PlainValue s) : Inert R (s ++ t) ↔ Inert R t := by
  constructor
  · intro h
    exact ⟨fun hm => h.quote (List.mem_append_right s hm), fun hm => h.null (List.mem_append_right s hm),
      fun hm => h.newline (List.mem_append_right s hm), (noReference_append hs.ampersand).1 h.references⟩
  · intro h
    refine ⟨fun hm => ?_, fun hm => ?_, fun hm => ?_, (noReference_append hs.ampersand).2 h.references⟩
    · exact (List.mem_append.1 hm).elim hs.quote h.quote
    · exact (List.mem_append.1 hm).elim hs.null h.null
    · exact (List.mem_append.1 hm).elim hs.newline h.newline

/-- Where there are several pages there is a link. -/
theorem exists_link (url : Option Int → String) (query : String) {p : Paging} (htotal : 2 ≤ p.pageTotal) :
    ∃ n cls text, .link (pageAddress url query n) cls text ∈ (multiPage url query p).items := by
  by_cases hbegin : 0 < windowBegin p
  · exact ⟨0, _, _, (mem_multiPage htotal _).2 (.inl ⟨hbegin, rfl⟩)⟩
  · have hend : 1 ≤ windowEnd p ∧ windowBegin p ≤ 0 := by
      unfold windowEnd windowBegin at *
      omega
    -- of the first two pages one is not the page shown
    obtain ⟨n, hn, hn', hother⟩ : ∃ n, 0 ≤ n ∧ n ≤ 1 ∧ n ≠ p.curpage := by
      by_cases hzero : p.curpage = 0
      · exact ⟨1, by omega, by omega, by omega⟩
      · exact ⟨0, by omega, by omega, fun h => hzero h.symm⟩
    refine ⟨n, "page", toString (n + 1), (mem_multiPage htotal _).2 (.inr (.inl ⟨n, by omega, by omega, ?_⟩))⟩
    rw [if_neg hother]

theorem href_multiPage {url : Option Int → String} {query : String} {p : Paging} {href cls text : String}
    (h : .link href cls text ∈ (multiPage url query p).items) : ∃ n, href = pageAddress url query n := by
  by_cases htotal : 2 ≤ p.pageTotal
  · obtain ⟨-, heq⟩ | ⟨n, -, -, heq⟩ | ⟨-, heq⟩ := (mem_multiPage htotal _).1 h
    · exact ⟨_, (PageItem.link.inj heq).1⟩
    · split at heq
      · exact absurd heq (by simp)
      · exact ⟨n, (PageItem.link.inj heq).1⟩
    · exact ⟨_, (PageItem.link.inj heq).1⟩
  · rw [multiPage, if_neg (by omega), List.mem_singleton] at h
    exact absurd h (by simp)

/-- The addresses of a pager are read as they are printed if there are none, or if the query string is. -/
theorem faithful_multiPage_iff {url : Option Int → String} (hurl : ∀ n, PlainValue (url n).toList) (query : String)
    (p : Paging) : (∀ item ∈ (multiPage url query p).items, item.Faithful R) ↔
      p.pageTotal ≤ 1 ∨ Inert R query.toList := by
  have haddress (n : Int) : Inert R (pageAddress url query n).toList ↔ Inert R query.toList := by
    unfold pageAddress
    rw [String.toList_append, inert_append (hurl _)]
    by_cases hempty : query = ""
    · subst hempty
      rw [if_pos (by decide)]
    · rw [if_neg (by simpa using hempty), String.toList_append]
      exact inert_append ⟨by decide, by decide, by decide, by decide⟩
  constructor
  · intro h
    by_cases htotal : p.pageTotal ≤ 1
    · exact .inl htotal
    · obtain ⟨n, cls, text, hlink⟩ := exists_link url query (by omega : 2 ≤ p.pageTotal)
      exact .inr ((haddress n).1 (h _ hlink))
  · intro h item hitem
    cases item with
    | cur text => trivial
    | link href cls text =>
      rcases h with htotal | hinert
      · rw [multiPage, if_neg (by omega), List.mem_singleton] at hitem
        exact absurd hitem (by simp)
      · obtain ⟨n, rfl⟩ := href_multiPage hitem
        exact (haddress n).2 hinert

/-- **A browser finds in the markup of a pager the elements it is meant to have, each link with its address and
    the query string of the request, if and only if there is no link or the query string has no double quote, no
    NUL and no carriage return, and no ampersand of it begins a character reference.** -/
theorem multiPage_meant_iff (R : References) (locale : Nat) {url : Option Int → String}
    (hurl : ∀ n, PlainValue (url n).toList) (query : String) (p : Paging) :
    tokens R ((multiPage url query p).html locale).toList = some ((multiPage url query p).meant R locale) ↔
      p.pageTotal ≤ 1 ∨ Inert R query.toList :=
  (tokens_html_iff locale (plain_multiPage url query p)).trans (faithful_multiPage_iff hurl query p)

/-- No reference has a name. -/
def nameless : References := ⟨[], by simp⟩

theorem multiPage_meant_iff_two :
    tokens nameless ((multiPage (fun _ => "/") "q=a" { pageTotal := 2 }).html 2).toList =
        some ((multiPage (fun _ => "/") "q=a" { pageTotal := 2 }).meant nameless 2) ↔
      (2 : Int) ≤ 1 ∨ Inert nameless "q=a".toList :=
  @multiPage_meant_iff nameless 2 (fun _ => "/") (fun _ => ⟨by decide, by decide, by decide, by decide⟩) "q=a"
    { pageTotal := 2 }

/-- A query string with a quote brings an attribute of its own. -/
theorem not_multiPage_meant :
    tokens nameless ((multiPage (fun _ => "/") "q=\x22 onclick=\x22x" { pageTotal := 2 }).html 2).toList ≠
      some ((multiPage (fun _ => "/") "q=\x22 onclick=\x22x" { pageTotal := 2 }).meant nameless 2) := by
  intro h
  have hfaithful := (tokens_html_iff 2 (plain_multiPage _ _ _)).1 h
  rcases (@faithful_multiPage_iff nameless (fun _ => "/") (fun _ => ⟨by decide, by decide, by decide, by decide⟩)
    _ _).1 hfaithful with htotal | hinert
  · exact absurd htotal (by decide)
  · exact hinert.quote (by decide)

end CppBlog
