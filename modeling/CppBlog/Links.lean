import CppBlog.Authors
import CppBlog.Routes
import CppBlog.SameFile
import CppBlog.Web.UrlMapper

set_option autoImplicit false

/-! # Links and routes

The applications register each of their pages twice: under a key for `url()`, and with an expression for
the dispatcher. Here are the tables of the keys, with the handler that is assigned along with each, and
that the dispatchers lead every URL of a key back to that handler. -/

namespace CppBlog

open Effect App Text Web

/-! ## The keys of the applications -/

section
variable (e : Env)

/-- Parameter `i` of a key. -/
def nth (ps : List Nat) (i : Nat) : Nat := ps.getD (i - 1) 0

/-- `config::config` -/
def configMapper : Mapper (App Unit) :=
  .node [⟨"", [.text ""], fun _ => Config.configure e⟩,
    ⟨"version", [.text "/version"], fun _ => Config.version e⟩] []

/-- `feed_master::feed_master` -/
def feedMapper : Mapper (App Unit) :=
  .node [⟨"posts", [.text ""], fun _ => Feed.posts e⟩,
    ⟨"posts", [.text "/cat/", .param 1, .text "/"], fun ps => Feed.cats e (toString (nth ps 1))⟩,
    ⟨"comments", [.text "/comments"], fun _ => Feed.comments e⟩] []

/-- `media::media` -/
def mediaMapper : Mapper (App Unit) :=
  .node [⟨"", [.text "/", .param 1], fun ps => Media.prepare e (toString (nth ps 1))⟩] []

/-- `captcha::captcha`; its `main` answers every path. -/
def captchaMapper : Mapper (App Unit) := .node [⟨"", [.text ""], fun _ => Captcha.main e⟩] []

/-- `blog::page::page` -/
def pageMapper : Mapper (App Unit) :=
  .node [⟨"", [.text "/", .param 1], fun ps => Page.display e (toString (nth ps 1))⟩,
    ⟨"preview", [.text "/", .param 1, .text "/preview"], fun ps => Page.preview e (toString (nth ps 1))⟩] []

/-- `blog::post::post` -/
def postMapper : Mapper (App Unit) :=
  .node [⟨"", [.text "/", .param 1], fun ps => Post.display e (toString (nth ps 1))⟩,
    ⟨"preview", [.text "/", .param 1, .text "/preview"], fun ps => Post.preview e (toString (nth ps 1))⟩,
    ⟨"postback", [.text "/", .param 1, .text "/postback"],
      fun ps => Post.postback e (toString (nth ps 1))⟩] []

/-- `blog::download::download` -/
def downloadMapper : Mapper (App Unit) :=
  .node [⟨"", [.text "/", .param 1, .text "/", .param 2, .text "/", .param 3], fun ps =>
    Download.prepare e (toString (nth ps 1)) (toString (nth ps 2)) (toString (nth ps 3))⟩] []

/-- `blog::summary::summary` -/
def summaryMapper : Mapper (App Unit) :=
  .node [⟨"", [.text "/"], fun _ => Summary.prepare e 0 0⟩,
    ⟨"from", [.text "/"], fun _ => Summary.prepare e 0 0⟩,
    ⟨"from", [.text "/from/", .param 1], fun ps => Summary.all e (toString (nth ps 1))⟩,
    ⟨"category", [.text "/cat/", .param 1], fun ps => Summary.category e (toString (nth ps 1)) "0"⟩,
    ⟨"category", [.text "/cat/", .param 1, .text "/from/", .param 2],
      fun ps => Summary.category e (toString (nth ps 1)) (toString (nth ps 2))⟩] []

/-- `blog_master::blog_master` -/
def blogMapper : Mapper (App Unit) :=
  .node [] [("page", [.text "/page", .param 1], pageMapper e), ("post", [.text "/post", .param 1], postMapper e),
    ("download", [.text "/download", .param 1], downloadMapper e), ("summary", [.param 1], summaryMapper e)]

/-- `admin::users::users` -/
def usersMapper : Mapper (App Unit) :=
  .node [⟨"list", [.text "/list"], fun _ => Users.list e 0⟩,
    ⟨"list", [.text "/list/", .param 1], fun ps => Users.list e (nth ps 1)⟩,
    ⟨"add", [.text "/add"], fun _ => Users.add e⟩,
    ⟨"del", [.text "/del/", .param 1], fun ps => Users.del e (toString (nth ps 1))⟩,
    ⟨"", [.text "/", .param 1], fun ps => Users.edit e (toString (nth ps 1))⟩,
    ⟨"", [.text ""], fun _ => Users.prepare e⟩] []

/-- `admin_master::admin_master` -/
def adminMapper : Mapper (App Unit) :=
  .node []
    [("caching", [.text "/cache", .param 1], .node [⟨"", [.text ""], fun _ => Caching.prepare e⟩] []),
     ("categories", [.text "/categories", .param 1],
       .node [⟨"", [.text "/"], fun _ => Categories.prepare e⟩] []),
     ("options", [.text "/options", .param 1], .node [⟨"", [.text "/"], fun _ => Options.prepare e⟩] []),
     ("comment", [.text "/comment", .param 1],
       .node [⟨"", [.text "/", .param 1], fun ps => AdminComment.prepare e (toString (nth ps 1))⟩] []),
     ("post", [.text "/post", .param 1],
       .node [⟨"", [.text "/", .param 1], fun ps => AdminPost.prepare e (toString (nth ps 1))⟩,
         ⟨"", [.text "/"], fun _ => AdminPost.prepareShared e 0⟩] []),
     ("page", [.text "/page", .param 1],
       .node [⟨"", [.text "/", .param 1], fun ps => AdminPage.prepare e (toString (nth ps 1))⟩,
         ⟨"", [.text "/"], fun _ => AdminPage.prepareShared e 0⟩] []),
     ("users", [.text "/users", .param 1], usersMapper e),
     ("upload", [.text "/upload", .param 1], .node [⟨"", [.text ""], fun _ => Upload.prepare e⟩] []),
     ("summary", [.param 1],
       .node [⟨"", [.text "/", .param 1], fun ps => AdminSummary.prepare e (nth ps 1)⟩,
         ⟨"", [.text ""], fun _ => AdminSummary.prepare e 0⟩] [])]

/-- `blog::blog`, without the root -/
def siteMapper : Mapper (App Unit) :=
  .node []
    ([("captcha", [.text "/captcha", .param 1], captchaMapper e),
      ("config", [.text "/config", .param 1], configMapper e),
      ("admin", [.text "/admin", .param 1], adminMapper e), ("feed", [.text "/rss", .param 1], feedMapper e)] ++
    (if e.settings.mediaAttached then [("media", [.text "/media", .param 1], mediaMapper e)] else []) ++
    [("blog", [.param 1], blogMapper e)])

end

/-! ## Skipping and entering -/

/-- A path that a mounted application sees. -/
def Tail (u : List Char) : Prop := (u = [] ∨ u.head? = some '/') ∧ '\n' ∉ u

section
variable {r : Route} {rest : List Route} {s u : List Char}

theorem dispatch_skip (h : r.1.full s = none) :
    dispatch (r :: rest) (String.ofList s) = dispatch rest (String.ofList s) := by
  rw [dispatch_cons, String.toList_ofList, h]

theorem dispatch_hit {caps : Captures} (h : r.1.full s = some caps) :
    dispatch (r :: rest) (String.ofList s) = r.2 caps := by
  rw [dispatch_cons, String.toList_ofList, h]

/-- An expression that begins with another text. -/
theorem full_other {w : List Char} {a : Rx} (h : w.isPrefixOf s = false) : (Rx.seq (Rx.lit w) a).full s = none := by
  rw [Rx.full_eq_none]
  rintro ⟨u, v, rfl, hu, -⟩
  rw [Rx.matches_lit] at hu
  subst hu
  rw [ List.isPrefixOf_iff_prefix.2 (List.prefix_append _ _)] at h
  exact absurd h (by decide)

theorem full_number_other {w : List Char} {a b : Rx} (h : w.isPrefixOf s = false) :
    (Rx.seq (Rx.seq (Rx.lit w) a) b).full s = none := by
  rw [Rx.full_eq_none]
  rintro ⟨u, v, rfl, ⟨u₁, u₂, rfl, hu, -⟩, -⟩
  rw [Rx.matches_lit] at hu
  subst hu
  rw [List.append_assoc, List.isPrefixOf_iff_prefix.2 (List.prefix_append _ _)] at h
  exact absurd h (by decide)

/-- A mounted application gets what follows its place. -/
theorem full_mountRx (base : String) (hu : Tail u) :
    ∃ caps, (mountRx base).full (base.toList ++ u) = some caps ∧ text caps 1 = String.ofList u := by
  have hmatches : (mountRx base).Matches (base.toList ++ u) := by
    refine ⟨base.toList, u, rfl, (Rx.matches_lit _ _).2 rfl, ?_⟩
    rcases hu.1 with rfl | hhead
    · exact .inr rfl
    · cases u with
      | nil => exact absurd hhead (by simp)
      | cons c t =>
        obtain rfl := Option.some.inj hhead
        refine .inl ⟨"/".toList, t, rfl, (Rx.matches_lit _ _).2 rfl, fun c hc => ?_⟩
        exact decide_eq_true fun h : c = '\n' => hu.2 (h ▸ List.mem_cons_of_mem _ hc)
  obtain ⟨caps, hcaps⟩ := Option.isSome_iff_exists.1 ((Rx.full_isSome _ _).2 hmatches)
  have hgroup := Rx.group_of_full_lit hcaps
  exact ⟨caps, hcaps, by rw [text, ← List.append_cancel_left hgroup]⟩

theorem dispatch_mount {base : String} {h : String → App Unit} (hu : Tail u) :
    dispatch ((mountRx base, fun m => h (text m 1)) :: rest) (String.ofList (base.toList ++ u)) =
      h (String.ofList u) := by
  obtain ⟨caps, hcaps, htext⟩ := full_mountRx base hu
  rw [dispatch_hit hcaps]
  show h (text caps 1) = _
  rw [htext]

/-! ## Numbers in paths -/

/-- Digits end where no digit follows. -/
theorem digits_append_inj {d d' t t' : List Char} (hd : ∀ c ∈ d, isDigit c = true)
    (hd' : ∀ c ∈ d', isDigit c = true) (ht : NoDigit t) (ht' : NoDigit t') (h : d ++ t = d' ++ t') :
    d = d' ∧ t = t' := by
  have htake {d t : List Char} (hd : ∀ c ∈ d, isDigit c = true) (ht : NoDigit t) :
      (d ++ t).takeWhile isDigit = d := by
    rw [List.takeWhile_append_of_pos hd]
    cases t with
    | nil => simp
    | cons c t =>
      have hc : isDigit c = false := ht c rfl
      rw [List.takeWhile_cons_of_neg (by simp [hc]), List.append_nil]
  have heq := congrArg (List.takeWhile isDigit) h
  rw [htake hd ht, htake hd' ht'] at heq
  subst heq
  exact ⟨rfl, List.append_cancel_left h⟩

/-- What can follow a number does not go on with a digit. -/
def EndsNumber (b : Rx) : Prop := ∀ t, b.Matches t → NoDigit t

variable {base : String} {i n : Nat} {b : Rx} {t : List Char}

/-- A number in its place is what the group captures. -/
theorem number_of_mem_go (hb : EndsNumber b) (ht : NoDigit t) {caps : Captures}
    (h : (caps, []) ∈ (Rx.seq (numberRx base i) b).go (base.toList ++ (Nat.toDigits 10 n ++ t))) :
    ∃ c, caps = (i, Nat.toDigits 10 n) :: c ∧ (c, []) ∈ b.go t := by
  obtain ⟨c₁, s₁, c, hnumber, hrest, rfl⟩ := Rx.mem_go_seq.1 h
  obtain ⟨c₂, s₂, c₃, hlit, hgroup, rfl⟩ := Rx.mem_go_seq.1 hnumber
  obtain ⟨rfl, hs₂⟩ := Rx.mem_go_lit hlit
  obtain ⟨w, rfl, hw, hwdigits⟩ := Rx.mem_go_grp_of_nil (fun _ _ => Rx.eq_nil_of_mem_go_plus) hgroup
  have hs₁ : NoDigit s₁ := by
    obtain ⟨v, hv, hbv⟩ := (Rx.exists_mem_go b s₁ []).1 ⟨c, hrest⟩
    rw [List.append_nil] at hv
    exact hv ▸ hb v hbv
  have hsplit := List.append_cancel_left hs₂
  rw [hw] at hsplit
  obtain ⟨rfl, rfl⟩ := digits_append_inj (fun c hc => isDigit_of_mem_toDigits hc)
    ((Rx.matches_plus _ _).1 hwdigits).2 ht hs₁ hsplit
  exact ⟨c, rfl, hrest⟩

theorem full_number (base : String) (i n : Nat) (hb : EndsNumber b) (ht : NoDigit t) (hmatches : b.Matches t) :
    ∃ c, (Rx.seq (numberRx base i) b).full (base.toList ++ (Nat.toDigits 10 n ++ t)) =
        some ((i, Nat.toDigits 10 n) :: c) ∧ (c, []) ∈ b.go t := by
  have hall : (Rx.seq (numberRx base i) b).Matches (base.toList ++ (Nat.toDigits 10 n ++ t)) := by
    refine ⟨base.toList ++ Nat.toDigits 10 n, t, (List.append_assoc _ _ _).symm,
      ⟨base.toList, Nat.toDigits 10 n, rfl, (Rx.matches_lit _ _).2 rfl, ?_⟩, hmatches⟩
    exact (Rx.matches_plus _ _).2 ⟨Nat.toDigits_ne_nil, fun c hc => isDigit_of_mem_toDigits hc⟩
  obtain ⟨caps, hcaps⟩ := Option.isSome_iff_exists.1 ((Rx.full_isSome _ _).2 hall)
  obtain ⟨c, rfl, hc⟩ := number_of_mem_go hb ht (Rx.mem_go_of_full hcaps)
  exact ⟨c, hcaps, hc⟩

/-- A number with something else behind it. -/
theorem full_number_ne (hb : EndsNumber b) (ht : NoDigit t) (hmatches : ¬b.Matches t) :
    (Rx.seq (numberRx base i) b).full (base.toList ++ (Nat.toDigits 10 n ++ t)) = none := by
  rw [Rx.full_eq_none]
  rintro ⟨u, v, hsplit, ⟨u₁, w, rfl, hlit, hw⟩, hv⟩
  obtain rfl := (Rx.matches_lit _ _).1 hlit
  rw [List.append_assoc] at hsplit
  have hdigits : ∀ c ∈ Nat.toDigits 10 n, isDigit c = true := fun c hc => isDigit_of_mem_toDigits hc
  obtain ⟨-, rfl⟩ := digits_append_inj hdigits ((Rx.matches_plus _ _).1 hw).2 ht (hb v hv)
    (List.append_cancel_left hsplit)
  exact hmatches hv

/-- A letter stands where the number begins. -/
theorem isPrefixOf_digits {c : Char} (hc : isDigit c = false) (w : List Char) (n : Nat) (t : List Char) :
    ('/' :: c :: w).isPrefixOf ("/".toList ++ (Nat.toDigits 10 n ++ t)) = false := by
  have hdigits : ∀ d ∈ Nat.toDigits 10 n, isDigit d = true := fun d hd => isDigit_of_mem_toDigits hd
  cases hn : Nat.toDigits 10 n with
  | nil => exact absurd hn Nat.toDigits_ne_nil
  | cons d ds =>
    have hne : c ≠ d := by
      rintro rfl
      have hd := hdigits c (hn ▸ List.mem_cons_self)
      rw [hc] at hd
      exact absurd hd (by decide)
    show ((('/' : Char) == '/') && ((c == d) && w.isPrefixOf (ds ++ t))) = false
    rw [beq_eq_false_iff_ne.2 hne, Bool.false_and, Bool.and_false]

theorem noDigit_cons {c : Char} (hc : isDigit c = false) (s : List Char) : NoDigit (c :: s) := by
  intro d hd
  rwa [← Option.some.inj hd]

theorem noDigit_text {w : String} {c : Char} (hw : w.toList.head? = some c) (hc : isDigit c = false)
    (s : List Char) : NoDigit (w.toList ++ s) := by
  cases hwl : w.toList with
  | nil => rw [hwl] at hw; exact absurd hw (by simp)
  | cons d l =>
    rw [hwl] at hw
    obtain rfl := Option.some.inj hw
    exact noDigit_cons hc _

theorem endsNumber_slash : EndsNumber slashRx := by
  rintro t (h | rfl)
  · rw [(Rx.matches_lit _ _).1 h]
    exact noDigit_cons (by decide) _
  · exact noDigit_nil

theorem endsNumber_txt {c : Char} {w : String} (hw : w.toList.head? = some c) (hc : isDigit c = false) :
    EndsNumber (txt w) := by
  intro t h d hd
  rw [(Rx.matches_lit _ _).1 h, hw] at hd
  rwa [← Option.some.inj hd]

theorem endsNumber_number (base : String) (i : Nat) (b : Rx) {c : Char} (hw : base.toList.head? = some c)
    (hc : isDigit c = false) : EndsNumber (.seq (numberRx base i) b) := by
  rintro t ⟨u, v, rfl, ⟨u₁, w, rfl, hlit, -⟩, -⟩ d hd
  obtain rfl := (Rx.matches_lit _ _).1 hlit
  cases hbase : base.toList with
  | nil => rw [hbase] at hw; exact absurd hw (by simp)
  | cons c' l =>
    rw [hbase] at hw hd
    obtain rfl := Option.some.inj hw
    obtain rfl : c' = d := Option.some.inj hd
    exact hc

theorem matches_slash (t : List Char) : slashRx.Matches t ↔ t = ['/'] ∨ t = [] :=
  or_congr (Rx.matches_lit _ _) Iff.rfl

theorem text_cons (i n : Nat) (c : Captures) : text ((i, Nat.toDigits 10 n) :: c) i = toString n := by
  rw [text, Rx.group, List.lookup_cons_self, Option.getD_some, ← Upload.toString_toList, String.ofList_toList]

/-- The entry for a number in a path. -/
theorem dispatch_number {h : String → App Unit} (hb : EndsNumber b) (ht : NoDigit t) (hmatches : b.Matches t) :
    dispatch ((Rx.seq (numberRx base i) b, fun m => h (text m i)) :: rest)
      (String.ofList (base.toList ++ (Nat.toDigits 10 n ++ t))) = h (toString n) := by
  obtain ⟨c, hcaps, -⟩ := full_number base i n hb ht hmatches
  rw [dispatch_hit hcaps]
  show h (text _ i) = _
  rw [text_cons]

end

/-! ## Each application -/

/-- The dispatcher leads a URL to what it stands for, and the URL is one a mounted application can see. -/
def Leads (routes : List Route) (url : String) (run : App Unit) : Prop :=
  dispatch routes url = run ∧ Tail url.toList

/-- Parameters are `int`. -/
def IsInt (p : Nat) : Prop := p ≤ 2147483647

theorem atoi_toString_nat {n : Nat} (hn : IsInt n) : atoi (toString n) = n := by
  have hread := atoi_toString (Int.natCast_nonneg n) (by unfold IsInt at hn; omega)
  have hsame : toString (n : Int) = toString n :=
    String.toList_inj.1 ((toString_natCast_toList n).trans (Upload.toString_toList n).symm)
  rwa [hsame] at hread

instance : DecidablePred Tail := fun u =>
  inferInstanceAs (Decidable ((u = [] ∨ u.head? = some '/') ∧ '\n' ∉ u))

theorem tail_digits {w w' : List Char} {n : Nat} (hw : w.head? = some '/') (hline : '\n' ∉ w) (hline' : '\n' ∉ w') :
    Tail (w ++ (Nat.toDigits 10 n ++ w')) := by
  refine ⟨.inr ?_, ?_⟩
  · cases w with
    | nil => exact absurd hw (by simp)
    | cons c w => exact hw
  · simp only [List.mem_append, not_or]
    exact ⟨hline, Upload.notMem_toDigits (by decide) n, hline'⟩

section
variable {r : Route} {rest : List Route} {run : App Unit} {s t : List Char} {b : Rx} {base : String} {i n : Nat}

theorem Leads.skip (h : r.1.full s = none) (hrest : Leads rest (String.ofList s) run) :
    Leads (r :: rest) (String.ofList s) run := by
  refine ⟨?_, hrest.2⟩
  rw [dispatch_skip h]
  exact hrest.1

theorem Leads.hit {caps : Captures} (h : r.1.full s = some caps) (htail : Tail s) :
    Leads (r :: rest) (String.ofList s) (r.2 caps) := by
  refine ⟨dispatch_hit h, ?_⟩
  rwa [String.toList_ofList]

theorem Leads.number {h : String → App Unit} (hb : EndsNumber b) (ht : NoDigit t) (hmatches : b.Matches t)
    (hbase : base.toList.head? = some '/') (hline : '\n' ∉ base.toList) (hline' : '\n' ∉ t) :
    Leads ((Rx.seq (numberRx base i) b, fun m => h (text m i)) :: rest)
      (String.ofList (base.toList ++ (Nat.toDigits 10 n ++ t))) (h (toString n)) := by
  refine ⟨dispatch_number hb ht hmatches, ?_⟩
  rw [String.toList_ofList]
  exact tail_digits hbase hline hline'

/-- A number at the end of a path, with or without a slash. -/
theorem Leads.id {h : String → App Unit} (hbase : base.toList.head? = some '/') (hline : '\n' ∉ base.toList) :
    Leads ((Rx.seq (numberRx base i) slashRx, fun m => h (text m i)) :: rest)
      (String.ofList (base.toList ++ (Nat.toDigits 10 n ++ []))) (h (toString n)) :=
  .number endsNumber_slash noDigit_nil ((matches_slash _).2 (.inr rfl)) hbase hline List.not_mem_nil

end

/-! ### The URL of a key -/

section
variable (w w' w'' : String) (n m k : Nat)

theorem fill_text : fill [.text w] [] = String.ofList w.toList := by
  simp only [fill, List.flatMap_cons, List.flatMap_nil, List.append_nil]

theorem fill_number : fill [.text w, .param 1] [toString n] = String.ofList (w.toList ++ (Nat.toDigits 10 n ++ [])) := by
  simp only [fill, List.flatMap_cons, List.flatMap_nil, List.getD_cons_zero, Upload.toString_toList,
    Nat.sub_self]

theorem fill_number_text : fill [.text w, .param 1, .text w'] [toString n] =
    String.ofList (w.toList ++ (Nat.toDigits 10 n ++ w'.toList)) := by
  simp only [fill, List.flatMap_cons, List.flatMap_nil, List.getD_cons_zero, Upload.toString_toList,
    Nat.sub_self, List.append_nil]

theorem fill_number_number : fill [.text w, .param 1, .text w', .param 2] [toString n, toString m] =
    String.ofList (w.toList ++ (Nat.toDigits 10 n ++ (w'.toList ++ (Nat.toDigits 10 m ++ [])))) := by
  simp only [fill, List.flatMap_cons, List.flatMap_nil, List.getD_cons_zero, List.getD_cons_succ,
    Upload.toString_toList, Nat.sub_self, Nat.add_one_sub_one, List.append_nil]

theorem fill_number_number_number :
    fill [.text w, .param 1, .text w', .param 2, .text w'', .param 3] [toString n, toString m, toString k] =
      String.ofList (w.toList ++ (Nat.toDigits 10 n ++
        (w'.toList ++ (Nat.toDigits 10 m ++ (w''.toList ++ Nat.toDigits 10 k))))) := by
  simp only [fill, List.flatMap_cons, List.flatMap_nil, List.getD_cons_zero, List.getD_cons_succ,
    Upload.toString_toList, Nat.sub_self, Nat.add_one_sub_one, List.append_nil]

theorem fill_mount (url : String) :
    fill [.text w, .param 1] [url] = String.ofList (w.toList ++ url.toList) := by
  simp only [fill, List.flatMap_cons, List.flatMap_nil, List.getD_cons_zero, Nat.sub_self, List.append_nil]

theorem fill_self (u : String) : fill [.param 1] [u] = u := by
  simp only [fill, List.flatMap_cons, List.flatMap_nil, List.getD_cons_zero, Nat.sub_self, List.append_nil,
    String.ofList_toList]

end

section
variable (e : Env)

attribute [local irreducible] Users.list Users.add Users.del Users.edit Users.prepare

/-- A number behind a name is not the name. -/
theorem full_name_digits {w : String} {n : Nat} :
    (nameRx w).full ((w ++ "/").toList ++ (Nat.toDigits 10 n ++ [])) = none := by
  rw [Rx.full_eq_none]
  rintro ⟨u, v, hsplit, hu, hv⟩
  rw [(Rx.matches_lit _ _).1 hu, String.toList_append, List.append_assoc, List.append_nil] at hsplit
  have hv' := List.append_cancel_left hsplit
  rcases (matches_slash _).1 hv with rfl | rfl
  · exact Nat.toDigits_ne_nil (List.append_cancel_left (hv'.trans (List.append_nil _).symm))
  · exact absurd hv' (by simp)

theorem usersMapper_leads : (usersMapper e).All IsInt (Leads (usersRoutes e)) := by
  refine Mapper.All.node (fun a ha ps hlen hps => ?_) (fun m hm => absurd hm List.not_mem_nil)
  simp only [List.mem_cons, List.not_mem_nil, or_false] at ha
  rcases ha with rfl | rfl | rfl | rfl | rfl | rfl
  · obtain rfl := List.length_eq_zero_iff.1 hlen
    rw [List.map_nil, fill_text]
    exact .hit (show (nameRx "/list").full "/list".toList = some [] from rfl) (by decide)
  · obtain ⟨n, rfl⟩ := List.length_eq_one_iff.1 hlen
    rw [List.map_singleton, fill_number]
    refine .skip full_name_digits ?_
    have hn := hps n (List.mem_singleton_self n)
    show Leads _ _ (Users.list e n)
    rw [← atoi_toString_nat hn]
    exact Leads.id (h := fun s => Users.list e (atoi s)) (by decide) (by decide)
  · obtain rfl := List.length_eq_zero_iff.1 hlen
    rw [List.map_nil, fill_text]
    refine .skip rfl (.skip rfl ?_)
    exact .hit (show (nameRx "/add").full "/add".toList = some [] from rfl) (by decide)
  · obtain ⟨n, rfl⟩ := List.length_eq_one_iff.1 hlen
    rw [List.map_singleton, fill_number]
    refine .skip (full_other rfl) (.skip (full_number_other rfl) (.skip (full_other rfl) ?_))
    exact Leads.id (h := Users.del e) (by decide) (by decide)
  · obtain ⟨n, rfl⟩ := List.length_eq_one_iff.1 hlen
    rw [List.map_singleton, fill_number]
    have hother {c : Char} (hc : isDigit c = false) (w : List Char) := isPrefixOf_digits hc w n []
    refine .skip (full_other (hother (by decide) _)) (.skip (full_number_other (hother (by decide) _)) ?_)
    refine .skip (full_other (hother (by decide) _)) (.skip (full_number_other (hother (by decide) _)) ?_)
    exact Leads.id (h := Users.edit e) (by decide) (by decide)
  · obtain rfl := List.length_eq_zero_iff.1 hlen
    rw [List.map_nil, fill_text]
    refine .skip rfl (.skip rfl (.skip rfl (.skip rfl (.skip rfl ?_))))
    exact .hit (show slashRx.full "".toList = some [] from rfl) (by decide)

attribute [local irreducible] Page.display Page.preview Post.display Post.preview Post.postback
  Download.prepare Summary.prepare Config.configure Config.version Feed.posts Feed.cats Feed.comments
  Media.prepare Captcha.main Caching.prepare Categories.prepare Options.prepare AdminComment.prepare
  AdminPost.prepare AdminPost.prepareShared AdminPage.prepare AdminPage.prepareShared Upload.prepare
  AdminSummary.prepare

/-- A number that ends the expression. -/
theorem Leads.lone {h : String → App Unit} {base : String} {i n : Nat} {rest : List Route}
    (hbase : base.toList.head? = some '/') (hline : '\n' ∉ base.toList) :
    Leads ((numberRx base i, fun m => h (text m i)) :: rest)
      (String.ofList (base.toList ++ (Nat.toDigits 10 n ++ []))) (h (toString n)) := by
  have hends : EndsNumber .eps := by
    rintro t rfl
    exact noDigit_nil
  have hseq : Leads ((Rx.seq (numberRx base i) .eps, fun m => h (text m i)) :: rest)
      (String.ofList (base.toList ++ (Nat.toDigits 10 n ++ []))) (h (toString n)) :=
    .number hends noDigit_nil rfl hbase hline List.not_mem_nil
  rw [Leads, dispatch_cons, Rx.full_seq_eps] at hseq
  rwa [Leads, dispatch_cons]

theorem full_lone_ne {base : String} {i n : Nat} {c : Char} {t : List Char} (hc : isDigit c = false) :
    (numberRx base i).full (base.toList ++ (Nat.toDigits 10 n ++ c :: t)) = none := by
  rw [← Rx.full_seq_eps]
  refine full_number_ne ?_ (noDigit_cons hc t) (List.cons_ne_nil c t)
  rintro t rfl
  exact noDigit_nil

theorem pageMapper_leads : (pageMapper e).All IsInt (Leads (pageRoutes e)) := by
  refine Mapper.All.node (fun a ha ps hlen hps => ?_) (fun m hm => absurd hm List.not_mem_nil)
  simp only [List.mem_cons, List.not_mem_nil, or_false] at ha
  rcases ha with rfl | rfl
  · obtain ⟨n, rfl⟩ := List.length_eq_one_iff.1 hlen
    rw [List.map_singleton, fill_number]
    exact Leads.lone (h := Page.display e) (by decide) (by decide)
  · obtain ⟨n, rfl⟩ := List.length_eq_one_iff.1 hlen
    rw [List.map_singleton, fill_number_text]
    refine .skip (full_lone_ne (by decide)) ?_
    exact Leads.number (h := Page.preview e) (endsNumber_txt rfl (by decide)) (noDigit_cons (by decide) _)
      ((Rx.matches_lit _ _).2 rfl) (by decide) (by decide) (by decide)

theorem postMapper_leads : (postMapper e).All IsInt (Leads (postRoutes e)) := by
  refine Mapper.All.node (fun a ha ps hlen hps => ?_) (fun m hm => absurd hm List.not_mem_nil)
  simp only [List.mem_cons, List.not_mem_nil, or_false] at ha
  rcases ha with rfl | rfl | rfl
  · obtain ⟨n, rfl⟩ := List.length_eq_one_iff.1 hlen
    rw [List.map_singleton, fill_number]
    exact Leads.lone (h := Post.display e) (by decide) (by decide)
  · obtain ⟨n, rfl⟩ := List.length_eq_one_iff.1 hlen
    rw [List.map_singleton, fill_number_text]
    refine .skip (full_lone_ne (by decide)) ?_
    exact Leads.number (h := Post.preview e) (endsNumber_txt rfl (by decide)) (noDigit_cons (by decide) _)
      ((Rx.matches_lit _ _).2 rfl) (by decide) (by decide) (by decide)
  · obtain ⟨n, rfl⟩ := List.length_eq_one_iff.1 hlen
    rw [List.map_singleton, fill_number_text]
    refine .skip (full_lone_ne (by decide)) (.skip ?_ ?_)
    · refine full_number_ne (endsNumber_txt rfl (by decide)) (noDigit_cons (by decide) _) ?_
      rw [txt, Rx.matches_lit]
      decide
    · exact Leads.number (h := Post.postback e) (endsNumber_txt rfl (by decide)) (noDigit_cons (by decide) _)
        ((Rx.matches_lit _ _).2 rfl) (by decide) (by decide) (by decide)

theorem downloadMapper_leads : (downloadMapper e).All IsInt fun url run =>
    Leads (downloadRoutes e) url run ∧ 2 ≤ url.length := by
  refine Mapper.All.node (fun a ha ps hlen hps => ?_) (fun m hm => absurd hm List.not_mem_nil)
  obtain rfl := List.mem_singleton.1 ha
  obtain ⟨n, m, k, rfl⟩ := List.length_eq_three.1 hlen
  rw [List.map_cons, List.map_cons, List.map_singleton, fill_number_number_number]
  have hdigits (n : Nat) : ∀ c ∈ Nat.toDigits 10 n, isDigit c = true := fun c hc => isDigit_of_mem_toDigits hc
  have hlower : ∀ c ∈ Nat.toDigits 10 n, Upload.isLowerHex c = true := fun c hc => by
    rw [Upload.isLowerHex, hdigits n c hc, Bool.true_or]
  have hlast : (Nat.toDigits 10 k).getLast? ≠ some '/' := fun h =>
    absurd (hdigits k _ (List.mem_of_getLast? h)) (by decide)
  obtain ⟨caps, hcaps, h1, h2, h3⟩ := Upload.full_downloadRx ⟨Nat.toDigits_ne_nil, hlower⟩
    ⟨Nat.toDigits_ne_nil, hdigits m⟩ (Upload.notMem_toDigits (by decide) k) hlast
  have hurl : "/".toList ++ (Nat.toDigits 10 n ++ ("/".toList ++ (Nat.toDigits 10 m ++ ("/".toList ++
      Nat.toDigits 10 k)))) =
      '/' :: Nat.toDigits 10 n ++ '/' :: (Nat.toDigits 10 m ++ '/' :: Nat.toDigits 10 k) := rfl
  rw [hurl]
  show Leads [(downloadRx, fun m => Download.prepare e (text m 1) (text m 2) (text m 3))] _
    (Download.prepare e (toString n) (toString m) (toString k)) ∧ _
  have htext {i n : Nat} (h : Rx.group caps i = Nat.toDigits 10 n) : text caps i = toString n := by
    rw [text, h, ← Upload.toString_toList, String.ofList_toList]
  rw [← htext h1, ← htext h2, ← htext h3]
  refine ⟨.hit (r := (downloadRx, _)) hcaps ⟨.inr rfl, ?_⟩, ?_⟩
  · have hline (n : Nat) : '\n' ∉ Nat.toDigits 10 n := Upload.notMem_toDigits (by decide) n
    simp only [List.cons_append, List.mem_cons, List.mem_append, not_or]
    exact ⟨by decide, hline n, by decide, hline m, by decide, hline k⟩
  · rw [String.length_ofList]
    simp only [List.length_append, List.length_cons]
    omega

/-- What comes between the places of a category and of a page. -/
theorem summaryMapper_category (n m : Nat) (run : String → String → App Unit) :
    Leads [(.seq (numberRx "/cat/" 1) (.seq (numberRx "/from/" 2) slashRx), fun c => run (text c 1) (text c 2))]
      (String.ofList ("/cat/".toList ++ (Nat.toDigits 10 n ++ ("/from/".toList ++ (Nat.toDigits 10 m ++ [])))))
      (run (toString n) (toString m)) := by
  have hslash : slashRx.Matches [] := (matches_slash _).2 (.inr rfl)
  have hinner : (Rx.seq (numberRx "/from/" 2) slashRx).Matches ("/from/".toList ++ (Nat.toDigits 10 m ++ [])) := by
    obtain ⟨c, hc, -⟩ := full_number "/from/" 2 m endsNumber_slash noDigit_nil hslash
    exact (Rx.full_isSome _ _).1 (by rw [hc, Option.isSome_some])
  obtain ⟨c, hcaps, hc⟩ := full_number "/cat/" 1 n
    (endsNumber_number "/from/" 2 slashRx rfl (by decide)) (noDigit_text rfl (by decide) _) hinner
  obtain ⟨c', rfl, -⟩ := number_of_mem_go endsNumber_slash noDigit_nil hc
  have hsecond : text ((1, Nat.toDigits 10 n) :: (2, Nat.toDigits 10 m) :: c') 2 = toString m :=
    text_cons 2 m c'
  have hline : '\n' ∉ "/from/".toList ++ (Nat.toDigits 10 m ++ []) := by
    rw [List.append_nil, List.mem_append, not_or]
    exact ⟨by decide, Upload.notMem_toDigits (by decide) m⟩
  have hhit := @Leads.hit (_, fun c => run (text c 1) (text c 2)) [] _ _ hcaps
    (tail_digits (by decide) (by decide) hline)
  rw [← hsecond, ← text_cons 1 n ((2, Nat.toDigits 10 m) :: c')]
  exact hhit

/-- A path that none of some mounted applications answers. -/
def Apart (places : List String) (url : String) : Prop :=
  ∀ w ∈ places, w.toList.isPrefixOf url.toList = false

theorem summaryMapper_leads : (summaryMapper e).All IsInt fun url run => Leads (summaryRoutes e) url run ∧
    Apart ["/page", "/post", "/download", "/captcha", "/config", "/admin", "/rss", "/media"] url := by
  refine Mapper.All.node (fun a ha ps hlen hps => ?_) (fun m hm => absurd hm List.not_mem_nil)
  simp only [List.mem_cons, List.not_mem_nil, or_false] at ha
  have hapart {w : List Char} {t : List Char} (hw : w = "/from/".toList ∨ w = "/cat/".toList) :
      Apart ["/page", "/post", "/download", "/captcha", "/config", "/admin", "/rss", "/media"]
        (String.ofList (w ++ t)) := by
    rw [Apart, String.toList_ofList]
    rcases hw with rfl | rfl <;> simp only [List.forall_mem_cons] <;>
      exact ⟨rfl, rfl, rfl, rfl, rfl, rfl, rfl, rfl, fun _ h => absurd h List.not_mem_nil⟩
  rcases ha with rfl | rfl | rfl | rfl | rfl
  · obtain rfl := List.length_eq_zero_iff.1 hlen
    rw [List.map_nil, fill_text]
    exact ⟨.hit (show slashRx.full "/".toList = some [] from rfl) (by decide), by unfold Apart; decide⟩
  · obtain rfl := List.length_eq_zero_iff.1 hlen
    rw [List.map_nil, fill_text]
    exact ⟨.hit (show slashRx.full "/".toList = some [] from rfl) (by decide), by unfold Apart; decide⟩
  · obtain ⟨n, rfl⟩ := List.length_eq_one_iff.1 hlen
    rw [List.map_singleton, fill_number]
    refine ⟨.skip rfl (.skip rfl ?_), hapart (.inl rfl)⟩
    exact Leads.id (h := Summary.all e) (by decide) (by decide)
  · obtain ⟨n, rfl⟩ := List.length_eq_one_iff.1 hlen
    rw [List.map_singleton, fill_number]
    refine ⟨.skip rfl (.skip rfl (.skip (full_number_other rfl) ?_)), hapart (.inr rfl)⟩
    exact Leads.id (h := fun s => Summary.category e s "0") (by decide) (by decide)
  · obtain ⟨n, m, rfl⟩ := List.length_eq_two.1 hlen
    rw [List.map_cons, List.map_singleton, fill_number_number]
    refine ⟨.skip rfl (.skip rfl (.skip (full_number_other rfl) (.skip ?_ ?_))), hapart (.inr rfl)⟩
    · refine full_number_ne endsNumber_slash (noDigit_text rfl (by decide) _) fun h => ?_
      have hlen : 2 ≤ ("/from/".toList ++ (Nat.toDigits 10 m ++ [])).length := by
        rw [List.length_append]
        exact Nat.le_add_right_of_le (by decide)
      rcases (matches_slash _).1 h with h | h <;> rw [h] at hlen <;> exact absurd hlen (by decide)
    · exact summaryMapper_category n m (Summary.category e)

theorem configMapper_leads : (configMapper e).All IsInt (Leads (configRoutes e)) := by
  refine Mapper.All.node (fun a ha ps hlen hps => ?_) (fun m hm => absurd hm List.not_mem_nil)
  simp only [List.mem_cons, List.not_mem_nil, or_false] at ha
  rcases ha with rfl | rfl
  · obtain rfl := List.length_eq_zero_iff.1 hlen
    rw [List.map_nil, fill_text]
    exact .hit (show slashRx.full "".toList = some [] from rfl) (by decide)
  · obtain rfl := List.length_eq_zero_iff.1 hlen
    rw [List.map_nil, fill_text]
    exact .skip rfl (.hit (show (txt "/version").full "/version".toList = some [] from rfl) (by decide))

theorem feedMapper_leads : (feedMapper e).All IsInt (Leads (feedRoutes e)) := by
  refine Mapper.All.node (fun a ha ps hlen hps => ?_) (fun m hm => absurd hm List.not_mem_nil)
  simp only [List.mem_cons, List.not_mem_nil, or_false] at ha
  rcases ha with rfl | rfl | rfl
  · obtain rfl := List.length_eq_zero_iff.1 hlen
    rw [List.map_nil, fill_text]
    exact .hit (show slashRx.full "".toList = some [] from rfl) (by decide)
  · obtain ⟨n, rfl⟩ := List.length_eq_one_iff.1 hlen
    rw [List.map_singleton, fill_number_text]
    refine .skip rfl ?_
    exact Leads.number (h := Feed.cats e) endsNumber_slash (noDigit_cons (by decide) _)
      ((matches_slash _).2 (.inl rfl)) (by decide) (by decide) (by decide)
  · obtain rfl := List.length_eq_zero_iff.1 hlen
    rw [List.map_nil, fill_text]
    refine .skip rfl (.skip (full_number_other rfl) ?_)
    exact .hit (show (nameRx "/comments").full "/comments".toList = some [] from rfl) (by decide)

/-- A number has no slash at its end. -/
theorem full_media (n : Nat) : ∃ caps, (Rx.seq (txt "/") (.seq (.grp 1 (.plus dot)) slashRx)).full
    ("/".toList ++ (Nat.toDigits 10 n ++ [])) = some caps ∧ text caps 1 = toString n := by
  have hdot : ∀ c ∈ Nat.toDigits 10 n, dot c = true := fun c hc =>
    decide_eq_true fun h : c = '\n' => Upload.notMem_toDigits (by decide) n (h ▸ hc)
  have hmatches : (Rx.seq (txt "/") (.seq (.grp 1 (.plus dot)) slashRx)).Matches
      ("/".toList ++ (Nat.toDigits 10 n ++ [])) :=
    ⟨_, _, rfl, (Rx.matches_lit _ _).2 rfl, _, _, rfl, (Rx.matches_plus _ _).2 ⟨Nat.toDigits_ne_nil, hdot⟩,
      (matches_slash _).2 (.inr rfl)⟩
  obtain ⟨caps, hcaps⟩ := Option.isSome_iff_exists.1 ((Rx.full_isSome _ _).2 hmatches)
  refine ⟨caps, hcaps, ?_⟩
  obtain ⟨c₁, s₁, c₂, hlit, hrest, rfl⟩ := Rx.mem_go_seq.1 (Rx.mem_go_of_full hcaps)
  obtain ⟨rfl, hs₁⟩ := Rx.mem_go_lit hlit
  obtain rfl := List.append_cancel_left hs₁
  obtain ⟨c₃, s₃, c₄, hgroup, hslash, rfl⟩ := Rx.mem_go_seq.1 hrest
  obtain ⟨w, rfl, hw, -⟩ := Rx.mem_go_grp_of_nil (fun _ _ => Rx.eq_nil_of_mem_go_plus) hgroup
  obtain ⟨v, hv, hvslash⟩ := (Rx.exists_mem_go slashRx s₃ []).1 ⟨c₄, hslash⟩
  rw [List.append_nil] at hv hw
  subst hv
  rcases (matches_slash _).1 hvslash with rfl | rfl
  · exact absurd (hw ▸ List.mem_append_right w List.mem_cons_self) (Upload.notMem_toDigits (by decide) n)
  · rw [List.append_nil] at hw
    rw [← hw]
    exact text_cons 1 n c₄

theorem mediaMapper_leads : (mediaMapper e).All IsInt fun url run =>
    Leads (mediaRoutes e) url run ∧ 2 ≤ url.length := by
  refine Mapper.All.node (fun a ha ps hlen hps => ?_) (fun m hm => absurd hm List.not_mem_nil)
  obtain rfl := List.mem_singleton.1 ha
  obtain ⟨n, rfl⟩ := List.length_eq_one_iff.1 hlen
  rw [List.map_singleton, fill_number]
  obtain ⟨caps, hcaps, htext⟩ := full_media n
  refine ⟨?_, ?_⟩
  · show Leads _ _ (Media.prepare e (toString n))
    rw [← htext]
    exact .hit (r := (_, fun m => Media.prepare e (text m 1))) hcaps
      (tail_digits (by decide) (by decide) List.not_mem_nil)
  · rw [String.length_ofList, List.append_nil, List.length_append]
    have hpos := List.length_pos_iff.2 (Nat.toDigits_ne_nil (b := 10) (n := n))
    exact Nat.add_le_add (show 1 ≤ "/".toList.length by decide) hpos

/-! ### Mounted applications -/

theorem Tail.append {w u : List Char} (hu : Tail u) (hw : w.head? = some '/') (hline : '\n' ∉ w) : Tail (w ++ u) := by
  refine ⟨.inr ?_, ?_⟩
  · rw [List.head?_append, hw, Option.some_or]
  · rw [List.mem_append, not_or]
    exact ⟨hline, hu.2⟩

theorem Leads.mount {routes rest : List Route} {base url : String} {run : App Unit}
    (hbase : base.toList.head? = some '/') (hline : '\n' ∉ base.toList) (h : Leads routes url run) :
    Leads ((mountRx base, fun m => dispatch routes (text m 1)) :: rest) (fill [.text base, .param 1] [url]) run := by
  rw [fill_mount]
  refine ⟨?_, ?_⟩
  · rw [dispatch_mount (h := dispatch routes) h.2, String.ofList_toList]
    exact h.1
  · rw [String.toList_ofList]
    exact h.2.append hbase hline

theorem Leads.mount_root {routes rest : List Route} {url : String} {run : App Unit} (h : Leads routes url run) :
    Leads ((mountRx "", fun m => dispatch routes (text m 1)) :: rest) url run := by
  refine ⟨?_, h.2⟩
  have hmount : dispatch ((mountRx "", fun m => dispatch routes (text m 1)) :: rest)
      (String.ofList ("".toList ++ url.toList)) = _ := dispatch_mount (h := dispatch routes) h.2
  rw [show "".toList = [] from rfl, List.nil_append, String.ofList_toList] at hmount
  exact hmount.trans h.1

/-- An application that is mounted elsewhere. -/
theorem Leads.elsewhere {rest : List Route} {w base url : String} {a : Rx} {h : Captures → App Unit}
    {run : App Unit} (hw : w.toList.isPrefixOf (base.toList ++ url.toList) = false)
    (hrest : Leads rest (fill [.text base, .param 1] [url]) run) :
    Leads ((Rx.seq (txt w) a, h) :: rest) (fill [.text base, .param 1] [url]) run := by
  rw [fill_mount] at hrest ⊢
  exact .skip (full_other hw) hrest

theorem full_restRx (base : String) {u : List Char} (hu : Tail u) (hlen : 2 ≤ u.length) :
    ∃ caps, (restRx base).full (base.toList ++ u) = some caps ∧ text caps 1 = String.ofList u := by
  have hmatches : (restRx base).Matches (base.toList ++ u) := by
    refine ⟨base.toList, u, rfl, (Rx.matches_lit _ _).2 rfl, ?_⟩
    rcases hu.1 with rfl | hhead
    · exact absurd hlen (by decide)
    · match u, hhead with
      | c :: d :: t, hhead =>
        obtain rfl := Option.some.inj hhead
        refine ⟨"/".toList, d :: t, rfl, (Rx.matches_lit _ _).2 rfl, (Rx.matches_plus _ _).2 ⟨List.cons_ne_nil _ _, ?_⟩⟩
        exact fun c hc => decide_eq_true fun h : c = '\n' => hu.2 (h ▸ List.mem_cons_of_mem _ hc)
  obtain ⟨caps, hcaps⟩ := Option.isSome_iff_exists.1 ((Rx.full_isSome _ _).2 hmatches)
  have hgroup := Rx.group_of_full_lit hcaps
  exact ⟨caps, hcaps, by rw [text, ← List.append_cancel_left hgroup]⟩

/-- An application that is mounted for what has a name. -/
theorem Leads.rest {routes rest : List Route} {base url : String} {run : App Unit}
    (hbase : base.toList.head? = some '/') (hline : '\n' ∉ base.toList) (h : Leads routes url run)
    (hlen : 2 ≤ url.length) :
    Leads ((restRx base, fun m => dispatch routes (text m 1)) :: rest) (fill [.text base, .param 1] [url]) run := by
  rw [fill_mount]
  obtain ⟨caps, hcaps, htext⟩ := full_restRx base h.2 (by rwa [String.length_toList])
  refine ⟨?_, ?_⟩
  · rw [dispatch_hit hcaps]
    show dispatch routes (text caps 1) = run
    rw [htext, String.ofList_toList]
    exact h.1
  · rw [String.toList_ofList]
    exact h.2.append hbase hline

/-- The application behind the last entry of the blog sees the path as it is. -/
theorem Leads.whole {routes rest : List Route} {url : String} {run : App Unit} (h : Leads routes url run) :
    Leads ((.grp 0 (.star dot), fun m => dispatch routes (text m 0)) :: rest) url run := by
  refine ⟨?_, h.2⟩
  have hmatches : (Rx.grp 0 (.star dot)).Matches url.toList := fun c hc =>
    decide_eq_true fun heq : c = '\n' => h.2.2 (heq ▸ hc)
  obtain ⟨caps, hcaps⟩ := Option.isSome_iff_exists.1 ((Rx.full_isSome _ _).2 hmatches)
  obtain ⟨w, rfl, hw, -⟩ := Rx.mem_go_grp_of_nil (fun _ _ => Rx.eq_nil_of_mem_go_star) (Rx.mem_go_of_full hcaps)
  rw [dispatch_cons, hcaps]
  show dispatch routes (text [(0, w)] 0) = run
  rw [List.append_nil] at hw
  have htext : text [(0, w)] 0 = url := by
    rw [text, Rx.group, List.lookup_cons_self, Option.getD_some, ← hw, String.ofList_toList]
  rw [htext]
  exact h.1

theorem blogMapper_leads : (blogMapper e).All IsInt fun url run => Leads (blogRoutes e) url run ∧
    Apart ["/captcha", "/config", "/admin", "/rss", "/media"] url := by
  refine Mapper.All.node (fun a ha => absurd ha List.not_mem_nil) (fun m hm => ?_)
  simp only [List.mem_cons, List.not_mem_nil, or_false] at hm
  have hapart {base url : String} (hbase : base = "/page" ∨ base = "/post" ∨ base = "/download") :
      Apart ["/captcha", "/config", "/admin", "/rss", "/media"] (fill [.text base, .param 1] [url]) := by
    rw [fill_mount, Apart, String.toList_ofList]
    rcases hbase with rfl | rfl | rfl <;> simp only [List.forall_mem_cons] <;>
      exact ⟨rfl, rfl, rfl, rfl, rfl, fun _ h => absurd h List.not_mem_nil⟩
  rcases hm with rfl | rfl | rfl | rfl
  · refine (pageMapper_leads e).mono fun url run h => ⟨?_, hapart (.inl rfl)⟩
    exact h.mount (by decide) (by decide)
  · refine (postMapper_leads e).mono fun url run h => ⟨?_, hapart (.inr (.inl rfl))⟩
    exact .elsewhere rfl (h.mount (by decide) (by decide))
  · refine (downloadMapper_leads e).mono fun url run h => ⟨?_, hapart (.inr (.inr rfl))⟩
    exact .elsewhere rfl (.elsewhere rfl (h.1.rest (by decide) (by decide) h.2))
  · refine (summaryMapper_leads e).mono fun url run h => ?_
    rw [fill_self]
    obtain ⟨hleads, happart⟩ := h
    simp only [Apart, List.forall_mem_cons] at happart ⊢
    obtain ⟨hpage, hpost, hdownload, hplaces⟩ := happart
    refine ⟨?_, hplaces⟩
    rw [← @String.ofList_toList url] at hleads ⊢
    exact .skip (full_other hpage) (.skip (full_other hpost) (.skip (full_other hdownload) hleads.whole))

/-- A page of the administration with one path. -/
theorem single_leads {rx : Rx} {w : String} {caps : Captures} {run : App Unit} (key : String)
    (h : rx.full w.toList = some caps) (htail : Tail w.toList) :
    (Mapper.node [⟨key, [.text w], fun _ => run⟩] []).All IsInt (Leads [(rx, fun _ => run)]) := by
  refine Mapper.All.node (fun a ha ps hlen hps => ?_) (fun m hm => absurd hm List.not_mem_nil)
  obtain rfl := List.mem_singleton.1 ha
  obtain rfl := List.length_eq_zero_iff.1 hlen
  rw [List.map_nil, fill_text]
  exact .hit (r := (rx, fun _ => run)) h htail

/-- The editors: with a number, and for something new. -/
theorem editor_leads (edit : String → App Unit) (new : App Unit) :
    (Mapper.node [⟨"", [.text "/", .param 1], fun ps => edit (toString (nth ps 1))⟩,
      ⟨"", [.text "/"], fun _ => new⟩] []).All IsInt
        (Leads [(.seq (numberRx "/" 1) slashRx, fun m => edit (text m 1)), (slashRx, fun _ => new)]) := by
  refine Mapper.All.node (fun a ha ps hlen hps => ?_) (fun m hm => absurd hm List.not_mem_nil)
  simp only [List.mem_cons, List.not_mem_nil, or_false] at ha
  rcases ha with rfl | rfl
  · obtain ⟨n, rfl⟩ := List.length_eq_one_iff.1 hlen
    rw [List.map_singleton, fill_number]
    exact Leads.id (h := edit) (by decide) (by decide)
  · obtain rfl := List.length_eq_zero_iff.1 hlen
    rw [List.map_nil, fill_text]
    exact .skip rfl (.hit (r := (slashRx, fun _ => new)) (show slashRx.full "/".toList = some [] from rfl) (by decide))

theorem adminComment_leads : (Mapper.node [⟨"", [.text "/", .param 1], fun ps =>
    AdminComment.prepare e (toString (nth ps 1))⟩] []).All IsInt
      (Leads [(.seq (numberRx "/" 1) slashRx, fun m => AdminComment.prepare e (text m 1))]) := by
  refine Mapper.All.node (fun a ha ps hlen hps => ?_) (fun m hm => absurd hm List.not_mem_nil)
  obtain rfl := List.mem_singleton.1 ha
  obtain ⟨n, rfl⟩ := List.length_eq_one_iff.1 hlen
  rw [List.map_singleton, fill_number]
  exact Leads.id (h := AdminComment.prepare e) (by decide) (by decide)

/-- The pages of the summary, which no other application of the administration answers. -/
theorem adminSummary_leads : (Mapper.node [⟨"", [.text "/", .param 1], fun ps => AdminSummary.prepare e (nth ps 1)⟩,
    ⟨"", [.text ""], fun _ => AdminSummary.prepare e 0⟩] []).All IsInt fun url run =>
      Leads [(.seq (numberRx "/" 1) slashRx, fun m => AdminSummary.prepare e (atoi (text m 1))),
        (slashRx, fun _ => AdminSummary.prepare e 0)] url run ∧
      Apart ["/cache", "/categories", "/options", "/comment", "/post", "/page", "/users", "/upload"] url := by
  refine Mapper.All.node (fun a ha ps hlen hps => ?_) (fun m hm => absurd hm List.not_mem_nil)
  simp only [List.mem_cons, List.not_mem_nil, or_false] at ha
  rcases ha with rfl | rfl
  · obtain ⟨n, rfl⟩ := List.length_eq_one_iff.1 hlen
    rw [List.map_singleton, fill_number]
    refine ⟨?_, ?_⟩
    · show Leads _ _ (AdminSummary.prepare e n)
      rw [← atoi_toString_nat (hps n (List.mem_singleton_self n))]
      exact Leads.id (h := fun s => AdminSummary.prepare e (atoi s)) (by decide) (by decide)
    · have hother {c : Char} (hc : isDigit c = false) (w : List Char) := isPrefixOf_digits hc w n []
      rw [Apart, String.toList_ofList]
      simp only [List.forall_mem_cons]
      exact ⟨hother (by decide) _, hother (by decide) _, hother (by decide) _, hother (by decide) _,
        hother (by decide) _, hother (by decide) _, hother (by decide) _, hother (by decide) _,
        fun _ h => absurd h List.not_mem_nil⟩
  · obtain rfl := List.length_eq_zero_iff.1 hlen
    rw [List.map_nil, fill_text]
    exact ⟨.skip rfl (.hit (show slashRx.full "".toList = some [] from rfl) (by decide)), by unfold Apart; decide⟩

theorem adminMapper_leads : (adminMapper e).All IsInt (Leads (adminRoutes e)) := by
  refine Mapper.All.node (fun a ha => absurd ha List.not_mem_nil) (fun m hm => ?_)
  simp only [List.mem_cons, List.not_mem_nil, or_false] at hm
  have hroot : slashRx.full "".toList = some [] := rfl
  have hslash : slashRx.full "/".toList = some [] := rfl
  rcases hm with rfl | rfl | rfl | rfl | rfl | rfl | rfl | rfl | rfl
  · refine (single_leads "" hroot (by decide)).mono fun url run h => ?_
    exact h.mount (by decide) (by decide)
  · refine (single_leads "" hslash (by decide)).mono fun url run h => ?_
    exact .elsewhere rfl (h.mount (by decide) (by decide))
  · refine (single_leads "" hslash (by decide)).mono fun url run h => ?_
    exact .elsewhere rfl (.elsewhere rfl (h.mount (by decide) (by decide)))
  · refine (adminComment_leads e).mono fun url run h => ?_
    exact .elsewhere rfl (.elsewhere rfl (.elsewhere rfl (h.mount (by decide) (by decide))))
  · refine (editor_leads (AdminPost.prepare e) (AdminPost.prepareShared e 0)).mono fun url run h => ?_
    refine .elsewhere rfl (.elsewhere rfl (.elsewhere rfl (.elsewhere rfl ?_)))
    exact h.mount (by decide) (by decide)
  · refine (editor_leads (AdminPage.prepare e) (AdminPage.prepareShared e 0)).mono fun url run h => ?_
    refine .elsewhere rfl (.elsewhere rfl (.elsewhere rfl (.elsewhere rfl (.elsewhere rfl ?_))))
    exact h.mount (by decide) (by decide)
  · refine (usersMapper_leads e).mono fun url run h => ?_
    refine .elsewhere rfl (.elsewhere rfl (.elsewhere rfl (.elsewhere rfl (.elsewhere rfl (.elsewhere rfl ?_)))))
    exact h.mount (by decide) (by decide)
  · refine (single_leads "" hroot (by decide)).mono fun url run h => ?_
    refine .elsewhere rfl (.elsewhere rfl (.elsewhere rfl (.elsewhere rfl (.elsewhere rfl (.elsewhere rfl ?_)))))
    exact .elsewhere rfl (h.mount (by decide) (by decide))
  · refine (adminSummary_leads e).mono fun url run h => ?_
    rw [fill_self]
    obtain ⟨hleads, happart⟩ := h
    simp only [Apart, List.forall_mem_cons] at happart
    obtain ⟨hcache, hcategories, hoptions, hcomment, hpost, hpage, husers, hupload, -⟩ := happart
    rw [← @String.ofList_toList url] at hleads ⊢
    refine .skip (full_other hcache) (.skip (full_other hcategories) (.skip (full_other hoptions) ?_))
    refine .skip (full_other hcomment) (.skip (full_other hpost) (.skip (full_other hpage) ?_))
    exact .skip (full_other husers) (.skip (full_other hupload) hleads.mount_root)

/-! ### The whole site -/

/-- An application that is mounted for whatever begins with its place. -/
theorem Leads.openMount {routes rest : List Route} {base url : String} {run : App Unit} (h : Leads routes url run) :
    dispatch ((openMountRx base, fun m => dispatch routes (text m 1)) :: rest) (fill [.text base, .param 1] [url]) =
      run := by
  have hmatches : (openMountRx base).Matches (base.toList ++ url.toList) := by
    refine ⟨base.toList, url.toList, rfl, (Rx.matches_lit _ _).2 rfl, [], url.toList, rfl, .inr rfl, fun c hc => ?_⟩
    exact decide_eq_true fun heq : c = '\n' => h.2.2 (heq ▸ hc)
  obtain ⟨caps, hcaps⟩ := Option.isSome_iff_exists.1 ((Rx.full_isSome _ _).2 hmatches)
  have htext : text caps 1 = url := by
    rw [text, ← List.append_cancel_left (Rx.group_of_full_lit hcaps), String.ofList_toList]
  rw [fill_mount, dispatch_hit hcaps]
  show dispatch routes (text caps 1) = run
  rw [htext]
  exact h.1

/-- `admin_master::main` dispatches for a user who is logged in, and to the login page. -/
def entered (e : Env) (url : String) (run : App Unit) : App Unit :=
  if "/admin".toList.isPrefixOf url.toList then
    (sessionIsSet "user").bind fun isUser =>
    if isUser ∨ url = "/admin/users" ∨ url = "/admin/users/" then run else setRedirectHeader (urlAdminUsers e)
  else run

theorem entered_of_elsewhere {url : String} {run : App Unit} (h : "/admin".toList.isPrefixOf url.toList = false) :
    entered e url run = run := by
  rw [entered, if_neg]
  rw [h]
  decide

/-- **The administration is entered as `admin_master::main` does.** -/
theorem dispatch_adminMaster {url : String} {run : App Unit} {rest : List Route} (h : Leads (adminRoutes e) url run) :
    dispatch ((mountRx "/admin", fun m => adminMaster e (text m 1)) :: rest)
      (fill [.text "/admin", .param 1] [url]) = entered e (fill [.text "/admin", .param 1] [url]) run := by
  have hcancel (s : String) : String.ofList ("/admin".toList ++ url.toList) = "/admin" ++ s ↔ url = s := by
    rw [← String.toList_inj, String.toList_ofList, String.toList_append, List.append_cancel_left_eq, String.toList_inj]
  have hprefixed : "/admin".toList.isPrefixOf (String.ofList ("/admin".toList ++ url.toList)).toList = true := by
    rw [@String.toList_ofList ("/admin".toList ++ url.toList)]
    rfl
  rw [fill_mount, dispatch_mount (h := adminMaster e) h.2, String.ofList_toList, adminMaster, h.1, entered,
    if_pos hprefixed, show "/admin/users" = "/admin" ++ "/users" from rfl,
    show "/admin/users/" = "/admin" ++ "/users/" from rfl]
  simp only [hcancel]

theorem dispatch_elsewhere {rest : List Route} {w base url : String} {a : Rx} {h : Captures → App Unit}
    (hw : w.toList.isPrefixOf (base.toList ++ url.toList) = false) :
    dispatch ((Rx.seq (txt w) a, h) :: rest) (fill [.text base, .param 1] [url]) =
      dispatch rest (fill [.text base, .param 1] [url]) := by
  rw [fill_mount]
  exact dispatch_skip (full_other hw)

theorem entered_mounted {base url : String} {run : App Unit}
    (h : "/admin".toList.isPrefixOf (base.toList ++ url.toList) = false) :
    entered e (fill [.text base, .param 1] [url]) run = run := by
  refine entered_of_elsewhere e ?_
  rw [fill_mount, @String.toList_ofList (base.toList ++ url.toList)]
  exact h

theorem siteMapper_leads : (siteMapper e).All IsInt fun url run => dispatch (siteRoutes e) url = entered e url run := by
  refine Mapper.All.node (fun a ha => absurd ha List.not_mem_nil) (fun m hm => ?_)
  simp only [List.mem_append, List.mem_cons, List.not_mem_nil, or_false] at hm
  rcases hm with ((rfl | rfl | rfl | rfl) | hm) | rfl
  · refine Mapper.All.node (fun a ha ps hlen hps => ?_) (fun m hm => absurd hm List.not_mem_nil)
    obtain rfl := List.mem_singleton.1 ha
    obtain rfl := List.length_eq_zero_iff.1 hlen
    rw [List.map_nil, fill_text, entered_mounted e rfl, fill_mount]
    -- the captcha answers every path
    exact dispatch_hit (show (openMountRx "/captcha").full "/captcha".toList = some [(1, []), (2, [])] from rfl)
  · refine (configMapper_leads e).mono fun url run h => ?_
    rw [entered_mounted e rfl]
    exact (dispatch_elsewhere rfl).trans h.openMount
  · refine (adminMapper_leads e).mono fun url run h => ?_
    exact (dispatch_elsewhere rfl).trans ((dispatch_elsewhere rfl).trans (dispatch_adminMaster e h))
  · refine (feedMapper_leads e).mono fun url run h => ?_
    rw [entered_mounted e rfl]
    refine (dispatch_elsewhere rfl).trans ((dispatch_elsewhere rfl).trans ((dispatch_elsewhere rfl).trans ?_))
    exact (h.mount (by decide) (by decide)).1
  · split at hm
    · rename_i hmedia
      obtain rfl := List.mem_singleton.1 hm
      refine (mediaMapper_leads e).mono fun url run h => ?_
      rw [entered_mounted e rfl, siteRoutes, if_pos hmedia]
      refine (dispatch_elsewhere rfl).trans ((dispatch_elsewhere rfl).trans ((dispatch_elsewhere rfl).trans
        ((dispatch_elsewhere rfl).trans ?_)))
      exact (h.1.rest (by decide) (by decide) h.2).1
    · exact absurd hm List.not_mem_nil
  · refine (blogMapper_leads e).mono fun url run h => ?_
    rw [fill_self]
    obtain ⟨hleads, happart⟩ := h
    simp only [Apart, List.forall_mem_cons] at happart
    obtain ⟨hcaptcha, hconfig, hadmin, hfeed, hmedia, -⟩ := happart
    rw [entered_of_elsewhere e hadmin]
    have hroot := @Leads.mount_root _ [] _ _ hleads
    rw [← @String.ofList_toList url] at hroot ⊢
    refine (dispatch_skip (full_other hcaptcha)).trans ((dispatch_skip (full_other hconfig)).trans
      ((dispatch_skip (full_other hadmin)).trans ((dispatch_skip (full_other hfeed)).trans ?_)))
    by_cases hattached : e.settings.mediaAttached = true
    · rw [if_pos hattached]
      exact (dispatch_skip (full_other hmedia)).trans hroot.1
    · rw [if_neg hattached]
      exact hroot.1

/-- **Every link leads to the page it stands for**, with the numbers it was made with. -/
theorem lookup_dispatches (path : List String) (key : String) (ps : List Nat) (url : String) (run : App Unit)
    (hps : ∀ p ∈ ps, p ≤ 2147483647) (h : (siteMapper e).lookup path key ps = some (url, run)) :
    dispatch (siteRoutes e) url = entered e url run :=
  siteMapper_leads e path key ps url run hps h

/-- The second page of a category, and the third of the users. -/
theorem lookup_dispatches_pages :
    dispatch (siteRoutes (Site.sample.env (.get "v" "/"))) "/cat/7/from/2" =
        entered (Site.sample.env (.get "v" "/")) "/cat/7/from/2"
          (Summary.category (Site.sample.env (.get "v" "/")) "7" "2") ∧
      dispatch (siteRoutes (Site.sample.env (.get "v" "/"))) "/admin/users/list/3" =
        entered (Site.sample.env (.get "v" "/")) "/admin/users/list/3"
          (Users.list (Site.sample.env (.get "v" "/")) 3) :=
  ⟨lookup_dispatches _ ["blog", "summary"] "category" [7, 2] _ _ (by decide) rfl,
    lookup_dispatches _ ["admin", "users"] "list" [3] _ _ (by decide) rfl⟩

end

end CppBlog
