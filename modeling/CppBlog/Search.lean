import CppBlog.Text.Like
import CppBlog.Text.LikeOperator
import CppBlog.Server

set_option autoImplicit false

/-! # Searching

A search text becomes a pattern by `mysql_like` and two `%`. Where the engine takes the backslash as an
escape character, the pattern looks for the text itself. Where it does not, each backslash that
`mysql_like` puts in is one that a matching text must have. -/

namespace CppBlog

open Sql

/-- The engines the repository has a schema script for. -/
inductive Engine where
  | sqlite3
  | mysql
  | postgresql
deriving DecidableEq

/-- The escape character of `LIKE` when there is no `ESCAPE` clause. -/
def Engine.likeEscape : Engine → Option Char
  | .sqlite3 => none
  | .mysql => some '\\'
  | .postgresql => some '\\'

/-- `t LIKE p` -/
def Engine.like (engine : Engine) (fold : Char → Char) (t p : String) : Bool :=
  Sql.like fold engine.likeEscape t p

/-- The blog on an engine, letter case aside. -/
def Env.on (engine : Engine) (e : Env) : Env :=
  { e with lib := { e.lib with like := engine.like Char.toLower } }

theorem Env.on_like (engine : Engine) (e : Env) : (e.on engine).lib.like = engine.like Char.toLower := rfl

/-! ## The pattern of a search text -/

theorem likePattern_toList (q : String) :
    (likePattern q).toList = '%' :: (q.toList.flatMap escapeLike ++ ['%']) := by
  rw [likePattern, String.toList_append, String.toList_append, mysqlLike_toList]
  rfl

/-- What stands for a character is read back as that character. -/
theorem readPattern_escapeLike (c : Char) (p : List Char) :
    readPattern (some '\\') (escapeLike c ++ p) = .lit c :: readPattern (some '\\') p := by
  unfold escapeLike
  split
  · exact readPattern_escaped '\\' c p
  · rename_i hspecial
    simp only [isSpecial, Bool.or_eq_true, decide_eq_true_eq, not_or] at hspecial
    obtain ⟨⟨⟨hslash, hunderscore⟩, -⟩, hpercent⟩ := hspecial
    rw [List.singleton_append, readPattern_of_ne fun h => hslash (Option.some.inj h).symm, Wild.of,
      if_neg hpercent, if_neg hunderscore]

theorem readPattern_flatMap (l p : List Char) :
    readPattern (some '\\') (l.flatMap escapeLike ++ p) = l.map .lit ++ readPattern (some '\\') p := by
  induction l with
  | nil => rfl
  | cons c l ih =>
    rw [List.flatMap_cons, List.append_assoc, readPattern_escapeLike, ih, List.map_cons, List.cons_append]

/-- **With the backslash as escape character the pattern is the text between two `%`.** -/
theorem readPattern_likePattern (q : String) :
    readPattern (some '\\') (likePattern q).toList = .any :: (q.toList.map .lit ++ [.any]) := by
  rw [likePattern_toList, readPattern_of_ne (by decide), readPattern_flatMap]
  rfl

theorem like_escaped (fold : Char → Char) (q t : String) :
    Sql.like fold (some '\\') t (likePattern q) = true ↔ q.toList.map fold <:+: t.toList.map fold := by
  rw [Sql.like, readPattern_likePattern, likes_any_lits_any]

/-- **MySQL and PostgreSQL find a search text in the texts it occurs in, and in no others.** -/
theorem like_likePattern_iff (q t : String) :
    (Engine.mysql.like id t (likePattern q) = true ↔ q.toList <:+: t.toList) ∧
      (Engine.postgresql.like id t (likePattern q) = true ↔ q.toList <:+: t.toList) := by
  have h := like_escaped id q t
  rw [List.map_id, List.map_id] at h
  exact ⟨h, h⟩

/-! ## Without an escape character -/

theorem toLower_eq_backslash (c : Char) : c.toLower = Char.toLower '\\' ↔ c = '\\' := by
  constructor
  · intro h
    unfold Char.toLower at h
    split at h
    · rename_i hupper
      -- a lower-case letter is no backslash
      have hval : c.val + 32 = 92 := congrArg Char.val h
      have hnat := congrArg UInt32.toNat hval
      obtain ⟨hA, hZ⟩ := hupper
      simp only [ge_iff_le, UInt32.le_iff_toNat_le] at hA hZ
      have hA' : 65 ≤ c.val.toNat := hA
      have hZ' : c.val.toNat ≤ 90 := hZ
      simp only [UInt32.toNat_add, UInt32.reduceToNat] at hnat
      omega
    · exact h
  · rintro rfl
    rfl

theorem isLit_of (c : Char) : Wild.isLit Char.toLower '\\' (Wild.of c) = decide (c = '\\') := by
  unfold Wild.of
  split
  · rename_i hpercent
    subst hpercent
    rfl
  · split
    · rename_i hunderscore
      subst hunderscore
      rfl
    · exact decide_eq_decide.2 (toLower_eq_backslash c)

/-- The backslashes of a pattern: each of the text twice, and one for each other special character. -/
theorem countP_flatMap_escapeLike (l : List Char) :
    (l.flatMap escapeLike).countP (· = '\\') = l.countP (· = '\\') + l.countP isSpecial := by
  induction l with
  | nil => rfl
  | cons c l ih =>
    have hhead : (escapeLike c).countP (· = '\\') =
        (if c = '\\' then 1 else 0) + (if isSpecial c then 1 else 0) := by
      unfold escapeLike
      by_cases hslash : c = '\\'
      · subst hslash
        rfl
      · by_cases hspecial : isSpecial c = true <;> simp [hslash, hspecial]
    rw [List.flatMap_cons, List.countP_append, ih, hhead, List.countP_cons, List.countP_cons]
    simp only [decide_eq_true_eq]
    omega

/-- **A pattern of a text with a special character matches no text with as few backslashes** where the
    backslashes stand for themselves: the pattern has more of them than the text it was made of. -/
theorem like_none_eq_false {q t : String} (h : ∃ c ∈ q.toList, isSpecial c = true)
    (ht : t.toList.countP (· = '\\') ≤ q.toList.countP (· = '\\')) :
    Sql.like Char.toLower none t (likePattern q) = false := by
  refine Bool.eq_false_iff.2 fun hlike => ?_
  have hcount := countP_isLit_le '\\' hlike
  have hpattern : (readPattern none (likePattern q).toList).countP (Wild.isLit Char.toLower '\\') =
      q.toList.countP (· = '\\') + q.toList.countP isSpecial := by
    have hcomp : Wild.isLit Char.toLower '\\' ∘ Wild.of = fun c => decide (c = '\\') :=
      funext isLit_of
    rw [readPattern_none, List.countP_map, likePattern_toList, ← countP_flatMap_escapeLike, hcomp]
    simp
  have htext : t.toList.countP (fun d => d.toLower = Char.toLower '\\') = t.toList.countP (· = '\\') := by
    simp only [toLower_eq_backslash]
  have hpos : 0 < q.toList.countP isSpecial := List.countP_pos_iff.2 h
  omega

/-- A text without special characters is its own escaped form. -/
theorem flatMap_escapeLike_self {l : List Char} (h : ∀ c ∈ l, isSpecial c = false) :
    l.flatMap escapeLike = l := by
  induction l with
  | nil => rfl
  | cons c l ih =>
    obtain ⟨hc, hl⟩ := List.forall_mem_cons.1 h
    rw [List.flatMap_cons, ih hl, escapeLike, if_neg (by simp [hc])]
    rfl

/-- A pattern without backslashes is read the same with and without the escape character. -/
theorem readPattern_plain {p : List Char} (h : '\\' ∉ p) :
    readPattern (some '\\') p = readPattern none p := by
  induction p with
  | nil => rfl
  | cons c p ih =>
    rw [List.mem_cons, not_or] at h
    rw [readPattern_of_ne fun hc => h.1 (Option.some.inj hc), ih h.2, readPattern_of_ne (by simp)]

/-- A search text without special characters is the same pattern with and without it. -/
theorem like_plain {q : String} (h : ∀ c ∈ q.toList, isSpecial c = false) (fold : Char → Char)
    (t : String) : Sql.like fold (some '\\') t (likePattern q) = Sql.like fold none t (likePattern q) := by
  have hnone : '\\' ∉ (likePattern q).toList := by
    rw [likePattern_toList, flatMap_escapeLike_self h]
    simp only [List.mem_cons, List.mem_append, List.not_mem_nil, or_false, not_or]
    exact ⟨by decide, fun hmem => absurd (h _ hmem) (by decide), by decide⟩
  rw [Sql.like, Sql.like, readPattern_plain hnone]

/-! ## The listing on the three engines -/

theorem Engine.like_plain {q : String} (h : ∀ c ∈ q.toList, isSpecial c = false) (engine : Engine)
    (t : String) : engine.like Char.toLower t (likePattern q) = Sql.like Char.toLower none t (likePattern q) := by
  cases engine with
  | sqlite3 => rfl
  | mysql => exact CppBlog.like_plain h _ t
  | postgresql => exact CppBlog.like_plain h _ t

/-- An open post of a given title. -/
def Post.titled (title : String) : Post :=
  { id := 1, authorId := 1, title, abstract := "", content := "", publish := 0, commentCount := 0, isOpen := 1 }

/-- A database with this post. -/
def Db.titled (title : String) : Db :=
  { Db.fresh with
    posts := {
      rows := [Post.titled title]
      nodup := List.nodup_singleton _
      seq := 1
      key_pos := fun r hr => List.mem_singleton.1 hr ▸ Int.one_pos
      le_seq := fun r hr => List.mem_singleton.1 hr ▸ Int.le_refl 1
      seq_nonneg := by decide
      seq_le := by decide } }

namespace Summary

/-- What a search selects is the same on the engines. -/
theorem selectPosts_on {q : String} (h : ∀ c ∈ q.toList, isSpecial c = false) (e : Env)
    (engine engine' : Engine) (catId n k : Int) (d : Db) :
    selectPosts (e.on engine) catId q n k d = selectPosts (e.on engine') catId q n k d := by
  have hmatches : matchesLike (e.on engine) (likePattern q) = matchesLike (e.on engine') (likePattern q) := by
    funext p
    simp only [matchesLike, Env.on, Engine.like_plain h]
  have hcond : condition (e.on engine) q = condition (e.on engine') q := by
    funext p
    rw [condition, condition, hmatches]
  have hcat : conditionInCat (e.on engine) q = conditionInCat (e.on engine') q := by
    funext p
    rw [conditionInCat, conditionInCat, hmatches]
  rw [selectPosts, selectPosts, hcond, hcat]

theorem selectPosts_titled (e : Env) (q title : String) :
    selectPosts e 0 q 10 0 (Db.titled title) =
      if condition e q (Post.titled title) then [summaryRow (some (Post.titled title), none)] else [] := by
  have hrows : (Db.titled title).posts.rows = [Post.titled title] := rfl
  have hauthor : (Db.titled title).users.find? (Post.titled title).authorId = none := rfl
  rw [selectPosts, if_neg (not_not.2 rfl), Db.selectOpenPosts, hrows]
  by_cases hcond : condition e q (Post.titled title) = true
  · rw [if_pos hcond, List.filter_cons_of_pos (by simpa [Post.titled] using hcond), List.filter_nil]
    simp [orderByDesc, limitOffset, hauthor]
  · rw [if_neg hcond, List.filter_cons_of_neg (by simpa [Post.titled] using hcond), List.filter_nil]
    simp [orderByDesc, limitOffset]

/-- **A search selects the same posts on every engine if and only if its text holds none of the
    characters `\`, `_`, `|` and `%`.** -/
theorem selectPosts_on_iff (e : Env) (q : String) :
    (∀ (engine engine' : Engine) (catId n k : Int) (d : Db),
      selectPosts (e.on engine) catId q n k d = selectPosts (e.on engine') catId q n k d) ↔
    ∀ c ∈ q.toList, isSpecial c = false := by
  constructor
  · intro hsame c hc
    by_contra hcs
    rw [Bool.not_eq_false] at hcs
    have hne : ¬q.isEmpty = true := by
      intro hempty
      rw [String.isEmpty_iff.1 hempty] at hc
      exact absurd hc (by simp)
    -- the post with the search text as its title is found by MySQL, and by SQLite it is not
    have hsqlite (t : String) (ht : t.toList.countP (· = '\\') ≤ q.toList.countP (· = '\\')) :
        (Env.on .sqlite3 e).lib.like t (likePattern q) = false := by
      rw [Env.on_like, Engine.like, Engine.likeEscape]
      exact like_none_eq_false ⟨c, hc, hcs⟩ ht
    have hmysql : (Env.on .mysql e).lib.like q (likePattern q) = true := by
      rw [Env.on_like, Engine.like, Engine.likeEscape, like_escaped]
    have hmissed : condition (Env.on .sqlite3 e) q (Post.titled q) = false := by
      rw [condition, if_neg hne, matchesLike, Post.titled, hsqlite q (Nat.le_refl _),
        hsqlite "" (Nat.zero_le _)]
      rfl
    have hfound : condition (Env.on .mysql e) q (Post.titled q) = true := by
      rw [condition, if_neg hne, matchesLike, Post.titled, hmysql]
      rfl
    have hone := hsame .sqlite3 .mysql 0 10 0 (Db.titled q)
    rw [selectPosts_titled, selectPosts_titled, hmissed, hfound, if_neg (by simp), if_pos rfl] at hone
    exact absurd hone (by simp)
  · intro h engine engine' catId n k d
    exact selectPosts_on h e engine engine' catId n k d

/-- The percent sign: MySQL finds the post of this title, SQLite does not. -/
theorem selectPosts_on_percent :
    selectPosts ((Site.sample.env { req := { sid := "a", path := "/" } }).on .mysql) 0 "%" 10 0
        (Db.titled "%") ≠
      selectPosts ((Site.sample.env { req := { sid := "a", path := "/" } }).on .sqlite3) 0 "%" 10 0
        (Db.titled "%") := by
  intro h
  have hlength := congrArg List.length h
  exact absurd hlength (by decide)

end Summary

end CppBlog
