import CppBlog.Apps.Feed
import CppBlog.Fresh
import CppBlog.Server

set_option autoImplicit false

/-! # Texts of comments

The text of a comment reaches a browser in three ways: in the preview of a comment that is being written, in
the list of comments of its post, and in the feed of comments. Two of the templates put it through the filter
against scripts. -/

namespace CppBlog

open Store

/-- A comment's text as Markdown, filtered. -/
def filtered (e : Env) (text : String) : String := e.lib.xss (e.lib.markdownToHtml text)

/-- Wherever a text is shown as a comment's, it is shown filtered. -/
structure ShownFiltered (e : Env) (text : String) : Prop where
  preview : ∀ c response, (postTemplate e c text response).preview =
    if text.isEmpty then none else some (filtered e text)
  entry : ∀ (d : Db) id p username info text' response (i : Nat) k x,
    (d.selectCommentsOf id)[i]? = some k → k.content = text →
    (postTemplate e (d.postContent id p username info) text' response).comments[i]? = some x →
    x.content = filtered e text
  feed : ∀ (rows : List Comment) (i : Nat) k x, rows[i]? = some k → k.content = text →
    (rows.map (Feed.commentItem e))[i]? = some x → x.content = escape (filtered e text)

theorem feedItem_eq (e : Env) (text : String) : Feed.feedItem e text = escape (filtered e text) := rfl

/-- The entries of the list of comments are those of the table, each with its text unfiltered. -/
theorem comments_postTemplate (e : Env) (c : PostContent) (text : String) (response : CommentForm) :
    (postTemplate e c text response).comments = c.comments.map (commentEntry e) := rfl

theorem one_le_maxId : 1 ≤ maxId := by decide

/-- A table of comments with one comment, on post 1. -/
def oneComment (text : String) : Db :=
  { Db.fresh with
    comments := {
      rows := [⟨1, 1, "a", "", "", 0, text⟩]
      nodup := List.nodup_singleton _
      seq := 1
      key_pos := by simp
      le_seq := by simp
      seq_nonneg := Int.one_nonneg
      seq_le := one_le_maxId }
    textOptions := .empty }

theorem selectCommentsOf_oneComment (text : String) :
    (oneComment text).selectCommentsOf 1 = [⟨1, 1, "a", "", "", 0, text⟩] := by
  simp [Db.selectCommentsOf, oneComment, orderBy]

/-- The list of comments shows a text that is filtered everywhere as it is. -/
theorem ShownFiltered.unchanged {e : Env} {text : String} (h : ShownFiltered e text) :
    filtered e text = e.lib.markdownToHtml text := by
  have hentry := h.entry (oneComment text) 1 ⟨1, 1, "", "", "", 0, 1, 1⟩ "" {} "" {} 0 _
    (commentEntry e ⟨1, 1, "a", "", "", 0, text⟩) (by rw [selectCommentsOf_oneComment]; rfl) rfl
    (by rw [comments_postTemplate, Db.postContent, selectCommentsOf_oneComment]; rfl)
  exact hentry.symm

/-- What is shown filtered in the list of comments is an output of the filter. -/
theorem ShownFiltered.image {e : Env} {text : String} (h : ShownFiltered e text) :
    commentItem e text ∈ Set.range e.lib.xss := ⟨e.lib.markdownToHtml text, h.unchanged⟩

/-- **A text is shown filtered in all three ways if and only if its Markdown has nothing that the filter would
    change**: the list of comments is the one place where it is not filtered. -/
theorem shownFiltered_iff (e : Env) (text : String) :
    ShownFiltered e text ↔ filtered e text = e.lib.markdownToHtml text := by
  refine ⟨fun h => h.unchanged, fun h => ⟨fun c response => rfl, ?_, fun rows i k x hk htext hx => ?_⟩⟩
  · intro d id p username info text' response i k x hk htext hx
    rw [comments_postTemplate, Db.postContent, List.getElem?_map, hk, Option.map_some] at hx
    obtain rfl := Option.some.inj hx
    rw [h, ← htext]
    rfl
  · rw [List.getElem?_map, hk, Option.map_some] at hx
    obtain rfl := Option.some.inj hx
    rw [← htext]
    exact feedItem_eq e k.content

/-- A script in a comment. -/
theorem not_shownFiltered : ¬ShownFiltered (Site.sample.env (.get "v" "/post/1")) "<script>" :=
  fun h => absurd h.unchanged (by decide)

end CppBlog
