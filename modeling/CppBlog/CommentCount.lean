import CppBlog.Frames
import CppBlog.Requests

set_option autoImplicit false

/-! # The counters of comments

`posts.comment_count` repeats what the table of comments says. Every change keeps the two in step, so
they agree in every state the server reaches, whatever its requests were and however they ended. -/

namespace CppBlog

open Effect Store App Relation

/-- The comments of a post. -/
def Db.commentsOf (d : Db) (id : Int) : List Comment := d.comments.rows.filter (fun c => c.postId = id)

/-- Every post counts its comments, and every comment has its post. -/
structure Counted (d : Db) : Prop where
  count : ∀ p ∈ d.posts.rows, p.commentCount = count (d.commentsOf p.id)
  post : ∀ c ∈ d.comments.rows, ∃ p ∈ d.posts.rows, p.id = c.postId

theorem counted_fresh : Counted Db.fresh where
  count _ h := absurd h List.not_mem_nil
  post _ h := absurd h List.not_mem_nil

/-- Posts and comments are as before. -/
theorem Counted.congr {d d' : Db} (h : Counted d) (hp : d'.posts = d.posts)
    (hc : d'.comments = d.comments) : Counted d' where
  count p hpm := by
    rw [hp] at hpm
    simpa only [Db.commentsOf, hc] using h.count p hpm
  post c hcm := by
    rw [hc] at hcm
    simpa only [hp] using h.post c hcm

/-- Rewriting posts in other columns than their number and their count. -/
theorem Counted.updatePosts {d d' : Db} (h : Counted d) {q : Post → Bool} {f : Post → Post}
    {hf : ∀ r, (f r).id = r.id} (hp : d'.posts = d.posts.update q f hf)
    (hc : d'.comments = d.comments) (hcount : ∀ r, (f r).commentCount = r.commentCount) :
    Counted d' where
  count p hpm := by
    rw [hp] at hpm
    obtain ⟨p', hp', rfl⟩ := AutoTable.mem_update_rows.1 hpm
    have hold := h.count p' hp'
    rw [Db.commentsOf, hc]
    split
    · rw [hcount, hf]
      exact hold
    · exact hold
  post c hcm := by
    rw [hc] at hcm
    obtain ⟨p, hpm, hid⟩ := h.post c hcm
    rw [← hid, hp]
    exact AutoTable.exists_mem_update _ hpm

/-- Bringing the count of one post up to date is enough when the others are right. -/
theorem counted_updateCommentCount {d : Db} {id : Int}
    (hother : ∀ p ∈ d.posts.rows, p.id ≠ id → p.commentCount = count (d.commentsOf p.id))
    (hpost : ∀ c ∈ d.comments.rows, ∃ p ∈ d.posts.rows, p.id = c.postId) :
    Counted (d.updateCommentCount id) where
  count p hp := by
    obtain ⟨p', hp', rfl⟩ := AutoTable.mem_update_rows.1 hp
    by_cases hid : p'.id = id
    · simp only [hid, decide_true, if_true]
      rfl
    · simp only [hid, decide_false, Bool.false_eq_true, if_false]
      exact hother p' hp' hid
  post c hc := by
    obtain ⟨p, hp, hid⟩ := hpost c hc
    rw [← hid]
    exact AutoTable.exists_mem_update _ hp

theorem Counted.commented {d d' : Db} (h : Counted d) (hc : Commented d d') : Counted d' := by
  obtain ⟨id, author, mail, url, now, content, isOpen, m, hopen, -, hm, rfl⟩ := hc
  obtain ⟨hframe, hrows⟩ := Db.insertComment_eq_ok hm
  have hposts : m.posts = d.posts := by rw [hframe]
  refine counted_updateCommentCount (fun p hp hid => ?_) (fun c hcm => ?_)
  · -- the comments of another post are as before
    rw [hposts] at hp
    have hsame : m.commentsOf p.id = d.commentsOf p.id := by
      simp [Db.commentsOf, hrows, List.filter_append, Ne.symm hid]
    rw [hsame]
    exact h.count p hp
  · rw [hposts]
    rw [hrows] at hcm
    rcases List.mem_append.1 hcm with hcm | hcm
    · exact h.post c hcm
    · obtain ⟨p, hp, hid, -⟩ := Db.selectPostIsOpen_eq_some hopen
      rw [List.mem_singleton.1 hcm]
      exact ⟨p, hp, hid⟩

theorem Counted.eraseComment {d : Db} (h : Counted d) {id postId : Int}
    (hc : (d.selectComment id).map Comment.postId = some postId) :
    Counted ((d.deleteComment id).updateCommentCount postId) := by
  obtain ⟨c₀, hc₀, hpost⟩ := Option.map_eq_some_iff.1 hc
  obtain ⟨hmem₀, hid₀⟩ := (Table.find?_eq_some _ _ _).1 hc₀
  refine counted_updateCommentCount (fun p hp hid => ?_) (fun c hcm => ?_)
  · -- the erased comment is not one of another post
    have hsame : (d.deleteComment id).commentsOf p.id = d.commentsOf p.id := by
      simp only [Db.commentsOf, Db.deleteComment, AutoTable.delete_rows, List.filter_filter]
      refine List.filter_congr fun c hcm => ?_
      by_cases hcid : c.id = id
      · have hcc : c = c₀ := List.inj_on_of_nodup_map d.comments.nodup hcm hmem₀ (hcid.trans hid₀.symm)
        have hne : c.postId ≠ p.id := by rw [hcc, hpost]; exact Ne.symm hid
        simp [hne]
      · simp [hcid]
    rw [hsame]
    exact h.count p hp
  · exact h.post c (AutoTable.mem_delete_rows.1 hcm).1

theorem Counted.editComment {d : Db} (h : Counted d) (id : Int) (author email url content : String) :
    Counted (d.updateComment id author email url content) where
  count p hp := by
    have hsame : ((d.updateComment id author email url content).commentsOf p.id).length =
        (d.commentsOf p.id).length := by
      simp only [Db.commentsOf, Db.updateComment, AutoTable.update_rows, List.filter_map,
        List.length_map]
      congr 1
      refine List.filter_congr fun c _ => ?_
      by_cases hc : c.id = id <;> simp [hc]
    have hold := h.count p hp
    simp only [CppBlog.count, hsame] at hold ⊢
    exact hold
  post c hc := by
    obtain ⟨c', hc', rfl⟩ := AutoTable.mem_update_rows.1 hc
    have hold := h.post c' hc'
    split <;> exact hold

theorem Counted.createPost {d d' : Db} (h : Counted d) {authorId : Int} {f : PostForm} {now : Tm}
    {openStatus : Int} (hd : d.createPost authorId f now openStatus = .ok d') : Counted d' := by
  unfold Db.createPost at hd
  cases hm : d.insertPost authorId f.title.value f.abstract.value f.content.value now openStatus with
  | error err => simp [hm, Except.bind] at hd
  | ok m =>
      simp only [hm, Except.bind] at hd
      obtain ⟨hframe, -, hrows⟩ := Db.insertPost_eq_ok hm
      have hcomments : m.comments = d.comments := by rw [hframe]
      have hm : Counted m := by
        refine ⟨fun p hp => ?_, fun c hc => ?_⟩
        · rw [hrows] at hp
          rcases List.mem_append.1 hp with hp | hp
          · simpa only [Db.commentsOf, hcomments] using h.count p hp
          · -- no comment refers to a number that has not been handed out
            rw [List.mem_singleton.1 hp]
            have hnone : m.commentsOf (d.posts.seq + 1) = [] := by
              refine List.filter_eq_nil_iff.2 fun c hc => ?_
              rw [hcomments] at hc
              obtain ⟨p', hp', hid⟩ := h.post c hc
              have := d.posts.le_seq p' hp'
              simp only [decide_eq_true_eq]
              omega
            simp [hnone, CppBlog.count]
        · rw [hcomments] at hc
          obtain ⟨p, hp, hid⟩ := h.post c hc
          exact ⟨p, hrows ▸ List.mem_append_left _ hp, hid⟩
      have hcats := Db.addToCats_frame hd
      exact hm.congr (by rw [hcats]) (by rw [hcats])

theorem Counted.removePost {d : Db} (h : Counted d) (id : Int) :
    Counted (((d.deleteCommentsOf id).deletePost2CatOf id).deletePost id) where
  count p hp := by
    obtain ⟨hp, hid⟩ := AutoTable.mem_delete_rows.1 hp
    simp only [decide_eq_false_iff_not] at hid
    have hsame : ((((d.deleteCommentsOf id).deletePost2CatOf id).deletePost id).commentsOf p.id) =
        d.commentsOf p.id := by
      simp only [Db.commentsOf, Db.deleteCommentsOf, Db.deletePost2CatOf, Db.deletePost,
        AutoTable.delete_rows, List.filter_filter]
      refine List.filter_congr fun c _ => ?_
      by_cases hc : c.postId = p.id <;> simp [hc, hid]
    rw [hsame]
    exact h.count p hp
  post c hc := by
    obtain ⟨hc, hid⟩ := AutoTable.mem_delete_rows.1 hc
    simp only [decide_eq_false_iff_not] at hid
    obtain ⟨p, hp, hpc⟩ := h.post c hc
    exact ⟨p, AutoTable.mem_delete_rows.2 ⟨hp, by simp [hpc, hid]⟩, hpc⟩

theorem Counted.savePost {d d' : Db} (h : Counted d) {id : Int} {f : PostForm} {now : Tm}
    {openStatus : Int} (hd : d.savePost id f now openStatus = .ok d') : Counted d' := by
  unfold Db.savePost at hd
  cases hrow : d.updateRow id f now openStatus with
  | error err => simp [hrow, Except.bind] at hd
  | ok x =>
      simp only [hrow, Except.bind] at hd
      cases hadd : Db.addToCats id x.1 openStatus f.addToCatList x.2 with
      | error err => simp [hadd] at hd
      | ok m =>
          simp only [hadd, Except.ok.injEq] at hd
          have hx : Counted x.2 := by
            unfold Db.updateRow at hrow
            split at hrow
            · cases hrow
              exact h.updatePosts rfl rfl fun _ => rfl
            · dsimp only at hrow
              split at hrow
              · cases hrow
              · cases hrow
                dsimp only
                split <;> exact h.updatePosts rfl rfl fun _ => rfl
          have hframe := Db.addToCats_frame hadd
          rw [← hd, Db.delFromCats_frame]
          exact hx.congr (by rw [hframe]) (by rw [hframe])

/-- What one change preserves. -/
theorem Counted.change {d d' : Db} (h : Counted d) (hc : Change d d') : Counted d' := by
  cases hc with
  | upgrade hu => exact h.congr (by rw [Db.upgraded_frame hu]) (by rw [Db.upgraded_frame hu])
  | configure f hf => exact h.congr (by rw [Db.configure_frame hf]) (by rw [Db.configure_frame hf])
  | comment hc => exact h.commented hc
  | eraseComment id postId hc => exact h.eraseComment hc
  | editComment id author email url content => exact h.editComment id author email url content
  | storeOptions f hf =>
      exact h.congr (by rw [Db.storeOptions_frame hf]) (by rw [Db.storeOptions_frame hf])
  | createPost authorId f now _ hf => exact h.createPost hf
  | removePost id => exact h.removePost id
  | savePost id isOpen f now _ _ hf => exact h.savePost hf
  | createCat name hn => exact h.congr (by rw [(Db.insertCat_eq_ok hn).1]) (by rw [(Db.insertCat_eq_ok hn).1])
  | renameCat id name => exact h.congr rfl rfl
  | removeEmptyCat id hp => exact h.congr rfl rfl
  | removeCat id => exact h.congr rfl rfl
  | createPage authorId title content isOpen hp =>
      exact h.congr (by rw [Db.insertPage_frame hp]) (by rw [Db.insertPage_frame hp])
  | savePage id title content isOpen => exact h.congr rfl rfl
  | removePage id => exact h.congr rfl rfl
  | createUser username password hu =>
      exact h.congr (by rw [Db.insertUser_frame hu]) (by rw [Db.insertUser_frame hu])
  | saveUser id username password hu =>
      exact h.congr (by rw [Db.updateUser_frame hu]) (by rw [Db.updateUser_frame hu])
  | removeUser id => exact h.congr rfl rfl

/-- **In every run each post's counter is the number of its comments, and no comment is without its
    post.** -/
theorem run_counted (site : Site) (files : Files) (events : List Event) :
    Counted (run site events (World.fresh files)).shared.db :=
  run_change (fun _ _ hd hc => Counted.change hd hc) counted_fresh events

end CppBlog
