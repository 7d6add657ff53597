import CppBlog.Changes

set_option autoImplicit false

/-! # What a statement leaves alone

Each statement or part of a transaction writes one or two tables. What it does to the others is one
equation: the database after it is the one before it with those tables replaced. -/

namespace CppBlog

open Store

namespace Db

theorem orRefuse_eq_ok {err : SqlError} {o : Option Db} {d : Db} :
    orRefuse err o = .ok d ↔ o = some d := by
  cases o <;> simp [orRefuse]

theorem insertOption_frame {id value : String} {d d' : Db} (h : d.insertOption id value = .ok d') :
    d' = { d with textOptions := d'.textOptions } := by
  obtain ⟨t, -, rfl⟩ := Option.map_eq_some_iff.1 (orRefuse_eq_ok.1 h)
  rfl

theorem insertOptions_frame {l : List (String × String)} {d d' : Db}
    (h : d.insertOptions l = .ok d') : d' = { d with textOptions := d'.textOptions } := by
  induction l generalizing d with
  | nil => cases h; rfl
  | cons x l ih =>
      obtain ⟨id, value⟩ := x
      simp only [insertOptions] at h
      cases hx : d.insertOption id value with
      | error err => simp [hx, Except.bind] at h
      | ok m =>
          simp only [hx, Except.bind] at h
          rw [ih h, insertOption_frame hx]

theorem insertUser_frame {username password : String} {d d' : Db}
    (h : d.insertUser username password = .ok d') : d' = { d with users := d'.users } := by
  unfold insertUser at h
  split at h
  · cases h
  · obtain ⟨t, -, rfl⟩ := Option.map_eq_some_iff.1 (orRefuse_eq_ok.1 h)
    rfl

theorem configure_frame {f : ConfigForm} {d d' : Db} (h : d.configure f = .ok d') :
    d' = { d with textOptions := d'.textOptions, users := d'.users } := by
  unfold configure at h
  cases hm : (d.deleteOptions Config.replacedOptions).insertOptions
      [("is_configured", "yes"), ("blog_title", f.title.value), ("blog_description", f.subtitle.value),
       ("contact", f.contact.value)] with
  | error err => simp [hm, Except.bind] at h
  | ok m =>
      simp only [hm, Except.bind] at h
      rw [insertUser_frame h, insertOptions_frame hm]
      rfl

theorem storeOptions_frame {f : OptionsForm} {d d' : Db} (h : d.storeOptions f = .ok d') :
    d' = { d with textOptions := d'.textOptions } := by
  rw [insertOptions_frame h]
  rfl

theorem addToCats_frame {id : Int} {now : Tm} {openStatus : Int} {boxes : List CatBox} {d d' : Db}
    (h : addToCats id now openStatus boxes d = .ok d') : d' = { d with post2cat := d'.post2cat } := by
  induction boxes generalizing d with
  | nil => cases h; rfl
  | cons cb l ih =>
      simp only [addToCats] at h
      split at h
      · exact ih h
      · cases hx : d.insertPost2Cat id (Text.atoi cb.identification) now openStatus with
        | error err => simp [hx, Except.bind] at h
        | ok m =>
            simp only [hx, Except.bind] at h
            obtain ⟨t, -, rfl⟩ := Option.map_eq_some_iff.1 (orRefuse_eq_ok.1 hx)
            rw [ih h]

theorem delFromCats_frame (id : Int) (boxes : List CatBox) (d : Db) :
    delFromCats id boxes d = { d with post2cat := (delFromCats id boxes d).post2cat } := by
  induction boxes generalizing d with
  | nil => rfl
  | cons cb l ih =>
      simp only [delFromCats]
      split
      · exact ih d
      · rw [ih]
        rfl

theorem upgraded_frame {d d' : Db} (h : Upgraded d d') :
    d' = { d with textOptions := d'.textOptions, post2cat := d'.post2cat } := by
  obtain ⟨-, m, hm, rfl⟩ := h
  unfold updatePost2CatFromPosts at hm
  split at hm
  · cases hm; rfl
  · cases hm

/-- A new comment stands at the end of its table, under a fresh number. -/
theorem insertComment_eq_ok {postId : Int} {author email url : String} {now : Tm} {content : String}
    {d d' : Db} (h : d.insertComment postId author email url now content = .ok d') :
    d' = { d with comments := d'.comments } ∧
      d'.comments.rows =
        d.comments.rows ++ [⟨d.comments.seq + 1, postId, author, email, url, now, content⟩] := by
  obtain ⟨t, ht, rfl⟩ := Option.map_eq_some_iff.1 (orRefuse_eq_ok.1 h)
  exact ⟨rfl, (AutoTable.insert?_eq_some ht).2.1⟩

/-- A new post stands at the end of its table, under a fresh number and without comments. -/
theorem insertPost_eq_ok {authorId : Int} {title abstract content : String} {now : Tm} {isOpen : Int}
    {d d' : Db} (h : d.insertPost authorId title abstract content now isOpen = .ok d') :
    d' = { d with posts := d'.posts } ∧ d'.lastPostId = d.posts.seq + 1 ∧
      d'.posts.rows = d.posts.rows ++
        [⟨d.posts.seq + 1, authorId, title, abstract, content, now, 0, isOpen⟩] := by
  obtain ⟨t, ht, rfl⟩ := Option.map_eq_some_iff.1 (orRefuse_eq_ok.1 h)
  obtain ⟨-, hrows, hseq⟩ := AutoTable.insert?_eq_some ht
  exact ⟨rfl, hseq, hrows⟩

theorem createPost_frame {authorId : Int} {f : PostForm} {now : Tm} {openStatus : Int} {d d' : Db}
    (h : d.createPost authorId f now openStatus = .ok d') :
    d' = { d with posts := d'.posts, post2cat := d'.post2cat } := by
  unfold createPost at h
  cases hm : d.insertPost authorId f.title.value f.abstract.value f.content.value now openStatus with
  | error err => simp [hm, Except.bind] at h
  | ok m =>
      simp only [hm, Except.bind] at h
      rw [addToCats_frame h, (insertPost_eq_ok hm).1]

theorem updateRow_frame {id : Int} {f : PostForm} {now publish : Tm} {openStatus : Int} {d m : Db}
    (h : updateRow id f now openStatus d = .ok (publish, m)) :
    m = { d with posts := m.posts, post2cat := m.post2cat } := by
  unfold updateRow at h
  split at h
  · cases h; rfl
  · dsimp only at h
    split at h
    · cases h
    · cases h
      split <;> rfl

theorem savePost_frame {id : Int} {f : PostForm} {now : Tm} {openStatus : Int} {d d' : Db}
    (h : d.savePost id f now openStatus = .ok d') :
    d' = { d with posts := d'.posts, post2cat := d'.post2cat } := by
  unfold savePost at h
  cases hrow : d.updateRow id f now openStatus with
  | error err => simp [hrow, Except.bind] at h
  | ok x =>
      simp only [hrow, Except.bind] at h
      cases hadd : addToCats id x.1 openStatus f.addToCatList x.2 with
      | error err => simp [hadd] at h
      | ok m =>
          simp only [hadd, Except.ok.injEq] at h
          rw [← h, delFromCats_frame, addToCats_frame hadd, updateRow_frame hrow]

theorem insertCat_eq_ok {name : String} {d d' : Db} (h : d.insertCat name = .ok d') :
    d' = { d with cats := d'.cats } ∧ d'.cats.rows = d.cats.rows ++ [⟨d.cats.seq + 1, name⟩] := by
  obtain ⟨t, ht, rfl⟩ := Option.map_eq_some_iff.1 (orRefuse_eq_ok.1 h)
  exact ⟨rfl, (AutoTable.insert?_eq_some ht).2.1⟩

theorem insertPage_frame {authorId : Int} {title content : String} {isOpen : Int} {d d' : Db}
    (h : d.insertPage authorId title content isOpen = .ok d') : d' = { d with pages := d'.pages } := by
  obtain ⟨t, -, rfl⟩ := Option.map_eq_some_iff.1 (orRefuse_eq_ok.1 h)
  rfl

theorem updateUser_frame {id : Int} {username password : String} {d d' : Db}
    (h : d.updateUser id username password = .ok d') : d' = { d with users := d'.users } := by
  unfold updateUser at h
  split at h
  · cases h
  · cases h; rfl

theorem selectPostIsOpen_eq_some {id isOpen : Int} {d : Db} (h : d.selectPostIsOpen id = some isOpen) :
    ∃ p ∈ d.posts.rows, p.id = id ∧ p.isOpen = isOpen := by
  obtain ⟨p, hp, rfl⟩ := Option.map_eq_some_iff.1 h
  obtain ⟨hmem, hid⟩ := (Table.find?_eq_some _ _ _).1 hp
  exact ⟨p, hmem, hid, rfl⟩

end Db

end CppBlog
