import CppBlog.Reads

set_option autoImplicit false

/-! # What requests do to the tables

The abstract side of the blog's storage: a `Change` is one thing the application can do to its tables
in one commit, with what the application made sure of before it. Every handler, run alone, takes the
tables through a sequence of changes and leaves no transaction open (`Steps`), however its calls to the
database fail; so an invariant of all changes holds in every state the server reaches. -/

namespace CppBlog

open Effect Store App Relation

/-! ## The transactions as functions on the tables -/

namespace Db

/-- Insert options one after the other. -/
def insertOptions : List (String × String) → Db → Except SqlError Db
  | [], d => .ok d
  | (id, value) :: l, d => (d.insertOption id value).bind (insertOptions l)

/-- The options `config::configure` writes. -/
def configure (f : ConfigForm) (d : Db) : Except SqlError Db :=
  ((d.deleteOptions Config.replacedOptions).insertOptions
    [("is_configured", "yes"), ("blog_title", f.title.value), ("blog_description", f.subtitle.value),
     ("contact", f.contact.value)]).bind (insertUser f.username.value f.p1.value)

/-- The options `options::prepare` writes. -/
def storeOptions (f : OptionsForm) (d : Db) : Except SqlError Db :=
  (d.deleteOptions Options.replacedOptions).insertOptions
    [("blog_title", f.title.value), ("blog_description", f.subtitle.value),
     ("contact", f.contact.value), ("copyright", f.copyright.value)]

/-- A post enters the categories that are ticked. -/
def addToCats (id : Int) (now : Tm) (openStatus : Int) : List CatBox → Db → Except SqlError Db
  | [], d => .ok d
  | cb :: l, d =>
      if !cb.value then addToCats id now openStatus l d
      else (d.insertPost2Cat id (Text.atoi cb.identification) now openStatus).bind
        (addToCats id now openStatus l)

/-- A post leaves the categories that are ticked. -/
def delFromCats (id : Int) : List CatBox → Db → Db
  | [], d => d
  | cb :: l, d =>
      if !cb.value then delFromCats id l d
      else delFromCats id l (d.deletePost2Cat id (Text.atoi cb.identification))

/-- The new post of `post::prepare_shared`. -/
def createPost (authorId : Int) (f : PostForm) (now : Tm) (openStatus : Int) (d : Db) :
    Except SqlError Db :=
  (d.insertPost authorId f.title.value f.abstract.value f.content.value now openStatus).bind
    (fun d' => addToCats d'.lastPostId now openStatus f.addToCatList d')

/-- The row of a saved post and the publication time its categories get. -/
def updateRow (id : Int) (f : PostForm) (now : Tm) (openStatus : Int) (d : Db) :
    Except SqlError (Tm × Db) :=
  if f.changeStatus && openStatus ≠ 0 then
    .ok (now, (d.updatePostPublish id f.title.value f.abstract.value f.content.value now
      openStatus).updatePost2CatPublish id now openStatus)
  else
    let d' := d.updatePost id f.title.value f.abstract.value f.content.value openStatus
    match d'.selectPostPublish id with
    | none => .error .failed
    | some publish =>
        .ok (publish, if f.changeStatus then d'.updatePost2CatOpen id openStatus else d')

/-- A saved post with its categories. -/
def savePost (id : Int) (f : PostForm) (now : Tm) (openStatus : Int) (d : Db) : Except SqlError Db :=
  (updateRow id f now openStatus d).bind fun x =>
  (addToCats id x.1 openStatus f.addToCatList x.2).bind fun d' =>
  .ok (delFromCats id f.delFromCatList d')

/-- The form shows the categories of the tables: those the post is in, and the others. -/
structure Offers (d : Db) (id : Int) (f : PostForm) : Prop where
  del : f.delFromCatList.map CatBox.identification = (d.selectCatsOf id).map (fun c => toString c.id)
  add : f.addToCatList.map CatBox.identification =
    (d.selectCats.map (fun c => toString c.id)).filter (AdminPost.notAmong f.delFromCatList)

/-- The form of a new post shows every category. -/
def OffersAll (d : Db) (f : PostForm) : Prop :=
  f.addToCatList.map CatBox.identification = d.selectCats.map (fun c => toString c.id)

end Db

/-- A comment of a visitor or a user: its post is open, and the post's counter is brought up to date. -/
def Commented (d d' : Db) : Prop :=
  ∃ id author mail url now content isOpen m,
    d.selectPostIsOpen id = some isOpen ∧ isOpen ≠ 0 ∧
    d.insertComment id author mail url now content = .ok m ∧ d' = m.updateCommentCount id

/-- One thing the application can do to its tables in one commit. -/
inductive Change : Db → Db → Prop where
  | upgrade {d d' : Db} : Upgraded d d' → Change d d'
  | configure {d d' : Db} (f : ConfigForm) : d.configure f = .ok d' → Change d d'
  | comment {d d' : Db} : Commented d d' → Change d d'
  | eraseComment {d : Db} (id postId : Int) :
      (d.selectComment id).map Comment.postId = some postId →
      Change d ((d.deleteComment id).updateCommentCount postId)
  | editComment {d : Db} (id : Int) (author email url content : String) :
      Change d (d.updateComment id author email url content)
  | storeOptions {d d' : Db} (f : OptionsForm) : d.storeOptions f = .ok d' → Change d d'
  | createPost {d d' : Db} (authorId : Int) (f : PostForm) (now : Tm) :
      d.OffersAll f →
      d.createPost authorId f now (AdminPost.openStatus false f.changeStatus) = .ok d' → Change d d'
  | removePost {d : Db} (id : Int) :
      Change d (((d.deleteCommentsOf id).deletePost2CatOf id).deletePost id)
  | savePost {d d' : Db} (id isOpen : Int) (f : PostForm) (now : Tm) :
      d.selectPostIsOpen id = some isOpen → d.Offers id f →
      d.savePost id f now (AdminPost.openStatus (isOpen ≠ 0) f.changeStatus) = .ok d' → Change d d'
  | createCat {d d' : Db} (name : String) : d.insertCat name = .ok d' → Change d d'
  | renameCat {d : Db} (id : Int) (name : String) : Change d (d.updateCat id name)
  | removeEmptyCat {d : Db} (id : Int) : d.selectPostInCat id = none → Change d (d.deleteCat id)
  | removeCat {d : Db} (id : Int) : Change d ((d.deletePost2CatIn id).deleteCat id)
  | createPage {d d' : Db} (authorId : Int) (title content : String) (isOpen : Int) :
      d.insertPage authorId title content isOpen = .ok d' → Change d d'
  | savePage {d : Db} (id : Int) (title content : String) (isOpen : Int) :
      Change d (d.updatePage id title content isOpen)
  | removePage {d : Db} (id : Int) : Change d (d.deletePage id)
  | createUser {d d' : Db} (username password : String) :
      d.insertUser username password = .ok d' → Change d d'
  | saveUser {d d' : Db} (id : Int) (username password : String) :
      d.updateUser id username password = .ok d' → Change d d'
  | removeUser {d : Db} (id : Int) : Change d (d.deleteUser id)

/-- Outside of a transaction a handler takes the tables through changes and opens none. -/
def Steps (s s' : St) : Prop :=
  s.tx = none → s'.tx = none ∧ ReflTransGen Change s.db s'.db

instance : AllowsIdle Steps where
  refl _ h := ⟨h, .refl⟩
  trans _ _ _ hab hbc ha :=
    have hb := hab ha
    have hc := hbc hb.1
    ⟨hc.1, hb.2.trans hc.2⟩
  of_idle h hs := ⟨h.tx.trans hs, h.db ▸ .refl⟩

/-- A handler that takes the tables through changes. -/
abbrev Stepwise {α : Type} (p : App α) : Prop := p.Within calls Steps

variable {α β : Type}

theorem Reads.steps {s s' : St} (h : Reads s s') : Steps s s' :=
  fun hs => ⟨(h.db hs).1, ReflTransGen.mono (fun _ _ => Change.upgrade) _ _ (h.db hs).2⟩

instance : AllowsReads Steps where
  of_upgrade h := h.steps

/-- A statement outside of any transaction is a change of its own. -/
theorem Stepwise.exec {f : Db → Except SqlError Db} (h : ∀ d d', f d = .ok d' → Change d d') :
    Stepwise (App.exec f) := by
  intro s
  refine wp_exec.2 ⟨fun d hd hs => ?_, fun _ _ => refl s, refl s⟩
  rw [St.current_of_none hs] at hd
  simp only [St.put, hs]
  exact ⟨trivial, .single (h _ _ hd)⟩

theorem Stepwise.execTotal {f : Db → Db} (h : ∀ d, Change d (f d)) : Stepwise (App.execTotal f) :=
  .exec fun d d' hd => by cases hd; exact h d

theorem Stepwise.files (f : Files → β × Files) : Stepwise (App.files f) :=
  fun _ => wp_files.2 fun hs => ⟨hs, .refl⟩

/-! ## Inside a transaction -/

/-- The tables and the files outside of the transaction are as before. -/
def Outside (s s' : St) : Prop := s'.db = s.db ∧ s'.files = s.files

/-- In a transaction whose copy of the tables is `d`, the program returns `a` only with a copy that
    `R d a` allows; outside of the transaction nothing changes. -/
def InTx (R : Db → α → Db → Prop) (p : App α) : Prop :=
  ∀ s d, s.tx = some d → p.wp calls
    (fun a s' => Outside s s' ∧ ∃ d', s'.tx = some d' ∧ R d a d') (fun _ => Outside s) s

namespace InTx

theorem mono {R R' : Db → α → Db → Prop} {p : App α} (hp : InTx R p)
    (h : ∀ d a d', R d a d' → R' d a d') : InTx R' p := by
  intro s d hs
  refine Prog.wp_mono (fun a s' => ?_) (fun _ _ h => h) (hp s d hs)
  rintro ⟨ho, d', hd', hR⟩
  exact ⟨ho, d', hd', h _ _ _ hR⟩

theorem idle {p : App α} (hp : p.Within calls Idle) : InTx (fun d _ d' => d' = d) p := by
  intro s d hs
  refine hp.wp (fun _ s' h => ?_) (fun _ s' h => ⟨h.db, h.files⟩)
  exact ⟨⟨h.db, h.files⟩, d, h.tx.trans hs, rfl⟩

theorem ret (a : α) : InTx (fun d b d' => b = a ∧ d' = d) (.ret a : App α) :=
  fun _ d hs => ⟨⟨rfl, rfl⟩, d, hs, rfl, rfl⟩

theorem query (f : Db → β) : InTx (fun d b d' => b = f d ∧ d' = d) (App.query f) := by
  intro s d hs
  refine wp_query.2 ⟨⟨⟨rfl, rfl⟩, d, hs, ?_, rfl⟩, ⟨rfl, rfl⟩⟩
  simp [St.current, hs]

theorem exec (f : Db → Except SqlError Db) : InTx (fun d _ d' => f d = .ok d') (App.exec f) := by
  intro s d hs
  refine wp_exec.2 ⟨fun d' hd' => ?_, fun _ _ => ⟨rfl, rfl⟩, ⟨rfl, rfl⟩⟩
  have hcur : s.current = d := by simp [St.current, hs]
  simp only [St.put, hs]
  exact ⟨⟨rfl, rfl⟩, d', rfl, hcur ▸ hd'⟩

theorem execTotal (f : Db → Db) : InTx (fun d _ d' => d' = f d) (App.execTotal f) :=
  (exec _).mono fun _ _ _ h => (Except.ok.inj h).symm

theorem bind {R : Db → α → Db → Prop} {S : Db → β → Db → Prop} {p : App α} {k : α → App β}
    (hp : InTx R p) (hk : ∀ a, InTx (fun d b d'' => ∀ d₀, R d₀ a d → S d₀ b d'') (k a)) :
    InTx S (p.bind k) := by
  intro s d hs
  refine Prog.wp_seq (hp s d hs) (fun a s' h => ?_) (fun _ _ h => h)
  obtain ⟨⟨hdb, hfiles⟩, d', hd', hR⟩ := h
  refine Prog.wp_mono (fun b s'' h => ?_) (fun _ s'' h => ?_) (hk a s' d' hd')
  · obtain ⟨⟨hdb', hfiles'⟩, d'', hd'', hS⟩ := h
    exact ⟨⟨hdb'.trans hdb, hfiles'.trans hfiles⟩, d'', hd'', hS d hR⟩
  · exact ⟨h.1.trans hdb, h.2.trans hfiles⟩

end InTx

/-- In a transaction whose copy of the tables is `d`, the program commits only tables that `P`
    allows, and nothing happens to them after that. -/
def Commits (P : Db → Prop) (p : App α) (d : Db) : Prop :=
  ∀ s, s.tx = some d → p.wp calls
    (fun _ s' => (s'.db = s.db ∨ P s'.db) ∧ s'.files = s.files)
    (fun _ s' => (s'.db = s.db ∨ P s'.db) ∧ s'.files = s.files) s

namespace Commits

variable {P : Db → Prop} {d : Db}

/-- One part of the block after the other. -/
theorem seq {R : Db → α → Db → Prop} {p : App α} {k : α → App β} (hp : InTx R p)
    (hk : ∀ a d', R d a d' → Commits P (k a) d') : Commits P (p.bind k) d := by
  intro s hs
  refine Prog.wp_seq (hp s d hs) (fun a s' h => ?_) (fun _ s' h => ⟨Or.inl h.1, h.2⟩)
  obtain ⟨⟨hdb, hfiles⟩, d', hd', hR⟩ := h
  have hrest := hk a d' hR s' hd'
  rw [hdb, hfiles] at hrest
  exact hrest

theorem exec {f : Db → Except SqlError Db} {k : Unit → App β}
    (hk : ∀ d', f d = .ok d' → Commits P (k ()) d') : Commits P ((App.exec f).bind k) d :=
  seq (.exec f) fun _ => hk

theorem execTotal {f : Db → Db} {k : Unit → App β} (hk : Commits P (k ()) (f d)) :
    Commits P ((App.execTotal f).bind k) d := seq (.execTotal f) fun _ _ h => h ▸ hk

theorem query {f : Db → α} {k : α → App β} (hk : Commits P (k (f d)) d) :
    Commits P ((App.query f).bind k) d := seq (.query f) fun _ _ h => h.1 ▸ h.2 ▸ hk

theorem skip {p : App α} {k : α → App β} (hp : p.Within calls Idle) (hk : ∀ a, Commits P (k a) d) :
    Commits P (p.bind k) d := seq (.idle hp) fun a _ h => h ▸ hk a

/-- A block that ends without a commit. -/
theorem stop {p : App α} (hp : p.Within calls Idle) : Commits P p d :=
  fun _ _ => hp.wp (fun _ _ h => ⟨Or.inl h.db, h.files⟩) (fun _ _ h => ⟨Or.inl h.db, h.files⟩)

theorem commit {k : Unit → App β} (hd : P d) (hk : (k ()).Within calls Idle) :
    Commits P (App.commit.bind k) d := by
  intro s hs
  have hcur : s.current = d := by simp [St.current, hs]
  rw [Prog.wp_bind, wp_commit]
  refine ⟨hk.wp (fun _ _ h => ⟨Or.inr ?_, h.files⟩) (fun _ _ h => ⟨Or.inr ?_, h.files⟩),
    ⟨Or.inl rfl, rfl⟩⟩ <;> exact h.db ▸ hcur.symm ▸ hd

theorem commitLast (hd : P d) : Commits P App.commit d := by
  rw [← Prog.bind_ret App.commit]
  exact commit hd (.ret ())

end Commits

/-- What a transaction does to the tables and the files. -/
theorem wp_transaction_of_commits {body : App α} {P : Db → Prop} {s : St}
    (h : Commits P body s.db) :
    (transaction body).wp calls
      (fun _ s' => s'.tx = none ∧ (s'.db = s.db ∨ P s'.db) ∧ s'.files = s.files)
      (fun _ s' => (s'.db = s.db ∨ P s'.db) ∧ s'.files = s.files ∧ (s.tx = none → s'.tx = none)) s :=
  wp_transaction.2 ⟨Prog.wp_mono (fun _ _ h => ⟨rfl, h⟩) (fun _ _ h => ⟨h.1, h.2, fun _ => rfl⟩)
    (h { s with tx := some s.db } rfl), ⟨Or.inl rfl, rfl, fun hs => hs⟩⟩

/-- A transaction that commits nothing but a change of the tables it started from. -/
theorem wp_transaction_steps {body : App α} {s : St} (h : Commits (Change s.db) body s.db) :
    (transaction body).wp calls (fun _ => Steps s) (fun _ => Steps s) s := by
  have hsteps {s' : St} (h : s'.db = s.db ∨ Change s.db s'.db) :
      ReflTransGen Change s.db s'.db := by
    rcases h with h | h
    · exact h ▸ .refl
    · exact .single h
  refine Prog.wp_mono (fun _ s' h _ => ?_) (fun _ s' h hs => ?_) (wp_transaction_of_commits h)
  · exact ⟨h.1, hsteps h.2.1⟩
  · exact ⟨h.2.2 hs, hsteps h.1⟩

theorem Stepwise.transaction {body : App α} (h : ∀ d, Commits (Change d) body d) :
    Stepwise (App.transaction body) := fun s => wp_transaction_steps (h s.db)

/-! ## The transactions of the handlers -/

/-- The transaction of `config::configure` commits a configuration or nothing. -/
theorem wp_configStore (f : ConfigForm) (s : St) :
    (Config.store f).wp calls
      (fun _ s' => s'.tx = none ∧ (s'.db = s.db ∨ s.db.configure f = .ok s'.db) ∧ s'.files = s.files)
      (fun _ s' => (s'.db = s.db ∨ s.db.configure f = .ok s'.db) ∧ s'.files = s.files ∧
        (s.tx = none → s'.tx = none)) s := by
  refine wp_transaction_of_commits (P := fun d' => s.db.configure f = .ok d') ?_
  refine Commits.execTotal <| .exec fun d₁ h₁ => .exec fun d₂ h₂ => .exec fun d₃ h₃ =>
    .exec fun d₄ h₄ => .exec fun d₅ h₅ => .commitLast ?_
  simp only [Db.configure, Db.insertOptions, Except.bind, h₁, h₂, h₃, h₄, h₅]

theorem stepwise_configStore (f : ConfigForm) : Stepwise (Config.store f) := by
  intro s
  have hsteps {s' : St} (h : s'.db = s.db ∨ s.db.configure f = .ok s'.db) :
      ReflTransGen Change s.db s'.db := by
    rcases h with h | h
    · exact h ▸ .refl
    · exact .single (.configure f h)
  refine Prog.wp_mono (fun _ s' h _ => ?_) (fun _ s' h hs => ?_) (wp_configStore f s)
  · exact ⟨h.1, hsteps h.2.1⟩
  · exact ⟨h.2.2 hs, hsteps h.1⟩

theorem stepwise_optionsStore (f : OptionsForm) : Stepwise (Options.store f) := by
  refine .transaction fun d => ?_
  refine Commits.execTotal <| .exec fun d₁ h₁ => .exec fun d₂ h₂ => .exec fun d₃ h₃ =>
    .exec fun d₄ h₄ => .skip (Idle.rise _) fun _ => .commitLast ?_
  refine .storeOptions f ?_
  simp only [Db.storeOptions, Db.insertOptions, Except.bind, h₁, h₂, h₃, h₄]

theorem idle_signature (e : Env) (f : CommentForm) : (Post.signature e f).Within calls Idle :=
  (Idle.getOwn _).bind fun _ => .ite ((Idle.sessionGet _).bind fun _ => .ret _) (.ret _)

/-- The block of `post::postback` commits one comment or nothing. -/
theorem commits_postbackBlock (e : Env) (id : Int) (f : CommentForm) (d : Db) :
    Commits (Commented d)
      ((query (Db.selectPostIsOpen id)).bind fun r =>
        match r with
        | none => (makeErrorResponse 404).bind fun _ => .ret none
        | some isOpen =>
            if isOpen = 0 then (makeErrorResponse 404).bind fun _ => .ret none
            else if f.send then
              (Post.signature e f).bind fun s =>
              (exec (Db.insertComment id s.1 s.2.1 s.2.2 e.chance.now f.content.value)).bind fun _ =>
              (execTotal (Db.updateCommentCount id)).bind fun _ =>
              (rise (postKey id)).bind fun _ =>
              (rise "comments").bind fun _ =>
              commit.bind fun _ =>
              (setRedirectHeader (urlBlogPost e id)).bind fun _ => .ret (some "")
            else .ret (some f.content.value)) d := by
  refine .query ?_
  cases hd : d.selectPostIsOpen id with
  | none => exact .stop ((Idle.makeErrorResponse _).bind fun _ => .ret _)
  | some isOpen =>
      dsimp only
      split_ifs with hopen hsend
      · exact .stop ((Idle.makeErrorResponse _).bind fun _ => .ret _)
      · refine .skip (idle_signature e f) fun s => .exec fun m hm => .execTotal <|
          .skip (Idle.rise _) fun _ => .skip (Idle.rise _) fun _ =>
          .commit ?_ ((Idle.setRedirectHeader _).bind fun _ => .ret _)
        exact ⟨id, s.1, s.2.1, s.2.2, e.chance.now, f.content.value, isOpen, m, hd, hopen, hm, rfl⟩
      · exact .stop (.ret _)

theorem stepwise_postbackBlock (e : Env) (id : Int) (f : CommentForm) :
    Stepwise (Post.postbackBlock e id f) := by
  refine .transaction fun d s hs => ?_
  refine Prog.wp_mono (fun _ _ h => ⟨h.1.imp_right .comment, h.2⟩)
    (fun _ _ h => ⟨h.1.imp_right .comment, h.2⟩) (commits_postbackBlock e id f d s hs)

theorem inTx_addToCats (id : Int) (now : Tm) (openStatus : Int) (boxes : List CatBox) :
    InTx (fun d _ d' => Db.addToCats id now openStatus boxes d = .ok d')
      (AdminPost.addToCats id now openStatus boxes) := by
  induction boxes with
  | nil => exact (InTx.ret ()).mono fun _ _ _ h => by rw [h.2, Db.addToCats]
  | cons cb l ih =>
      by_cases hv : cb.value = true
      · have hone : InTx
            (fun d _ d' => d.insertPost2Cat id (Text.atoi cb.identification) now openStatus = .ok d')
            ((exec (Db.insertPost2Cat id (Text.atoi cb.identification) now openStatus)).bind
              fun _ => rise ("cat_" ++ cb.identification)) := by
          refine (InTx.exec _).bind fun _ => (InTx.idle (Idle.rise _)).mono ?_
          rintro d _ _ rfl d₀ h
          exact h
        simp only [AdminPost.addToCats, Prog.each, hv, Bool.not_true, Bool.false_eq_true, if_false]
        refine hone.bind fun _ => ih.mono fun d _ d' h d₀ h₀ => ?_
        simp only [Db.addToCats, hv, Bool.not_true, Bool.false_eq_true, if_false, Except.bind, h₀]
        exact h
      · simp only [AdminPost.addToCats, Prog.each, hv, Bool.not_false, if_true, Prog.ret_bind,
          Db.addToCats]
        exact ih

theorem inTx_delFromCats (id : Int) (changeStatus : Bool) (boxes : List CatBox) :
    InTx (fun d _ d' => d' = Db.delFromCats id boxes d)
      (AdminPost.delFromCats id changeStatus boxes) := by
  induction boxes with
  | nil => exact (InTx.ret ()).mono fun _ _ _ h => by rw [h.2, Db.delFromCats]
  | cons cb l ih =>
      have hrise : InTx (fun d _ d' => d' = d)
          (if changeStatus then rise ("cat_" ++ cb.identification) else .ret ()) :=
        .idle (.ite (Idle.rise _) (.ret _))
      have hone : InTx (fun d _ d' => Db.delFromCats id l d' = Db.delFromCats id (cb :: l) d)
          ((if changeStatus then rise ("cat_" ++ cb.identification) else .ret ()).bind fun _ =>
            if !cb.value then .ret ()
            else execTotal (Db.deletePost2Cat id (Text.atoi cb.identification))) := by
        refine hrise.bind fun _ => ?_
        by_cases hv : cb.value = true
        · simp only [hv, Bool.not_true, Bool.false_eq_true, if_false, Db.delFromCats]
          exact (InTx.execTotal _).mono fun d _ d' h d₀ h₀ => by rw [h, h₀]
        · simp only [hv, Bool.not_false, if_true, Db.delFromCats]
          exact (InTx.ret ()).mono fun d _ d' h d₀ h₀ => by rw [h.2, h₀]
      exact hone.bind fun _ => ih.mono fun d _ d' h d₀ h₀ => h.trans h₀

theorem inTx_updateRow (e : Env) (id : Int) (f : PostForm) (openStatus : Int) :
    InTx (fun d now d' => Db.updateRow id f e.chance.now openStatus d = .ok (now, d'))
      (AdminPost.updateRow e id f openStatus) := by
  by_cases h : (f.changeStatus && decide (openStatus ≠ 0)) = true
  · rw [AdminPost.updateRow, if_pos h]
    refine (InTx.execTotal _).bind fun _ => (InTx.execTotal _).bind fun _ => (InTx.ret _).mono ?_
    rintro d now _ ⟨rfl, rfl⟩ d₁ rfl d₀ rfl
    rw [Db.updateRow, if_pos h]
  · rw [AdminPost.updateRow, if_neg h]
    refine (InTx.execTotal _).bind fun _ => (InTx.query _).bind fun publish => ?_
    cases publish with
    | none => exact fun _ _ _ => ⟨rfl, rfl⟩
    | some publish =>
        have hopen : InTx
            (fun d _ d' => d' = if f.changeStatus then d.updatePost2CatOpen id openStatus else d)
            (if f.changeStatus then execTotal (Db.updatePost2CatOpen id openStatus) else .ret ()) := by
          cases f.changeStatus
          · exact (InTx.ret ()).mono fun _ _ _ h => h.2
          · exact InTx.execTotal _
        refine hopen.bind fun _ => (InTx.ret _).mono ?_
        rintro d now _ ⟨rfl, rfl⟩ d₂ rfl d₁ ⟨hp, rfl⟩ d₀ rfl
        rw [Db.updateRow, if_neg h]
        simp only [← hp]

theorem wp_createBlock (e : Env) (f : PostForm) {s : St} (hf : s.db.OffersAll f) :
    (AdminPost.createBlock e f (AdminPost.openStatus false f.changeStatus)).wp calls
      (fun _ => Steps s) (fun _ => Steps s) s := by
  refine wp_transaction_steps <| .skip (Idle.sessionGetInt _) fun authorId => .exec fun d₁ h₁ =>
    .query <| .seq (inTx_addToCats _ _ _ _) fun _ d₂ h₂ =>
    .skip (.ite (Idle.rise _) (.ret _)) fun _ => .commit ?_ (.ret _)
  refine .createPost authorId f e.chance.now hf ?_
  simp only [Db.createPost, Except.bind, h₁, h₂]

theorem stepwise_removeBlock (id : Int) : Stepwise (AdminPost.removeBlock id) :=
  .transaction fun _ => .execTotal <| .execTotal <| .execTotal <| .skip (Idle.rise _) fun _ =>
    .skip (Idle.rise _) fun _ => .commitLast (.removePost id)

theorem wp_saveBlock (e : Env) (id isOpen : Int) (f : PostForm) {s : St}
    (hopen : s.db.selectPostIsOpen id = some isOpen) (hf : s.db.Offers id f) :
    (AdminPost.saveBlock e id f (AdminPost.openStatus (isOpen ≠ 0) f.changeStatus)).wp calls
      (fun _ => Steps s) (fun _ => Steps s) s := by
  refine wp_transaction_steps <| .seq (inTx_updateRow _ _ _ _) fun now d₁ h₁ =>
    .skip (.ite (Idle.rise _) (.ret _)) fun _ => .skip (Idle.rise _) fun _ =>
    .seq (inTx_addToCats _ _ _ _) fun _ d₂ h₂ =>
    .seq (inTx_delFromCats _ _ _) fun _ d₃ h₃ => .commitLast ?_
  refine .savePost id isOpen f e.chance.now hopen hf ?_
  simp only [Db.savePost, Except.bind, h₁, h₂, h₃]

theorem stepwise_commentSaveBlock (id : Int) (f : AdminCommentForm) :
    Stepwise (AdminComment.saveBlock id f) := by
  refine .transaction fun d => .query ?_
  cases hc : (d.selectComment id).map Comment.postId with
  | none => exact .stop ((Idle.makeErrorResponse _).bind fun _ => .ret _)
  | some postId =>
      cases he : f.erase
      · exact .seq (.execTotal _) fun _ _ h => .skip (Idle.rise _) fun _ =>
          .skip (Idle.rise _) fun _ => .commit (h ▸ .editComment id _ _ _ _) (.ret _)
      · have herase : InTx (fun d _ d' => d' = (d.deleteComment id).updateCommentCount postId)
            ((execTotal (Db.deleteComment id)).bind fun _ =>
              execTotal (Db.updateCommentCount postId)) :=
          (InTx.execTotal _).bind fun _ => (InTx.execTotal _).mono fun d _ d' h d₀ h₀ => by
            rw [h, h₀]
        exact .seq herase fun _ _ h => .skip (Idle.rise _) fun _ =>
          .skip (Idle.rise _) fun _ => .commit (h ▸ .eraseComment id postId hc) (.ret _)

theorem stepwise_createCat (f : CatsForm) : Stepwise (Categories.create f) :=
  .transaction fun _ => .exec fun _ h => .commit (.createCat _ h) (Idle.rise _)

theorem idle_riseCat (id : Int) : (Categories.riseCat id).Within calls Idle :=
  (Idle.rise _).bind fun _ => Idle.rise _

theorem stepwise_removeCat (id : Int) (f : CatsForm) : Stepwise (Categories.remove id f) := by
  refine .transaction fun d => .query ?_
  cases hp : d.selectPostInCat id with
  | none =>
      exact .execTotal <| .commit (.removeEmptyCat id hp) ((idle_riseCat id).bind fun _ => .ret _)
  | some postId =>
      cases f.cascade
      · exact .stop (.ret _)
      · exact .execTotal <| .execTotal <|
          .commit (.removeCat id) ((idle_riseCat id).bind fun _ => .ret _)

theorem stepwise_renameCat (id : Int) (f : CatsForm) : Stepwise (Categories.rename id f) :=
  .transaction fun _ => .execTotal <| .commit (.renameCat id _) (idle_riseCat id)

theorem stepwise_tryStore (e : Env) {statement : Db → Except SqlError Db}
    (h : ∀ d d', statement d = .ok d' → Change d d') : Stepwise (Users.tryStore e statement) := by
  refine Prog.Within.tryCatch ?_ fun err => ?_
  · refine (Stepwise.transaction fun d => .exec fun d' hd => .commitLast (h d d' hd)).bind fun _ => ?_
    exact (Idle.setRedirectHeader _).bind fun _ => .ret _
  · split
    · exact .ret _
    · exact .throw _

end CppBlog
