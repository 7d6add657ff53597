import CppBlog.Configuration

set_option autoImplicit false

/-! # What requests do to sessions

A handler changes the session of its request by a few statements only, whatever the form says and
however its calls to the database fail: the language of the visitor, the captcha, the mark of a visitor,
the loss of everything, and, on the login page alone, the marks of a user. The two marks of a user come
and go together, so the handlers behind the gate never miss the id they read. -/

namespace CppBlog

open Effect Store App

/-! ## Invariants of a session -/

/-- `user` and `id` are there together, and the id can be read. -/
def Paired (session : Session) : Prop :=
  (session.find "user" = none ∧ session.find "id" = none) ∨
    ∃ username id, session.find "user" = some username ∧ session.find "id" = some (toString id) ∧
      Text.readInt? (toString id) = some id

/-- An invariant under which no key of a session is missed. -/
class Lawful (J : Session → Prop) : Prop where
  language : ∀ session, J session → Executed.Readable session
  paired : ∀ session, J session → Paired session

/-- An invariant that the choice of a language keeps. -/
class Guest (J : Session → Prop) : Prop extends Lawful J where
  setLanguage : ∀ session e, J session → J (session.set "nlang" (toString (nlang e)))

/-- An invariant of sessions with a user. -/
class Member (J : Session → Prop) : Prop extends Lawful J where
  user : ∀ session, J session → session.isSet "user" = true

/-- The handler keeps an invariant of the session of its request and misses no key of it. -/
abbrev KeepsSession {α : Type} (J : Session → Prop) (p : App α) : Prop :=
  p.Maintains calls (fun s => J s.own.session) (· ≠ .sessionKey)

/-- Choosing the language of a readable session raises nothing. -/
theorem selectLanguage_raisesNothing {e : Env} {s : St} (hlang : Executed.Readable s.own.session) :
    (selectLanguage e).wp calls (fun _ _ => True) (fun _ _ => False) s := by
  simp only [selectLanguage, modifyResponse, Prog.wp_bind, wp_modifyOwn, wp_sessionIsSet]
  have hend (same : Bool) (s' : St) : (if same then (.ret () : App Unit)
      else (sessionSet "nlang" (toString (nlang e))).bind fun _ => clearCache).wp calls
        (fun _ _ => True) (fun _ _ => False) s' := by
    split
    · trivial
    · rw [Prog.wp_bind, wp_sessionSet, clearCache, wp_cache]
      trivial
  split
  · rename_i hset
    rw [Prog.wp_bind, wp_sessionGetInt]
    obtain ⟨v, hv⟩ := Option.isSome_iff_exists.1 hset
    have hv : s.own.session.find "nlang" = some v := hv
    obtain ⟨n, hn⟩ := Option.isSome_iff_exists.1 (hlang v hv)
    have hread : ((s.setOwn { s.own with
        response := { s.own.response with locale := nlang e } }).own.session.find "nlang").bind
        Text.readInt? = some n := (congrArg (Option.bind · Text.readInt?) hv).trans hn
    rw [hread]
    exact hend _ _
  · exact hend _ _

namespace KeepsSession

variable {α β : Type} {J : Session → Prop}

/-! ## Operations -/

/-- Data of the request outside of the session. -/
theorem own {f : Own → β × Own} (h : ∀ o, (f o).2.session = o.session) :
    KeepsSession J (Prog.perform (.own f) : App β) := fun s hs => wp_own.2 (by
  show J (f s.own).2.session
  rw [h]
  exact hs)

theorem getOwn (f : Own → β) : KeepsSession J (App.getOwn f) := own fun _ => rfl

theorem response (f : Response → Response) : KeepsSession J (modifyResponse f) := own fun _ => rfl

theorem query (f : Db → β) : KeepsSession J (App.query f) :=
  fun _ hs => wp_query.2 ⟨hs, by simp, hs⟩

theorem exec (f : Db → Except SqlError Db) : KeepsSession J (App.exec f) := fun s hs =>
  wp_exec.2 ⟨fun d _ => by rwa [St.put_own], fun _ _ => ⟨by simp, hs⟩, by simp, hs⟩

theorem execTotal (f : Db → Db) : KeepsSession J (App.execTotal f) := exec _

theorem commit : KeepsSession J App.commit := fun _ hs => wp_commit.2 ⟨hs, by simp, hs⟩

theorem transaction {body : App α} (h : KeepsSession J body) : KeepsSession J (App.transaction body) := by
  intro s hs
  rw [wp_transaction]
  exact ⟨Prog.wp_mono (fun _ _ h => h) (fun _ _ h => h) (h { s with tx := some s.db } hs), by simp, hs⟩

theorem cache (f : Cache → β × Cache) : KeepsSession J (App.cache f) := fun _ hs => wp_cache.2 hs

theorem rise (t : String) : KeepsSession J (App.rise t) := cache _

theorem onFiles {p : App α} (hp : OnFiles p) : KeepsSession J p :=
  hp.maintains (fun _ _ hs => hs) fun err herr h => by subst h; exact herr

theorem addTriggers (ts : List String) : KeepsSession J (App.addTriggers ts) := own fun _ => rfl

theorem sessionSet {key value : String} (h : ∀ session, J session → J (session.set key value)) :
    KeepsSession J (App.sessionSet key value) := fun _ hs => wp_sessionSet.2 (h _ hs)

theorem sessionClear (h : J []) : KeepsSession J App.sessionClear := fun _ _ => wp_sessionClear.2 h

/-- A key that is there whenever it is read. -/
theorem sessionGetInt {key : String}
    (h : ∀ session, J session → ∃ i, (session.find key).bind Text.readInt? = some i) :
    KeepsSession J (App.sessionGetInt key) := by
  intro s hs
  obtain ⟨i, hi⟩ := h _ hs
  rw [wp_sessionGetInt, hi]
  exact hs

theorem loadForm {φ : Type} (e : Env) (load : List (String × String) → φ) :
    KeepsSession J (App.loadForm e load) := by
  refine Prog.Maintains.bind ?_ fun _ => .ret _
  refine (own fun _ => rfl).bind fun isForged => ?_
  exact .ite (.throw (by simp)) (.ret _)

theorem fetch (key : String) : KeepsSession J (App.fetch key) := by
  refine (cache _).bind fun r => ?_
  cases r
  · exact .ret _
  · exact (addTriggers _).bind fun _ => .ret _

theorem store (key : String) (value : Cached) (triggers : List String) :
    KeepsSession J (App.store key value triggers) := (addTriggers _).bind fun _ => cache _

theorem record {body : App α} (h : KeepsSession J body) :
    KeepsSession J (App.record body) :=
  (own fun _ => rfl).bind fun _ => h.bind fun _ => (own fun _ => rfl).bind fun _ => .ret _

theorem storePage (e : Env) (key : String) : KeepsSession J (App.storePage e key) :=
  (addTriggers _).bind fun _ => (getOwn _).bind fun _ => cache _

/-- A page that is looked up in the page cache first. -/
theorem fetchPage (e : Env) (key : String) {p : App Unit} (hp : KeepsSession J p) :
    KeepsSession J ((App.fetchPage e key).bind fun hit => if hit then .ret () else p) := by
  refine Prog.Maintains.bind ((cache _).bind fun r => ?_) fun hit => .ite (.ret _) hp
  cases r with
  | none => exact .ret _
  | some x =>
    dsimp only
    split
    · exact (response _).bind fun _ => .ret _
    · exact .throw (by simp)

/-! ## What the handlers share -/

theorem basicPrepare : KeepsSession J CppBlog.basicPrepare := by
  have hloop (ver rounds : Nat) : KeepsSession J (upgradeLoop ver rounds) := by
    induction rounds generalizing ver with
    | zero => exact .ret _
    | succ rounds ih =>
      unfold upgradeLoop
      split
      · exact .throw (by simp)
      · rename_i call hcall
        refine Prog.Maintains.bind ?_ fun ok => .ite (ih _) (.ret _)
        have hmem : call = dummyUpgrade ∨ call = upgrade23 := by
          simpa [callbacks] using List.mem_of_getElem? hcall
        rcases hmem with rfl | rfl
        · exact .throw (by simp)
        · exact (exec _).bind fun _ => (execTotal _).bind fun _ => .ret _
  have hupgrade (v : String) : KeepsSession J (upgrade v) :=
    .ite (.ret _) <| .ite (.ret _) <| transaction <| (hloop _ _).bind fun ok =>
      .ite (commit.bind fun _ => .ret _) (.ret _)
  have hversion (v : String) : KeepsSession J (checkVersion v) :=
    .ite (.ret _) <| (hupgrade v).bind fun _ => .ite (.ret _) (.throw (by simp))
  refine (fetch "options").bind fun r => ?_
  split
  · exact .ret _
  · exact .throw (by simp)
  · exact (query _).bind fun _ => (hversion _).bind fun _ =>
      .ite (.throw (by simp)) ((store _ _ _).bind fun _ => .ret _)

theorem renderMaster (e : Env) (info : GeneralInfo) :
    KeepsSession J (CppBlog.renderMaster e info) := by
  have hquery : KeepsSession J querySidebar :=
    (query _).bind fun _ => (addTriggers _).bind fun _ => (query _).bind fun _ =>
    (addTriggers _).bind fun _ => (addTriggers _).bind fun _ => .ret _
  have hload : KeepsSession J loadSidebar := by
    refine (fetch "sidebar_info").bind fun r => ?_
    split
    · exact .ret _
    · exact .throw (by simp)
    · exact (record hquery).bind fun _ => (store _ _ _).bind fun _ => .ret _
  have hsidebar : KeepsSession J (renderSidebar e info) := by
    refine (fetch "sidebar").bind fun r => ?_
    split
    · exact .ret _
    · exact .throw (by simp)
    · exact Prog.Maintains.bind (record (hload.bind fun _ => (addTriggers _).bind fun _ => .ret _)) fun _ =>
        (getOwn _).bind fun _ => (store _ _ _).bind fun _ => .ret _
  exact hsidebar.bind fun _ => (getOwn _).bind fun _ => .ret _

/-- Behind a session with a user there is an id. -/
theorem adminPrepare [Lawful J] : KeepsSession J CppBlog.adminPrepare := by
  refine basicPrepare.bind fun info s hs => ?_
  rw [Prog.wp_bind, wp_sessionIsSet]
  rcases Lawful.paired _ hs with ⟨huser, -⟩ | ⟨username, id, huser, hid, hread⟩
  · rw [if_neg (by simp [Session.isSet, huser])]
    exact hs
  · rw [if_pos (by simp [Session.isSet, huser]), Prog.wp_bind, wp_sessionGetInt, hid, Option.bind_some,
      hread]
    simp only [Prog.wp_bind, wp_sessionGet, huser, Prog.wp_ret]
    exact ⟨fun _ _ => hs, fun h => absurd h (by simp)⟩

theorem renderAdmin (e : Env) (c : AdminContent) (active : String) (view : AdminView) :
    KeepsSession J (CppBlog.renderAdmin e c active view) :=
  (getOwn _).bind fun _ => response _

/-- A page of the administration. -/
theorem adminPage [Lawful J] (e : Env) (active : String) (view : AdminContent → AdminView) :
    KeepsSession J (CppBlog.adminPrepare.bind fun c => CppBlog.renderAdmin e c active (view c)) := adminPrepare.bind fun _ => renderAdmin e _ _ _

/-! ## The blog -/

theorem prepareContent (sid : String) (preview : Bool) :
    KeepsSession J (Post.prepareContent sid preview) := by
  refine (query _).bind fun r => ?_
  split
  · exact Prog.Maintains.bind (response _) fun _ => .ret _
  · exact .ite (Prog.Maintains.bind (response _) fun _ => .ret _) <| basicPrepare.bind fun _ =>
      (query _).bind fun _ => (query _).bind fun _ => .ret _

theorem postRender (e : Env) (c : PostContent) (text : String) (f : CommentForm) :
    KeepsSession J (Post.render e c text f) :=
  (renderMaster e _).bind fun _ => response _

theorem postDisplay (e : Env) (id : String) : KeepsSession J (Post.display e id) := by
  refine fetchPage e _ ((prepareContent id false).bind fun r => ?_)
  split
  · exact .ret _
  · exact (postRender e _ _ _).bind fun _ => storePage e _

theorem postPreview (e : Env) (id : String) : KeepsSession J (Post.preview e id) := by
  refine (getOwn _).bind fun _ => .ite (response _) ((prepareContent id true).bind fun r => ?_)
  split
  · exact .ret _
  · exact postRender e _ _ _

theorem postbackBlock (e : Env) (id : Int) (f : CommentForm) :
    KeepsSession J (Post.postbackBlock e id f) := by
  have hsignature : KeepsSession J (Post.signature e f) := by
    intro s hs
    unfold Post.signature
    rw [Prog.wp_bind, wp_sessionIsSet]
    split
    · rename_i huser
      obtain ⟨v, hv⟩ := Option.isSome_iff_exists.1 huser
      simp only [Prog.wp_bind, wp_sessionGet, hv, Prog.wp_ret]
      exact ⟨fun _ _ => hs, fun h => absurd h (by simp)⟩
    · exact hs
  refine transaction ((query _).bind fun r => ?_)
  split
  · exact Prog.Maintains.bind (response _) fun _ => .ret _
  · exact .ite (Prog.Maintains.bind (response _) fun _ => .ret _) <| .ite
      (hsignature.bind fun _ => (exec _).bind fun _ => (execTotal _).bind fun _ => (rise _).bind fun _ =>
        (rise _).bind fun _ => commit.bind fun _ => Prog.Maintains.bind (response _) fun _ => .ret _)
      (.ret _)

theorem pagePrepare (e : Env) (sid : String) (preview : Bool) :
    KeepsSession J (Page.prepare e sid preview) := by
  refine (query _).bind fun r => ?_
  split
  · exact Prog.Maintains.bind (response _) fun _ => .ret _
  · exact .ite (Prog.Maintains.bind (response _) fun _ => .ret _) <| basicPrepare.bind fun _ =>
      (renderMaster e _).bind fun _ => Prog.Maintains.bind (response _) fun _ => .ret _

theorem summary (e : Env) (catId page : Int) : KeepsSession J (Summary.prepare e catId page) := by
  have hmax (k : Int) : KeepsSession J (Summary.checkMaxCatId k) := by
    refine .ite ((fetch _).bind fun r => ?_) (.ret _)
    split
    · exact .ite (Prog.Maintains.bind (response _) fun _ => .ret _) (.ret _)
    · exact .throw (by simp)
    · exact (query _).bind fun _ => (store _ _ _).bind fun _ => .ret _
  have hname (k : Int) : KeepsSession J (Summary.categoryName k) := by
    refine (fetch _).bind fun r => ?_
    split
    · exact .ret _
    · exact .throw (by simp)
    · exact (query _).bind fun _ => (store _ _ _).bind fun _ => .ret _
  have hlist (key : String) (k n : Int) (name q : String) :
      KeepsSession J (Summary.list e key k n name q) := by
    have hcount : KeepsSession J (Summary.pageRecords (Summary.countKey k q) k (Summary.countRecords e k q)) := by
      refine (fetch _).bind fun r => ?_
      split
      · exact .ret _
      · exact .throw (by simp)
      · exact (query _).bind fun _ => (store _ _ _).bind fun _ => .ret _
    exact hcount.bind fun _ => .ite (response _) <| (query _).bind fun _ => (addTriggers _).bind fun _ =>
      basicPrepare.bind fun _ => Prog.Maintains.bind (.ite (.ret _) (query _)) fun _ =>
      (renderMaster e _).bind fun _ => Prog.Maintains.bind (response _) fun _ => storePage e _
  exact (hmax _).bind fun _ => .ite (.ret _) <| fetchPage e _ <| (addTriggers _).bind fun _ =>
    .ite ((hname _).bind fun _ => .ite (response _) (hlist _ _ _ _ _)) (hlist _ _ _ _ _)

/-! ## Feeds and files -/

theorem feed (e : Env) {key : String} {p : App Unit} (hp : KeepsSession J p) :
    KeepsSession J (Feed.setXml.bind fun _ =>
      (App.fetchPage e key).bind fun hit => if hit then .ret () else p) := by
  have hxml : KeepsSession J Feed.setXml := by
    unfold Feed.setXml setHeader
    exact response _
  exact hxml.bind fun _ => fetchPage e key hp

theorem feedMaster (e : Env) (info : GeneralInfo) : KeepsSession J (Feed.feedMaster e info) :=
  (getOwn _).bind fun _ => .ret _

theorem showPosts (e : Env) (key : String) (c : Option (Int × String)) (rows : List SummaryRow) :
    KeepsSession J (Feed.showPosts e key c rows) :=
  (addTriggers _).bind fun _ => basicPrepare.bind fun _ => (feedMaster e _).bind fun _ =>
    Prog.Maintains.bind (response _) fun _ => storePage e _

theorem feedCats (e : Env) (sid : String) : KeepsSession J (Feed.cats e sid) := by
  refine feed e ((addTriggers _).bind fun _ => (query _).bind fun name => ?_)
  split
  · exact response _
  · exact (query _).bind fun _ => showPosts e _ _ _

theorem serveFile (e : Env) (show64 : Int → String) (path : String) :
    KeepsSession J (CppBlog.serveFile e show64 path) := by
  have hheader (name value : String) : KeepsSession J (setHeader name value) := response _
  have hsend (content : List UInt8) (mtime : Nat) :
      KeepsSession J (sendFile e show64 content mtime) :=
    Prog.Maintains.bind (.ite (hheader _ _) (.ret _)) fun _ => (hheader _ _).bind fun _ =>
    (hheader _ _).bind fun _ => (hheader _ _).bind fun _ => (hheader _ _).bind fun _ =>
    (hheader _ _).bind fun _ => (hheader _ _).bind fun _ => (hheader _ _).bind fun _ =>
    (hheader _ _).bind fun _ => (hheader _ _).bind fun _ =>
    Prog.Maintains.bind (.ite (response _) (.ret _)) fun _ => response _
  refine (onFiles (OnFiles.files _)).bind fun r => ?_
  split
  · exact response _
  · exact hsend _ _
  · exact hsend _ _

/-! ## The administration -/

/-- The id a session with a user has. -/
theorem ownId [Member J] : KeepsSession J (App.sessionGetInt "id") := by
  refine sessionGetInt fun session h => ?_
  rcases Lawful.paired _ h with ⟨huser, -⟩ | ⟨username, id, -, hid, hread⟩
  · exact absurd (Member.user _ h) (by simp [Session.isSet, huser])
  · exact ⟨id, by rw [hid]; exact hread⟩

theorem addToCats (id : Int) (now : Tm) (openStatus : Int) (boxes : List CatBox) :
    KeepsSession J (AdminPost.addToCats id now openStatus boxes) :=
  .each (fun _ => .ite (.ret _) ((exec _).bind fun _ => rise _)) boxes

theorem createPost [Member J] (e : Env) (f : PostForm) : KeepsSession J (AdminPost.create e f) := by
  have hblock (openStatus : Int) : KeepsSession J (AdminPost.createBlock e f openStatus) :=
    transaction <| ownId.bind fun _ => (exec _).bind fun _ => (query _).bind fun _ =>
      (addToCats _ _ _ _).bind fun _ => Prog.Maintains.bind (.ite (rise _) (.ret _)) fun _ =>
      commit.bind fun _ => .ret _
  exact .ite (Prog.Maintains.bind (response _) fun _ => .ret _) <| (hblock _).bind fun _ =>
    .ite (.ret _) (Prog.Maintains.bind (response _) fun _ => .ret _)

theorem savePost (e : Env) (id : Int) (isOpen : Bool) (f : PostForm) :
    KeepsSession J (AdminPost.save e id isOpen f) := by
  have hremove : KeepsSession J (AdminPost.removeBlock id) :=
    transaction <| (execTotal _).bind fun _ => (execTotal _).bind fun _ => (execTotal _).bind fun _ =>
      (rise _).bind fun _ => (rise _).bind fun _ => commit
  have hrow (openStatus : Int) : KeepsSession J (AdminPost.updateRow e id f openStatus) := by
    refine .ite ((execTotal _).bind fun _ => (execTotal _).bind fun _ => .ret _)
      ((execTotal _).bind fun _ => (query _).bind fun publish => ?_)
    split
    · exact .throw (by simp)
    · exact Prog.Maintains.bind (.ite (execTotal _) (.ret _)) fun _ => .ret _
  have hdel (boxes : List CatBox) :
      KeepsSession J (AdminPost.delFromCats id f.changeStatus boxes) :=
    .each (fun _ => Prog.Maintains.bind (.ite (rise _) (.ret _)) fun _ => .ite (.ret _) (execTotal _)) boxes
  have hsave (openStatus : Int) : KeepsSession J (AdminPost.saveBlock e id f openStatus) :=
    transaction <| (hrow _).bind fun _ => Prog.Maintains.bind (.ite (rise _) (.ret _)) fun _ =>
      (rise _).bind fun _ => (addToCats _ _ _ _).bind fun _ => (hdel _).bind fun _ => commit
  exact .ite (hremove.bind fun _ => Prog.Maintains.bind (response _) fun _ => .ret _) <|
    (hsave _).bind fun _ => Prog.Maintains.bind (.ite (response _) (.ret _)) fun _ => .ret _

theorem adminPostShared [Member J] (e : Env) (id : Int) :
    KeepsSession J (AdminPost.prepareShared e id) := by
  have hread : KeepsSession J (AdminPost.readPost (e.req.method = "POST") id) := by
    refine Prog.Maintains.bind (.ite (query _) (query _)) fun r => ?_
    split
    · exact Prog.Maintains.bind (response _) fun _ => .ret _
    · exact (query _).bind fun _ => .ret _
  have hrender (id : Int) (isOpen : Bool) (f : PostForm) :
      KeepsSession J (AdminPost.render e id isOpen f) := adminPage e _ _
  have hedit (isOpen : Bool) (form : PostForm) :
      KeepsSession J (AdminPost.edit e id isOpen form) := by
    refine .ite ((loadForm e _).bind fun _ => .ite (Prog.Maintains.bind
      (.ite (createPost e _) (savePost e _ _ _)) fun r => ?_) (hrender _ _ _)) (hrender _ _ _)
    split
    · exact .ret _
    · exact hrender _ _ _
  refine Prog.Maintains.bind (.ite hread (.ret _)) fun r => ?_
  split
  · exact .ret _
  · exact Prog.Maintains.bind ((query _).bind fun _ => .ret _) fun _ => hedit _ _

theorem adminPageShared [Member J] (e : Env) (id : Int) :
    KeepsSession J (AdminPage.prepareShared e id) := by
  have hread : KeepsSession J (AdminPage.readPage (e.req.method = "POST") id) := by
    refine (query _).bind fun r => ?_
    split
    · exact Prog.Maintains.bind (response _) fun _ => .ret _
    · exact .ret _
  have hrise : KeepsSession J (AdminPage.risePage id) := (rise _).bind fun _ => rise _
  have hcreate (f : PageForm) : KeepsSession J (AdminPage.create e f) :=
    .ite (Prog.Maintains.bind (response _) fun _ => .ret _) <| ownId.bind fun _ =>
      (exec _).bind fun _ => Prog.Maintains.bind (.ite (rise _) (.ret _)) fun _ => (query _).bind fun _ =>
      .ite (Prog.Maintains.bind (response _) fun _ => .ret _) <| .ite (.ret _)
        (Prog.Maintains.bind (response _) fun _ => .ret _)
  have hsave (isOpen : Bool) (f : PageForm) : KeepsSession J (AdminPage.save e id isOpen f) :=
    .ite ((execTotal _).bind fun _ => Prog.Maintains.bind (.ite hrise (.ret _)) fun _ =>
        Prog.Maintains.bind (response _) fun _ => .ret _) <|
      (execTotal _).bind fun _ => Prog.Maintains.bind (.ite hrise (.ret _)) fun _ =>
        .ite (Prog.Maintains.bind (response _) fun _ => .ret _) (.ret _)
  have hrender (id : Int) (isOpen : Bool) (f : PageForm) :
      KeepsSession J (AdminPage.render e id isOpen f) := adminPage e _ _
  have hedit (isOpen : Bool) (form : PageForm) :
      KeepsSession J (AdminPage.edit e id isOpen form) := by
    refine .ite ((loadForm e _).bind fun _ => .ite (Prog.Maintains.bind
      (.ite (hcreate _) (hsave _ _)) fun r => ?_) (hrender _ _ _)) (hrender _ _ _)
    split
    · exact .ret _
    · exact hrender _ _ _
  refine Prog.Maintains.bind (.ite hread (.ret _)) fun r => ?_
  split
  · exact .ret _
  · exact hedit _ _

theorem adminComment [Lawful J] (e : Env) (sid : String) : KeepsSession J (AdminComment.prepare e sid) := by
  have hrender (id postId : Int) (f : AdminCommentForm) :
      KeepsSession J (AdminComment.render e id postId f) := adminPage e _ _
  have hsave (id : Int) (f : AdminCommentForm) :
      KeepsSession J (AdminComment.saveBlock id f) := by
    refine transaction ((query _).bind fun r => ?_)
    split
    · exact Prog.Maintains.bind (response _) fun _ => .ret _
    · exact Prog.Maintains.bind (.ite ((execTotal _).bind fun _ => execTotal _) (execTotal _)) fun _ =>
        (rise _).bind fun _ => (rise _).bind fun _ => commit.bind fun _ => .ret _
  refine .ite ((loadForm e _).bind fun _ => .ite ((hsave _ _).bind fun r => ?_) (hrender _ _ _))
    ((query _).bind fun r => ?_)
  · split
    · exact .ret _
    · exact response _
  · split
    · exact response _
    · exact hrender _ _ _

theorem categories [Lawful J] (e : Env) : KeepsSession J (Categories.prepare e) := by
  have hrise (id : Int) : KeepsSession J (Categories.riseCat id) := (rise _).bind fun _ => rise _
  have hremove (id : Int) (f : CatsForm) : KeepsSession J (Categories.remove id f) :=
    transaction <| (query _).bind fun _ => .ite
      (.ite (.ret _) <| (execTotal _).bind fun _ => (execTotal _).bind fun _ => commit.bind fun _ =>
        (hrise _).bind fun _ => .ret _) <|
      (execTotal _).bind fun _ => commit.bind fun _ => (hrise _).bind fun _ => .ret _
  have hsubmit : KeepsSession J (Categories.submit e) :=
    (loadForm e _).bind fun _ => .ite (.ret _) <| .ite
      ((transaction ((exec _).bind fun _ => commit.bind fun _ => rise _)).bind fun _ => .ret _) <|
      .ite (hremove _ _)
        ((transaction ((execTotal _).bind fun _ => commit.bind fun _ => hrise _)).bind fun _ => .ret _)
  exact Prog.Maintains.bind (.ite hsubmit (.ret _)) fun _ => adminPrepare.bind fun _ => (query _).bind fun _ =>
    renderAdmin e _ _ _

theorem options [Lawful J] (e : Env) : KeepsSession J (Options.prepare e) := by
  have hstore (f : OptionsForm) : KeepsSession J (Options.store f) :=
    transaction <| (execTotal _).bind fun _ => (exec _).bind fun _ => (exec _).bind fun _ =>
      (exec _).bind fun _ => (exec _).bind fun _ => (rise _).bind fun _ => commit
  exact .ite ((loadForm e _).bind fun _ => .ite ((hstore _).bind fun _ => adminPage e _ _)
    (adminPage e _ _)) (adminPage e _ _)

theorem upload [Lawful J] (e : Env) : KeepsSession J (Upload.prepare e) := by
  have hanswer (status : Bool) (fields : List (String × String)) : KeepsSession J (Upload.answer status fields) :=
    Prog.Maintains.bind (response _) fun _ => response _
  have htransfer (md5 name : String) (size : Nat) : KeepsSession J (Upload.transfer e md5 name size) := by
    refine (onFiles (.extension _)).bind fun ext => adminPrepare.bind fun _ =>
      (onFiles (.names e _ _ _)).bind fun n => ?_
    refine Prog.Maintains.bind (.ite (onFiles (.submit e _ _ _ _ _ _)) (onFiles (.ask _ _ _))) fun r => ?_
    exact .ite ((onFiles (.rotate e _ _)).bind fun _ => hanswer _ _) (hanswer _ _)
  exact .ite (hanswer _ _) (.ite (hanswer _ _) (htransfer _ _ _))

/-! ### Users -/

theorem tryStore (e : Env) (statement : Db → Except SqlError Db) :
    KeepsSession J (Users.tryStore e statement) := by
  refine Prog.Maintains.tryCatch ((transaction ((exec _).bind fun _ => commit)).bind fun _ =>
    Prog.Maintains.bind (response _) fun _ => .ret _) fun err herr => ?_
  split
  · exact .ret _
  · exact .throw herr

theorem usersEdit [Lawful J] (e : Env) (sid : String) : KeepsSession J (Users.edit e sid) := by
  refine .ite (response _) ((query _).bind fun r => ?_)
  split
  · exact response _
  · exact .ite ((loadForm e _).bind fun _ => .ite ((tryStore e _).bind fun _ =>
      .ite (.ret _) (adminPage e _ _)) (adminPage e _ _)) (adminPage e _ _)

theorem usersDel [Member J] (e : Env) (sid : String) : KeepsSession J (Users.del e sid) :=
  Prog.Maintains.bind (.ite (.ret _) (ownId.bind fun _ => .ret _)) fun _ =>
    .ite (response _) <| (transaction ((execTotal _).bind fun _ => commit)).bind fun _ => response _

/-! ## Every handler -/

theorem ofAdmin [Member J] {e : Env} {p : App Unit} (h : AdminDestination e p)
    (hlogin : routedToLogin e = false) : KeepsSession J p := by
  cases h with
  | notFound => exact response _
  | caching _ =>
    exact Prog.Maintains.bind (.ite (cache _) (.ret _)) fun _ => (cache _).bind fun _ => adminPage e _ _
  | categories _ => exact categories e
  | options => exact options e
  | comment sid => exact adminComment e sid
  | post sid _ => exact .ite (response _) (adminPostShared e _)
  | newPost _ => exact adminPostShared e 0
  | page sid _ => exact .ite (response _) (adminPageShared e _)
  | newPage => exact adminPageShared e 0
  | users page => exact (query _).bind fun _ => (query _).bind fun _ => adminPage e _ _
  | userAdd =>
    exact .ite ((loadForm e _).bind fun _ => .ite ((tryStore e _).bind fun _ =>
      .ite (.ret _) (adminPage e _ _)) (adminPage e _ _)) (adminPage e _ _)
  | userDel sid _ => exact usersDel e sid
  | userEdit sid _ => exact usersEdit e sid
  | login h => rw [hlogin] at h; exact absurd h (by simp)
  | upload _ => exact upload e
  | summary page =>
    exact adminPrepare.bind fun _ => (query _).bind fun _ => (query _).bind fun _ => (query _).bind fun _ =>
      (query _).bind fun _ => (query _).bind fun _ => renderAdmin e _ _ _

theorem configRoutes (e : Env) (path : String) : KeepsSession J (dispatch (CppBlog.configRoutes e) path) := by
  have hrender (f : ConfigForm) : KeepsSession J (Config.render e f) := (getOwn _).bind fun _ => response _
  have hstore (f : ConfigForm) : KeepsSession J (Config.store f) :=
    transaction <| (execTotal _).bind fun _ => (exec _).bind fun _ => (exec _).bind fun _ =>
      (exec _).bind fun _ => (exec _).bind fun _ => (exec _).bind fun _ => commit
  have hsubmit : KeepsSession J (Config.submit e) :=
    .ite ((loadForm e _).bind fun _ => .ite ((hstore _).bind fun _ => response _) (hrender _)) (hrender _)
  refine dispatch_induction (response _) fun r hr caps _ => ?_
  rcases List.mem_pair.1 hr with rfl | rfl
  · exact (query _).bind fun _ => Prog.Maintains.bind (.ite (response _) (.ret _)) fun _ => hsubmit
  · exact (query _).bind fun _ => .ite (response _) ((getOwn _).bind fun _ => response _)

theorem selectLanguage [Guest J] (e : Env) : KeepsSession J (CppBlog.selectLanguage e) := by
  intro s hs
  have hset (same : Bool) (s' : St) (hs' : J s'.own.session) : (if same then (.ret () : App Unit)
      else (App.sessionSet "nlang" (toString (nlang e))).bind fun _ => clearCache).wp calls
        (fun _ s' => J s'.own.session) (fun _ _ => True) s' := by
    split
    · exact hs'
    · rw [Prog.wp_bind, wp_sessionSet, clearCache, wp_cache]
      exact Guest.setLanguage _ e hs'
  have hkeep : (CppBlog.selectLanguage e).wp calls (fun _ s' => J s'.own.session) (fun _ _ => True) s := by
    simp only [CppBlog.selectLanguage, modifyResponse, Prog.wp_bind, wp_modifyOwn, wp_sessionIsSet]
    split
    · rw [Prog.wp_bind, wp_sessionGetInt]
      split
      · exact hset _ _ hs
      · trivial
    · exact hset _ _ hs
  exact Prog.wp_mono (fun _ _ h => h.1) (fun _ _ h => absurd h.2 id)
    (Prog.wp_and hkeep (selectLanguage_raisesNothing (Lawful.language _ hs)))

section

-- a dispatcher is what its destinations say
attribute [local irreducible] dispatch

/-- Behind the gate the session stays as it is. -/
theorem adminMaster [Guest J] {e : Env} {path : String} (hpath : adminPath e = some path)
    (hlogin : routedToLogin e = false) : KeepsSession J (CppBlog.adminMaster e path) := by
  intro s hs
  rw [CppBlog.adminMaster, Prog.wp_bind, wp_sessionIsSet]
  split
  · rename_i hgate
    by_cases huser : s.own.session.isSet "user" = true
    · have : Member (fun session => session = s.own.session) :=
        { language := by rintro _ rfl; exact Lawful.language _ hs
          paired := by rintro _ rfl; exact Lawful.paired _ hs
          user := by rintro _ rfl; exact huser }
      have hkeep : KeepsSession (fun session => session = s.own.session) (dispatch (adminRoutes e) path) :=
        ofAdmin (AdminDestination.admin hpath) hlogin
      refine Prog.wp_mono (fun _ s' h => ?_) (fun _ s' h => ⟨h.1, ?_⟩) (hkeep s rfl)
      · show J s'.own.session
        rw [h]
        exact hs
      · show J s'.own.session
        rw [h.2]
        exact hs
    · -- without a user the gate opens for the login page only
      have hroute : routedToLogin e = true := by
        rcases hgate with h | rfl | rfl
        · exact absurd h huser
        · simp only [routedToLogin, usersPath, hpath]
          rfl
        · simp only [routedToLogin, usersPath, hpath]
          rfl
      rw [hlogin] at hroute
      exact absurd hroute (by simp)
  · exact (response _ : KeepsSession J _) s hs

theorem ofSite [Guest J] {e : Env} {p : App Unit} (h : Destination e p)
    (hcaptcha : routedToCaptcha e = false) (hpostback : routedToPostback e = none)
    (hlogin : routedToLogin e = false) : KeepsSession J p := by
  cases h with
  | notFound => exact response _
  | captcha h => rw [hcaptcha] at h; exact absurd h (by simp)
  | config path _ => exact configRoutes e path
  | admin path hpath => exact adminMaster hpath hlogin
  | feedPosts => exact feed e ((addTriggers _).bind fun _ => (query _).bind fun _ => showPosts e _ _ _)
  | feedCats sid _ => exact feedCats e sid
  | feedComments _ =>
    exact feed e ((query _).bind fun _ => basicPrepare.bind fun _ => (feedMaster e _).bind fun _ =>
      Prog.Maintains.bind (response _) fun _ => storePage e _)
  | media file =>
    exact .ite (response _) (Prog.Maintains.bind (response _) fun _ => serveFile e _ _)
  | pageDisplay sid _ =>
    exact fetchPage e _ ((pagePrepare e sid false).bind fun _ => .ite (storePage e _) (.ret _))
  | pagePreview sid =>
    exact (getOwn _).bind fun _ => .ite (response _) ((pagePrepare e sid true).bind fun _ => .ret _)
  | postDisplay sid _ => exact postDisplay e sid
  | postPreview sid => exact postPreview e sid
  | postback sid h => rw [hpostback] at h; exact absurd h (by simp)
  | download md5 size name =>
    exact basicPrepare.bind fun _ => (onFiles (.uploadPath e _ _)).bind fun _ =>
      (onFiles (.extension _)).bind fun _ =>
      Prog.Maintains.bind (response _) fun _ => Prog.Maintains.bind (response _) fun _ => serveFile e _ _
  | summary catId page _ => exact summary e catId page

/-- **A request that asks neither for a captcha nor for the login page and posts no comment keeps every
    invariant of its session.** -/
theorem main [Guest J] {e : Env} (hcaptcha : routedToCaptcha e = false)
    (hpostback : routedToPostback e = none) (hlogin : routedToLogin e = false) :
    KeepsSession J (CppBlog.main e) := by
  refine (selectLanguage e).bind fun _ =>
    Prog.Maintains.tryCatch (ofSite (Destination.site e) hcaptcha hpostback hlogin) fun err herr => ?_
  split
  · exact response _
  · exact response _
  · exact .throw herr

end

end KeepsSession

/-! ## Sessions of a server -/

/-- Saving a session adds its token at most. -/
theorem find_save (e : Env) (o : Own) {key : String} (h : key ≠ "_csrf") :
    (o.save e).find key = o.session.find key := by
  unfold Own.save
  split
  · rename_i hempty
    rw [List.isEmpty_iff.1 hempty]
  · split
    · exact Session.find_set_ne _ h _
    · rfl

/-- The session of another client. -/
theorem lookup_filter_ne {α : Type} {sid sid' : String} (h : sid ≠ sid') (l : List (String × α)) :
    (l.filter (fun x => x.1 ≠ sid')).lookup sid = l.lookup sid := by
  induction l with
  | nil => rfl
  | cons x l ih =>
    obtain ⟨k, v⟩ := x
    by_cases hk : k = sid'
    · subst hk
      rw [List.filter_cons_of_neg (by simp), ih, List.lookup_cons, beq_eq_false_iff_ne.2 h]
    · rw [List.filter_cons_of_pos (by simpa using hk), List.lookup_cons, List.lookup_cons, ih]

theorem session_request_self (site : Site) (a : Arrival) (w : World) :
    (step site w (.request a)).session a.req.sid = (outcome site a w).2.2.own.save (site.env a) := by
  simp [World.session, step, serve]

theorem session_request_ne (site : Site) {a : Arrival} {sid : String} (h : sid ≠ a.req.sid) (w : World) :
    (step site w (.request a)).session sid = w.session sid := by
  have hsid : (sid == a.req.sid) = false := beq_eq_false_iff_ne.2 h
  simp only [World.session, step, serve, List.lookup_cons, hsid]
  rw [lookup_filter_ne h]

end CppBlog
