import CppBlog.CommentCount
import CppBlog.Turns

set_option autoImplicit false

/-! # Requests that take turns

However the requests in progress take turns, the tables go through the same steps as when each request runs alone,
but for what a handler has read before its transaction: by then another request may have made it out of date. So a
post is saved with categories and a status that need not be the ones of the tables, and an older database may be
upgraded twice; no comment is counted wrongly all the same. -/

namespace CppBlog

open Effect Store App Relation

/-! ## What requests among others do to the tables -/

/-- One thing the application can do to its tables in one commit, among other requests: a `Change`, or one that rests
    on what was read before the transaction. -/
inductive Applied : Db → Db → Prop where
  | change {d d' : Db} : Change d d' → Applied d d'
  | upgrade {d m : Db} : d.updatePost2CatFromPosts = .ok m → Applied d m.updateDbversion
  | createPost {d d' : Db} (authorId : Int) (f : PostForm) (now : Tm) (openStatus : Int) :
      d.createPost authorId f now openStatus = .ok d' → Applied d d'
  | savePost {d d' : Db} (id : Int) (f : PostForm) (now : Tm) (openStatus : Int) :
      d.savePost id f now openStatus = .ok d' → Applied d d'

theorem Counted.applied {d d' : Db} (h : Counted d) (ha : Applied d d') : Counted d' := by
  cases ha with
  | change hc => exact h.change hc
  | upgrade hm =>
      unfold Db.updatePost2CatFromPosts at hm
      split at hm
      · cases hm
        exact h.congr rfl rfl
      · cases hm
  | createPost authorId f now openStatus hd => exact h.createPost hd
  | savePost id f now openStatus hd => exact h.savePost hd

theorem Counted.applies {d d' : Db} (h : Counted d) (ha : ReflTransGen Applied d d') : Counted d' := by
  induction ha with
  | refl => exact h
  | tail _ hstep ih => exact ih.applied hstep

/-- A handler among others, with its promise. -/
abbrev Applies {α : Type} (p : App α) : Prop := Steadfast Applied p

theorem Applies.exec {f : Db → Except SqlError Db} (h : ∀ d d', f d = .ok d' → Change d d') : Applies (App.exec f) :=
  Steadfast.exec fun d d' hd => .change (h d d' hd)

theorem Applies.execTotal {f : Db → Db} (h : ∀ d, Change d (f d)) : Applies (App.execTotal f) :=
  Steadfast.execTotal fun d => .change (h d)

/-- The end of a block that commits a change of the tables it was given. -/
theorem Fulfils.change {α : Type} {start d : Db} {k : Unit → App α} (hd : Change start d)
    (hk : (k ()).Within (turns Applied) Eq) : Fulfils Applied (App.commit.bind k) start d :=
  .commit (.single (.change hd)) hk

theorem Fulfils.changeLast {start d : Db} (hd : Change start d) : Fulfils Applied App.commit start d :=
  .commitLast (.single (.change hd))

/-! ## The operations of the parts of a transaction -/

theorem onCopy_exec (f : Db → Except SqlError Db) : (App.exec f).Every OnCopy := .perform trivial

theorem onCopy_rise (t : String) : (App.rise t).Every OnCopy := .perform ⟨(), fun _ => rfl⟩

theorem onCopy_each {α : Type} {f : α → App Unit} (hf : ∀ a, (f a).Every OnCopy) (l : List α) :
    (Prog.each f l).Every OnCopy := by
  induction l with
  | nil => exact .ret ()
  | cons a l ih => exact (hf a).bind fun _ => ih

theorem onCopy_addToCats (id : Int) (now : Tm) (openStatus : Int) (boxes : List CatBox) :
    (AdminPost.addToCats id now openStatus boxes).Every OnCopy :=
  onCopy_each (fun _ => .ite (.ret _) ((onCopy_exec _).bind fun _ => onCopy_rise _)) boxes

theorem onCopy_delFromCats (id : Int) (changeStatus : Bool) (boxes : List CatBox) :
    (AdminPost.delFromCats id changeStatus boxes).Every OnCopy :=
  onCopy_each (fun _ => Prog.Every.bind (.ite (onCopy_rise _) (.ret _)) fun _ => .ite (.ret _) (onCopy_exec _)) boxes

theorem onCopy_updateRow (e : Env) (id : Int) (f : PostForm) (openStatus : Int) :
    (AdminPost.updateRow e id f openStatus).Every OnCopy := by
  refine .ite ((onCopy_exec _).bind fun _ => (onCopy_exec _).bind fun _ => .ret _) ?_
  refine (onCopy_exec _).bind fun _ => Prog.Every.bind (.perform trivial) fun publish => ?_
  cases publish with
  | none => exact .throw _
  | some publish => exact Prog.Every.bind (.ite (onCopy_exec _) (.ret _)) fun _ => .ret _

/-! ## The handlers -/

/-- The upgrade of a database of version 2; one of version 3 under another spelling is left as it is. -/
theorem applies_upgrade (v : String) : Applies (upgrade v) := by
  have hfinal : Text.atoi cppblogDbversion = 3 := by decide
  simp only [upgrade, hfinal]
  generalize Text.atoi v = ver
  split_ifs with hgt hlt
  · exact .ret _
  · exact .ret _
  obtain rfl | rfl : ver = 2 ∨ ver = 3 := by omega
  · refine Steadfast.transaction fun d => ?_
    change Fulfils Applied ((upgrade23.bind fun ok => if ok then upgradeLoop 3 0 else .ret false).bind _) d d
    simp only [upgrade23, Prog.bind_assoc, Prog.ret_bind, if_true, upgradeLoop]
    exact .exec fun m hm => .execTotal <| .commit (.single (.upgrade hm)) (.ret _)
  · refine Steadfast.transaction fun d => ?_
    change Fulfils Applied ((upgradeLoop 3 0).bind _) d d
    simp only [upgradeLoop, Prog.ret_bind, if_true]
    exact .commit .refl (.ret _)

instance : Prepares (turns Applied) Stand.Steady where
  basicPrepare := by
    have hversion (v : String) : Applies (checkVersion v) :=
      .ite (.ret _) ((applies_upgrade v).bind fun _ => .ite (.ret _) (.throw _))
    refine (Idle.fetch _).bind fun r => ?_
    split
    · exact .ret _
    · exact .throw _
    · exact (Idle.query _).bind fun _ => (hversion _).bind fun _ =>
        .ite (.throw _) ((Idle.store _ _ _).bind fun _ => .ret _)

theorem applies_configStore (f : ConfigForm) : Applies (Config.store f) := by
  refine Steadfast.transaction fun d => .execTotal <| .exec fun d₁ h₁ => .exec fun d₂ h₂ => .exec fun d₃ h₃ =>
    .exec fun d₄ h₄ => .exec fun d₅ h₅ => .changeLast (.configure f ?_)
  simp only [Db.configure, Db.insertOptions, Except.bind, h₁, h₂, h₃, h₄, h₅]

theorem applies_optionsStore (f : OptionsForm) : Applies (Options.store f) := by
  refine Steadfast.transaction fun d => .execTotal <| .exec fun d₁ h₁ => .exec fun d₂ h₂ => .exec fun d₃ h₃ =>
    .exec fun d₄ h₄ => .skip (turns_rise _) fun _ => .changeLast (.storeOptions f ?_)
  simp only [Db.storeOptions, Db.insertOptions, Except.bind, h₁, h₂, h₃, h₄]

/-- A comment and the counter of its post are put in place together, and the post is there. -/
theorem applies_postbackBlock (e : Env) (id : Int) (f : CommentForm) :
    Applies (Post.postbackBlock e id f) := by
  refine Steadfast.transaction fun d => .query ?_
  cases hopen : d.selectPostIsOpen id with
  | none => exact .stop ((Idle.makeErrorResponse _).bind fun _ => .ret _)
  | some isOpen =>
      dsimp only
      split_ifs with hclosed hsend
      · exact .stop ((Idle.makeErrorResponse _).bind fun _ => .ret _)
      · have hsignature : (Post.signature e f).Within (turns Applied) Eq :=
          (Idle.getOwn _).bind fun _ => .ite ((Idle.sessionGet _).bind fun _ => .ret _) (.ret _)
        refine .skip hsignature fun s => .exec fun m hm => .execTotal <|
          .skip (turns_rise _) fun _ => .skip (turns_rise _) fun _ =>
          .change (.comment ?_) ((Idle.setRedirectHeader _).bind fun _ => .ret _)
        exact ⟨id, s.1, s.2.1, s.2.2, e.chance.now, f.content.value, isOpen, m, hopen, hclosed, hm, rfl⟩
      · exact .stop (.ret _)

theorem applies_postback (e : Env) (sid : String) : Applies (Post.postback e sid) := by
  refine .ite (Idle.makeErrorResponse _) <| (Idle.loadForm e _).bind fun _ => (idle_validate e _).bind fun _ =>
    Prog.Within.bind (.ite (applies_postbackBlock e _ _) (.ret _)) fun r => ?_
  split
  · exact .ret _
  · exact readOnly_redisplay e sid _ _

/-! ### Posts -/

theorem applies_createPost (e : Env) (f : PostForm) : Applies (AdminPost.create e f) := by
  have hblock (openStatus : Int) : Applies (AdminPost.createBlock e f openStatus) := by
    refine Steadfast.transaction fun d => .skip (Idle.sessionGetInt _) fun authorId => .exec fun d₁ h₁ => .query <|
      .seq (inTx_addToCats _ _ _ _) (onCopy_addToCats _ _ _ _) fun _ d₂ h₂ =>
      .skip (.ite (turns_rise _) (.ret _)) fun _ =>
      .commit (.single (.createPost authorId f e.chance.now openStatus ?_)) (.ret _)
    simp only [Db.createPost, Except.bind, h₁, h₂]
  exact .ite ((Idle.setRedirectHeader _).bind fun _ => .ret _) <| (hblock _).bind fun _ =>
    .ite (.ret _) ((Idle.setRedirectHeader _).bind fun _ => .ret _)

theorem applies_savePost (e : Env) (id : Int) (isOpen : Bool) (f : PostForm) :
    Applies (AdminPost.save e id isOpen f) := by
  have hremove : Applies (AdminPost.removeBlock id) :=
    Steadfast.transaction fun _ => .execTotal <| .execTotal <| .execTotal <| .skip (turns_rise _) fun _ =>
      .skip (turns_rise _) fun _ => .changeLast (.removePost id)
  have hsave (openStatus : Int) : Applies (AdminPost.saveBlock e id f openStatus) := by
    refine Steadfast.transaction fun d => .seq (inTx_updateRow _ _ _ _) (onCopy_updateRow _ _ _ _) fun now d₁ h₁ =>
      .skip (.ite (turns_rise _) (.ret _)) fun _ => .skip (turns_rise _) fun _ =>
      .seq (inTx_addToCats _ _ _ _) (onCopy_addToCats _ _ _ _) fun _ d₂ h₂ =>
      .seq (inTx_delFromCats _ _ _) (onCopy_delFromCats _ _ _) fun _ d₃ h₃ =>
      .commitLast (.single (.savePost id f e.chance.now openStatus ?_))
    simp only [Db.savePost, Except.bind, h₁, h₂, h₃]
  exact .ite (hremove.bind fun _ => (Idle.setRedirectHeader _).bind fun _ => .ret _) <| (hsave _).bind fun _ =>
    Prog.Within.bind (.ite (Idle.setRedirectHeader _) (.ret _)) fun _ => .ret _

theorem applies_editPost (e : Env) (id : Int) (isOpen : Bool) (form : PostForm) :
    Applies (AdminPost.edit e id isOpen form) := by
  refine .ite ((Idle.loadForm e _).bind fun _ => .ite ?_ (readOnly_postEditor e _ _ _)) (readOnly_postEditor e _ _ _)
  refine Prog.Within.bind (.ite (applies_createPost e _) (applies_savePost e _ _ _)) fun r => ?_
  split
  · exact .ret _
  · exact readOnly_postEditor e _ _ _

/-- What the editor has read before its transaction may be out of date by then. -/
theorem applies_prepareShared (e : Env) (id : Int) : Applies (AdminPost.prepareShared e id) := by
  have hread (isPost : Bool) : Applies (AdminPost.readPost isPost id) := by
    refine Prog.Within.bind (.ite (Idle.query _) (Idle.query _)) fun r => ?_
    split
    · exact (Idle.makeErrorResponse _).bind fun _ => .ret _
    · exact (Idle.query _).bind fun _ => .ret _
  refine Prog.Within.bind (.ite (hread _) (.ret _)) fun r => ?_
  split
  · exact .ret _
  · exact ((Idle.query _).bind fun _ => .ret _).bind fun _ => applies_editPost e _ _ _

/-! ### Pages, comments, categories, options and users -/

theorem turns_risePage {C : Db → Db → Prop} {R : Stand → Stand → Prop} [IsPreorder Stand R] (id : Int) :
    (AdminPage.risePage id).Within (turns C) R := (turns_rise _).bind fun _ => turns_rise _

theorem applies_createPage (e : Env) (f : PageForm) : Applies (AdminPage.create e f) := by
  have hinsert (authorId openStatus : Int) :
      Applies (exec (Db.insertPage authorId f.title.value f.content.value openStatus)) :=
    Applies.exec fun _ _ hd => .createPage authorId _ _ openStatus hd
  exact .ite ((Idle.setRedirectHeader _).bind fun _ => .ret _) <|
    (Idle.sessionGetInt _).bind fun _ => (hinsert _ _).bind fun _ =>
    Prog.Within.bind (.ite (turns_rise _) (.ret _)) fun _ => (Idle.query _).bind fun _ =>
    .ite ((Idle.setRedirectHeader _).bind fun _ => .ret _)
      (.ite (.ret _) ((Idle.setRedirectHeader _).bind fun _ => .ret _))

theorem applies_savePage (e : Env) (id : Int) (isOpen : Bool) (f : PageForm) :
    Applies (AdminPage.save e id isOpen f) :=
  .ite ((Applies.execTotal fun _ => .removePage id).bind fun _ =>
      Prog.Within.bind (.ite (turns_risePage _) (.ret _)) fun _ => (Idle.setRedirectHeader _).bind fun _ => .ret _) <|
    (Applies.execTotal fun _ => .savePage id _ _ _).bind fun _ =>
    Prog.Within.bind (.ite (turns_risePage _) (.ret _)) fun _ =>
    .ite ((Idle.setRedirectHeader _).bind fun _ => .ret _) (.ret _)

theorem applies_adminPageShared (e : Env) (id : Int) : Applies (AdminPage.prepareShared e id) := by
  have hread (isPost : Bool) : Applies (AdminPage.readPage isPost id) := by
    refine (Idle.query _).bind fun r => ?_
    split
    · exact (Idle.makeErrorResponse _).bind fun _ => .ret _
    · exact .ret _
  refine Prog.Within.bind (.ite (hread _) (.ret _)) fun r => ?_
  split
  · exact .ret _
  · refine .ite ((Idle.loadForm e _).bind fun _ => .ite ?_ (readOnly_pageEditor e _ _ _))
      (readOnly_pageEditor e _ _ _)
    refine Prog.Within.bind (.ite (applies_createPage e _) (applies_savePage e _ _ _)) fun r => ?_
    split
    · exact .ret _
    · exact readOnly_pageEditor e _ _ _

/-- A comment goes together with its share of the counter. -/
theorem applies_commentSaveBlock (id : Int) (f : AdminCommentForm) :
    Applies (AdminComment.saveBlock id f) := by
  refine Steadfast.transaction fun d => .query ?_
  cases hc : (d.selectComment id).map Comment.postId with
  | none => exact .stop ((Idle.makeErrorResponse _).bind fun _ => .ret _)
  | some postId =>
      cases he : f.erase
      · exact .execTotal <| .skip (turns_rise _) fun _ => .skip (turns_rise _) fun _ =>
          .change (.editComment id _ _ _ _) (.ret _)
      · simp only [if_true, Prog.bind_assoc]
        exact .execTotal <| .execTotal <| .skip (turns_rise _) fun _ => .skip (turns_rise _) fun _ =>
          .change (.eraseComment id postId hc) (.ret _)

theorem applies_adminComment (e : Env) (sid : String) : Applies (AdminComment.prepare e sid) := by
  refine .ite ((Idle.loadForm e _).bind fun _ => .ite ?_ (readOnly_commentEditor e _ _ _))
    ((Idle.query _).bind fun r => ?_)
  · refine (applies_commentSaveBlock _ _).bind fun r => ?_
    split
    · exact .ret _
    · exact Idle.setRedirectHeader _
  · split
    · exact Idle.makeErrorResponse _
    · exact readOnly_commentEditor e _ _ _

theorem turns_riseCat {C : Db → Db → Prop} {R : Stand → Stand → Prop} [IsPreorder Stand R] (id : Int) :
    (Categories.riseCat id).Within (turns C) R := (turns_rise _).bind fun _ => turns_rise _

theorem applies_createCat (f : CatsForm) : Applies (Categories.create f) :=
  Steadfast.transaction fun _ => .exec fun _ hc => .change (.createCat _ hc) (turns_rise _)

theorem applies_removeCat (id : Int) (f : CatsForm) : Applies (Categories.remove id f) := by
  refine Steadfast.transaction fun d => .query ?_
  cases hp : d.selectPostInCat id with
  | none => exact .execTotal <| .change (.removeEmptyCat id hp) ((turns_riseCat id).bind fun _ => .ret _)
  | some postId =>
      cases f.cascade
      · exact .stop (.ret _)
      · exact .execTotal <| .execTotal <| .change (.removeCat id) ((turns_riseCat id).bind fun _ => .ret _)

theorem applies_renameCat (id : Int) (f : CatsForm) : Applies (Categories.rename id f) :=
  Steadfast.transaction fun _ => .execTotal <| .change (.renameCat id _) (turns_riseCat id)

theorem applies_categories (e : Env) : Applies (Categories.prepare e) := by
  refine Prog.Within.bind (.ite ?_ (.ret _)) fun _ => readOnly_adminPrepare.bind fun _ =>
    (Idle.query _).bind fun _ => readOnly_renderAdmin e _ _ _
  exact (Idle.loadForm e _).bind fun _ => .ite (.ret _) <|
    .ite ((applies_createCat _).bind fun _ => .ret _) <|
    .ite (applies_removeCat _ _) ((applies_renameCat _ _).bind fun _ => .ret _)

theorem applies_options (e : Env) : Applies (Options.prepare e) :=
  .ite ((Idle.loadForm e _).bind fun _ =>
    .ite ((applies_optionsStore _).bind fun _ => readOnly_adminPage e _ _) (readOnly_adminPage e _ _))
    (readOnly_adminPage e _ _)

theorem applies_tryStore (e : Env) {statement : Db → Except SqlError Db}
    (h : ∀ d d', statement d = .ok d' → Change d d') : Applies (Users.tryStore e statement) := by
  refine Prog.Within.tryCatch ?_ fun err => ?_
  · exact (Steadfast.transaction fun d => .exec fun d' hd => .changeLast (h d d' hd)).bind fun _ =>
      (Idle.setRedirectHeader _).bind fun _ => .ret _
  · split
    · exact .ret _
    · exact .throw _

theorem applies_usersAdd (e : Env) : Applies (Users.add e) :=
  .ite ((Idle.loadForm e _).bind fun _ =>
    .ite ((applies_tryStore e fun _ _ h => .createUser _ _ h).bind fun _ => .ite (.ret _) (readOnly_adminPage e _ _))
      (readOnly_adminPage e _ _)) (readOnly_adminPage e _ _)

theorem applies_usersEdit (e : Env) (sid : String) : Applies (Users.edit e sid) := by
  refine .ite (Idle.makeErrorResponse _) ((Idle.query _).bind fun r => ?_)
  split
  · exact Idle.makeErrorResponse _
  · have hstore (username password : String) :
        Applies (Users.tryStore e (Db.updateUser (Text.atoi sid) username password)) :=
      applies_tryStore e fun _ _ h => .saveUser _ _ _ h
    exact .ite ((Idle.loadForm e _).bind fun _ =>
      .ite ((hstore _ _).bind fun _ => .ite (.ret _) (readOnly_adminPage e _ _)) (readOnly_adminPage e _ _))
      (readOnly_adminPage e _ _)

theorem applies_usersDel (e : Env) (sid : String) : Applies (Users.del e sid) := by
  have hdelete (id : Int) : Applies (transaction ((execTotal (Db.deleteUser id)).bind fun _ => commit)) :=
    Steadfast.transaction fun _ => .execTotal <| .changeLast (.removeUser id)
  exact Prog.Within.bind (.ite (.ret _) ((Idle.sessionGetInt _).bind fun _ => .ret _)) fun _ =>
    .ite (Idle.makeErrorResponse _) ((hdelete _).bind fun _ => Idle.setRedirectHeader _)

/-! ### Dispatching -/

theorem AdminDestination.applies {e : Env} {p : App Unit} (h : AdminDestination e p) : Applies p := by
  cases h with
  | notFound => exact Idle.makeErrorResponse _
  | caching => exact within_caching e fun _ => turns_cache _
  | categories => exact applies_categories e
  | options => exact applies_options e
  | comment sid => exact applies_adminComment e sid
  | post sid => exact .ite (Idle.makeErrorResponse _) (applies_prepareShared e _)
  | newPost _ => exact applies_prepareShared e 0
  | page sid => exact .ite (Idle.makeErrorResponse _) (applies_adminPageShared e _)
  | newPage => exact applies_adminPageShared e 0
  | users page => exact readOnly_usersList e page
  | userAdd => exact applies_usersAdd e
  | userDel sid => exact applies_usersDel e sid
  | userEdit sid => exact applies_usersEdit e sid
  | login => exact readOnly_login e
  | upload =>
      exact within_upload_of e OnFiles.turned readOnly_adminPrepare fun _ _ =>
        (Idle.setHeader _ _).bind fun _ => Idle.write _
  | summary page => exact readOnly_adminSummary e page

-- A dispatcher is what its rules say; unfolding it would evaluate expressions.
attribute [local irreducible] dispatch

theorem applies_configRoutes (e : Env) (path : String) : Applies (dispatch (configRoutes e) path) :=
  within_dispatch_pair (fun _ => within_configure e applies_configStore) (fun _ => within_configVersion e) _

theorem applies_adminMaster {e : Env} {path : String} (hpath : adminPath e = some path) :
    Applies (adminMaster e path) :=
  (Idle.getOwn _).bind fun _ => .ite (AdminDestination.admin hpath).applies (Idle.setRedirectHeader _)

theorem applies_selectLanguage (e : Env) : Applies (selectLanguage e) :=
  (Idle.modifyOwn _).bind fun _ => (Idle.getOwn _).bind fun _ =>
  Prog.Within.bind (.ite ((Idle.sessionGetInt _).bind fun _ => .ret _) (.ret _)) fun _ =>
  .ite (.ret _) ((Idle.modifyOwn _).bind fun _ => turns_cache _)

theorem applies_main (e : Env) : Applies (main e) := by
  have hsite : Applies (dispatch (siteRoutes e) (routedPath e)) := by
    rcases (Destination.site e).within_or (M := turns Applied) (R := Stand.Steady)
      with h | ⟨path, -, hp⟩ | ⟨path, hpath, hp⟩ | ⟨sid, -, hp⟩
    · exact h
    · rw [hp]
      exact applies_configRoutes e path
    · rw [hp]
      exact applies_adminMaster hpath
    · rw [hp]
      exact applies_postback e sid
  exact (applies_selectLanguage e).bind fun _ => within_answerErrors e hsite

/-! ## All requests together -/

/-- The handler of a request, before its first step. -/
def Site.accept (site : Site) (a : Arrival) (session : Session) : Local × App Unit :=
  ({ own := Own.load session, faults := a.chance.faults }, main (site.env a))

/-- The program is at its end. -/
def AtEnd : App Unit → Prop
  | .op _ _ => False
  | _ => True

/-- The requests in progress on a server, before their first steps. -/
def Site.pool (site : Site) (s : Shared) (requests : List (Arrival × Session)) : Pool Sig Error Unit Shared Local where
  shared := s
  threads := requests.map fun x => site.accept x.1 x.2

/-- Every request keeps its promise until its end, and then holds no transaction open. -/
theorem safe_pool {waits : ∀ {β : Type}, Sig β → List Local → Bool} {I : Db → Prop} {K : Db → Db → Prop}
    (h : Tolerates Applied waits I K) (site : Site) {s : Shared} (hs : I s.db) (requests : List (Arrival × Session))
    (schedule : List Nat) :
    ((site.pool s requests).run handle waits schedule).Safe (turns Applied) (· = .outside) (fun s => I s.db)
      (Local.At K) := by
  have hstart : (site.pool s requests).Safe (turns Applied) (· = .outside) (fun s => I s.db) (Local.At K) := by
    refine ⟨hs, fun x hx => ⟨.outside, ?_⟩⟩
    obtain ⟨⟨a, session⟩, -, rfl⟩ := List.mem_map.1 hx
    exact ⟨.outside rfl, (applies_main _).wp (fun _ _ h => h rfl) (fun _ _ h => h rfl)⟩
  exact hstart.run turns_strict (turns_covers h) (fun t (ht : t = .outside) => ht ▸ Stand.noConfusion)
    schedule

end CppBlog
