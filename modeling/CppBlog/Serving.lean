import CppBlog.Invalidation

set_option autoImplicit false

/-! # Handlers that write

Every handler that writes is followed around the step it commits, and every request to the handler it
reaches. Whatever the handler, the tables are left as `Reached` says, and what is cached then is as the
family says for them (`Serves`). -/

namespace CppBlog

open Effect Store App

variable {α β : Type} {e : Env} {S : Family} {O : Output → Prop} {locale : Nat} {d : Db} {s : St}

/-- A handler is served. -/
abbrev Serves (S : Family) (O : Output → Prop) (locale : Nat) (e : Env) (d : Db) (p : App α) (s : St) :
    Prop :=
  p.wp calls (fun _ => Served S O locale e d s) (fun _ => Served S O locale e d s) s

/-! ## Comments -/

theorem aside_checkCaptcha (f : CommentForm) : (Post.checkCaptcha f).Within calls Aside :=
  (Aside.getOwn _).bind fun _ => .ite (Aside.sessionClear.bind fun _ => .ret _)
    ((Aside.sessionSet _ _).bind fun _ => .ret _)

theorem aside_validate (e : Env) (form : CommentForm) : (Post.validate e form).Within calls Aside :=
  .ite (.ret _) <| (Aside.getOwn _).bind fun _ => .ite (.ret _) <|
    (Aside.getOwn _).bind fun _ => .ite (.ret _) <| (Aside.getOwn _).bind fun _ =>
    Prog.Within.bind (.ite (aside_checkCaptcha _) (.ret _)) fun _ => .ret _

theorem tracks_signature (e : Env) (f : CommentForm) : Tracks [] (Post.signature e f) := by
  refine ((Tracks.getOwn _).bind (u := []) fun isUser => ?_).congr rfl
  split
  · exact ((Tracks.sessionGet _).bind fun _ => .ret _).congr rfl
  · exact .ret _

theorem serves_postbackBlock {sid : String} (hroute : routedToPostback e = some sid) (f : CommentForm)
    (h : Serving S O locale e d s) :
    Serves S O locale e d (Post.postbackBlock e (Text.atoi sid) f) s := by
  have hrefuse : Ending O [] ((makeErrorResponse 404).bind fun _ => (.ret none : App (Option String))) :=
    (Ending.makeErrorResponse (h.closed_self.displays _ (.error 404))).bind fun _ => .ret _
  refine h.transaction (.query ?_)
  cases hd : d.selectPostIsOpen (Text.atoi sid) with
  | none => exact .stop hrefuse
  | some isOpen =>
    dsimp only
    split_ifs with hopen hsend
    · exact .stop hrefuse
    · refine .skip (idle_signature e f) (tracks_signature e f) fun x => .exec fun m hm => .execTotal <|
        .rise <| .rise <| .commit ?_ ((Ending.setRedirectHeader _).bind fun _ => .ret _)
      exact .comment hroute hd hopen hm
    · exact .stop (.ret _)

theorem serves_postback {sid : String} (hroute : routedToPostback e = some sid)
    (h : Serving S O locale e d s) : Serves S O locale e d (Post.postback e sid) s := by
  unfold Post.postback
  split
  · exact h.answers (Answers.makeErrorResponse h.closed_self)
  refine h.loadForm fun s₁ h₁ => ?_
  refine h₁.prelude (aside_validate e _) fun v s₂ h₂ => ?_
  have hblock : Serves S O locale e d
      (if v.1 then Post.postbackBlock e (Text.atoi sid) v.2 else .ret (some "")) s₂ := by
    split
    · exact serves_postbackBlock hroute v.2 h₂
    · exact h₂.self
  refine Serving.andThen hblock fun r d' hd' => ?_
  have hclosed := h.closed d' hd'
  split
  · exact .ret _
  · refine (answers_prepareContent hclosed (hd'.versioned h.versioned) sid false).bind fun c => ?_
    split
    · exact .ret _
    · exact answers_postRender hclosed _ _ _

theorem serves_commentSaveBlock (id : Int) (f : AdminCommentForm) (h : Serving S O locale e d s) :
    Serves S O locale e d (AdminComment.saveBlock id f) s := by
  refine h.transaction (.query ?_)
  cases hc : (d.selectComment id).map Comment.postId with
  | none =>
    exact .stop ((Ending.makeErrorResponse (h.closed_self.displays _ (.error 404))).bind fun _ => .ret _)
  | some postId =>
    cases he : f.erase
    · refine .seq (.execTotal _) (.execTotal _) fun _ _ hd => .rise <| .rise <| .commit ?_ (.ret _)
      rw [hd]
      exact .editComment _ _ _ _ hc
    · have herase : InTx (fun d _ d' => d' = (d.deleteComment id).updateCommentCount postId)
          ((execTotal (Db.deleteComment id)).bind fun _ =>
            execTotal (Db.updateCommentCount postId)) := by
        refine (InTx.execTotal _).bind fun _ => (InTx.execTotal _).mono fun d _ d' h d₀ h₀ => ?_
        rw [h, h₀]
      refine .seq herase ((Tracks.execTotal _).bind fun _ => .execTotal _) fun _ _ hd => .rise <|
        .rise <| .commit ?_ (.ret _)
      rw [hd]
      exact .eraseComment hc

theorem serves_adminComment (sid : String) (h : Serving S O locale e d s) :
    Serves S O locale e d (AdminComment.prepare e sid) s := by
  have hshow (postId : Int) (f : AdminCommentForm) : (AdminComment.render e (Text.atoi sid) postId f).Within
      calls (Answers S O locale d) := answers_adminPage h.closed_self h.versioned _ _
  unfold AdminComment.prepare
  dsimp only
  split
  · refine h.loadForm fun s₁ h₁ => ?_
    split
    · refine Serving.andThen (serves_commentSaveBlock _ _ h₁) fun r d' _ => ?_
      split
      · exact .ret _
      · exact Answers.setRedirectHeader _
    · exact h₁.answers (hshow _ _)
  · refine h.answers ((Answers.query _).bind fun r => ?_)
    split
    · exact Answers.makeErrorResponse h.closed_self
    · exact hshow _ _

/-! ## Categories and options -/

theorem serves_createCat {f : CatsForm} (hroute : routedToCategories e = true)
    (hpost : e.req.method = "POST") (hf : f = (CatsForm.load {} e.req.postOrGet).validate)
    (hvalid : f.valid = true) (hid : f.id.value.isEmpty = true) (h : Serving S O locale e d s) :
    Serves S O locale e d (Categories.create f) s :=
  h.transaction (.exec fun _ hd => .commit (.createCat hroute hpost hf hvalid hid hd) (.rise _))

theorem serves_removeCat (id : Int) (f : CatsForm) (h : Serving S O locale e d s) :
    Serves S O locale e d (Categories.remove id f) s := by
  have hend : Ending O ["cats", catKey id] ((Categories.riseCat id).bind fun _ => (.ret "" : App String)) :=
    (Ending.riseCat id).bind fun _ => .ret _
  refine h.transaction (.query ?_)
  cases hp : d.selectPostInCat id with
  | none => exact .execTotal <| .commit (.removeEmptyCat hp) hend
  | some postId =>
    cases f.cascade
    · exact .stop (.ret _)
    · exact .execTotal <| .execTotal <| .commit .removeCat hend

theorem serves_renameCat {f : CatsForm} (hf : f = (CatsForm.load {} e.req.postOrGet).validate)
    (hvalid : f.valid = true) (h : Serving S O locale e d s) :
    Serves S O locale e d (Categories.rename (Text.atoi f.id.value) f) s :=
  h.transaction (.execTotal <| .commit (.renameCat hf hvalid) (Ending.riseCat _))

theorem serves_categoriesSubmit (hroute : routedToCategories e = true) (hpost : e.req.method = "POST")
    (h : Serving S O locale e d s) : Serves S O locale e d (Categories.submit e) s := by
  refine h.loadForm fun s₁ h₁ => ?_
  dsimp only
  split
  · exact h₁.self
  rename_i hvalid
  have hvalid : (CatsForm.load {} e.req.postOrGet).validate.valid = true := by simpa using hvalid
  split
  · rename_i hid
    exact Serving.andThen (serves_createCat hroute hpost rfl hvalid hid h₁) fun _ _ _ => .ret _
  split
  · exact serves_removeCat _ _ h₁
  · exact Serving.andThen (serves_renameCat rfl hvalid h₁) fun _ _ _ => .ret _

theorem serves_categories (hroute : routedToCategories e = true) (h : Serving S O locale e d s) :
    Serves S O locale e d (Categories.prepare e) s := by
  have hsubmit : Serves S O locale e d
      (if e.req.method = "POST" then Categories.submit e else .ret "") s := by
    split
    · rename_i hpost
      exact serves_categoriesSubmit hroute hpost h
    · exact h.self
  refine Serving.andThen hsubmit fun _ d' hd' => ?_
  have hclosed := h.closed d' hd'
  exact (answers_adminPrepare hclosed (hd'.versioned h.versioned)).bind fun _ =>
    (Answers.query _).bind fun _ => answers_renderAdmin hclosed _ _ _

theorem serves_optionsStore (f : OptionsForm) (h : Serving S O locale e d s) :
    Serves S O locale e d (Options.store f) s := by
  refine h.transaction <| .execTotal <| .exec fun d₁ h₁ => .exec fun d₂ h₂ => .exec fun d₃ h₃ =>
    .exec fun d₄ h₄ => .rise <| .commitLast ?_
  refine .storeOptions f ?_
  simp only [Db.storeOptions, Db.insertOptions, Except.bind, h₁, h₂, h₃, h₄]

theorem serves_options (h : Serving S O locale e d s) :
    Serves S O locale e d (Options.prepare e) s := by
  have hshow (d' : Db) (hd' : Reached e d d') (view : AdminContent → AdminView) :
      (adminPrepare.bind fun c => renderAdmin e c "options" (view c)).Within calls
        (Answers S O locale d') :=
    answers_adminPage (h.closed d' hd') (hd'.versioned h.versioned) _ _
  unfold Options.prepare
  split
  · refine h.loadForm fun s₁ h₁ => ?_
    dsimp only
    split
    · exact Serving.andThen (serves_optionsStore _ h₁) fun _ d' hd' => hshow d' hd' _
    · exact h₁.answers (hshow d (.inl rfl) _)
  · exact h.answers (hshow d (.inl rfl) _)

/-! ## The post editor -/

theorem tracks_addToCats (id : Int) (now : Tm) (openStatus : Int) (boxes : List CatBox) :
    Tracks (tickedTriggers boxes) (AdminPost.addToCats id now openStatus boxes) := by
  refine Tracks.each (fun cb => ?_) boxes
  cases cb.value
  · exact .ret ()
  · exact ((Tracks.exec _).bind fun _ => .rise _).congr rfl

theorem tracks_delFromCats (id : Int) (changeStatus : Bool) (boxes : List CatBox) :
    Tracks (delTriggers changeStatus boxes) (AdminPost.delFromCats id changeStatus boxes) := by
  refine Tracks.each (fun cb => ?_) boxes
  have hdelete : Tracks [] (if !cb.value then .ret ()
      else execTotal (Db.deletePost2Cat id (Text.atoi cb.identification))) := by
    split
    · exact .ret ()
    · exact .execTotal _
  refine (Tracks.bind (.ite (.rise ("cat_" ++ cb.identification)) (.ret ())) fun _ => hdelete).congr ?_
  exact List.append_nil _

theorem tracks_updateRow (id : Int) (f : PostForm) (openStatus : Int) :
    Tracks [] (AdminPost.updateRow e id f openStatus) := by
  unfold AdminPost.updateRow
  split
  · exact ((Tracks.execTotal _).bind fun _ => ((Tracks.execTotal _).bind fun _ => .ret _)).congr rfl
  · refine ((Tracks.execTotal _).bind fun _ =>
      ((Tracks.query _).bind (u := []) fun publish => ?_)).congr rfl
    cases publish with
    | none => exact .throw _ _
    | some publish =>
      have hopen : Tracks []
          (if f.changeStatus then execTotal (Db.updatePost2CatOpen id openStatus) else .ret ()) := by
        split
        · exact .execTotal _
        · exact .ret ()
      exact (hopen.bind fun _ => .ret _).congr rfl

theorem serves_createBlock {f : PostForm} (hroute : routedToNewPost e = true) (hf : d.OffersAll f)
    (h : Serving S O locale e d s) :
    Serves S O locale e d
      (AdminPost.createBlock e f (AdminPost.openStatus false f.changeStatus)) s := by
  refine h.transaction <| .skip (Idle.sessionGetInt _) (Tracks.sessionGetInt _) fun authorId =>
    .exec fun d₁ h₁ => .query <| .seq (inTx_addToCats _ _ _ _) (tracks_addToCats _ _ _ _) fun _ d₂ h₂ =>
    .riseIf <| .commit ?_ (.ret _)
  have hstep : Invalidates e d (createTriggers f) d₂ := by
    refine .createPost authorId f hroute hf ?_
    simp only [Db.createPost, Except.bind, h₁, h₂]
  have htriggers : (([] ++ tickedTriggers f.addToCatList) ++
      if AdminPost.openStatus false f.changeStatus ≠ 0 then ["cat_0"] else []) ++ [] =
        createTriggers f := by
    cases hs : f.changeStatus <;> simp [createTriggers, AdminPost.openStatus, hs]
  exact htriggers ▸ hstep

theorem serves_create {f : PostForm} (hroute : routedToNewPost e = true) (hf : d.OffersAll f)
    (h : Serving S O locale e d s) :
    Serves S O locale e d (AdminPost.create e f) s := by
  have hstatus : AdminPost.openStatus false f.changeStatus = if f.changeStatus then 1 else 0 := by
    simp [AdminPost.openStatus]
  unfold AdminPost.create
  split
  · exact h.answers ((Answers.setRedirectHeader _).bind fun _ => .ret _)
  · rw [← hstatus]
    refine Serving.andThen (serves_createBlock hroute hf h) fun id _ _ => .ite (.ret _) ?_
    exact (Answers.setRedirectHeader _).bind fun _ => .ret _

section
variable {sid : String} {isOpen : Int} {f : PostForm}

theorem serves_removeBlock (hroute : routedToEditor e = some sid) (hpost : e.req.method = "POST")
    (hopen : d.selectPostIsOpen (Text.atoi sid) = some isOpen)
    (hremove : (AdminPost.submission e.req.postOrGet d (Text.atoi sid)).remove = true)
    (h : Serving S O locale e d s) :
    Serves S O locale e d (AdminPost.removeBlock (Text.atoi sid)) s :=
  h.transaction <| .execTotal <| .execTotal <| .execTotal <| .rise <| .rise <|
    .commitLast (.removePost hroute hpost hopen hremove)

theorem serves_saveBlock (hroute : routedToEditor e = some sid) (hpost : e.req.method = "POST")
    (hopen : d.selectPostIsOpen (Text.atoi sid) = some isOpen)
    (hf : f = AdminPost.submission e.req.postOrGet d (Text.atoi sid)) (hvalid : f.valid = true)
    (hremove : f.remove = false) (h : Serving S O locale e d s) :
    Serves S O locale e d (AdminPost.saveBlock e (Text.atoi sid) f
      (AdminPost.openStatus (isOpen ≠ 0) f.changeStatus)) s := by
  refine h.transaction <| .seq (inTx_updateRow _ _ _ _) (tracks_updateRow _ _ _) fun now d₁ h₁ =>
    .riseIf <| .rise <| .seq (inTx_addToCats _ _ _ _) (tracks_addToCats _ _ _ _) fun _ d₂ h₂ =>
    .seq (inTx_delFromCats _ _ _) (tracks_delFromCats _ _ _) fun _ d₃ h₃ => .commitLast ?_
  have hstep : Invalidates e d (saveTriggers (Text.atoi sid) f) d₃ := by
    refine .savePost hroute hpost hopen hf hvalid hremove ?_
    simp only [Db.savePost, Except.bind, h₁, h₂, h₃]
  have htriggers : (((([] ++ []) ++ if f.changeStatus = true then ["cat_0"] else []) ++
      [postKey (Text.atoi sid)]) ++ tickedTriggers f.addToCatList) ++
        delTriggers f.changeStatus f.delFromCatList = saveTriggers (Text.atoi sid) f := by
    simp [saveTriggers]
  exact htriggers ▸ hstep

theorem serves_save (hroute : routedToEditor e = some sid) (hpost : e.req.method = "POST")
    (hopen : d.selectPostIsOpen (Text.atoi sid) = some isOpen)
    (hf : f = AdminPost.submission e.req.postOrGet d (Text.atoi sid)) (hvalid : f.valid = true)
    (h : Serving S O locale e d s) :
    Serves S O locale e d (AdminPost.save e (Text.atoi sid) (isOpen ≠ 0) f) s := by
  unfold AdminPost.save
  split
  · rename_i hremove
    refine Serving.andThen (serves_removeBlock hroute hpost hopen (hf ▸ hremove) h) fun _ _ _ => ?_
    exact (Answers.setRedirectHeader _).bind fun _ => .ret _
  · rename_i hremove
    have hremove : f.remove = false := by simpa using hremove
    refine Serving.andThen (serves_saveBlock hroute hpost hopen hf hvalid hremove h) fun _ _ _ => ?_
    exact Prog.Within.bind (.ite (Answers.setRedirectHeader _) (.ret _)) fun _ => .ret _

/-- The form the editor of a post gets on a `POST`, followed by what is done with it. -/
theorem serves_editorForm {id : Int} (hid : id ≠ 0) {k : Bool → PostForm → App Unit}
    (h : Serving S O locale e d s)
    (hk : ∀ o, d.selectPostIsOpen id = some o → ∀ s', Serving S O locale e d s' →
      Serves S O locale e d (k (o ≠ 0) (AdminPost.emptyForm d id)) s') :
    Serves S O locale e d
      ((if id ≠ 0 then AdminPost.readPost true id else .ret (some (false, {}))).bind fun r =>
        match r with
        | none => .ret ()
        | some (isOpen, form) => (AdminPost.readCats form).bind fun form => k isOpen form) s := by
  rw [if_pos hid, Serves, AdminPost.readPost, AdminPost.readStatus, if_pos rfl, Prog.bind_assoc,
    Prog.wp_bind, wp_query, h.current]
  refine ⟨?_, h.self⟩
  cases ho : d.selectPostIsOpen id with
  | none =>
    rw [Option.map_none]
    dsimp only
    rw [Prog.bind_assoc]
    exact h.answers ((Answers.makeErrorResponse h.closed_self).bind fun _ => .ret _)
  | some o =>
    rw [Option.map_some]
    dsimp only
    rw [Prog.bind_assoc, Prog.wp_bind, wp_query, h.current, Prog.ret_bind]
    dsimp only
    rw [AdminPost.readCats, Prog.bind_assoc, Prog.wp_bind, wp_query, h.current, Prog.ret_bind]
    exact ⟨⟨hk o ho s h, h.self⟩, h.self⟩

theorem serves_editPost (hroute : routedToEditor e = some sid) (hpost : e.req.method = "POST")
    (hopen : d.selectPostIsOpen (Text.atoi sid) = some isOpen) (hid : Text.atoi sid ≠ 0)
    (h : Serving S O locale e d s) :
    Serves S O locale e d (AdminPost.edit e (Text.atoi sid) (isOpen ≠ 0)
      (AdminPost.emptyForm d (Text.atoi sid))) s := by
  have hshow (d' : Db) (hd' : Reached e d d') (id : Int) (f : PostForm) :
      (AdminPost.render e id (isOpen ≠ 0) f).Within calls (Answers S O locale d') :=
    answers_adminPage (h.closed d' hd') (hd'.versioned h.versioned) _ _
  rw [AdminPost.edit, if_pos hpost]
  refine h.loadForm fun s₁ h₁ => ?_
  simp only [if_neg hid]
  split
  · rename_i hvalid
    refine Serving.andThen (serves_save hroute hpost hopen rfl hvalid h₁) fun r d' hd' => ?_
    split
    · exact .ret _
    · exact hshow d' hd' _ _
  · exact h₁.answers (hshow d (.inl rfl) _ _)

end

theorem serves_editNewPost {form : PostForm} (hroute : routedToNewPost e = true) (hform : d.OffersAll form)
    (h : Serving S O locale e d s) : Serves S O locale e d (AdminPost.edit e 0 false form) s := by
  have hshow (d' : Db) (hd' : Reached e d d') (id : Int) (f : PostForm) :
      (AdminPost.render e id false f).Within calls (Answers S O locale d') :=
    answers_adminPage (h.closed d' hd') (hd'.versioned h.versioned) _ _
  unfold AdminPost.edit
  split
  · refine h.loadForm fun s₁ h₁ => ?_
    dsimp only
    split
    · rw [if_pos rfl]
      refine Serving.andThen (serves_create hroute (hform.load _) h₁) fun r d' hd' => ?_
      split
      · exact .ret _
      · exact hshow d' hd' _ _
    · exact h₁.answers (hshow d (.inl rfl) _ _)
  · exact h.answers (hshow d (.inl rfl) _ _)

theorem serves_newPost (hroute : routedToNewPost e = true) (h : Serving S O locale e d s) :
    Serves S O locale e d (AdminPost.prepareShared e 0) s := by
  rw [Serves, AdminPost.prepareShared, if_neg (by simp), Prog.ret_bind]
  dsimp only
  rw [AdminPost.readCats, Prog.bind_assoc, Prog.wp_bind, wp_query, h.current, Prog.ret_bind]
  refine ⟨serves_editNewPost hroute ?_ h, h.self⟩
  have hall : (d.selectCats.map AdminPost.catBox).filter
      (fun b => AdminPost.notAmong [] b.identification) = d.selectCats.map AdminPost.catBox :=
    List.filter_eq_self.2 fun b _ => by simp [AdminPost.notAmong]
  exact (congrArg _ hall).trans (catBox_identification _)

theorem serves_adminPost {sid : String} (hroute : routedToEditor e = some sid)
    (h : Serving S O locale e d s) : Serves S O locale e d (AdminPost.prepare e sid) s := by
  unfold AdminPost.prepare
  dsimp only
  split
  · exact h.answers (Answers.makeErrorResponse h.closed_self)
  rename_i hid
  by_cases hpost : e.req.method = "POST"
  · rw [AdminPost.prepareShared, decide_eq_true hpost]
    exact serves_editorForm hid h fun o ho s' h' => serves_editPost hroute hpost ho hid h'
  · refine h.answers ?_
    have hstatus (isPost : Bool) (id : Int) :
        (AdminPost.readStatus isPost id).Within calls (Answers S O locale d) :=
      .ite (Answers.query _) (Answers.query _)
    have hread : (AdminPost.readPost (e.req.method = "POST") (Text.atoi sid)).Within calls
        (Answers S O locale d) := by
      refine (hstatus _ _).bind fun r => ?_
      split
      · exact (Answers.makeErrorResponse h.closed_self).bind fun _ => .ret _
      · exact (Answers.query _).bind fun _ => .ret _
    refine Prog.Within.bind (.ite hread (.ret _)) fun r => ?_
    split
    · exact .ret _
    · refine ((Answers.query _).bind fun _ => .ret _).bind fun form => ?_
      rw [AdminPost.edit, if_neg hpost]
      exact answers_adminPage h.closed_self h.versioned _ _

/-! ## The page editor -/

theorem serves_createPage (f : PageForm) (h : Serving S O locale e d s) :
    Serves S O locale e d (AdminPage.create e f) s := by
  unfold AdminPage.create
  dsimp only
  split
  · exact h.answers ((Answers.setRedirectHeader _).bind fun _ => .ret _)
  have hstatus : (if f.changeStatus = true then 1 else 0 : Int) = AdminPost.openStatus false f.changeStatus := by
    simp [AdminPost.openStatus]
  refine h.prelude (Aside.sessionGetInt _) fun authorId s₁ h₁ => ?_
  refine h₁.exec (fun d' hd' => ?_) (.ite (.rise "pages") (.ret ())) fun _ d' _ => ?_
  · have htriggers : (if (decide ((if f.changeStatus = true then 1 else 0 : Int) ≠ 0) ||
        f.changeStatus) = true then ["pages"] else []) = if f.changeStatus then ["pages"] else [] := by
      cases f.changeStatus <;> rfl
    rw [htriggers]
    rw [hstatus] at hd'
    exact .createPage authorId _ _ _ hd'
  · refine (Answers.query _).bind fun _ => .ite ((Answers.setRedirectHeader _).bind fun _ => .ret _) ?_
    exact .ite (.ret _) ((Answers.setRedirectHeader _).bind fun _ => .ret _)

theorem serves_savePage {id : Int} {p : Page} (hpage : d.selectPage id = some p) (f : PageForm)
    (h : Serving S O locale e d s) :
    Serves S O locale e d (AdminPage.save e id (p.isOpen ≠ 0) f) s := by
  have hrise (c : Bool) : Ending O (pageTriggers c id)
      (if c = true then AdminPage.risePage id else .ret ()) := .ite (.risePage id) (.ret ())
  unfold AdminPage.save
  dsimp only
  split
  · refine h.exec (fun d' hd' => ?_) (hrise _) fun _ d' _ =>
      (Answers.setRedirectHeader _).bind fun _ => .ret _
    obtain rfl := Except.ok.inj hd'
    exact .removePage hpage
  · refine h.exec (fun d' hd' => ?_) (hrise _) fun _ d' _ => ?_
    · obtain rfl := Except.ok.inj hd'
      exact .savePage _ _ _ hpage
    · exact .ite ((Answers.setRedirectHeader _).bind fun _ => .ret _) (.ret _)

/-- The editor of a page, from its status and its form on. -/
theorem serves_editPage {id : Int} {isOpen : Bool} (form : PageForm)
    (hsave : ∀ f s', Serving S O locale e d s' → Serves S O locale e d
      (if id = 0 then AdminPage.create e f else AdminPage.save e id isOpen f) s')
    (h : Serving S O locale e d s) : Serves S O locale e d (AdminPage.edit e id isOpen form) s := by
  have hshow (d' : Db) (hd' : Reached e d d') (id : Int) (f : PageForm) :
      (AdminPage.render e id isOpen f).Within calls (Answers S O locale d') :=
    answers_adminPage (h.closed d' hd') (hd'.versioned h.versioned) _ _
  unfold AdminPage.edit
  split
  · refine h.loadForm fun s₁ h₁ => ?_
    dsimp only
    split
    · refine Serving.andThen (hsave _ _ h₁) fun r d' hd' => ?_
      split
      · exact .ret _
      · exact hshow d' hd' _ _
    · exact h₁.answers (hshow d (.inl rfl) _ _)
  · exact h.answers (hshow d (.inl rfl) _ _)

theorem serves_newPage (h : Serving S O locale e d s) :
    Serves S O locale e d (AdminPage.prepareShared e 0) s := by
  rw [Serves, AdminPage.prepareShared, if_neg (by simp), Prog.ret_bind]
  refine serves_editPage _ (fun f s' h' => ?_) h
  rw [if_pos rfl]
  exact serves_createPage f h'

theorem serves_adminPage (sid : String) (h : Serving S O locale e d s) :
    Serves S O locale e d (AdminPage.prepare e sid) s := by
  unfold AdminPage.prepare
  dsimp only
  split
  · exact h.answers (Answers.makeErrorResponse h.closed_self)
  rename_i hid
  rw [Serves, AdminPage.prepareShared, if_pos hid, AdminPage.readPage, Prog.bind_assoc, Prog.wp_bind,
    wp_query, h.current]
  refine ⟨?_, h.self⟩
  cases hpage : d.selectPage (Text.atoi sid) with
  | none =>
    dsimp only
    rw [Prog.bind_assoc]
    exact h.answers ((Answers.makeErrorResponse h.closed_self).bind fun _ => .ret _)
  | some p =>
    dsimp only
    rw [Prog.ret_bind]
    refine serves_editPage _ (fun f s' h' => ?_) h
    rw [if_neg hid]
    exact serves_savePage hpage f h'

/-! ## Users and the configuration -/

theorem serves_tryStore {statement : Db → Except SqlError Db}
    (hstep : ∀ d', statement d = .ok d' → Invalidates e d [] d') (h : Serving S O locale e d s) :
    Serves S O locale e d (Users.tryStore e statement) s := by
  rw [Serves, Users.tryStore, Prog.wp_tryCatch]
  have hstore : Serves S O locale e d (transaction ((exec statement).bind fun _ => commit)) s :=
    h.transaction (.exec fun d' hd => .commitLast (hstep d' hd))
  refine Prog.wp_mono (fun _ _ h' => h') (fun err s' h' => ?_)
    (Serving.andThen hstore fun _ _ _ => (Answers.setRedirectHeader _).bind fun _ => .ret true)
  split
  · exact h'
  · exact h'

theorem serves_usersAdd (h : Serving S O locale e d s) : Serves S O locale e d (Users.add e) s := by
  have hshow (d' : Db) (hd' : Reached e d d') (f : UserForm) (duplicate : Bool) :
      (adminPrepare.bind fun c => renderAdmin e c "" (.userAdd f duplicate)).Within calls
        (Answers S O locale d') :=
    answers_adminPage (h.closed d' hd') (hd'.versioned h.versioned) _ _
  unfold Users.add
  dsimp only
  split
  · refine h.loadForm fun s₁ h₁ => ?_
    split
    · refine Serving.andThen (serves_tryStore (fun d' hd => .createUser _ _ hd) h₁) fun done d' hd' => ?_
      exact .ite (.ret _) (hshow d' hd' _ _)
    · exact h₁.answers (hshow d (.inl rfl) _ _)
  · exact h.answers (hshow d (.inl rfl) _ _)

theorem serves_usersEdit {sid : String} (hroute : routedToUserEdit e = some sid)
    (h : Serving S O locale e d s) : Serves S O locale e d (Users.edit e sid) s := by
  have hshow (d' : Db) (hd' : Reached e d d') (f : UserForm) (duplicate : Bool) :
      (adminPrepare.bind fun c => renderAdmin e c "" (.user (Text.atoi sid) f duplicate)).Within calls
        (Answers S O locale d') :=
    answers_adminPage (h.closed d' hd') (hd'.versioned h.versioned) _ _
  unfold Users.edit
  dsimp only
  split
  · exact h.answers (Answers.makeErrorResponse h.closed_self)
  refine h.prelude (Aside.query _) fun r s₁ h₁ => ?_
  split
  · exact h₁.answers (Answers.makeErrorResponse h₁.closed_self)
  split
  · refine h₁.loadForm fun s₂ h₂ => ?_
    split
    · refine Serving.andThen (serves_tryStore (fun d' hd => .saveUser hroute hd) h₂) fun done d' hd' => ?_
      exact .ite (.ret _) (hshow d' hd' _ _)
    · exact h₂.answers (hshow d (.inl rfl) _ _)
  · exact h₁.answers (hshow d (.inl rfl) _ _)

theorem serves_usersDel {sid : String} (hroute : routedToUserDel e = some sid)
    (h : Serving S O locale e d s) : Serves S O locale e d (Users.del e sid) s := by
  refine h.prelude (.ite (.ret _) ((Aside.sessionGetInt _).bind fun _ => .ret _)) fun refused s₁ h₁ => ?_
  split
  · exact h₁.answers (Answers.makeErrorResponse h₁.closed_self)
  · refine Serving.andThen (h₁.transaction (.execTotal <| .commitLast (.removeUser hroute))) fun _ d' _ => ?_
    exact Answers.setRedirectHeader _

theorem serves_configure (hroute : routedToConfig e = true) (h : Serving S O locale e d s) :
    Serves S O locale e d (Config.configure e) s := by
  have hstore (f : ConfigForm) {s' : St} (h' : Serving S O locale e d s') :
      Serves S O locale e d (Config.store f) s' := by
    refine h'.transaction <| .execTotal <| .exec fun d₁ h₁ => .exec fun d₂ h₂ => .exec fun d₃ h₃ =>
      .exec fun d₄ h₄ => .exec fun d₅ h₅ => .commitLast ?_
    refine .configure f hroute ?_
    simp only [Db.configure, Db.insertOptions, Except.bind, h₁, h₂, h₃, h₄, h₅]
  refine h.prelude (Aside.query _) fun r s₁ h₁ => ?_
  refine h₁.prelude (.ite (Aside.setRedirectHeader _) (.ret _)) fun _ s₂ h₂ => ?_
  unfold Config.submit
  split
  · refine h₂.loadForm fun s₃ h₃ => ?_
    split
    · refine Serving.andThen (hstore _ h₃) fun _ d' _ => Answers.setRedirectHeader _
    · exact h₃.answers (answers_configRender h₃.closed_self _)
  · exact h₂.answers (answers_configRender h₂.closed_self _)

/-! ## Every handler -/

/-- What an entry captures is a match of its expression. -/
theorem full_of_entry {routes : List Route} {i : Nat} {path : String} {caps : Text.Captures} {r : Route}
    (hr : routes[i]? = some r) (h : entry routes i path = some caps) :
    r.1.full path.toList = some caps := by
  unfold entry at h
  split at h
  · exact absurd h (by simp)
  · rw [hr] at h
    exact h

/-- A number that an expression captured is made of digits. -/
theorem digits_of_number {base : String} {i : Nat} {b : Text.Rx} {path : String} {caps : Text.Captures}
    (h : (Text.Rx.seq (numberRx base i) b).full path.toList = some caps) :
    ∃ id : Digits, id.text = text caps i := by
  obtain ⟨hne, hdigits⟩ := Text.Rx.group_of_full_number h
  refine ⟨⟨text caps i, fun c hc => hdigits c ?_, fun hempty => hne ?_⟩, rfl⟩
  · simpa [text] using hc
  · have hlist := congrArg String.toList hempty
    simpa [text] using hlist

/-- The group of an entry that a request was routed by. -/
theorem full_of_mounted (routes : List Route) {i : Nat} {r : Route} {part : Option String} {sid : String}
    (hr : routes[i]? = some r) (h : part.bind (mounted routes i) = some sid) :
    ∃ (path : String) (caps : Text.Captures), r.1.full path.toList = some caps ∧ sid = text caps 1 := by
  obtain ⟨path, -, hpath⟩ := Option.bind_eq_some_iff.1 h
  obtain ⟨caps, hcaps, rfl⟩ := Option.map_eq_some_iff.1 hpath
  exact ⟨path, caps, full_of_entry hr hcaps, rfl⟩

theorem digits_of_display {sid : String} (h : routedToDisplay e = some sid) :
    ∃ id : Digits, id.text = sid := by
  obtain ⟨path, caps, hfull, rfl⟩ := full_of_mounted (postRoutes e) rfl h
  rw [← Text.Rx.full_seq_eps] at hfull
  exact digits_of_number hfull

theorem digits_of_page {sid : String} (h : routedToPage e = some sid) :
    ∃ id : Digits, id.text = sid := by
  obtain ⟨path, caps, hfull, rfl⟩ := full_of_mounted (pageRoutes e) rfl h
  rw [← Text.Rx.full_seq_eps] at hfull
  exact digits_of_number hfull

theorem digits_of_cats {sid : String} (h : routedToCats e = some sid) :
    ∃ id : Digits, id.text = sid := by
  obtain ⟨path, caps, hfull, rfl⟩ := full_of_mounted (feedRoutes e) rfl h
  exact digits_of_number hfull

theorem serves_admin {p : App Unit} (hp : AdminDestination e p) (h : Serving S O locale e d s) :
    Serves S O locale e d p s := by
  have hclosed := h.closed_self
  cases hp with
  | notFound => exact h.answers (Answers.makeErrorResponse hclosed)
  | caching => exact h.answers (answers_caching hclosed h.versioned)
  | categories hroute => exact serves_categories hroute h
  | options => exact serves_options h
  | comment sid => exact serves_adminComment sid h
  | post sid hroute => exact serves_adminPost hroute h
  | newPost hroute => exact serves_newPost hroute h
  | page sid _ => exact serves_adminPage sid h
  | newPage => exact serves_newPage h
  | users page => exact h.answers (answers_usersList hclosed h.versioned page)
  | userAdd => exact serves_usersAdd h
  | userDel sid hroute => exact serves_usersDel hroute h
  | userEdit sid hroute => exact serves_usersEdit hroute h
  | login => exact h.answers (answers_login hclosed h.versioned)
  | upload => exact h.answers (answers_upload hclosed h.versioned)
  | summary page => exact h.answers (answers_adminSummary hclosed h.versioned page)

section

-- a dispatcher is what `Destination.site` says
attribute [local irreducible] dispatch

theorem serves_adminMaster {path : String} (hpath : adminPath e = some path)
    (h : Serving S O locale e d s) : Serves S O locale e d (adminMaster e path) s := by
  refine h.prelude (Aside.getOwn _) fun isUser s₁ h₁ => ?_
  split
  · exact serves_admin (.admin hpath) h₁
  · exact h₁.answers (Answers.setRedirectHeader _)

theorem serves_configRoutes {path : String} (hroute : routedToConfig e = true)
    (h : Serving S O locale e d s) : Serves S O locale e d (dispatch (configRoutes e) path) s := by
  apply dispatch_entries (P := fun p => Serves S O locale e d p s)
  · exact h.answers (Answers.makeErrorResponse h.closed_self)
  · intro i r caps hr _
    rcases i with _ | _ | i
    · obtain rfl := Option.some.inj hr
      exact serves_configure hroute h
    · obtain rfl := Option.some.inj hr
      exact h.answers (answers_configVersion h.closed_self)
    · exact absurd hr (by simp [configRoutes])

/-- Whatever handler a request reaches, it is served. -/
theorem serves_site (h : Serving S O locale e d s) (hbody : s.own.response.body = []) :
    Serves S O locale e d (dispatch (siteRoutes e) (routedPath e)) s := by
  have hclosed := h.closed_self
  have hv := h.versioned
  have hfinish {p : App Unit} (hp : Finishes S O locale d [] p) : Serves S O locale e d p s :=
    Prog.wp_mono (fun _ _ h' => ⟨d, .inl rfl, h'⟩) (fun _ _ h' => ⟨d, .inl rfl, h'⟩)
      (hp s ⟨h.toReady, hbody⟩ (by simp))
  have hsite := Destination.site e
  generalize dispatch (siteRoutes e) (routedPath e) = p at hsite
  cases hsite with
  | notFound => exact h.answers (Answers.makeErrorResponse hclosed)
  | captcha => exact h.answers (answers_captcha hclosed)
  | config path hroute => exact serves_configRoutes hroute h
  | admin path hpath => exact serves_adminMaster hpath h
  | feedPosts => exact hfinish (finishes_feedPosts hclosed hv)
  | feedCats sid hroute =>
    obtain ⟨id, rfl⟩ := digits_of_cats hroute
    exact hfinish (finishes_feedCats hclosed hv hroute)
  | feedComments => exact hfinish (finishes_feedComments hclosed hv)
  | media file => exact h.answers (answers_media hclosed file)
  | pageDisplay sid hroute =>
    obtain ⟨id, rfl⟩ := digits_of_page hroute
    exact hfinish (finishes_pageDisplay hclosed hv hroute)
  | pagePreview sid => exact h.answers (answers_pagePreview hclosed hv sid)
  | postDisplay sid hroute =>
    obtain ⟨id, rfl⟩ := digits_of_display hroute
    exact hfinish (finishes_postDisplay hclosed hv hroute)
  | postPreview sid => exact h.answers (answers_postPreview hclosed hv sid)
  | postback sid hroute => exact serves_postback hroute h
  | download md5 size name => exact h.answers (answers_download hclosed hv md5 size name)
  | summary catId page _ => exact hfinish (finishes_summary hclosed hv catId page)

end

end CppBlog
