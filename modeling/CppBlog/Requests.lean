import CppBlog.Changes
import CppBlog.Routes

set_option autoImplicit false

/-! # Every request is a sequence of changes

The transactions of `Changes.lean` followed through the handlers around them and through the
dispatchers: whatever the request, the tables after it come from those before it by changes. An
invariant of every change is one of every run of the server. -/

namespace CppBlog

open Effect Store App Relation

/-! ## The public handlers that write -/

section
variable {S : Type} {M : Model Sig Error S} {R : S → S → Prop} [Undisturbed M R]

/-- `config::configure` around its transaction. -/
theorem within_configure (e : Env) (hstore : ∀ f, (Config.store f).Within M R) :
    (Config.configure e).Within M R := by
  have hrender (f : ConfigForm) : (Config.render e f).Within M R :=
    (Idle.getOwn _).bind fun _ => Idle.write _
  have hsubmit : (Config.submit e).Within M R :=
    .ite ((Idle.loadForm e _).bind fun _ =>
      .ite ((hstore _).bind fun _ => Idle.setRedirectHeader _) (hrender _)) (hrender _)
  exact (Idle.query _).bind fun _ =>
    Prog.Within.bind (.ite (Idle.setRedirectHeader _) (.ret _)) fun _ => hsubmit

theorem idle_checkCaptcha (f : CommentForm) : (Post.checkCaptcha f).Within M R :=
  (Idle.getOwn _).bind fun _ => .ite ((Idle.modifyOwn _).bind fun _ => .ret _)
    ((Idle.modifyOwn _).bind fun _ => .ret _)

theorem idle_validate (e : Env) (form : CommentForm) : (Post.validate e form).Within M R :=
  .ite (.ret _) <| (Idle.getOwn _).bind fun _ => .ite (.ret _) <|
    (Idle.getOwn _).bind fun _ => .ite (.ret _) <| (Idle.getOwn _).bind fun _ =>
    Prog.Within.bind (.ite (idle_checkCaptcha _) (.ret _)) fun _ => .ret _

end

theorem stepwise_configure (e : Env) : Stepwise (Config.configure e) :=
  within_configure e stepwise_configStore

theorem stepwise_postback (e : Env) (sid : String) : Stepwise (Post.postback e sid) := by
  refine .ite (Idle.makeErrorResponse _) <| (Idle.loadForm e _).bind fun _ =>
    (idle_validate e _).bind fun _ =>
    Prog.Within.bind (.ite (stepwise_postbackBlock e _ _) (.ret _)) fun r => ?_
  split
  · exact .ret _
  · exact readOnly_redisplay e sid _ _

/-! ## The post editor -/

theorem loadBoxes_identification (data : List (String × String)) (i : Nat) (l : List CatBox) :
    (loadBoxes data i l).map CatBox.identification = l.map CatBox.identification :=
  List.ext_getElem (by simp [loadBoxes]) fun n _ _ => by simp [loadBoxes]

/-- Loading and validating the form ticks boxes; it neither adds nor removes any. -/
theorem load_delFromCatList (f : PostForm) (data : List (String × String)) :
    (f.load data).validate.delFromCatList.map CatBox.identification =
      f.delFromCatList.map CatBox.identification := by
  have : (f.load data).validate.delFromCatList = (f.load data).delFromCatList := by
    simp only [PostForm.validate]
    split <;> rfl
  rw [this]
  exact loadBoxes_identification _ _ _

theorem load_addToCatList (f : PostForm) (data : List (String × String)) :
    (f.load data).validate.addToCatList.map CatBox.identification =
      f.addToCatList.map CatBox.identification := by
  have : (f.load data).validate.addToCatList = (f.load data).addToCatList := by
    simp only [PostForm.validate]
    split <;> rfl
  rw [this]
  exact loadBoxes_identification _ _ _

/-- Which categories are among the check boxes depends on their identifications alone. -/
theorem notAmong_congr {l l' : List CatBox}
    (h : l.map CatBox.identification = l'.map CatBox.identification) :
    AdminPost.notAmong l = AdminPost.notAmong l' := by
  have hnum := congrArg (List.map Text.atoi) h
  simp only [List.map_map, Function.comp_def] at hnum
  funext i
  simp only [AdminPost.notAmong, hnum]

theorem Db.Offers.load {d : Db} {id : Int} {f : PostForm} (h : d.Offers id f)
    (data : List (String × String)) : d.Offers id (f.load data).validate where
  del := (load_delFromCatList f data).trans h.del
  add := by
    rw [load_addToCatList, h.add, notAmong_congr (load_delFromCatList f data)]

theorem Db.OffersAll.load {d : Db} {f : PostForm} (h : d.OffersAll f)
    (data : List (String × String)) : d.OffersAll (f.load data).validate :=
  (load_addToCatList f data).trans h

/-- What the editor reads about a post: its status and its categories. -/
structure ReadsPost (d : Db) (id : Int) (x : Bool × PostForm) : Prop where
  isOpen : ∃ o, d.selectPostIsOpen id = some o ∧ x.1 = decide (o ≠ 0)
  cats : x.2.delFromCatList = (d.selectCatsOf id).map AdminPost.catBox

theorem wp_readStatus (isPost : Bool) (id : Int) (s : St) :
    (AdminPost.readStatus isPost id).wp calls
      (fun r s' => s' = s ∧ ∀ x, r = some x → s.current.selectPostIsOpen id = some x.1)
      (fun _ s' => s' = s) s := by
  cases isPost
  · refine wp_query.2 ⟨⟨rfl, fun x hx => ?_⟩, rfl⟩
    obtain ⟨p, hp, rfl⟩ := Option.map_eq_some_iff.1 hx
    exact congrArg (Option.map Post.isOpen) hp
  · refine wp_query.2 ⟨⟨rfl, fun x hx => ?_⟩, rfl⟩
    obtain ⟨o, ho, rfl⟩ := Option.map_eq_some_iff.1 hx
    exact ho

theorem wp_readPost (isPost : Bool) (id : Int) (s : St) :
    (AdminPost.readPost isPost id).wp calls
      (fun r s' => Idle s s' ∧ ∀ x, r = some x → ReadsPost s.current id x) (fun _ => Idle s) s := by
  refine Prog.wp_seq (wp_readStatus isPost id s) ?_ ?_
  · rintro r s' ⟨rfl, hr⟩
    cases r with
    | none =>
        exact Prog.wp_seq (Idle.makeErrorResponse (R := Idle) 404 s') (fun _ _ h => ⟨h, by simp⟩)
          (fun _ _ h => h)
    | some x =>
        dsimp only
        rw [Prog.wp_bind, wp_query]
        refine ⟨⟨refl s', fun y hy => ?_⟩, refl s'⟩
        cases hy
        exact ⟨⟨x.1, hr x rfl, rfl⟩, rfl⟩
  · rintro _ s' rfl
    exact refl s'

theorem catBox_identification (l : List Cat) :
    (l.map AdminPost.catBox).map CatBox.identification = l.map (fun c => toString c.id) := by
  simp [AdminPost.catBox]

theorem map_filter_identification (p : String → Bool) (l : List CatBox) :
    (l.filter (fun b => p b.identification)).map CatBox.identification =
      (l.map CatBox.identification).filter p := List.filter_map.symm

theorem wp_readCats (form : PostForm) (s : St) :
    (AdminPost.readCats form).wp calls
      (fun f s' => s' = s ∧ f.delFromCatList = form.delFromCatList ∧
        f.addToCatList.map CatBox.identification =
          (s.current.selectCats.map (fun c => toString c.id)).filter
            (AdminPost.notAmong form.delFromCatList))
      (fun _ s' => s' = s) s := by
  rw [AdminPost.readCats, Prog.wp_bind, wp_query]
  refine ⟨⟨rfl, rfl, ?_⟩, rfl⟩
  rw [← catBox_identification]
  exact map_filter_identification _ _

theorem wp_create (e : Env) (f : PostForm) {s : St} (hf : s.db.OffersAll f) :
    (AdminPost.create e f).wp calls (fun _ => Steps s) (fun _ => Steps s) s := by
  have hstatus : AdminPost.openStatus false f.changeStatus = if f.changeStatus then 1 else 0 := by
    simp [AdminPost.openStatus]
  unfold AdminPost.create
  split
  · exact (Prog.Within.bind (Idle.setRedirectHeader _) fun _ => .ret _ : Stepwise _) s
  · have hblock := wp_createBlock e f hf
    rw [hstatus] at hblock
    refine Prog.wp_seq hblock (fun id s' h => ?_) (fun _ _ h => h)
    exact (Prog.Within.ite (.ret _) ((Idle.setRedirectHeader _).bind fun _ => .ret _)).after h

theorem wp_save (e : Env) (id isOpen : Int) (f : PostForm) {s : St}
    (hopen : s.db.selectPostIsOpen id = some isOpen) (hf : s.db.Offers id f) :
    (AdminPost.save e id (isOpen ≠ 0) f).wp calls (fun _ => Steps s) (fun _ => Steps s) s := by
  unfold AdminPost.save
  split
  · exact ((stepwise_removeBlock id).bind fun _ =>
      (Idle.setRedirectHeader _).bind fun _ => .ret _) s
  · refine Prog.wp_seq (wp_saveBlock e id isOpen f hopen hf) (fun _ s' h => ?_) (fun _ _ h => h)
    exact (Prog.Within.bind (.ite (Idle.setRedirectHeader _) (.ret _)) fun _ => .ret _).after h

/-- The editor has read the tables it works on: what it shows of the post is what they hold. -/
def Editing (d : Db) (id : Int) (isOpen : Bool) (form : PostForm) : Prop :=
  if id = 0 then d.OffersAll form
  else ∃ o, d.selectPostIsOpen id = some o ∧ isOpen = decide (o ≠ 0) ∧ d.Offers id form

theorem Editing.load {d : Db} {id : Int} {isOpen : Bool} {form : PostForm}
    (h : Editing d id isOpen form) (data : List (String × String)) :
    Editing d id isOpen (form.load data).validate := by
  unfold Editing at h ⊢
  split_ifs at h ⊢
  · exact h.load data
  · obtain ⟨o, ho, hopen, hf⟩ := h
    exact ⟨o, ho, hopen, hf.load data⟩

theorem readOnly_postEditor {S : Type} {M : Model Sig Error S} {R : S → S → Prop} [Prepares M R]
    (e : Env) (id : Int) (isOpen : Bool) (f : PostForm) :
    (AdminPost.render e id isOpen f).Within M R :=
  readOnly_adminPrepare.bind fun _ => readOnly_renderAdmin e _ _ _

theorem wp_submit (e : Env) {id : Int} {isOpen : Bool} {f : PostForm} (s : St)
    (h : Editing s.db id isOpen f) :
    (if id = 0 then AdminPost.create e f else AdminPost.save e id isOpen f).wp calls
      (fun _ => Steps s) (fun _ => Steps s) s := by
  unfold Editing at h
  split_ifs at h ⊢
  · exact wp_create e f h
  · obtain ⟨o, ho, rfl, hf⟩ := h
    exact wp_save e id o f ho hf

theorem wp_edit (e : Env) {id : Int} {isOpen : Bool} {form : PostForm} {s : St}
    (h : Editing s.db id isOpen form) :
    (AdminPost.edit e id isOpen form).wp calls (fun _ => Steps s) (fun _ => Steps s) s := by
  unfold AdminPost.edit
  split
  · have hidle : Idle s (s.setOwn { s.own with csrfChecked := true }) := ⟨rfl, rfl, rfl⟩
    have hs : Steps s (s.setOwn { s.own with csrfChecked := true }) := AllowsIdle.of_idle hidle
    have hsave := wp_submit e (s.setOwn { s.own with csrfChecked := true }) (h.load e.req.postOrGet)
    rw [Prog.wp_bind, wp_loadForm]
    split
    · exact hs
    dsimp only
    split
    · refine Prog.wp_seq hsave (fun r s'' h'' => ?_) (fun _ s'' h'' => IsTrans.trans _ _ _ hs h'')
      cases r with
      | none => exact IsTrans.trans _ _ _ hs h''
      | some id => exact (readOnly_postEditor e id isOpen _).after (IsTrans.trans _ _ _ hs h'')
    · exact (readOnly_postEditor e id isOpen _).after hs
  · exact readOnly_postEditor e id isOpen _ s

/-- What the editor starts from. -/
theorem wp_editorStart (e : Env) (id : Int) {s : St} (hs : s.tx = none) :
    (if id ≠ 0 then AdminPost.readPost (e.req.method = "POST") id else .ret (some (false, {}))).wp
      calls (fun r s' => Idle s s' ∧ ∀ x, r = some x →
        if id = 0 then x.2 = {} else ReadsPost s.db id x) (fun _ => Idle s) s := by
  by_cases hid : id = 0
  · simp only [hid, ne_eq, not_true, if_false, if_true, Prog.wp_ret]
    exact ⟨refl s, fun x hx => by cases hx; rfl⟩
  · have hread := wp_readPost (e.req.method = "POST") id s
    rw [St.current_of_none hs] at hread
    simpa only [hid, ne_eq, not_false_eq_true, if_true, if_false] using hread

theorem editing_of_reads {d : Db} {id : Int} {x : Bool × PostForm} {f : PostForm}
    (hx : if id = 0 then x.2 = {} else ReadsPost d id x)
    (hdel : f.delFromCatList = x.2.delFromCatList)
    (hadd : f.addToCatList.map CatBox.identification =
      (d.selectCats.map (fun c => toString c.id)).filter (AdminPost.notAmong x.2.delFromCatList)) :
    Editing d id x.1 f := by
  unfold Editing
  split_ifs at hx ⊢
  · rw [hx] at hadd
    have hall (i : String) : AdminPost.notAmong [] i = true := by simp [AdminPost.notAmong]
    exact hadd.trans (List.filter_eq_self.2 fun i _ => hall i)
  · obtain ⟨o, ho, hopen⟩ := hx.isOpen
    refine ⟨o, ho, hopen, ?_, ?_⟩
    · rw [hdel, hx.cats, catBox_identification]
    · rw [hadd, hdel]

theorem stepwise_prepareShared (e : Env) (id : Int) : Stepwise (AdminPost.prepareShared e id) := by
  intro s
  by_cases hs : s.tx = none
  swap
  · exact Prog.wp_of_forall (fun _ _ h => absurd h hs) (fun _ _ h => absurd h hs) s
  refine Prog.wp_seq (wp_editorStart e id hs) ?_ (fun _ _ h => AllowsIdle.of_idle h)
  rintro r s' ⟨hidle, hr⟩
  have hss' : Steps s s' := AllowsIdle.of_idle hidle
  cases r with
  | none => exact hss'
  | some x =>
      refine Prog.wp_seq (wp_readCats x.2 s') ?_ (fun _ s'' h => h ▸ hss')
      rintro f s'' ⟨rfl, hdel, hadd⟩
      rw [St.current_of_none (hidle.tx.trans hs), hidle.db] at hadd
      have hedit : Editing s''.db id x.1 f :=
        hidle.db.symm ▸ editing_of_reads (hr x rfl) hdel hadd
      exact Prog.wp_mono (fun _ _ h => IsTrans.trans _ _ _ hss' h)
        (fun _ _ h => IsTrans.trans _ _ _ hss' h) (wp_edit e hedit)

theorem stepwise_adminPost (e : Env) (sid : String) : Stepwise (AdminPost.prepare e sid) :=
  .ite (Idle.makeErrorResponse _) (stepwise_prepareShared e _)

/-! ## The other pages of the administration -/

theorem idle_readPage (isPost : Bool) (id : Int) :
    (AdminPage.readPage isPost id).Within calls Idle := by
  refine (Idle.query _).bind fun r => ?_
  split
  · exact (Idle.makeErrorResponse _).bind fun _ => .ret _
  · exact .ret _

theorem idle_risePage (id : Int) : (AdminPage.risePage id).Within calls Idle :=
  (Idle.rise _).bind fun _ => Idle.rise _

theorem stepwise_createPage (e : Env) (f : PageForm) : Stepwise (AdminPage.create e f) :=
  .ite ((Idle.setRedirectHeader _).bind fun _ => .ret _) <|
    (Idle.sessionGetInt _).bind fun authorId =>
    (Stepwise.exec fun _ _ h => .createPage authorId _ _ _ h).bind fun _ =>
    Prog.Within.bind (.ite (Idle.rise _) (.ret _)) fun _ => (Idle.query _).bind fun _ =>
    .ite ((Idle.setRedirectHeader _).bind fun _ => .ret _)
      (.ite (.ret _) ((Idle.setRedirectHeader _).bind fun _ => .ret _))

theorem stepwise_savePage (e : Env) (id : Int) (isOpen : Bool) (f : PageForm) :
    Stepwise (AdminPage.save e id isOpen f) := by
  have hrise : Stepwise (AdminPage.risePage id) := (idle_risePage id).mono fun _ _ => AllowsIdle.of_idle
  refine .ite ?_ ?_
  · exact (Stepwise.execTotal fun _ => .removePage id).bind fun _ =>
      Prog.Within.bind (.ite hrise (.ret _)) fun _ => (Idle.setRedirectHeader _).bind fun _ => .ret _
  · exact (Stepwise.execTotal fun _ => .savePage id _ _ _).bind fun _ =>
      Prog.Within.bind (.ite hrise (.ret _)) fun _ =>
      .ite ((Idle.setRedirectHeader _).bind fun _ => .ret _) (.ret _)

theorem readOnly_pageEditor {S : Type} {M : Model Sig Error S} {R : S → S → Prop} [Prepares M R]
    (e : Env) (id : Int) (isOpen : Bool) (f : PageForm) :
    (AdminPage.render e id isOpen f).Within M R :=
  readOnly_adminPrepare.bind fun _ => readOnly_renderAdmin e _ _ _

theorem stepwise_editPage (e : Env) (id : Int) (isOpen : Bool) (form : PageForm) :
    Stepwise (AdminPage.edit e id isOpen form) := by
  have hshow (id : Int) (f : PageForm) : Stepwise (AdminPage.render e id isOpen f) :=
    (readOnly_pageEditor e id isOpen f)
  refine .ite ((Idle.loadForm e _).bind fun _ => .ite ?_ (hshow _ _)) (hshow _ _)
  refine Prog.Within.bind (.ite (stepwise_createPage e _) (stepwise_savePage e _ _ _)) fun r => ?_
  split
  · exact .ret _
  · exact hshow _ _

theorem stepwise_adminPageShared (e : Env) (id : Int) : Stepwise (AdminPage.prepareShared e id) := by
  refine Prog.Within.bind (.ite ((idle_readPage _ _).mono fun _ _ => AllowsIdle.of_idle) (.ret _))
    fun r => ?_
  split
  · exact .ret _
  · exact stepwise_editPage e _ _ _

theorem stepwise_adminPage (e : Env) (sid : String) : Stepwise (AdminPage.prepare e sid) :=
  .ite (Idle.makeErrorResponse _) (stepwise_adminPageShared e _)

theorem readOnly_commentEditor {S : Type} {M : Model Sig Error S} {R : S → S → Prop} [Prepares M R]
    (e : Env) (id postId : Int) (f : AdminCommentForm) :
    (AdminComment.render e id postId f).Within M R :=
  readOnly_adminPrepare.bind fun _ => readOnly_renderAdmin e _ _ _

theorem stepwise_adminComment (e : Env) (sid : String) : Stepwise (AdminComment.prepare e sid) := by
  refine .ite ((Idle.loadForm e _).bind fun _ => .ite ?_ (readOnly_commentEditor e _ _ _))
    ((Idle.query _).bind fun r => ?_)
  · refine (stepwise_commentSaveBlock _ _).bind fun r => ?_
    split
    · exact .ret _
    · exact Idle.setRedirectHeader _
  · split
    · exact Idle.makeErrorResponse _
    · exact readOnly_commentEditor e _ _ _

theorem stepwise_categories (e : Env) : Stepwise (Categories.prepare e) := by
  refine Prog.Within.bind (.ite ?_ (.ret _)) fun _ => readOnly_adminPrepare.bind fun _ =>
    (Idle.query _).bind fun _ => readOnly_renderAdmin e _ _ _
  exact (Idle.loadForm e _).bind fun _ => .ite (.ret _) <|
    .ite ((stepwise_createCat _).bind fun _ => .ret _) <|
    .ite (stepwise_removeCat _ _) ((stepwise_renameCat _ _).bind fun _ => .ret _)

theorem stepwise_options (e : Env) : Stepwise (Options.prepare e) := by
  have hshow (view : AdminContent → AdminView) :
      Stepwise (adminPrepare.bind fun c => renderAdmin e c "options" (view c)) :=
    (readOnly_adminPage e _ _)
  exact .ite ((Idle.loadForm e _).bind fun _ =>
    .ite ((stepwise_optionsStore _).bind fun _ => hshow _) (hshow _)) (hshow _)

theorem stepwise_usersAdd (e : Env) : Stepwise (Users.add e) :=
  .ite ((Idle.loadForm e _).bind fun _ =>
    .ite ((stepwise_tryStore e fun _ _ h => .createUser _ _ h).bind fun _ =>
        .ite (.ret _) (readOnly_adminPage e _ _))
      (readOnly_adminPage e _ _)) (readOnly_adminPage e _ _)

theorem stepwise_usersEdit (e : Env) (sid : String) : Stepwise (Users.edit e sid) := by
  refine .ite (Idle.makeErrorResponse _) ((Idle.query _).bind fun r => ?_)
  split
  · exact Idle.makeErrorResponse _
  · exact .ite ((Idle.loadForm e _).bind fun _ =>
      .ite ((stepwise_tryStore e fun _ _ h => .saveUser _ _ _ h).bind fun _ =>
          .ite (.ret _) (readOnly_adminPage e _ _))
        (readOnly_adminPage e _ _)) (readOnly_adminPage e _ _)

theorem stepwise_usersDel (e : Env) (sid : String) : Stepwise (Users.del e sid) :=
  Prog.Within.bind (.ite (.ret _) ((Idle.sessionGetInt _).bind fun _ => .ret _)) fun _ =>
    .ite (Idle.makeErrorResponse _) <|
      (Stepwise.transaction fun _ => .execTotal <| .commitLast (.removeUser _)).bind fun _ =>
      Idle.setRedirectHeader _

/-! ## Uploads -/

/-- What an upload raises by itself. -/
def Error.ofTransfer : Error → Prop
  | .outOfRange | .file | .magick | .hang => True
  | _ => False

/-- A program that works on the files only. -/
inductive OnFiles : {α : Type} → App α → Prop where
  | ret {α : Type} (a : α) : OnFiles (.ret a : App α)
  | throw {α : Type} (err : Error) : err.ofTransfer → OnFiles (.throw err : App α)
  | op {α β : Type} (f : Files → β × Files) (k : Except Error β → App α) :
      (∀ b, OnFiles (k (.ok b))) → OnFiles (.op (.files f) k)

/-- A preorder that does not look at the files. -/
class AllowsFiles (R : St → St → Prop) : Prop extends IsPreorder St R where
  files : ∀ {β : Type} (f : Files → β × Files), (App.files f).Within calls R

instance : AllowsFiles Steps where
  files := Stepwise.files

namespace OnFiles

variable {α β : Type}

theorem bind {p : App α} {f : α → App β} (hp : OnFiles p) (hf : ∀ a, OnFiles (f a)) :
    OnFiles (p.bind f) := by
  induction hp with
  | ret a => exact hf a
  | throw err h => exact .throw err h
  | op g k _ ih => exact .op g _ fun b => ih b

theorem ite {c : Prop} [Decidable c] {p q : App α} (hp : OnFiles p) (hq : OnFiles q) :
    OnFiles (if c then p else q) := by
  split
  · exact hp
  · exact hq

/-- Such a program is within every preorder that does not look at the files, -/
theorem within {R : St → St → Prop} [AllowsFiles R] {p : App α} (hp : OnFiles p) :
    p.Within calls R := by
  induction hp with
  | ret a => exact .ret a
  | throw err h => exact .throw err
  | op f k _ ih =>
    intro s
    rw [Prog.wp_op]
    rintro r s' ⟨rfl, rfl⟩
    have hfile := wp_files.1 (AllowsFiles.files (R := R) f s)
    exact (ih _).after hfile

/-- and it keeps every invariant that does not depend on them. -/
theorem maintains {I : St → Prop} {X : Error → Prop} (hI : ∀ s fs, I s → I { s with files := fs })
    (hX : ∀ err : Error, err.ofTransfer → X err) {p : App α} (hp : OnFiles p) :
    p.Maintains calls I X := by
  induction hp with
  | ret a => exact .ret a
  | throw err h => exact .throw (hX err h)
  | op f k _ ih =>
    intro s hs
    rw [Prog.wp_op]
    rintro r s' ⟨rfl, rfl⟩
    exact ih _ _ (hI s _ hs)

/-! ### The parts of `upload::prepare` -/

theorem files (f : Files → β × Files) : OnFiles (App.files f) := .op f _ .ret

theorem extension (s : String) : OnFiles (CppBlog.extension s) := .ite (.ret _) (.throw _ trivial)

theorem uploadPath (e : Env) (md5 : String) (size : Nat) :
    OnFiles (Download.uploadPath e md5 size) := by
  have hsubstr (s : String) (pos n : Nat) : OnFiles (substr s pos n) :=
    .ite (.throw _ trivial) (.ret _)
  exact (hsubstr _ _ _).bind fun _ => (hsubstr _ _ _).bind fun _ => (hsubstr _ _ _).bind fun _ => .ret _

theorem readAll (path : String) : OnFiles (Upload.readAll path) := by
  refine (files _).bind fun r => ?_
  split
  · exact .ret _
  · exact .throw _ trivial

theorem mkdir (fuel : Nat) (path : String) (isfile : Bool) : OnFiles (Upload.mkdir fuel path isfile) := by
  induction fuel generalizing path isfile with
  | zero => exact .throw _ trivial
  | succ fuel ih =>
      exact (files _).bind fun _ => .ite (.ret _) <| (ih _ _).bind fun _ =>
        .ite (.ret _) <| .ite (.ret _) (files _)

theorem saveTo (e : Env) (path : String) (content : List UInt8) :
    OnFiles (Upload.saveTo e path content) :=
  (files _).bind fun _ => .ite (.ret _) (.throw _ trivial)

theorem allParts (base : String) (i n : Nat) : OnFiles (Upload.allParts base i n) := by
  induction n generalizing i with
  | zero => exact .ret _
  | succ n ih => exact (files _).bind fun _ => .ite (ih _) (.ret _)

theorem joinParts (e : Env) (base path : String) (i : Nat) (done : List UInt8) (n : Nat) :
    OnFiles (Upload.joinParts e base path i done n) := by
  induction n generalizing i done with
  | zero => exact .ret _
  | succ n ih =>
      exact (readAll _).bind fun _ => (files _).bind fun _ => (files _).bind fun _ => ih _ _

theorem receive (e : Env) (n : Upload.Names) (content : List UInt8) (chunk chunks : Nat) :
    OnFiles (Upload.receive e n content chunk chunks) :=
  .ite ((mkdir _ _ _).bind fun _ => (saveTo e _ _).bind fun _ => (readAll _).bind fun _ => .ret _) <|
    (mkdir _ _ _).bind fun _ => (saveTo e _ _).bind fun _ => (files _).bind fun _ =>
    (allParts _ _ _).bind fun _ =>
    .ite ((files _).bind fun _ => (joinParts e _ _ _ _ _).bind fun _ => .ret _) (.ret _)

theorem submit (e : Env) (n : Upload.Names) (md5 name : String) (size chunk chunks : Nat) :
    OnFiles (Upload.submit e n md5 name size chunk chunks) := by
  unfold Upload.submit
  split
  · refine (receive e _ _ _ _).bind fun r => ?_
    split
    · exact .ret _
    · exact (files _).bind fun _ => .ite ((files _).bind fun _ => .ret _) (.ret _)
  · exact .ret _

theorem ask (n : Upload.Names) (name : String) (size : Nat) : OnFiles (Upload.ask n name size) :=
  (files _).bind fun _ => .ite (.ret _) (.ret _)

theorem names (e : Env) (md5 ext : String) (size : Nat) : OnFiles (Upload.names e md5 ext size) :=
  (uploadPath e _ _).bind fun _ => .ret _

theorem rotate (e : Env) (n : Upload.Names) (rotation : Int) : OnFiles (Upload.rotate e n rotation) := by
  have hname : OnFiles (Upload.rotated n rotation) :=
    (extension _).bind fun _ => (extension _).bind fun _ => .ret _
  refine hname.bind fun m => (files _).bind fun _ => .ite (.ret _) <|
    (files _).bind fun _ => (files _).bind fun _ => ?_
  split
  · exact .throw _ trivial
  · exact (files _).bind fun _ => .ret _

end OnFiles

theorem within_upload_of {S : Type} {M : Model Sig Error S} {R : S → S → Prop} [IsPreorder S R] (e : Env)
    (hfiles : ∀ {α : Type} {p : App α}, OnFiles p → p.Within M R) (hprepare : adminPrepare.Within M R)
    (hanswer : ∀ status fields, (Upload.answer status fields).Within M R) : (Upload.prepare e).Within M R := by
  have htransfer (md5 name : String) (size : Nat) :
      (Upload.transfer e md5 name size).Within M R := by
    refine (hfiles (.extension _)).bind fun ext => hprepare.bind fun _ =>
      (hfiles (.names e _ _ _)).bind fun n => ?_
    refine Prog.Within.bind (.ite (hfiles (.submit e _ _ _ _ _ _)) (hfiles (.ask _ _ _))) fun r => ?_
    exact .ite ((hfiles (.rotate e _ _)).bind fun _ => hanswer _ _) (hanswer _ _)
  exact .ite (hanswer _ _) (.ite (hanswer _ _) (htransfer _ _ _))

theorem within_upload {R : St → St → Prop} [AllowsFiles R] (e : Env) (hprepare : adminPrepare.Within calls R)
    (hanswer : ∀ status fields, (Upload.answer status fields).Within calls R) :
    (Upload.prepare e).Within calls R := within_upload_of e OnFiles.within hprepare hanswer

theorem stepwise_upload (e : Env) : Stepwise (Upload.prepare e) :=
  within_upload e readOnly_adminPrepare fun _ _ =>
    (Idle.setHeader _ _).bind fun _ => Idle.write _

/-! ## Dispatching -/

/-- What holds of an unanswered request and of every handler holds of a dispatcher. -/
theorem dispatch_induction {P : App Unit → Prop} (h404 : P (makeErrorResponse 404))
    {routes : List Route} {path : String}
    (h : ∀ r ∈ routes, ∀ caps, r.1.full path.toList = some caps → P (r.2 caps)) :
    P (dispatch routes path) := by
  induction routes with
  | nil => exact h404
  | cons r rest ih =>
      rw [dispatch_cons]
      split
      · next caps hcaps => exact h r List.mem_cons_self caps hcaps
      · exact ih fun r hr => h r (List.mem_cons_of_mem _ hr)

-- From here on a dispatcher is what its rules say; unfolding it would evaluate expressions.
attribute [local irreducible] dispatch

/-- A dispatcher whose handlers all keep to a relation keeps to it. -/
theorem within_dispatch {S : Type} {M : Model Sig Error S} {R : S → S → Prop} [Undisturbed M R] {routes : List Route}
    (h : ∀ r ∈ routes, ∀ caps, (r.2 caps).Within M R) (path : String) : (dispatch routes path).Within M R :=
  dispatch_induction (Idle.makeErrorResponse _) fun r hr caps _ => h r hr caps

/-- A dispatcher with two entries. -/
theorem within_dispatch_pair {S : Type} {M : Model Sig Error S} {R : S → S → Prop} [Undisturbed M R]
    {r r' : Route} (h : ∀ caps, (r.2 caps).Within M R) (h' : ∀ caps, (r'.2 caps).Within M R)
    (path : String) : (dispatch [r, r'] path).Within M R := by
  refine within_dispatch (fun x hx caps => ?_) path
  rcases List.mem_pair.1 hx with rfl | rfl
  · exact h caps
  · exact h' caps

theorem AdminDestination.stepwise {e : Env} {p : App Unit} (h : AdminDestination e p) :
    Stepwise p := by
  cases h with
  | notFound => exact Idle.makeErrorResponse _
  | caching => exact readOnly_caching e
  | categories => exact stepwise_categories e
  | options => exact stepwise_options e
  | comment sid => exact stepwise_adminComment e sid
  | post sid => exact stepwise_adminPost e sid
  | newPost _ => exact stepwise_prepareShared e 0
  | page sid => exact stepwise_adminPage e sid
  | newPage => exact stepwise_adminPageShared e 0
  | users page => exact readOnly_usersList e page
  | userAdd => exact stepwise_usersAdd e
  | userDel sid => exact stepwise_usersDel e sid
  | userEdit sid => exact stepwise_usersEdit e sid
  | login => exact readOnly_login e
  | upload => exact stepwise_upload e
  | summary page => exact readOnly_adminSummary e page

theorem stepwise_configRoutes (e : Env) (path : String) :
    Stepwise (dispatch (configRoutes e) path) :=
  within_dispatch_pair (fun _ => stepwise_configure e) (fun _ => within_configVersion e) _

/-- A request ends at a handler that reads, at `apps::config`, in the administration or at the handler
    that takes comments. -/
theorem Destination.within_or {S : Type} {M : Model Sig Error S} {R : S → S → Prop} [Prepares M R] {e : Env}
    {p : App Unit} (h : Destination e p) : p.Within M R ∨
      (∃ path, routedToConfig e = true ∧ p = dispatch (configRoutes e) path) ∨
      (∃ path, adminPath e = some path ∧ p = adminMaster e path) ∨
      ∃ sid, routedToPostback e = some sid ∧ p = Post.postback e sid := by
  cases h with
  | notFound => exact .inl (Idle.makeErrorResponse _)
  | captcha => exact .inl (readOnly_captcha e)
  | config path hpath => exact .inr (.inl ⟨path, hpath, rfl⟩)
  | admin path hpath => exact .inr (.inr (.inl ⟨path, hpath, rfl⟩))
  | feedPosts => exact .inl (readOnly_feedPosts e)
  | feedCats sid => exact .inl (readOnly_feedCats e sid)
  | feedComments => exact .inl (readOnly_feedComments e)
  | media file => exact .inl (readOnly_media e file)
  | pageDisplay sid => exact .inl (readOnly_pageDisplay e sid)
  | pagePreview sid => exact .inl (readOnly_pagePreview e sid)
  | postDisplay sid => exact .inl (readOnly_postDisplay e sid)
  | postPreview sid => exact .inl (readOnly_postPreview e sid)
  | postback sid hsid => exact .inr (.inr (.inr ⟨sid, hsid, rfl⟩))
  | download md5 size name => exact .inl (readOnly_download e md5 size name)
  | summary catId page => exact .inl (readOnly_summary e catId page)

theorem Destination.reads_or {R : St → St → Prop} [AllowsReads R] {e : Env} {p : App Unit}
    (h : Destination e p) : p.Within calls R ∨ (∃ path, routedToConfig e = true ∧ p = dispatch (configRoutes e) path) ∨
      (∃ path, adminPath e = some path ∧ p = adminMaster e path) ∨
      ∃ sid, routedToPostback e = some sid ∧ p = Post.postback e sid := h.within_or

/-- What `select_language` leaves: of the session only `nlang` may be new. -/
structure Greeted (s s' : St) : Prop extends Idle s s' where
  session : ∀ key, key ≠ "nlang" → s'.own.session.find key = s.own.session.find key
  checked : s'.own.csrfChecked = s.own.csrfChecked

theorem wp_selectLanguage (e : Env) (s : St) :
    (selectLanguage e).wp calls (fun _ => Greeted s) (fun _ => Greeted s) s := by
  have hstart (r : Response) : Greeted s (s.setOwn { s.own with response := r }) :=
    ⟨⟨rfl, rfl, rfl⟩, fun _ _ => rfl, rfl⟩
  have hend (same : Bool) : (if same then (.ret () : App Unit)
      else (sessionSet "nlang" (toString (nlang e))).bind fun _ => clearCache).wp calls
        (fun _ => Greeted s) (fun _ => Greeted s)
        (s.setOwn { s.own with response := { s.own.response with locale := nlang e } }) := by
    cases same
    · simp only [Bool.false_eq_true, if_false, Prog.wp_bind, wp_sessionSet, clearCache, wp_cache]
      exact ⟨⟨rfl, rfl, rfl⟩, fun key hkey => Session.find_set_ne _ hkey _, rfl⟩
    · exact hstart _
  simp only [selectLanguage, modifyResponse, Prog.wp_bind, wp_modifyOwn, wp_sessionIsSet]
  split
  · rw [Prog.wp_bind, wp_sessionGetInt]
    split
    · exact hend _
    · exact hstart _
  · exact hend false

theorem idle_selectLanguage (e : Env) : (selectLanguage e).Within calls Idle :=
  fun s => Prog.wp_mono (fun _ _ h => h.toIdle) (fun _ _ h => h.toIdle) (wp_selectLanguage e s)

theorem stepwise_adminMaster {e : Env} {path : String} (hpath : adminPath e = some path) :
    Stepwise (adminMaster e path) :=
  (Idle.getOwn _).bind fun _ => .ite (AdminDestination.admin hpath).stepwise (Idle.setRedirectHeader _)

/-- The exceptions `blog::main` answers itself. -/
theorem within_answerErrors {S : Type} {M : Model Sig Error S} {R : S → S → Prop} [Undisturbed M R] (e : Env)
    {p : App Unit} (h : p.Within M R) :
    (p.tryCatch fun err =>
      match err with
      | .version => setRedirectHeader (urlConfigVersion e)
      | .notConfigured => setRedirectHeader (urlConfig e)
      | err => .throw err).Within M R := by
  refine Prog.Within.tryCatch h fun err => ?_
  split
  · exact Idle.setRedirectHeader _
  · exact Idle.setRedirectHeader _
  · exact .throw _

/-- **Every request takes the tables through changes.** -/
theorem stepwise_main (e : Env) : Stepwise (main e) := by
  have hsite : Stepwise (dispatch (siteRoutes e) (routedPath e)) := by
    rcases (Destination.site e).reads_or (R := Steps) with h | ⟨path, -, hp⟩ | ⟨path, hpath, hp⟩ | ⟨sid, -, hp⟩
    · exact h
    · rw [hp]
      exact stepwise_configRoutes e path
    · rw [hp]
      exact stepwise_adminMaster hpath
    · rw [hp]
      exact stepwise_postback e sid
  exact ((idle_selectLanguage e).mono fun _ _ => AllowsIdle.of_idle).bind fun _ =>
    within_answerErrors e hsite

/-! ## Runs -/

/-- What every outcome of a handler's execution satisfies holds after the request was served. -/
theorem serve_of_wp {site : Site} {a : Arrival} {w : World} {P : St → Prop}
    (h : (main (site.env a)).wp calls (fun _ => P) (fun _ => P) (w.start a)) :
    P (viewOf (outcome site a w).2) :=
  Prog.Ends.of_both (ends_outcome h)

theorem serve_changes (site : Site) (a : Arrival) (w : World) :
    ReflTransGen Change w.shared.db (serve site a w).2.shared.db :=
  (serve_of_wp (stepwise_main _ _) rfl).2

/-- An invariant of every change is an invariant of every run. -/
theorem run_change {site : Site} {I : Db → Prop} (hchange : ∀ d d', I d → Change d d' → I d')
    {w : World} (hw : I w.shared.db) (events : List Event) : I (run site events w).shared.db := by
  refine run_induction (I := fun w => I w.shared.db) (fun w ev hw => ?_) hw events
  cases ev with
  | evict keys => exact hw
  | request a =>
      have hchanges := serve_changes site a w
      exact hchanges.head_induction_on (motive := fun d _ => I d → I (serve site a w).2.shared.db)
        (fun h => h) (fun hd _ ih h => ih (hchange _ _ h hd)) hw

end CppBlog
