import CppBlog.Listed
import CppBlog.Ranges
import CppBlog.Resubmission
import CppBlog.SameFile
import CppBlog.Fresh
import CppBlog.Web.Header

set_option autoImplicit false

/-! # Headers made of what a visitor sends

Three handlers put text of a request into a header: the address the post editor goes back to, the query
string of a listing that is sent to another page, and the name of a downloaded file. The text is checked by
none of them; here is for which requests no line break gets into the header, and when the name of a file is
read back from it. -/

namespace CppBlog

open Effect Store App Text

/-! ## Texts on one line -/

/-- A header value has no line break, but what the configured root of the site may bring. -/
def OneLine (e : Env) (value : String) : Prop :=
  ∀ c ∈ value.toList, Header.breaks c = true → c ∈ e.settings.root.toList

/-- Where a response redirects to, it does on one line. -/
def LocatedOnOneLine (e : Env) (r : Response) : Prop := ∀ l, r.location = some l → OneLine e l

/-- In whatever admitted state a request meets, its response has a property, also when its handler fails. -/
def Assures (admitted : St → Prop) (p : App Unit) (P : Response → Prop) : Prop :=
  ∀ s : St, admitted s → s.own.response = {} →
    p.wp calls (fun _ s' => P s'.own.response) (fun _ s' => P s'.own.response) s

theorem oneLine_root_append {e : Env} {t : String} :
    OneLine e (e.settings.root ++ t) ↔ OneLine e t := by
  unfold OneLine
  simp only [String.toList_append, List.mem_append]
  exact ⟨fun h c hc => h c (.inr hc), fun h c hc hb => hc.elim id fun hc => h c hc hb⟩

theorem oneLine_append {e : Env} {s t : String} : OneLine e (s ++ t) ↔ OneLine e s ∧ OneLine e t := by
  unfold OneLine
  simp only [String.toList_append, List.mem_append]
  exact ⟨fun h => ⟨fun c hc => h c (.inl hc), fun c hc => h c (.inr hc)⟩,
    fun h c hc => hc.elim (h.1 c) (h.2 c)⟩

theorem oneLine_of_none {e : Env} {s : String} (h : s.toList.any Header.breaks = false) : OneLine e s :=
  fun c hc hb => absurd (List.any_eq_false.1 h c hc) (by simp [hb])

theorem oneLine_int (e : Env) (i : Int) : OneLine e (toString i) := by
  intro c hc hb
  rcases mem_toString_int hc with hdigit | rfl
  · obtain rfl | rfl : c = '\r' ∨ c = '\n' := by simpa [Header.breaks] using hb
    · exact absurd hdigit (by decide)
    · exact absurd hdigit (by decide)
  · exact absurd hb (by decide)

/-- One failing execution without failures of the database is enough. -/
theorem not_assures {admitted : St → Prop} {p : App Unit} {P : Response → Prop} {s : St} (hs : admitted s)
    (hresponse : s.own.response = {})
    (h : p.wp sure (fun _ s' => ¬P s'.own.response) (fun _ s' => ¬P s'.own.response) s) :
    ¬Assures admitted p P := by
  intro hall
  have hboth := Prog.wp_and (Sure.wp_of_calls (hall s hs hresponse)) h
  have hends := Sure.wp_iff.1 hboth
  generalize runSurely p s = r at hends
  obtain ⟨out, s'⟩ := r
  cases out <;> exact hends.2 hends.1

/-! ## Going back from the post editor -/

/-- The operations that leave the redirect alone or set it to an address of a kind. -/
def SentTo (P : String → Prop) : (γ : Type) → Sig γ → Prop
  | _, .own f => ∀ o, (f o).2.response.location = o.response.location ∨
      ∃ l, (f o).2.response.location = some l ∧ P l
  | _, _ => True

instance (P : String → Prop) : AllowsPages (SentTo P) where
  query _ := trivial
  exec _ := trivial
  begin := trivial
  commit := trivial
  rollback := trivial
  cache _ := trivial
  own _ h o := .inl (h o)

theorem sentTo_redirect {P : String → Prop} {l : String} (h : P l) :
    (setRedirectHeader l).Every (SentTo P) := .perform fun _ => .inr ⟨l, rfl, h⟩

theorem outcome_sentTo {P : String → Prop} {γ : Type} {o : Sig γ} {s s' : St} {r : Except Error γ}
    (ho : SentTo P γ o) (h : Outcome o s r s') (hs : ∀ l, s.own.response.location = some l → P l) :
    ∀ l, s'.own.response.location = some l → P l := by
  cases o with
  | own f =>
    rw [h.2]
    intro l hl
    rcases ho s.own with hsame | ⟨l', hl', hP⟩
    · exact hs l (hsame.symm.trans hl)
    · obtain rfl := Option.some.inj (hl'.symm.trans hl)
      exact hP
  | cache f => rw [h.2]; exact hs
  | _ => rw [(outcome_own_cache (by trivial) h).1]; exact hs

theorem wp_sentTo {α : Type} {P : String → Prop} {p : App α} (hp : p.Every (SentTo P)) {s : St}
    (hs : s.own.response.location = none) :
    p.wp calls (fun _ s' => ∀ l, s'.own.response.location = some l → P l)
      (fun _ s' => ∀ l, s'.own.response.location = some l → P l) s :=
  Prog.Every.wp (fun _ _ _ _ ho hs h => outcome_sentTo ho h hs) hp fun l hl => absurd (hs.symm.trans hl) (by simp)

/-- Where a response redirects to stays what it is. -/
theorem wp_stays {α : Type} {p : App α} (hp : p.Every Unmoved) {s : St} {l : Option String}
    (hs : s.own.response.location = l) :
    p.wp calls (fun _ s' => s'.own.response.location = l) (fun _ s' => s'.own.response.location = l) s :=
  Prog.Every.wp (fun _ (s : St) _ _ ho (hs : s.own.response.location = l) h => (outcome_unmoved ho h).trans hs) hp hs

namespace Asks

variable {α β : Type} {P : (γ : Type) → Sig γ → Prop}

theorem each {f : α → App Unit} (h : ∀ a, (f a).Every P) (l : List α) : (Prog.each f l).Every P := by
  induction l with
  | nil => exact .ret _
  | cons a l ih => exact (h a).bind fun _ => ih

variable [AllowsPages P]

theorem execTotal (f : Db → Db) : (App.execTotal f).Every P := exec _

theorem rise (t : String) : (App.rise t).Every P := cache _

theorem sessionGetInt (key : String) : (App.sessionGetInt key).Every P := by
  refine Prog.Every.bind (Prog.Every.bind (getOwn _) fun v => ?_) fun v => ?_
  · cases v with
    | none => exact .throw _
    | some v => exact .ret v
  · cases readInt? v with
    | none => exact .throw _
    | some i => exact .ret i

theorem validateRequestOrigin (e : Env) : (App.validateRequestOrigin e).Every P :=
  Prog.Every.bind (.perform (AllowsPages.own _ fun _ => rfl)) fun _ => .ite (.throw _) (.ret _)

theorem adminPrepare : CppBlog.adminPrepare.Every P :=
  basicPrepare.bind fun _ => Prog.Every.bind (getOwn _) fun _ => .ite ((sessionGetInt _).bind fun _ => by
    refine Prog.Every.bind (Prog.Every.bind (getOwn _) fun v => ?_) fun _ => .ret _
    cases v with
    | none => exact .throw _
    | some v => exact .ret v) (.ret _)

theorem renderAdmin (e : Env) (c : AdminContent) (active : String) (view : AdminView) :
    (CppBlog.renderAdmin e c active view).Every P := (getOwn _).bind fun _ => write _

end Asks

namespace AdminPost

/-- The post editor's form as it is submitted; the check boxes of the categories have no part in it. -/
def submittedForm (e : Env) : PostForm := (({} : PostForm).load e.req.postOrGet).validate

/-- The editor ends with a redirect to the address that was submitted. -/
def goesBack (e : Env) (id : Int) : Bool :=
  e.req.method = "POST" && 0 < id && id ≤ maxId && (submittedForm e).valid && !(submittedForm e).remove &&
    ((submittedForm e).save || (submittedForm e).changeStatus) && !(submittedForm e).backurl.value.isEmpty

/-- The form of an existing post when it is submitted: no texts, but boxes of categories. -/
def boxed (add del : List CatBox) : PostForm := { addToCatList := add, delFromCatList := del }

/-- Its boxes are all that differs. -/
theorem validate_boxed (add del : List CatBox) (e : Env) :
    ((boxed add del).load e.req.postOrGet).validate =
      { submittedForm e with
        addToCatList := loadBoxes e.req.postOrGet 10 add
        delFromCatList := loadBoxes e.req.postOrGet (10 + add.length) del } := by
  unfold submittedForm PostForm.validate
  dsimp only
  split_ifs <;> first | rfl | contradiction

section
variable {P : (γ : Type) → Sig γ → Prop} [AllowsPages P] {e : Env} {id : Int} {f : PostForm}

theorem allowed_addToCats (id : Int) (now : Tm) (openStatus : Int) (boxes : List CatBox) :
    (addToCats id now openStatus boxes).Every P :=
  Asks.each (fun _ => .ite (.ret _) ((Asks.exec _).bind fun _ => Asks.rise _)) boxes

theorem allowed_delFromCats (id : Int) (changeStatus : Bool) (boxes : List CatBox) :
    (delFromCats id changeStatus boxes).Every P :=
  Asks.each (fun _ => Prog.Every.bind (.ite (Asks.rise _) (.ret _)) fun _ =>
    .ite (.ret _) (Asks.execTotal _)) boxes

theorem allowed_saveBlock (openStatus : Int) : (saveBlock e id f openStatus).Every P := by
  have hrow : (updateRow e id f openStatus).Every P := by
    refine .ite ((Asks.execTotal _).bind fun _ => (Asks.execTotal _).bind fun _ => .ret _)
      ((Asks.execTotal _).bind fun _ => (Asks.query _).bind fun publish => ?_)
    cases publish with
    | none => exact .throw _
    | some publish => exact Prog.Every.bind (.ite (Asks.execTotal _) (.ret _)) fun _ => .ret _
  exact Asks.transaction <| hrow.bind fun _ => Prog.Every.bind (.ite (Asks.rise _) (.ret _)) fun _ =>
    (Asks.rise _).bind fun _ => (allowed_addToCats _ _ _ _).bind fun _ =>
    (allowed_delFromCats _ _ _).bind fun _ => .perform AllowsPages.commit

theorem allowed_removeBlock (id : Int) : (removeBlock id).Every P :=
  Asks.transaction <| (Asks.execTotal _).bind fun _ => (Asks.execTotal _).bind fun _ =>
    (Asks.execTotal _).bind fun _ => (Asks.rise _).bind fun _ => (Asks.rise _).bind fun _ =>
    .perform AllowsPages.commit

theorem allowed_createBlock (openStatus : Int) : (createBlock e f openStatus).Every P :=
  Asks.transaction <| (Asks.sessionGetInt _).bind fun _ => (Asks.exec _).bind fun _ =>
    (Asks.query _).bind fun _ => (allowed_addToCats _ _ _ _).bind fun _ =>
    Prog.Every.bind (.ite (Asks.rise _) (.ret _)) fun _ =>
    Prog.Every.bind (.perform AllowsPages.commit) fun _ => .ret _

theorem allowed_readPost (isPost : Bool) (id : Int) : (readPost isPost id).Every P := by
  have hstatus : (readStatus isPost id).Every P := .ite (Asks.query _) (Asks.query _)
  refine hstatus.bind fun r => ?_
  cases r with
  | none => exact (Asks.makeErrorResponse 404).bind fun _ => .ret _
  | some x => exact (Asks.query _).bind fun _ => .ret _

theorem allowed_render (id : Int) (isOpen : Bool) (f : PostForm) : (render e id isOpen f).Every P :=
  Asks.adminPrepare.bind fun _ => Asks.renderAdmin _ _ _ _

end

section
variable {e : Env} {id : Int} {f : PostForm} {P : String → Prop}

theorem sentTo_create (hsummary : P (urlAdminSummary e)) : (create e f).Every (SentTo P) :=
  .ite ((sentTo_redirect hsummary).bind fun _ => .ret _) <| (allowed_createBlock _).bind fun _ =>
    .ite (.ret _) ((sentTo_redirect hsummary).bind fun _ => .ret _)

/-- A post that is saved is left to the list of posts or to the address that was submitted. -/
theorem sentTo_save (isOpen : Bool) (hsummary : P (urlAdminSummary e))
    (hback : f.remove = false → (f.save || f.changeStatus) = true → f.backurl.value.isEmpty = false →
      P f.backurl.value) : (save e id isOpen f).Every (SentTo P) := by
  unfold save
  split
  · exact (allowed_removeBlock id).bind fun _ => (sentTo_redirect hsummary).bind fun _ => .ret _
  · rename_i hremove
    refine (allowed_saveBlock _).bind fun _ => Prog.Every.bind ?_ fun _ => .ret _
    split
    · rename_i hsave
      refine sentTo_redirect ?_
      split
      · exact hsummary
      · rename_i hbackurl
        exact hback (Bool.eq_false_iff.2 hremove) hsave (Bool.eq_false_iff.2 hbackurl)
    · exact .ret _

theorem sentTo_edit (isOpen : Bool) (add del : List CatBox) (hsummary : P (urlAdminSummary e))
    (hback : e.req.method = "POST" → id ≠ 0 → (submittedForm e).valid = true →
      (submittedForm e).remove = false → ((submittedForm e).save || (submittedForm e).changeStatus) = true →
      (submittedForm e).backurl.value.isEmpty = false → P (submittedForm e).backurl.value) :
    (edit e id isOpen (boxed add del)).Every (SentTo P) := by
  unfold edit
  split
  · rename_i hpost
    rw [loadForm, Prog.bind_assoc]
    refine (Asks.validateRequestOrigin e).bind fun _ => ?_
    rw [Prog.ret_bind, validate_boxed]
    dsimp only
    split
    · rename_i hvalid
      refine Prog.Every.bind ?_ fun r => ?_
      · split
        · exact sentTo_create hsummary
        · rename_i hid
          exact sentTo_save isOpen hsummary (hback hpost hid hvalid)
      · cases r with
        | none => exact .ret _
        | some id => exact allowed_render _ _ _
    · exact allowed_render _ _ _
  · exact allowed_render _ _ _

/-- Only a post that is there is edited, and none has a number out of range. -/
theorem wp_readPost {s : St} (hs : s.own.response.location = none) :
    (readPost true id).wp calls
      (fun r s' => s'.own.response.location = none ∧
        ∀ x ∈ r, 0 < id ∧ id ≤ maxId ∧ ∃ del, x.2 = boxed [] del)
      (fun _ s' => s'.own.response.location = none) s := by
  rw [readPost, readStatus, if_pos rfl, Prog.wp_bind, wp_query]
  refine ⟨?_, hs⟩
  cases hopen : s.current.selectPostIsOpen id with
  | none =>
    rw [Option.map_none]
    rw [Prog.wp_bind, makeErrorResponse, modifyResponse, wp_modifyOwn, Prog.wp_ret]
    exact ⟨hs, by simp⟩
  | some o =>
    rw [Option.map_some]
    dsimp only
    obtain ⟨p, hp, -⟩ := Option.map_eq_some_iff.1 hopen
    obtain ⟨hmem, rfl⟩ := (Table.find?_eq_some _ _ _).1 hp
    rw [Prog.wp_bind, wp_query]
    refine ⟨⟨hs, fun x hx => ?_⟩, hs⟩
    obtain rfl := Option.mem_some.1 hx
    exact ⟨s.current.posts.key_pos p hmem, (s.current.posts.le_seq p hmem).trans s.current.posts.seq_le,
      _, rfl⟩

/-- The editor redirects to the list of posts or to the address that was submitted. -/
theorem assures_prepareShared (hsummary : P (urlAdminSummary e))
    (hback : goesBack e id = true → P (submittedForm e).backurl.value) :
    Assures (fun _ => True) (prepareShared e id) fun r => ∀ l, r.location = some l → P l := by
  intro s _ hs
  have hs : s.own.response.location = none := by rw [hs]
  unfold prepareShared
  by_cases hpost : e.req.method = "POST"
  · have hfound : (if id ≠ 0 then readPost (e.req.method = "POST") id else .ret (some (false, {}))).wp calls
        (fun r s' => s'.own.response.location = none ∧
          ∀ x ∈ r, (id ≠ 0 → 0 < id ∧ id ≤ maxId) ∧ ∃ del, x.2 = boxed [] del)
        (fun _ s' => s'.own.response.location = none) s := by
      split
      · refine Prog.wp_mono (fun r s' h => ⟨h.1, fun x hx => ?_⟩) (fun _ _ h => h)
          ((decide_eq_true hpost).symm ▸ @wp_readPost id s hs)
        exact ⟨fun _ => ⟨(h.2 x hx).1, (h.2 x hx).2.1⟩, (h.2 x hx).2.2⟩
      · rename_i hid
        refine ⟨hs, fun x hx => ⟨fun h => absurd h hid, [], ?_⟩⟩
        obtain rfl := Option.mem_some.1 hx
        rfl
    refine Prog.wp_seq hfound (fun r s' h => ?_) (fun _ s' h l hl => absurd (h.symm.trans hl) (by simp))
    cases r with
    | none => exact fun l hl => absurd (h.1.symm.trans hl) (by simp)
    | some x =>
      obtain ⟨isOpen, form⟩ := x
      obtain ⟨hrange, del, rfl⟩ := h.2 _ rfl
      refine wp_sentTo ?_ h.1
      dsimp only
      rw [readCats, Prog.bind_assoc]
      refine (Asks.query _).bind fun cats => ?_
      rw [Prog.ret_bind]
      refine sentTo_edit isOpen _ del hsummary fun _ hid hvalid hremove hsave hbackurl => hback ?_
      simp [goesBack, hpost, hrange hid, hvalid, hremove, hsave, hbackurl]
  · -- a request that shows the editor
    refine wp_sentTo (Prog.Every.bind (.ite (allowed_readPost _ _) (.ret _)) fun r => ?_) hs
    cases r with
    | none => exact .ret _
    | some x =>
      refine ((Asks.query _).bind fun _ => .ret _ : (readCats x.2).Every _).bind fun form => ?_
      rw [edit, if_neg hpost]
      exact allowed_render _ _ _

/-! ### A post to edit -/

/-- A state with one post under a number, in no category. -/
def onePost (id : Int) (h : 0 < id ∧ id ≤ maxId) : St where
  db := { Db.fresh with
    posts := {
      rows := [⟨id, 1, "t", "a", "", 0, 0, 0⟩]
      nodup := List.nodup_singleton _
      seq := id
      key_pos := by simpa using h.1
      le_seq := by simp
      seq_nonneg := h.1.le
      seq_le := h.2 } }
  tx := none
  cache := []
  files := []
  own := {}

theorem savePost_onePost (h : 0 < id ∧ id ≤ maxId) (f : PostForm) (hadd : f.addToCatList = []) (now : Tm)
    (openStatus : Int) : ∃ d, (onePost id h).db.savePost id f now openStatus = .ok d := by
  have hrow : ∃ x, (onePost id h).db.updateRow id f now openStatus = .ok x := by
    unfold Db.updateRow
    split
    · exact ⟨_, rfl⟩
    · have hfind : ((onePost id h).db.updatePost id f.title.value f.abstract.value f.content.value
          openStatus).selectPostPublish id = some 0 := by
        simp [Db.selectPostPublish, Db.updatePost, onePost, Table.find?]
      dsimp only
      rw [hfind]
      exact ⟨_, rfl⟩
  obtain ⟨x, hx⟩ := hrow
  rw [Db.savePost, hx, hadd]
  exact ⟨_, rfl⟩

/-- When the editor goes back, it does so to the address that was submitted. -/
theorem wp_prepareShared_back (h : goesBack e id = true) : ∃ hid : 0 < id ∧ id ≤ maxId,
    (prepareShared e id).wp sure
      (fun _ s' => s'.own.response.location = some (submittedForm e).backurl.value)
      (fun _ s' => s'.own.response.location = some (submittedForm e).backurl.value) (onePost id hid) := by
  simp only [goesBack, Bool.and_eq_true, decide_eq_true_eq, Bool.not_eq_true'] at h
  obtain ⟨⟨⟨⟨⟨⟨hpost, hpos⟩, hle⟩, hvalid⟩, hremove⟩, hsave⟩, hbackurl⟩ := h
  refine ⟨⟨hpos, hle⟩, ?_⟩
  have hopen : (onePost id ⟨hpos, hle⟩).db.selectPostIsOpen id = some 0 := by
    simp [onePost, Db.selectPostIsOpen, Table.find?]
  have hcur : (onePost id ⟨hpos, hle⟩).current = (onePost id ⟨hpos, hle⟩).db := rfl
  rw [prepareShared, if_pos hpos.ne']
  simp only [hpost, decide_true, readPost, readStatus, if_true, Prog.wp_bind, Sure.wp_query, hcur, hopen,
    Option.map_some, Prog.wp_ret, readCats]
  show (edit e id _ {}).wp sure _ _ _
  rw [edit, if_pos hpost, Prog.wp_bind, Sure.wp_loadForm, if_neg (by simp [forged, onePost, Session.find])]
  rw [← submittedForm]
  dsimp only
  rw [if_pos hvalid, if_neg hpos.ne', Prog.wp_bind, save, if_neg (by simp [hremove])]
  have hadd : (submittedForm e).addToCatList = [] := by
    unfold submittedForm PostForm.validate
    dsimp only
    split <;> rfl
  refine Prog.wp_seq (wp_saveBlock_sure e id _ _ _) (fun _ s' _ => ?_) (fun _ s' h => ?_)
  · rw [if_pos hsave, if_neg (by simp [hbackurl]), Prog.wp_bind, setRedirectHeader, Sure.wp_modifyResponse,
      Prog.wp_ret]
    -- what is displayed afterwards has no part in the redirect
    exact Sure.wp_of_calls (wp_stays (allowed_render id _ _) rfl)
  · obtain ⟨d, hd⟩ := savePost_onePost ⟨hpos, hle⟩ (submittedForm e) hadd e.chance.now
      (openStatus (0 ≠ 0) (submittedForm e).changeStatus)
    obtain ⟨-, -, err, herr⟩ := h
    exact absurd (hd.symm.trans herr) (by simp)

theorem assures_prepareShared_iff (e : Env) (id : Int) :
    Assures (fun _ => True) (prepareShared e id) (LocatedOnOneLine e) ↔
      (goesBack e id = true → OneLine e (submittedForm e).backurl.value) := by
  constructor
  · intro hall hback
    obtain ⟨hid, hwp⟩ := wp_prepareShared_back hback
    by_contra hline
    refine not_assures trivial rfl (Prog.wp_mono (fun _ s' h => ?_) (fun _ s' h => ?_) hwp) hall <;>
      exact fun hone => hline (hone _ h)
  · exact assures_prepareShared (oneLine_root_append.2 (oneLine_of_none (by decide)))

end

end AdminPost

/-! ## The query string of a listing -/

namespace Summary

variable {e : Env} {catId page : Int}

/-- The numbers of records that are cached for a listing are counts. -/
def Counted (e : Env) (catId : Int) (s : St) : Prop :=
  CountsLaw (countKey (max catId 0) (e.req.getValue "q")) s.cache

theorem asked_curpage_zero {n : Int} (hn : 0 ≤ n) : (Paging.asked n 10 0).curpage = 0 := by
  have hpos := Paging.asked_pageTotal_pos hn (by decide : (0 : Int) < 10) 0
  rcases hn.eq_or_lt with rfl | hn
  · exact (Paging.asked_zero 10 0).2
  · rw [Paging.asked_curpage_eq hn, if_neg (by decide), if_neg (not_le.2 hpos)]

theorem oneLine_redirectUrl_iff (k c : Int) (q : String) :
    OneLine e (redirectUrl e k c q) ↔ (q ≠ "" → OneLine e e.req.queryString) := by
  have hcat : OneLine e (if k ≠ 0 then "/cat/" ++ toString k else "") := by
    split
    · exact oneLine_append.2 ⟨oneLine_of_none (by decide), oneLine_int e k⟩
    · exact oneLine_of_none (by decide)
  have hfrom : OneLine e ("/from/" ++ toString c) :=
    oneLine_append.2 ⟨oneLine_of_none (by decide), oneLine_int e c⟩
  rw [redirectUrl, String.append_assoc, String.append_assoc, String.append_assoc, oneLine_root_append,
    oneLine_append, ← String.append_assoc, oneLine_append]
  rw [and_iff_right hcat, and_iff_right hfrom]
  by_cases hq : q = ""
  · rw [if_pos (by simp [hq])]
    exact iff_of_true (oneLine_of_none (by decide)) fun h => absurd hq h
  · rw [if_neg (by simpa using hq), oneLine_append, forall_prop_of_true hq]
    exact and_iff_right (oneLine_of_none (by decide))

/-- A state in which a category has a cached name, and nothing else is there. -/
def namedCat (k : Int) : St where
  db := Db.fresh
  tx := none
  cache := [⟨"cat_name_" ++ toString k, .frame "n", []⟩]
  files := []
  own := {}

theorem fetch_namedCat {k : Int} {o : CachedObject} (h : o ≠ .catName k) :
    (namedCat k).cache.fetch o.key = none := by
  refine List.find?_eq_none.2 fun x hx => ?_
  obtain rfl := List.mem_singleton.1 hx
  exact fun hkey => h (CachedObject.key_injective (of_decide_eq_true hkey).symm)

/-- The listing of posts that are not there is sent to its first page. -/
theorem wp_list_sent {k : Int} {q key name : String} {s : St} (hs : Unseen ["max_cat_id"] (namedCat k) s)
    (hpage : 0 < page) :
    (list e key k page name q).wp sure
      (fun _ s' => s'.own.response.location = some (redirectUrl e k 0 q)) (fun _ _ => False) s := by
  have hmiss : s.cache.fetch (countKey k q) = none := by
    refine hs.miss ?_ (fetch_namedCat (o := .catCount k q) (by simp))
    rw [countKey_eq, List.mem_singleton]
    exact fun h => absurd (@CachedObject.key_injective _ .maxCatId h) (by simp)
  have hcount : countRecords e k q Db.fresh = 0 := by
    unfold countRecords
    split <;> rfl
  unfold list pageRecords
  rw [Prog.bind_assoc, Prog.wp_bind, wp_fetch_miss hmiss]
  dsimp only
  rw [Prog.bind_assoc, Prog.wp_bind, Sure.wp_query, St.current_of_none (hs.tx.trans rfl), hs.db]
  rw [show (namedCat k).db = Db.fresh from rfl, hcount, Prog.bind_assoc, Prog.wp_bind]
  refine wp_store_sure fun s' _ => ?_
  have hzero : ({ pageRecords := 0, curpage := page } : Paging).calcPages.curpage = 0 :=
    (Paging.asked_zero 10 page).2
  rw [Prog.ret_bind, hzero, if_pos hpage.ne, setRedirectHeader, Sure.wp_modifyResponse]
  rfl

/-- The listing of a page behind the first one is sent to the first one when there are no posts. -/
theorem wp_prepare_sent (hpage : 0 < page) :
    (prepare e catId page).wp sure
      (fun _ s' => s'.own.response.location = some (redirectUrl e (max catId 0) 0 (e.req.getValue "q")))
      (fun _ _ => False) (namedCat (max catId 0)) := by
  have hclamp (x : Int) : (if x < 0 then 0 else x) = max x 0 := by
    split <;> omega
  unfold prepare
  rw [hclamp, hclamp, max_eq_left hpage.le]
  generalize max catId 0 = k
  have hcheck : (checkMaxCatId k).wp sure
      (fun ok s' => ok = true ∧ Unseen ["max_cat_id"] (namedCat k) s') (fun _ _ => False) (namedCat k) := by
    unfold checkMaxCatId
    split
    · have hmax : (namedCat k).cache.fetch "max_cat_id" = none := fetch_namedCat (o := .maxCatId) (by simp)
      rw [Prog.wp_bind, wp_fetch_miss hmax]
      dsimp only
      rw [Prog.wp_bind, Sure.wp_query, Prog.wp_bind]
      exact wp_store_sure fun s' h => ⟨rfl, h⟩
    · exact ⟨rfl, .refl _ _⟩
  refine Prog.wp_seq hcheck (fun ok s₁ h₁ => ?_) (fun _ _ h => h)
  obtain ⟨rfl, h₁⟩ := h₁
  have hpageKey : s₁.cache.fetch (pageKey e (key k page (e.req.getValue "q"))) = none := by
    refine h₁.miss ?_ (fetch_namedCat (o := .page e.req.gzip (.summary k page (e.req.getValue "q"))) (by simp))
    exact fun h => pagePrefix_append_ne _ _ (by decide) (List.mem_singleton.1 h)
  rw [if_neg (by decide)]
  dsimp only
  rw [Prog.wp_bind, wp_fetchPage_miss hpageKey, if_neg (by decide), Prog.wp_bind, addTrigger]
  refine wp_addTriggers_sure fun s₂ h₂ => ?_
  have h₂ : Unseen ["max_cat_id"] (namedCat k) s₂ := h₁.trans h₂
  split
  · have hfetch : s₂.cache.fetch ("cat_name_" ++ toString k) =
        some ⟨"cat_name_" ++ toString k, .frame "n", []⟩ := by
      refine (h₂.cache _ fun h => ?_).trans (List.find?_cons_of_pos (decide_eq_true rfl))
      exact absurd (@CachedObject.key_injective (.catName k) .maxCatId (List.mem_singleton.1 h)) (by simp)
    rw [Prog.wp_bind, categoryName, Prog.wp_bind, fetch, Prog.wp_bind, Sure.wp_cache, hfetch]
    dsimp only
    rw [Prog.wp_bind]
    refine wp_addTriggers_sure fun s₃ h₃ => ?_
    rw [Prog.wp_ret]
    dsimp only
    rw [Prog.wp_ret, if_neg (by decide)]
    exact wp_list_sent (h₂.trans h₃) hpage
  · exact wp_list_sent h₂ hpage

/-- **A listing is sent to another page on one line if and only if no line break of the query string gets
    there**: the first page is asked for, which is never sent on, or nothing is searched for, or the query
    string has none. -/
theorem assures_prepare_iff (e : Env) (catId page : Int) :
    Assures (Counted e catId) (prepare e catId page) (LocatedOnOneLine e) ↔
      (0 < page → e.req.getValue "q" ≠ "" → OneLine e e.req.queryString) := by
  constructor
  · intro hall hpage hq
    by_contra hline
    refine not_assures (fun n hn => ?_) rfl (Prog.wp_mono (fun _ s' h => ?_) (fun _ _ h => h.elim)
      (wp_prepare_sent hpage)) hall
    · rw [countKey_eq, fetch_namedCat (by simp)] at hn
      exact absurd hn (by simp)
    · exact fun hone => hline ((oneLine_redirectUrl_iff _ _ _).1 (hone _ h) hq)
  · intro hcond s hlaw hs
    have hs : s.own.response.location = none := by rw [hs]
    have hnone {s' : St} (h : s'.own.response.location = none) : LocatedOnOneLine e s'.own.response :=
      fun l hl => absurd (h.symm.trans hl) (by simp)
    refine Prog.wp_mono (fun _ s' h => ?_) (fun _ s' h => hnone h)
      (wp_prepare (Q := fun s' => s'.own.response.location = none ∨
        Moved e (max catId 0) (max page 0) (e.req.getValue "q") s') (fun _ h => .inl h) hs
        fun key name s' hcalm => wp_list_moved key name (fun n hn => hlaw n (by rw [← hn, hcalm.2])) hcalm.1)
    rcases h with h | ⟨n, hn, -, hmoved, hlocation⟩
    · exact hnone h
    · intro l hl
      obtain rfl := Option.some.inj (hlocation.symm.trans hl)
      refine (oneLine_redirectUrl_iff _ _ _).2 (hcond ?_)
      by_contra hpage
      rw [max_eq_right (not_lt.1 hpage)] at hmoved
      exact hmoved (asked_curpage_zero hn)

end Summary

/-! ## The name of a downloaded file -/

namespace Download

/-- What `download::prepare` writes about the name of a file. -/
def disposition (name : String) : String :=
  "attachment; filename=\x22" ++ name ++ "\x22" ++
    (if plainName name then "" else "; filename*=utf-8''" ++ urlencode name)

/-- Whatever a response says about the name of its file has no line break and is read back as that name. -/
def Named (name : String) (r : Response) : Prop :=
  ∀ v, ("Content-Disposition", v) ∈ r.headers →
    (∀ c ∈ v.toList, Header.breaks c = false) ∧ Header.firstQuoted "filename" v = some name

/-- Something is said about the name of the file: its hash has the first four digits, which name the
    directories, and its name an extension. -/
def headed (md5 name : String) : Bool := 4 ≤ md5.length && '.' ∈ name.toList

/-- A character that is no line break and closes no quotes. -/
def Harmless (c : Char) : Prop := Header.breaks c = false ∧ c ≠ '"'

instance (c : Char) : Decidable (Harmless c) := inferInstanceAs (Decidable (_ ∧ _))

theorem harmless_digitChar : ∀ n < 16, Harmless (Nat.digitChar n) := by decide

theorem harmless_of_isAlphanum {c : Char} (h : c.isAlphanum = true) : Harmless c := by
  constructor
  · cases hb : Header.breaks c with
    | false => rfl
    | true =>
      obtain rfl | rfl : c = '\r' ∨ c = '\n' := by simpa [Header.breaks] using hb
      · exact absurd h (by decide)
      · exact absurd h (by decide)
  · rintro rfl
    exact absurd h (by decide)

theorem harmless_urlencode (s : String) : ∀ c ∈ (urlencode s).toList, Harmless c := by
  intro c hc
  rw [urlencode, String.toList_join, List.mem_flatMap] at hc
  obtain ⟨t, ht, hct⟩ := hc
  obtain ⟨b, -, rfl⟩ := List.mem_map.1 ht
  dsimp only at hct
  split at hct
  · rename_i hplain
    obtain rfl : c = Char.ofNat b.toNat := by simpa using hct
    simp only [Bool.or_eq_true, decide_eq_true_eq] at hplain
    rcases hplain with (((hplain | hplain) | hplain) | hplain) | hplain
    · exact harmless_of_isAlphanum hplain
    all_goals
      rw [hplain]
      decide
  · rw [String.toList_append, String.toList_ofList, List.mem_append] at hct
    have hb : b.toNat < 256 := b.toNat_lt
    rcases hct with hct | hct
    · obtain rfl : c = '%' := by simpa using hct
      decide
    · rw [String.toList_ofList, List.mem_cons, List.mem_singleton] at hct
      rcases hct with rfl | rfl
      · exact harmless_digitChar _ (by omega)
      · exact harmless_digitChar _ (by omega)

theorem harmless_tail (name : String) : ∀ c ∈ (if plainName name then "" else
    "; filename*=utf-8''" ++ urlencode name).toList, Harmless c := by
  split
  · exact fun c hc => absurd hc (by simp)
  · intro c hc
    rcases List.mem_append.1 (String.toList_append ▸ hc) with hc | hc
    · have hwords : "; filename*=utf-8''".toList.all (fun c => decide (Harmless c)) = true := by decide
      exact of_decide_eq_true (List.all_eq_true.1 hwords c hc)
    · exact harmless_urlencode name c hc

/-- What follows the closing quote. -/
def afterName (name : String) : List Char :=
  (if plainName name then "" else "; filename*=utf-8''" ++ urlencode name).toList

theorem disposition_toList (name : String) :
    (disposition name).toList =
      "attachment; filename=\x22".toList ++ (name.toList ++ '"' :: afterName name) := by
  have hquote : "\x22".toList = ['"'] := by simp
  unfold disposition afterName
  rw [String.toList_append, String.toList_append, String.toList_append, hquote, List.append_assoc,
    List.append_assoc, List.singleton_append]

theorem afterName_cases (name : String) :
    afterName name = [] ∨ (afterName name).head? = some ';' := by
  unfold afterName
  split
  · exact .inl rfl
  · rw [String.toList_append]
    exact .inr rfl

/-- The parameter is what is read from behind the opening quote. -/
theorem firstQuoted_disposition (name : String) :
    Header.firstQuoted "filename" (disposition name) =
      match Header.quotedString (name.toList ++ '"' :: afterName name) with
      | some (text, rest) =>
          if rest = [] ∨ rest.head? = some ';' then some (String.ofList text) else none
      | none => none := by
  have hname : ("filename" ++ "=\x22").toList.head? = some 'f' := rfl
  refine @Header.firstQuoted_eq _ _ "attachment".toList _ (by decide) (fun c hc => ?_) ?_
  · obtain rfl : 'f' = c := Option.some.inj (hname.symm.trans hc)
    decide
  have hwords : "attachment; filename=\x22".toList =
      "attachment".toList ++ ';' :: ' ' :: ("filename" ++ "=\x22").toList := by decide
  rw [disposition_toList, hwords, List.append_assoc]
  congr 1

/-- **A name is read back from what is written about it if and only if each of its characters stands for
    itself between quotes.** -/
theorem disposition_iff (name : String) :
    ((∀ c ∈ (disposition name).toList, Header.breaks c = false) ∧
      Header.firstQuoted "filename" (disposition name) = some name) ↔
      ∀ c ∈ name.toList, Header.qdtext c = true := by
  have hquote : '"' ∉ afterName name := fun h => (harmless_tail name _ h).2 rfl
  constructor
  · rintro ⟨-, hread⟩
    rw [firstQuoted_disposition] at hread
    cases hq : Header.quotedString (name.toList ++ '"' :: afterName name) with
    | none => rw [hq] at hread; exact absurd hread (by simp)
    | some x =>
      obtain ⟨text, rest⟩ := x
      rw [hq] at hread
      dsimp only at hread
      split at hread
      · obtain rfl := Option.some.inj hread
        rw [String.toList_ofList] at hq ⊢
        exact (Header.quotedString_eq_iff hquote).1 ⟨rest, hq⟩
      · exact absurd hread (by simp)
  · intro h
    constructor
    · intro c hc
      rw [disposition_toList, List.mem_append, List.mem_append, List.mem_cons] at hc
      rcases hc with hc | hc | rfl | hc
      · have hwords : "attachment; filename=\x22".toList.any Header.breaks = false := by decide
        exact Bool.eq_false_iff.2 (List.any_eq_false.1 hwords c hc)
      · exact Header.breaks_of_qdtext (h c hc)
      · rfl
      · exact (harmless_tail name c hc).1
    · rw [firstQuoted_disposition, Header.quotedString_append h]
      dsimp only
      rw [if_pos (afterName_cases name), String.ofList_toList]

/-- What a response says about the name of a file is the same. -/
def SameLabel (s s' : St) : Prop :=
  ∀ v, ("Content-Disposition", v) ∈ s'.own.response.headers ↔ ("Content-Disposition", v) ∈ s.own.response.headers

instance : IsPreorder St SameLabel where
  refl _ _ := Iff.rfl
  trans _ _ _ h h' v := (h' v).trans (h v)

theorem sameLabel_setHeader {header : String} (h : header ≠ "Content-Disposition") (value : String) :
    (setHeader header value).Within calls SameLabel := fun s => wp_modifyOwn.2 fun v => by
  show (_, v) ∈ s.own.response.headers ++ [(header, value)] ↔ _
  simp [h.symm]

theorem sameLabel_response {f : Response → Response} (h : ∀ r, (f r).headers = r.headers) :
    (modifyResponse f).Within calls SameLabel := fun s => wp_modifyOwn.2 fun v => by
  show (_, v) ∈ (f s.own.response).headers ↔ _
  rw [h]

/-- Sending a file says nothing about its name. -/
theorem sameLabel_serveFile (e : Env) (show64 : Int → String) (path : String) :
    (serveFile e show64 path).Within calls SameLabel := by
  have hsend (content : List UInt8) (mtime : Nat) : (sendFile e show64 content mtime).Within calls SameLabel := by
    refine Prog.Within.bind (.ite (sameLabel_setHeader (by decide) _) (.ret _)) fun _ => ?_
    iterate 9 refine (sameLabel_setHeader (by decide) _).bind fun _ => ?_
    exact Prog.Within.bind (.ite (sameLabel_response fun _ => rfl) (.ret _)) fun _ =>
      sameLabel_response fun _ => rfl
  refine Prog.Within.bind (fun s => wp_files.2 fun v => Iff.rfl) fun r => ?_
  match r with
  | none => exact sameLabel_response fun _ => rfl
  | some .dir => exact hsend _ _
  | some (.file content mtime) => exact hsend _ _

/-- The rest of a download, once the path is known. -/
theorem prepare_bind (e : Env) (md5 size name : String) :
    prepare e md5 size name = basicPrepare.bind fun _ =>
      (openedPath e md5 size name).bind fun path =>
      (setHeader "Content-Type" "application/octet-stream").bind fun _ =>
      (setHeader "Content-Disposition" (disposition name)).bind fun _ =>
      serveFile e (fun x => toString (toSize x)) path := by
  unfold prepare openedPath disposition
  congr 1
  funext _
  rw [Prog.bind_assoc]
  congr 1
  funext path
  rw [Prog.bind_assoc]
  congr 1

/-- The path is known exactly if something is said about the name. -/
theorem openedPath_cases (e : Env) (md5 size name : String) :
    (headed md5 name = true ∧ ∃ path, openedPath e md5 size name = .ret path) ∨
      (headed md5 name = false ∧ ∃ err, openedPath e md5 size name = .throw err) := by
  unfold openedPath headed
  by_cases h4 : 4 ≤ md5.length
  · obtain ⟨path, hpath, -⟩ := Upload.uploadPath_eq_ret e h4 (toSize (atol size))
    rw [hpath, Prog.ret_bind, CppBlog.extension]
    by_cases hdot : '.' ∈ name.toList
    · rw [if_pos hdot, Prog.ret_bind]
      exact .inl ⟨by simp [h4, hdot], _, rfl⟩
    · rw [if_neg hdot, Prog.throw_bind]
      exact .inr ⟨by simp [hdot], _, rfl⟩
  · rw [Upload.uploadPath_eq_throw e (by omega), Prog.throw_bind]
    exact .inr ⟨by simp [h4], _, rfl⟩

/-- What is said about the name once the path is known. -/
theorem wp_labelled (e : Env) (name path : String) {s : St} (hs : s.own.response = {}) :
    ((setHeader "Content-Type" "application/octet-stream").bind fun _ =>
      (setHeader "Content-Disposition" (disposition name)).bind fun _ =>
      serveFile e (fun x => toString (toSize x)) path).wp calls
      (fun _ s' => ∀ v, ("Content-Disposition", v) ∈ s'.own.response.headers ↔ v = disposition name)
      (fun _ s' => ∀ v, ("Content-Disposition", v) ∈ s'.own.response.headers ↔ v = disposition name) s := by
  rw [Prog.wp_bind, setHeader, modifyResponse, wp_modifyOwn, Prog.wp_bind, setHeader, modifyResponse,
    wp_modifyOwn]
  generalize hs₁ : (s.setOwn _).setOwn _ = s₁
  have hlabel (v : String) :
      ("Content-Disposition", v) ∈ s₁.own.response.headers ↔ v = disposition name := by
    have hheaders : s₁.own.response.headers = (s.own.response.headers ++
        [("Content-Type", "application/octet-stream")]) ++ [("Content-Disposition", disposition name)] := by
      rw [← hs₁]
      rfl
    rw [hheaders, hs]
    simp
  exact Prog.wp_mono (fun _ s' h v => (h v).trans (hlabel v)) (fun _ s' h v => (h v).trans (hlabel v))
    (sameLabel_serveFile e _ path s₁)

/-- A state with the options of the site cached. -/
def optionsCached : St where
  db := Db.fresh
  tx := none
  cache := [⟨"options", .info {}, []⟩]
  files := []
  own := {}

/-- **The name of a file is read back from its download if and only if each of its characters stands for
    itself between quotes**, or nothing is said about it. -/
theorem assures_prepare_iff (e : Env) (md5 size name : String) :
    Assures (fun _ => True) (prepare e md5 size name) (Named name) ↔
      (headed md5 name = true → ∀ c ∈ name.toList, Header.qdtext c = true) := by
  have hcases := openedPath_cases e md5 size name
  rw [prepare_bind]
  constructor
  · intro hall hhead
    obtain ⟨-, path, hpath⟩ | ⟨hno, -⟩ := hcases
    · by_contra hname
      refine not_assures (s := optionsCached) trivial rfl ?_ hall
      have hfetch : optionsCached.cache.fetch "options" = some ⟨"options", .info {}, []⟩ := by rfl
      rw [Prog.wp_bind, basicPrepare, Prog.wp_bind, fetch, Prog.wp_bind, Sure.wp_cache, hfetch]
      dsimp only
      rw [Prog.wp_bind]
      refine wp_addTriggers_sure fun s' hs' => ?_
      rw [Prog.wp_ret]
      dsimp only
      rw [Prog.wp_ret, hpath, Prog.ret_bind]
      have hsaid := Sure.wp_of_calls (wp_labelled e name path (hs'.response.trans rfl))
      have hnot {s'' : St}
          (h : ∀ v, ("Content-Disposition", v) ∈ s''.own.response.headers ↔ v = disposition name) :
          ¬Named name s''.own.response :=
        fun hnamed => hname ((disposition_iff name).1 (hnamed _ ((h _).2 rfl)))
      exact Prog.wp_mono (fun _ _ h => hnot h) (fun _ _ h => hnot h) hsaid
    · exact absurd hhead (by simp [hno])
  · intro hcond s _ hs
    refine Prog.wp_seq (SameResponse.basicPrepare s) (fun _ s' h => ?_) (fun _ s' h => ?_)
    · have hs' : s'.own.response = {} := h.trans hs
      obtain ⟨hhead, path, hpath⟩ | ⟨-, err, herr⟩ := hcases
      · rw [hpath, Prog.ret_bind]
        refine Prog.wp_mono (fun _ s'' h v hv => ?_) (fun _ s'' h v hv => ?_) (wp_labelled e name path hs') <;>
        · obtain rfl := (h v).1 hv
          exact (disposition_iff name).2 (hcond hhead)
      · rw [herr, Prog.throw_bind, Prog.wp_throw, hs']
        exact fun v hv => absurd hv (by simp)
    · have hs' : s'.own.response = {} := h.trans hs
      rw [hs']
      exact fun v hv => absurd hv (by simp)

end Download

/-! ## The three of them -/

/-- **Text of a request in headers**: for every request the post editor and a listing redirect on one line if
    and only if the address to go back to, or the query string, has no line break where it gets into the
    redirect; and what a download says about the name of its file is on one line and read back as that name
    if and only if each character of the name stands for itself between quotes. -/
theorem headers_hold_iff (e : Env) :
    (∀ id : Int, Assures (fun _ => True) (AdminPost.prepareShared e id) (LocatedOnOneLine e) ↔
      (AdminPost.goesBack e id = true → OneLine e (AdminPost.submittedForm e).backurl.value)) ∧
    (∀ catId page : Int, Assures (Summary.Counted e catId) (Summary.prepare e catId page) (LocatedOnOneLine e) ↔
      (0 < page → e.req.getValue "q" ≠ "" → OneLine e e.req.queryString)) ∧
    ∀ md5 size name : String, Assures (fun _ => True) (Download.prepare e md5 size name) (Download.Named name) ↔
      (Download.headed md5 name = true → ∀ c ∈ name.toList, Header.qdtext c = true) :=
  ⟨AdminPost.assures_prepareShared_iff e, Summary.assures_prepare_iff e, Download.assures_prepare_iff e⟩

/-- A download of a file with a quote in its name. -/
def quotedDownload : Env :=
  Site.sample.env { req := { sid := "v", path := "/download/abcd/1/a\x22.txt" } }

/-- A post that is saved, to go back to an address of two lines. -/
def brokenEdit : Env :=
  Site.sample.env { req := {
    sid := "v", path := "/admin/post/1", method := "POST"
    post := [("_1", "t"), ("_2", "a"), ("_3", ""), ("_4", "save"), ("_9", "/\r\nSet-Cookie: a=b")] } }

/-- **A name with a quote is routed to the download and not read back, and a post editor that is to go back to
    an address of two lines redirects to it.** -/
theorem not_headers_hold :
    (∃ caps, downloadRx.full "/abcd/1/a\x22.txt".toList = some caps ∧
      ¬Assures (fun _ => True) (Download.prepare quotedDownload (text caps 1) (text caps 2) (text caps 3))
        (Download.Named (text caps 3))) ∧
    ¬Assures (fun _ => True) (AdminPost.prepareShared brokenEdit 1) (LocatedOnOneLine brokenEdit) := by
  constructor
  · obtain ⟨caps, hcaps, h1, -, h3⟩ := @Upload.full_downloadRx "abcd".toList "1".toList "a\x22.txt".toList
      ⟨by decide, List.all_eq_true.1 (by decide)⟩ ⟨by decide, List.all_eq_true.1 (by decide)⟩ (by decide) (by decide)
    refine ⟨caps, hcaps, fun h => ?_⟩
    rw [Download.assures_prepare_iff, text, text, h1, h3] at h
    exact absurd (h (by decide) '"' (by decide)) (by decide)
  · rw [AdminPost.assures_prepareShared_iff]
    exact fun h => absurd (h (by decide) '\r' (by decide) (by decide)) (by decide)

end CppBlog
