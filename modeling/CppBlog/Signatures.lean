import CppBlog.PublicAccess
import Mathlib.Data.List.TakeDrop
import Mathlib.Data.List.TakeWhile

set_option autoImplicit false

/-! # Who signs a comment

A comment of a visitor is to carry a name, a mail address and at most a valid URL.
`comment_form::validate` checks these fields only on its way past two early returns, and the second
of them is taken by every session that has solved a captcha before: from then on the form library's
own checks are all that is left, and they accept empty fields. -/

namespace CppBlog

open Effect Store App Relation

/-! ## Well-signed comments -/

/-- `[^@]+@[^@]+` -/
def IsMail (s : String) : Prop :=
  ∃ user host : List Char, s.toList = user ++ '@' :: host ∧
    user ≠ [] ∧ host ≠ [] ∧ '@' ∉ user ∧ '@' ∉ host

/-- A comment with an author, a mail address and no invalid URL. -/
structure Signed (lib : Library) (c : Comment) : Prop where
  author : c.author ≠ ""
  email : c.email ≠ "" ∧ IsMail c.email
  url : c.url = "" ∨ lib.uriValid (escape c.url) = true

/-- What the expression of the mail field accepts, unless it is empty. -/
theorem isMail_of_mailRegex {s : String} (h : CommentForm.mailRegex s = true) (hne : s ≠ "") :
    IsMail s := by
  have hempty : s.isEmpty = false := by simpa using hne
  simp only [CommentForm.mailRegex, hempty, Bool.false_or] at h
  split at h
  · rename_i user at_ host hspan
    rw [List.span_eq_takeWhile_dropWhile] at hspan
    obtain ⟨rfl, hdrop⟩ := Prod.mk.inj hspan
    simp only [Bool.and_eq_true, Bool.not_eq_true', List.isEmpty_eq_false_iff, List.all_eq_true,
      decide_eq_true_eq] at h
    obtain ⟨⟨huser, hhost⟩, hat⟩ := h
    have hsplit := List.takeWhile_append_dropWhile (p := (· ≠ '@')) (l := s.toList)
    have hhead : at_ = '@' := by
      have := List.head?_dropWhile_not (· ≠ '@') s.toList
      rw [hdrop] at this
      simpa using this
    rw [hdrop, hhead] at hsplit
    refine ⟨_, host, hsplit.symm, huser, hhost, ?_, fun hmem => hat _ hmem rfl⟩
    intro hmem
    simpa using List.mem_takeWhile_imp hmem
  · exact absurd h (by simp)

/-! ## Validation -/

/-- The comment form a request submits. -/
def submittedComment (e : Env) : CommentForm := (CommentForm.load {} e.req.postOrGet).validate

/-- The request takes the early return of `comment_form::validate` for a visitor, with fields that the
    checks behind it refuse, to send a comment. -/
structure SkipsChecks (e : Env) (session : Session) : Prop where
  route : (routedToPostback e).isSome = true
  method : e.req.method = "POST"
  noUser : session.isSet "user" = false
  visitor : session.isSet "visitor" = true
  form : (submittedComment e).valid = true
  send : (submittedComment e).send = true
  fields : (Post.checkFields e (submittedComment e) true).1 = false

/-- The fields a comment is made of. -/
structure SameFields (f g : CommentForm) : Prop where
  author : f.author.value = g.author.value
  mail : f.mail.value = g.mail.value
  url : f.url.value = g.url.value
  content : f.content.value = g.content.value
  send : f.send = g.send

theorem SameFields.refl (f : CommentForm) : SameFields f f := ⟨rfl, rfl, rfl, rfl, rfl⟩

/-- The checks look at the fields alone. -/
theorem checkFields_fst {e : Env} {f g : CommentForm} (h : SameFields f g) (isValid : Bool) :
    (Post.checkFields e f isValid).1 = (isValid && (Post.checkFields e g true).1) := by
  simp only [Post.checkFields, h.author, h.mail, h.url, Bool.true_and, Bool.and_assoc]

/-- What the validation of a visitor's form establishes: the form library's checks in any case, those of
    the fields if the session was no visitor's yet. -/
structure Validated (e : Env) (f : CommentForm) (s : St) (v : Bool × CommentForm) (s' : St) : Prop
    extends Idle s s' where
  noUser : s'.own.session.isSet "user" = false
  same : SameFields v.2 f
  form : v.1 = true → f.valid = true
  fields : v.1 = true → s.own.session.isSet "visitor" = false → (Post.checkFields e f true).1 = true

theorem wp_checkCaptcha (f : CommentForm) {s : St} (huser : s.own.session.isSet "user" = false) :
    (Post.checkCaptcha f).wp calls
      (fun v s' => Idle s s' ∧ s'.own.session.isSet "user" = false ∧ SameFields v.2 f)
      (fun _ => Idle s) s := by
  unfold Post.checkCaptcha
  rw [Prog.wp_bind, wp_getOwn]
  split
  · rw [Prog.wp_bind, wp_sessionClear]
    exact ⟨⟨rfl, rfl, rfl⟩, rfl, ⟨rfl, rfl, rfl, rfl, rfl⟩⟩
  · rw [Prog.wp_bind, wp_sessionSet]
    refine ⟨⟨rfl, rfl, rfl⟩, ?_, .refl f⟩
    exact (Session.isSet_set_ne _ (by decide) _).trans huser

theorem wp_validate (e : Env) (form : CommentForm) {s : St}
    (huser : s.own.session.isSet "user" = false) :
    (Post.validate e form).wp calls (Validated e form.validate s) (fun _ => Idle s) s := by
  unfold Post.validate
  dsimp only
  split
  · exact ⟨refl s, huser, .refl _, by simp, by simp⟩
  rename_i hform
  have hform : form.validate.valid = true := by simpa using hform
  rw [Prog.wp_bind, wp_sessionIsSet, huser, if_neg (by simp), Prog.wp_bind, wp_sessionIsSet]
  by_cases hvisitor : s.own.session.isSet "visitor" = true
  · rw [if_pos hvisitor]
    exact ⟨refl s, huser, .refl _, fun _ => hform, fun _ h => absurd h (by simp [hvisitor])⟩
  · have hvisitor : s.own.session.isSet "visitor" = false := by simpa using hvisitor
    rw [if_neg (by simp [hvisitor]), Prog.wp_bind, wp_sessionIsSet, hvisitor, Prog.wp_bind]
    refine Prog.wp_mono (fun v s' h => ?_) (fun _ s' h => h) (wp_checkCaptcha _ huser)
    obtain ⟨hidle, huser', hsame⟩ := h
    refine ⟨hidle, huser', ⟨hsame.author, hsame.mail, hsame.url, hsame.content, hsame.send⟩,
      fun _ => hform, fun hvalid _ => ?_⟩
    have hchecked : (Post.checkFields e v.2 v.1).1 = true := hvalid
    rw [checkFields_fst hsame, Bool.and_eq_true] at hchecked
    exact hchecked.2

/-! ## The handler -/

/-- Every comment after a step was there before it or is well signed. -/
def AddsSigned (lib : Library) (d d' : Db) : Prop :=
  ∀ c ∈ d'.comments.rows, c ∈ d.comments.rows ∨ Signed lib c

theorem AddsSigned.of_eq {lib : Library} {d d' : Db} (h : d'.comments = d.comments) :
    AddsSigned lib d d' := by
  intro c hc
  rw [h] at hc
  exact .inl hc

/-- Outside of a transaction only well-signed comments are added. -/
def AddsOnlySigned (lib : Library) (s s' : St) : Prop :=
  s.tx = none → s'.tx = none ∧ AddsSigned lib s.db s'.db

instance (lib : Library) : AllowsIdle (AddsOnlySigned lib) where
  refl _ hs := ⟨hs, .of_eq rfl⟩
  trans a b c hab hbc ha := by
    obtain ⟨hb, hdb⟩ := hab ha
    obtain ⟨hc, hdb'⟩ := hbc hb
    refine ⟨hc, fun x hx => ?_⟩
    rcases hdb' x hx with hx | hx
    · exact hdb x hx
    · exact .inr hx
  of_idle h hs := ⟨h.tx.trans hs, .of_eq (by rw [h.db])⟩

/-- Upgrades leave the comments alone. -/
theorem upgrades_comments {d d' : Db} (h : ReflTransGen Upgraded d d') :
    d'.comments = d.comments := by
  induction h with
  | refl => rfl
  | tail _ hstep ih => rw [Db.upgraded_frame hstep, ih]

theorem Reads.addsOnlySigned {lib : Library} {s s' : St} (h : Reads s s') :
    AddsOnlySigned lib s s' := by
  intro hs
  obtain ⟨htx, hdb⟩ := h.db hs
  exact ⟨htx, .of_eq (upgrades_comments hdb)⟩

/-- What the block of `post::postback` stores for a visitor is what the form says. -/
theorem wp_postbackBlock_visitor (e : Env) (id : Int) (f : CommentForm) {s : St}
    (huser : s.own.session.isSet "user" = false) (hs : s.tx = none) :
    let P (s' : St) := s'.tx = none ∧ (s'.db = s.db ∨ (f.send = true ∧ ∃ m,
      s.db.insertComment id f.author.value f.mail.value f.url.value e.chance.now f.content.value
        = .ok m ∧ s'.db = m.updateCommentCount id))
    (Post.postbackBlock e id f).wp calls (fun _ => P) (fun _ => P) s := by
  intro P
  have hsame : P s := ⟨hs, .inl rfl⟩
  have hback (o : Own) (c : Cache) : P { s with own := o, cache := c, tx := none } :=
    ⟨rfl, .inl rfl⟩
  unfold Post.postbackBlock
  rw [wp_transaction]
  refine ⟨?_, hsame⟩
  rw [Prog.wp_bind, wp_query]
  refine ⟨?_, hback s.own s.cache⟩
  split
  · simp only [Prog.wp_bind, wp_makeErrorResponse, Prog.wp_ret]
    exact hback _ _
  split
  · simp only [Prog.wp_bind, wp_makeErrorResponse, Prog.wp_ret]
    exact hback _ _
  split
  · rename_i hsend
    simp only [Post.signature, huser, Bool.false_eq_true, if_false, Prog.wp_ret, Prog.wp_bind,
      wp_sessionIsSet, wp_exec, wp_execTotal, wp_rise, wp_commit, wp_setRedirectHeader,
      St.current_tx]
    have hstored (m : Db) (hm : s.db.insertComment id f.author.value f.mail.value f.url.value
        e.chance.now f.content.value = .ok m) (o : Own) (c : Cache) :
        P { s with db := m.updateCommentCount id, own := o, cache := c, tx := none } :=
      ⟨rfl, .inr ⟨hsend, m, hm, rfl⟩⟩
    exact ⟨fun m hm => ⟨⟨hstored m hm _ _, hback _ _⟩, hback _ _⟩, fun _ _ => hback _ _, hback _ _⟩
  · exact hback _ _

/-- A form whose fields pass the checks makes a well-signed comment. -/
theorem addsSigned_of_checked {e : Env} {f : CommentForm} {d m : Db} {id : Int}
    (hf : f.valid = true) (hmail : f.mail.valid = true → CommentForm.mailRegex f.mail.value = true)
    (hchecked : (Post.checkFields e f true).1 = true)
    (hm : d.insertComment id f.author.value f.mail.value f.url.value e.chance.now f.content.value
      = .ok m) : AddsSigned e.lib d (m.updateCommentCount id) := by
  intro c hc
  have hrows : (m.updateCommentCount id).comments.rows = m.comments.rows := rfl
  rw [hrows, (Db.insertComment_eq_ok hm).2] at hc
  rcases List.mem_append.1 hc with hc | hc
  · exact .inl hc
  · right
    rw [List.mem_singleton.1 hc]
    simp only [Post.checkFields, Bool.true_and, Bool.and_eq_true, Bool.not_eq_true',
      Bool.or_eq_true] at hchecked
    obtain ⟨⟨hauthor, hne⟩, hurl⟩ := hchecked
    have hne : f.mail.value ≠ "" := by simpa using hne
    have hvalid : f.mail.valid = true := by
      simp only [CommentForm.valid, Bool.and_eq_true] at hf
      exact hf.1.1.1.2
    refine ⟨by simpa using hauthor, ⟨hne, isMail_of_mailRegex (hmail hvalid) hne⟩, ?_⟩
    rcases hurl with hurl | hurl
    · exact .inl (by simpa using hurl)
    · exact .inr hurl

/-- The form library has matched the mail field of a valid form. -/
theorem mailRegex_of_submitted {e : Env} (h : (submittedComment e).mail.valid = true) :
    CommentForm.mailRegex (submittedComment e).mail.value = true := by
  simp only [submittedComment, CommentForm.validate, CommentForm.validateMail, TextField.setValid,
    Bool.and_eq_true] at h
  exact h.2

/-- `post::postback` for a visitor whose request does not skip the checks. -/
theorem wp_postback_signed (e : Env) (sid : String) (hsid : routedToPostback e = some sid) {s : St}
    (hs : s.tx = none) (huser : s.own.session.isSet "user" = false)
    (hskip : ¬SkipsChecks e s.own.session) :
    (Post.postback e sid).wp calls (fun _ => AddsOnlySigned e.lib s)
      (fun _ => AddsOnlySigned e.lib s) s := by
  have hidle {s' s'' : St} (h : AddsOnlySigned e.lib s s') (h' : Idle s' s'') :
      AddsOnlySigned e.lib s s'' := IsTrans.trans _ _ _ h (AllowsIdle.of_idle h')
  unfold Post.postback
  split
  · exact Idle.makeErrorResponse (R := AddsOnlySigned e.lib) _ s
  rename_i hmethod
  have hmethod : e.req.method = "POST" := by simpa using hmethod
  have hchecked (o : Own) : AddsOnlySigned e.lib s (s.setOwn o) := fun hs => ⟨hs, .of_eq rfl⟩
  rw [Prog.wp_bind, wp_loadForm]
  split
  · exact hchecked _
  refine Prog.wp_seq (wp_validate e _ (s := s.setOwn { s.own with csrfChecked := true }) huser)
    (fun v s₁ hv => ?_) fun _ s₁ h => hidle (hchecked _) h
  have hs₁ : s₁.tx = none := hv.tx.trans hs
  have hstart : AddsOnlySigned e.lib s s₁ := hidle (hchecked _) hv.toIdle
  have hblock : (if v.1 then Post.postbackBlock e (Text.atoi sid) v.2 else .ret (some "")).wp calls
      (fun _ => AddsOnlySigned e.lib s) (fun _ => AddsOnlySigned e.lib s) s₁ := by
    split
    · rename_i hvalid
      refine Prog.wp_mono (fun _ s₂ h => ?_) (fun _ s₂ h => ?_)
        (wp_postbackBlock_visitor e (Text.atoi sid) v.2 hv.noUser hs₁)
      all_goals
        obtain ⟨htx, hdb⟩ := h
        refine fun _ => ⟨htx, ?_⟩
        rcases hdb with hdb | ⟨hsend, m, hm, hdb⟩
        · exact .of_eq (by rw [hdb, hv.db]; rfl)
        · have hfields : (Post.checkFields e (submittedComment e) true).1 = true := by
            by_contra hno
            have hvisitor : s.own.session.isSet "visitor" = true := by
              by_contra hvisitor
              exact hno (hv.fields hvalid (Bool.eq_false_iff.2 hvisitor))
            exact hskip ⟨by simp [hsid], hmethod, huser, hvisitor, hv.form hvalid,
              hv.same.send.symm.trans hsend, by simpa using hno⟩
          rw [hdb]
          rw [hv.same.author, hv.same.mail, hv.same.url, hv.same.content, hv.db] at hm
          exact addsSigned_of_checked (hv.form hvalid) mailRegex_of_submitted hfields hm
    · exact hstart
  refine Prog.wp_seq hblock (fun r s₂ h₂ => ?_) fun _ _ h => h
  cases r with
  | none => exact h₂
  | some previewContent =>
    have hrest : ReadOnly _ := readOnly_redisplay e sid previewContent v.2
    exact hrest.wp (fun _ _ h => IsTrans.trans _ _ _ h₂ h.addsOnlySigned)
      (fun _ _ h => IsTrans.trans _ _ _ h₂ h.addsOnlySigned)

/-! ## Every request -/

/-- A configuration leaves the comments alone. -/
theorem within_configStore_signed {lib : Library} (f : ConfigForm) :
    (Config.store f).Within calls (AddsOnlySigned lib) := by
  intro s
  have hkept {s' : St} (h : s'.db = s.db ∨ s.db.configure f = .ok s'.db) :
      AddsSigned lib s.db s'.db := by
    rcases h with h | h
    · exact .of_eq (by rw [h])
    · exact .of_eq (by rw [Db.configure_frame h])
  refine Prog.wp_mono (fun _ s' h _ => ?_) (fun _ s' h hs => ?_) (wp_configStore f s)
  · exact ⟨h.1, hkept h.2.1⟩
  · exact ⟨h.2.2 hs, hkept h.1⟩

section

-- a dispatcher is what `Destination.site` says
attribute [local irreducible] dispatch

theorem wp_main_signed (e : Env) {s : St} (hs : s.tx = none)
    (huser : s.own.session.isSet "user" = false) (hskip : ¬SkipsChecks e s.own.session) :
    (main e).wp calls (fun _ => AddsOnlySigned e.lib s) (fun _ => AddsOnlySigned e.lib s) s := by
  have hthen {s' s'' : St} (hidle : Idle s s') (h : AddsOnlySigned e.lib s' s'') :
      AddsOnlySigned e.lib s s'' := IsTrans.trans _ _ _ (AllowsIdle.of_idle hidle) h
  refine Prog.wp_seq (wp_selectLanguage e s) (fun _ s₁ h₁ => ?_) fun _ _ h =>
    AllowsIdle.of_idle h.toIdle
  have hset (key : String) (hkey : key ≠ "nlang") :
      s₁.own.session.isSet key = s.own.session.isSet key := by
    simp only [Session.isSet, h₁.session key hkey]
  have huser₁ : s₁.own.session.isSet "user" = false := (hset "user" (by decide)).trans huser
  have hskip₁ : ¬SkipsChecks e s₁.own.session := by
    intro h
    exact hskip { h with noUser := huser, visitor := (hset "visitor" (by decide)).symm.trans h.visitor }
  have hreads {p : App Unit} (hp : p.wp calls (fun _ => Reads s₁) (fun _ => Reads s₁) s₁) :
      p.wp calls (fun _ => AddsOnlySigned e.lib s) (fun _ => AddsOnlySigned e.lib s) s₁ :=
    Prog.wp_mono (fun _ _ h => hthen h₁.toIdle h.addsOnlySigned)
      (fun _ _ h => hthen h₁.toIdle h.addsOnlySigned) hp
  have hsite : (dispatch (siteRoutes e) (routedPath e)).wp calls (fun _ => AddsOnlySigned e.lib s)
      (fun _ => AddsOnlySigned e.lib s) s₁ := by
    rcases (Destination.site e).reads_or (R := Reads) with hp | ⟨path, -, hp⟩ | ⟨path, -, hp⟩ | ⟨sid, hsid, hp⟩
    · exact hreads (hp s₁)
    · rw [hp]
      have hconfig : (dispatch (configRoutes e) path).Within calls (AddsOnlySigned e.lib) :=
        within_dispatch_pair (fun _ => within_configure e within_configStore_signed)
          (fun _ => within_configVersion e) path
      exact hconfig.wp (fun _ _ => hthen h₁.toIdle) (fun _ _ => hthen h₁.toIdle)
    · rw [hp]
      exact hreads (wp_adminMaster_visitor e path huser₁)
    · rw [hp]
      exact Prog.wp_mono (fun _ _ => hthen h₁.toIdle) (fun _ _ => hthen h₁.toIdle)
        (wp_postback_signed e sid hsid (h₁.tx.trans hs) huser₁ hskip₁)
  rw [Prog.wp_tryCatch]
  refine Prog.wp_mono (fun _ _ h => h) (fun err s₂ h₂ => ?_) hsite
  have hredirect (url : String) : (setRedirectHeader url).wp calls
      (fun _ => AddsOnlySigned e.lib s) (fun _ => AddsOnlySigned e.lib s) s₂ :=
    (Idle.setRedirectHeader (R := AddsOnlySigned e.lib) url).wp
      (fun _ _ h => IsTrans.trans _ _ _ h₂ h) (fun _ _ h => IsTrans.trans _ _ _ h₂ h)
  split
  · exact hredirect _
  · exact hredirect _
  · exact h₂

end

/-! ## Runs -/

/-- The comments that stand in the tables after a step and not before it, by their numbers. -/
def insertedComments (d d' : Db) : List Comment :=
  d'.comments.rows.filter (fun c => d.comments.rows.all (fun c' => c'.id ≠ c.id))

/-- The comments that the requests of a run insert whose sessions hold no `user`. -/
def visitorComments (site : Site) : World → List Event → List Comment
  | _, [] => []
  | w, .evict keys :: events => visitorComments site (step site w (.evict keys)) events
  | w, .request a :: events =>
      (if (w.session a.req.sid).isSet "user" then []
        else insertedComments w.shared.db (step site w (.request a)).shared.db) ++
      visitorComments site (step site w (.request a)) events

/-- **In every run whose requests do not skip the checks, the comments of visitors are well signed.** -/
theorem run_comments_signed (site : Site) (w : World) (events : List Event)
    (h : EachRequest site (fun w a => ¬SkipsChecks (site.env a) (w.session a.req.sid)) w events) :
    ∀ c ∈ visitorComments site w events, Signed site.lib c := by
  induction events generalizing w with
  | nil => intro c hc; exact absurd hc (by simp [visitorComments])
  | cons ev events ih =>
    intro c hc
    cases ev with
    | evict keys => exact ih _ h c hc
    | request a =>
      rw [visitorComments] at hc
      rcases List.mem_append.1 hc with hc | hc
      · split at hc
        · exact absurd hc (by simp)
        · rename_i huser
          have hstep : AddsOnlySigned site.lib (w.start a) (viewOf (outcome site a w).2) :=
            serve_of_wp (wp_main_signed (site.env a) rfl (Bool.eq_false_iff.2 huser) h.1)
          have hmem := List.mem_filter.1 hc
          rcases (hstep rfl).2 c hmem.1 with hold | hsigned
          · have hother := List.all_eq_true.1 hmem.2 c hold
            simp at hother
          · exact hsigned
      · exact ih _ h.2 c hc

/-- A blog with one open post, and a visitor who has looked at the captcha `1234`. -/
def visitedEvents : List Event :=
  [.request (.configure "b" "bob"), .request (.login "b" "bob"),
   .request (.post "b" "/admin/post" [("_1", "T"), ("_2", "A"), ("_6", "")]),
   .request { Arrival.get "v" "/captcha" with chance := { captchaLine := "1234" } }]

/-- A comment on the first post. -/
def Arrival.comment (sid author mail captcha : String) : Arrival :=
  .post sid "/post/1/postback"
    [("_1", author), ("_2", mail), ("_3", ""), ("_4", "text"), ("_5", ""), ("captcha", captcha)]

/-- A visitor's first comment is checked. -/
theorem run_comments_signed_visited :
    Signed Site.sample.lib ⟨1, 1, "al", "al@x", "", 0, "text"⟩ := by
  have hall : ∀ c ∈ visitorComments .sample (World.fresh [])
      (visitedEvents ++ [.request (.comment "v" "al" "al@x" "1234")]), Signed Site.sample.lib c :=
    run_comments_signed .sample (World.fresh []) _
      ⟨fun h => absurd h.route (by decide), fun h => absurd h.route (by decide),
        fun h => absurd h.route (by decide), fun h => absurd h.route (by decide),
        fun h => absurd h.visitor (by decide), trivial⟩
  exact hall _ (by decide)

/-- The second comment of a visitor needs neither a name nor a mail address. -/
theorem visitor_signs_nothing :
    ¬ ∀ events, ∀ c ∈ visitorComments .sample (World.fresh []) events, Signed Site.sample.lib c := by
  intro h
  have hcomment := h (visitedEvents ++
    [.request (.comment "v" "al" "al@x" "1234"), .request (.comment "v" "" "" "")])
    ⟨2, 1, "", "", "", 0, "text"⟩ (by decide)
  exact hcomment.author rfl

end CppBlog
