import CppBlog.Sessions
import CppBlog.Signatures
import Mathlib.Data.List.Induction

set_option autoImplicit false

/-! # Who is logged in

The login page empties the session and marks it with a row of `users` whose name and password were
submitted; no other handler marks a session. So a session with a user is one whose last request for the
login page named that user, with the password the row had at that moment. -/

namespace CppBlog

open Effect Store App

/-- Nobody is logged in. -/
def LoggedOut (session : Session) : Prop := session.find "user" = none ∧ session.find "id" = none

/-- The marks of a user who is logged in. -/
def LoggedInAs (u : User) (session : Session) : Prop :=
  session.find "user" = some u.username ∧ session.find "id" = some (toString u.id)

/-- A form posted to the login page names a row of `users` and its password, byte for byte. -/
structure Credentials (e : Env) (d : Db) (u : User) : Prop where
  method : e.req.method = "POST"
  row : u ∈ d.users.rows
  username : (UserForm.load {} e.req.postOrGet).username.value = u.username
  password : (UserForm.load {} e.req.postOrGet).password.value = u.password

/-- The session the login page leaves to a user. -/
def userSession (u : User) : Session := (Session.set [] "user" u.username).set "id" (toString u.id)

/-- A session after the login page. -/
def Marked (e : Env) (d : Db) (session : Session) : Prop :=
  session = [] ∨ ∃ u, Credentials e d u ∧ session = userSession u

theorem LoggedInAs.isSet {u : User} {session : Session} (h : LoggedInAs u session) :
    session.isSet "user" = true ∧ session.isSet "id" = true := by
  simp [Session.isSet, h.1, h.2]

/-- The id of a row reads as it was written. -/
theorem readInt?_userId {d : Db} {u : User} (hu : u ∈ d.users.rows) :
    Text.readInt? (toString u.id) = some u.id :=
  Text.readInt?_toString (le_of_lt (d.users.key_pos u hu)) ((d.users.le_seq u hu).trans d.users.seq_le)

theorem loggedInAs_userSession (u : User) : LoggedInAs u (userSession u) := by
  refine ⟨?_, Session.find_set_self _ _ _⟩
  rw [userSession, Session.find_set_ne _ (by decide), Session.find_set_self]

/-- The login page leaves nothing but the marks of a user. -/
theorem find_userSession {u : User} {key : String} (huser : key ≠ "user") (hid : key ≠ "id") :
    (userSession u).find key = none := by
  rw [userSession, Session.find_set_ne _ hid, Session.find_set_ne _ huser, Session.find_nil]

/-! ## The login page -/

/-- A login form that is valid still has the password that was submitted. -/
theorem password_of_validateLogin {f : UserForm} (h : f.validateLogin.valid = true) :
    f.validateLogin.password.value = f.password.value := by
  simp only [UserForm.valid, Bool.and_eq_true] at h
  have hpassword := h.2
  simp only [UserForm.validateLogin, TextField.validatePassword] at hpassword ⊢
  split
  · rfl
  · rename_i hinvalid
    rw [if_neg hinvalid] at hpassword
    exact absurd hpassword hinvalid

theorem wp_login (e : Env) (s : St) :
    (Users.prepare e).wp calls (fun _ s' => Marked e s.current s'.own.session)
      (fun err s' => err ≠ .sessionKey ∧ Marked e s.current s'.own.session) s := by
  have : Lawful (fun session => session = []) :=
    { language := by rintro _ rfl v hv; exact absurd hv (by simp)
      paired := by rintro _ rfl; exact .inl ⟨rfl, rfl⟩ }
  have hshow {p : App Unit} (hp : KeepsSession (fun session => session = []) p) {s' : St}
      (hs' : s'.own.session = []) : p.wp calls (fun _ s' => Marked e s.current s'.own.session)
      (fun err s' => err ≠ .sessionKey ∧ Marked e s.current s'.own.session) s' :=
    Prog.wp_mono (fun _ _ h => .inl h) (fun _ _ h => ⟨h.1, .inl h.2⟩) (hp s' hs')
  unfold Users.prepare
  rw [Prog.wp_bind, wp_resetSession, Prog.wp_bind, wp_sessionClear]
  split
  · rename_i hpost
    rw [Prog.wp_bind, wp_loadForm]
    split
    · exact ⟨by simp, .inl rfl⟩
    dsimp only
    split
    · exact hshow (KeepsSession.adminPage e _ _) rfl
    rename_i hvalid
    rw [Users.login, Prog.wp_bind, Prog.wp_bind, wp_query]
    refine ⟨?_, by simp, .inl rfl⟩
    rw [Prog.wp_ret]
    split
    · rename_i u hu
      obtain ⟨hfind, hsame⟩ := Option.filter_eq_some_iff.1 hu
      rw [Bool.and_eq_true, decide_eq_true_eq, decide_eq_true_eq] at hsame
      have hcredentials : Credentials e s.current u :=
        { method := hpost
          row := List.mem_of_find?_eq_some hfind
          username := hsame.1
          password := (password_of_validateLogin (by simpa using hvalid)).symm.trans hsame.2 }
      simp only [Prog.wp_bind, wp_sessionSet, wp_setRedirectHeader]
      exact .inr ⟨u, hcredentials, rfl⟩
    · exact hshow (KeepsSession.adminPage e _ _) rfl
  · exact hshow (KeepsSession.adminPage e _ _) rfl

/-! ## The comment form -/

/-- The answer of `comment_form::validate` and the session it leaves. -/
def verdict (e : Env) (f : CommentForm) (session : Session) : Bool × Session :=
  if f.valid = false then (false, session)
  else if session.isSet "user" ∨ session.isSet "visitor" then (true, session)
  else if (session.find "captcha").any (fun code => equalNoCase code f.captcha.value) then
    ((Post.checkFields e f true).1, session.set "visitor" "1")
  else (false, [])

theorem wp_validate_verdict (e : Env) (form : CommentForm) (s : St) :
    (Post.validate e form).wp calls
      (fun v s' => (v.1, s'.own.session) = verdict e form.validate s.own.session) (fun _ _ => False) s := by
  unfold Post.validate verdict
  dsimp only
  split
  · rename_i hform
    rw [if_pos (by simpa using hform)]
    rfl
  rename_i hform
  rw [if_neg (by simpa using hform), Prog.wp_bind, wp_sessionIsSet]
  split
  · rename_i huser
    rw [if_pos (.inl huser)]
    rfl
  rename_i huser
  rw [Prog.wp_bind, wp_sessionIsSet]
  split
  · rename_i hvisitor
    rw [if_pos (.inr hvisitor)]
    rfl
  rename_i hvisitor
  rw [if_neg (fun h => h.elim huser hvisitor), Prog.wp_bind, wp_sessionIsSet,
    if_pos (by simpa using hvisitor), Prog.wp_bind, Post.checkCaptcha, Prog.wp_bind, wp_getOwn]
  -- `all` of the negation is the negation of `any`
  cases hcode : s.own.session.find "captcha" with
  | none =>
    simp only [Option.all_none, if_true, Option.any_none, Bool.false_eq_true, if_false, Prog.wp_bind,
      wp_sessionClear, Prog.wp_ret]
    exact Prod.ext (by simp [Post.checkFields]) rfl
  | some code =>
    cases hequal : equalNoCase code form.validate.captcha.value with
    | true =>
      simp only [Option.all_some, hequal, Bool.not_true, Bool.false_eq_true, if_false, Option.any_some,
        if_true, Prog.wp_bind, wp_sessionSet, Prog.wp_ret]
      rfl
    | false =>
      simp only [Option.all_some, hequal, Bool.not_false, if_true, Option.any_some, Bool.false_eq_true,
        if_false, Prog.wp_bind, wp_sessionClear, Prog.wp_ret]
      exact Prod.ext (by simp [Post.checkFields]) rfl

/-- Nothing behind the validation touches the session. -/
theorem KeepsSession.behindValidation {J : Session → Prop} (e : Env) (sid : String)
    (v : Bool × CommentForm) :
    KeepsSession J ((if v.1 then Post.postbackBlock e (Text.atoi sid) v.2 else .ret (some "")).bind
      fun r => match r with
        | none => .ret ()
        | some previewContent =>
            (Post.prepareContent sid false).bind fun c =>
            match c with
            | none => .ret ()
            | some c => Post.render e c previewContent v.2) := by
  refine Prog.Maintains.bind (.ite (postbackBlock e _ _) (.ret _)) fun r => ?_
  split
  · exact .ret _
  · refine (prepareContent sid false).bind fun c => ?_
    split
    · exact .ret _
    · exact postRender e _ _ _

theorem wp_postback_session (e : Env) (sid : String) (s : St) :
    (Post.postback e sid).wp calls
      (fun _ s' => s'.own.session =
        if e.req.method = "POST" ∧ forged e s.own = false then
          (verdict e (submittedComment e) s.own.session).2 else s.own.session)
      (fun err s' => err ≠ .sessionKey ∧ s'.own.session =
        if e.req.method = "POST" ∧ forged e s.own = false then
          (verdict e (submittedComment e) s.own.session).2 else s.own.session) s := by
  unfold Post.postback
  split
  · rename_i hmethod
    rw [wp_makeErrorResponse, if_neg (fun h => hmethod h.1)]
    rfl
  rename_i hmethod
  rw [Prog.wp_bind, wp_loadForm]
  split
  · rename_i hforged
    exact ⟨by simp, by rw [if_neg (by simp [hforged])]; rfl⟩
  rename_i hforged
  have hpost : e.req.method = "POST" ∧ forged e s.own = false := ⟨by simpa using hmethod, by simpa using hforged⟩
  rw [if_pos hpost]
  refine Prog.wp_seq (wp_validate_verdict e _ _) (fun v s₁ h₁ => ?_) fun _ _ h => absurd h id
  have hsession : s₁.own.session = (verdict e (submittedComment e) s.own.session).2 := congrArg Prod.snd h₁
  rw [← hsession]
  exact KeepsSession.behindValidation (J := fun session => session = s₁.own.session) e sid v s₁ rfl

/-! ## One request -/

/-- The sessions agree but for the language. -/
def SameBut (session session' : Session) : Prop := ∀ key, key ≠ "nlang" → session'.find key = session.find key

/-- The request posts a comment whose validation begins. -/
structure Posts (e : Env) (session : Session) : Prop where
  route : (routedToPostback e).isSome = true
  method : e.req.method = "POST"
  origin : forged e (Own.load session) = false

/-- What a request does to the session of its client. -/
inductive SessionStep (e : Env) (d : Db) (session : Session) (session' : Session) : Prop where
  | keep : routedToLogin e = false ∨ session.isSet "user" = false → ¬Posts e session →
      SameBut session session' → SessionStep e d session session'
  | captcha : routedToLogin e = false → routedToPostback e = none → routedToCaptcha e = true →
      SameBut (session.set "captcha" e.chance.captchaLine) session' → SessionStep e d session session'
  | postback : routedToLogin e = false → Posts e session →
      SameBut (verdict e (submittedComment e) session).2 session' → SessionStep e d session session'
  | login : routedToLogin e = true → routedToPostback e = none → Marked e d session' →
      SessionStep e d session session'

section
variable {e : Env} {session session' : Session}

theorem SameBut.isSet (h : SameBut session session') {key : String} (hkey : key ≠ "nlang") :
    session'.isSet key = session.isSet key := by rw [Session.isSet, h key hkey, Session.isSet]

theorem SameBut.set (h : SameBut session session') (key value : String) :
    SameBut (session.set key value) (session'.set key value) := by
  intro key' hkey'
  simp only [Session.set, Session.find_cons]
  split
  · rfl
  · rename_i hne
    rw [Session.find_erase_ne _ hne, Session.find_erase_ne _ hne, h key' hkey']

/-- The language has no part in the verdict. -/
theorem verdict_congr (f : CommentForm) (h : SameBut session session') :
    (verdict e f session').1 = (verdict e f session).1 ∧
      SameBut (verdict e f session).2 (verdict e f session').2 := by
  unfold verdict
  rw [h.isSet (by decide), h.isSet (by decide), h "captcha" (by decide)]
  split
  · exact ⟨rfl, h⟩
  split
  · exact ⟨rfl, h⟩
  split
  · exact ⟨rfl, h.set _ _⟩
  · exact ⟨rfl, fun _ _ => rfl⟩

theorem readable_verdict {f : CommentForm} (h : Executed.Readable session) :
    Executed.Readable (verdict e f session).2 := by
  unfold verdict
  split
  · exact h
  split
  · exact h
  split
  · intro v hv
    exact h v ((Session.find_set_ne _ (by decide) _).symm.trans hv)
  · exact fun v hv => absurd hv (by simp)

theorem SameBut.paired (h : SameBut session session') (hs : Paired session) : Paired session' := by
  simpa only [Paired, h "user" (by decide), h "id" (by decide)] using hs

end

/-- A session remembers languages only. -/
theorem readable_setLanguage (session : Session) (e : Env) :
    Executed.Readable (session.set "nlang" (toString (nlang e))) := by
  intro v hv
  obtain rfl := Option.some.inj ((Session.find_set_self _ _ _).symm.trans hv)
  have hlanguages : nlang e = 1 ∨ nlang e = 2 := by
    unfold nlang
    split
    · exact .inl rfl
    · exact .inr rfl
  rcases hlanguages with h | h <;> rw [h] <;> decide

/-- Most pages leave the session as it was. -/
theorem guest_sameBut {session : Session} (hpaired : Paired session) :
    Guest (fun session' => Executed.Readable session' ∧ SameBut session session') where
  language _ h := h.1
  paired session' h := h.2.paired hpaired
  setLanguage session' e h := ⟨readable_setLanguage session' e, fun key hkey => by
    rw [Session.find_set_ne _ hkey, h.2 key hkey]⟩

section

-- a dispatcher is what its destinations say
attribute [local irreducible] dispatch

/-- What a handler does to the session behind the choice of the language. -/
theorem wp_main_of_site {e : Env} {s : St} {Q : Session → Prop}
    (hlang : Executed.Readable s.own.session) (hpaired : Paired s.own.session)
    (hsite : ∀ s₁, Greeted s s₁ → Executed.Readable s₁.own.session →
      (dispatch (siteRoutes e) (routedPath e)).wp calls (fun _ s' => Q s'.own.session)
        (fun err s' => err ≠ .sessionKey ∧ Q s'.own.session) s₁) :
    (main e).wp calls (fun _ s' => Q s'.own.session)
      (fun err s' => err ≠ .sessionKey ∧ Q s'.own.session) s := by
  have := guest_sameBut hpaired
  have hselect := Prog.wp_and (Prog.wp_and (wp_selectLanguage e s) (selectLanguage_raisesNothing hlang))
    (KeepsSession.selectLanguage (J := fun session' => Executed.Readable session' ∧
      SameBut s.own.session session') e s ⟨hlang, fun _ _ => rfl⟩)
  refine Prog.wp_seq hselect (fun _ s₁ h₁ => ?_) fun err s₁ h₁ => absurd h₁.1.2 id
  rw [Prog.wp_tryCatch]
  refine Prog.wp_mono (fun _ _ h => h) (fun err s₂ h₂ => ?_) (hsite s₁ h₁.1.1 h₁.2.1)
  split
  · rw [wp_setRedirectHeader]
    exact h₂.2
  · rw [wp_setRedirectHeader]
    exact h₂.2
  · exact h₂

/-- A request for the login page. -/
theorem wp_site_login {e : Env} (hroute : routedToLogin e = true) (hpostback : routedToPostback e = none)
    {s s₁ : St} (hs : s.tx = none) (hgreeted : Greeted s s₁) (hlang : Executed.Readable s₁.own.session) :
    (dispatch (siteRoutes e) (routedPath e)).wp calls
      (fun _ s' => Executed.Readable s'.own.session ∧ SessionStep e s.db s.own.session s'.own.session)
      (fun err s' => err ≠ .sessionKey ∧
        Executed.Readable s'.own.session ∧ SessionStep e s.db s.own.session s'.own.session) s₁ := by
  have hdb : s₁.current = s.db := by
    rw [St.current_of_none (hgreeted.tx.trans hs), hgreeted.db]
  have hmarked {session' : Session} (h : Marked e s₁.current session') :
      Executed.Readable session' ∧ SessionStep e s.db s.own.session session' := by
    refine ⟨fun v hv => ?_, .login hroute hpostback (hdb ▸ h)⟩
    rcases h with rfl | ⟨u, -, rfl⟩
    · exact absurd hv (by simp)
    · rw [find_userSession (by decide) (by decide)] at hv
      exact absurd hv (by simp)
  have hadmin := hroute
  rw [routedToLogin, Option.any_eq_true] at hadmin
  obtain ⟨users, husers, -⟩ := hadmin
  rw [usersPath, Option.bind_eq_some_iff] at husers
  obtain ⟨path, hpath, -⟩ := husers
  rw [dispatch_admin hpath, adminMaster, Prog.wp_bind, wp_sessionIsSet]
  split
  · rw [dispatch_login hpath hroute]
    exact Prog.wp_mono (fun _ _ h => hmarked h) (fun _ _ h => ⟨h.1, hmarked h.2⟩) (wp_login e s₁)
  · rename_i hgate
    rw [wp_setRedirectHeader]
    refine ⟨hlang, .keep (.inr ?_) (fun h => absurd h.route (by simp [hpostback])) hgreeted.session⟩
    rw [← SameBut.isSet hgreeted.session (by decide)]
    exact Bool.eq_false_iff.2 fun h => hgate (.inl h)

/-- **What a request does to the session of its client**, and that it misses no key of it. -/
theorem wp_main_session (e : Env) {s : St} (hs : s.tx = none) (hchecked : s.own.csrfChecked = false)
    (hlang : Executed.Readable s.own.session) (hpaired : Paired s.own.session) :
    (main e).wp calls
      (fun _ s' => Executed.Readable s'.own.session ∧ SessionStep e s.db s.own.session s'.own.session)
      (fun err s' => err ≠ .sessionKey ∧
        Executed.Readable s'.own.session ∧ SessionStep e s.db s.own.session s'.own.session) s := by
  cases hpostback : routedToPostback e with
  | some sid =>
    have hlogin := routedToLogin_of_postback hpostback
    refine wp_main_of_site (Q := fun session' => Executed.Readable session' ∧
      SessionStep e s.db s.own.session session') hlang hpaired fun s₁ h₁ hlang₁ => ?_
    rw [dispatch_postback hpostback]
    have hforged : forged e s₁.own = forged e (Own.load s.own.session) := by
      simp only [forged, h₁.checked, hchecked, h₁.session "_csrf" (by decide)]
      rfl
    have hstep {session' : Session} (h : session' =
        if e.req.method = "POST" ∧ forged e s₁.own = false then
          (verdict e (submittedComment e) s₁.own.session).2 else s₁.own.session) :
        Executed.Readable session' ∧ SessionStep e s.db s.own.session session' := by
      rw [hforged] at h
      split at h
      · rename_i hpost
        subst h
        exact ⟨readable_verdict hlang₁, .postback hlogin ⟨by simp [hpostback], hpost.1, hpost.2⟩
          (verdict_congr _ h₁.session).2⟩
      · rename_i hpost
        subst h
        exact ⟨hlang₁, .keep (.inl hlogin) (fun h => hpost ⟨h.method, h.origin⟩) h₁.session⟩
    exact Prog.wp_mono (fun _ _ h => hstep h) (fun _ _ h => ⟨h.1, hstep h.2⟩) (wp_postback_session e sid s₁)
  | none =>
  have hnopost : ¬Posts e s.own.session := fun h => absurd h.route (by simp [hpostback])
  cases hlogin : routedToLogin e with
  | true =>
    exact wp_main_of_site (Q := fun session' => Executed.Readable session' ∧
      SessionStep e s.db s.own.session session') hlang hpaired fun s₁ h₁ hlang₁ =>
      wp_site_login hlogin hpostback hs h₁ hlang₁
  | false =>
  cases hcaptcha : routedToCaptcha e with
  | true =>
    refine wp_main_of_site (Q := fun session' => Executed.Readable session' ∧
      SessionStep e s.db s.own.session session') hlang hpaired fun s₁ h₁ hlang₁ => ?_
    rw [dispatch_captcha hcaptcha]
    simp only [Captcha.main, setHeader, Prog.wp_bind, wp_sessionSet, wp_modifyResponse, wp_write]
    refine ⟨fun v hv => hlang₁ v ?_, .captcha hlogin hpostback hcaptcha ?_⟩
    · exact (Session.find_set_ne _ (by decide) _).symm.trans hv
    · exact SameBut.set h₁.session _ _
  | false =>
    have := guest_sameBut hpaired
    have hkeep := KeepsSession.main (J := fun session' => Executed.Readable session' ∧
      SameBut s.own.session session') hcaptcha hpostback hlogin s ⟨hlang, fun _ _ => rfl⟩
    exact Prog.wp_mono (fun _ _ h => ⟨h.1, .keep (.inl hlogin) hnopost h.2⟩)
      (fun _ _ h => ⟨h.1, h.2.1, .keep (.inl hlogin) hnopost h.2.2⟩) hkeep

end

/-! ## Runs -/

/-- What holds of a session between requests. -/
structure SessionLaw (session : Session) : Prop where
  language : Executed.Readable session
  paired : Paired session

theorem SessionLaw.isSet {session : Session} (h : SessionLaw session) :
    session.isSet "user" = session.isSet "id" := by
  rcases h.paired with ⟨huser, hid⟩ | ⟨username, id, huser, hid, -⟩ <;> simp [Session.isSet, huser, hid]

/-- What a request does to the session of its client, and that it finds the keys it reads. -/
theorem outcome_session (site : Site) {a : Arrival} {w : World} (h : SessionLaw (w.session a.req.sid)) :
    (outcome site a w).1 ≠ .error .sessionKey ∧ Executed.Readable (outcome site a w).2.2.own.session ∧
      SessionStep (site.env a) w.shared.db (w.session a.req.sid) (outcome site a w).2.2.own.session := by
  have hends := ends_outcome (wp_main_session (site.env a) (s := w.start a) rfl rfl h.language h.paired)
  cases hr : (outcome site a w).1 with
  | ok u =>
    rw [hr] at hends
    exact ⟨by simp, hends⟩
  | error err =>
    rw [hr] at hends
    exact ⟨fun heq => hends.1 (Except.error.inj heq), hends.2⟩

/-- The session is saved with a token at most. -/
theorem request_session (site : Site) {a : Arrival} {w : World} (h : SessionLaw (w.session a.req.sid)) :
    ∃ session', Executed.Readable session' ∧
      SessionStep (site.env a) w.shared.db (w.session a.req.sid) session' ∧
      ∀ key, key ≠ "_csrf" →
        ((step site w (.request a)).session a.req.sid).find key = session'.find key := by
  obtain ⟨-, hlang, hstep⟩ := outcome_session site h
  refine ⟨_, hlang, hstep, fun key hkey => ?_⟩
  rw [session_request_self, find_save _ _ hkey]

/-- The verdict leaves the marks of a user or takes them away. -/
theorem verdict_marks (e : Env) (f : CommentForm) (session : Session) :
    LoggedOut (verdict e f session).2 ∨
      ((verdict e f session).2.find "user" = session.find "user" ∧
        (verdict e f session).2.find "id" = session.find "id") := by
  unfold verdict
  split
  · exact .inr ⟨rfl, rfl⟩
  split
  · exact .inr ⟨rfl, rfl⟩
  split
  · exact .inr ⟨Session.find_set_ne _ (by decide) _, Session.find_set_ne _ (by decide) _⟩
  · exact .inl ⟨rfl, rfl⟩

/-- A request takes the marks of its session away, keeps them, or, on the login page, sets those of a user
    who was named with the right password. -/
theorem SessionStep.marks {e : Env} {d : Db} {session session' : Session} (hs : Paired session)
    (h : SessionStep e d session session') :
    LoggedOut session' ∨
      (routedToLogin e = false ∧ session'.find "user" = session.find "user" ∧
        session'.find "id" = session.find "id") ∨
      (routedToLogin e = true ∧ ∃ u, Credentials e d u ∧ LoggedInAs u session') := by
  cases h with
  | keep hroute _ h =>
    have huser := h "user" (by decide)
    have hid := h "id" (by decide)
    rcases hroute with hroute | hout
    · exact .inr (.inl ⟨hroute, huser, hid⟩)
    · have hnone : session.find "user" = none := Option.isNone_iff_eq_none.1 (Option.isSome_eq_false_iff.1 hout)
      rcases hs with ⟨hu, hi⟩ | ⟨username, id, hu, -⟩
      · exact .inl ⟨huser.trans hu, hid.trans hi⟩
      · rw [hnone] at hu
        exact absurd hu (by simp)
  | captcha hroute _ _ h =>
    refine .inr (.inl ⟨hroute, (h "user" (by decide)).trans ?_, (h "id" (by decide)).trans ?_⟩)
    · exact Session.find_set_ne _ (by decide) _
    · exact Session.find_set_ne _ (by decide) _
  | postback hroute _ h =>
    have huser := h "user" (by decide)
    have hid := h "id" (by decide)
    rcases verdict_marks e (submittedComment e) session with hout | ⟨hu, hi⟩
    · exact .inl ⟨huser.trans hout.1, hid.trans hout.2⟩
    · exact .inr (.inl ⟨hroute, huser.trans hu, hid.trans hi⟩)
  | login hroute _ h =>
    rcases h with rfl | ⟨u, hu, rfl⟩
    · exact .inl ⟨rfl, rfl⟩
    · exact .inr (.inr ⟨hroute, u, hu, loggedInAs_userSession u⟩)

/-- The marks of the saved session. -/
theorem request_marks (site : Site) {a : Arrival} {w : World} (h : SessionLaw (w.session a.req.sid)) :
    LoggedOut ((step site w (.request a)).session a.req.sid) ∨
      (routedToLogin (site.env a) = false ∧
        ((step site w (.request a)).session a.req.sid).find "user" = (w.session a.req.sid).find "user" ∧
        ((step site w (.request a)).session a.req.sid).find "id" = (w.session a.req.sid).find "id") ∨
      (routedToLogin (site.env a) = true ∧ ∃ u, Credentials (site.env a) w.shared.db u ∧
        LoggedInAs u ((step site w (.request a)).session a.req.sid)) := by
  obtain ⟨session', -, hstep, hsaved⟩ := request_session site h
  simpa only [LoggedOut, LoggedInAs, hsaved "user" (by decide), hsaved "id" (by decide)]
    using hstep.marks h.paired

theorem request_law {site : Site} {a : Arrival} {w : World} (h : SessionLaw (w.session a.req.sid)) :
    SessionLaw ((step site w (.request a)).session a.req.sid) := by
  refine ⟨fun v hv => ?_, ?_⟩
  · obtain ⟨session', hlang, -, hsaved⟩ := request_session site h
    exact hlang v ((hsaved "nlang" (by decide)).symm.trans hv)
  · rcases request_marks site h with hout | ⟨-, huser, hid⟩ | ⟨-, u, hu, hin⟩
    · exact .inl hout
    · simpa only [Paired, huser, hid] using h.paired
    · exact .inr ⟨u.username, u.id, hin.1, hin.2, readInt?_userId hu.row⟩

theorem SessionLaw.step {site : Site} {w : World} (h : ∀ sid, SessionLaw (w.session sid)) (ev : Event)
    (sid : String) : SessionLaw ((step site w ev).session sid) := by
  cases ev with
  | evict keys => exact h sid
  | request a =>
    by_cases hsid : sid = a.req.sid
    · subst hsid
      exact request_law (h a.req.sid)
    · rw [session_request_ne site hsid]
      exact h sid

theorem Reachable.sessionLaw {site : Site} {w : World} (hw : Reachable site w) (sid : String) :
    SessionLaw (w.session sid) := by
  refine hw.induction (I := fun w => ∀ sid, SessionLaw (w.session sid)) (fun files sid => ?_)
    (fun w ev h => SessionLaw.step h ev) sid
  exact ⟨fun v hv => absurd hv (by simp [World.session, World.fresh]), .inl ⟨rfl, rfl⟩⟩

/-- In every run the language of every session can be read. -/
theorem Reachable.readable {site : Site} {w : World} (hw : Reachable site w) (sid : String) :
    Executed.Readable (w.session sid) := (hw.sessionLaw sid).language

/-- The last request of a client for the login page, and the events before it. -/
structure LastLogin (site : Site) (sid : String) (events before : List Event) (a : Arrival) : Prop where
  client : a.req.sid = sid
  route : routedToLogin (site.env a) = true
  last : ∃ after, events = before ++ .request a :: after ∧
    ∀ b, .request b ∈ after → b.req.sid = sid → routedToLogin (site.env b) = false

theorem LastLogin.snoc {site : Site} {sid : String} {events before : List Event} {a : Arrival}
    (h : LastLogin site sid events before a) {ev : Event}
    (hev : ∀ b, ev = .request b → b.req.sid = sid → routedToLogin (site.env b) = false) :
    LastLogin site sid (events ++ [ev]) before a := by
  obtain ⟨after, rfl, hafter⟩ := h.last
  refine ⟨h.client, h.route, after ++ [ev], by simp, fun b hb hsid => ?_⟩
  rcases List.mem_append.1 hb with hb | hb
  · exact hafter b hb hsid
  · exact hev b (List.mem_singleton.1 hb).symm hsid

/-- A session with a user was marked by its last request for the login page. -/
theorem run_lastLogin (site : Site) (files : Files) (events : List Event) (sid : String)
    (huser : ((run site events (World.fresh files)).session sid).isSet "user" = true) :
    ∃ before a u, LastLogin site sid events before a ∧
      Credentials (site.env a) (run site before (World.fresh files)).shared.db u ∧
      LoggedInAs u ((run site events (World.fresh files)).session sid) := by
  induction events using List.reverseRecOn with
  | nil => exact absurd huser (by simp [run, World.session, World.fresh, Session.isSet])
  | append_singleton events ev ih =>
    have hrun : run site (events ++ [ev]) (World.fresh files) =
        step site (run site events (World.fresh files)) ev := by simp [run]
    rw [hrun] at huser ⊢
    -- an event that leaves the marks of the session and is no request for its login page
    have hkept (hmarks : ∀ key, key = "user" ∨ key = "id" →
          ((step site (run site events (World.fresh files)) ev).session sid).find key =
            ((run site events (World.fresh files)).session sid).find key)
        (hev : ∀ b, ev = .request b → b.req.sid = sid → routedToLogin (site.env b) = false) :
        ∃ before a u, LastLogin site sid (events ++ [ev]) before a ∧
          Credentials (site.env a) (run site before (World.fresh files)).shared.db u ∧
          LoggedInAs u ((step site (run site events (World.fresh files)) ev).session sid) := by
      rw [Session.isSet, hmarks "user" (.inl rfl)] at huser
      obtain ⟨before, a, u, hlast, hu, hin⟩ := ih huser
      refine ⟨before, a, u, hlast.snoc hev, hu, ?_⟩
      rw [LoggedInAs, hmarks "user" (.inl rfl), hmarks "id" (.inr rfl)]
      exact hin
    cases ev with
    | evict keys => exact hkept (fun _ _ => rfl) fun b hb => absurd hb (by simp)
    | request a =>
      by_cases hsid : sid = a.req.sid
      · subst hsid
        have hlaw : SessionLaw ((run site events (World.fresh files)).session a.req.sid) :=
          Reachable.sessionLaw ⟨files, events, rfl⟩ _
        rcases request_marks site hlaw with hout | ⟨hroute, hname, hid⟩ | ⟨hroute, u, hu, hin⟩
        · exact absurd huser (by simp [Session.isSet, hout.1])
        · refine hkept (fun key hkey => ?_) fun b hb _ => ?_
          · rcases hkey with rfl | rfl
            · exact hname
            · exact hid
          · obtain rfl := Event.request.inj hb
            exact hroute
        · exact ⟨events, a, u, ⟨rfl, hroute, [], rfl, by simp⟩, hu, hin⟩
      · refine hkept (fun key _ => by rw [session_request_ne site hsid]) fun b hb hb' => ?_
        obtain rfl := Event.request.inj hb
        exact absurd hb'.symm hsid

/-- **In every run, for every client: its session holds `user` exactly when it holds `id`; it holds them
    only if its last request for the login page was a `POST` with the name and the password of the row of
    `users` with that id at that moment; no handler misses a key of the session; and no request for
    another page logs anybody in.** -/
theorem run_login (site : Site) (files : Files) (events : List Event) (sid : String) :
    let w := run site events (World.fresh files)
    (w.session sid).isSet "user" = (w.session sid).isSet "id" ∧
      ((w.session sid).isSet "user" = true → ∃ before a u, LastLogin site sid events before a ∧
        Credentials (site.env a) (run site before (World.fresh files)).shared.db u ∧
        LoggedInAs u (w.session sid)) ∧
      (∀ a, a.req.sid = sid → (outcome site a w).1 ≠ .error .sessionKey) ∧
      ∀ a, a.req.sid = sid → (w.session sid).isSet "user" = false →
        routedToLogin (site.env a) = false → ((serve site a w).2.session sid).isSet "user" = false := by
  intro w
  have hlaw (sid : String) : SessionLaw (w.session sid) := Reachable.sessionLaw ⟨files, events, rfl⟩ sid
  refine ⟨(hlaw sid).isSet, run_lastLogin site files events sid, ?_, ?_⟩
  · rintro a rfl
    exact (outcome_session site (hlaw a.req.sid)).1
  · rintro a rfl hout hroute
    rcases request_marks site (hlaw a.req.sid) with hnone | ⟨-, hname, -⟩ | ⟨hlogin, -⟩
    · exact Option.isSome_eq_false_iff.2 (Option.isNone_iff_eq_none.2 hnone.1)
    · exact (congrArg Option.isSome hname).trans hout
    · rw [hroute] at hlogin
      exact absurd hlogin (by simp)

end CppBlog
