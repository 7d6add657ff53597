import CppBlog.Logins

set_option autoImplicit false

/-! # One guess for each captcha

A wrong answer to a captcha empties the session, so neither the code nor the mark of a visitor is there
afterwards: until the next image is drawn there is nothing to compare an answer with, and nothing that
lets a comment pass. -/

namespace CppBlog

open Effect Store App

/-! ## Comments and codes -/

/-- Equality up to the case of ASCII letters. -/
def SameLetters (l r : String) : Prop := l.toList.map asciiLower = r.toList.map asciiLower

theorem all_zip_iff {α β : Type} [DecidableEq β] (f : α → β) (l r : List α) :
    (l.length = r.length ∧ (l.zip r).all (fun x => f x.1 = f x.2) = true) ↔ l.map f = r.map f := by
  induction l generalizing r with
  | nil => cases r <;> simp
  | cons x l ih =>
    cases r with
    | nil => simp
    | cons y r =>
      rw [List.map_cons, List.map_cons, List.cons.injEq, ← ih]
      simp only [List.length_cons, Nat.add_right_cancel_iff, List.zip_cons_cons, List.all_cons,
        Bool.and_eq_true, decide_eq_true_eq]
      exact ⟨fun h => ⟨h.2.1, h.1, h.2.2⟩, fun h => ⟨h.2.1, h.1, h.2.2⟩⟩

theorem equalNoCase_iff {l r : String} : equalNoCase l r = true ↔ SameLetters l r := by
  rw [SameLetters, ← all_zip_iff, equalNoCase, Bool.and_eq_true, decide_eq_true_eq,
    String.length_toList, String.length_toList]

/-- The request posts a comment that gets to the comparison with the code of its session. -/
structure Compared (e : Env) (session : Session) (code : String) : Prop extends Posts e session where
  form : (submittedComment e).valid = true
  noUser : session.isSet "user" = false
  noVisitor : session.isSet "visitor" = false
  code : session.find "captcha" = some code

/-- The answer to the captcha. -/
def submittedAnswer (e : Env) : String := (submittedComment e).captcha.value

/-- The comment is compared with the code and rejected. -/
def Rejected (e : Env) (session : Session) : Prop :=
  ∃ code, Compared e session code ∧ ¬SameLetters code (submittedAnswer e)

/-- The request posts a comment that passes the validation. -/
structure Passes (e : Env) (session : Session) : Prop extends Posts e session where
  valid : (verdict e (submittedComment e) session).1 = true

/-- A session without a code and without the mark of a visitor. -/
def Locked (session : Session) : Prop :=
  session.find "captcha" = none ∧ session.find "visitor" = none

section
variable {e : Env} {d : Db} {session session' : Session}

theorem isSet_eq_false {key : String} : session.isSet key = false ↔ session.find key = none := by
  rw [Session.isSet, Option.isSome_eq_false_iff, Option.isNone_iff_eq_none]

theorem Locked.congr (h : Locked session) (hsame : SameBut session session') : Locked session' :=
  ⟨(hsame "captcha" (by decide)).trans h.1, (hsame "visitor" (by decide)).trans h.2⟩

/-- The verdict on a comment that is compared. -/
theorem Compared.verdict {code : String} (h : Compared e session code) :
    verdict e (submittedComment e) session =
      if equalNoCase code (submittedAnswer e) then
        ((Post.checkFields e (submittedComment e) true).1, session.set "visitor" "1")
      else (false, []) := by
  rw [CppBlog.verdict, if_neg (by simp [h.form]), if_neg (by simp [h.noUser, h.noVisitor]), h.code,
    Option.any_some]
  rfl

/-- A rejected comment is no valid one and costs the session. -/
theorem Rejected.verdict (h : Rejected e session) :
    CppBlog.verdict e (submittedComment e) session = (false, []) := by
  obtain ⟨code, hcode, hne⟩ := h
  rw [hcode.verdict, if_neg (fun heq => hne (equalNoCase_iff.1 heq))]

/-- Without a code and a mark nothing is compared and nothing passes, -/
theorem Locked.closed (h : Locked session) (huser : session.isSet "user" = false) :
    (∀ code, ¬Compared e session code) ∧ ¬Passes e session := by
  refine ⟨fun code hcode => ?_, fun hpass => ?_⟩
  · exact absurd (h.1.symm.trans hcode.code) (by simp)
  · have hvalid := hpass.valid
    unfold CppBlog.verdict at hvalid
    split at hvalid
    · exact absurd hvalid (by simp)
    · rw [if_neg (by simp [huser, isSet_eq_false.2 h.2]), h.1] at hvalid
      exact absurd hvalid (by simp)

/-- A wrong answer locks the session, -/
theorem Rejected.locks (h : Rejected e session) (hstep : SessionStep e d session session') :
    Locked session' := by
  have hposts : Posts e session := by
    obtain ⟨code, hcode, -⟩ := h
    exact hcode.toPosts
  cases hstep with
  | keep _ hno _ => exact absurd hposts hno
  | captcha _ hno _ _ => exact absurd hposts.route (by simp [hno])
  | postback _ _ hsame =>
    rw [h.verdict] at hsame
    exact Locked.congr (show Locked [] from ⟨rfl, rfl⟩) hsame
  | login _ hno _ => exact absurd hposts.route (by simp [hno])

/-- and it stays so, unless a captcha is drawn. -/
theorem SessionStep.locked (hstep : SessionStep e d session session') (h : Locked session)
    (huser : session.isSet "user" = false) (hcaptcha : routedToCaptcha e = false) : Locked session' := by
  cases hstep with
  | keep _ _ hsame => exact h.congr hsame
  | captcha _ _ hroute _ =>
    rw [hcaptcha] at hroute
    exact absurd hroute (by simp)
  | postback _ _ hsame =>
    refine Locked.congr ?_ hsame
    unfold verdict
    split
    · exact h
    · rw [if_neg (by simp [huser, isSet_eq_false.2 h.2]), h.1]
      exact ⟨rfl, rfl⟩
  | login _ _ hmarked =>
    rcases hmarked with rfl | ⟨u, -, rfl⟩
    · exact ⟨rfl, rfl⟩
    · exact ⟨find_userSession (by decide) (by decide), find_userSession (by decide) (by decide)⟩

end

/-- A session becomes a visitor's by the right answer to its code. -/
theorem SessionStep.visitor {e : Env} {d : Db} {session session' : Session}
    (hstep : SessionStep e d session session') (h : session.find "visitor" = none)
    (h' : session'.find "visitor" ≠ none) :
    ∃ code, Compared e session code ∧ SameLetters code (submittedAnswer e) := by
  cases hstep with
  | keep _ _ hsame => exact absurd ((hsame "visitor" (by decide)).trans h) h'
  | captcha _ _ _ hsame =>
    refine absurd ((hsame "visitor" (by decide)).trans ?_) h'
    rw [Session.find_set_ne _ (by decide)]
    exact h
  | postback _ hposts hsame =>
    rw [hsame "visitor" (by decide)] at h'
    unfold verdict at h'
    split at h'
    · exact absurd h h'
    rename_i hform
    split at h'
    · exact absurd h h'
    rename_i hneither
    split at h'
    · rename_i hany
      obtain ⟨code, hcode, hequal⟩ := (Option.any_eq_true _ _).1 hany
      exact ⟨code, ⟨hposts, by simpa using hform,
        Bool.eq_false_iff.2 fun h => hneither (.inl h), isSet_eq_false.2 h, hcode⟩, equalNoCase_iff.1 hequal⟩
    · exact absurd rfl h'
  | login _ _ hmarked =>
    rcases hmarked with rfl | ⟨u, -, rfl⟩
    · exact absurd rfl h'
    · exact absurd (find_userSession (by decide) (by decide)) h'

/-- A form the form library refuses is not looked at any further. -/
theorem validate_of_invalid (e : Env) {form : CommentForm} (h : form.validate.valid = false) :
    Post.validate e form = .ret (false, form.validate) := by
  unfold Post.validate
  exact if_pos (by simp [h])

/-! ## Runs -/

theorem locked_saved {session session' : Session}
    (h : ∀ key, key ≠ "_csrf" → session'.find key = session.find key) (hlocked : Locked session) :
    Locked session' :=
  ⟨(h "captcha" (by decide)).trans hlocked.1, (h "visitor" (by decide)).trans hlocked.2⟩

/-- The client draws no captcha and has no user. -/
def DrawsNone (site : Site) (sid : String) (w : World) (b : Arrival) : Prop :=
  b.req.sid = sid → routedToCaptcha (site.env b) = false ∧ (w.session sid).isSet "user" = false

/-- No comment of the client is compared with a code, and none passes. -/
def NoneCompared (site : Site) (sid : String) (w : World) (b : Arrival) : Prop :=
  b.req.sid = sid →
    (∀ code, ¬Compared (site.env b) (w.session sid) code) ∧ ¬Passes (site.env b) (w.session sid)

/-- While no captcha is drawn a locked session stays locked. -/
theorem run_locked {site : Site} {sid : String} {w : World} (hw : Reachable site w)
    (hlocked : Locked (w.session sid)) {events : List Event}
    (h : EachRequest site (DrawsNone site sid) w events) :
    EachRequest site (NoneCompared site sid) w events := by
  induction events generalizing w with
  | nil => trivial
  | cons ev events ih =>
    cases ev with
    | evict keys => exact ih (hw.step _) hlocked h
    | request b =>
      refine ⟨fun hsid => hlocked.closed (h.1 hsid).2, ih (hw.step _) ?_ h.2⟩
      by_cases hsid : sid = b.req.sid
      · subst hsid
        obtain ⟨session', -, hstep, hsaved⟩ := request_session site (hw.sessionLaw b.req.sid)
        exact locked_saved hsaved (hstep.locked hlocked (h.1 rfl).2 (h.1 rfl).1)
      · rw [session_request_ne site hsid]
        exact hlocked

/-- **In every run, for every client: once a comment was compared with the code of its session and
    rejected, no other is compared and none passes before the next captcha is drawn, as long as nobody
    logs in; the session becomes a visitor's only by a comment whose answer is the code of that session up
    to the case of ASCII letters; and a form refused before the comparison is answered without a look at
    the session and without a change of it.** -/
theorem run_captcha (site : Site) (files : Files) (before : List Event) (sid : String) :
    let w := run site before (World.fresh files)
    (∀ a, a.req.sid = sid → Rejected (site.env a) (w.session sid) → ∀ after,
      EachRequest site (DrawsNone site sid) (step site w (.request a)) after →
      EachRequest site (NoneCompared site sid) (step site w (.request a)) after) ∧
    (∀ a, (w.session sid).isSet "visitor" = false →
      ((serve site a w).2.session sid).isSet "visitor" = true → a.req.sid = sid ∧
        ∃ code, Compared (site.env a) (w.session sid) code ∧ SameLetters code (submittedAnswer (site.env a))) ∧
    ∀ a, (submittedComment (site.env a)).valid = false →
      Post.validate (site.env a) (CommentForm.load {} a.req.postOrGet) =
        .ret (false, submittedComment (site.env a)) := by
  intro w
  have hw : Reachable site w := ⟨files, before, rfl⟩
  refine ⟨?_, ?_, fun a h => validate_of_invalid _ h⟩
  · rintro a rfl hrejected after hafter
    obtain ⟨session', -, hstep, hsaved⟩ := request_session site (hw.sessionLaw a.req.sid)
    exact run_locked (hw.step _) (locked_saved hsaved (hrejected.locks hstep)) hafter
  · intro a hvisitor hset
    by_cases hsid : sid = a.req.sid
    · subst hsid
      obtain ⟨session', -, hstep, hsaved⟩ := request_session site (hw.sessionLaw a.req.sid)
      have hset : (session'.find "visitor").isSome = true :=
        (congrArg Option.isSome (hsaved "visitor" (by decide))).symm.trans hset
      exact ⟨rfl, hstep.visitor (isSet_eq_false.1 hvisitor) (Option.isSome_iff_ne_none.1 hset)⟩
    · have hsame : (serve site a w).2.session sid = w.session sid := session_request_ne site hsid w
      rw [hsame, hvisitor] at hset
      exact absurd hset (by simp)

end CppBlog
