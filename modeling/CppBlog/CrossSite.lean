import CppBlog.CachedRuns
import CppBlog.PublicAccess

set_option autoImplicit false

/-! # Requests without the token of their session

The origin of a `POST` is checked when a form is loaded, so a handler is protected if it loads its form
before it does anything. Of the handlers that change something the removal of a user, the uploads and the
page of the cache load no form; a change of the visitor's language empties the cache before any handler
runs. -/

namespace CppBlog

open Effect Store App Relation

/-! ## What a request may touch -/

/-- Unless `D` the tables are as before, unless `F` the files, and unless `C` to the cache it was only added. -/
structure Spares (D F C : Prop) (s s' : St) : Prop where
  db : ¬D → s.tx = none → s'.tx = none ∧ ReflTransGen Upgraded s.db s'.db
  files : ¬F → s'.files = s.files
  cached : ¬C → TriggerCache.Grown s.cache s'.cache

instance {D F C : Prop} : AllowsReads (Spares D F C) where
  refl s := ⟨fun _ h => ⟨h, .refl⟩, fun _ => rfl, fun _ => .refl⟩
  trans a b c hab hbc := by
    refine ⟨fun hD ha => ?_, fun hF => (hbc.files hF).trans (hab.files hF),
      fun hC => (hab.cached hC).trans (hbc.cached hC)⟩
    obtain ⟨hb, hdb⟩ := hab.db hD ha
    obtain ⟨hc, hdb'⟩ := hbc.db hD hb
    exact ⟨hc, hdb.trans hdb'⟩
  of_quiet h := ⟨fun _ hs => ⟨h.tx.trans hs, h.db ▸ .refl⟩, fun _ => h.files, fun _ => h.cached⟩
  of_upgrade h := ⟨fun _ => h.db, fun _ => h.files, fun _ => h.cache ▸ .refl⟩

/-! ## Before the check -/

/-- A step that leaves the session and the check alone, besides everything else but the response. -/
structure Pending (s s' : St) : Prop extends Quiet s s' where
  session : s'.own.session = s.own.session
  checked : s'.own.csrfChecked = s.own.csrfChecked

instance : IsPreorder St Pending where
  refl _ := ⟨⟨⟨rfl, rfl, rfl⟩, .refl⟩, rfl, rfl⟩
  trans _ _ _ h h' :=
    ⟨⟨IsTrans.trans _ _ _ h.toIdle h'.toIdle, h.cached.trans h'.cached⟩,
      h'.session.trans h.session, h'.checked.trans h.checked⟩

namespace Pending

variable {α β : Type}

theorem query (f : Db → β) : (App.query f).Within calls Pending :=
  fun s => wp_query.2 ⟨refl s, refl s⟩

theorem modifyResponse (f : Response → Response) : (App.modifyResponse f).Within calls Pending :=
  fun _ => wp_modifyResponse.2 ⟨⟨⟨rfl, rfl, rfl⟩, .refl⟩, rfl, rfl⟩

theorem readPost (isPost : Bool) (id : Int) : (AdminPost.readPost isPost id).Within calls Pending := by
  have hstatus : (AdminPost.readStatus isPost id).Within calls Pending := by
    cases isPost
    · exact query _
    · exact query _
  refine hstatus.bind fun r => ?_
  split
  · exact (modifyResponse _).bind fun _ => .ret _
  · exact (query _).bind fun _ => .ret _

theorem readPage (isPost : Bool) (id : Int) : (AdminPage.readPage isPost id).Within calls Pending := by
  refine (query _).bind fun r => ?_
  split
  · exact (modifyResponse _).bind fun _ => .ret _
  · exact .ret _

end Pending

/-- A `POST` without the token of its session, or another request. -/
def Barred (e : Env) (o : Own) : Prop := e.req.method = "POST" → forged e o = true

theorem Barred.pending {e : Env} {s s' : St} (h : Barred e s.own) (hs : Pending s s') : Barred e s'.own := by
  intro hmethod
  have hforged : forged e s'.own = forged e s.own := by simp only [forged, hs.session, hs.checked]
  exact hforged.trans (h hmethod)

/-- For such a request the program keeps to the relation. -/
def Barring (R : St → St → Prop) (e : Env) {α : Type} (p : App α) : Prop :=
  ∀ s, Barred e s.own → p.wp calls (fun _ => R s) (fun _ => R s) s

section
variable {R : St → St → Prop} [AllowsReads R] {e : Env} {α β : Type}

namespace Barring

omit [AllowsReads R] in
theorem of_within {p : App α} (hp : p.Within calls R) : Barring R e p := fun s _ => hp s

/-- The form is not loaded. -/
theorem submit {φ : Type} {load : List (String × String) → φ} {k : φ → App α} {p : App α}
    (hp : p.Within calls R) : Barring R e (if e.req.method = "POST" then (loadForm e load).bind k else p) := by
  intro s hs
  split
  · rename_i hmethod
    rw [Prog.wp_bind, wp_loadForm, if_pos (hs hmethod)]
    exact AllowsQuiet.of_quiet ⟨⟨rfl, rfl, rfl⟩, .refl⟩
  · exact hp s

theorem bind {p : App α} {k : α → App β} (hp : Barring R e p) (hk : ∀ a, (k a).Within calls R) :
    Barring R e (p.bind k) :=
  fun s hs => Prog.wp_seq (hp s hs) (fun a _ h => (hk a).after h) (fun _ _ h => h)

/-- What comes before the form. -/
theorem after {p : App α} {k : α → App β} (hp : p.Within calls Pending) (hk : ∀ a, Barring R e (k a)) :
    Barring R e (p.bind k) := by
  intro s hs
  refine Prog.wp_seq (hp s) (fun a s' h => ?_) (fun _ _ h => AllowsQuiet.of_quiet h.toQuiet)
  have hR : R s s' := AllowsQuiet.of_quiet h.toQuiet
  exact Prog.wp_mono (fun _ _ h' => IsTrans.trans _ _ _ hR h') (fun _ _ h' => IsTrans.trans _ _ _ hR h')
    (hk a s' (hs.pending h))

omit [AllowsReads R] in
theorem ite {c : Prop} [Decidable c] {p q : App α} (hp : Barring R e p) (hq : Barring R e q) :
    Barring R e (if c then p else q) := by
  split
  · exact hp
  · exact hq

/-! ## Handlers that load a form first -/

theorem configure : Barring R e (Config.configure e) := by
  have hrender (f : ConfigForm) : (Config.render e f).Within calls R :=
    (Idle.getOwn _).bind fun _ => Idle.write _
  exact .after (Pending.query _) fun _ => .after (.ite (Pending.modifyResponse _) (.ret _)) fun _ =>
    .submit (hrender _)

theorem postback (sid : String) : Barring R e (Post.postback e sid) := by
  intro s hs
  unfold Post.postback
  split
  · exact Idle.makeErrorResponse _ s
  · rename_i hmethod
    rw [Prog.wp_bind, wp_loadForm, if_pos (hs (not_not.1 hmethod))]
    exact AllowsQuiet.of_quiet ⟨⟨rfl, rfl, rfl⟩, .refl⟩

theorem prepareShared (id : Int) : Barring R e (AdminPost.prepareShared e id) := by
  refine .after (.ite (Pending.readPost _ _) (.ret _)) fun r => ?_
  split
  · exact .of_within (.ret _)
  · exact .after ((Pending.query _).bind fun _ => .ret _) fun _ => .submit (readOnly_postEditor e _ _ _)

theorem adminPost (sid : String) : Barring R e (AdminPost.prepare e sid) :=
  .ite (.of_within (Idle.makeErrorResponse _)) (.prepareShared _)

theorem adminPageShared (id : Int) : Barring R e (AdminPage.prepareShared e id) := by
  refine .after (.ite (Pending.readPage _ _) (.ret _)) fun r => ?_
  split
  · exact .of_within (.ret _)
  · exact .submit (readOnly_pageEditor e _ _ _)

theorem adminPage (sid : String) : Barring R e (AdminPage.prepare e sid) :=
  .ite (.of_within (Idle.makeErrorResponse _)) (.adminPageShared _)

theorem adminComment (sid : String) : Barring R e (AdminComment.prepare e sid) := by
  refine .submit ((Idle.query _).bind fun r => ?_)
  split
  · exact Idle.makeErrorResponse _
  · exact readOnly_commentEditor e _ _ _

theorem categories : Barring R e (Categories.prepare e) :=
  .bind (.submit (.ret _)) fun _ => readOnly_adminPrepare.bind fun _ => (Idle.query _).bind fun _ =>
    readOnly_renderAdmin e _ _ _

theorem options : Barring R e (Options.prepare e) :=
  .submit (readOnly_adminPrepare.bind fun _ => readOnly_renderAdmin e _ _ _)

theorem usersAdd : Barring R e (Users.add e) := .submit (readOnly_adminPage e _ _)

theorem usersEdit (sid : String) : Barring R e (Users.edit e sid) := by
  refine .ite (.of_within (Idle.makeErrorResponse _)) (.after (Pending.query _) fun r => ?_)
  split
  · exact .of_within (Idle.makeErrorResponse _)
  · exact .submit (readOnly_adminPage e _ _)

end Barring

end

/-! ## The others -/

section
variable {D F C : Prop} {e : Env}

/-- The removal of a user touches nothing but the tables. -/
theorem spares_del (sid : String) : (Users.del e sid).Within calls (Spares True F C) := by
  refine Prog.Within.bind (.ite (.ret _) ((Idle.sessionGetInt _).bind fun _ => .ret _)) fun _ =>
    .ite (Idle.makeErrorResponse _) (Prog.Within.bind (fun s => ?_) fun _ => Idle.setRedirectHeader _)
  have hsame (s' : St) (hf : s'.files = s.files) (hc : s'.cache = s.cache) : Spares True F C s s' :=
    ⟨fun h => absurd trivial h, fun _ => hf, fun _ => hc ▸ .refl⟩
  simp only [wp_transaction, Prog.wp_bind, wp_execTotal, wp_commit]
  exact ⟨⟨⟨hsame _ rfl rfl, hsame _ rfl rfl⟩, hsame _ rfl rfl⟩, hsame _ rfl rfl⟩

instance : AllowsFiles (Spares D True C) where
  files _ _ := wp_files.2 ⟨fun _ h => ⟨h, .refl⟩, fun h => absurd trivial h, fun _ => .refl⟩

theorem spares_upload : (Upload.prepare e).Within calls (Spares D True C) :=
  within_upload e readOnly_adminPrepare fun _ _ => (Idle.setHeader _ _).bind fun _ => Idle.write _

theorem spares_caching (hC : e.req.method = "POST" → C) : (Caching.prepare e).Within calls (Spares D F C) :=
  within_caching e fun hmethod _ => wp_cache.2
    ⟨fun _ h => ⟨h, .refl⟩, fun _ => rfl, fun h => absurd (hC hmethod) h⟩

end

/-! ## Every request -/

section

-- a dispatcher is what `Destination.site` says
attribute [local irreducible] dispatch

/-- The request removes a user, on behalf of someone who is logged in. -/
def Removes (e : Env) (session : Session) : Prop :=
  (routedToUserDel e).isSome = true ∧ session.isSet "user" = true

/-- The request asks for the page that takes uploads, likewise. -/
def Uploads (e : Env) (session : Session) : Prop := routedToUpload e = true ∧ session.isSet "user" = true

/-- The request empties the cache on its page, likewise. -/
def Empties (e : Env) (session : Session) : Prop :=
  routedToCaching e = true ∧ e.req.method = "POST" ∧ session.isSet "user" = true

variable {e : Env} {D F C : Prop}

theorem AdminDestination.spares {p : App Unit} (h : AdminDestination e p)
    (hD : (routedToUserDel e).isSome = true → D) (hF : routedToUpload e = true → F)
    (hC : routedToCaching e = true → e.req.method = "POST" → C) : Barring (Spares D F C) e p := by
  cases h with
  | notFound => exact .of_within (Idle.makeErrorResponse _)
  | caching hroute => exact .of_within (spares_caching (hC hroute))
  | categories => exact .categories
  | options => exact .options
  | comment sid => exact .adminComment sid
  | post sid => exact .adminPost sid
  | newPost _ => exact .prepareShared 0
  | page sid => exact .adminPage sid
  | newPage => exact .adminPageShared 0
  | users page => exact .of_within (readOnly_usersList e page)
  | userAdd => exact .usersAdd
  | userDel sid hroute =>
    have hD : D := hD (by rw [hroute]; rfl)
    rw [eq_true hD]
    exact .of_within (spares_del sid)
  | userEdit sid => exact .usersEdit sid
  | login => exact .of_within (readOnly_login e)
  | upload hroute =>
    rw [eq_true (hF hroute)]
    exact .of_within spares_upload
  | summary page => exact .of_within (readOnly_adminSummary e page)

theorem wp_site_spares {s : St} (hbarred : Barred e s.own) (hD : Removes e s.own.session → D)
    (hF : Uploads e s.own.session → F) (hC : Empties e s.own.session → C) :
    (dispatch (siteRoutes e) (routedPath e)).wp calls (fun _ => Spares D F C s) (fun _ => Spares D F C s) s := by
  rcases (Destination.site e).reads_or (R := Spares D F C) with hp | ⟨path, -, hp⟩ | ⟨path, hpath, hp⟩ |
    ⟨sid, -, hp⟩
  · exact hp s
  · rw [hp]
    refine dispatch_induction (P := Barring (Spares D F C) e) (.of_within (Idle.makeErrorResponse _))
      (fun r hr caps _ => ?_) s hbarred
    rcases List.mem_pair.1 hr with rfl | rfl
    · exact .configure
    · exact .of_within (within_configVersion e)
  · rw [hp]
    by_cases huser : s.own.session.isSet "user" = true
    · rw [adminMaster, Prog.wp_bind, wp_sessionIsSet, if_pos (.inl huser)]
      exact (AdminDestination.admin hpath).spares (fun h => hD ⟨h, huser⟩) (fun h => hF ⟨h, huser⟩)
        (fun h hmethod => hC ⟨h, hmethod, huser⟩) s hbarred
    · exact wp_adminMaster_visitor e path (by simpa using huser)
  · rw [hp]
    exact Barring.postback sid s hbarred

/-- A request without the token touches nothing but what the unprotected handlers touch. -/
theorem wp_main_spares {s : St} (hbarred : Barred e s.own) (hD : Removes e s.own.session → D)
    (hF : Uploads e s.own.session → F) (hC : Empties e s.own.session → C)
    (hlang : ¬Remembers e s.own.session → C) :
    (main e).wp calls (fun _ => Spares D F C s) (fun _ => Spares D F C s) s := by
  have hspares {s₁ : St} {c : Cache} (h : Greeted s s₁) (hc : s₁.cache = c)
      (hkept : ¬C → c = s.cache) : Spares D F C s s₁ :=
    ⟨fun _ hs => ⟨h.tx.trans hs, h.db ▸ .refl⟩, fun _ => h.files,
      fun hnot => by rw [hc, hkept hnot]; exact .refl⟩
  refine Prog.wp_seq (Prog.wp_and (wp_selectLanguage e s) (wp_selectLanguage_cache e s)) (fun _ s₁ h₁ => ?_)
    fun _ s₁ h₁ => hspares h₁.1 h₁.2.cache fun _ => rfl
  obtain ⟨hgreeted, hselected⟩ := h₁
  have h₁ : Spares D F C s s₁ := by
    refine hspares hgreeted hselected.cache fun hnot => ?_
    rw [keptCache, if_pos (not_not.1 fun h => hnot (hlang h))]
  have huser : s₁.own.session.isSet "user" = s.own.session.isSet "user" := by
    simp only [Session.isSet, hgreeted.session "user" (by decide)]
  have hbarred₁ : Barred e s₁.own := by
    intro hmethod
    have hforged : forged e s₁.own = forged e s.own := by
      simp only [forged, hgreeted.checked, hgreeted.session "_csrf" (by decide)]
    exact hforged.trans (hbarred hmethod)
  have hsite := wp_site_spares hbarred₁ (D := D) (F := F) (C := C) (fun h => hD ⟨h.1, huser ▸ h.2⟩)
    (fun h => hF ⟨h.1, huser ▸ h.2⟩) (fun h => hC ⟨h.1, h.2.1, huser ▸ h.2.2⟩)
  rw [Prog.wp_tryCatch]
  refine Prog.wp_mono (fun _ _ h => IsTrans.trans _ _ _ h₁ h) (fun err s₂ h₂ => ?_) hsite
  have h₂ : Spares D F C s s₂ := IsTrans.trans _ _ _ h₁ h₂
  split
  · exact (Idle.setRedirectHeader _).after h₂
  · exact (Idle.setRedirectHeader _).after h₂
  · exact h₂

end

/-! ## What a request without the token can do -/

/-- The token of a session; empty when it has none. -/
def Session.csrfToken (session : Session) : String := (session.find "_csrf").getD ""

/-- **Of a request from a session with a token that does not carry it.** In every reachable state: it changes
    no table unless it removes a user, it changes no file unless it asks for the page that takes uploads,
    and to the cache it only adds unless it empties it on its page or changes the visitor's language. -/
theorem serve_carries {site : Site} {w : World} (hw : Reachable site w) (hcsrf : site.settings.csrf = true)
    (a : Arrival) (htoken : (w.session a.req.sid).csrfToken ≠ "") :
    ((serve site a w).2.shared.db ≠ w.shared.db →
      requestToken (site.env a) = (w.session a.req.sid).csrfToken ∨
        Removes (site.env a) (w.session a.req.sid)) ∧
    ((serve site a w).2.shared.files ≠ w.shared.files →
      requestToken (site.env a) = (w.session a.req.sid).csrfToken ∨
        Uploads (site.env a) (w.session a.req.sid)) ∧
    (¬TriggerCache.Grown w.shared.cache (serve site a w).2.shared.cache →
      requestToken (site.env a) = (w.session a.req.sid).csrfToken ∨
        Empties (site.env a) (w.session a.req.sid) ∨ ¬Remembers (site.env a) (w.session a.req.sid)) := by
  by_cases hcarries : requestToken (site.env a) = (w.session a.req.sid).csrfToken
  · exact ⟨fun _ => .inl hcarries, fun _ => .inl hcarries, fun _ => .inl hcarries⟩
  have hbarred : Barred (site.env a) (w.start a).own := by
    intro hmethod
    have hne : ((w.session a.req.sid).find "_csrf").getD "" ≠ requestToken (site.env a) := Ne.symm hcarries
    have htoken : ((w.session a.req.sid).find "_csrf").getD "" ≠ "" := htoken
    have hcsrf : (site.env a).settings.csrf = true := hcsrf
    simp [forged, World.start, Own.load, hcsrf, hmethod, hne, htoken]
  have hspares := serve_of_wp (wp_main_spares hbarred
    (D := Removes (site.env a) (w.session a.req.sid)) (F := Uploads (site.env a) (w.session a.req.sid))
    (C := Empties (site.env a) (w.session a.req.sid) ∨ ¬Remembers (site.env a) (w.session a.req.sid))
    id id .inl .inr)
  refine ⟨fun hdb => .inr ?_, fun hfiles => .inr ?_, fun hcache => .inr ?_⟩
  · by_contra hnot
    rcases ReflTransGen.cases_head (hspares.db hnot rfl).2 with heq | ⟨m, hm, -⟩
    · exact hdb heq.symm
    · exact hm.1 hw.versioned
  · by_contra hnot
    exact hfiles (hspares.files hnot)
  · by_contra hnot
    exact hcache (hspares.cached hnot)

/-- Alice is logged in with the token `t`, Bob has an account, and the front page is cached. -/
def loggedIn : World :=
  run .sample [.request (.configure "c" "alice"),
    .request { Arrival.login "a" "alice" with chance := { csrfToken := "t" } },
    .request (.post "a" "/admin/users/add" [("_1", "bob"), ("_2", "p"), ("_csrf", "t")]),
    .request (.get "a" "/")] (World.fresh [(["media".toList, "upload".toList], .dir)])

theorem reachable_loggedIn : Reachable .sample loggedIn := ⟨_, _, rfl⟩

/-- With the token Bob is renamed. -/
theorem serve_carries_rename :
    requestToken (Site.sample.env (.post "a" "/admin/users/2" [("_1", "rob"), ("_2", "p"), ("_csrf", "t")])) =
      (loggedIn.session "a").csrfToken := by
  have hroute : ¬Removes (Site.sample.env (.post "a" "/admin/users/2"
      [("_1", "rob"), ("_2", "p"), ("_csrf", "t")])) (loggedIn.session "a") := by
    rintro ⟨hroute, -⟩
    exact absurd hroute (by decide +kernel)
  refine ((serve_carries reachable_loggedIn rfl (.post "a" "/admin/users/2"
    [("_1", "rob"), ("_2", "p"), ("_csrf", "t")]) (by decide +kernel)).1 fun hdb => ?_).resolve_right hroute
  have husers := congrArg (fun d : Db => d.users.rows.map User.username) hdb
  exact absurd husers (by decide +kernel)

/-- The four requests that need no token: the removal of a user, an upload, the emptying of the cache and
    a change of the language. -/
theorem not_serve_carries :
    let removal := Arrival.get "a" "/admin/users/del/2"
    let upload : Arrival := { req := {
      sid := "a", path := "/admin/upload", method := "POST", files := [[97]]
      post := [("md5", "0cc175b9c0f1b6a831c399e269772661"), ("name", "a.txt"), ("size", "1")] } }
    let emptying := Arrival.post "a" "/admin/cache" []
    let language : Arrival := { req := { sid := "a", path := "/config/version", httpAcceptLanguage := "zh" } }
    Reachable .sample loggedIn ∧ (loggedIn.session "a").csrfToken = "t" ∧
      (∀ a ∈ [removal, upload, emptying, language], requestToken (Site.sample.env a) ≠ "t") ∧
      (serve .sample removal loggedIn).2.shared.db ≠ loggedIn.shared.db ∧
      (serve .sample upload loggedIn).2.shared.files ≠ loggedIn.shared.files ∧
      ¬TriggerCache.Grown loggedIn.shared.cache (serve .sample emptying loggedIn).2.shared.cache ∧
      ¬TriggerCache.Grown loggedIn.shared.cache (serve .sample language loggedIn).2.shared.cache := by
  intro removal upload emptying language
  refine ⟨reachable_loggedIn, by decide +kernel, by decide +kernel, fun h => ?_, fun h => ?_, fun h => ?_,
    fun h => ?_⟩
  · have husers := congrArg (fun d : Db => d.users.rows.map User.username) h
    exact absurd husers (by decide +kernel)
  · have hfiles := congrArg List.length h
    exact absurd hfiles (by decide +kernel)
  · have hfront := h.isSome "_U:summary_0_0_" (by decide +kernel)
    exact absurd hfront (by decide +kernel)
  · have hfront := h.isSome "_U:summary_0_0_" (by decide +kernel)
    exact absurd hfront (by decide +kernel)

end CppBlog
