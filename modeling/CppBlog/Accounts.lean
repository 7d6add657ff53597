import CppBlog.CachedRuns
import CppBlog.Logins

set_option autoImplicit false

/-! # The accounts and the sessions of their users

A session keeps the marks of its user whatever becomes of the row they name: the gate of the
administration looks at the session alone, and the deletion of a user refuses the id of the session that
asks for it and no other. -/

namespace CppBlog

open Effect Store App

/-! ## Behind the gate -/

section

-- a dispatcher is what its destinations say
attribute [local irreducible] dispatch

/-- A request for a page of the administration does to the tables what the page does for a session with
    a user. -/
theorem wp_main_behind {e : Env} {path : String} {p : App Unit} (hpath : adminPath e = some path)
    (hp : dispatch (adminRoutes e) path = p) (hlogin : routedToLogin e = false) {s : St} {Q : Db → Prop}
    (hself : Q s.db) (hopen : ∀ s₁, Greeted s s₁ → s₁.own.session.isSet "user" = true →
      p.wp calls (fun _ s' => Q s'.db) (fun _ s' => Q s'.db) s₁) :
    (main e).wp calls (fun _ s' => Q s'.db) (fun _ s' => Q s'.db) s := by
  refine Prog.wp_seq (wp_selectLanguage e s) (fun _ s₁ h₁ => ?_) fun _ s₁ h₁ => h₁.db ▸ hself
  have hself₁ : Q s₁.db := h₁.db ▸ hself
  have hsite : (dispatch (siteRoutes e) (routedPath e)).wp calls (fun _ s' => Q s'.db)
      (fun _ s' => Q s'.db) s₁ := by
    rw [dispatch_admin hpath, adminMaster, Prog.wp_bind, wp_sessionIsSet]
    split
    · rename_i hgate
      by_cases huser : s₁.own.session.isSet "user" = true
      · rw [hp]
        exact hopen s₁ h₁ huser
      · -- without a user the gate opens for the login page only
        have hroute : routedToLogin e = true := by
          rcases hgate with h | rfl | rfl
          · exact absurd h huser
          · simp only [routedToLogin, usersPath, hpath]
            rfl
          · simp only [routedToLogin, usersPath, hpath]
            rfl
        rw [hlogin] at hroute
        exact absurd hroute (by simp)
    · rw [wp_setRedirectHeader]
      exact hself₁
  rw [Prog.wp_tryCatch]
  refine Prog.wp_mono (fun _ _ h => h) (fun err s₂ h₂ => ?_) hsite
  split
  · rw [wp_setRedirectHeader]
    exact h₂
  · rw [wp_setRedirectHeader]
    exact h₂
  · exact h₂

end

/-- The path of a request that `apps::admin::users` answers by entry `i`. -/
theorem dispatch_users {e : Env} {i : Nat} {sid : String} {r : Route}
    (h : (usersPath e).bind (mounted (usersRoutes e) i) = some sid) (hr : (usersRoutes e)[i]? = some r) :
    ∃ path caps, adminPath e = some path ∧ text caps 1 = sid ∧
      dispatch (adminRoutes e) path = r.2 caps := by
  rw [Option.bind_eq_some_iff] at h
  obtain ⟨users, husers, hentry⟩ := h
  rw [usersPath, Option.bind_eq_some_iff] at husers
  obtain ⟨path, hpath, hmount⟩ := husers
  rw [mounted, Option.map_eq_some_iff] at hmount hentry
  obtain ⟨caps, hcaps, rfl⟩ := hmount
  obtain ⟨caps', hcaps', rfl⟩ := hentry
  have hsixth : (adminRoutes e)[6]? =
      some (mountRx "/users", fun m => dispatch (usersRoutes e) (text m 1)) := rfl
  exact ⟨path, caps', hpath, rfl, (dispatch_entry hsixth hcaps).trans (dispatch_entry hr hcaps')⟩

/-- A request for one entry of `apps::admin::users` is for no other. -/
theorem routedToLogin_of_entry {e : Env} {i : Nat} {sid : String} (hi : i < 5)
    (h : (usersPath e).bind (mounted (usersRoutes e) i) = some sid) : routedToLogin e = false := by
  rw [Option.bind_eq_some_iff] at h
  obtain ⟨users, husers, hentry⟩ := h
  rw [mounted, Option.map_eq_some_iff] at hentry
  obtain ⟨caps, hcaps, -⟩ := hentry
  rw [routedToLogin, husers, Option.any_some]
  cases hlogin : entry (usersRoutes e) 5 users with
  | none => rfl
  | some caps' =>
    rw [entry_eq_none_of_lt hlogin hi] at hcaps
    exact absurd hcaps (by simp)

/-! ## What a request does to the users -/

/-- The request deletes the user with the id given, if there is one. -/
structure Deletes (e : Env) (session : Session) (id : Int) : Prop where
  route : (routedToUserDel e).map Text.atoi = some id
  user : session.isSet "user" = true
  other : ∀ own, (session.find "id").bind Text.readInt? = some own → id ≠ own

/-- The request submits a name and a password for the user with the id given. -/
structure Saves (e : Env) (session : Session) (id : Int) : Prop where
  route : (routedToUserEdit e).map Text.atoi = some id
  user : session.isSet "user" = true
  method : e.req.method = "POST"

/-- The name a request submits to `users::edit`. -/
def submittedName (e : Env) : String := (UserForm.load {} e.req.postOrGet).username.value

theorem wp_usersDel (e : Env) (sid : String) {s : St} {Q : Db → Prop} (hself : Q s.db)
    (hdel : (∀ own, (s.own.session.find "id").bind Text.readInt? = some own → Text.atoi sid ≠ own) →
      Q (s.db.deleteUser (Text.atoi sid))) :
    (Users.del e sid).wp calls (fun _ s' => Q s'.db) (fun _ s' => Q s'.db) s := by
  unfold Users.del
  dsimp only
  rw [Prog.wp_bind]
  split
  · rw [Prog.wp_ret, if_pos rfl, wp_makeErrorResponse]
    exact hself
  · rw [Prog.wp_bind, wp_sessionGetInt]
    split
    · rename_i own hown
      rw [Prog.wp_ret]
      split
      · rw [wp_makeErrorResponse]
        exact hself
      · rename_i hne
        simp only [Prog.wp_bind, wp_transaction, wp_execTotal, wp_commit, wp_setRedirectHeader]
        refine ⟨⟨⟨?_, hself⟩, hself⟩, hself⟩
        refine hdel fun own' hown' => ?_
        rw [hown] at hown'
        obtain rfl := Option.some.inj hown'
        simpa using hne
    · exact hself

/-- Storing a user commits the statement or nothing. -/
theorem wp_tryStore (e : Env) (statement : Db → Except SqlError Db) {s : St} (hs : s.tx = none)
    {Q : Db → Prop} (hself : Q s.db) (hstore : ∀ d', statement s.db = .ok d' → Q d') :
    (Users.tryStore e statement).wp calls (fun _ s' => Q s'.db ∧ s'.tx = none)
      (fun _ s' => Q s'.db ∧ s'.tx = none) s := by
  have hblock : ((transaction ((exec statement).bind fun _ => commit)).bind fun _ =>
      (setRedirectHeader (urlAdminUsersList e)).bind fun _ => (.ret true : App Bool)).wp calls
      (fun _ s' => Q s'.db ∧ s'.tx = none) (fun _ s' => Q s'.db ∧ s'.tx = none) s := by
    rw [Prog.wp_bind, wp_transaction, Prog.wp_bind, wp_exec]
    refine ⟨⟨fun d' hd' => ?_, fun _ _ => ⟨hself, rfl⟩, hself, rfl⟩, hself, hs⟩
    rw [wp_commit, Prog.wp_bind, wp_setRedirectHeader]
    exact ⟨⟨hstore d' hd', rfl⟩, hself, rfl⟩
  unfold Users.tryStore
  rw [Prog.wp_tryCatch]
  refine Prog.wp_mono (fun _ _ h => h) (fun err s' h => ?_) hblock
  split
  · exact h
  · exact h

theorem wp_usersEdit (e : Env) (sid : String) {s : St} (hs : s.tx = none) (hv : Versioned s.db)
    {Q : Db → Prop} (hself : Q s.db)
    (hsave : e.req.method = "POST" → ∀ password d',
      s.db.updateUser (Text.atoi sid) (submittedName e) password = .ok d' → Q d') :
    (Users.edit e sid).wp calls (fun _ s' => Q s'.db) (fun _ s' => Q s'.db) s := by
  -- the page that is shown reads only
  have hshow (active : String) (view : AdminContent → AdminView) {s' : St}
      (h : (Q s'.db ∧ Versioned s'.db) ∧ s'.tx = none) :
      (adminPrepare.bind fun c => renderAdmin e c active (view c)).wp calls (fun _ s' => Q s'.db)
        (fun _ s' => Q s'.db) s' := by
    have hreads {s'' : St} (hr : Reads s' s'') : Q s''.db := (hr.eq_of_versioned h.2 h.1.2).2 ▸ h.1.1
    exact (readOnly_adminPage e active view).wp (fun _ _ => hreads) (fun _ _ => hreads)
  unfold Users.edit
  dsimp only
  split
  · rw [wp_makeErrorResponse]
    exact hself
  rw [Prog.wp_bind, wp_query]
  refine ⟨?_, hself⟩
  split
  · rw [wp_makeErrorResponse]
    exact hself
  split
  · rename_i hpost
    rw [Prog.wp_bind, wp_loadForm]
    split
    · exact hself
    split
    · refine Prog.wp_seq (wp_tryStore e _ (s := s.setOwn { s.own with csrfChecked := true }) hs
        (Q := fun d => Q d ∧ Versioned d) ⟨hself, hv⟩ fun d' hd' => ⟨hsave hpost _ d' hd', ?_⟩)
        (fun done s' h => ?_) fun _ _ h => h.1.1
      · exact hv.congr (congrArg Db.textOptions (Db.updateUser_frame hd') :)
      · split
        · exact h.1.1
        · exact hshow _ _ h
    · exact hshow _ _ ⟨⟨hself, hv⟩, hs⟩
  · exact hshow _ _ ⟨⟨hself, hv⟩, hs⟩

/-- What a request does to the users: besides a new row, what its page is for, from a session with a
    user. -/
inductive AccountStep (e : Env) (session : Session) (d d' : Db) : Prop where
  | same : d'.users = d.users → AccountStep e session d d'
  | create {u : User} : d'.users.rows = d.users.rows ++ [u] → AccountStep e session d d'
  | save {id : Int} {password : String} : Saves e session id →
      d'.users = d.users.update (fun r => r.id = id)
        (fun r => { r with username := submittedName e, password := password }) (fun _ => rfl) →
      AccountStep e session d d'
  | remove {id : Int} : Deletes e session id → d'.users = d.users.delete (fun r => r.id = id) →
      AccountStep e session d d'

theorem wp_main_accounts {e : Env} {s : St} (hs : s.tx = none) (hv : Versioned s.db) {sid : String}
    (hroute : routedToUserDel e = some sid ∨ routedToUserEdit e = some sid) :
    (main e).wp calls (fun _ s' => AccountStep e s.own.session s.db s'.db)
      (fun _ s' => AccountStep e s.own.session s.db s'.db) s := by
  rcases hroute with hdel | hedit
  · obtain ⟨path, caps, hpath, rfl, hp⟩ := dispatch_users hdel rfl
    refine wp_main_behind hpath hp (routedToLogin_of_entry (by omega) hdel) (.same rfl) fun s₁ h₁ huser => ?_
    refine wp_usersDel e _ (.same (by rw [h₁.db])) fun hother => ?_
    refine @AccountStep.remove _ _ _ _ (Text.atoi (text caps 1)) ⟨by rw [hdel, Option.map_some], ?_, ?_⟩ ?_
    · rwa [Session.isSet, h₁.session "user" (by decide)] at huser
    · rwa [h₁.session "id" (by decide)] at hother
    · rw [h₁.db]
      rfl
  · obtain ⟨path, caps, hpath, rfl, hp⟩ := dispatch_users hedit rfl
    refine wp_main_behind hpath hp (routedToLogin_of_entry (by omega) hedit) (.same rfl) fun s₁ h₁ huser => ?_
    refine wp_usersEdit e _ (h₁.tx.trans hs) (h₁.db.symm ▸ hv) (.same (by rw [h₁.db]))
      fun hpost password d' hd' => ?_
    refine @AccountStep.save _ _ _ _ (Text.atoi (text caps 1)) password
      ⟨by rw [hedit, Option.map_some], ?_, hpost⟩ ?_
    · rwa [Session.isSet, h₁.session "user" (by decide)] at huser
    · rw [h₁.db] at hd'
      unfold Db.updateUser at hd'
      split at hd'
      · cases hd'
      · cases hd'
        rfl

theorem Reachable.accountStep {site : Site} {w : World} (hw : Reachable site w) (a : Arrival) :
    AccountStep (site.env a) (w.session a.req.sid) w.shared.db (serve site a w).2.shared.db := by
  have hrouted {sid : String} (hroute : routedToUserDel (site.env a) = some sid ∨
      routedToUserEdit (site.env a) = some sid) :
      AccountStep (site.env a) (w.session a.req.sid) w.shared.db (serve site a w).2.shared.db :=
    serve_of_wp (P := fun s' => AccountStep (site.env a) (w.session a.req.sid) w.shared.db s'.db)
      (wp_main_accounts (s := w.start a) rfl hw.versioned hroute)
  rcases hw.reached a with hsame | ⟨ts, hstep⟩
  · exact .same (by rw [hsame])
  · cases hstep.users with
    | same h => exact .same h
    | create _ h => exact .create h
    | save hroute _ => exact hrouted (.inr hroute)
    | remove hroute _ => exact hrouted (.inl hroute)

/-! ## The last user -/

/-- When a request deletes a user, its own user is there, or the deleted one is not the only one. -/
def LeavesAUser (site : Site) (w : World) (a : Arrival) : Prop :=
  ∀ id, Deletes (site.env a) (w.session a.req.sid) id →
    (∃ u ∈ w.shared.db.users.rows, (w.session a.req.sid).find "id" = some (toString u.id)) ∨
      ∃ u ∈ w.shared.db.users.rows, u.id ≠ id

/-- The step keeps a user, once there is one. -/
theorem AccountStep.nonempty {site : Site} {a : Arrival} {w : World} {d' : Db}
    (h : AccountStep (site.env a) (w.session a.req.sid) w.shared.db d') (hleaves : LeavesAUser site w a)
    (hd : w.shared.db.users.rows ≠ []) : d'.users.rows ≠ [] := by
  cases h with
  | same h => rwa [h]
  | create h => rw [h]; simp
  | save _ h =>
    rw [h, AutoTable.update_rows]
    simpa using hd
  | @remove id hdel h =>
    have hother : ∃ u ∈ w.shared.db.users.rows, u.id ≠ id := by
      rcases hleaves _ hdel with ⟨u, hu, hid⟩ | hother
      · refine ⟨u, hu, fun heq => hdel.other u.id ?_ heq.symm⟩
        rw [hid]
        exact readInt?_userId hu
      · exact hother
    obtain ⟨u, hu, hne⟩ := hother
    rw [h, AutoTable.delete_rows]
    exact List.ne_nil_of_mem (List.mem_filter.2 ⟨hu, by simpa using hne⟩)

/-- What is configured has a user. -/
theorem configured_step {site : Site} {w : World} (hw : Reachable site w) {a : Arrival}
    (hleaves : LeavesAUser site w a)
    (h : w.shared.db.option "is_configured" = some "yes" → w.shared.db.users.rows ≠ [])
    (hconf : (serve site a w).2.shared.db.option "is_configured" = some "yes") :
    (serve site a w).2.shared.db.users.rows ≠ [] := by
  have hkept (hsame : (serve site a w).2.shared.db.option "is_configured" =
      w.shared.db.option "is_configured") : (serve site a w).2.shared.db.users.rows ≠ [] :=
    (hw.accountStep a).nonempty hleaves (h (hsame.symm.trans hconf))
  rcases hw.reached a with hsame | ⟨ts, hstep⟩
  · exact hkept (by rw [hsame])
  · rcases hstep.options with hsame | ⟨f, hf⟩ | ⟨f, hf⟩
    · exact hkept (by rw [Db.option, hsame, Db.option])
    · rw [Db.configure_users hf]
      simp
    · exact hkept (option_storeOptions hf (by decide))

/-- **In every run in which no session whose own user is gone deletes the only user that is left, the
    users of a configured blog are never empty.** -/
theorem run_users_nonempty (site : Site) (files : Files) {events : List Event}
    (h : EachRequest site (LeavesAUser site) (World.fresh files) events)
    (hconf : (run site events (World.fresh files)).shared.db.option "is_configured" = some "yes") :
    (run site events (World.fresh files)).shared.db.users.rows ≠ [] := by
  have hinv := h.induction (I := fun w => Reachable site w ∧
    (w.shared.db.option "is_configured" = some "yes" → w.shared.db.users.rows ≠ []))
    (fun w keys hw => ⟨hw.1.step _, hw.2⟩)
    (fun w a hw hleaves => ⟨hw.1.step _, configured_step hw.1 hleaves hw.2⟩)
    ⟨⟨files, [], rfl⟩, fun hconf => absurd hconf (by
      show Db.fresh.option "is_configured" ≠ some "yes"
      decide)⟩
  exact hinv.2 hconf

/-- The user of a blog that was just configured deletes nobody. -/
theorem run_users_nonempty_one :
    (run .sample [.request (.configure "a" "alice"), .request (.login "a" "alice")]
      (World.fresh [])).shared.db.users.rows ≠ [] := by
  refine run_users_nonempty .sample [] ?_ (by decide)
  have hnone (a : Arrival) (ha : routedToUserDel (Site.sample.env a) = none) (w : World) :
      LeavesAUser .sample w a := fun id hdel => absurd hdel.route (by simp [ha])
  exact ⟨hnone _ (by decide) _, hnone _ (by decide) _, trivial⟩

/-- Two users of a configured blog and their sessions. -/
def twoUsers : List Event :=
  [.request (.configure "a" "alice"), .request (.login "a" "alice"),
   .request (.post "a" "/admin/users/add" [("_1", "bob"), ("_2", "p")]), .request (.login "b" "bob")]

set_option maxRecDepth 4000 in
/-- Each of them deletes the other. -/
theorem run_users_empty :
    let w := run .sample (twoUsers ++ [.request (.get "a" "/admin/users/del/2"),
      .request (.get "b" "/admin/users/del/1")]) (World.fresh [])
    w.shared.db.option "is_configured" = some "yes" ∧ w.shared.db.users.rows = [] := by
  decide

/-! ## Whose requests the administration executes -/

/-- The gate lets the request through, to another page than that of the login. -/
structure Administers (e : Env) (session : Session) : Prop where
  route : (adminPath e).isSome = true
  page : routedToLogin e = false
  user : session.isSet "user" = true

/-- The request takes the user's row away, or its name. -/
def Revokes (e : Env) (session : Session) (u : User) : Prop :=
  Deletes e session u.id ∨ (Saves e session u.id ∧ submittedName e ≠ u.username)

/-- A row with the id and the name of a user is there. -/
def Present (u : User) (d : Db) : Prop := ∃ r ∈ d.users.rows, r.id = u.id ∧ r.username = u.username

theorem AccountStep.present {e : Env} {session : Session} {d d' : Db} {u : User}
    (h : AccountStep e session d d') (hkeeps : ¬Revokes e session u) (hu : Present u d) : Present u d' := by
  obtain ⟨r, hr, hid, hname⟩ := hu
  cases h with
  | same h => exact ⟨r, h ▸ hr, hid, hname⟩
  | create h => exact ⟨r, h ▸ List.mem_append_left _ hr, hid, hname⟩
  | @save id password hsave h =>
    rw [Present, h, AutoTable.update_rows]
    by_cases hsame : r.id = id
    · refine ⟨{ r with username := submittedName e, password := password }, ?_, hid, ?_⟩
      · exact List.mem_map.2 ⟨r, hr, by simp [hsame]⟩
      · -- the row is saved under the name it has
        by_contra hne
        exact hkeeps (.inr ⟨hid ▸ hsame ▸ hsave, hne⟩)
    · exact ⟨r, List.mem_map.2 ⟨r, hr, by simp [hsame]⟩, hid, hname⟩
  | @remove id hdel h =>
    rw [Present, h, AutoTable.delete_rows]
    refine ⟨r, List.mem_filter.2 ⟨hr, ?_⟩, hid, hname⟩
    simp only [Bool.not_eq_true', decide_eq_false_iff_not]
    rintro rfl
    exact hkeeps (.inl (hid ▸ hdel))

/-- The row a login has named is there after it. -/
theorem login_present {site : Site} {w : World} (hw : Reachable site w) {a : Arrival} {u : User}
    (hroute : routedToLogin (site.env a) = true) (hu : Credentials (site.env a) w.shared.db u) :
    Present u (serve site a w).2.shared.db := by
  refine (hw.accountStep a).present (fun h => ?_) ⟨u, hu.row, rfl, rfl⟩
  have hother {i : Nat} (hi : i < 5) {id : Int}
      (h : ((usersPath (site.env a)).bind (mounted (usersRoutes (site.env a)) i)).map Text.atoi = some id) :
      False := by
    obtain ⟨sid, hsid, -⟩ := Option.map_eq_some_iff.1 h
    rw [routedToLogin_of_entry hi hsid] at hroute
    exact absurd hroute (by simp)
  rcases h with hdel | ⟨hsave, -⟩
  · exact hother (i := 3) (by omega) hdel.route
  · exact hother (i := 4) (by omega) hsave.route

/-- **In every run, a request that a page of the administration executes comes from a session whose last
    request for the login page named a user, with the password the user's row had at that moment. The
    session's `id` and `user` are those of that row, and they are those of a row that is there now, unless
    a request since that login has deleted the row or given it another name.** -/
theorem run_administration (site : Site) (files : Files) (events : List Event) (a : Arrival)
    (h : Administers (site.env a) ((run site events (World.fresh files)).session a.req.sid)) :
    let w := run site events (World.fresh files)
    ∃ before b after u, events = before ++ .request b :: after ∧ LastLogin site a.req.sid events before b ∧
      Credentials (site.env b) (run site before (World.fresh files)).shared.db u ∧
      LoggedInAs u (w.session a.req.sid) ∧
      (EachRequest site (fun w c => ¬Revokes (site.env c) (w.session c.req.sid) u)
        (run site (before ++ [.request b]) (World.fresh files)) after → Present u w.shared.db) := by
  intro w
  obtain ⟨before, b, u, hlast, hu, hin⟩ := run_lastLogin site files events a.req.sid h.user
  obtain ⟨after, hevents, -⟩ := hlast.last
  refine ⟨before, b, after, u, hevents, hlast, hu, hin, fun hkeeps => ?_⟩
  have hbefore : Reachable site (run site before (World.fresh files)) := ⟨files, before, rfl⟩
  have hlogin : run site (before ++ [.request b]) (World.fresh files) =
      step site (run site before (World.fresh files)) (.request b) := by simp [run]
  have hstart : Reachable site (run site (before ++ [.request b]) (World.fresh files)) ∧
      Present u (run site (before ++ [.request b]) (World.fresh files)).shared.db := by
    rw [hlogin]
    exact ⟨hbefore.step _, login_present hbefore hlast.route hu⟩
  have hend := hkeeps.induction (I := fun w => Reachable site w ∧ Present u w.shared.db)
    (fun w keys hw => ⟨hw.1.step _, hw.2⟩)
    (fun w c hw hc => ⟨hw.1.step _, (hw.1.accountStep c).present hc hw.2⟩) hstart
  have hrun : run site after (run site (before ++ [.request b]) (World.fresh files)) = w := by
    simp only [w, hevents, run, List.foldl_append, List.foldl_cons, List.foldl_nil]
  exact hrun ▸ hend.2

set_option maxRecDepth 4000 in
/-- A user looks at the page of the cache. -/
theorem run_administration_alice :
    ∃ before b u, LastLogin .sample "a" twoUsers before b ∧
      Credentials (Site.sample.env b) (run .sample before (World.fresh [])).shared.db u ∧
      LoggedInAs u ((run .sample twoUsers (World.fresh [])).session "a") := by
  obtain ⟨before, b, after, u, -, hlast, hu, hin, -⟩ := run_administration .sample [] twoUsers
    (.get "a" "/admin/cache") ⟨by decide, by decide, by decide⟩
  exact ⟨before, b, u, hlast, hu, hin⟩

set_option maxRecDepth 4000 in
/-- A user who was deleted creates another one. -/
theorem run_administration_deleted :
    let w := run .sample (twoUsers ++ [.request (.get "a" "/admin/users/del/2")]) (World.fresh [])
    let a := Arrival.post "b" "/admin/users/add" [("_1", "eve"), ("_2", "p")]
    Administers (Site.sample.env a) (w.session "b") ∧
      (∀ r ∈ w.shared.db.users.rows, (w.session "b").find "id" ≠ some (toString r.id)) ∧
      (serve .sample a w).2.shared.db.users.rows.map User.username = ["alice", "eve"] :=
  ⟨⟨by decide, by decide, by decide⟩, by decide, by decide⟩

end CppBlog
