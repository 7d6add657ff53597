import CppBlog.Frames
import CppBlog.Requests

set_option autoImplicit false

/-! # What a visitor can change

A request whose session holds no `user` is stopped at the door of the administration, but for the login
page; the rest of the site reads, except that `post::postback` may append one comment to an open post.
The upgrade of an older database is the only other write on the way, and a database of the expected
version stays at it. -/

namespace CppBlog

open Effect Store App Relation

/-! ## The version stays -/

/-- The database has the version the application expects. -/
def Versioned (d : Db) : Prop := d.option "dbversion" = some cppblogDbversion

theorem Versioned.congr {d d' : Db} (h : Versioned d) (ho : d'.textOptions = d.textOptions) :
    Versioned d' := by
  unfold Versioned Db.option at h ⊢
  rw [ho]
  exact h

/-- Deleting other options keeps an option. -/
theorem option_deleteOptions {d : Db} {ids : List String} {id : String} (h : id ∉ ids) :
    (d.deleteOptions ids).option id = d.option id := by
  simp only [Db.option, Db.deleteOptions, Table.find?, Table.delete_rows, List.find?_filter]
  congr 2
  funext r
  by_cases hr : r.id = id <;> simp [hr, h]

/-- A new option is no other option. -/
theorem option_insertOption_ne {d d' : Db} {id value key : String} (h : d.insertOption id value = .ok d')
    (hne : id ≠ key) : d'.option key = d.option key := by
  obtain ⟨t, ht, rfl⟩ := Option.map_eq_some_iff.1 (Db.orRefuse_eq_ok.1 h)
  simp only [Db.option, Table.find?, Table.insert?_eq_some ht, List.find?_append, List.find?_singleton,
    decide_eq_true_eq, if_neg hne, Option.or_none]

theorem option_storeOptions {d d' : Db} {f : OptionsForm} {key : String} (h : d.storeOptions f = .ok d')
    (hkey : key ∉ Options.replacedOptions) : d'.option key = d.option key := by
  have hinserted {l : List (String × String)} : ∀ {m : Db}, (∀ x ∈ l, x.1 ≠ key) →
      m.insertOptions l = .ok d' → d'.option key = m.option key := by
    induction l with
    | nil => intro m _ h; cases h; rfl
    | cons x l ih =>
        intro m hl h
        simp only [Db.insertOptions] at h
        cases hx : m.insertOption x.1 x.2 with
        | error err => simp [hx, Except.bind] at h
        | ok m' =>
            simp only [hx, Except.bind] at h
            exact (ih (fun y hy => hl y (List.mem_cons_of_mem _ hy)) h).trans
              (option_insertOption_ne hx (hl x List.mem_cons_self))
  refine (hinserted (fun x hx => ?_) h).trans (option_deleteOptions hkey)
  rintro rfl
  refine hkey ?_
  simp only [List.mem_cons, List.not_mem_nil, or_false] at hx
  rcases hx with rfl | rfl | rfl | rfl <;> simp [Options.replacedOptions]

/-- A new option is put behind the others. -/
theorem option_insertOption {d d' : Db} {id value key v : String} (h : d.insertOption id value = .ok d')
    (hv : d.option key = some v) : d'.option key = some v := by
  obtain ⟨t, ht, rfl⟩ := Option.map_eq_some_iff.1 (Db.orRefuse_eq_ok.1 h)
  obtain ⟨r, hr, hrv⟩ := Option.map_eq_some_iff.1 hv
  refine Option.map_eq_some_iff.2 ⟨r, ?_, hrv⟩
  obtain ⟨hmem, hkey⟩ := (Table.find?_eq_some _ _ _).1 hr
  exact (Table.find?_eq_some _ _ _).2 ⟨Table.insert?_eq_some ht ▸ List.mem_append_left _ hmem, hkey⟩

theorem option_insertOptions {l : List (String × String)} {d d' : Db} {key v : String}
    (h : d.insertOptions l = .ok d') (hv : d.option key = some v) : d'.option key = some v := by
  induction l generalizing d with
  | nil => cases h; exact hv
  | cons x l ih =>
      obtain ⟨id, value⟩ := x
      simp only [Db.insertOptions] at h
      cases hx : d.insertOption id value with
      | error err => simp [hx, Except.bind] at h
      | ok m =>
          simp only [hx, Except.bind] at h
          exact ih h (option_insertOption hx hv)

theorem Versioned.configure {d d' : Db} (h : Versioned d) {f : ConfigForm}
    (hf : d.configure f = .ok d') : Versioned d' := by
  unfold Db.configure at hf
  cases hm : (d.deleteOptions Config.replacedOptions).insertOptions
      [("is_configured", "yes"), ("blog_title", f.title.value), ("blog_description", f.subtitle.value),
       ("contact", f.contact.value)] with
  | error err => simp [hm, Except.bind] at hf
  | ok m =>
      simp only [hm, Except.bind] at hf
      have hversion : Versioned m :=
        option_insertOptions hm ((option_deleteOptions (by decide)).trans h)
      exact hversion.congr (by rw [Db.insertUser_frame hf])

/-- What one change preserves. -/
theorem Versioned.change {d d' : Db} (h : Versioned d) (hc : Change d d') : Versioned d' := by
  cases hc with
  | upgrade hu => exact absurd h hu.1
  | configure f hf => exact h.configure hf
  | comment hc =>
      obtain ⟨id, author, mail, url, now, content, isOpen, m, -, -, hm, rfl⟩ := hc
      have hframe := (Db.insertComment_eq_ok hm).1
      exact h.congr (by rw [Db.updateCommentCount, hframe])
  | eraseComment id postId hc => exact h.congr rfl
  | editComment id author email url content => exact h.congr rfl
  | storeOptions f hf => exact option_insertOptions hf ((option_deleteOptions (by decide)).trans h)
  | createPost authorId f now hf hd => exact h.congr (by rw [Db.createPost_frame hd])
  | removePost id => exact h.congr rfl
  | savePost id isOpen f now hopen hf hd =>
      exact h.congr (by rw [Db.savePost_frame hd])
  | createCat name hn => exact h.congr (by rw [(Db.insertCat_eq_ok hn).1])
  | renameCat id name => exact h.congr rfl
  | removeEmptyCat id hp => exact h.congr rfl
  | removeCat id => exact h.congr rfl
  | createPage authorId title content isOpen hp =>
      exact h.congr (by rw [Db.insertPage_frame hp])
  | savePage id title content isOpen => exact h.congr rfl
  | removePage id => exact h.congr rfl
  | createUser username password hu => exact h.congr (by rw [Db.insertUser_frame hu])
  | saveUser id username password hu =>
      exact h.congr (by rw [Db.updateUser_frame hu])
  | removeUser id => exact h.congr rfl

theorem Versioned.run {site : Site} {w : World} (h : Versioned w.shared.db) (events : List Event) :
    Versioned (CppBlog.run site events w).shared.db :=
  run_change (fun _ _ hd hc => Versioned.change hd hc) h events

theorem Reachable.versioned {site : Site} {w : World} (hw : Reachable site w) : Versioned w.shared.db := by
  obtain ⟨files, events, rfl⟩ := hw
  have hfresh : Versioned Db.fresh := by
    unfold Versioned
    decide
  exact Versioned.run (w := World.fresh files) hfresh events

/-! ## Public requests -/

/-- A post without its counter. -/
def Post.withoutCount (p : Post) : Post := { p with commentCount := 0 }

/-- What a request without a login may do to the tables: nothing, or one comment on an open post. -/
def VisitorStep (d d' : Db) : Prop := d' = d ∨ Commented d d'

/-- A comment writes two tables, -/
theorem Commented.frame {d d' : Db} (h : Commented d d') :
    d' = { d with posts := d'.posts, comments := d'.comments } := by
  obtain ⟨id, author, mail, url, now, content, isOpen, m, -, -, hm, rfl⟩ := h
  rw [Db.updateCommentCount, (Db.insertComment_eq_ok hm).1]

/-- and one column of the posts. -/
theorem Commented.posts {d d' : Db} (h : Commented d d') :
    d'.posts.rows.map Post.withoutCount = d.posts.rows.map Post.withoutCount := by
  obtain ⟨id, author, mail, url, now, content, isOpen, m, -, -, hm, rfl⟩ := h
  have hposts : m.posts = d.posts := by rw [(Db.insertComment_eq_ok hm).1]
  simp only [Db.updateCommentCount, AutoTable.update_rows, List.map_map, hposts]
  refine List.map_congr_left fun p _ => ?_
  by_cases hp : p.id = id <;> simp [hp, Post.withoutCount]

/-- What a public handler does to the state of a request on a database of the expected version. -/
structure Public (s s' : St) : Prop where
  files : s'.files = s.files
  tx : s'.tx = none
  db : VisitorStep s.db s'.db

/-- On a database of the expected version reading changes nothing. -/
theorem Reads.eq_of_versioned {s s' : St} (h : Reads s s') (hs : s.tx = none) (hv : Versioned s.db) :
    s'.tx = none ∧ s'.db = s.db := by
  refine ⟨(h.db hs).1, ?_⟩
  rcases ReflTransGen.cases_head (h.db hs).2 with heq | ⟨m, hm, -⟩
  · exact heq.symm
  · exact absurd hv hm.1

theorem Public.of_reads {s s' : St} (h : Reads s s') (hs : s.tx = none) (hv : Versioned s.db) :
    Public s s' :=
  ⟨h.files, (h.eq_of_versioned hs hv).1, .inl (h.eq_of_versioned hs hv).2⟩

/-- Reading after a public step. -/
theorem Public.then_reads {s s' s'' : St} (h : Public s s') (hv : Versioned s.db) (hr : Reads s' s'') :
    Public s s'' := by
  have hv' : Versioned s'.db := by
    rcases h.db with heq | hc
    · rw [heq]
      exact hv
    · exact hv.congr (by rw [hc.frame])
  obtain ⟨htx, hdb⟩ := hr.eq_of_versioned h.tx hv'
  exact ⟨hr.files.trans h.files, htx, hdb ▸ h.db⟩

theorem wp_postback_public (e : Env) (sid : String) {s : St} (hs : s.tx = none)
    (hv : Versioned s.db) :
    (Post.postback e sid).wp calls (fun _ => Public s) (fun _ => Public s) s := by
  have hidle {s' : St} (h : Idle s s') : Public s s' := .of_reads (AllowsIdle.of_idle h) hs hv
  unfold Post.postback
  split
  · exact (Idle.makeErrorResponse _).wp (fun _ _ => hidle) (fun _ _ => hidle)
  refine Prog.wp_seq (Idle.loadForm (R := Idle) e _ s) (fun form s₁ h₁ => ?_) fun _ _ => hidle
  have h₁' := hidle h₁
  refine Prog.wp_seq (idle_validate e form s₁) (fun v s₂ h₂ => ?_) fun _ _ h =>
    h₁'.then_reads hv (AllowsIdle.of_idle h)
  have h₂' := h₁'.then_reads hv (AllowsIdle.of_idle h₂)
  have hdb₂ : s₂.db = s.db := h₂.db.trans h₁.db
  have hblock : (if v.1 then Post.postbackBlock e (Text.atoi sid) v.2 else .ret (some "")).wp calls
      (fun _ => Public s) (fun _ => Public s) s₂ := by
    split
    · refine Prog.wp_mono (fun _ s₃ h => ?_) (fun _ s₃ h => ?_)
        (wp_transaction_of_commits (commits_postbackBlock e (Text.atoi sid) v.2 s₂.db))
      · exact ⟨h.2.2.trans h₂'.files, h.1, hdb₂ ▸ h.2.1⟩
      · exact ⟨h.2.1.trans h₂'.files, h.2.2 h₂'.tx, hdb₂ ▸ h.1⟩
    · exact h₂'
  refine Prog.wp_seq hblock (fun r s₃ h₃ => ?_) fun _ _ h => h
  cases r with
  | none => exact h₃
  | some previewContent =>
      have hrest : ReadOnly _ := readOnly_redisplay e sid previewContent v.2
      exact hrest.wp (fun _ _ => h₃.then_reads hv) (fun _ _ => h₃.then_reads hv)

/-- The login page is all a visitor sees of the administration. -/
theorem wp_adminMaster_visitor {R : St → St → Prop} [AllowsReads R] (e : Env) (path : String) {s : St}
    (huser : s.own.session.isSet "user" = false) :
    (adminMaster e path).wp calls (fun _ => R s) (fun _ => R s) s := by
  rw [adminMaster, Prog.wp_bind, wp_sessionIsSet, huser]
  split
  · next h =>
      rcases h with h | rfl | rfl
      · cases h
      · exact readOnly_login e s
      · exact readOnly_login e s
  · exact Idle.setRedirectHeader (R := R) _ s

section

-- a dispatcher is what `Destination.site` says
attribute [local irreducible] dispatch

theorem wp_main_visitor (e : Env) (hconfig : routedToConfig e = false) {s : St} (hs : s.tx = none)
    (hv : Versioned s.db) (huser : s.own.session.isSet "user" = false) :
    (main e).wp calls (fun _ => Public s) (fun _ => Public s) s := by
  have hpublic {s' s'' : St} (hidle : Idle s s') (h : Public s' s'') : Public s s'' :=
    ⟨h.files.trans hidle.files, h.tx, hidle.db ▸ h.db⟩
  have hself : Public s s := .of_reads (refl s) hs hv
  refine Prog.wp_seq (wp_selectLanguage e s) (fun _ s₁ h₁ => ?_) fun _ _ h =>
    hself.then_reads hv (AllowsIdle.of_idle h.toIdle)
  have hs₁ : s₁.tx = none := h₁.tx.trans hs
  have hv₁ : Versioned s₁.db := h₁.db.symm ▸ hv
  have huser₁ : s₁.own.session.isSet "user" = false := by
    simpa only [Session.isSet, h₁.session "user" (by decide)] using huser
  have hsite : (dispatch (siteRoutes e) (routedPath e)).wp calls (fun _ => Public s)
      (fun _ => Public s) s₁ := by
    have hreads {p : App Unit} (hp : p.wp calls (fun _ => Reads s₁) (fun _ => Reads s₁) s₁) :
        p.wp calls (fun _ => Public s) (fun _ => Public s) s₁ :=
      Prog.wp_mono (fun _ _ h => hpublic h₁.toIdle (.of_reads h hs₁ hv₁))
        (fun _ _ h => hpublic h₁.toIdle (.of_reads h hs₁ hv₁)) hp
    rcases (Destination.site e).reads_or (R := Reads) with hp | ⟨path, h, hp⟩ | ⟨path, -, hp⟩ | ⟨sid, -, hp⟩
    · exact hreads (hp s₁)
    · rw [hconfig] at h
      exact absurd h (by simp)
    · rw [hp]
      exact hreads (wp_adminMaster_visitor e path huser₁)
    · rw [hp]
      exact Prog.wp_mono (fun _ _ => hpublic h₁.toIdle) (fun _ _ => hpublic h₁.toIdle)
        (wp_postback_public e sid hs₁ hv₁)
  rw [Prog.wp_tryCatch]
  refine Prog.wp_mono (fun _ _ h => h) (fun err s₂ h₂ => ?_) hsite
  have hredirect (url : String) : (setRedirectHeader url).wp calls (fun _ => Public s)
      (fun _ => Public s) s₂ :=
    (Idle.setRedirectHeader url).wp (fun _ _ => h₂.then_reads hv) (fun _ _ => h₂.then_reads hv)
  split
  · exact hredirect _
  · exact hredirect _
  · exact h₂

end

/-- **From a database of the expected version on, in every run: a request that is not routed to
    `/config` and whose session holds no `user` leaves everything as it is, except that it may append
    one comment to an open post and refresh that post's counter.** -/
theorem run_visitor_frame (site : Site) {w : World}
    (hversion : w.shared.db.option "dbversion" = some cppblogDbversion) (events : List Event)
    (a : Arrival) (hroute : routedToConfig (site.env a) = false)
    (huser : ((run site events w).session a.req.sid).isSet "user" = false) :
    let d := (run site events w).shared.db
    let w' := (serve site a (run site events w)).2
    w'.shared.files = (run site events w).shared.files ∧
      w'.shared.db.users = d.users ∧ w'.shared.db.pages = d.pages ∧ w'.shared.db.cats = d.cats ∧
      w'.shared.db.post2cat = d.post2cat ∧ w'.shared.db.textOptions = d.textOptions ∧
      w'.shared.db.posts.rows.map Post.withoutCount = d.posts.rows.map Post.withoutCount ∧
      (w'.shared.db = d ∨ Commented d w'.shared.db) := by
  intro d w'
  have hv : Versioned (run site events w).shared.db := Versioned.run hversion events
  have hstep : Public ((run site events w).start a) (viewOf (outcome site a (run site events w)).2) :=
    serve_of_wp (wp_main_visitor (site.env a) hroute rfl hv huser)
  refine ⟨hstep.files, ?_⟩
  rcases hstep.db with hsame | hc
  · have hsame : w'.shared.db = d := hsame
    exact ⟨by rw [hsame], by rw [hsame], by rw [hsame], by rw [hsame], by rw [hsame], by rw [hsame],
      .inl hsame⟩
  · have hc : Commented d w'.shared.db := hc
    exact ⟨by rw [hc.frame], by rw [hc.frame], by rw [hc.frame], by rw [hc.frame], by rw [hc.frame],
      hc.posts, .inr hc⟩

/-- A visitor's first request after the blog was configured. -/
theorem run_visitor_frame_front :
    let w := run .sample [.request (.configure "b" "bob")] (World.fresh [])
    let w' := (serve .sample (.get "v" "/") w).2
    w'.shared.db.users = w.shared.db.users ∧ w'.shared.db.users.rows.map User.username = ["bob"] := by
  refine ⟨?_, by decide⟩
  exact (run_visitor_frame .sample (w := World.fresh []) (by decide)
    [.request (.configure "b" "bob")] (.get "v" "/") (by decide) (by decide)).2.1

end CppBlog
