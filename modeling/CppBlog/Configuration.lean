import CppBlog.Execution
import CppBlog.Frames
import CppBlog.Requests

set_option autoImplicit false

/-! # Configuring a configured blog

`config::configure` answers a configured blog with a redirect and then goes on: the redirect does not
leave the handler, so a form that is submitted to `/config` is carried out whether the blog is
configured or not. What a request to `apps::config` does to the users and the options is determined
here exactly. -/

namespace CppBlog

open Effect Store App Text

/-! ## When the transaction succeeds -/

namespace Db

/-- Options under new names are all accepted. -/
theorem insertOptions_ok {l : List (String × String)} (hl : (l.map Prod.fst).Nodup) {d : Db}
    (hd : ∀ x ∈ l, ∀ r ∈ d.textOptions.rows, r.id ≠ x.1) : ∃ d', d.insertOptions l = .ok d' := by
  induction l generalizing d with
  | nil => exact ⟨d, rfl⟩
  | cons x l ih =>
      obtain ⟨id, value⟩ := x
      obtain ⟨hid, hl⟩ := List.nodup_cons.1 hl
      obtain ⟨t, ht⟩ := Table.insert?_isSome d.textOptions ⟨id, value⟩ (hd _ List.mem_cons_self)
      have hins : d.insertOption id value = .ok { d with textOptions := t } := by
        simp [insertOption, ht, orRefuse]
      simp only [insertOptions, hins, Except.bind]
      refine ih hl fun x hx r hr => ?_
      rcases List.mem_append.1 (Table.insert?_eq_some ht ▸ hr) with hr | hr
      · exact hd x (List.mem_cons_of_mem _ hx) r hr
      · rw [List.mem_singleton.1 hr]
        intro heq
        exact hid (List.mem_map.2 ⟨x, hx, heq.symm⟩)

theorem configureOptions_ok (d : Db) (title subtitle contact : String) :
    ∃ m, (d.deleteOptions Config.replacedOptions).insertOptions
      [("is_configured", "yes"), ("blog_title", title), ("blog_description", subtitle),
       ("contact", contact)] = .ok m := by
  refine insertOptions_ok (by simp) fun x hx r hr heq => ?_
  have hnot : r.id ∉ Config.replacedOptions := by simpa using (Table.mem_delete.1 hr).2
  refine hnot (heq ▸ ?_)
  simp only [List.mem_cons, List.not_mem_nil, or_false] at hx
  rcases hx with rfl | rfl | rfl | rfl <;> simp [Config.replacedOptions]

/-- The user of the form can be inserted: the name is not in use and there is a number left. -/
def Admits (d : Db) (f : ConfigForm) : Prop :=
  (∀ u ∈ d.users.rows, u.username ≠ f.username.value) ∧ d.users.seq < maxId

theorem insertUser_isOk (d : Db) (username password : String) :
    (∃ d', d.insertUser username password = .ok d') ↔
      (∀ u ∈ d.users.rows, u.username ≠ username) ∧ d.users.seq < maxId := by
  unfold insertUser
  split
  · next h =>
      simp only [List.any_eq_true, decide_eq_true_eq] at h
      obtain ⟨u, hu, hname⟩ := h
      refine ⟨fun hok => ?_, fun h => absurd hname (h.1 u hu)⟩
      obtain ⟨_, hok⟩ := hok
      cases hok
  · next h =>
      have hnew : ∀ u ∈ d.users.rows, u.username ≠ username := by simpa using h
      by_cases hseq : d.users.seq < maxId
      · simpa [AutoTable.insert?, hseq, orRefuse] using hnew
      · simp [AutoTable.insert?, hseq, orRefuse]

theorem insertUser_rows {d d' : Db} {username password : String}
    (h : d.insertUser username password = .ok d') :
    d'.users.rows = d.users.rows ++ [⟨d.users.seq + 1, username, password⟩] := by
  unfold insertUser at h
  split at h
  · cases h
  · obtain ⟨t, ht, rfl⟩ := Option.map_eq_some_iff.1 (orRefuse_eq_ok.1 h)
    exact (AutoTable.insert?_eq_some ht).2.1

/-- The transaction of a configuration succeeds exactly when its user can be inserted. -/
theorem configure_isOk (d : Db) (f : ConfigForm) :
    (∃ d', d.configure f = .ok d') ↔ d.Admits f := by
  obtain ⟨m, hm⟩ := configureOptions_ok d f.title.value f.subtitle.value f.contact.value
  have husers : m.users = d.users := by
    rw [insertOptions_frame hm]
    rfl
  simp only [configure, hm, Except.bind]
  rw [insertUser_isOk, husers]
  rfl

/-- It appends a user. -/
theorem configure_users {d d' : Db} {f : ConfigForm} (h : d.configure f = .ok d') :
    d'.users.rows = d.users.rows ++ [⟨d.users.seq + 1, f.username.value, f.p1.value⟩] := by
  obtain ⟨m, hm⟩ := configureOptions_ok d f.title.value f.subtitle.value f.contact.value
  have husers : m.users = d.users := by
    rw [insertOptions_frame hm]
    rfl
  simp only [configure, hm, Except.bind] at h
  rw [insertUser_rows h, husers]

end Db

/-! ## The handler, call by call -/

namespace Executed

theorem wp_configStore (f : ConfigForm) (s : Shared) (l : Local) :
    (Config.store f).wp executed
      (fun _ m => Calm 8 l.faults ∧ ∃ d', s.db.configure f = .ok d' ∧ m.1 = { s with db := d' })
      (fun _ m => m.1 = s ∧ ¬(Calm 8 l.faults ∧ ∃ d', s.db.configure f = .ok d')) (s, l) := by
  have hassoc {a b c : Type} (x : Except SqlError a) (g : a → Except SqlError b)
      (h : b → Except SqlError c) : (x.bind g).bind h = x.bind fun y => (g y).bind h := by
    cases x <;> rfl
  have hret (x : Except SqlError Db) : x.bind .ok = x := by cases x <;> rfl
  refine wp_transaction_block (n := 7) (f := fun d => d.configure f)
    (Block.congr (.exec <| .exec <| .exec <| .exec <| .exec <| .exec .commit) fun d => ?_) s l
  simp only [Db.configure, Db.insertOptions, hassoc, hret]
  rfl

/-- What a configuration needs of the form, the session and the tables, and of the `n` calls to the
    database. -/
structure Carried (e : Env) (n : Nat) (s : Shared) (l : Local) : Prop where
  method : e.req.method = "POST"
  origin : forged e l.own = false
  form : (ConfigForm.load {} e.req.postOrGet).validate.valid = true
  user : s.db.Admits (ConfigForm.load {} e.req.postOrGet).validate
  calls : Calm n l.faults

/-- The tables are as before, or they are configured anew, and that happens exactly when `c` holds. -/
def ConfiguresIff (e : Env) (c : Prop) (s s' : Shared) : Prop :=
  (¬c ∧ s'.db = s.db) ∨
    (c ∧ s.db.configure (ConfigForm.load {} e.req.postOrGet).validate = .ok s'.db)

theorem wp_configSubmit (e : Env) (s : Shared) (l : Local) :
    (Config.submit e).wp executed (fun _ m => ConfiguresIff e (Carried e 8 s l) s m.1)
      (fun _ m => ConfiguresIff e (Carried e 8 s l) s m.1) (s, l) := by
  have hrender (f : ConfigForm) (l' : Local) (hno : ¬Carried e 8 s l) :
      (Config.render e f).wp executed (fun _ m => ConfiguresIff e (Carried e 8 s l) s m.1)
        (fun _ m => ConfiguresIff e (Carried e 8 s l) s m.1) (s, l') := by
    rw [Config.render, Prog.wp_bind, wp_getOwn]
    exact wp_modifyOwn.2 (.inl ⟨hno, rfl⟩)
  unfold Config.submit
  split
  · next hmethod =>
      rw [Prog.wp_bind, wp_loadForm]
      split
      · next hforged => exact .inl ⟨fun h => by simp [h.origin] at hforged, rfl⟩
      · next hforged =>
          have horigin : forged e l.own = false := by simpa using hforged
          dsimp only
          split
          · next hvalid =>
              refine Prog.wp_seq (wp_configStore _ s _) ?_ ?_
              · rintro _ m ⟨hcalm, d', hd', hm⟩
                refine wp_setRedirectHeader (P := ConfiguresIff e (Carried e 8 s l) s) (.inr ⟨?_, ?_⟩)
                · exact ⟨hmethod, horigin, hvalid, (Db.configure_isOk _ _).1 ⟨d', hd'⟩, hcalm⟩
                · rw [hm]
                  exact hd'
              · rintro _ m ⟨hm, hno⟩
                refine .inl ⟨fun h => hno ⟨h.calls, (Db.configure_isOk _ _).2 h.user⟩, by rw [hm]⟩
          · next hvalid => exact hrender _ _ fun h => hvalid h.form
  · next hmethod => exact hrender _ _ fun h => hmethod h.method

theorem wp_configure (e : Env) (s : Shared) (l : Local) :
    (Config.configure e).wp executed (fun _ m => ConfiguresIff e (Carried e 9 s l) s m.1)
      (fun _ m => ConfiguresIff e (Carried e 9 s l) s m.1) (s, l) := by
  rw [Config.configure, Prog.wp_bind, wp_query]
  split
  · next hfault =>
      refine .inl ⟨fun h => ?_, rfl⟩
      exact absurd (calm_succ.1 h.calls).1 (by simpa [Local.fault] using hfault)
  · next hfault =>
      have hcarried (l' : Local) (hown : forged e l'.own = forged e l.own)
          (hfaults : l'.faults = l.faults.tail) : Carried e 8 s l' ↔ Carried e 9 s l := by
        have hhead : l.faults.headD false = false := by simpa [Local.fault] using hfault
        constructor
        · rintro ⟨hm, ho, hf, hu, hc⟩
          exact ⟨hm, hown ▸ ho, hf, hu, calm_succ.2 ⟨hhead, hfaults ▸ hc⟩⟩
        · rintro ⟨hm, ho, hf, hu, hc⟩
          exact ⟨hm, hown ▸ ho, hf, hu, hfaults ▸ (calm_succ.1 hc).2⟩
      have hsubmit (l' : Local) (hown : forged e l'.own = forged e l.own)
          (hfaults : l'.faults = l.faults.tail) :
          (Config.submit e).wp executed (fun _ m => ConfiguresIff e (Carried e 9 s l) s m.1)
            (fun _ m => ConfiguresIff e (Carried e 9 s l) s m.1) (s, l') := by
        have h := wp_configSubmit e s l'
        rwa [propext (hcarried l' hown hfaults)] at h
      -- whether the blog is configured or not, the form is submitted
      rw [Prog.wp_bind]
      split
      · exact wp_modifyOwn.2 (hsubmit _ rfl rfl)
      · exact hsubmit _ rfl rfl

/-- `nlang` is absent from the session or reads as a number. -/
def Readable (session : Session) : Prop := ∀ v, session.find "nlang" = some v → (Text.readInt? v).isSome

/-- What choosing the language leaves. -/
structure Kept (s : Shared) (l : Local) (m : Shared × Local) : Prop where
  db : m.1.db = s.db
  faults : m.2.faults = l.faults
  session : ∀ key, key ≠ "nlang" → m.2.own.session.find key = l.own.session.find key
  checked : m.2.own.csrfChecked = l.own.csrfChecked

theorem wp_selectLanguage (e : Env) (s : Shared) (l : Local) :
    (selectLanguage e).wp executed (fun _ m => Readable l.own.session ∧ Kept s l m)
      (fun _ m => ¬Readable l.own.session ∧ m.1.db = s.db) (s, l) := by
  have hend (same : Bool) (hr : Readable l.own.session) : (if same then (.ret () : App Unit)
      else (sessionSet "nlang" (toString (nlang e))).bind fun _ => clearCache).wp executed
        (fun _ m => Readable l.own.session ∧ Kept s l m)
        (fun _ m => ¬Readable l.own.session ∧ m.1.db = s.db)
        (s, { l with own := { l.own with response := { l.own.response with locale := nlang e } } }) := by
    cases same
    · simp only [Bool.false_eq_true, if_false, Prog.wp_bind, sessionSet, wp_modifyOwn, clearCache,
        cache, wp_perform]
      exact ⟨hr, rfl, rfl, fun key hkey => Session.find_set_ne _ hkey _, rfl⟩
    · exact ⟨hr, rfl, rfl, fun _ _ => rfl, rfl⟩
  simp only [selectLanguage, modifyResponse, Prog.wp_bind, wp_modifyOwn, sessionIsSet, wp_getOwn]
  cases hlang : l.own.session.find "nlang" with
  | none =>
      simp only [Session.isSet, hlang, Option.isSome_none, Bool.false_eq_true, if_false, Prog.wp_ret]
      exact hend false fun v hv => by rw [hlang] at hv; cases hv
  | some v =>
      simp only [Session.isSet, hlang, Option.isSome_some, if_true, Prog.wp_bind, wp_sessionGetInt,
        Option.bind_some]
      cases hv : Text.readInt? v with
      | none =>
          refine ⟨fun hr => ?_, trivial⟩
          have := hr v hlang
          simp [hv] at this
      | some n =>
          refine hend _ fun v' hv' => ?_
          rw [hlang] at hv'
          cases hv'
          simp [hv]

/-- What a request to `apps::config` has to be for its form to be carried out. Whether the blog is
    configured already is no part of it. -/
structure Configures (e : Env) (session : Session) (d : Db) : Prop where
  path : routedPath e = "/config" ∨ routedPath e = "/config/"
  method : e.req.method = "POST"
  language : Readable session
  origin : forged e (Own.load session) = false
  form : (ConfigForm.load {} e.req.postOrGet).validate.valid = true
  user : d.Admits (ConfigForm.load {} e.req.postOrGet).validate
  calls : Calm 9 e.chance.faults

theorem forged_kept (e : Env) {s : Shared} {l : Local} {m : Shared × Local} (h : Kept s l m) :
    forged e m.2.own = forged e l.own := by
  simp only [forged, h.checked, h.session "_csrf" (by decide)]

/-- The part of the path `apps::config` sees. -/
theorem config_path {e : Env} {caps : Captures}
    (h : (openMountRx "/config").full (routedPath e).toList = some caps) :
    routedPath e = "/config" ++ text caps 1 := by
  have hsplit := Rx.group_of_full_lit h
  rw [← String.toList_inj, String.toList_append, hsplit]
  simp [text]

theorem wp_configRoutes (e : Env) {caps : Captures}
    (hcaps : (openMountRx "/config").full (routedPath e).toList = some caps) {session : Session}
    {s₀ : Shared} (hlang : Readable session) {s : Shared} {l : Local}
    (hkept : Kept s₀ { own := Own.load session, faults := e.chance.faults } (s, l)) :
    (dispatch (configRoutes e) (text caps 1)).wp executed
      (fun _ m => ConfiguresIff e (Configures e session s₀.db) s₀ m.1)
      (fun _ m => ConfiguresIff e (Configures e session s₀.db) s₀ m.1) (s, l) := by
  have hpath := config_path hcaps
  have hdb : s.db = s₀.db := hkept.db
  have hfaults : l.faults = e.chance.faults := hkept.faults
  have hidle {p : App Unit} (hp : p.Within calls Idle) (hno : ¬Configures e session s₀.db) :
      p.wp executed (fun _ m => ConfiguresIff e (Configures e session s₀.db) s₀ m.1)
        (fun _ m => ConfiguresIff e (Configures e session s₀.db) s₀ m.1) (s, l) := by
    refine Prog.wp_mono (fun _ m h => ?_) (fun _ m h => ?_) (wp_of_calls (hp (viewOf (s, l))))
    · exact .inl ⟨hno, h.db.trans hdb⟩
    · exact .inl ⟨hno, h.db.trans hdb⟩
  rw [configRoutes, dispatch_cons]
  cases hslash : slashRx.full (text caps 1).toList with
  | some caps' =>
      have hrest : (text caps 1) = "" ∨ (text caps 1) = "/" := by
        have hm := (Rx.full_isSome slashRx (text caps 1).toList).1 (by rw [hslash]; rfl)
        rcases hm with hm | hm
        · exact .inr (String.toList_inj.1 ((Rx.matches_lit _ _).1 hm))
        · exact .inl (String.toList_inj.1 hm)
      have hiff : Carried e 9 s l ↔ Configures e session s₀.db := by
        constructor
        · rintro ⟨hm, ho, hf, hu, hc⟩
          refine ⟨?_, hm, hlang, forged_kept e hkept ▸ ho, hf, hdb ▸ hu, hfaults ▸ hc⟩
          rcases hrest with h | h <;> rw [h] at hpath
          · exact .inl hpath
          · exact .inr hpath
        · rintro ⟨-, hm, -, ho, hf, hu, hc⟩
          exact ⟨hm, (forged_kept e hkept).trans ho, hf, hdb ▸ hu, hfaults ▸ hc⟩
      have h := wp_configure e s l
      rw [propext hiff] at h
      refine Prog.wp_mono (fun _ m hm => ?_) (fun _ m hm => ?_) h <;>
        simpa only [ConfiguresIff, hdb] using hm
  | none =>
      have hno : ¬Configures e session s₀.db := by
        intro hc
        have hnone := (Rx.full_eq_none slashRx (text caps 1).toList).1 hslash
        rcases hc.path with h | h <;> rw [hpath] at h
        · have hr : text caps 1 = "" :=
            (String.append_right_inj "/config").1 (h.trans String.append_empty.symm)
          exact hnone (.inr (by rw [hr]; rfl))
        · have hr : text caps 1 = "/" := (String.append_right_inj "/config").1 h
          exact hnone (.inl ((Rx.matches_lit _ _).2 (by rw [hr])))
      refine dispatch_induction (P := fun p => p.wp executed _ _ (s, l)) ?_ fun r hr _ _ => ?_
      · exact hidle (Idle.makeErrorResponse 404) hno
      · rw [List.mem_singleton.1 hr]
        exact hidle (within_configVersion e) hno

section

-- a dispatcher is what its rules say
attribute [local irreducible] dispatch

theorem wp_main_config (e : Env) (hroute : routedToConfig e = true) (session : Session) (s : Shared) :
    (main e).wp executed (fun _ m => ConfiguresIff e (Configures e session s.db) s m.1)
      (fun _ m => ConfiguresIff e (Configures e session s.db) s m.1)
      (s, { own := Own.load session, faults := e.chance.faults }) := by
  simp only [routedToConfig, Bool.and_eq_true, Option.isNone_iff_eq_none, Option.isSome_iff_exists]
    at hroute
  obtain ⟨hcaptcha, caps, hcaps⟩ := hroute
  refine Prog.wp_seq (wp_selectLanguage e s _) ?_ ?_
  · rintro _ ⟨s₁, l₁⟩ ⟨hlang, hkept⟩
    have hsite : dispatch (siteRoutes e) (routedPath e) = dispatch (configRoutes e) (text caps 1) := by
      simp only [siteRoutes, List.cons_append, dispatch_cons, hcaptcha, hcaps]
    rw [hsite, Prog.wp_tryCatch]
    refine Prog.wp_mono (fun _ _ h => h) (fun err m h => ?_) (wp_configRoutes e hcaps hlang hkept)
    split
    · exact wp_setRedirectHeader h
    · exact wp_setRedirectHeader h
    · exact h
  · rintro _ m ⟨hno, hdb⟩
    exact .inl ⟨fun h => hno h.language, hdb⟩

end

end Executed

/-! ## Requests -/

/-- **In every state, configured or not, a request routed to `apps::config` leaves the users and the
    options unchanged if and only if its form is not carried out.** -/
theorem config_unchanged_iff (site : Site) (w : World) (a : Arrival)
    (hroute : routedToConfig (site.env a) = true) :
    ((serve site a w).2.shared.db.users = w.shared.db.users ∧
        (serve site a w).2.shared.db.textOptions = w.shared.db.textOptions) ↔
      ¬Executed.Configures (site.env a) (w.session a.req.sid) w.shared.db := by
  have hdb : Executed.ConfiguresIff (site.env a)
      (Executed.Configures (site.env a) (w.session a.req.sid) w.shared.db) w.shared
      (serve site a w).2.shared :=
    outcome_of_executed (Executed.wp_main_config (site.env a) hroute (w.session a.req.sid) w.shared)
  rcases hdb with ⟨hno, hsame⟩ | ⟨hc, hconfigured⟩
  · exact ⟨fun _ => hno, fun _ => ⟨by rw [hsame], by rw [hsame]⟩⟩
  · refine ⟨fun h => ?_, fun hno => absurd hc hno⟩
    -- a configuration appends a user
    have hlength := congrArg List.length (Db.configure_users hconfigured)
    rw [h.1, List.length_append] at hlength
    simp at hlength

/-- Displaying the form of a configured blog changes nothing. -/
theorem config_unchanged_iff_get :
    let w := run .sample [.request (.configure "b" "bob")] (World.fresh [])
    (serve .sample (.get "e" "/config") w).2.shared.db.users = w.shared.db.users := by
  refine ((config_unchanged_iff .sample _ (.get "e" "/config") (by decide)).2 fun h => ?_).1
  exact absurd h.method (by decide)

/-- A configured blog is configured a second time: the form of another client is carried out, and it
    adds an account. -/
theorem config_configured_twice :
    ¬∀ (site : Site) (w : World) (a : Arrival), Reachable site w →
      w.shared.db.option "is_configured" = some "yes" → routedToConfig (site.env a) = true →
      (serve site a w).2.shared.db.users = w.shared.db.users ∧
        (serve site a w).2.shared.db.textOptions = w.shared.db.textOptions := by
  intro h
  have hsame := (h .sample (run .sample [.request (.configure "b" "bob")] (World.fresh []))
    (.configure "e" "eve") ⟨[], _, rfl⟩ (by decide) (by decide)).1
  have hnames := congrArg (fun t => t.rows.map User.username) hsame
  exact absurd hnames (by decide)

end CppBlog
