import CppBlog.Serving
import CppBlog.Sessions
import CppBlog.StepTables

set_option autoImplicit false

/-! # Runs with a cache

A family of statements about what is cached holds in every run whose requests do not leave it: what they
store is as the family says (`Closed`), and what they leave in the cache still is after the step they
take (`Survives`). -/

namespace CppBlog

open Effect Store App

variable {α β : Type} {e : Env} {S : Family} {O : Output → Prop} {d : Db} {s : St}

/-! ## Every request -/

/-- The session remembers the language of the request. -/
def Remembers (e : Env) (session : Session) : Prop :=
  (session.find "nlang").bind Text.readInt? = some (nlang e : Int)

instance (e : Env) (session : Session) : Decidable (Remembers e session) :=
  inferInstanceAs (Decidable (_ = _))

/-- What is left of the cache when the language of the request is known. -/
def keptCache (e : Env) (session : Session) (c : Cache) : Cache := if Remembers e session then c else []

theorem mem_of_keptCache {session : Session} {c : Cache} {x : CacheEntry Cached}
    (h : x ∈ keptCache e session c) : x ∈ c := by
  unfold keptCache at h
  split at h
  · exact h
  · exact absurd h List.not_mem_nil

/-- What `select_language` leaves, besides data of the request that no page shows. -/
structure Selected (e : Env) (c : Cache) (s s' : St) : Prop where
  db : s'.db = s.db
  tx : s'.tx = s.tx
  body : s'.own.response.body = s.own.response.body
  locale : s'.own.response.locale = nlang e
  cache : s'.cache = c

theorem wp_selectLanguage_cache (e : Env) (s : St) :
    (selectLanguage e).wp calls (fun _ => Selected e (keptCache e s.own.session s.cache) s)
      (fun _ => Selected e s.cache s) s := by
  have hend (same : Bool) (hsame : same = decide (Remembers e s.own.session)) :
      (if same then (.ret () : App Unit)
        else (sessionSet "nlang" (toString (nlang e))).bind fun _ => clearCache).wp calls
          (fun _ => Selected e (keptCache e s.own.session s.cache) s) (fun _ => Selected e s.cache s)
          (s.setOwn { s.own with response := { s.own.response with locale := nlang e } }) := by
    subst hsame
    by_cases hyes : Remembers e s.own.session
    · rw [decide_eq_true hyes, if_pos rfl, keptCache, if_pos hyes]
      exact ⟨rfl, rfl, rfl, rfl, rfl⟩
    · rw [decide_eq_false hyes, if_neg (by simp), keptCache, if_neg hyes, Prog.wp_bind, wp_sessionSet,
        clearCache, wp_cache]
      exact ⟨rfl, rfl, rfl, rfl, rfl⟩
  simp only [selectLanguage, modifyResponse, Prog.wp_bind, wp_modifyOwn, wp_sessionIsSet]
  split
  · rw [Prog.wp_bind, wp_sessionGetInt]
    split
    · rename_i n hn
      refine hend _ (decide_eq_decide.2 ?_)
      have hn : (s.own.session.find "nlang").bind Text.readInt? = some n := hn
      rw [Remembers, hn, Option.some.injEq]
    · exact ⟨rfl, rfl, rfl, rfl, rfl⟩
  · rename_i hset
    refine hend false (decide_eq_false fun hyes => hset ?_).symm
    obtain ⟨v, hv, -⟩ := Option.bind_eq_some_iff.1 hyes
    exact Option.isSome_iff_exists.2 ⟨v, hv⟩

/-- Choosing the language of a readable session raises nothing. -/
theorem wp_selectLanguage_readable (hlang : Executed.Readable s.own.session) :
    (selectLanguage e).wp calls (fun _ => Selected e (keptCache e s.own.session s.cache) s)
      (fun _ _ => False) s :=
  Prog.wp_mono (fun _ _ h => h.1) (fun _ _ h => h.2)
    (Prog.wp_and (wp_selectLanguage_cache e s) (selectLanguage_raisesNothing hlang))

section

-- a dispatcher is what `Destination.site` says
attribute [local irreducible] dispatch

/-- The handler of a request leaves tables and a cache as the family says, or it was stopped before it
    read anything. -/
theorem wp_main_served {e : Env} (hs : s.tx = none) (hbody : s.own.response.body = [])
    (hv : Versioned s.db) (hclosed : ∀ d', Reached e s.db d' → Closed e (nlang e) S d' O)
    (hcache : Sound S s.db (keptCache e s.own.session s.cache))
    (hsurvives : Survives S e s.db (keptCache e s.own.session s.cache)) :
    (main e).wp calls (fun _ => Served S O (nlang e) e s.db s)
      (fun _ s' => Served S O (nlang e) e s.db s s' ∨
        (¬Executed.Readable s.own.session ∧ Selected e s.cache s s')) s := by
  have hselect : (selectLanguage e).wp calls (fun _ => Selected e (keptCache e s.own.session s.cache) s)
      (fun _ s' => ¬Executed.Readable s.own.session ∧ Selected e s.cache s s') s := by
    by_cases hlang : Executed.Readable s.own.session
    · exact Prog.wp_mono (fun _ _ h => h) (fun _ _ h => absurd h id) (wp_selectLanguage_readable hlang)
    · exact Prog.wp_mono (fun _ _ h => h) (fun _ _ h => ⟨hlang, h⟩) (wp_selectLanguage_cache e s)
  refine Prog.wp_seq hselect (fun _ s₁ h₁ => ?_) fun _ _ h => .inr h
  have hserving : Serving S O (nlang e) e s.db s₁ :=
    { db := h₁.db, tx := h₁.tx.trans hs, locale := h₁.locale, cache := h₁.cache ▸ hcache
      versioned := hv, closed := hclosed, survives := h₁.cache ▸ hsurvives }
  have hback {s' : St} (h : Served S O (nlang e) e s.db s₁ s') : Served S O (nlang e) e s.db s s' := by
    obtain ⟨d', hd', hready, hout⟩ := h
    exact ⟨d', hd', hready, fun out hmem => h₁.body ▸ hout out hmem⟩
  rw [Prog.wp_tryCatch]
  refine Prog.wp_mono (fun _ _ h => hback h) (fun err s₂ h₂ => ?_)
    (serves_site hserving (h₁.body.trans hbody))
  have hredirect (location : String) : (setRedirectHeader location).wp calls
      (fun _ => Served S O (nlang e) e s.db s)
      (fun _ s' => Served S O (nlang e) e s.db s s' ∨
        (¬Executed.Readable s.own.session ∧ Selected e s.cache s s')) s₂ :=
    Prog.wp_mono (fun _ _ h => h) (fun _ _ h => .inl h)
      ((hback h₂).answers fun _ _ => Answers.setRedirectHeader location)
  split
  · exact hredirect _
  · exact hredirect _
  · exact .inl (hback h₂)

end

/-! ## Runs -/

/-- The cache a request finds when its language is known. -/
def World.kept (w : World) (site : Site) (a : Arrival) : Cache :=
  keptCache (site.env a) (w.session a.req.sid) w.shared.cache

/-- The tables, the cache and the answer of a request that was served. -/
structure AnsweredBy (site : Site) (S : Family) (O : Output → Prop) (w : World) (a : Arrival) : Prop where
  reached : Reached (site.env a) w.shared.db (serve site a w).2.shared.db
  cache : Sound S (serve site a w).2.shared.db (serve site a w).2.shared.cache
  body : ∀ out ∈ (serve site a w).1.body, O out

/-- The request was stopped before it read anything: its session does not say which language it is in. -/
structure Stopped (site : Site) (w : World) (a : Arrival) : Prop where
  unreadable : ¬Executed.Readable (w.session a.req.sid)
  db : (serve site a w).2.shared.db = w.shared.db
  cache : (serve site a w).2.shared.cache = w.shared.cache
  body : ∃ status, (serve site a w).1.body = [.error status]

/-- **What one request keeps.** -/
theorem serve_cached (site : Site) (a : Arrival) {w : World} (hv : Versioned w.shared.db)
    (hclosed : ∀ d', Reached (site.env a) w.shared.db d' →
      Closed (site.env a) (nlang (site.env a)) S d' O)
    (hcache : Sound S w.shared.db (w.kept site a))
    (hsurvives : Survives S (site.env a) w.shared.db (w.kept site a)) :
    AnsweredBy site S O w a ∨ Stopped site w a := by
  have hends := ends_outcome (wp_main_served (S := S) (O := O) (e := site.env a) (s := w.start a) rfl rfl
    hv hclosed hcache hsurvives)
  have hserved (h : Served S O (nlang (site.env a)) (site.env a) w.shared.db (w.start a)
      (viewOf (outcome site a w).2)) : AnsweredBy site S O w a := by
    obtain ⟨d', hd', hready, hout⟩ := h
    have hdb : (serve site a w).2.shared.db = d' := hready.db
    refine ⟨hdb ▸ hd', hdb ▸ hready.cache, fun out hmem => ?_⟩
    have hbody (out : Output) (h : out ∈ (outcome site a w).2.2.own.response.body) : O out := by
      rcases hout out h with h' | h'
      · exact absurd h' List.not_mem_nil
      · exact h'
    have hclosed' := hclosed d' hd'
    change out ∈ (finish (outcome site a w).1 (outcome site a w).2.2.own.response).body at hmem
    unfold finish at hmem
    split at hmem
    · exact hbody out hmem
    · split at hmem
      · rw [List.mem_singleton.1 hmem]
        exact hclosed'.displays _ (.error _)
      · exact hbody out hmem
  cases hr : (outcome site a w).1 with
  | ok u =>
    rw [hr] at hends
    exact .inl (hserved hends)
  | error err =>
    rw [hr] at hends
    rcases hends with h | h
    · exact .inl (hserved h)
    · obtain ⟨hlang, h⟩ := h
      refine .inr ⟨hlang, h.db, h.cache, err.status, ?_⟩
      have hbody : (outcome site a w).2.2.own.response.body = [] := h.body
      have hfinish : (serve site a w).1 = finish (outcome site a w).1 (outcome site a w).2.2.own.response :=
        rfl
      rw [hfinish, hr, finish, hbody]
      rfl

/-! ### The step a request has taken

A family restricted to the tables before and after a request is a family again, so only the step that was
really taken has to be looked at. -/

section

variable {S' : Family} {l : Nat} (h : ∀ o v ts, S d o v ts → S' d o v ts)

include h

theorem Uses.imp {o : CachedObject} {v : Cached} {ts : List String} (hu : Uses S d o v ts) :
    Uses S' d o v ts := by
  obtain ⟨us, hus, hS⟩ := hu
  exact ⟨us, hus, h o v us hS⟩

theorem Shows.imp {view : CachedPage} {ts : List String} {out : Output}
    (hs : Shows e l S d view ts out) : Shows e l S' d view ts out := by
  have hmaster {info : GeneralInfo} {master : MasterPage} (hm : MasterOf e l S d info ts master) :
      MasterOf e l S' d info ts master := by
    obtain ⟨sidebar, hsidebar, rfl⟩ := hm
    exact ⟨sidebar, hsidebar.imp h, rfl⟩
  cases hs with
  | post hroute hpost hopen hinfo hm => exact .post hroute hpost hopen (hinfo.imp h) (hmaster hm)
  | page hroute hpage hopen hinfo hm => exact .page hroute hpage hopen (hinfo.imp h) (hmaster hm)
  | summary hcat hpage hq hkey hname hcount hcur hposts hinfo hm =>
    exact .summary hcat hpage hq hkey (fun hk => ⟨(hname hk).1.imp h, (hname hk).2⟩) (hcount.imp h)
      hcur hposts (hinfo.imp h) (hmaster hm)
  | rssPosts hkey hposts hinfo => exact .rssPosts hkey hposts (hinfo.imp h)
  | rssCat hroute hkey hname hposts hinfo => exact .rssCat hroute hkey hname hposts (hinfo.imp h)
  | comments hinfo => exact .comments (hinfo.imp h)

theorem Renders.imp {o : CachedObject} {v : Cached} {ts : List String} (hr : Renders e l S d o v ts) :
    Renders e l S' d o v ts := by
  cases hr with
  | options hinfo hts => exact .options hinfo hts
  | sidebarInfo hpages hcats hcat => exact .sidebarInfo hpages hcats hcat
  | sidebar hsidebar hts => exact .sidebar (hsidebar.imp h) hts
  | maxCatId hts => exact .maxCatId hts
  | catName hts => exact .catName hts
  | catCount hts => exact .catCount hts
  | page hshows hkey => exact .page (hshows.imp h) hkey

end

/-- A family of which only the stored values are of interest. -/
theorem Closed.of_renders {l : Nat} (h : ∀ o v ts, Renders e l S d o v ts → S d o v ts) :
    Closed e l S d (fun _ => True) := ⟨h, fun _ _ => trivial, fun _ _ _ _ _ _ _ => trivial⟩

/-- What is cached is still right for the tables `d'` if one step has led there. -/
def SurvivesTo (S : Family) (e : Env) (d d' : Db) (c : Cache) : Prop :=
  ∀ ts, Invalidates e d ts d' → ∀ x ∈ c, ∀ o : CachedObject, x.key = o.key →
    S d o x.value x.triggers → (∀ t ∈ ts, t ∉ x.triggers) → S d' o x.value x.triggers

theorem Survives.to {c : Cache} (h : Survives S e d c) (d' : Db) : SurvivesTo S e d d' c :=
  fun ts hstep => h ts d' hstep

theorem SurvivesTo.subset {d' : Db} {c c' : Cache} (h : SurvivesTo S e d d' c) (hsub : ∀ x ∈ c', x ∈ c) :
    SurvivesTo S e d d' c' :=
  fun ts hstep x hx => h ts hstep x (hsub x hx)

/-- What one request keeps, judged by the step it has taken. -/
theorem serve_cached_to (site : Site) (a : Arrival) {w : World} (hv : Versioned w.shared.db)
    (hrenders : ∀ d', Reached (site.env a) w.shared.db d' → ∀ o v ts,
      Renders (site.env a) (nlang (site.env a)) S d' o v ts → S d' o v ts)
    (hcache : Sound S w.shared.db (w.kept site a))
    (hsurvives : SurvivesTo S (site.env a) w.shared.db (serve site a w).2.shared.db (w.kept site a)) :
    Reached (site.env a) w.shared.db (serve site a w).2.shared.db ∧
      (Sound S (serve site a w).2.shared.db (serve site a w).2.shared.cache ∨ Stopped site w a) := by
  let S' : Family := fun d o v ts => d = w.shared.db ∨ d = (serve site a w).2.shared.db → S d o v ts
  have himp (d : Db) (hd : d = w.shared.db ∨ d = (serve site a w).2.shared.db) (o : CachedObject)
      (v : Cached) (ts : List String) (h : S' d o v ts) : S d o v ts := h hd
  have hserve := serve_cached (S := S') (O := fun _ => True) site a hv
    (fun d' hd' => .of_renders fun o v ts hr hd => hrenders d' hd' o v ts (hr.imp (himp d' hd)))
    (TriggerCache.Valid.mono hcache fun x hx => by
      obtain ⟨o, ho, hS⟩ := hx
      exact ⟨o, ho, fun _ => hS⟩)
    (fun ts d' hstep x hx o ho hS hts hd => by
      rcases hd with rfl | rfl
      · exact hS (.inl rfl)
      · exact hsurvives ts hstep x hx o ho (hS (.inl rfl)) hts)
  rcases hserve with h | h
  · refine ⟨h.reached, .inl (TriggerCache.Valid.mono h.cache fun x hx => ?_)⟩
    obtain ⟨o, ho, hS⟩ := hx
    exact ⟨o, ho, hS (.inr rfl)⟩
  · exact ⟨.inl h.db, .inr h⟩

/-- What runs with a cache keep: the version, an invariant of the tables, and the family. -/
structure Cached.Inv (S : Family) (J : Db → Prop) (w : World) : Prop where
  versioned : Versioned w.shared.db
  tables : J w.shared.db
  cache : Sound S w.shared.db w.shared.cache

/-- **A family that no request of a run leaves holds all along the run.** -/
theorem run_cached {site : Site} {J : Db → Prop} {P : World → Arrival → Prop}
    (htables : ∀ w a ts d', P w a → J w.shared.db → Invalidates (site.env a) w.shared.db ts d' → J d')
    (hrenders : ∀ w a d o v ts, P w a → J d →
      Renders (site.env a) (nlang (site.env a)) S d o v ts → S d o v ts)
    (hsurvives : ∀ w a, P w a → J w.shared.db →
      SurvivesTo S (site.env a) w.shared.db (serve site a w).2.shared.db (w.kept site a))
    {w : World} (hw : Cached.Inv S J w) {events : List Event} (h : EachRequest site P w events) :
    Cached.Inv S J (run site events w) := by
  refine EachRequest.induction (I := Cached.Inv S J) (fun w keys hw => ?_) (fun w a hw hP => ?_) hw h
  · exact ⟨hw.versioned, hw.tables, TriggerCache.Valid.subset hw.cache fun x hx =>
      (TriggerCache.mem_evict.1 hx).1⟩
  · have htables' (d' : Db) (hd' : Reached (site.env a) w.shared.db d') : J d' := by
      rcases hd' with rfl | ⟨ts, hstep⟩
      · exact hw.tables
      · exact htables w a ts d' hP hw.tables hstep
    have hkept (x : CacheEntry Cached) (hx : x ∈ w.kept site a) : x ∈ w.shared.cache :=
      mem_of_keptCache hx
    obtain ⟨hreached, hserve⟩ := serve_cached_to site a hw.versioned
      (fun d' hd' o v ts => hrenders w a d' o v ts hP (htables' d' hd'))
      (TriggerCache.Valid.subset hw.cache hkept) (hsurvives w a hP hw.tables)
    rcases hserve with h | h
    · exact ⟨hreached.versioned hw.versioned, htables' _ hreached, h⟩
    · have hdb : (step site w (.request a)).shared.db = w.shared.db := h.db
      have hcache : (step site w (.request a)).shared.cache = w.shared.cache := h.cache
      exact ⟨hdb ▸ hw.versioned, hdb ▸ hw.tables, hdb ▸ hcache ▸ hw.cache⟩

theorem EachRequest.of_forall {site : Site} {P : World → Arrival → Prop} (h : ∀ w a, P w a) (w : World)
    (events : List Event) : EachRequest site P w events := by
  induction events generalizing w with
  | nil => trivial
  | cons ev events ih =>
    cases ev with
    | request a => exact ⟨h w a, ih _⟩
    | evict keys => exact ih _

/-- A family that no request ever leaves holds in every state the server reaches. -/
theorem Reachable.cached {site : Site} {J : Db → Prop} (hfresh : J Db.fresh)
    (hstep : ∀ e d ts d', J d → Invalidates e d ts d' → J d')
    (hrenders : ∀ e d o v ts, J d → Renders e (nlang e) S d o v ts → S d o v ts)
    (hsurvives : ∀ e d c, J d → Survives S e d c) {w : World} (hw : Reachable site w) :
    Cached.Inv S J w := by
  obtain ⟨files, events, rfl⟩ := hw
  have hversion : Versioned Db.fresh := by
    unfold Versioned
    decide
  have hstart : Cached.Inv S J (World.fresh files) :=
    ⟨hversion, hfresh, fun x hx => absurd hx List.not_mem_nil⟩
  exact run_cached (P := fun _ _ => True) (fun w a ts d' _ => hstep _ _ ts d')
    (fun w a d o v ts _ => hrenders _ d o v ts) (fun w a _ hJ => (hsurvives _ _ _ hJ).to _) hstart
    (.of_forall (fun _ _ => trivial) _ _)

/-- An invariant of every step is one of every state the server reaches. -/
theorem Reachable.tables {site : Site} {J : Db → Prop} (hfresh : J Db.fresh)
    (hstep : ∀ e d ts d', J d → Invalidates e d ts d' → J d') {w : World} (hw : Reachable site w) :
    Cached.Inv (fun _ _ _ _ => True) J w :=
  hw.cached hfresh hstep (fun _ _ _ _ _ _ _ => trivial) fun _ _ _ _ _ _ _ _ _ _ _ _ _ => trivial

/-- The steps a request may take from the state it meets. -/
theorem Reachable.reached {site : Site} {w : World} (hw : Reachable site w) (a : Arrival) :
    Reached (site.env a) w.shared.db (serve site a w).2.shared.db := by
  have hinv := hw.tables (J := fun _ => True) trivial fun _ _ _ _ _ _ => trivial
  have hserve := serve_cached (S := fun _ _ _ _ => True) (O := fun _ => True) site a
    hinv.versioned (fun _ _ => .of_renders fun _ _ _ _ => trivial)
    (TriggerCache.Valid.subset hinv.cache fun x hx => mem_of_keptCache hx)
    fun _ _ _ _ _ _ _ _ _ => trivial
  rcases hserve with h | h
  · exact h.reached
  · exact .inl h.db

/-- **Keys and triggers do not collide.** Two cached objects with one key are one object, and no key with
    a search text is a trigger some handler rises; and in every run from an empty schema the cache holds
    only such objects, and every request rises, with what it writes, only such triggers. -/
theorem run_keys_apart (site : Site) (files : Files) (events : List Event) :
    (∀ o o' : CachedObject, o.key = o'.key → o = o') ∧
      (∀ o : CachedObject, o.hasQuery → ∀ t, Risen t → o.key ≠ t) ∧
      (∀ x ∈ (run site events (World.fresh files)).shared.cache, ∃ o : CachedObject, x.key = o.key) ∧
      ∀ a, let w := run site events (World.fresh files)
        (serve site a w).2.shared.db = w.shared.db ∨
          ∃ ts, Invalidates (site.env a) w.shared.db ts (serve site a w).2.shared.db ∧ ∀ t ∈ ts, Risen t := by
  have hw : Reachable site (run site events (World.fresh files)) := ⟨files, events, rfl⟩
  have hinv := hw.tables (J := fun _ => True) trivial fun _ _ _ _ _ _ => trivial
  refine ⟨fun _ _ => CachedObject.key_injective, fun _ => CachedObject.hasQuery_not_risen, fun x hx => ?_,
    fun a => ?_⟩
  · obtain ⟨o, ho, -⟩ := hinv.cache x hx
    exact ⟨o, ho⟩
  · intro w
    rcases hw.reached a with h | ⟨ts, h⟩
    · exact .inl h
    · exact .inr ⟨ts, h, h.risen⟩

end CppBlog
