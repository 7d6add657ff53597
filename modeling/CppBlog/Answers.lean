import CppBlog.Rendered

set_option autoImplicit false

/-! # Handlers that read and answer

Every handler that only reads keeps a closed family, and writes to the response only what the family
allows. The handlers of the page cache store one page each, the one they have just written. -/

namespace CppBlog

open Effect Store App

variable {α β : Type} {e : Env} {S : Family} {O : Output → Prop} {locale : Nat} {d : Db}

/-- The tables and the cache are as before, and what was written to the response is allowed. -/
structure Answered (S : Family) (O : Output → Prop) (locale : Nat) (d : Db) (s s' : St) : Prop where
  ready : Ready locale S d s'
  body : ∀ out ∈ s'.own.response.body, out ∈ s.own.response.body ∨ O out

/-- From a state in which the tables are `d`. -/
def Answers (S : Family) (O : Output → Prop) (locale : Nat) (d : Db) (s s' : St) : Prop :=
  Ready locale S d s → Answered S O locale d s s'

instance : IsPreorder St (Answers S O locale d) where
  refl _ hs := ⟨hs, fun _ => Or.inl⟩
  trans a b c hab hbc ha := by
    have hb := hab ha
    have hc := hbc hb.ready
    refine ⟨hc.ready, fun out hout => ?_⟩
    rcases hc.body out hout with h | h
    · exact hb.body out h
    · exact .inr h

theorem Answered.of_response {s s' : St} (hs' : Ready locale S d s')
    (h : s'.own.response = s.own.response) : Answered S O locale d s s' :=
  ⟨hs', fun _ hout => .inl (h ▸ hout)⟩

/-! ## Steps -/

namespace Answers

theorem of_notes {R : α → List String → Prop} {p : App α} (hp : Notes S locale d R p) :
    p.Within calls (Answers S O locale d) := by
  intro s
  by_cases hs : Ready locale S d s
  · refine Prog.wp_mono (fun _ s' h _ => ?_) (fun _ s' h _ => ?_) (hp s hs)
    · obtain ⟨hs', ts, hts, -⟩ := h
      exact .of_response hs' hts.response
    · exact .of_response h.1 h.2
  · exact Prog.wp_of_forall (fun _ _ h => absurd h hs) (fun _ _ h => absurd h hs) s

theorem query (f : Db → β) : (App.query f).Within calls (Answers S O locale d) :=
  of_notes (Notes.query f)

theorem getOwn (f : Own → β) : (App.getOwn f).Within calls (Answers S O locale d) :=
  of_notes (Notes.getOwn f)

/-- A step on the request's own data that leaves the body and the locale of the response alone. -/
theorem own {f : Own → β × Own} (h : ∀ o, (f o).2.response.body = o.response.body ∧
    (f o).2.response.locale = o.response.locale) :
    (Prog.perform (.own f) : App β).Within calls (Answers S O locale d) := by
  intro s
  rw [wp_own]
  intro hs
  refine ⟨hs.setOwn ((h s.own).2.trans hs.locale), fun out hout => .inl ?_⟩
  rw [St.setOwn, (h s.own).1] at hout
  exact hout

theorem modifyOwn {f : Own → Own} (h : ∀ o, (f o).response.body = o.response.body ∧
    (f o).response.locale = o.response.locale) :
    (App.modifyOwn f).Within calls (Answers S O locale d) := own h

theorem sessionGet (key : String) : (App.sessionGet key).Within calls (Answers S O locale d) := by
  refine (getOwn _).bind fun v => ?_
  cases v
  · exact .throw _
  · exact .ret _

theorem sessionGetInt (key : String) :
    (App.sessionGetInt key).Within calls (Answers S O locale d) := by
  refine (sessionGet key).bind fun v => ?_
  cases Text.readInt? v
  · exact .throw _
  · exact .ret _

theorem sessionSet (key value : String) :
    (App.sessionSet key value).Within calls (Answers S O locale d) := modifyOwn fun _ => ⟨rfl, rfl⟩

theorem sessionClear : App.sessionClear.Within calls (Answers S O locale d) :=
  modifyOwn fun _ => ⟨rfl, rfl⟩

theorem resetSession : App.resetSession.Within calls (Answers S O locale d) :=
  modifyOwn fun _ => ⟨rfl, rfl⟩

theorem setRedirectHeader (location : String) :
    (App.setRedirectHeader location).Within calls (Answers S O locale d) :=
  modifyOwn fun _ => ⟨rfl, rfl⟩

theorem setHeader (name value : String) :
    (App.setHeader name value).Within calls (Answers S O locale d) := modifyOwn fun _ => ⟨rfl, rfl⟩

theorem loadForm {φ : Type} (e : Env) (load : List (String × String) → φ) :
    (App.loadForm e load).Within calls (Answers S O locale d) := by
  intro s
  rw [wp_loadForm]
  split <;> exact fun hs => ⟨hs.setOwn hs.locale, fun _ => Or.inl⟩

theorem modifyResponse {f : Response → Response} {out : Output} (hO : O out)
    (hbody : ∀ r, (f r).body = r.body ++ [out]) (hlocale : ∀ r, (f r).locale = r.locale) :
    (App.modifyResponse f).Within calls (Answers S O locale d) := by
  intro s
  rw [wp_modifyResponse]
  intro hs
  refine ⟨hs.setOwn ((hlocale _).trans hs.locale), fun out' hout => ?_⟩
  rw [St.setOwn, hbody] at hout
  rcases List.mem_append.1 hout with h | h
  · exact .inl h
  · exact .inr (List.mem_singleton.1 h ▸ hO)

theorem write {out : Output} (hO : O out) : (App.write out).Within calls (Answers S O locale d) :=
  modifyResponse hO (fun _ => rfl) (fun _ => rfl)

theorem makeErrorResponse {status : Nat} (hclosed : Closed e locale S d O) :
    (App.makeErrorResponse status).Within calls (Answers S O locale d) :=
  modifyResponse (hclosed.displays _ (.error status)) (fun _ => rfl) (fun _ => rfl)

/-- A step on the cache that adds nothing to it. -/
theorem cache {f : Cache → β × Cache} (h : ∀ c, ∀ x ∈ (f c).2, x ∈ c) :
    (App.cache f).Within calls (Answers S O locale d) := by
  intro s
  rw [wp_cache]
  intro hs
  exact ⟨hs.setCache (TriggerCache.Valid.subset hs.cache (h s.cache)), fun _ => Or.inl⟩

theorem files (f : Files → β × Files) : (App.files f).Within calls (Answers S O locale d) := by
  intro s
  rw [wp_files]
  exact fun hs => ⟨⟨hs.db, hs.tx, hs.locale, hs.cache⟩, fun _ => Or.inl⟩

/-- A cached page is written to the response as it is. -/
theorem fetchPage (view : CachedPage) (hclosed : Closed e locale S d O) :
    (App.fetchPage e view.key).Within calls (Answers S O locale d) := by
  intro s
  rw [App.fetchPage, Prog.wp_bind, wp_cache]
  dsimp only
  rw [pageKey_eq]
  cases hx : TriggerCache.fetch s.cache (CachedObject.page e.req.gzip view).key with
  | none => exact fun hs => ⟨hs, fun _ => Or.inl⟩
  | some x =>
    dsimp only
    cases hvalue : x.value with
    | page body =>
      dsimp only
      rw [Prog.wp_bind, wp_modifyResponse]
      intro hs
      have hS := hs.cache.fetch hx
      rw [hvalue] at hS
      refine ⟨hs.setOwn hs.locale, fun out hout => ?_⟩
      rcases List.mem_append.1 hout with h | h
      · exact .inl h
      · exact .inr (hclosed.served _ _ _ _ hS out h)
    | _ => exact fun hs => ⟨hs, fun _ => Or.inl⟩

/-- What a part that reads has returned may be used. -/
theorem after {R : α → List String → Prop} {p : App α} {k : α → App β} (hp : Notes S locale d R p)
    (hk : ∀ a ts, R a ts → (k a).Within calls (Answers S O locale d)) :
    (p.bind k).Within calls (Answers S O locale d) := by
  intro s
  by_cases hs : Ready locale S d s
  · refine Prog.wp_seq (hp s hs) (fun a s' h => ?_) (fun _ s' h _ => .of_response h.1 h.2)
    obtain ⟨hs', ts, hts, hR⟩ := h
    exact (hk a ts hR).after fun _ => .of_response hs' hts.response
  · exact Prog.wp_of_forall (fun _ _ h => absurd h hs) (fun _ _ h => absurd h hs) s

/-- A page made from the request's own data, in the locale of the request. -/
theorem writeOwn {f : Own → β} {out : β → Output} (hO : ∀ o, o.response.locale = locale → O (out (f o))) :
    ((App.getOwn f).bind fun x => App.write (out x)).Within calls (Answers S O locale d) := by
  intro s
  rw [Prog.wp_bind, wp_getOwn]
  by_cases hs : Ready locale S d s
  · exact write (hO s.own hs.locale) s
  · exact Prog.wp_of_forall (fun _ _ h => absurd h hs) (fun _ _ h => absurd h hs) s

end Answers

/-! ## The pages of the page cache -/

/-- More triggers do not make a page another. -/
theorem Shows.mono {view : CachedPage} {ts ts' : List String} {out : Output}
    (h : Shows e locale S d view ts out) (hts : ts ⊆ ts') : Shows e locale S d view ts' out := by
  have hmaster {info : GeneralInfo} {master : MasterPage} (hm : MasterOf e locale S d info ts master) :
      MasterOf e locale S d info ts' master := by
    obtain ⟨sidebar, hsidebar, rfl⟩ := hm
    exact ⟨sidebar, hsidebar.mono hts, rfl⟩
  cases h with
  | post hroute hpost hopen hinfo hm =>
    exact .post hroute hpost hopen (hinfo.mono hts) (hmaster hm)
  | page hroute hpage hopen hinfo hm =>
    exact .page hroute hpage hopen (hinfo.mono hts) (hmaster hm)
  | summary hcat hpage hq hkey hname hcount hcur hposts hinfo hm =>
    exact .summary hcat hpage hq (hts hkey) (fun h => ⟨(hname h).1.mono hts, (hname h).2⟩)
      (hcount.mono hts) hcur (fun r hr => hts (hposts r hr)) (hinfo.mono hts) (hmaster hm)
  | rssPosts hkey hposts hinfo =>
    exact .rssPosts (hts hkey) (fun r hr => hts (hposts r hr)) (hinfo.mono hts)
  | rssCat hroute hkey hname hposts hinfo =>
    exact .rssCat hroute (hts hkey) hname (fun r hr => hts (hposts r hr)) (hinfo.mono hts)
  | comments hinfo => exact .comments (hinfo.mono hts)

/-- The state of a request that has answered nothing so far. -/
structure Silent (locale : Nat) (S : Family) (d : Db) (s : St) : Prop extends Ready locale S d s where
  body : s.own.response.body = []

theorem Silent.added {ts : List String} {s s' : St} (hs : Silent locale S d s)
    (hs' : Ready locale S d s') (h : Added ts s s') : Silent locale S d s' :=
  ⟨hs', by rw [h.response, hs.body]⟩

/-- Writing a page and storing it. -/
theorem wp_storePage {view : CachedPage} {out : Output} {ts : List String} {s : St}
    (hclosed : Closed e locale S d O) (hs : Silent locale S d s)
    (hout : Shows e locale S d view ts out) (hts : ts ⊆ s.own.triggers) :
    ((write out).bind fun _ => storePage e view.key).wp calls (fun _ => Answered S O locale d s)
      (fun _ => Answered S O locale d s) s := by
  rw [Prog.wp_bind, wp_write, storePage, addTrigger, Prog.wp_bind, addTriggers, wp_modifyOwn,
    Prog.wp_bind, wp_getOwn, wp_cache]
  have hsub : ts ⊆ s.own.triggers ++ [view.key] := fun t ht => List.mem_append_left _ (hts ht)
  have hstored : s.own.triggers ++ [view.key] ⊆ TriggerCache.storedTriggers
      (CachedObject.page e.req.gzip view).key (s.own.triggers ++ [view.key]) :=
    fun t ht => TriggerCache.mem_storedTriggers.2 (.inr ht)
  have hpage := hclosed.renders _ _ _ (.page (hout.mono fun t ht => hstored (hsub ht))
    (hstored (by simp)))
  refine ⟨⟨hs.db, hs.tx, hs.locale, TriggerCache.Valid.store hs.cache
    ⟨.page e.req.gzip view, pageKey_eq e view, ?_⟩⟩, ?_⟩
  · simp only [St.setOwn, hs.body, List.nil_append]
    exact hpage
  · intro out' hmem
    simp only [St.setOwn, St.setCache, hs.body, List.nil_append, List.mem_singleton] at hmem
    subst hmem
    exact .inr (hclosed.displays _ (.page hout))

/-- With the triggers `ts` noted, a request that has answered nothing so far is finished by `p`. -/
def Finishes (S : Family) (O : Output → Prop) (locale : Nat) (d : Db) (ts : List String)
    (p : App α) : Prop :=
  ∀ s, Silent locale S d s → ts ⊆ s.own.triggers →
    p.wp calls (fun _ => Answered S O locale d s) (fun _ => Answered S O locale d s) s

namespace Finishes

variable {ts : List String}

theorem of_answers {p : App α} (hp : p.Within calls (Answers S O locale d)) :
    Finishes S O locale d ts p := by
  intro s hs _
  exact Prog.wp_mono (fun _ _ h => h hs.toReady) (fun _ _ h => h hs.toReady) (hp s)

theorem ret (a : α) : Finishes S O locale d ts (.ret a : App α) := of_answers (.ret a)

theorem ite {c : Prop} [Decidable c] {p q : App α} (hp : Finishes S O locale d ts p)
    (hq : Finishes S O locale d ts q) : Finishes S O locale d ts (if c then p else q) := by
  split
  · exact hp
  · exact hq

/-- A part that reads comes first. -/
theorem bind {R : α → List String → Prop} {p : App α} {k : α → App β} (hp : Notes S locale d R p)
    (hk : ∀ a ts', R a ts' → Finishes S O locale d (ts ++ ts') (k a)) :
    Finishes S O locale d ts (p.bind k) := by
  intro s hs hts
  refine Prog.wp_seq (hp s hs.toReady) (fun a s' h => ?_) (fun _ s' h => .of_response h.1 h.2)
  obtain ⟨hs', ts', hadded, hR⟩ := h
  have hbody {s'' : St} (h : Answered S O locale d s' s'') : Answered S O locale d s s'' :=
    ⟨h.ready, fun out hout => hadded.response ▸ h.body out hout⟩
  refine Prog.wp_mono (fun _ _ => hbody) (fun _ _ => hbody) (hk a ts' hR s' (hs.added hs' hadded) ?_)
  rw [hadded.triggers]
  intro t ht
  rcases List.mem_append.1 ht with h | h
  · exact List.mem_append_left _ (hts h)
  · exact List.mem_append_right _ h

/-- At the end the page is written and stored. -/
theorem store (view : CachedPage) {out : Output} (hclosed : Closed e locale S d O)
    (hout : Shows e locale S d view ts out) :
    Finishes S O locale d ts ((write out).bind fun _ => storePage e view.key) :=
  fun _ hs hts => wp_storePage hclosed hs hout hts

/-- A page that is cached is written as it is, and otherwise made. -/
theorem fetchPage (view : CachedPage) {p : App Unit} (hclosed : Closed e locale S d O)
    (hp : Finishes S O locale d ts p) :
    Finishes S O locale d ts ((App.fetchPage e view.key).bind fun hit => if hit then .ret () else p) := by
  intro s hs hts
  rw [App.fetchPage, Prog.bind_assoc, Prog.wp_bind, wp_cache]
  dsimp only
  rw [pageKey_eq]
  cases hx : TriggerCache.fetch s.cache (CachedObject.page e.req.gzip view).key with
  | none => exact hp s hs hts
  | some x =>
    dsimp only
    cases hvalue : x.value with
    | page body =>
      dsimp only
      rw [Prog.bind_assoc, Prog.wp_bind, wp_modifyResponse]
      have hS := hs.cache.fetch hx
      rw [hvalue] at hS
      refine ⟨hs.toReady.setOwn hs.locale, fun out hout => ?_⟩
      rcases List.mem_append.1 hout with h | h
      · exact .inl h
      · exact .inr (hclosed.served _ _ _ _ hS out h)
    | _ => exact ⟨hs.toReady, fun _ => Or.inl⟩

end Finishes

/-! ## The public handlers -/

/-- The header of a feed, before anything is answered. -/
theorem finishes_setXml {p : App Unit} (hp : Finishes S O locale d [] p) :
    Finishes S O locale d [] (Feed.setXml.bind fun _ => p) := by
  intro s hs _
  rw [Feed.setXml, setHeader, modifyResponse, Prog.wp_bind, wp_modifyOwn]
  have hstart : Silent locale S d (s.setOwn { s.own with
      response := { s.own.response with
        headers := s.own.response.headers ++ [("Content-Type", "text/xml")] } }) :=
    ⟨hs.toReady.setOwn hs.locale, hs.body⟩
  refine Prog.wp_mono (fun _ s' h => ?_) (fun _ s' h => ?_) (hp _ hstart (by simp))
  · exact ⟨h.ready, h.body⟩
  · exact ⟨h.ready, h.body⟩

section
variable (hclosed : Closed e locale S d O)
include hclosed

/-- The content of the page of an open post, followed by what is done with it. -/
theorem finishes_postContent (hv : Versioned d) {sid : String} {k : PostContent → App Unit}
    (hk : ∀ p username info ts, d.selectPostJoinUser (Text.atoi sid) = some (p, username) →
      p.isOpen ≠ 0 → Uses S d .options (.info info) ts →
      Finishes S O locale d ts (k (d.postContent (Text.atoi sid) p username info))) :
    Finishes S O locale d [] ((Post.prepareContent sid false).bind fun r =>
      match r with
      | none => .ret ()
      | some c => k c) := by
  rw [Post.prepareContent, Prog.bind_assoc]
  refine .bind (Notes.query _) fun r ts h => ?_
  obtain ⟨rfl, rfl⟩ := h
  cases hpost : d.selectPostJoinUser (Text.atoi sid) with
  | none =>
    dsimp only
    rw [Prog.bind_assoc]
    exact .of_answers ((Answers.makeErrorResponse hclosed).bind fun _ => .ret _)
  | some x =>
    obtain ⟨p, username⟩ := x
    dsimp only
    split
    · rw [Prog.bind_assoc]
      exact .of_answers ((Answers.makeErrorResponse hclosed).bind fun _ => .ret _)
    · rename_i hshown
      rw [Prog.bind_assoc]
      refine .bind (notes_basicPrepare hclosed hv) fun info ts hinfo => ?_
      rw [Prog.bind_assoc]
      refine .bind (Notes.query _) fun comments ts' h => ?_
      obtain ⟨rfl, rfl⟩ := h
      rw [Prog.bind_assoc]
      refine .bind (Notes.query _) fun categories ts' h => ?_
      obtain ⟨rfl, rfl⟩ := h
      refine hk p username info _ hpost (fun hopen => ?_) (hinfo.mono (by simp))
      exact hshown ⟨hopen, by simp⟩

theorem finishes_postDisplay (hv : Versioned d) {id : Digits}
    (hroute : routedToDisplay e = some id.text) :
    Finishes S O locale d [] (Post.display e id.text) := by
  refine .fetchPage (.post id) hclosed ?_
  refine finishes_postContent hclosed hv fun p username info ts hpost hopen hinfo => ?_
  rw [Post.render, Prog.bind_assoc]
  refine .bind (notes_renderMaster hclosed _) fun master ts' hmaster => ?_
  refine .store (.post id) hclosed (.post hroute hpost hopen (hinfo.mono (by simp)) ?_)
  obtain ⟨sidebar, hsidebar, rfl⟩ := hmaster
  exact ⟨sidebar, hsidebar.mono (by simp), rfl⟩

/-- The static page, followed by what is done when it was written. -/
theorem finishes_page (hv : Versioned d) {sid : String} {k : App Unit}
    (hk : ∀ p info master ts, d.selectPage (Text.atoi sid) = some p → p.isOpen ≠ 0 →
      Uses S d .options (.info info) ts → MasterOf e locale S d info ts master →
      Finishes S O locale d ts
        ((write (.blogPage master (Text.atoi sid) (escape p.title) p.content)).bind fun _ => k)) :
    Finishes S O locale d [] ((Page.prepare e sid false).bind fun ok => if ok then k else .ret ()) := by
  rw [Page.prepare, Prog.bind_assoc]
  refine .bind (Notes.query _) fun r ts h => ?_
  obtain ⟨rfl, rfl⟩ := h
  cases hpage : d.selectPage (Text.atoi sid) with
  | none =>
    dsimp only
    rw [Prog.bind_assoc]
    exact .of_answers ((Answers.makeErrorResponse hclosed).bind fun _ => .ret _)
  | some p =>
    dsimp only
    split
    · rw [Prog.bind_assoc]
      exact .of_answers ((Answers.makeErrorResponse hclosed).bind fun _ => .ret _)
    · rename_i hshown
      rw [Prog.bind_assoc]
      refine .bind (notes_basicPrepare hclosed hv) fun info ts hinfo => ?_
      rw [Prog.bind_assoc]
      refine .bind (notes_renderMaster hclosed _) fun master ts' hmaster => ?_
      rw [Prog.bind_assoc]
      refine hk p info master _ hpage (fun hopen => ?_) (hinfo.mono (by simp)) ?_
      · exact hshown ⟨by simp, hopen⟩
      · obtain ⟨sidebar, hsidebar, rfl⟩ := hmaster
        exact ⟨sidebar, hsidebar.mono (by simp), rfl⟩

theorem finishes_pageDisplay (hv : Versioned d) {id : Digits}
    (hroute : routedToPage e = some id.text) :
    Finishes S O locale d [] (Page.display e id.text) := by
  refine .fetchPage (.page id) hclosed ?_
  refine finishes_page hclosed hv fun p info master ts hpage hopen hinfo hmaster => ?_
  exact .store (.page id) hclosed (.page hroute hpage hopen hinfo hmaster)

/-! ### Listings -/

theorem notes_categoryName (catId : Int) :
    Notes S locale d (fun name ts => Uses S d (.catName catId) (.frame name) ts)
      (Summary.categoryName catId) := by
  refine (Notes.fetch (.catName catId)).bind fun r ts hr => ?_
  rcases hr with ⟨rfl, rfl⟩ | ⟨v, rfl, hS⟩
  · refine (Notes.query _).bind fun name ts h => ?_
    obtain ⟨rfl, rfl⟩ := h
    refine (Notes.store (hclosed.renders (.catName catId) _ _ (.catName ?_))).bind fun _ ts hts => ?_
    · exact TriggerCache.mem_storedTriggers.2 (.inr (by simp))
    · refine (Notes.ret _).mono fun name ts' h => ?_
      obtain ⟨rfl, rfl⟩ := h
      exact hts.mono (by simp)
  · cases v with
    | frame name =>
      refine (Notes.ret name).mono fun info ts' h => ?_
      obtain ⟨rfl, rfl⟩ := h
      exact ⟨ts, by simp, hS⟩
    | _ => exact .throw _ _

theorem notes_pageRecords (catId : Int) (q : String) :
    Notes S locale d (fun n ts => Uses S d (.catCount catId q) (.pageRecords n) ts)
      (Summary.pageRecords (Summary.countKey catId q) catId (Summary.countRecords e catId q)) := by
  refine (Notes.fetch (.catCount catId q)).bind fun r ts hr => ?_
  rcases hr with ⟨rfl, rfl⟩ | ⟨v, rfl, hS⟩
  · refine (Notes.query _).bind fun n ts h => ?_
    obtain ⟨rfl, rfl⟩ := h
    refine (Notes.store (hclosed.renders (.catCount catId q) _ _ (.catCount ?_))).bind
      fun _ ts hts => ?_
    · exact TriggerCache.mem_storedTriggers.2 (.inr (by simp))
    · refine (Notes.ret _).mono fun n ts' h => ?_
      obtain ⟨rfl, rfl⟩ := h
      exact hts.mono (by simp)
  · cases v with
    | pageRecords n =>
      refine (Notes.ret n).mono fun info ts' h => ?_
      obtain ⟨rfl, rfl⟩ := h
      exact ⟨ts, by simp, hS⟩
    | _ => exact .throw _ _

/-- The check of the number of a category, followed by what is done when it passed. -/
theorem finishes_checkMaxCatId (catId : Int) {k : App Unit}
    (hk : ∀ ts, Finishes S O locale d ts k) :
    Finishes S O locale d [] ((Summary.checkMaxCatId catId).bind fun ok =>
      if !ok then .ret () else k) := by
  unfold Summary.checkMaxCatId
  split
  · rw [Prog.bind_assoc]
    refine .bind (Notes.fetch .maxCatId) fun r ts hr => ?_
    rcases hr with ⟨rfl, rfl⟩ | ⟨v, rfl, hS⟩
    · dsimp only
      rw [Prog.bind_assoc]
      refine .bind (Notes.query _) fun m ts h => ?_
      obtain ⟨rfl, rfl⟩ := h
      rw [Prog.bind_assoc]
      refine .bind (Notes.store (hclosed.renders .maxCatId _ _ (.maxCatId ?_))) fun _ ts _ => hk _
      exact TriggerCache.mem_storedTriggers.2 (.inr (by simp))
    · cases v with
      | frame maxCatId =>
        dsimp only
        split
        · rw [Prog.bind_assoc]
          exact .of_answers ((Answers.makeErrorResponse hclosed).bind fun _ => .ret _)
        · exact hk _
      | _ => exact .of_answers (.throw _)
  · exact hk _

/-- The pages of a listing, from the number of its records on. -/
theorem finishes_list (hv : Versioned d) {catId page : Int} {name q : String} {ts : List String}
    (hcat : 0 ≤ catId) (hpage : 0 ≤ page) (hq : q = e.req.getValue "q") (hkey : catKey catId ∈ ts)
    (hname : catId ≠ 0 → Uses S d (.catName catId) (.frame name) ts ∧ name.isEmpty = false) :
    Finishes S O locale d ts (Summary.list e (Summary.key catId page q) catId page name q) := by
  refine .bind (notes_pageRecords hclosed catId q) fun n ts' hcount => ?_
  change Finishes S O locale d (ts ++ ts') (if (Summary.pageOf n page).curpage ≠ page
    then setRedirectHeader (Summary.redirectUrl e catId (Summary.pageOf n page).curpage q)
    else Summary.showPage e (Summary.key catId page q) catId name q (Summary.pageOf n page))
  split
  · exact .of_answers (Answers.setRedirectHeader _)
  · rename_i hcur
    refine .bind (Notes.query _) fun rows ts₁ h => ?_
    obtain ⟨rfl, rfl⟩ := h
    refine .bind (Notes.addTriggers _) fun _ ts₂ h => ?_
    subst h
    refine .bind (notes_basicPrepare hclosed hv) fun info ts₃ hinfo => ?_
    have hcats : Notes S locale d
        (fun cats ts => cats = Summary.catsOf (Summary.postsOf e catId q (Summary.pageOf n page) d) d ∧
          ts = [])
        (if (Summary.postsOf e catId q (Summary.pageOf n page) d).isEmpty then .ret []
          else query (Db.selectCatsOfPosts
            ((Summary.postsOf e catId q (Summary.pageOf n page) d).map SummaryRow.id))) := by
      unfold Summary.catsOf
      split
      · exact Notes.ret []
      · exact Notes.query _
    refine .bind hcats fun cats ts₄ h => ?_
    obtain ⟨rfl, rfl⟩ := h
    refine .bind (notes_renderMaster hclosed info) fun master ts₅ hmaster => ?_
    refine .store (.summary catId page q) hclosed (.summary hcat hpage hq ?_ (fun h => ?_) ?_
      (not_not.1 hcur) (fun r hr => ?_) (hinfo.mono fun t ht => by simp [ht]) ?_)
    · simp [hkey]
    · exact ⟨(hname h).1.mono (by simp), (hname h).2⟩
    · exact hcount.mono (by simp)
    · have hmem : postKey r.id ∈
          (Summary.postsOf e catId q (Summary.pageOf n page) d).map (fun r => postKey r.id) :=
        List.mem_map.2 ⟨r, hr, rfl⟩
      exact List.mem_append_left _ (List.mem_append_left _ (List.mem_append_left _
        (List.mem_append_right _ hmem)))
    · obtain ⟨sidebar, hsidebar, rfl⟩ := hmaster
      exact ⟨sidebar, hsidebar.mono fun t ht => by simp [ht], rfl⟩

theorem finishes_summary (hv : Versioned d) (catId page : Int) :
    Finishes S O locale d [] (Summary.prepare e catId page) := by
  unfold Summary.prepare
  dsimp only
  have hnonneg (n : Int) : 0 ≤ (if n < 0 then 0 else n) := by
    split <;> omega
  generalize hc : (if catId < 0 then 0 else catId) = k
  generalize hp : (if page < 0 then 0 else page) = n
  have hk : 0 ≤ k := hc ▸ hnonneg catId
  have hn : 0 ≤ n := hp ▸ hnonneg page
  refine finishes_checkMaxCatId hclosed k fun ts => ?_
  refine .fetchPage (.summary k n (e.req.getValue "q")) hclosed ?_
  refine .bind (Notes.addTriggers [catKey k]) fun _ ts' h => ?_
  subst h
  split
  · refine .bind (notes_categoryName hclosed k) fun name ts' hname => ?_
    split
    · exact .of_answers (Answers.makeErrorResponse hclosed)
    · rename_i hempty
      exact finishes_list hclosed hv hk hn rfl (by simp) fun _ =>
        ⟨hname.mono (by simp), by simpa using hempty⟩
  · rename_i hzero
    exact finishes_list hclosed hv hk hn rfl (by simp) fun h => absurd h hzero

/-! ### Feeds -/

theorem finishes_feedPosts (hv : Versioned d) : Finishes S O locale d [] (Feed.posts e) := by
  refine finishes_setXml (.fetchPage .rssPosts hclosed ?_)
  refine .bind (Notes.addTriggers ["cat_0"]) fun _ ts h => ?_
  subst h
  refine .bind (Notes.query _) fun rows ts h => ?_
  obtain ⟨rfl, rfl⟩ := h
  refine .bind (Notes.addTriggers _) fun _ ts h => ?_
  subst h
  refine .bind (notes_basicPrepare hclosed hv) fun info ts hinfo => ?_
  refine .bind (notes_feedMaster info) fun master ts' h => ?_
  obtain ⟨rfl, rfl⟩ := h
  refine .store .rssPosts hclosed (.rssPosts (by simp) (fun r hr => ?_)
    (hinfo.mono (by simp)))
  have hmem : postKey r.id ∈ (Feed.lastPosts d).map (fun r => postKey r.id) :=
    List.mem_map.2 ⟨r, hr, rfl⟩
  exact List.mem_append_left _ (List.mem_append_left _ (List.mem_append_right _ hmem))

theorem finishes_feedCats (hv : Versioned d) {id : Digits}
    (hroute : routedToCats e = some id.text) :
    Finishes S O locale d [] (Feed.cats e id.text) := by
  refine finishes_setXml (.fetchPage (.rssCat id) hclosed ?_)
  refine .bind (Notes.addTriggers ["cat_" ++ id.text]) fun _ ts h => ?_
  subst h
  refine .bind (Notes.query _) fun name ts h => ?_
  obtain ⟨rfl, rfl⟩ := h
  cases hname : d.selectCatName (Text.atoi id.text) with
  | none => exact .of_answers (Answers.makeErrorResponse hclosed)
  | some name =>
    refine .bind (Notes.query _) fun rows ts h => ?_
    obtain ⟨rfl, rfl⟩ := h
    refine .bind (Notes.addTriggers _) fun _ ts h => ?_
    subst h
    refine .bind (notes_basicPrepare hclosed hv) fun info ts hinfo => ?_
    refine .bind (notes_feedMaster info) fun master ts' h => ?_
    obtain ⟨rfl, rfl⟩ := h
    refine .store (.rssCat id) hclosed (.rssCat hroute (by simp) hname (fun r hr => ?_)
      (hinfo.mono (by simp)))
    have hmem : postKey r.id ∈ (Feed.lastPostsIn (Text.atoi id.text) d).map (fun r => postKey r.id) :=
      List.mem_map.2 ⟨r, hr, rfl⟩
    exact List.mem_append_left _ (List.mem_append_left _ (List.mem_append_right _ hmem))

theorem finishes_feedComments (hv : Versioned d) : Finishes S O locale d [] (Feed.comments e) := by
  refine finishes_setXml (.fetchPage .comments hclosed ?_)
  refine .bind (Notes.query _) fun rows ts h => ?_
  obtain ⟨rfl, rfl⟩ := h
  refine .bind (notes_basicPrepare hclosed hv) fun info ts hinfo => ?_
  refine .bind (notes_feedMaster info) fun master ts' h => ?_
  obtain ⟨rfl, rfl⟩ := h
  exact .store .comments hclosed (.comments (hinfo.mono (by simp)))

end

/-! ## The other handlers that read -/

section
variable (hclosed : Closed e locale S d O)
include hclosed

theorem answers_prepareContent (hv : Versioned d) (sid : String) (preview : Bool) :
    (Post.prepareContent sid preview).Within calls (Answers S O locale d) := by
  refine (Answers.query _).bind fun r => ?_
  split
  · exact (Answers.makeErrorResponse hclosed).bind fun _ => .ret _
  · refine .ite ((Answers.makeErrorResponse hclosed).bind fun _ => .ret _) ?_
    exact (Answers.of_notes (notes_basicPrepare hclosed hv)).bind fun _ => (Answers.query _).bind fun _ =>
      (Answers.query _).bind fun _ => .ret _

theorem answers_postRender (c : PostContent) (text : String) (f : CommentForm) :
    (Post.render e c text f).Within calls (Answers S O locale d) := by
  refine Answers.after (notes_renderMaster hclosed _) fun master ts hmaster => ?_
  exact Answers.write (hclosed.displays _ (.blogPost _ hmaster))

theorem answers_postPreview (hv : Versioned d) (sid : String) :
    (Post.preview e sid).Within calls (Answers S O locale d) := by
  refine (Answers.getOwn _).bind fun user => .ite (Answers.makeErrorResponse hclosed) ?_
  refine (answers_prepareContent hclosed hv sid true).bind fun r => ?_
  split
  · exact .ret _
  · exact answers_postRender hclosed _ _ _

theorem answers_pagePreview (hv : Versioned d) (sid : String) :
    (Page.preview e sid).Within calls (Answers S O locale d) := by
  have hprepare : (Page.prepare e sid true).Within calls (Answers S O locale d) := by
    refine (Answers.query _).bind fun r => ?_
    split
    · exact (Answers.makeErrorResponse hclosed).bind fun _ => .ret _
    · refine .ite ((Answers.makeErrorResponse hclosed).bind fun _ => .ret _) ?_
      refine (Answers.of_notes (notes_basicPrepare hclosed hv)).bind fun info => ?_
      refine Answers.after (notes_renderMaster hclosed _) fun master ts hmaster => ?_
      exact (Answers.write (hclosed.displays _ (.blogPage _ _ _ hmaster))).bind fun _ => .ret _
  exact (Answers.getOwn _).bind fun _ => .ite (Answers.makeErrorResponse hclosed)
    (hprepare.bind fun _ => .ret _)

theorem answers_adminPrepare (hv : Versioned d) :
    adminPrepare.Within calls (Answers S O locale d) :=
  (Answers.of_notes (notes_basicPrepare hclosed hv)).bind fun _ => (Answers.getOwn _).bind fun _ =>
    .ite ((Answers.sessionGetInt _).bind fun _ => (Answers.sessionGet _).bind fun _ => .ret _) (.ret _)

theorem answers_renderAdmin (c : AdminContent) (active : String) (view : AdminView) :
    (renderAdmin e c active view).Within calls (Answers S O locale d) :=
  Answers.writeOwn fun _ ho => hclosed.displays _ (.admin view ho)

/-- A page of the administration without further queries. -/
theorem answers_adminPage (hv : Versioned d) (active : String) (view : AdminContent → AdminView) :
    (adminPrepare.bind fun c => renderAdmin e c active (view c)).Within calls (Answers S O locale d) :=
  (answers_adminPrepare hclosed hv).bind fun _ => answers_renderAdmin hclosed _ _ _

theorem answers_captcha : (Captcha.main e).Within calls (Answers S O locale d) :=
  (Answers.sessionSet _ _).bind fun _ => (Answers.setHeader _ _).bind fun _ =>
    Answers.write (hclosed.displays _ (.captcha _))

theorem answers_configRender (f : ConfigForm) :
    (Config.render e f).Within calls (Answers S O locale d) := by
  refine Answers.writeOwn fun o ho => ?_
  rw [ho]
  exact hclosed.displays _ (.config _ _ _)

theorem answers_configVersion : (Config.version e).Within calls (Answers S O locale d) := by
  refine (Answers.query _).bind fun r => .ite (Answers.setRedirectHeader _) (Answers.writeOwn fun o ho => ?_)
  rw [ho]
  exact hclosed.displays _ (.configVersion _ _ _)

theorem answers_sendFile (show64 : Int → String) (content : List UInt8) (mtime : Nat) :
    (sendFile e show64 content mtime).Within calls (Answers S O locale d) :=
  Prog.Within.bind (.ite (Answers.setHeader _ _) (.ret _)) fun _ =>
    (Answers.setHeader _ _).bind fun _ => (Answers.setHeader _ _).bind fun _ =>
    (Answers.setHeader _ _).bind fun _ => (Answers.setHeader _ _).bind fun _ =>
    (Answers.setHeader _ _).bind fun _ => (Answers.setHeader _ _).bind fun _ =>
    (Answers.setHeader _ _).bind fun _ => (Answers.setHeader _ _).bind fun _ =>
    (Answers.setHeader _ _).bind fun _ =>
    Prog.Within.bind (.ite (Answers.modifyOwn fun _ => ⟨rfl, rfl⟩) (.ret _)) fun _ =>
    Answers.write (hclosed.displays _ (.file _))

theorem answers_serveFile (show64 : Int → String) (path : String) :
    (serveFile e show64 path).Within calls (Answers S O locale d) := by
  refine (Answers.files _).bind fun r => ?_
  split
  · exact Answers.makeErrorResponse hclosed
  · exact answers_sendFile hclosed _ _ _
  · exact answers_sendFile hclosed _ _ _

theorem answers_media (path : String) :
    (Media.prepare e path).Within calls (Answers S O locale d) :=
  .ite (Answers.makeErrorResponse hclosed)
    ((Answers.setHeader _ _).bind fun _ => answers_serveFile hclosed _ _)

theorem answers_download (hv : Versioned d) (md5 size name : String) :
    (Download.prepare e md5 size name).Within calls (Answers S O locale d) :=
  (Answers.of_notes (notes_basicPrepare hclosed hv)).bind fun _ =>
    (within_uploadPath e _ _).bind fun _ => (within_extension _).bind fun _ =>
    (Answers.setHeader _ _).bind fun _ => (Answers.setHeader _ _).bind fun _ =>
    answers_serveFile hclosed _ _

theorem answers_login (hv : Versioned d) : (Users.prepare e).Within calls (Answers S O locale d) := by
  refine Answers.resetSession.bind fun _ => Answers.sessionClear.bind fun _ =>
    .ite ?_ (answers_adminPage hclosed hv _ _)
  refine (Answers.loadForm e _).bind fun form => .ite (answers_adminPage hclosed hv _ _) ?_
  refine ((Answers.query _).bind fun _ => .ret _).bind fun r => ?_
  split
  · exact (Answers.sessionSet _ _).bind fun _ => (Answers.sessionSet _ _).bind fun _ =>
      Answers.setRedirectHeader _
  · exact answers_adminPage hclosed hv _ _

theorem answers_usersList (hv : Versioned d) (page : Int) :
    (Users.list e page).Within calls (Answers S O locale d) :=
  (Answers.query _).bind fun _ => (Answers.query _).bind fun _ =>
    (answers_adminPrepare hclosed hv).bind fun _ => answers_renderAdmin hclosed _ _ _

theorem answers_adminSummary (hv : Versioned d) (page : Int) :
    (AdminSummary.prepare e page).Within calls (Answers S O locale d) :=
  (answers_adminPrepare hclosed hv).bind fun _ => (Answers.query _).bind fun _ =>
    (Answers.query _).bind fun _ => (Answers.query _).bind fun _ =>
    (Answers.query _).bind fun _ => (Answers.query _).bind fun _ =>
    answers_renderAdmin hclosed _ _ _

theorem answers_caching (hv : Versioned d) :
    (Caching.prepare e).Within calls (Answers S O locale d) :=
  Prog.Within.bind (.ite (Answers.cache fun _ _ hx => absurd hx List.not_mem_nil) (.ret _)) fun _ =>
    (Answers.cache fun _ _ hx => hx).bind fun _ => answers_adminPage hclosed hv _ _

end

instance : AllowsFiles (Answers S O locale d) where
  files := Answers.files

theorem answers_upload (hclosed : Closed e locale S d O) (hv : Versioned d) :
    (Upload.prepare e).Within calls (Answers S O locale d) :=
  within_upload e (answers_adminPrepare hclosed hv) fun _ _ =>
    (Answers.setHeader _ _).bind fun _ => Answers.write (hclosed.displays _ (.json _ _))

end CppBlog
