import CppBlog.CachedRuns
import CppBlog.Logins

set_option autoImplicit false

/-! # Categories that are not there

A listing checks the number of its category twice: against the largest one and by the name, both of which
are cached. The name of a category that is not there is cached too, as an empty frame, and the creation
of a category does not rise the trigger of that frame: the new category is answered 404 as long as the
frame is cached. As long as no category is created under such a frame, the answer is right. -/

namespace CppBlog

open Effect Store App

/-! ## The tables -/

/-- Every category has a name. -/
def Named (d : Db) : Prop := ∀ c ∈ d.cats.rows, c.name ≠ ""

theorem Named.step {e : Env} {d d' : Db} {ts : List String} (h : Named d)
    (hstep : Invalidates e d ts d') : Named d' := by
  intro c hc
  cases hstep.cats with
  | same hcats =>
    rw [hcats] at hc
    exact h c hc
  | create hname hd _ =>
    rw [(Db.insertCat_eq_ok hd).2] at hc
    rcases List.mem_append.1 hc with hc | hc
    · exact h c hc
    · rw [List.mem_singleton.1 hc]
      exact hname
  | rename hname hd _ =>
    subst hd
    obtain ⟨c', hc', rfl⟩ := AutoTable.mem_update_rows.1 hc
    split
    · exact hname
    · exact h c' hc'
  | remove hd _ =>
    rw [hd] at hc
    exact h c (AutoTable.mem_delete_rows.1 hc).1

theorem selectCatName_eq_none {d : Db} {k : Int} :
    d.selectCatName k = none ↔ ∀ c ∈ d.cats.rows, c.id ≠ k := by
  rw [Db.selectCatName, Option.map_eq_none_iff, Table.find?_eq_none]

theorem selectCatName_isSome {d : Db} {k : Int} :
    (d.selectCatName k).isSome ↔ ∃ c ∈ d.cats.rows, c.id = k := by
  rw [← not_iff_not, Bool.not_eq_true, Option.isSome_eq_false_iff, Option.isNone_iff_eq_none,
    selectCatName_eq_none]
  push Not
  rfl

/-- The name of a category is not empty. -/
theorem Named.isEmpty {d : Db} (h : Named d) {k : Int} (hk : (d.selectCatName k).isSome) :
    ((d.selectCatName k).getD "").isEmpty = false := by
  obtain ⟨name, hname⟩ := Option.isSome_iff_exists.1 hk
  obtain ⟨c, hc, rfl⟩ := Option.map_eq_some_iff.1 hname
  rw [hname, Option.getD_some]
  simpa using h c ((Table.find?_eq_some _ _ _).1 hc).1

/-- The largest number of a category, read back as the check of a listing does. -/
theorem le_atoi_maxCatId {d : Db} {k : Int} (hk : (d.selectCatName k).isSome) :
    k ≤ Text.atoi ((d.selectMaxCatId.map toString).getD "") := by
  obtain ⟨c, hc, rfl⟩ := selectCatName_isSome.1 hk
  have hsome : d.selectMaxCatId.isSome := List.isSome_max?_of_mem (List.mem_map_of_mem hc)
  obtain ⟨m, hmax⟩ := Option.isSome_iff_exists.1 hsome
  obtain ⟨hmem, hle⟩ := List.max?_eq_some_iff.1 hmax
  obtain ⟨c', hc', rfl⟩ := List.mem_map.1 hmem
  have hpos := d.cats.key_pos c' hc'
  have hseq := d.cats.le_seq c' hc'
  have hbound : d.cats.seq ≤ 2147483647 := d.cats.seq_le
  rw [hmax, Option.map_some, Option.getD_some, Text.atoi_toString (by omega) (by omega)]
  exact hle _ (List.mem_map_of_mem hc)

/-! ## What is cached about categories -/

/-- The family of what listings ask about categories: the largest number, the names, and that a page of
    a category is cached only while there is the category. -/
def categoryFamily : Family
  | d, .maxCatId, v, ts => v = .frame ((d.selectMaxCatId.map toString).getD "") ∧ "cats" ∈ ts
  | d, .catName k, v, ts => v = .frame ((d.selectCatName k).getD "") ∧ catKey k ∈ ts
  | d, .page _ (.summary k _ _), _, ts => k ≠ 0 → (d.selectCatName k).isSome ∧ catKey k ∈ ts
  | _, _, _, _ => True

theorem categoryFamily_renders {e : Env} {l : Nat} {d : Db} {o : CachedObject} {v : Cached}
    {ts : List String} (ho : Renders e l categoryFamily d o v ts) : categoryFamily d o v ts := by
  cases ho with
  | maxCatId hts => exact ⟨rfl, hts⟩
  | catName hts => exact ⟨rfl, hts⟩
  | page hshows _ =>
    cases hshows with
    | summary _ _ _ hkey hname _ _ _ _ _ =>
      intro hk
      obtain ⟨⟨us, -, hS, -⟩, hne⟩ := hname hk
      obtain rfl := Cached.frame.inj hS
      refine ⟨?_, hkey⟩
      cases hsome : d.selectCatName _ with
      | some name => rfl
      | none => simp [hsome] at hne
    | _ => trivial
  | _ => trivial

/-- The cache knows the name of a category, or that there is none. -/
def NameCached (k : Int) (c : Cache) : Prop := ∃ x ∈ c, x.key = (CachedObject.catName k).key

/-- What is cached about categories is still right after a step that does not create a category whose
    missing name is cached. -/
theorem categoryFamily_survives {e : Env} {d d' : Db} {c : Cache}
    (hnew : d'.cats.seq ≠ d.cats.seq → ¬NameCached (d.cats.seq + 1) c) :
    SurvivesTo categoryFamily e d d' c := by
  intro us hstep x hx o ho hS hus
  -- an object that depends on the categories as they were, unless it depends on a trigger risen
  have hsame (hmax : "cats" ∉ us → d'.selectMaxCatId = d.selectMaxCatId)
      (hname : ∀ k, o = .catName k → catKey k ∉ us → d'.selectCatName k = d.selectCatName k)
      (hsome : ∀ k, catKey k ∉ us → (d.selectCatName k).isSome → (d'.selectCatName k).isSome) :
      categoryFamily d' o x.value x.triggers := by
    cases o with
    | maxCatId =>
      obtain ⟨hv, hts⟩ := hS
      exact ⟨by rw [hmax fun h => hus _ h hts]; exact hv, hts⟩
    | catName k =>
      obtain ⟨hv, hts⟩ := hS
      exact ⟨by rw [hname k rfl fun h => hus _ h hts]; exact hv, hts⟩
    | page g view =>
      cases view with
      | summary k n q =>
        intro hk
        obtain ⟨hrow, hts⟩ := hS hk
        exact ⟨hsome k (fun h => hus _ h hts) hrow, hts⟩
      | _ => trivial
    | _ => trivial
  cases hstep.cats with
  | same hcats =>
    have hselect (k : Int) : d'.selectCatName k = d.selectCatName k := by
      rw [Db.selectCatName, Db.selectCatName, hcats]
    refine hsame (fun _ => ?_) (fun k _ _ => hselect k) fun k _ h => ?_
    · rw [Db.selectMaxCatId, Db.selectMaxCatId, hcats]
    · rw [hselect k]
      exact h
  | create hname hd hts =>
    obtain ⟨t, ht, rfl⟩ := Option.map_eq_some_iff.1 (Db.orRefuse_eq_ok.1 hd)
    have hseq : t.seq ≠ d.cats.seq := by
      rw [(AutoTable.insert?_eq_some ht).2.2]
      omega
    have hfind (k : Int) (hk : k ≠ d.cats.seq + 1) : t.find? k = d.cats.find? k := by
      rw [AutoTable.find?_insert ht, if_neg hk]
    refine hsame (fun h => absurd (hts ▸ List.mem_cons_self) h) (fun k hko _ => ?_) fun k _ h => ?_
    · -- the frame of the new number is not cached
      have hk : k ≠ d.cats.seq + 1 := by
        rintro rfl
        exact hnew hseq ⟨x, hx, hko ▸ ho⟩
      exact congrArg (Option.map Cat.name) (hfind k hk)
    · obtain ⟨name, hname⟩ := Option.isSome_iff_exists.1 h
      obtain ⟨r, hr, -⟩ := Option.map_eq_some_iff.1 hname
      rw [Db.selectCatName, AutoTable.find?_insert_of_some ht hr]
      rfl
  | rename hname hd hts =>
    rename_i id name
    subst hd hts
    have hselect (k : Int) (hk : catKey k ∉ ["cats", catKey id]) :
        (d.updateCat id name).selectCatName k = d.selectCatName k := by
      refine congrArg (Option.map Cat.name) (AutoTable.find?_update_ne ?_)
      rintro rfl
      exact hk (by simp)
    refine hsame (fun h => absurd List.mem_cons_self h) (fun k _ hk => hselect k hk) fun k hk h => ?_
    rw [hselect k hk]
    exact h
  | remove hd hts =>
    rename_i id
    have hselect (k : Int) (hk : catKey k ∉ us) : d'.selectCatName k = d.selectCatName k := by
      rw [Db.selectCatName, Db.selectCatName, hd]
      refine congrArg (Option.map Cat.name) (AutoTable.find?_delete_ne ?_)
      rintro rfl
      exact hk (by simp [hts])
    refine hsame (fun h => absurd (hts ▸ List.mem_cons_self) h) (fun k _ hk => hselect k hk)
      fun k hk h => ?_
    rw [hselect k hk]
    exact h

/-! ## A category that is there -/

/-- The status of the response is as before, or that of a redirection. -/
def Redirects (s s' : St) : Prop :=
  s'.own.response.status = s.own.response.status ∨ s'.own.response.status = 302

instance : IsPreorder St Redirects where
  refl _ := .inl rfl
  trans _ _ _ h h' := by
    rcases h' with h' | h'
    · rcases h with h | h
      · exact .inl (h'.trans h)
      · exact .inr (h'.trans h)
    · exact .inr h'

namespace Redirects

variable {α β : Type}

theorem of_response {s s' : St} (h : s'.own.response = s.own.response) : Redirects s s' :=
  .inl (by rw [h])

theorem own {f : Own → β × Own}
    (h : ∀ o, (f o).2.response.status = o.response.status ∨ (f o).2.response.status = 302) :
    (Prog.perform (.own f) : App β).Within calls Redirects := fun s => wp_own.2 (h s.own)

theorem cache (f : Cache → β × Cache) : (App.cache f).Within calls Redirects :=
  fun _ => wp_cache.2 (.inl rfl)

theorem storePage (e : Env) (key : String) : (App.storePage e key).Within calls Redirects :=
  (own fun _ => .inl rfl).bind fun _ => (own fun _ => .inl rfl).bind fun _ => cache _

end Redirects

/-- Where the tables are `d` and the cache is as the family says, the part keeps the status but for a
    redirection. -/
def Keeps (l : Nat) (d : Db) (p : App Unit) : Prop :=
  ∀ s, Ready l categoryFamily d s → p.wp calls (fun _ => Redirects s) (fun _ => Redirects s) s

namespace Keeps

variable {α : Type} {l : Nat} {d : Db} {e : Env}

theorem of_within {p : App Unit} (hp : p.Within calls Redirects) : Keeps l d p := fun s _ => hp s

/-- What is read before. -/
theorem bind {R : α → List String → Prop} {p : App α} {k : α → App Unit}
    (hp : Notes categoryFamily l d R p) (hk : ∀ a ts, R a ts → Keeps l d (k a)) :
    Keeps l d (p.bind k) := by
  intro s hs
  refine Prog.wp_seq (hp s hs) (fun a s' h => ?_) (fun _ s' h => .of_response h.2)
  obtain ⟨hs', ts, hts, hR⟩ := h
  have hresponse := Redirects.of_response hts.response
  exact Prog.wp_mono (fun _ _ h => IsTrans.trans _ _ _ hresponse h)
    (fun _ _ h => IsTrans.trans _ _ _ hresponse h) (hk a ts hR s' hs')

/-- A page that is looked up in the page cache first. -/
theorem fetchPage {key : String} {p : App Unit} (hp : Keeps l d p) :
    Keeps l d ((App.fetchPage e key).bind fun hit => if hit then .ret () else p) := by
  intro s hs
  simp only [App.fetchPage, Prog.bind_assoc, Prog.wp_bind, wp_cache]
  cases s.cache.fetch (pageKey e key) with
  | none => exact hp s hs
  | some x =>
    dsimp only
    split
    · rw [Prog.wp_bind, wp_modifyResponse]
      exact .inl rfl
    · exact .inl rfl

end Keeps

section

variable {e : Env} {l : Nat} {d : Db}

theorem closed_categoryFamily : Closed e l categoryFamily d (fun _ => True) :=
  .of_renders fun _ _ _ => categoryFamily_renders

theorem keeps_list (hv : Versioned d) (key : String) (catId page : Int) (name q : String) :
    Keeps l d (Summary.list e key catId page name q) := by
  refine .bind (notes_pageRecords closed_categoryFamily catId q) fun n _ _ => ?_
  dsimp only
  split
  · exact .of_within (Redirects.own fun _ => .inr rfl)
  · refine .bind (Notes.query _) fun rows _ _ => ?_
    refine .bind (Notes.addTriggers _) fun _ _ _ => ?_
    refine .bind (notes_basicPrepare (e := e) closed_categoryFamily hv) fun info _ _ => ?_
    have hcats : Notes categoryFamily l d (fun _ _ => True)
        (if rows.isEmpty then .ret [] else query (Db.selectCatsOfPosts (rows.map SummaryRow.id))) := by
      split
      · exact (Notes.ret _).mono fun _ _ _ => trivial
      · exact (Notes.query _).mono fun _ _ _ => trivial
    refine .bind hcats fun cats _ _ => ?_
    refine .bind (notes_renderMaster closed_categoryFamily info) fun master _ _ => ?_
    exact .of_within ((Redirects.own fun _ => .inl rfl).bind fun _ => Redirects.storePage e key)

/-- The check of the number lets a category pass that is there. -/
theorem notes_checkMaxCatId {k : Int} (hk : (d.selectCatName k).isSome) :
    Notes categoryFamily l d (fun ok _ => ok = true) (Summary.checkMaxCatId k) := by
  have hret : Notes categoryFamily l d (fun ok _ => ok = true) (.ret true : App Bool) :=
    (Notes.ret true).mono fun _ _ h => h.1
  unfold Summary.checkMaxCatId
  split
  · refine (Notes.fetch .maxCatId).bind fun r ts hr => ?_
    rcases hr with ⟨rfl, rfl⟩ | ⟨v, rfl, hv, -⟩
    · refine (Notes.query _).bind fun m ts h => ?_
      obtain ⟨rfl, rfl⟩ := h
      refine (Notes.store (o := .maxCatId) ⟨rfl, ?_⟩).bind fun _ _ _ => hret
      exact TriggerCache.mem_storedTriggers.2 (.inr (by simp))
    · subst hv
      dsimp only
      rw [if_neg (by have := le_atoi_maxCatId hk; omega)]
      exact hret
  · exact hret

/-- A category that is there is never answered 404. -/
theorem keeps_summary (hv : Versioned d) (hnamed : Named d) {k : Int} (hk : 0 < k)
    (hrow : (d.selectCatName k).isSome) : Keeps l d (Summary.prepare e k 0) := by
  unfold Summary.prepare
  dsimp only
  rw [if_neg (by omega), if_neg (by omega)]
  refine .bind (notes_checkMaxCatId hrow) fun ok _ hok => ?_
  rw [hok, if_neg (by simp)]
  refine .fetchPage ?_
  refine .bind (Notes.addTriggers _) fun _ _ _ => ?_
  rw [if_pos (by omega)]
  refine .bind (notes_categoryName (e := e) closed_categoryFamily k) fun name ts hname => ?_
  obtain ⟨us, -, hS, -⟩ := hname
  obtain rfl := Cached.frame.inj hS
  rw [if_neg (by simp [hnamed.isEmpty hrow])]
  exact keeps_list hv _ _ _ _ _

end

/-! ## A category that is not there -/

section

variable {α : Type} {E : Error → St → Prop} {e : Env} {l : Nat} {d : Db} {s : St}

/-- An object that may be cached. -/
theorem wp_fetch_sure {key : String} {Q : Option Cached → St → Prop}
    (hmiss : s.cache.fetch key = none → Q none s)
    (hhit : ∀ x s', s.cache.fetch key = some x → Unseen [] s s' → Q (some x.value) s') :
    (fetch key).wp sure Q E s := by
  rw [fetch, Prog.wp_bind, Sure.wp_cache]
  dsimp only
  cases hx : s.cache.fetch key with
  | none => exact hmiss hx
  | some x =>
    dsimp only
    rw [Prog.wp_bind]
    exact wp_addTriggers_sure fun s' h' => hhit x s' hx h'

/-- A category that is not there is answered 404. -/
theorem wp_summary_missing {k : Int} (hs : Ready l categoryFamily d s) (hk : 0 < k)
    (hrow : d.selectCatName k = none) (hq : e.req.getValue "q" = "") :
    (Summary.prepare e k 0).wp sure (fun _ s' => s'.own.response.status = 404) (fun _ _ => False) s := by
  have hpage (s' : St) (h : Unseen ["max_cat_id"] s s') :
      s'.cache.fetch (pageKey e (Summary.key k 0 "")) = none := by
    have hkey : (CachedObject.page e.req.gzip (.summary k 0 "")).key ∉ ["max_cat_id"] := fun hmem =>
      pagePrefix_append_ne _ _ (by decide) (List.mem_singleton.1 hmem)
    rw [← CachedPage.key, pageKey_eq, h.cache _ hkey]
    cases hx : s.cache.fetch (CachedObject.page e.req.gzip (.summary k 0 "")).key with
    | none => rfl
    | some x =>
      have hS := (hs.cache.fetch hx) (by omega : k ≠ 0)
      rw [hrow] at hS
      exact absurd hS.1 (by simp)
  have h404 (s' : St) : (makeErrorResponse 404).wp sure
      (fun _ s' => s'.own.response.status = 404) (fun _ _ => False) s' := Sure.wp_modifyResponse.2 rfl
  -- the name is looked up behind a check of the number that has passed
  have hname (s' : St) (h : Unseen ["max_cat_id"] s s') : (Summary.categoryName k).wp sure
      (fun name _ => name = "") (fun _ _ => False) s' := by
    have hkey : (CachedObject.catName k).key ∉ ["max_cat_id"] := fun hmem =>
      absurd (@CachedObject.key_injective _ .maxCatId (List.mem_singleton.1 hmem)) (by simp)
    rw [Summary.categoryName, Prog.wp_bind]
    refine wp_fetch_sure (fun _ => ?_) fun x s₁ hx _ => ?_
    · dsimp only
      rw [Prog.wp_bind, Sure.wp_query, St.current_of_none (h.tx.trans hs.tx), h.db, hs.db, hrow, Prog.wp_bind]
      exact wp_store_sure fun _ _ => rfl
    · have hx' : s.cache.fetch (CachedObject.catName k).key = some x := (h.cache _ hkey).symm.trans hx
      obtain ⟨hvalue, -⟩ := hs.cache.fetch hx'
      rw [hvalue, hrow]
      rfl
  have hrest (s' : St) (h : Unseen ["max_cat_id"] s s') :
      ((fetchPage e (Summary.key k 0 "")).bind fun hit => if hit then .ret ()
        else (addTrigger (catKey k)).bind fun _ =>
          if k ≠ 0 then (Summary.categoryName k).bind fun name =>
            if name.isEmpty then makeErrorResponse 404
            else Summary.list e (Summary.key k 0 "") k 0 name ""
          else Summary.list e (Summary.key k 0 "") k 0 "" "").wp sure
        (fun _ s' => s'.own.response.status = 404) (fun _ _ => False) s' := by
    rw [Prog.wp_bind, wp_fetchPage_miss (hpage s' h), if_neg (by simp), addTrigger, Prog.wp_bind]
    refine wp_addTriggers_sure fun s₁ h₁ => ?_
    rw [if_pos (by omega)]
    refine Prog.wp_seq (hname s₁ ((h.trans h₁).mono (by simp))) (fun name s₂ hempty => ?_) fun _ _ h => h
    rw [hempty, if_pos (by simp)]
    exact h404 s₂
  unfold Summary.prepare
  dsimp only
  rw [if_neg (by omega), if_neg (by omega), hq, Summary.checkMaxCatId, if_pos hk, Prog.bind_assoc, Prog.wp_bind]
  refine wp_fetch_sure (fun _ => ?_) fun x s₁ hx h₁ => ?_
  · dsimp only
    rw [Prog.bind_assoc, Prog.wp_bind, Sure.wp_query, Prog.bind_assoc, Prog.wp_bind]
    refine wp_store_sure fun s₁ h₁ => ?_
    exact hrest s₁ h₁
  · obtain ⟨hvalue, -⟩ := hs.cache.fetch (o := .maxCatId) hx
    rw [hvalue]
    dsimp only
    split
    · rw [Prog.bind_assoc, Prog.wp_bind]
      exact Prog.wp_mono (fun _ _ h => h) (fun _ _ h => h) (h404 s₁)
    · exact hrest s₁ (h₁.mono (by simp))

end

/-! ## Requests -/

section

-- a dispatcher is what `dispatch_summary` says
attribute [local irreducible] dispatch

variable {e : Env} {s : St} {k : Int}

theorem within_selectLanguage (e : Env) : (selectLanguage e).Within calls Redirects := by
  have hget {β : Type} (f : Own → β) : (getOwn f).Within calls Redirects := Redirects.own fun _ => .inl rfl
  unfold selectLanguage
  refine Prog.Within.bind (Redirects.own fun _ => .inl rfl) fun _ =>
    Prog.Within.bind (hget _) fun known => ?_
  have hsame : (if known then (sessionGetInt "nlang").bind fun n => .ret (n = nlang e : Bool)
      else .ret false : App Bool).Within calls Redirects := by
    refine .ite (Prog.Within.bind ?_ fun _ => .ret _) (.ret _)
    refine ((hget _).bind fun v => ?_).bind fun v => ?_
    · cases v
      · exact .throw _
      · exact .ret _
    · cases Text.readInt? v
      · exact .throw _
      · exact .ret _
  refine hsame.bind fun same => .ite (.ret _) ?_
  exact Prog.Within.bind (Redirects.own fun _ => .inl rfl) fun _ => Redirects.cache _

/-- The request for the first page of a category that is there is not answered 404. -/
theorem serve_category_found {site : Site} {a : Arrival} {w : World} (hv : Versioned w.shared.db)
    (hnamed : Named w.shared.db) (hcache : Sound categoryFamily w.shared.db w.shared.cache) (hk : 0 < k)
    (hroute : routedToSummary (site.env a) = some (k, 0)) (hrow : (w.shared.db.selectCatName k).isSome) :
    (serve site a w).1.status ≠ 404 := by
  have hmain : (main (site.env a)).wp calls (fun _ s' => Redirects (w.start a) s')
      (fun _ s' => Redirects (w.start a) s') (w.start a) := by
    refine Prog.wp_seq (Prog.wp_and (wp_selectLanguage_cache _ _) (within_selectLanguage _ _))
      (fun _ s₁ h₁ => ?_) fun _ _ h => h.2
    obtain ⟨hsel, hstatus⟩ := h₁
    have hready : Ready (nlang (site.env a)) categoryFamily w.shared.db s₁ :=
      { db := hsel.db, tx := hsel.tx, locale := hsel.locale
        cache := hsel.cache ▸ TriggerCache.Valid.subset hcache fun x => mem_of_keptCache }
    rw [dispatch_summary hroute, Prog.wp_tryCatch]
    refine Prog.wp_mono (fun _ s₂ h => IsTrans.trans _ _ _ hstatus h) (fun err s₂ h => ?_)
      (keeps_summary hv hnamed hk hrow s₁ hready)
    have h₂ : Redirects (w.start a) s₂ := IsTrans.trans _ _ _ hstatus h
    have hredirect (location : String) : (setRedirectHeader location).wp calls
        (fun _ => Redirects (w.start a)) (fun _ => Redirects (w.start a)) s₂ := by
      rw [wp_setRedirectHeader]
      exact .inr rfl
    split
    · exact hredirect _
    · exact hredirect _
    · exact h₂
  have hends := Prog.Ends.of_both (ends_outcome hmain)
  have hstatus : (outcome site a w).2.2.own.response.status ≠ 404 := by
    rcases hends with h | h
    · intro h404
      have h200 : (outcome site a w).2.2.own.response.status = 200 := h
      omega
    · intro h404
      have h302 : (outcome site a w).2.2.own.response.status = 302 := h
      omega
  have hfinish : (serve site a w).1 = finish (outcome site a w).1 (outcome site a w).2.2.own.response :=
    rfl
  rw [hfinish]
  unfold finish
  split
  · exact hstatus
  · rename_i err _
    split
    · cases err <;> simp [Error.status]
    · exact hstatus

/-- The request for the first page of a category that is not there is answered 404. -/
theorem serve_category_missing {site : Site} {a : Arrival} {w : World}
    (hlang : Executed.Readable (w.session a.req.sid))
    (hcache : Sound categoryFamily w.shared.db w.shared.cache) (hk : 0 < k)
    (hroute : routedToSummary (site.env a) = some (k, 0)) (hq : (site.env a).req.getValue "q" = "")
    (hcalm : a.chance.faults = []) (hrow : w.shared.db.selectCatName k = none) :
    (serve site a w).1.status = 404 := by
  have hmain : (main (site.env a)).wp sure (fun _ s' => s'.own.response.status = 404)
      (fun _ _ => False) (w.start a) := by
    refine Prog.wp_seq (Sure.wp_of_calls (wp_selectLanguage_readable hlang)) (fun _ s₁ h₁ => ?_)
      fun _ _ h => h
    have hready : Ready (nlang (site.env a)) categoryFamily w.shared.db s₁ :=
      { db := h₁.db, tx := h₁.tx, locale := h₁.locale
        cache := h₁.cache ▸ TriggerCache.Valid.subset hcache fun x => mem_of_keptCache }
    rw [dispatch_summary hroute, Prog.wp_tryCatch]
    exact Prog.wp_mono (fun _ _ h => h) (fun _ _ h => absurd h id)
      (wp_summary_missing hready hk hrow hq)
  have hends := ends_outcome_sure hcalm hmain
  have hfinish : (serve site a w).1 = finish (outcome site a w).1 (outcome site a w).2.2.own.response :=
    rfl
  cases hr : (outcome site a w).1 with
  | ok u =>
    rw [hr] at hends
    rw [hfinish, hr]
    exact hends
  | error err =>
    rw [hr] at hends
    exact absurd hends id

end

/-! ## Runs -/

/-- The request creates a category while the cache says that there is none of its number. -/
def CreatesUnderFrame (site : Site) (w : World) (a : Arrival) : Prop :=
  (serve site a w).2.shared.db.cats.seq ≠ w.shared.db.cats.seq ∧
    NameCached (w.shared.db.cats.seq + 1) (w.kept site a)

/-- **The first page of a category is answered 404 exactly if there is no such category**, in every run
    from an empty cache in which no request creates a category whose missing name is cached. -/
theorem category_missing_iff {site : Site} {w : World} (hw : Reachable site w)
    (hempty : w.shared.cache = []) {events : List Event}
    (h : EachRequest site (fun w a => ¬CreatesUnderFrame site w a) w events) {a : Arrival} {k : Int}
    (hk : 0 < k) (hroute : routedToSummary (site.env a) = some (k, 0))
    (hq : (site.env a).req.getValue "q" = "") :
    let w' := run site events w
    (a.chance.faults = [] → ((serve site a w').1.status = 404 ↔ ∀ c ∈ w'.shared.db.cats.rows, c.id ≠ k)) ∧
      ((serve site a w').1.status = 404 → ∀ c ∈ w'.shared.db.cats.rows, c.id ≠ k) := by
  intro w'
  have hinv := hw.tables (J := Named) (fun _ hc => absurd hc List.not_mem_nil)
    fun _ _ _ _ h hstep => h.step hstep
  have hstart : Cached.Inv categoryFamily Named w :=
    ⟨hinv.versioned, hinv.tables, fun x hx => absurd (hempty ▸ hx) List.not_mem_nil⟩
  have hw' : Cached.Inv categoryFamily Named w' :=
    run_cached (fun _ _ _ _ _ h hstep => h.step hstep) (fun _ _ _ _ _ _ _ _ => categoryFamily_renders)
      (fun w a hP _ => categoryFamily_survives fun hseq hname => hP ⟨hseq, hname⟩) hstart h
  have hreadable : Executed.Readable (w'.session a.req.sid) := (hw.run events).readable _
  have hrow : (serve site a w').1.status = 404 → ∀ c ∈ w'.shared.db.cats.rows, c.id ≠ k := by
    intro h404
    rw [← selectCatName_eq_none]
    by_contra hsome
    exact serve_category_found hw'.versioned hw'.tables hw'.cache hk hroute
      (Option.isSome_iff_ne_none.2 hsome) h404
  refine ⟨fun hcalm => ⟨hrow, fun hnone => ?_⟩, hrow⟩
  exact serve_category_missing hreadable hw'.cache hk hroute hq hcalm (selectCatName_eq_none.2 hnone)

/-- A visitor has asked for the first category, the cache has lost what it kept of it, and the category
    was created. -/
def evictedEvents : List Event :=
  [.request (.configure "b" "bob"), .request (.login "b" "bob"), .request (.get "b" "/admin"),
   .request (.get "v" "/"), .request (.get "v" "/cat/1"), .evict ["cat_name_1"],
   .request (.post "b" "/admin/categories" [("cat", "News")])]

instance (k : Int) (c : Cache) : Decidable (NameCached k c) :=
  inferInstanceAs (Decidable (∃ x ∈ c, _))

instance (site : Site) (w : World) (a : Arrival) : Decidable (CreatesUnderFrame site w a) :=
  inferInstanceAs (Decidable (_ ∧ _))

theorem category_missing_iff_evicted :
    let w' := run .sample evictedEvents (World.fresh [])
    (serve .sample (.get "v" "/cat/1") w').1.status = 404 ↔ ∀ c ∈ w'.shared.db.cats.rows, c.id ≠ 1 := by
  have hevents : EachRequest .sample (fun w a => ¬CreatesUnderFrame .sample w a) (World.fresh [])
      evictedEvents := by
    unfold evictedEvents
    exact ⟨by decide, by decide, by decide, by decide, by decide, by decide, trivial⟩
  exact (category_missing_iff (a := .get "v" "/cat/1") ⟨[], [], rfl⟩ rfl hevents (k := 1) (by decide)
    (by decide) (by decide)).1 rfl

/-- The first category is answered 404 although it is there: a visitor has asked for it before it was
    created. -/
theorem category_created_under_frame :
    ¬∀ (site : Site) (w : World) (events : List Event) (a : Arrival) (k : Int), Reachable site w →
      w.shared.cache = [] → 0 < k → routedToSummary (site.env a) = some (k, 0) →
      (site.env a).req.getValue "q" = "" → a.chance.faults = [] →
      ((serve site a (run site events w)).1.status = 404 ↔
        ∀ c ∈ (run site events w).shared.db.cats.rows, c.id ≠ k) := by
  intro h
  have hiff := h .sample (World.fresh [])
    [.request (.configure "b" "bob"), .request (.login "b" "bob"), .request (.get "b" "/admin"),
     .request (.get "v" "/"), .request (.get "v" "/cat/1"),
     .request (.post "b" "/admin/categories" [("cat", "News")])]
    (.get "v" "/cat/1") 1 ⟨[], [], rfl⟩ rfl (by decide) (by decide) (by decide) rfl
  exact absurd hiff (by decide)

end CppBlog
