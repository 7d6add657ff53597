import CppBlog.CachedRuns
import CppBlog.Logins

set_option autoImplicit false

/-! # The locale of what is answered

No cache key names a locale. `select_language` empties the cache when a session gets another language
than the one it remembers, so what is cached is in the language of the last request as long as requests
of different languages do not alternate between sessions that all remember theirs. -/

namespace CppBlog

open Effect Store App

/-! ## What is in a locale -/

/-- The locales the parts of an output were rendered in. -/
def Output.locales : Output → List Nat
  | .blogPost master _ => [master.locale, master.sidebar.locale]
  | .blogPage master _ _ _ => [master.locale, master.sidebar.locale]
  | .blogSummary master _ => [master.locale, master.sidebar.locale]
  | .feedPosts master _ _ => [master.locale]
  | .feedComments master _ => [master.locale]
  | .admin master _ => [master.locale]
  | .config locale _ _ _ => [locale]
  | .configVersion locale _ _ _ => [locale]
  | _ => []

/-- All parts of the output are in the locale. -/
def Output.InLocale (l : Nat) (out : Output) : Prop := ∀ l' ∈ out.locales, l' = l

/-- The locales of the parts of a cached object. -/
def Cached.locales : Cached → List Nat
  | .page body => body.flatMap Output.locales
  | .sidebar s => [s.locale]
  | _ => []

/-- The family of the objects that are in one locale. -/
def localeFamily (l : Nat) : Family := fun _ _ v _ => ∀ l' ∈ v.locales, l' = l

theorem localeFamily_page {l : Nat} {d : Db} {o : CachedObject} {body : List Output} {ts : List String}
    (h : localeFamily l d o (.page body) ts) {out : Output} (hout : out ∈ body) : out.InLocale l :=
  fun l' hl' => h l' (List.mem_flatMap.2 ⟨out, hout, hl'⟩)

/-- The part around the content of a blog page, with a side bar in the locale. -/
theorem locale_of_master {e : Env} {l : Nat} {d : Db} {info : GeneralInfo} {ts : List String}
    {master : MasterPage} (h : MasterOf e l (localeFamily l) d info ts master) :
    ∀ l' ∈ [master.locale, master.sidebar.locale], l' = l := by
  obtain ⟨sidebar, ⟨us, -, hS⟩, rfl⟩ := h
  intro l' hl'
  rcases List.mem_pair.1 hl' with rfl | rfl
  · rfl
  · exact hS _ (List.mem_singleton.2 rfl)

/-- What a request renders is in its locale when the side bar it uses is. -/
theorem inLocale_of_shows {e : Env} {l : Nat} {d : Db} {view : CachedPage} {ts : List String} {out : Output}
    (h : Shows e l (localeFamily l) d view ts out) : out.InLocale l := by
  cases h with
  | post _ _ _ _ hmaster => exact locale_of_master hmaster
  | page _ _ _ _ hmaster => exact locale_of_master hmaster
  | summary _ _ _ _ _ _ _ _ _ hmaster => exact locale_of_master hmaster
  | rssPosts _ _ _ => exact fun l' hl' => List.mem_singleton.1 hl'
  | rssCat _ _ _ _ _ => exact fun l' hl' => List.mem_singleton.1 hl'
  | comments _ => exact fun l' hl' => List.mem_singleton.1 hl'

theorem closed_localeFamily (e : Env) (l : Nat) (d : Db) :
    Closed e l (localeFamily l) d (Output.InLocale l) where
  renders o v ts ho := by
    cases ho with
    | page hshows _ =>
      intro l' hl'
      obtain ⟨out, hout, hmem⟩ := List.mem_flatMap.1 hl'
      obtain rfl := List.mem_singleton.1 hout
      exact inLocale_of_shows hshows l' hmem
    | sidebar _ _ => exact fun l' hl' => List.mem_singleton.1 hl'
    | _ => exact fun l' hl' => absurd hl' List.not_mem_nil
  displays out hout := by
    cases hout with
    | page hshows => exact inLocale_of_shows hshows
    | blogPost _ hmaster => exact locale_of_master hmaster
    | blogPage _ _ _ hmaster => exact locale_of_master hmaster
    | admin _ hmaster => exact fun l' hl' => (List.mem_singleton.1 hl').trans hmaster
    | config _ _ _ => exact fun l' hl' => List.mem_singleton.1 hl'
    | configVersion _ _ _ => exact fun l' hl' => List.mem_singleton.1 hl'
    | _ => exact fun l' hl' => absurd hl' List.not_mem_nil
  served g view body ts hS out hout := localeFamily_page hS hout

/-! ## One request -/

/-- Everything in the cache that is in a locale is in this one. -/
def CachedIn (l : Nat) (c : Cache) : Prop := ∀ x ∈ c, ∀ l' ∈ x.value.locales, l' = l

/-- Nothing in the cache is in a locale. -/
def Unlocalized (c : Cache) : Prop := ∀ x ∈ c, x.value.locales = []

/-- What a request finds in the cache in its locale leaves the cache and the answer in its locale. -/
theorem serve_inLocale {site : Site} {a : Arrival} {w : World} (hv : Versioned w.shared.db)
    (hkeys : Sound (fun _ _ _ _ => True) w.shared.db w.shared.cache)
    (hlang : Executed.Readable (w.session a.req.sid))
    (hcache : CachedIn (nlang (site.env a)) (w.kept site a)) :
    CachedIn (nlang (site.env a)) (serve site a w).2.shared.cache ∧
      ∀ out ∈ (serve site a w).1.body, out.InLocale (nlang (site.env a)) := by
  have hsound : Sound (localeFamily (nlang (site.env a))) w.shared.db (w.kept site a) := by
    intro x hx
    obtain ⟨o, ho, -⟩ := hkeys x (mem_of_keptCache hx)
    exact ⟨o, ho, hcache x hx⟩
  have hserve := serve_cached site a hv
    (fun d' _ => closed_localeFamily (site.env a) (nlang (site.env a)) d') hsound
    fun ts d' _ x _ o _ hS _ => hS
  rcases hserve with h | h
  · refine ⟨fun x hx => ?_, h.body⟩
    obtain ⟨o, -, hS⟩ := h.cache x hx
    exact hS
  · exact absurd hlang h.unreadable

/-! ## Runs -/

/-- The language a request finds in the cache: its session does not remember its language and the cache
    is emptied, or nothing in the cache is in a locale, or the request before it had its language. -/
def FindsItsLanguage (site : Site) (last : Option Nat) (w : World) (a : Arrival) : Prop :=
  ¬Remembers (site.env a) (w.session a.req.sid) ∨ Unlocalized w.shared.cache ∨
    last = some (nlang (site.env a))

/-- Every request of a run finds its language; `last` is that of the request before. -/
def FindLanguages (site : Site) : Option Nat → World → List Event → Prop
  | _, _, [] => True
  | last, w, .request a :: events =>
      FindsItsLanguage site last w a ∧
        FindLanguages site (some (nlang (site.env a))) (step site w (.request a)) events
  | last, w, .evict keys :: events => FindLanguages site last (step site w (.evict keys)) events

/-- The requests of a run with what was answered. -/
def responses (site : Site) : World → List Event → List (Arrival × Response)
  | _, [] => []
  | w, .request a :: events => (a, (serve site a w).1) :: responses site (step site w (.request a)) events
  | w, .evict keys :: events => responses site (step site w (.evict keys)) events

/-- What is cached is in the language of the last request. -/
def CachedInLast (last : Option Nat) (c : Cache) : Prop :=
  match last with
  | none => Unlocalized c
  | some l => CachedIn l c

theorem CachedInLast.kept {site : Site} {last : Option Nat} {w : World} {a : Arrival}
    (h : CachedInLast last w.shared.cache) (hfind : FindsItsLanguage site last w a) :
    CachedIn (nlang (site.env a)) (w.kept site a) := by
  intro x hx l' hl'
  rcases hfind with hnew | hempty | rfl
  · rw [World.kept, keptCache, if_neg hnew] at hx
    exact absurd hx List.not_mem_nil
  · rw [hempty x (mem_of_keptCache hx)] at hl'
    exact absurd hl' List.not_mem_nil
  · exact h x (mem_of_keptCache hx) l' hl'

theorem CachedInLast.subset {last : Option Nat} {c c' : Cache} (h : CachedInLast last c)
    (hsub : ∀ x ∈ c', x ∈ c) : CachedInLast last c' := by
  cases last with
  | none => exact fun x hx => h x (hsub x hx)
  | some l => exact fun x hx => h x (hsub x hx)

/-- **Everything a run answers is in the locale of the request**, if every request finds its language:
    then what is cached is always in the language of the last request. -/
theorem run_inLocale {site : Site} {w : World} (hw : Reachable site w) (hempty : w.shared.cache = [])
    {events : List Event} (h : FindLanguages site none w events) :
    ∀ x ∈ responses site w events, ∀ out ∈ x.2.body, out.InLocale (nlang (site.env x.1)) := by
  have hrun (last : Option Nat) (w : World) (events : List Event) (hw : Reachable site w)
      (hcache : CachedInLast last w.shared.cache) (h : FindLanguages site last w events) :
      ∀ x ∈ responses site w events, ∀ out ∈ x.2.body, out.InLocale (nlang (site.env x.1)) := by
    induction events generalizing last w with
    | nil => exact fun x hx => absurd hx List.not_mem_nil
    | cons ev events ih =>
      cases ev with
      | request a =>
        have hinv := hw.tables (J := fun _ => True) trivial fun _ _ _ _ _ _ => trivial
        obtain ⟨hcache', hbody⟩ := serve_inLocale hinv.versioned hinv.cache (hw.readable _)
          (hcache.kept h.1)
        intro x hx
        rcases List.mem_cons.1 hx with rfl | hx
        · exact hbody
        · exact ih (some (nlang (site.env a))) _ (hw.step (.request a)) hcache' h.2 x hx
      | evict keys =>
        exact ih last _ (hw.step (.evict keys)) (hcache.subset fun x hx => (TriggerCache.mem_evict.1 hx).1) h
  refine hrun none w events hw (fun x hx => ?_) h
  rw [hempty] at hx
  exact absurd hx List.not_mem_nil

/-- A visitor who reads Chinese asks for the front page. -/
def Arrival.chinese (sid : String) : Arrival :=
  { req := { sid := sid, path := "/", httpAcceptLanguage := "zh" } }

instance (site : Site) (last : Option Nat) (w : World) (a : Arrival) :
    Decidable (FindsItsLanguage site last w a) :=
  inferInstanceAs (Decidable (¬_ ∨ (∀ x ∈ w.shared.cache, _) ∨ _))

theorem run_inLocale_two :
    ∃ x ∈ responses .sample (World.fresh []) [.request (.configure "b" "bob"), .request (.get "v" "/"),
      .request (.chinese "z"), .request (.chinese "z")],
    ∃ out ∈ x.2.body, out.InLocale (nlang (Site.sample.env x.1)) := by
  have hall : ∀ x ∈ responses .sample (World.fresh []) [.request (.configure "b" "bob"),
      .request (.get "v" "/"), .request (.chinese "z"), .request (.chinese "z")],
      ∀ out ∈ x.2.body, out.InLocale (nlang (Site.sample.env x.1)) :=
    run_inLocale ⟨[], [], rfl⟩ rfl ⟨by decide, by decide, by decide, by decide, trivial⟩
  exact ⟨_, List.getLast_mem (by decide), _, List.getLast_mem (by decide),
    hall _ (List.getLast_mem _) _ (List.getLast_mem _)⟩

/-- A visitor who comes back is answered in the language of another visitor. -/
theorem answered_in_other_locale :
    ¬∀ (site : Site) (files : Files) (events : List Event),
      ∀ x ∈ responses site (World.fresh files) events,
        ∀ out ∈ x.2.body, out.InLocale (nlang (site.env x.1)) := by
  intro h
  have hbody := h .sample [] [.request (.configure "b" "bob"), .request (.get "v" "/"),
    .request (.chinese "z"), .request (.get "v" "/")]
  unfold Output.InLocale at hbody
  exact absurd hbody (by decide)

end CppBlog
