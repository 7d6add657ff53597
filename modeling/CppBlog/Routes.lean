import CppBlog.Dispatch

set_option autoImplicit false

/-! # Where a request goes

A dispatcher runs the first entry that matches (`entry`), so the nested dispatchers end at one of
finitely many handlers with the parts of the path as arguments. `Destination` and `AdminDestination`
list them, each with the route that leads to it; every later proof about all requests is a case
analysis on these lists. -/

namespace CppBlog

open Effect App Text

/-! ## The entry that answers -/

/-- Entry `i` of a dispatcher is the first that matches a path; the groups of the match. -/
def entry (routes : List Route) (i : Nat) (path : String) : Option Captures :=
  if (routes.take i).any (fun r => (r.1.full path.toList).isSome) then none
  else (routes[i]?).bind (fun r => r.1.full path.toList)

theorem dispatch_cons (r : Route) (rest : List Route) (path : String) :
    dispatch (r :: rest) path =
      match r.1.full path.toList with
      | some caps => r.2 caps
      | none => dispatch rest path := rfl

theorem entry_zero (r : Route) (rest : List Route) (path : String) :
    entry (r :: rest) 0 path = r.1.full path.toList := by
  simp [entry]

/-- The entries behind one that does not match. -/
theorem entry_succ {r : Route} {path : String} (h : r.1.full path.toList = none)
    (rest : List Route) (i : Nat) : entry (r :: rest) (i + 1) path = entry rest i path := by
  have hsome : (r.1.full path.toList).isSome = false := by rw [h]; rfl
  simp only [entry, List.take_succ_cons, List.any_cons, hsome, Bool.false_or,
    List.getElem?_cons_succ]

/-- A dispatcher runs the entry that answers, or reports that there is none. -/
theorem dispatch_entries {P : App Unit → Prop} (h404 : P (makeErrorResponse 404))
    {routes : List Route} {path : String}
    (h : ∀ i r caps, routes[i]? = some r → entry routes i path = some caps → P (r.2 caps)) :
    P (dispatch routes path) := by
  induction routes with
  | nil => exact h404
  | cons r rest ih =>
    rw [dispatch_cons]
    split
    · rename_i caps hcaps
      exact h 0 r caps rfl ((entry_zero r rest path).trans hcaps)
    · rename_i hnone
      apply ih
      intro i r' caps hr' hcaps
      exact h (i + 1) r' caps hr' ((entry_succ hnone rest i).trans hcaps)

/-- A dispatcher runs the entry that answers. -/
theorem dispatch_entry {routes : List Route} {i : Nat} {r : Route} {path : String} {caps : Captures}
    (hr : routes[i]? = some r) (h : entry routes i path = some caps) : dispatch routes path = r.2 caps := by
  induction routes generalizing i with
  | nil => exact absurd hr (by simp)
  | cons r' rest ih =>
    rw [dispatch_cons]
    cases i with
    | zero =>
      obtain rfl := Option.some.inj hr
      rw [entry_zero] at h
      rw [h]
    | succ i =>
      cases hfull : r'.1.full path.toList with
      | none => exact ih hr ((entry_succ hfull rest i).symm.trans h)
      | some caps' => simp [entry, hfull] at h

/-! ## The routes of the site -/

/-- The part of the path that an entry hands to the application mounted there. -/
def mounted (routes : List Route) (i : Nat) (path : String) : Option String :=
  (entry routes i path).map (fun m => text m 1)

/-- The path `apps::admin` sees. -/
def adminPath (e : Env) : Option String := mounted (siteRoutes e) 2 (routedPath e)

/-- The path `apps::feed` sees. -/
def feedPath (e : Env) : Option String := mounted (siteRoutes e) 3 (routedPath e)

/-- The path `apps::blog` sees: it is mounted last. -/
def blogPath (e : Env) : Option String :=
  mounted (siteRoutes e) ((siteRoutes e).length - 1) (routedPath e)

/-- The path `apps::blog::page` sees. -/
def pagePath (e : Env) : Option String := (blogPath e).bind (mounted (blogRoutes e) 0)

/-- The path `apps::blog::post` sees. -/
def postPath (e : Env) : Option String := (blogPath e).bind (mounted (blogRoutes e) 1)

/-- The path `apps::blog::summary` sees. -/
def summaryPath (e : Env) : Option String :=
  (blogPath e).bind (fun path => (entry (blogRoutes e) 3 path).map (fun m => text m 0))

/-- A request for a captcha image: the first entry matches. -/
def routedToCaptcha (e : Env) : Bool := ((openMountRx "/captcha").full (routedPath e).toList).isSome

/-- The number in the path of a request for `post::display`. -/
def routedToDisplay (e : Env) : Option String := (postPath e).bind (mounted (postRoutes e) 0)

/-- The number in the path of a request for `post::postback`. -/
def routedToPostback (e : Env) : Option String := (postPath e).bind (mounted (postRoutes e) 2)

/-- The number in the path of a request for `page::display`. -/
def routedToPage (e : Env) : Option String := (pagePath e).bind (mounted (pageRoutes e) 0)

/-- The number in the path of a request for `feed_master::cats`. -/
def routedToCats (e : Env) : Option String := (feedPath e).bind (mounted (feedRoutes e) 1)

/-- A request for `feed_master::comments`. -/
def routedToComments (e : Env) : Bool :=
  (feedPath e).any (fun path => (entry (feedRoutes e) 2 path).isSome)

/-- The category and the page of a request for a listing; 0 stands for all posts. -/
def routedToSummary (e : Env) : Option (Int × Int) :=
  (summaryPath e).bind fun path =>
    match entry (summaryRoutes e) 0 path, entry (summaryRoutes e) 2 path,
      entry (summaryRoutes e) 3 path, entry (summaryRoutes e) 4 path with
    | some _, _, _, _ => some (0, 0)
    | none, some m, _, _ => some (0, atoi (text m 1))
    | none, none, some m, _ => some (atoi (text m 1), 0)
    | none, none, none, some m => some (atoi (text m 1), atoi (text m 2))
    | none, none, none, none => none

/-! ## The routes of the administration -/

/-- `/(\d+)/?` -/
def idRx : Rx := .seq (numberRx "/" 1) slashRx

/-- The number in the path of a request for the editor of a post. -/
def routedToEditor (e : Env) : Option String :=
  ((adminPath e).bind (mounted (adminRoutes e) 4)).bind
    (fun path => (idRx.full path.toList).map (fun m => text m 1))

/-- A request for the editor of a new post. -/
def routedToNewPost (e : Env) : Bool :=
  ((adminPath e).bind (mounted (adminRoutes e) 4)).any
    (fun path => (idRx.full path.toList).isNone && (slashRx.full path.toList).isSome)

/-- The number in the path of a request for the editor of a page. -/
def routedToPageEditor (e : Env) : Option String :=
  ((adminPath e).bind (mounted (adminRoutes e) 5)).bind
    (fun path => (idRx.full path.toList).map (fun m => text m 1))

/-- A request for the page of the categories. -/
def routedToCategories (e : Env) : Bool :=
  ((adminPath e).bind (mounted (adminRoutes e) 1)).any
    (fun path => (slashRx.full path.toList).isSome)

/-- The path `apps::admin::users` sees. -/
def usersPath (e : Env) : Option String := (adminPath e).bind (mounted (adminRoutes e) 6)

/-- A request for the page of the cache. -/
def routedToCaching (e : Env) : Bool :=
  ((adminPath e).bind (mounted (adminRoutes e) 0)).any
    (fun path => (slashRx.full path.toList).isSome)

/-- A request for the page that takes uploads. -/
def routedToUpload (e : Env) : Bool :=
  ((adminPath e).bind (mounted (adminRoutes e) 7)).any
    (fun path => (slashRx.full path.toList).isSome)

/-- A request for the login page. -/
def routedToLogin (e : Env) : Bool :=
  (usersPath e).any (fun path => (entry (usersRoutes e) 5 path).isSome)

/-- The number in the path of a request for `users::del`. -/
def routedToUserDel (e : Env) : Option String := (usersPath e).bind (mounted (usersRoutes e) 3)

/-- The number in the path of a request for `users::edit`. -/
def routedToUserEdit (e : Env) : Option String := (usersPath e).bind (mounted (usersRoutes e) 4)

/-! ## Every handler -/

/-- The handlers of the site, outside of the administration and of `apps::config`. -/
inductive Destination (e : Env) : App Unit → Prop where
  | notFound : Destination e (makeErrorResponse 404)
  | captcha : routedToCaptcha e = true → Destination e (Captcha.main e)
  | config (path : String) : routedToConfig e = true →
      Destination e (dispatch (configRoutes e) path)
  | admin (path : String) : adminPath e = some path → Destination e (adminMaster e path)
  | feedPosts : Destination e (Feed.posts e)
  | feedCats (sid : String) : routedToCats e = some sid → Destination e (Feed.cats e sid)
  | feedComments : routedToComments e = true → Destination e (Feed.comments e)
  | media (file : String) : Destination e (Media.prepare e file)
  | pageDisplay (sid : String) : routedToPage e = some sid → Destination e (Page.display e sid)
  | pagePreview (sid : String) : Destination e (Page.preview e sid)
  | postDisplay (sid : String) : routedToDisplay e = some sid → Destination e (Post.display e sid)
  | postPreview (sid : String) : Destination e (Post.preview e sid)
  | postback (sid : String) : routedToPostback e = some sid → Destination e (Post.postback e sid)
  | download (md5 size name : String) : Destination e (Download.prepare e md5 size name)
  | summary (catId page : Int) : routedToSummary e = some (catId, page) →
      Destination e (Summary.prepare e catId page)

/-- The handlers of the administration. -/
inductive AdminDestination (e : Env) : App Unit → Prop where
  | notFound : AdminDestination e (makeErrorResponse 404)
  | caching : routedToCaching e = true → AdminDestination e (Caching.prepare e)
  | categories : routedToCategories e = true → AdminDestination e (Categories.prepare e)
  | options : AdminDestination e (Options.prepare e)
  | comment (sid : String) : AdminDestination e (AdminComment.prepare e sid)
  | post (sid : String) : routedToEditor e = some sid → AdminDestination e (AdminPost.prepare e sid)
  | newPost : routedToNewPost e = true → AdminDestination e (AdminPost.prepareShared e 0)
  | page (sid : String) : routedToPageEditor e = some sid →
      AdminDestination e (AdminPage.prepare e sid)
  | newPage : AdminDestination e (AdminPage.prepareShared e 0)
  | users (page : Int) : AdminDestination e (Users.list e page)
  | userAdd : AdminDestination e (Users.add e)
  | userDel (sid : String) : routedToUserDel e = some sid → AdminDestination e (Users.del e sid)
  | userEdit (sid : String) : routedToUserEdit e = some sid → AdminDestination e (Users.edit e sid)
  | login : routedToLogin e = true → AdminDestination e (Users.prepare e)
  | upload : routedToUpload e = true → AdminDestination e (Upload.prepare e)
  | summary (page : Int) : AdminDestination e (AdminSummary.prepare e page)

-- From here on a dispatcher is what `dispatch_entries` says.
attribute [local irreducible] dispatch

theorem Destination.pageRoutes {e : Env} {path : String} (hpath : pagePath e = some path) :
    Destination e (dispatch (pageRoutes e) path) := by
  apply dispatch_entries .notFound
  intro i r caps hr hcaps
  rcases i with _ | _ | i
  · obtain rfl := Option.some.inj hr
    refine .pageDisplay _ ?_
    simp only [routedToPage, hpath, Option.bind_some, mounted, hcaps, Option.map_some]
  · obtain rfl := Option.some.inj hr
    exact .pagePreview _
  · exact absurd hr (by simp [CppBlog.pageRoutes])

theorem Destination.postRoutes {e : Env} {path : String} (hpath : postPath e = some path) :
    Destination e (dispatch (postRoutes e) path) := by
  apply dispatch_entries .notFound
  intro i r caps hr hcaps
  rcases i with _ | _ | _ | i
  · obtain rfl := Option.some.inj hr
    refine .postDisplay _ ?_
    simp only [routedToDisplay, hpath, Option.bind_some, mounted, hcaps, Option.map_some]
  · obtain rfl := Option.some.inj hr
    exact .postPreview _
  · obtain rfl := Option.some.inj hr
    refine .postback _ ?_
    simp only [routedToPostback, hpath, Option.bind_some, mounted, hcaps, Option.map_some]
  · exact absurd hr (by simp [CppBlog.postRoutes])

/-- The entry that answers is the first: none answers before it. -/
theorem entry_eq_none_of_lt {routes : List Route} {path : String} {i j : Nat} {caps : Captures}
    (h : entry routes i path = some caps) (hij : j < i) : entry routes j path = none := by
  have hnone : (routes.take i).any (fun r => (r.1.full path.toList).isSome) = false := by
    cases hany : (routes.take i).any (fun r => (r.1.full path.toList).isSome) with
    | false => rfl
    | true => simp [entry, hany] at h
  by_cases hj : j < routes.length
  · have hmem : routes[j] ∈ routes.take i := by
      rw [List.mem_take_iff_getElem]
      exact ⟨j, by omega, rfl⟩
    have hj' := List.any_eq_false.1 hnone _ hmem
    unfold entry
    split
    · rfl
    · rw [List.getElem?_eq_getElem hj, Option.bind_some]
      simpa using hj'
  · unfold entry
    rw [List.getElem?_eq_none (by omega)]
    simp

theorem Destination.summaryRoutes {e : Env} {path : String} (hpath : summaryPath e = some path) :
    Destination e (dispatch (summaryRoutes e) path) := by
  apply dispatch_entries .notFound
  intro i r caps hr hcaps
  have hbefore (j : Nat) (hj : j < i) := entry_eq_none_of_lt hcaps hj
  rcases i with _ | _ | _ | _ | _ | i
  · obtain rfl := Option.some.inj hr
    refine .summary 0 0 ?_
    simp only [routedToSummary, hpath, Option.bind_some, hcaps]
  · -- the second entry repeats the first
    have hfirst := hbefore 0 (by omega)
    simp only [CppBlog.summaryRoutes, entry_zero] at hfirst
    rw [CppBlog.summaryRoutes, entry_succ hfirst, entry_zero] at hcaps
    rw [hfirst] at hcaps
    exact absurd hcaps (by simp)
  · obtain rfl := Option.some.inj hr
    refine .summary 0 _ ?_
    simp only [routedToSummary, hpath, Option.bind_some, hbefore 0 (by omega), hcaps]
  · obtain rfl := Option.some.inj hr
    refine .summary _ _ ?_
    simp only [routedToSummary, hpath, Option.bind_some, hbefore 0 (by omega),
      hbefore 2 (by omega), hcaps]
    rfl
  · obtain rfl := Option.some.inj hr
    refine .summary _ _ ?_
    simp only [routedToSummary, hpath, Option.bind_some, hbefore 0 (by omega),
      hbefore 2 (by omega), hbefore 3 (by omega), hcaps]
  · exact absurd hr (by simp [CppBlog.summaryRoutes])

theorem dispatch_summaryRoutes {e : Env} {path : String} {catId page : Int}
    (hpath : summaryPath e = some path) (h : routedToSummary e = some (catId, page)) :
    dispatch (summaryRoutes e) path = Summary.prepare e catId page := by
  simp only [routedToSummary, hpath, Option.bind_some] at h
  split at h
  · rename_i hcaps
    obtain ⟨rfl, rfl⟩ := Prod.mk.inj (Option.some.inj h)
    exact dispatch_entry (show (summaryRoutes e)[0]? = _ from rfl) hcaps
  · rename_i hcaps
    obtain ⟨rfl, rfl⟩ := Prod.mk.inj (Option.some.inj h)
    exact dispatch_entry (show (summaryRoutes e)[2]? = _ from rfl) hcaps
  · rename_i hcaps
    obtain ⟨rfl, rfl⟩ := Prod.mk.inj (Option.some.inj h)
    exact dispatch_entry (show (summaryRoutes e)[3]? = _ from rfl) hcaps
  · rename_i hcaps
    obtain ⟨rfl, rfl⟩ := Prod.mk.inj (Option.some.inj h)
    exact dispatch_entry (show (summaryRoutes e)[4]? = _ from rfl) hcaps
  · exact absurd h (by simp)

/-- A request for a listing is answered by `summary::prepare`. -/
theorem dispatch_summary {e : Env} {catId page : Int} (h : routedToSummary e = some (catId, page)) :
    dispatch (siteRoutes e) (routedPath e) = Summary.prepare e catId page := by
  have hsome := h
  rw [routedToSummary, Option.bind_eq_some_iff] at hsome
  obtain ⟨path, hpath, -⟩ := hsome
  have hblog := hpath
  rw [summaryPath, Option.bind_eq_some_iff] at hblog
  obtain ⟨blog, hblog, hentry⟩ := hblog
  obtain ⟨caps, hcaps, rfl⟩ := Option.map_eq_some_iff.1 hentry
  rw [blogPath, mounted, Option.map_eq_some_iff] at hblog
  obtain ⟨caps', hcaps', rfl⟩ := hblog
  have hlast : (siteRoutes e)[(siteRoutes e).length - 1]? =
      some (mountRx "", fun m => dispatch (blogRoutes e) (text m 1)) := by
    unfold siteRoutes
    split <;> rfl
  rw [dispatch_entry hlast hcaps']
  have hthird : (blogRoutes e)[3]? = some (.grp 0 (.star dot), fun m => dispatch (summaryRoutes e) (text m 0)) :=
    rfl
  refine (dispatch_entry hthird hcaps).trans ?_
  exact dispatch_summaryRoutes hpath h

theorem Destination.blogRoutes {e : Env} {path : String} (hpath : blogPath e = some path) :
    Destination e (dispatch (blogRoutes e) path) := by
  apply dispatch_entries .notFound
  intro i r caps hr hcaps
  rcases i with _ | _ | _ | _ | i
  · obtain rfl := Option.some.inj hr
    apply Destination.pageRoutes
    simp only [pagePath, hpath, Option.bind_some, mounted, hcaps, Option.map_some]
  · obtain rfl := Option.some.inj hr
    apply Destination.postRoutes
    simp only [postPath, hpath, Option.bind_some, mounted, hcaps, Option.map_some]
  · obtain rfl := Option.some.inj hr
    apply dispatch_entries .notFound
    intro i r caps hr _
    rcases i with _ | i
    · obtain rfl := Option.some.inj hr
      exact .download _ _ _
    · exact absurd hr (by simp [downloadRoutes])
  · obtain rfl := Option.some.inj hr
    apply Destination.summaryRoutes
    simp only [summaryPath, hpath, Option.bind_some, hcaps, Option.map_some]
  · exact absurd hr (by simp [CppBlog.blogRoutes])

theorem Destination.feedRoutes {e : Env} {path : String} (hpath : feedPath e = some path) :
    Destination e (dispatch (feedRoutes e) path) := by
  apply dispatch_entries .notFound
  intro i r caps hr hcaps
  rcases i with _ | _ | _ | i
  · obtain rfl := Option.some.inj hr
    exact .feedPosts
  · obtain rfl := Option.some.inj hr
    refine .feedCats _ ?_
    simp only [routedToCats, hpath, Option.bind_some, mounted, hcaps, Option.map_some]
  · obtain rfl := Option.some.inj hr
    refine .feedComments ?_
    simp only [routedToComments, hpath, Option.any_some, hcaps, Option.isSome_some]
  · exact absurd hr (by simp [CppBlog.feedRoutes])

/-- **Every request reaches one of the listed handlers.** -/
theorem Destination.site (e : Env) : Destination e (dispatch (siteRoutes e) (routedPath e)) := by
  apply dispatch_entries .notFound
  intro i r caps hr hcaps
  have hlast (hi : i + 1 = (siteRoutes e).length)
      (hr : r = (mountRx "", fun m => dispatch (CppBlog.blogRoutes e) (text m 1))) :
      Destination e (r.2 caps) := by
    subst hr
    apply Destination.blogRoutes
    have hi' : (siteRoutes e).length - 1 = i := by omega
    simp only [blogPath, hi', mounted, hcaps, Option.map_some]
  rcases i with _ | _ | _ | _ | i
  · obtain rfl := Option.some.inj hr
    refine .captcha ?_
    simp only [siteRoutes, List.cons_append, entry_zero] at hcaps
    rw [routedToCaptcha, hcaps, Option.isSome_some]
  · obtain rfl := Option.some.inj hr
    refine .config _ ?_
    have hcaptcha := entry_eq_none_of_lt hcaps (show 0 < 1 by omega)
    simp only [siteRoutes, List.cons_append, entry_zero] at hcaptcha
    have hcaps' := entry_succ (r := (openMountRx "/captcha", fun _ => Captcha.main e)) hcaptcha
    simp only [siteRoutes, List.cons_append, hcaps', entry_zero] at hcaps
    simp only [routedToConfig, hcaptcha, hcaps, Option.isNone_none, Option.isSome_some, Bool.and_self]
  · obtain rfl := Option.some.inj hr
    refine .admin _ ?_
    simp only [adminPath, mounted, hcaps, Option.map_some]
  · obtain rfl := Option.some.inj hr
    apply Destination.feedRoutes
    simp only [feedPath, mounted, hcaps, Option.map_some]
  · by_cases hmedia : e.settings.mediaAttached = true
    · have hroutes : siteRoutes e = [(openMountRx "/captcha", fun _ => Captcha.main e),
          (openMountRx "/config", fun m => dispatch (configRoutes e) (text m 1)),
          (mountRx "/admin", fun m => adminMaster e (text m 1)),
          (mountRx "/rss", fun m => dispatch (CppBlog.feedRoutes e) (text m 1)),
          (restRx "/media", fun m => dispatch (mediaRoutes e) (text m 1)),
          (mountRx "", fun m => dispatch (CppBlog.blogRoutes e) (text m 1))] := by
        simp [siteRoutes, hmedia]
      rw [hroutes] at hr
      rcases i with _ | _ | i
      · obtain rfl := Option.some.inj hr
        apply dispatch_entries .notFound
        intro i r caps hr _
        rcases i with _ | i
        · obtain rfl := Option.some.inj hr
          exact .media _
        · exact absurd hr (by simp [mediaRoutes])
      · exact hlast (by rw [hroutes]; rfl) (Option.some.inj hr).symm
      · exact absurd hr (by simp)
    · have hroutes : siteRoutes e = [(openMountRx "/captcha", fun _ => Captcha.main e),
          (openMountRx "/config", fun m => dispatch (configRoutes e) (text m 1)),
          (mountRx "/admin", fun m => adminMaster e (text m 1)),
          (mountRx "/rss", fun m => dispatch (CppBlog.feedRoutes e) (text m 1)),
          (mountRx "", fun m => dispatch (CppBlog.blogRoutes e) (text m 1))] := by
        simp [siteRoutes, hmedia]
      rw [hroutes] at hr
      rcases i with _ | i
      · exact hlast (by rw [hroutes]; rfl) (Option.some.inj hr).symm
      · exact absurd hr (by simp)

/-- A dispatcher with one entry. -/
theorem dispatch_single {P : App Unit → Prop} (h404 : P (makeErrorResponse 404)) {r : Route}
    {path : String} (h : ∀ caps, r.1.full path.toList = some caps → P (r.2 caps)) :
    P (dispatch [r] path) := by
  rw [dispatch_cons]
  split
  · rename_i caps hcaps
    exact h caps hcaps
  · have hnil : dispatch [] path = makeErrorResponse 404 := by unfold dispatch; rfl
    rw [hnil]
    exact h404

/-- **Every request the administration lets through reaches one of its handlers.** -/
theorem AdminDestination.admin {e : Env} {path : String} (hpath : adminPath e = some path) :
    AdminDestination e (dispatch (adminRoutes e) path) := by
  apply dispatch_entries .notFound
  intro i r caps hr hcaps
  have hsub : (adminPath e).bind (mounted (adminRoutes e) i) = some (text caps 1) := by
    simp only [hpath, Option.bind_some, mounted, hcaps, Option.map_some]
  rcases i with _ | _ | _ | _ | _ | _ | _ | _ | _ | i
  · obtain rfl := Option.some.inj hr
    refine dispatch_single .notFound fun caps' h => .caching ?_
    simp only [routedToCaching, hsub, Option.any_some, h, Option.isSome_some]
  · obtain rfl := Option.some.inj hr
    refine dispatch_single .notFound fun caps' h => .categories ?_
    simp only [routedToCategories, hsub, Option.any_some, h, Option.isSome_some]
  · obtain rfl := Option.some.inj hr
    exact dispatch_single .notFound fun _ _ => .options
  · obtain rfl := Option.some.inj hr
    exact dispatch_single .notFound fun _ _ => .comment _
  · obtain rfl := Option.some.inj hr
    dsimp only
    rw [dispatch_cons]
    split
    · rename_i caps' h
      refine .post _ ?_
      simp only [routedToEditor, hsub, Option.bind_some, idRx, h, Option.map_some]
    · rename_i hnone
      refine dispatch_single .notFound fun caps' h => ?_
      dsimp only
      refine .newPost ?_
      simp only [routedToNewPost, hsub, Option.any_some, idRx, hnone, h, Option.isNone_none, Option.isSome_some,
        Bool.and_self]
  · obtain rfl := Option.some.inj hr
    dsimp only
    rw [dispatch_cons]
    split
    · rename_i caps' h
      refine .page _ ?_
      simp only [routedToPageEditor, hsub, Option.bind_some, idRx, h, Option.map_some]
    · refine dispatch_single .notFound fun caps' _ => ?_
      dsimp only
      exact .newPage
  · obtain rfl := Option.some.inj hr
    have husers : usersPath e = some (text caps 1) := hsub
    apply dispatch_entries .notFound
    intro i r caps' hr hcaps'
    rcases i with _ | _ | _ | _ | _ | _ | i
    · obtain rfl := Option.some.inj hr
      exact .users 0
    · obtain rfl := Option.some.inj hr
      exact .users _
    · obtain rfl := Option.some.inj hr
      exact .userAdd
    · obtain rfl := Option.some.inj hr
      refine .userDel _ ?_
      simp only [routedToUserDel, husers, Option.bind_some, mounted, hcaps', Option.map_some]
    · obtain rfl := Option.some.inj hr
      refine .userEdit _ ?_
      simp only [routedToUserEdit, husers, Option.bind_some, mounted, hcaps', Option.map_some]
    · obtain rfl := Option.some.inj hr
      refine .login ?_
      simp only [routedToLogin, husers, Option.any_some, hcaps', Option.isSome_some]
    · exact absurd hr (by simp [usersRoutes])
  · obtain rfl := Option.some.inj hr
    refine dispatch_single .notFound fun caps' h => .upload ?_
    simp only [routedToUpload, hsub, Option.any_some, h, Option.isSome_some]
  · obtain rfl := Option.some.inj hr
    dsimp only
    rw [dispatch_cons]
    split
    · exact .summary _
    · refine dispatch_single .notFound fun caps' _ => ?_
      dsimp only
      exact .summary 0
  · exact absurd hr (by simp [adminRoutes])

/-- A request for a captcha image. -/
theorem dispatch_captcha {e : Env} (h : routedToCaptcha e = true) :
    dispatch (siteRoutes e) (routedPath e) = Captcha.main e := by
  obtain ⟨caps, hcaps⟩ := Option.isSome_iff_exists.1 h
  have hentry : entry (siteRoutes e) 0 (routedPath e) = some caps := by
    rw [siteRoutes, List.cons_append, List.cons_append, entry_zero]
    exact hcaps
  exact dispatch_entry (show (siteRoutes e)[0]? = _ from rfl) hentry

/-- A comment that is posted. -/
theorem dispatch_postback {e : Env} {sid : String} (h : routedToPostback e = some sid) :
    dispatch (siteRoutes e) (routedPath e) = Post.postback e sid := by
  rw [routedToPostback, Option.bind_eq_some_iff] at h
  obtain ⟨post, hpost, hentry⟩ := h
  rw [postPath, Option.bind_eq_some_iff] at hpost
  obtain ⟨blog, hblog, hpost⟩ := hpost
  rw [blogPath, mounted, Option.map_eq_some_iff] at hblog
  rw [mounted, Option.map_eq_some_iff] at hpost hentry
  obtain ⟨caps, hcaps, rfl⟩ := hblog
  obtain ⟨caps', hcaps', rfl⟩ := hpost
  obtain ⟨caps'', hcaps'', rfl⟩ := hentry
  have hlast : (siteRoutes e)[(siteRoutes e).length - 1]? =
      some (mountRx "", fun m => dispatch (blogRoutes e) (text m 1)) := by
    unfold siteRoutes
    split <;> rfl
  have hsecond : (blogRoutes e)[1]? =
      some (mountRx "/post", fun m => dispatch (postRoutes e) (text m 1)) := rfl
  have hthird : (postRoutes e)[2]? =
      some (.seq (numberRx "/" 1) (txt "/postback"), fun m => Post.postback e (text m 1)) := rfl
  rw [dispatch_entry hlast hcaps]
  exact (dispatch_entry hsecond hcaps').trans (dispatch_entry hthird hcaps'')

/-- A request for the administration comes to its gate. -/
theorem dispatch_admin {e : Env} {path : String} (hpath : adminPath e = some path) :
    dispatch (siteRoutes e) (routedPath e) = adminMaster e path := by
  rw [adminPath, mounted, Option.map_eq_some_iff] at hpath
  obtain ⟨caps, hcaps, rfl⟩ := hpath
  exact dispatch_entry (show (siteRoutes e)[2]? = _ from rfl) hcaps

/-- A request for the login page that passes the gate is answered by `users::prepare`. -/
theorem dispatch_login {e : Env} {path : String} (hpath : adminPath e = some path)
    (h : routedToLogin e = true) : dispatch (adminRoutes e) path = Users.prepare e := by
  rw [routedToLogin, Option.any_eq_true] at h
  obtain ⟨users, husers, hentry⟩ := h
  obtain ⟨caps', hcaps'⟩ := Option.isSome_iff_exists.1 hentry
  rw [usersPath, hpath, Option.bind_some, mounted, Option.map_eq_some_iff] at husers
  obtain ⟨caps, hcaps, rfl⟩ := husers
  have hsixth : (adminRoutes e)[6]? =
      some (mountRx "/users", fun m => dispatch (usersRoutes e) (text m 1)) := rfl
  have hfifth : (usersRoutes e)[5]? = some (slashRx, fun _ => Users.prepare e) := rfl
  exact (dispatch_entry hsixth hcaps).trans (dispatch_entry hfifth hcaps')

/-- A comment is posted to the blog, not to the administration. -/
theorem routedToLogin_of_postback {e : Env} {sid : String} (h : routedToPostback e = some sid) :
    routedToLogin e = false := by
  rw [routedToPostback, Option.bind_eq_some_iff] at h
  obtain ⟨post, hpost, -⟩ := h
  rw [postPath, Option.bind_eq_some_iff] at hpost
  obtain ⟨blog, hblog, -⟩ := hpost
  rw [blogPath, mounted, Option.map_eq_some_iff] at hblog
  obtain ⟨caps, hcaps, -⟩ := hblog
  have hlast : 2 < (siteRoutes e).length - 1 := by
    unfold siteRoutes
    split <;> simp
  have hadmin : adminPath e = none := by
    rw [adminPath, mounted, entry_eq_none_of_lt hcaps hlast, Option.map_none]
  rw [routedToLogin, usersPath, hadmin]
  rfl

end CppBlog
