import CppBlog.Accounts
import CppBlog.Listings

set_option autoImplicit false

/-! # Authors of open posts

The listings join the users from outside, a post is displayed only together with its author. So every link
of a listing leads somewhere exactly as long as every open post has an author: the removal of a user does
not look at the posts, and a session goes on writing after its user is gone. -/

namespace CppBlog

open Effect Store App

/-- The author of every open post is there. -/
def Authored (d : Db) : Prop := ∀ p ∈ d.posts.rows, p.isOpen ≠ 0 → ∃ u ∈ d.users.rows, u.id = p.authorId

/-! ## Writing posts -/

namespace Db

variable {d d' : Db} {id authorId openStatus : Int} {now : Tm} {f : PostForm}

/-- A created post is the author's. -/
theorem mem_createPost (h : d.createPost authorId f now openStatus = .ok d') {p : Post}
    (hp : p ∈ d'.posts.rows) : p ∈ d.posts.rows ∨ p.authorId = authorId ∧ p.isOpen = openStatus := by
  unfold createPost at h
  cases hm : d.insertPost authorId f.title.value f.abstract.value f.content.value now openStatus with
  | error err => simp [hm, Except.bind] at h
  | ok m =>
    simp only [hm, Except.bind] at h
    obtain ⟨-, -, hrows⟩ := insertPost_eq_ok hm
    have hposts : d'.posts = m.posts := by rw [addToCats_frame h]
    rw [hposts, hrows] at hp
    rcases List.mem_append.1 hp with hp | hp
    · exact .inl hp
    · obtain rfl := List.mem_singleton.1 hp
      exact .inr ⟨rfl, rfl⟩

/-- Rewriting the row of a post leaves it its author. -/
theorem mem_update {q : Post → Bool} {g : Post → Post} {hg : ∀ p, (g p).id = p.id}
    (hposts : d'.posts = d.posts.update q g hg) (hauthor : ∀ p, (g p).authorId = p.authorId)
    (hopen : ∀ p, (g p).isOpen = openStatus) (hq : ∀ p, q p = true → p.id = id) {p : Post}
    (hp : p ∈ d'.posts.rows) :
    p ∈ d.posts.rows ∨ ∃ r ∈ d.posts.rows, r.id = id ∧ p.authorId = r.authorId ∧ p.isOpen = openStatus := by
  rw [hposts, AutoTable.update_rows] at hp
  obtain ⟨r, hr, rfl⟩ := List.mem_map.1 hp
  split
  · rename_i hrow
    exact .inr ⟨r, hr, hq r hrow, hauthor r, hopen r⟩
  · exact .inl hr

/-- A saved post keeps its author. -/
theorem mem_savePost (h : d.savePost id f now openStatus = .ok d') {p : Post} (hp : p ∈ d'.posts.rows) :
    p ∈ d.posts.rows ∨ ∃ r ∈ d.posts.rows, r.id = id ∧ p.authorId = r.authorId ∧ p.isOpen = openStatus := by
  unfold savePost at h
  cases hrow : d.updateRow id f now openStatus with
  | error err => simp [hrow, Except.bind] at h
  | ok x =>
    obtain ⟨publish, m⟩ := x
    simp only [hrow, Except.bind] at h
    cases hadd : addToCats id publish openStatus f.addToCatList m with
    | error err => simp [hadd] at h
    | ok m' =>
      simp only [hadd, Except.ok.injEq] at h
      have hposts : d'.posts = m.posts := by rw [← h, delFromCats_frame, addToCats_frame hadd]
      unfold updateRow at hrow
      split at hrow
      · cases hrow
        exact mem_update hposts (fun _ => rfl) (fun _ => rfl) (by simp) hp
      · dsimp only at hrow
        split at hrow
        · cases hrow
        · cases hrow
          have hupdated : d'.posts =
              (d.updatePost id f.title.value f.abstract.value f.content.value openStatus).posts := by
            rw [hposts]
            split <;> rfl
          exact mem_update hupdated (fun _ => rfl) (fun _ => rfl) (by simp) hp

end Db

/-! ## What a step does to the authors -/

section
variable {e : Env} {d d' : Db} {ts : List String}

/-- What a step does to the open posts: it leaves them their authors, or it is one of the editor. -/
inductive AuthorStep (e : Env) (d d' : Db) : Prop where
  | kept : (∀ p ∈ d'.posts.rows, p.isOpen ≠ 0 → ∃ r ∈ d.posts.rows, r.isOpen ≠ 0 ∧ r.authorId = p.authorId) →
      AuthorStep e d d'
  | create {authorId : Int} {f : PostForm} : routedToNewPost e = true →
      d.createPost authorId f e.chance.now (AdminPost.openStatus false f.changeStatus) = .ok d' →
      AuthorStep e d d'
  | save {sid : String} {isOpen : Int} {f : PostForm} : routedToEditor e = some sid → e.req.method = "POST" →
      d.selectPostIsOpen (Text.atoi sid) = some isOpen →
      f = AdminPost.submission e.req.postOrGet d (Text.atoi sid) → f.valid = true → f.remove = false →
      d.savePost (Text.atoi sid) f e.chance.now (AdminPost.openStatus (isOpen ≠ 0) f.changeStatus) = .ok d' →
      AuthorStep e d d'

theorem AuthorStep.of_posts (h : ∀ p ∈ d'.posts.rows, p ∈ d.posts.rows) : AuthorStep e d d' :=
  .kept fun p hp hopen => ⟨p, h p hp, hopen, rfl⟩

theorem AuthorStep.of_count {id n : Int} (h : d'.posts = d.posts.update (fun r => r.id = id)
    (fun r => { r with commentCount := n }) (fun _ => rfl)) : AuthorStep e d d' := by
  refine .kept fun p hp hopen => ?_
  rw [h, AutoTable.update_rows] at hp
  obtain ⟨r, hr, rfl⟩ := List.mem_map.1 hp
  refine ⟨r, hr, ?_, ?_⟩
  · split at hopen <;> exact hopen
  · split <;> rfl

theorem Invalidates.authors (h : Invalidates e d ts d') : AuthorStep e d d' := by
  have hsame (hposts : d'.posts = d.posts) : AuthorStep e d d' := .of_posts fun p hp => hposts ▸ hp
  cases h with
  | createPost authorId f hroute _ hd => exact .create hroute hd
  | savePost hroute hmethod hopen hf hvalid hremove hd => exact .save hroute hmethod hopen hf hvalid hremove hd
  | removePost _ _ _ _ => exact .of_posts fun p hp => (AutoTable.mem_delete_rows.1 hp).1
  | comment _ _ _ hm =>
    rename_i m _ _ _
    have hposts : m.posts = d.posts := by rw [(Db.insertComment_eq_ok hm).1]
    exact .of_count (by rw [← hposts]; rfl)
  | eraseComment _ => exact .of_count rfl
  | editComment _ _ _ _ => exact hsame rfl
  | configure f _ hf => exact hsame (by rw [Db.configure_frame hf])
  | storeOptions f hf => exact hsame (by rw [Db.storeOptions_frame hf])
  | createCat _ _ _ _ _ hd => exact hsame (by rw [(Db.insertCat_eq_ok hd).1])
  | renameCat _ _ => exact hsame rfl
  | removeEmptyCat _ => exact hsame rfl
  | removeCat => exact hsame rfl
  | createPage _ _ _ _ hd => exact hsame (by rw [Db.insertPage_frame hd])
  | savePage _ _ _ _ => exact hsame rfl
  | removePage _ => exact hsame rfl
  | createUser _ _ hd => exact hsame (by rw [Db.insertUser_frame hd])
  | saveUser _ hd => exact hsame (by rw [Db.updateUser_frame hd])
  | removeUser _ => exact hsame rfl

end

/-! ## Who writes a new post -/

section

-- a dispatcher is what its destinations say
attribute [local irreducible] dispatch

/-- The number of the user of a session. -/
def Session.userId (session : Session) : Option Int := (session.find "id").bind Text.readInt?

/-- A request for the editor of a new post stores a post of its session's user, or none. -/
inductive NewPost (e : Env) (session : Session) (d d' : Db) : Prop where
  | same : d'.posts = d.posts → NewPost e session d d'
  | create {authorId : Int} {f : PostForm} : e.req.method = "POST" → session.isSet "user" = true →
      session.userId = some authorId → f.changeStatus = submitted e.req.postOrGet "_6" →
      d.createPost authorId f e.chance.now (AdminPost.openStatus false f.changeStatus) = .ok d' →
      NewPost e session d d'

variable {e : Env} {s : St}

/-- The transaction commits a post of the session's user. -/
theorem wp_createBlock_author (f : PostForm) (openStatus : Int) (hs : s.tx = none) {P : Db → Prop}
    (hself : P s.db) (hcreate : ∀ authorId d', s.own.session.userId = some authorId →
      s.db.createPost authorId f e.chance.now openStatus = .ok d' → P d') :
    (AdminPost.createBlock e f openStatus).wp calls (fun _ s' => P s'.db ∧ s'.tx = none)
      (fun _ s' => P s'.db ∧ s'.tx = none) s := by
  rw [AdminPost.createBlock, wp_transaction, Prog.wp_bind, wp_sessionGetInt]
  refine ⟨?_, hself, hs⟩
  split
  · rename_i authorId hauthor
    have hrest : Commits (fun d' => s.db.createPost authorId f e.chance.now openStatus = .ok d')
        ((exec (Db.insertPost authorId f.title.value f.abstract.value f.content.value e.chance.now
          openStatus)).bind fun _ =>
        (query Db.lastPostId).bind fun id =>
        (AdminPost.addToCats id e.chance.now openStatus f.addToCatList).bind fun _ =>
        (if openStatus ≠ 0 then rise "cat_0" else .ret ()).bind fun _ =>
        commit.bind fun _ => .ret id) s.db := by
      refine .exec fun d₁ h₁ => .query <| .seq (inTx_addToCats _ _ _ _) fun _ d₂ h₂ =>
        .skip (.ite (Idle.rise _) (.ret _)) fun _ => .commit ?_ (.ret _)
      simp only [Db.createPost, Except.bind, h₁, h₂]
    have hP {s' : St} (h : s'.db = s.db ∨ s.db.createPost authorId f e.chance.now openStatus = .ok s'.db) :
        P s'.db := by
      rcases h with heq | hd
      · exact heq ▸ hself
      · exact hcreate authorId _ hauthor hd
    exact Prog.wp_mono (fun _ _ h => ⟨hP h.1, rfl⟩) (fun _ _ h => ⟨hP h.1, rfl⟩)
      (hrest { s with tx := some s.db } rfl)
  · exact ⟨hself, rfl⟩

theorem wp_editNewPost (form : PostForm) (hs : s.tx = none) (hv : Versioned s.db)
    (huser : s.own.session.isSet "user" = true) :
    (AdminPost.edit e 0 false form).wp calls (fun _ s' => NewPost e s.own.session s.db s'.db)
      (fun _ s' => NewPost e s.own.session s.db s'.db) s := by
  -- the editor that is shown reads only
  have hshow (id : Int) (f : PostForm) {s' : St}
      (h : (NewPost e s.own.session s.db s'.db ∧ Versioned s'.db) ∧ s'.tx = none) :
      (AdminPost.render e id false f).wp calls (fun _ s' => NewPost e s.own.session s.db s'.db)
        (fun _ s' => NewPost e s.own.session s.db s'.db) s' := by
    have hreads {s'' : St} (hr : Reads s' s'') : NewPost e s.own.session s.db s''.db :=
      (hr.eq_of_versioned h.2 h.1.2).2 ▸ h.1.1
    exact (readOnly_postEditor e id false f).wp (fun _ _ => hreads) (fun _ _ => hreads)
  unfold AdminPost.edit
  split
  · rename_i hpost
    rw [Prog.wp_bind, wp_loadForm]
    split
    · exact .same rfl
    dsimp only
    split
    · rw [if_pos rfl, AdminPost.create]
      have hstatus (c : Bool) : (if c = true then 1 else 0 : Int) = AdminPost.openStatus false c := by
        simp [AdminPost.openStatus]
      split
      · rw [Prog.bind_assoc, Prog.wp_bind, wp_setRedirectHeader]
        exact .same rfl
      · rw [Prog.bind_assoc, hstatus]
        refine Prog.wp_seq (wp_createBlock_author (s := s.setOwn { s.own with csrfChecked := true }) _ _ hs
          (P := fun d' => NewPost e s.own.session s.db d' ∧ Versioned d') ⟨.same rfl, hv⟩
          fun authorId d' hauthor hd' => ⟨.create hpost huser hauthor ?_ hd', ?_⟩)
          (fun id s' h => ?_) fun _ _ h => h.1.1
        · simp only [PostForm.validate]
          split <;> rfl
        · exact hv.congr (congrArg Db.textOptions (Db.createPost_frame hd') :)
        · split
          · exact hshow _ _ h
          · rw [Prog.bind_assoc, Prog.wp_bind, wp_setRedirectHeader]
            exact h.1.1
    · exact hshow _ _ ⟨⟨.same rfl, hv⟩, hs⟩
  · exact hshow _ _ ⟨⟨.same rfl, hv⟩, hs⟩

theorem wp_newPost (hs : s.tx = none) (hv : Versioned s.db) (huser : s.own.session.isSet "user" = true) :
    (AdminPost.prepareShared e 0).wp calls (fun _ s' => NewPost e s.own.session s.db s'.db)
      (fun _ s' => NewPost e s.own.session s.db s'.db) s := by
  rw [AdminPost.prepareShared, if_neg (by simp), Prog.ret_bind]
  dsimp only
  rw [AdminPost.readCats, Prog.bind_assoc, Prog.wp_bind, wp_query, Prog.ret_bind]
  exact ⟨wp_editNewPost _ hs hv huser, .same rfl⟩

/-- The path of a request for the editor of a new post. -/
theorem dispatch_newPost (h : routedToNewPost e = true) :
    ∃ path, adminPath e = some path ∧ routedToLogin e = false ∧
      dispatch (adminRoutes e) path = AdminPost.prepareShared e 0 := by
  obtain ⟨post, hpost, hmatch⟩ := (Option.any_eq_true _ _).1 h
  rw [Option.bind_eq_some_iff] at hpost
  obtain ⟨path, hpath, hmount⟩ := hpost
  rw [mounted, Option.map_eq_some_iff] at hmount
  obtain ⟨caps, hcaps, rfl⟩ := hmount
  refine ⟨path, hpath, ?_, ?_⟩
  · rw [routedToLogin, usersPath, hpath, Option.bind_some, mounted]
    cases husers : entry (adminRoutes e) 6 path with
    | none => rfl
    | some caps' =>
      rw [entry_eq_none_of_lt husers (by omega)] at hcaps
      exact absurd hcaps (by simp)
  · simp only [Bool.and_eq_true, Option.isNone_iff_eq_none] at hmatch
    obtain ⟨caps', hcaps'⟩ := Option.isSome_iff_exists.1 hmatch.2
    have hfifth : (adminRoutes e)[4]? = some (mountRx "/post", fun m => dispatch
        [(.seq (numberRx "/" 1) slashRx, fun m => AdminPost.prepare e (text m 1)),
         (slashRx, fun _ => AdminPost.prepareShared e 0)] (text m 1)) := rfl
    refine (dispatch_entry hfifth hcaps).trans ?_
    dsimp only
    rw [dispatch_cons, dispatch_cons]
    have hnone := hmatch.1
    unfold idRx at hnone
    simp only [hnone, hcaps']

/-- The language does not matter to who writes. -/
theorem NewPost.congr {session session' : Session} {d d' : Db} (h : NewPost e session' d d')
    (hsession : ∀ key, key ≠ "nlang" → session'.find key = session.find key) : NewPost e session d d' := by
  cases h with
  | same h => exact .same h
  | create hmethod huser hid hstatus hd =>
    refine .create hmethod ?_ ?_ hstatus hd
    · rwa [Session.isSet, hsession "user" (by decide)] at huser
    · rwa [Session.userId, hsession "id" (by decide)] at hid

theorem Reachable.newPost {site : Site} {w : World} (hw : Reachable site w) (a : Arrival)
    (hroute : routedToNewPost (site.env a) = true) :
    NewPost (site.env a) (w.session a.req.sid) w.shared.db (serve site a w).2.shared.db := by
  obtain ⟨path, hpath, hlogin, hp⟩ := dispatch_newPost hroute
  refine serve_of_wp (P := fun s' => NewPost (site.env a) (w.session a.req.sid) w.shared.db s'.db)
    (wp_main_behind hpath hp hlogin (.same rfl) fun s₁ h₁ huser => ?_)
  have hdb : s₁.db = w.shared.db := h₁.db
  have hnew := wp_newPost (e := site.env a) h₁.tx (hdb.symm ▸ hw.versioned) huser
  rw [hdb] at hnew
  exact Prog.wp_mono (fun _ _ h => h.congr h₁.session) (fun _ _ h => h.congr h₁.session) hnew

end

/-! ## Runs -/

/-- The request takes no open post its author: it removes no author of an open post, the session that opens a
    new post is of a user who is there, and so is the author of a closed post that it opens. -/
structure KeepsAuthors (e : Env) (session : Session) (d : Db) : Prop where
  removal : ∀ id, Deletes e session id → ∀ p ∈ d.posts.rows, p.isOpen ≠ 0 → p.authorId ≠ id
  creation : routedToNewPost e = true → e.req.method = "POST" → session.isSet "user" = true →
    submitted e.req.postOrGet "_6" = true → ∀ authorId, session.userId = some authorId →
    ∃ u ∈ d.users.rows, u.id = authorId
  opening : ∀ sid, routedToEditor e = some sid → e.req.method = "POST" →
    (AdminPost.submission e.req.postOrGet d (Text.atoi sid)).valid = true →
    (AdminPost.submission e.req.postOrGet d (Text.atoi sid)).remove = false →
    (AdminPost.submission e.req.postOrGet d (Text.atoi sid)).changeStatus = true →
    ∀ p ∈ d.posts.rows, p.id = Text.atoi sid → p.isOpen = 0 → ∃ u ∈ d.users.rows, u.id = p.authorId

section
variable {site : Site} {w : World} {a : Arrival}

/-- The users a request leaves are enough for the open posts it met. -/
theorem AccountStep.authored {e : Env} {session : Session} {d d' : Db} (h : AccountStep e session d d')
    (hkeeps : KeepsAuthors e session d) (hd : Authored d) {p : Post} (hp : p ∈ d.posts.rows)
    (hopen : p.isOpen ≠ 0) : ∃ u ∈ d'.users.rows, u.id = p.authorId := by
  obtain ⟨u, hu, hid⟩ := hd p hp hopen
  cases h with
  | same h => exact ⟨u, h ▸ hu, hid⟩
  | create h => exact ⟨u, h ▸ List.mem_append_left _ hu, hid⟩
  | save _ h =>
    rw [h, AutoTable.update_rows]
    refine ⟨_, List.mem_map_of_mem hu, ?_⟩
    split <;> exact hid
  | remove hdel h =>
    refine ⟨u, ?_, hid⟩
    rw [h]
    refine AutoTable.mem_delete_rows.2 ⟨hu, ?_⟩
    have hne := hkeeps.removal _ hdel p hp hopen
    simpa [hid] using hne

theorem openStatus_closed {c : Bool} (h : AdminPost.openStatus false c ≠ 0) : c = true := by
  cases c
  · exact absurd rfl h
  · rfl

theorem authored_step (hw : Reachable site w)
    (hkeeps : KeepsAuthors (site.env a) (w.session a.req.sid) w.shared.db) (hd : Authored w.shared.db) :
    Authored (serve site a w).2.shared.db := by
  have husers {p : Post} (hp : p ∈ w.shared.db.posts.rows) (hopen : p.isOpen ≠ 0) :
      ∃ u ∈ (serve site a w).2.shared.db.users.rows, u.id = p.authorId :=
    (hw.accountStep a).authored hkeeps hd hp hopen
  rcases hw.reached a with hsame | ⟨ts, hstep⟩
  · rw [hsame]
    exact hd
  intro p hp hopen
  cases hstep.authors with
  | kept h =>
    obtain ⟨r, hr, hropen, hauthor⟩ := h p hp hopen
    exact hauthor ▸ husers hr hropen
  | create hroute hcreate =>
    cases hw.newPost a hroute with
    | same hposts => exact husers (hposts ▸ hp) hopen
    | create hmethod huser hid hstatus hcreate' =>
      rcases Db.mem_createPost hcreate' hp with hold | ⟨hauthor, hpopen⟩
      · exact husers hold hopen
      · rw [hpopen] at hopen
        have hsame : (serve site a w).2.shared.db.users = w.shared.db.users := by
          rw [Db.createPost_frame hcreate']
        rw [hsame, hauthor]
        exact hkeeps.creation hroute hmethod huser (hstatus ▸ openStatus_closed hopen) _ hid
  | save hroute hmethod hisOpen hf hvalid hremove hsave =>
    rcases Db.mem_savePost hsave hp with hold | ⟨r, hr, hid, hauthor, hpopen⟩
    · exact husers hold hopen
    · rw [hauthor]
      by_cases hropen : r.isOpen = 0
      · have hsame : (serve site a w).2.shared.db.users = w.shared.db.users := by
          rw [Db.savePost_frame hsave]
        have hfind : w.shared.db.posts.find? r.id = some r := (Table.find?_eq_some _ _ _).2 ⟨hr, rfl⟩
        rw [Db.selectPostIsOpen, ← hid, hfind, Option.map_some, Option.some.injEq] at hisOpen
        subst hf
        rw [hpopen, ← hisOpen, hropen] at hopen
        rw [hsame]
        exact hkeeps.opening _ hroute hmethod hvalid hremove (openStatus_closed (by simpa using hopen)) r hr hid
          hropen
      · exact husers hr hropen

/-- Runs whose requests take no open post its author keep the authors. -/
theorem run_authored (site : Site) (files : Files) {events : List Event}
    (hevents : EachRequest site (fun w a => KeepsAuthors (site.env a) (w.session a.req.sid) w.shared.db)
      (World.fresh files) events) : Authored (run site events (World.fresh files)).shared.db := by
  refine (EachRequest.induction (I := fun w => Reachable site w ∧ Authored w.shared.db)
    (fun w keys h => ⟨h.1.step (.evict keys), h.2⟩)
    (fun w a h hkeeps => ⟨h.1.step (.request a), authored_step h.1 hkeeps h.2⟩)
    ⟨⟨files, [], rfl⟩, fun p hp => absurd hp List.not_mem_nil⟩ hevents).2

end

/-! ## Links -/

section
variable {d : Db} {id : Int}

/-- The post is there, open, and has an author. -/
def Db.Displays (d : Db) (id : Int) : Prop :=
  ∃ p username, d.selectPostJoinUser id = some (p, username) ∧ p.isOpen ≠ 0

theorem Authored.displays (h : Authored d) {p : Post} (hfind : d.posts.find? p.id = some p)
    (hopen : p.isOpen = 1) : d.Displays p.id := by
  have hne : p.isOpen ≠ 0 := by rw [hopen]; decide
  obtain ⟨u, hu, hid⟩ := h p ((Table.find?_eq_some _ _ _).1 hfind).1 hne
  have huser : d.users.find? p.authorId = some u := (Table.find?_eq_some _ _ _).2 ⟨hu, hid⟩
  refine ⟨p, u.username, ?_, hne⟩
  rw [Db.selectPostJoinUser, hfind, Option.bind_some, huser, Option.map_some]

theorem mem_of_limitOffset_orderByDesc {ρ : Type} {f : ρ → Int} {n k : Int} {l : List ρ} {x : ρ}
    (h : x ∈ limitOffset n k (orderByDesc f l)) : x ∈ l :=
  (List.mem_insertionSort _).1 (List.mem_of_mem_drop (List.mem_of_mem_take h))

theorem Authored.selectOpenPosts (h : Authored d) {c : Post → Bool} {n k : Int} {x : Post × Option String}
    (hx : x ∈ d.selectOpenPosts c n k) : d.Displays (summaryRow (some x.1, x.2)).id := by
  obtain ⟨p, hp, rfl⟩ := List.mem_map.1 hx
  obtain ⟨hmem, hcond⟩ := List.mem_filter.1 (mem_of_limitOffset_orderByDesc hp)
  have hopen : p.isOpen = 1 := of_decide_eq_true (Bool.and_eq_true_iff.1 hcond).1
  exact h.displays ((Table.find?_eq_some _ _ _).2 ⟨hmem, rfl⟩) hopen

theorem Authored.selectPostsInCat (h : Authored d) (hd : Mirrored d) {catId : Int} {c : Option Post → Bool}
    {n k : Int} {x : Option Post × Option String} (hx : x ∈ d.selectPostsInCat catId c n k) :
    d.Displays (summaryRow x).id := by
  obtain ⟨y, hy, rfl⟩ := List.mem_map.1 hx
  obtain ⟨hmem, -⟩ := List.mem_filter.1 (mem_of_limitOffset_orderByDesc hy)
  obtain ⟨r, hr, rfl⟩ := List.mem_map.1 hmem
  obtain ⟨hrow, hcond⟩ := List.mem_filter.1 hr
  obtain ⟨p, hfind, -, hopen, -⟩ := hd.openPost hrow
  have hid : p.id = r.postId := ((Table.find?_eq_some _ _ _).1 hfind).2
  have h1 : r.isOpen = 1 := of_decide_eq_true (Bool.and_eq_true_iff.1 hcond).2
  have hdisplays := h.displays (hid ▸ hfind) (hopen ▸ h1)
  rw [hid] at hdisplays
  simp only [hfind, summaryRow, Option.map_some, Option.getD_some, hid]
  exact hdisplays

/-- `prepare_content` for such a post neither answers 404 nor 403, -/
theorem wp_prepareContent_displays {s : St} (h : s.current.Displays id) (hid : Text.atoi (toString id) = id) :
    (Post.prepareContent (toString id) false).wp calls (fun c _ => c.isSome = true) (fun _ _ => True) s := by
  obtain ⟨p, username, hp, hopen⟩ := h
  rw [Post.prepareContent, Prog.wp_bind, wp_query, hid, hp]
  refine ⟨?_, trivial⟩
  dsimp only
  rw [if_neg fun hclosed => hopen hclosed.1]
  refine Prog.wp_seq (Prog.wp_of_forall (Q := fun _ _ => True) (E := fun _ _ => True) (fun _ _ => trivial)
    (fun _ _ => trivial) s) (fun info s' _ => ?_) fun _ _ h => h
  rw [Prog.wp_bind, wp_query, Prog.wp_bind, wp_query]
  exact ⟨⟨rfl, trivial⟩, trivial⟩

/-- and returns its content on a configured blog when nothing fails. -/
theorem wp_prepareContent_sure {s : St} (hs : s.tx = none) (hv : Versioned s.db) (hinfo : s.db.info.isSome)
    (hmiss : s.cache.fetch "options" = none) (h : s.db.Displays id) (hid : Text.atoi (toString id) = id) :
    (Post.prepareContent (toString id) false).wp sure (fun c _ => c.isSome = true) (fun _ _ => False) s := by
  obtain ⟨p, username, hp, hopen⟩ := h
  rw [Post.prepareContent, Prog.wp_bind, Sure.wp_query, hid, St.current_of_none hs, hp]
  dsimp only
  rw [if_neg fun hclosed => hopen hclosed.1, Prog.wp_bind]
  refine wp_basicPrepare_sure hs hv hmiss (fun info s' _ _ => ?_) fun hnone => ?_
  · rw [Prog.wp_bind, Sure.wp_query, Prog.wp_bind, Sure.wp_query]
    rfl
  · rw [hnone] at hinfo
    exact absurd hinfo (by simp)

end

/-- The link of a listed post: `prepare_content` never answers 404 or 403 for it, and on a configured blog it
    returns the content when no call fails. -/
structure LeadsSomewhere (w : World) (id : Int) : Prop where
  never : ∀ l : Local, l.tx = none →
    ((Post.prepareContent (toString id) false).run handle (w.shared, l)).1 ≠ .ok none
  content : w.shared.db.info.isSome → w.shared.cache.fetch "options" = none →
    ∀ l : Local, l.tx = none → l.faults = [] →
    ∃ c, ((Post.prepareContent (toString id) false).run handle (w.shared, l)).1 = .ok (some c)

theorem Db.Displays.leadsSomewhere {w : World} {id : Int} (hv : Versioned w.shared.db)
    (h : w.shared.db.Displays id) : LeadsSomewhere w id := by
  have hid : Text.atoi (toString id) = id := by
    obtain ⟨p, username, hp, -⟩ := h
    rw [Db.selectPostJoinUser, Option.bind_eq_some_iff] at hp
    obtain ⟨r, hr, -⟩ := hp
    obtain ⟨hmem, rfl⟩ := (Table.find?_eq_some _ _ _).1 hr
    exact Text.atoi_toString (le_of_lt (w.shared.db.posts.key_pos r hmem))
      ((w.shared.db.posts.le_seq r hmem).trans w.shared.db.posts.seq_le)
  constructor
  · intro l hl hnone
    have hcurrent : (viewOf (w.shared, l)).current = w.shared.db := St.current_of_none hl
    have hends := Prog.wp_run (M := calls) handle viewOf (fun o c => outcome_handle o c) (c := (w.shared, l))
      (wp_prepareContent_displays (hcurrent.symm ▸ h) hid)
    rw [hnone] at hends
    exact absurd hends (by simp [Prog.Ends])
  · intro hinfo hmiss l hl hcalm
    have hends := Sure.wp_iff.1
      (wp_prepareContent_sure (s := viewOf (w.shared, l)) hl hv hinfo hmiss h hid)
    rw [(Sure.run_of_calm _ (w.shared, l) hcalm).1]
    revert hends
    rcases (runSurely (Post.prepareContent (toString id) false) (viewOf (w.shared, l))).1 with err | _ | c
    · exact fun h => absurd h (by simp [Prog.Ends])
    · exact fun h => absurd h (by simp [Prog.Ends])
    · exact fun _ => ⟨c, rfl⟩

/-- **Every link leads somewhere as long as no open post loses its author.** In every run whose requests keep
    the authors: every post that a listing shows (of all posts, of a category or of a search, whatever the
    page) or that a feed of posts shows is displayed. -/
theorem run_links (site : Site) (files : Files) (events : List Event)
    (hevents : EachRequest site (fun w a => KeepsAuthors (site.env a) (w.session a.req.sid) w.shared.db)
      (World.fresh files) events) :
    let w := run site events (World.fresh files)
    (∀ e catId q n k, ∀ r ∈ Summary.selectPosts e catId q n k w.shared.db, LeadsSomewhere w r.id) ∧
      (∀ r ∈ w.shared.db.selectOpenPosts (fun _ => true) 10 0,
        LeadsSomewhere w (summaryRow (some r.1, r.2)).id) ∧
      ∀ catId, ∀ r ∈ w.shared.db.selectPostsInCat catId (fun _ => true) 10 0,
        LeadsSomewhere w (summaryRow r).id := by
  intro w
  have hauthored : Authored w.shared.db := run_authored site files hevents
  have hmirrored : Mirrored w.shared.db :=
    run_change (fun _ _ => Mirrored.change) (w := World.fresh files) mirrored_fresh events
  have hv : Versioned w.shared.db := Reachable.versioned ⟨files, events, rfl⟩
  refine ⟨fun e catId q n k r hr => ?_, fun r hr => (hauthored.selectOpenPosts hr).leadsSomewhere hv,
    fun catId r hr => (hauthored.selectPostsInCat hmirrored hr).leadsSomewhere hv⟩
  unfold Summary.selectPosts at hr
  split at hr
  · obtain ⟨x, hx, rfl⟩ := List.mem_map.1 hr
    exact (hauthored.selectPostsInCat hmirrored hx).leadsSomewhere hv
  · obtain ⟨x, hx, rfl⟩ := List.mem_map.1 hr
    exact (hauthored.selectOpenPosts hx).leadsSomewhere hv

/-- A request for another page takes no post its author. -/
theorem keepsAuthors_elsewhere {e : Env} {session : Session} {d : Db} (hdel : routedToUserDel e = none)
    (hnew : routedToNewPost e = false) (heditor : routedToEditor e = none) : KeepsAuthors e session d where
  removal _ h := absurd h.route (by simp [hdel])
  creation h := absurd h (by simp [hnew])
  opening _ h := absurd h (by simp [heditor])

/-- Alice writes a post. -/
def alicePosts : List Event :=
  [.request (.configure "a" "alice"), .request (.login "a" "alice"),
   .request (.post "a" "/admin/post" [("_1", "T"), ("_2", "A"), ("_3", "C"), ("_6", "1")])]

theorem run_links_one :
    ∃ r ∈ Summary.selectPosts (Site.sample.env (.get "v" "/")) 0 "" 10 0
      (run .sample alicePosts (World.fresh [])).shared.db,
      LeadsSomewhere (run .sample alicePosts (World.fresh [])) r.id := by
  refine ⟨_, List.head_mem (by decide),
    (run_links .sample [] alicePosts ⟨?_, ?_, ?_, trivial⟩).1 _ 0 "" 10 0 _ (List.head_mem _)⟩
  · exact keepsAuthors_elsewhere (by decide) (by decide) (by decide)
  · exact keepsAuthors_elsewhere (by decide) (by decide) (by decide)
  · have hdel : routedToUserDel (Site.sample.env (.post "a" "/admin/post"
        [("_1", "T"), ("_2", "A"), ("_3", "C"), ("_6", "1")])) = none := by decide
    have heditor : routedToEditor (Site.sample.env (.post "a" "/admin/post"
        [("_1", "T"), ("_2", "A"), ("_3", "C"), ("_6", "1")])) = none := by decide
    refine ⟨fun _ h => absurd h.route (by simp [hdel]), fun _ _ _ _ authorId hid => ?_,
      fun _ h => absurd h (by simp [heditor])⟩
    have hid : some (1 : Int) = some authorId := hid
    obtain rfl := Option.some.inj hid
    exact ⟨_, List.mem_singleton_self _, rfl⟩

/-- Bob writes a post, and Alice removes Bob: the front page goes on listing the post, whose page is not found. -/
theorem run_links_dangling :
    let w := run .sample (twoUsers ++
      [.request (.post "b" "/admin/post" [("_1", "T"), ("_2", "A"), ("_3", "C"), ("_6", "1")]),
       .request (.get "a" "/admin/users/del/2")]) (World.fresh [])
    (Summary.selectPosts (Site.sample.env (.get "v" "/")) 0 "" 10 0 w.shared.db).map SummaryRow.id = [1] ∧
      ¬LeadsSomewhere w 1 := by
  refine ⟨by decide +kernel, fun h => ?_⟩
  exact h.never {} rfl rfl

end CppBlog
