import CppBlog.Answers
import CppBlog.Resubmission

set_option autoImplicit false

/-! # What requests write and which triggers they rise

`Invalidates` lists the commits of the handlers with the triggers each of them rises. Whatever the
request, it takes the tables through at most one of these steps, and of the objects cached before only
those are left that depend on none of the triggers (`Served`). -/

namespace CppBlog

open Effect Store App

/-! ## The steps -/

/-- The triggers of the categories whose boxes are ticked. -/
def tickedTriggers (boxes : List CatBox) : List String :=
  boxes.flatMap (fun cb => if cb.value then ["cat_" ++ cb.identification] else [])

/-- The triggers `post::prepare_shared` rises for the categories a post is in. -/
def delTriggers (changeStatus : Bool) (boxes : List CatBox) : List String :=
  boxes.flatMap (fun cb => if changeStatus then ["cat_" ++ cb.identification] else [])

/-- The triggers of a new post. -/
def createTriggers (f : PostForm) : List String :=
  tickedTriggers f.addToCatList ++ (if f.changeStatus then ["cat_0"] else [])

/-- The triggers of a saved post. -/
def saveTriggers (id : Int) (f : PostForm) : List String :=
  (if f.changeStatus then ["cat_0"] else []) ++ ([postKey id] ++
    (tickedTriggers f.addToCatList ++ delTriggers f.changeStatus f.delFromCatList))

/-- The triggers of a page that is, was or becomes visible. -/
def pageTriggers (visible : Bool) (id : Int) : List String :=
  if visible then [pageIdKey id, "pages"] else []

/-- A request takes the tables from `d` to the tables given, and rises the triggers given. -/
inductive Invalidates (e : Env) (d : Db) : List String → Db → Prop where
  | comment {sid author mail url content : String} {isOpen : Int} {m : Db} :
      routedToPostback e = some sid → d.selectPostIsOpen (Text.atoi sid) = some isOpen →
      isOpen ≠ 0 →
      d.insertComment (Text.atoi sid) author mail url e.chance.now content = .ok m →
      Invalidates e d [postKey (Text.atoi sid), "comments"] (m.updateCommentCount (Text.atoi sid))
  | eraseComment {id postId : Int} : (d.selectComment id).map Comment.postId = some postId →
      Invalidates e d [postKey postId, "comments"] ((d.deleteComment id).updateCommentCount postId)
  | editComment {id postId : Int} (author mail url content : String) :
      (d.selectComment id).map Comment.postId = some postId →
      Invalidates e d [postKey postId, "comments"] (d.updateComment id author mail url content)
  | configure {d' : Db} (f : ConfigForm) : routedToConfig e = true → d.configure f = .ok d' →
      Invalidates e d [] d'
  | storeOptions {d' : Db} (f : OptionsForm) : d.storeOptions f = .ok d' →
      Invalidates e d ["options"] d'
  | createPost {d' : Db} (authorId : Int) (f : PostForm) : routedToNewPost e = true → d.OffersAll f →
      d.createPost authorId f e.chance.now (AdminPost.openStatus false f.changeStatus) = .ok d' →
      Invalidates e d (createTriggers f) d'
  | removePost {sid : String} {isOpen : Int} : routedToEditor e = some sid →
      e.req.method = "POST" → d.selectPostIsOpen (Text.atoi sid) = some isOpen →
      (AdminPost.submission e.req.postOrGet d (Text.atoi sid)).remove = true →
      Invalidates e d ["comments", postKey (Text.atoi sid)]
        (((d.deleteCommentsOf (Text.atoi sid)).deletePost2CatOf (Text.atoi sid)).deletePost
          (Text.atoi sid))
  | savePost {sid : String} {isOpen : Int} {f : PostForm} {d' : Db} : routedToEditor e = some sid →
      e.req.method = "POST" → d.selectPostIsOpen (Text.atoi sid) = some isOpen →
      f = AdminPost.submission e.req.postOrGet d (Text.atoi sid) → f.valid = true →
      f.remove = false →
      d.savePost (Text.atoi sid) f e.chance.now (AdminPost.openStatus (isOpen ≠ 0) f.changeStatus) =
        .ok d' → Invalidates e d (saveTriggers (Text.atoi sid) f) d'
  | createCat {f : CatsForm} {d' : Db} : routedToCategories e = true → e.req.method = "POST" →
      f = (CatsForm.load {} e.req.postOrGet).validate → f.valid = true → f.id.value.isEmpty = true →
      d.insertCat f.cat.value = .ok d' → Invalidates e d ["cats"] d'
  | renameCat {f : CatsForm} : f = (CatsForm.load {} e.req.postOrGet).validate → f.valid = true →
      Invalidates e d ["cats", catKey (Text.atoi f.id.value)]
        (d.updateCat (Text.atoi f.id.value) f.cat.value)
  | removeEmptyCat {id : Int} : d.selectPostInCat id = none →
      Invalidates e d ["cats", catKey id] (d.deleteCat id)
  | removeCat {id : Int} : Invalidates e d ["cats", catKey id] ((d.deletePost2CatIn id).deleteCat id)
  | createPage {d' : Db} (authorId : Int) (title content : String) (changeStatus : Bool) :
      d.insertPage authorId title content (AdminPost.openStatus false changeStatus) = .ok d' →
      Invalidates e d (if changeStatus then ["pages"] else []) d'
  | savePage {id : Int} {p : Page} (title content : String) (changeStatus : Bool) :
      d.selectPage id = some p →
      Invalidates e d (pageTriggers
        (AdminPost.openStatus (p.isOpen ≠ 0) changeStatus ≠ 0 || changeStatus) id)
        (d.updatePage id title content (AdminPost.openStatus (p.isOpen ≠ 0) changeStatus))
  | removePage {id : Int} {p : Page} : d.selectPage id = some p →
      Invalidates e d (pageTriggers (p.isOpen ≠ 0) id) (d.deletePage id)
  | createUser {d' : Db} (username password : String) : d.insertUser username password = .ok d' →
      Invalidates e d [] d'
  | saveUser {sid username password : String} {d' : Db} : routedToUserEdit e = some sid →
      d.updateUser (Text.atoi sid) username password = .ok d' → Invalidates e d [] d'
  | removeUser {sid : String} : routedToUserDel e = some sid →
      Invalidates e d [] (d.deleteUser (Text.atoi sid))

/-- The form a request submits to the editor shows the categories of the tables. -/
theorem offers_submission (data : List (String × String)) (d : Db) (id : Int) :
    d.Offers id (AdminPost.submission data d id) := by
  apply Db.Offers.load
  refine ⟨catBox_identification _, ?_⟩
  rw [AdminPost.emptyForm, ← catBox_identification]
  exact map_filter_identification _ _

/-- Every step is one of the changes. -/
theorem Invalidates.change {e : Env} {d d' : Db} {ts : List String} (h : Invalidates e d ts d') :
    Change d d' := by
  cases h with
  | comment _ hopen hne hm => exact .comment ⟨_, _, _, _, _, _, _, _, hopen, hne, hm, rfl⟩
  | eraseComment hc => exact .eraseComment _ _ hc
  | editComment author mail url content hc => exact .editComment _ _ _ _ _
  | configure f _ hf => exact .configure f hf
  | storeOptions f hf => exact .storeOptions f hf
  | createPost authorId f _ hf hd => exact .createPost authorId f _ hf hd
  | removePost _ _ _ _ => exact .removePost _
  | savePost _ _ hopen hf _ _ hd =>
    exact .savePost _ _ _ _ hopen (hf ▸ offers_submission _ d _) hd
  | createCat _ _ _ _ _ hd => exact .createCat _ hd
  | renameCat _ _ => exact .renameCat _ _
  | removeEmptyCat hp => exact .removeEmptyCat _ hp
  | removeCat => exact .removeCat _
  | createPage authorId title content changeStatus hd => exact .createPage _ _ _ _ hd
  | savePage title content changeStatus _ => exact .savePage _ _ _ _
  | removePage _ => exact .removePage _
  | createUser username password hd => exact .createUser _ _ hd
  | saveUser _ hd => exact .saveUser _ _ _ hd
  | removeUser _ => exact .removeUser _

theorem tickedTriggers_map (boxes : List CatBox) :
    tickedTriggers boxes = (boxes.filter CatBox.value).map (fun cb => "cat_" ++ cb.identification) := by
  induction boxes with
  | nil => rfl
  | cons cb l ih =>
    cases hv : cb.value
    · simpa [tickedTriggers, hv] using ih
    · simpa [tickedTriggers, hv] using ih

variable {α β : Type} {e : Env} {S : Family} {O : Output → Prop} {locale : Nat} {d : Db}

/-! ## The triggers a part of a handler rises -/

/-- What the response says more is allowed. -/
structure Says (O : Output → Prop) (s s' : St) : Prop where
  locale : s'.own.response.locale = s.own.response.locale
  body : ∀ out ∈ s'.own.response.body, out ∈ s.own.response.body ∨ O out

theorem Says.refl (s : St) : Says O s s := ⟨rfl, fun _ => Or.inl⟩

theorem Says.trans {s s' s'' : St} (h : Says O s s') (h' : Says O s' s'') : Says O s s'' := by
  refine ⟨h'.locale.trans h.locale, fun out hout => ?_⟩
  rcases h'.body out hout with h₁ | h₁
  · exact h.body out h₁
  · exact .inr h₁

theorem Says.of_response {s s' : St} (h : s'.own.response = s.own.response) : Says O s s' :=
  ⟨by rw [h], fun _ hout => .inl (h ▸ hout)⟩

/-- The part rises the triggers `ts` when it returns, and at most drops entries when it does not. -/
def Tracks (ts : List String) (p : App α) : Prop :=
  ∀ s, p.wp calls
    (fun _ s' => s'.cache = s.cache.riseAll ts ∧ s'.own.response = s.own.response)
    (fun _ s' => (∀ x ∈ s'.cache, x ∈ s.cache) ∧ s'.own.response = s.own.response) s

namespace Tracks

theorem ret (a : α) : Tracks [] (.ret a : App α) := fun _ => ⟨rfl, rfl⟩

theorem throw (err : Error) (ts : List String) : Tracks ts (.throw err : App α) :=
  fun _ => ⟨fun _ hx => hx, rfl⟩

theorem query (f : Db → β) : Tracks [] (App.query f) := by
  intro s
  rw [wp_query]
  exact ⟨⟨rfl, rfl⟩, fun _ hx => hx, rfl⟩

theorem exec (f : Db → Except SqlError Db) : Tracks [] (App.exec f) := by
  intro s
  rw [wp_exec]
  exact ⟨fun d _ => ⟨by simp, by simp⟩, fun _ _ => ⟨fun _ hx => hx, rfl⟩, fun _ hx => hx, rfl⟩

theorem execTotal (f : Db → Db) : Tracks [] (App.execTotal f) := exec _

theorem rise (t : String) : Tracks [t] (App.rise t) := by
  intro s
  rw [wp_rise]
  exact ⟨rfl, rfl⟩

theorem getOwn (f : Own → β) : Tracks [] (App.getOwn f) := by
  intro s
  rw [wp_getOwn]
  exact ⟨rfl, rfl⟩

theorem bind {ts u : List String} {p : App α} {k : α → App β} (hp : Tracks ts p)
    (hk : ∀ a, Tracks u (k a)) : Tracks (ts ++ u) (p.bind k) := by
  intro s
  refine Prog.wp_seq (hp s) (fun a s' h => ?_) (fun _ _ h => h)
  refine Prog.wp_mono (fun _ s'' h' => ?_) (fun _ s'' h' => ?_) (hk a s')
  · rw [TriggerCache.riseAll_append, ← h.1]
    exact ⟨h'.1, h'.2.trans h.2⟩
  · refine ⟨fun x hx => ?_, h'.2.trans h.2⟩
    have hmem := h'.1 x hx
    rw [h.1] at hmem
    exact (TriggerCache.mem_riseAll.1 hmem).1

theorem ite {c : Prop} [Decidable c] {ts ts' : List String} {p q : App α} (hp : Tracks ts p)
    (hq : Tracks ts' q) : Tracks (if c then ts else ts') (if c then p else q) := by
  split
  · exact hp
  · exact hq

theorem each {f : α → App Unit} {ts : α → List String} (hf : ∀ a, Tracks (ts a) (f a)) (l : List α) :
    Tracks (l.flatMap ts) (Prog.each f l) := by
  induction l with
  | nil => exact ret ()
  | cons a l ih =>
    rw [List.flatMap_cons]
    exact (hf a).bind fun _ => ih

theorem congr {ts ts' : List String} {p : App α} (hp : Tracks ts p) (h : ts = ts') : Tracks ts' p :=
  h ▸ hp

theorem sessionGet (key : String) : Tracks [] (App.sessionGet key) := by
  refine ((getOwn _).bind (u := []) fun v => ?_).congr rfl
  cases v
  · exact throw _ _
  · exact ret _

theorem sessionGetInt (key : String) : Tracks [] (App.sessionGetInt key) := by
  refine ((sessionGet key).bind (u := []) fun v => ?_).congr rfl
  cases Text.readInt? v
  · exact throw _ _
  · exact ret _

end Tracks

/-! ## The end of a handler -/

/-- The tables are as before, the triggers `ts` were risen, and what was said more is allowed. -/
structure Ended (O : Output → Prop) (ts : List String) (s s' : St) : Prop extends Says O s s' where
  db : s'.db = s.db
  tx : s'.tx = s.tx
  cache : s'.cache = s.cache.riseAll ts

/-- The part leaves the state so, and raises nothing. -/
def Ending (O : Output → Prop) (ts : List String) (p : App α) : Prop :=
  ∀ s, p.wp calls (fun _ => Ended O ts s) (fun _ _ => False) s

namespace Ending

theorem ret (a : α) : Ending O [] (.ret a : App α) := fun s => ⟨.refl s, rfl, rfl, rfl⟩

theorem rise (t : String) : Ending O [t] (App.rise t) := by
  intro s
  rw [wp_rise]
  exact ⟨.of_response rfl, rfl, rfl, rfl⟩

theorem setRedirectHeader (location : String) : Ending O [] (App.setRedirectHeader location) := by
  intro s
  rw [wp_setRedirectHeader]
  exact ⟨⟨rfl, fun _ => Or.inl⟩, rfl, rfl, rfl⟩

theorem makeErrorResponse {status : Nat} (hO : O (.error status)) :
    Ending O [] (App.makeErrorResponse status) := by
  intro s
  rw [wp_makeErrorResponse]
  refine ⟨⟨rfl, fun out hout => ?_⟩, rfl, rfl, rfl⟩
  rcases List.mem_append.1 hout with h | h
  · exact .inl h
  · exact .inr (List.mem_singleton.1 h ▸ hO)

theorem bind {ts u : List String} {p : App α} {k : α → App β} (hp : Ending O ts p)
    (hk : ∀ a, Ending O u (k a)) : Ending O (ts ++ u) (p.bind k) := by
  intro s
  refine Prog.wp_seq (hp s) (fun a s' h => ?_) (fun _ _ h => h)
  refine Prog.wp_mono (fun _ s'' h' => ?_) (fun _ _ h' => h') (hk a s')
  refine ⟨h.toSays.trans h'.toSays, h'.db.trans h.db, h'.tx.trans h.tx, ?_⟩
  rw [h'.cache, h.cache, TriggerCache.riseAll_append]

theorem ite {c : Prop} [Decidable c] {ts ts' : List String} {p q : App α} (hp : Ending O ts p)
    (hq : Ending O ts' q) : Ending O (if c then ts else ts') (if c then p else q) := by
  split
  · exact hp
  · exact hq

theorem riseCat (id : Int) : Ending O ["cats", catKey id] (Categories.riseCat id) :=
  (rise _).bind fun _ => rise _

theorem risePage (id : Int) : Ending O [pageIdKey id, "pages"] (AdminPage.risePage id) :=
  (rise _).bind fun _ => rise _

end Ending

/-! ## Blocks of a transaction -/

/-- How a block may leave the state: nothing was committed, or tables that `P` allows with all triggers
    risen, those of `ts` before the block. -/
def Left (O : Output → Prop) (P : Db → List String → Prop) (ts : List String) (s s' : St) : Prop :=
  Says O s s' ∧ ((s'.db = s.db ∧ ∀ x ∈ s'.cache, x ∈ s.cache) ∨
    ∃ ts', P s'.db (ts ++ ts') ∧ s'.cache = s.cache.riseAll ts')

/-- In a transaction whose copy of the tables is `d`, after the triggers `ts`, the block leaves the
    state so. -/
def Concludes (O : Output → Prop) (P : Db → List String → Prop) (ts : List String) (p : App α) (d : Db) :
    Prop :=
  ∀ s, s.tx = some d → p.wp calls (fun _ => Left O P ts s) (fun _ => Left O P ts s) s

namespace Concludes

variable {P : Db → List String → Prop} {ts : List String}

/-- One part of the block after the other. -/
theorem seq {R : Db → α → Db → Prop} {u : List String} {p : App α} {k : α → App β} (hp : InTx R p)
    (htracks : Tracks u p) (hk : ∀ a d', R d a d' → Concludes O P (ts ++ u) (k a) d') :
    Concludes O P ts (p.bind k) d := by
  intro s hs
  refine Prog.wp_seq (Prog.wp_and (hp s d hs) (htracks s)) (fun a s' h => ?_) (fun _ s' h => ?_)
  · obtain ⟨⟨hout, d', hd', hR⟩, hcache, hresponse⟩ := h
    have hleft {s'' : St} (h : Left O P (ts ++ u) s' s'') : Left O P ts s s'' := by
      refine ⟨(Says.of_response hresponse).trans h.1, ?_⟩
      rcases h.2 with ⟨hdb, hsub⟩ | ⟨ts'', hP, hc⟩
      · refine .inl ⟨hdb.trans hout.1, fun x hx => ?_⟩
        have hmem := hsub x hx
        rw [hcache] at hmem
        exact (TriggerCache.mem_riseAll.1 hmem).1
      · refine .inr ⟨u ++ ts'', ?_, ?_⟩
        · rw [← List.append_assoc]
          exact hP
        · rw [hc, hcache, TriggerCache.riseAll_append]
    exact Prog.wp_mono (fun _ _ => hleft) (fun _ _ => hleft) (hk a d' hR s' hd')
  · exact ⟨.of_response h.2.2, .inl ⟨h.1.1, h.2.1⟩⟩

theorem exec {f : Db → Except SqlError Db} {k : Unit → App β}
    (hk : ∀ d', f d = .ok d' → Concludes O P ts (k ()) d') : Concludes O P ts ((App.exec f).bind k) d :=
  seq (u := []) (.exec f) (.exec f) fun _ d' h => by
    rw [List.append_nil]
    exact hk d' h

theorem execTotal {f : Db → Db} {k : Unit → App β} (hk : Concludes O P ts (k ()) (f d)) :
    Concludes O P ts ((App.execTotal f).bind k) d :=
  exec fun d' h => by
    obtain rfl := Except.ok.inj h
    exact hk

theorem query {f : Db → α} {k : α → App β} (hk : Concludes O P ts (k (f d)) d) :
    Concludes O P ts ((App.query f).bind k) d :=
  seq (u := []) (.query f) (.query f) fun _ _ h => by
    rw [List.append_nil, h.1, h.2]
    exact hk

/-- A part that changes neither the tables nor what is risen. -/
theorem skip {p : App α} {k : α → App β} (hp : p.Within calls Idle) (htracks : Tracks [] p)
    (hk : ∀ a, Concludes O P ts (k a) d) : Concludes O P ts (p.bind k) d :=
  seq (.idle hp) htracks fun a _ h => by
    rw [List.append_nil, h]
    exact hk a

theorem rise {t : String} {k : Unit → App β} (hk : Concludes O P (ts ++ [t]) (k ()) d) :
    Concludes O P ts ((App.rise t).bind k) d :=
  seq (.idle (Idle.rise t)) (.rise t) fun _ _ h => by
    rw [h]
    exact hk

/-- A trigger that is risen under a condition. -/
theorem riseIf {c : Prop} [Decidable c] {t : String} {k : Unit → App β}
    (hk : Concludes O P (ts ++ if c then [t] else []) (k ()) d) :
    Concludes O P ts ((if c then App.rise t else .ret ()).bind k) d :=
  seq (.idle (.ite (Idle.rise t) (.ret ()))) (.ite (.rise t) (.ret ())) fun _ _ h => by
    rw [h]
    exact hk

/-- A block that ends without a commit. -/
theorem stop {p : App α} (hp : Ending O [] p) : Concludes O P ts p d := by
  intro s _
  refine Prog.wp_mono (fun _ s' h => ?_) (fun _ _ h => absurd h id) (hp s)
  refine ⟨h.toSays, .inl ⟨h.db, fun x hx => ?_⟩⟩
  rw [h.cache] at hx
  exact hx

/-- The commit, and what is risen behind it. -/
theorem commit {u : List String} {k : Unit → App β} (hd : P d (ts ++ u)) (hk : Ending O u (k ())) :
    Concludes O P ts (App.commit.bind k) d := by
  intro s hs
  have hcur : s.current = d := by simp [St.current, hs]
  rw [Prog.wp_bind, wp_commit]
  refine ⟨Prog.wp_mono (fun _ s' h => ?_) (fun _ _ h => absurd h id) (hk _), ?_⟩
  · refine ⟨⟨h.locale, h.body⟩, .inr ⟨u, ?_, h.cache⟩⟩
    rw [h.db, hcur]
    exact hd
  · exact ⟨.refl s, .inl ⟨rfl, fun _ hx => hx⟩⟩

theorem commitLast (hd : P d ts) : Concludes O P ts App.commit d := by
  rw [← Prog.bind_ret App.commit]
  refine commit (u := []) ?_ (.ret ())
  rw [List.append_nil]
  exact hd

end Concludes

/-! ## Requests -/

/-- The tables a request may leave. -/
def Reached (e : Env) (d d' : Db) : Prop := d' = d ∨ ∃ ts, Invalidates e d ts d'

theorem Reached.versioned {d' : Db} (h : Reached e d d') (hv : Versioned d) : Versioned d' := by
  rcases h with rfl | ⟨ts, h⟩
  · exact hv
  · exact hv.change h.change

/-- What is cached is still right after a step that rises none of its triggers. -/
def Survives (S : Family) (e : Env) (d : Db) (c : Cache) : Prop :=
  ∀ ts d', Invalidates e d ts d' → ∀ x ∈ c, ∀ o : CachedObject, x.key = o.key →
    S d o x.value x.triggers → (∀ t ∈ ts, t ∉ x.triggers) → S d' o x.value x.triggers

/-- The state of a request before it has written: what it may write is known to be right. -/
structure Serving (S : Family) (O : Output → Prop) (l : Nat) (e : Env) (d : Db) (s : St) : Prop
    extends Ready l S d s where
  versioned : Versioned d
  closed : ∀ d', Reached e d d' → Closed e l S d' O
  survives : Survives S e d s.cache

/-- The request has left tables it may leave, and the cache is right for them. -/
def Served (S : Family) (O : Output → Prop) (locale : Nat) (e : Env) (d : Db) (s s' : St) : Prop :=
  ∃ d', Reached e d d' ∧ Answered S O locale d' s s'

/-- Only data of the request that no page shows has changed. -/
structure Aside (s s' : St) : Prop where
  db : s'.db = s.db
  tx : s'.tx = s.tx
  cache : s'.cache = s.cache
  body : s'.own.response.body = s.own.response.body
  locale : s'.own.response.locale = s.own.response.locale

instance : IsPreorder St Aside where
  refl _ := ⟨rfl, rfl, rfl, rfl, rfl⟩
  trans _ _ _ h h' := ⟨h'.db.trans h.db, h'.tx.trans h.tx, h'.cache.trans h.cache,
    h'.body.trans h.body, h'.locale.trans h.locale⟩

namespace Aside

theorem query (f : Db → β) : (App.query f).Within calls Aside := fun _ => wp_query.2 ⟨refl _, refl _⟩

theorem own {f : Own → β × Own} (h : ∀ o, (f o).2.response.body = o.response.body ∧
    (f o).2.response.locale = o.response.locale) :
    (Prog.perform (.own f) : App β).Within calls Aside :=
  fun s => wp_own.2 ⟨rfl, rfl, rfl, (h s.own).1, (h s.own).2⟩

theorem getOwn (f : Own → β) : (App.getOwn f).Within calls Aside := own fun _ => ⟨rfl, rfl⟩

theorem sessionSet (key value : String) : (App.sessionSet key value).Within calls Aside :=
  own fun _ => ⟨rfl, rfl⟩

theorem sessionClear : App.sessionClear.Within calls Aside := own fun _ => ⟨rfl, rfl⟩

theorem setRedirectHeader (location : String) :
    (App.setRedirectHeader location).Within calls Aside := own fun _ => ⟨rfl, rfl⟩

theorem sessionGet (key : String) : (App.sessionGet key).Within calls Aside := by
  refine (getOwn _).bind fun v => ?_
  cases v
  · exact .throw _
  · exact .ret _

theorem sessionGetInt (key : String) : (App.sessionGetInt key).Within calls Aside := by
  refine (sessionGet key).bind fun v => ?_
  cases Text.readInt? v
  · exact .throw _
  · exact .ret _

end Aside

namespace Serving

variable {s : St}

theorem closed_self (h : Serving S O locale e d s) : Closed e locale S d O := h.closed d (.inl rfl)

theorem aside {s' : St} (h : Serving S O locale e d s) (hs : Aside s s') :
    Serving S O locale e d s' where
  db := hs.db.trans h.db
  tx := hs.tx.trans h.tx
  locale := hs.locale.trans h.locale
  cache := hs.cache ▸ h.cache
  versioned := h.versioned
  closed := h.closed
  survives := hs.cache ▸ h.survives

theorem self (h : Serving S O locale e d s) : Served S O locale e d s s :=
  ⟨d, .inl rfl, h.toReady, fun _ => Or.inl⟩

/-- A part that only reads and answers. -/
theorem answers {p : App α} (h : Serving S O locale e d s)
    (hp : p.Within calls (Answers S O locale d)) :
    p.wp calls (fun _ => Served S O locale e d s) (fun _ => Served S O locale e d s) s :=
  hp.wp (fun _ _ h' => ⟨d, .inl rfl, h' h.toReady⟩) (fun _ _ h' => ⟨d, .inl rfl, h' h.toReady⟩)

/-- A step that was taken, with its triggers risen. -/
theorem step {d' : Db} {ts : List String} {s' : St} (h : Serving S O locale e d s)
    (hstep : Invalidates e d ts d') (hdb : s'.db = d') (htx : s'.tx = none) (hbody : Says O s s')
    (hcache : s'.cache = s.cache.riseAll ts) : Served S O locale e d s s' := by
  refine ⟨d', .inr ⟨ts, hstep⟩, ⟨hdb, htx, hbody.locale.trans h.locale, ?_⟩, hbody.body⟩
  rw [hcache]
  refine TriggerCache.Valid.riseAll h.cache fun x hx hvalid hts => ?_
  obtain ⟨o, ho, hS⟩ := hvalid
  exact ⟨o, ho, h.survives ts d' hstep x hx o ho hS hts⟩

/-- Nothing was committed, though some triggers may have been risen. -/
theorem stay {s' : St} (h : Serving S O locale e d s) (hdb : s'.db = s.db) (htx : s'.tx = none)
    (hbody : Says O s s') (hcache : ∀ x ∈ s'.cache, x ∈ s.cache) : Served S O locale e d s s' :=
  ⟨d, .inl rfl, ⟨hdb.trans h.db, htx, hbody.locale.trans h.locale,
    TriggerCache.Valid.subset h.cache hcache⟩, hbody.body⟩

/-- A transaction whose block commits a step or nothing. -/
theorem transaction {body : App α} (h : Serving S O locale e d s)
    (hbody : Concludes O (fun d' ts => Invalidates e d ts d') [] body d) :
    (App.transaction body).wp calls (fun _ => Served S O locale e d s)
      (fun _ => Served S O locale e d s) s := by
  have hleft {s' : St} (h' : Left O (fun d' ts => Invalidates e d ts d') []
      { s with tx := some s.db } s') : Served S O locale e d s { s' with tx := none } := by
    have hbody : Says O s { s' with tx := none } := ⟨h'.1.locale, h'.1.body⟩
    rcases h'.2 with ⟨hdb, hcache⟩ | ⟨ts, hstep, hcache⟩
    · exact h.stay hdb rfl hbody hcache
    · exact h.step hstep rfl rfl hbody hcache
  rw [wp_transaction]
  refine ⟨?_, h.self⟩
  exact Prog.wp_mono (fun _ _ => hleft) (fun _ _ => hleft) (hbody { s with tx := some s.db } (by rw [h.db]))

end Serving

namespace Served

variable {s s' : St}

theorem aside {s₀ : St} (h : Served S O locale e d s s') (hs : Aside s₀ s) :
    Served S O locale e d s₀ s' := by
  obtain ⟨d', hd', hready, hbody⟩ := h
  exact ⟨d', hd', hready, fun out hout => hs.body ▸ hbody out hout⟩

/-- What is read and answered after a step. -/
theorem answers {p : App α} (h : Served S O locale e d s s')
    (hp : ∀ d', Reached e d d' → p.Within calls (Answers S O locale d')) :
    p.wp calls (fun _ => Served S O locale e d s) (fun _ => Served S O locale e d s) s' := by
  obtain ⟨d', hd', hready, hbody⟩ := h
  have hmore {s'' : St} (h : Answered S O locale d' s' s'') : Served S O locale e d s s'' := by
    refine ⟨d', hd', h.ready, fun out hout => ?_⟩
    rcases h.body out hout with h' | h'
    · exact hbody out h'
    · exact .inr h'
  exact (hp d' hd').wp (fun _ _ h => hmore (h hready)) (fun _ _ h => hmore (h hready))

end Served

namespace Serving

variable {s : St}

/-- What comes before the handler writes. -/
theorem prelude {p : App α} {k : α → App β} (h : Serving S O locale e d s)
    (hp : p.Within calls Aside)
    (hk : ∀ a s', Serving S O locale e d s' → (k a).wp calls (fun _ => Served S O locale e d s')
      (fun _ => Served S O locale e d s') s') :
    (p.bind k).wp calls (fun _ => Served S O locale e d s) (fun _ => Served S O locale e d s) s := by
  refine Prog.wp_seq (hp s) (fun a s' h' => ?_) (fun _ s' h' => (h.aside h').self.aside h')
  exact Prog.wp_mono (fun _ _ h'' => h''.aside h') (fun _ _ h'' => h''.aside h') (hk a s' (h.aside h'))

/-- The form a request has submitted. -/
theorem loadForm {φ : Type} {load : List (String × String) → φ} {k : φ → App β}
    (h : Serving S O locale e d s)
    (hk : ∀ s', Serving S O locale e d s' → (k (load e.req.postOrGet)).wp calls
      (fun _ => Served S O locale e d s') (fun _ => Served S O locale e d s') s') :
    ((App.loadForm e load).bind k).wp calls (fun _ => Served S O locale e d s)
      (fun _ => Served S O locale e d s) s := by
  have hs : Aside s (s.setOwn { s.own with csrfChecked := true }) := ⟨rfl, rfl, rfl, rfl, rfl⟩
  have h' := h.aside hs
  rw [Prog.wp_bind, wp_loadForm]
  split
  · exact h'.self.aside hs
  · exact Prog.wp_mono (fun _ _ h'' => h''.aside hs) (fun _ _ h'' => h''.aside hs) (hk _ h')

/-- What comes behind the part that writes. -/
theorem andThen {p : App α} {k : α → App β}
    (hp : p.wp calls (fun _ => Served S O locale e d s) (fun _ => Served S O locale e d s) s)
    (hk : ∀ a d', Reached e d d' → (k a).Within calls (Answers S O locale d')) :
    (p.bind k).wp calls (fun _ => Served S O locale e d s) (fun _ => Served S O locale e d s) s :=
  Prog.wp_seq hp (fun a _ h' => h'.answers (hk a)) (fun _ _ h' => h')

end Serving

/-- A statement outside of any transaction, its triggers, and the rest of the handler. -/
theorem Serving.exec {s : St} {f : Db → Except SqlError Db} {ts : List String} {p : App α}
    {k : α → App β} (h : Serving S O locale e d s)
    (hf : ∀ d', f d = .ok d' → Invalidates e d ts d') (hp : Ending O ts p)
    (hk : ∀ a d', Reached e d d' → (k a).Within calls (Answers S O locale d')) :
    ((App.exec f).bind fun _ => p.bind k).wp calls (fun _ => Served S O locale e d s)
      (fun _ => Served S O locale e d s) s := by
  rw [Prog.wp_bind, wp_exec, h.current]
  refine ⟨fun d' hd' => ?_, fun _ _ => h.self, h.self⟩
  have hput : s.put d' = { s with db := d' } := by simp only [St.put, h.tx]
  rw [hput]
  refine Prog.wp_seq (hp _) (fun a s' h' => ?_) (fun _ _ h' => absurd h' id)
  exact (h.step (hf d' hd') h'.db (h'.tx.trans h.tx) ⟨h'.locale, h'.body⟩ h'.cache).answers (hk a)

end CppBlog
