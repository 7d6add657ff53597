import CppBlog.Invalidation

set_option autoImplicit false

/-! # What the steps do to the tables

For each table, the steps that write it, with the triggers they rise; what all other steps leave alone
is one equation. -/

namespace CppBlog

open Store

variable {e : Env} {d d' : Db} {ts : List String}

/-! ## Static pages -/

/-- What a step does to the pages. -/
inductive PageStep (d : Db) (ts : List String) (d' : Db) : Prop where
  | same : d'.pages = d.pages → PageStep d ts d'
  | create {authorId : Int} {title content : String} {changeStatus : Bool} :
      d.insertPage authorId title content (AdminPost.openStatus false changeStatus) = .ok d' →
      ts = (if changeStatus then ["pages"] else []) → PageStep d ts d'
  | save {id : Int} {p : Page} {title content : String} {changeStatus : Bool} :
      d.selectPage id = some p →
      d' = d.updatePage id title content (AdminPost.openStatus (p.isOpen ≠ 0) changeStatus) →
      ts = pageTriggers (AdminPost.openStatus (p.isOpen ≠ 0) changeStatus ≠ 0 || changeStatus) id →
      PageStep d ts d'
  | remove {id : Int} {p : Page} : d.selectPage id = some p → d' = d.deletePage id →
      ts = pageTriggers (p.isOpen ≠ 0) id → PageStep d ts d'

theorem Invalidates.pages (h : Invalidates e d ts d') : PageStep d ts d' := by
  cases h with
  | comment _ _ _ hm => exact .same (by rw [Db.updateCommentCount, (Db.insertComment_eq_ok hm).1])
  | eraseComment _ => exact .same rfl
  | editComment _ _ _ _ _ => exact .same rfl
  | configure f _ hf => exact .same (by rw [Db.configure_frame hf])
  | storeOptions f hf => exact .same (by rw [Db.storeOptions_frame hf])
  | createPost _ f _ _ hd => exact .same (by rw [Db.createPost_frame hd])
  | removePost _ _ _ _ => exact .same rfl
  | savePost _ _ _ _ _ _ hd => exact .same (by rw [Db.savePost_frame hd])
  | createCat _ _ _ _ _ hd => exact .same (by rw [(Db.insertCat_eq_ok hd).1])
  | renameCat _ _ => exact .same rfl
  | removeEmptyCat _ => exact .same rfl
  | removeCat => exact .same rfl
  | createPage authorId title content changeStatus hd => exact .create hd rfl
  | savePage title content changeStatus hpage => exact .save hpage rfl rfl
  | removePage hpage => exact .remove hpage rfl rfl
  | createUser _ _ hd => exact .same (by rw [Db.insertUser_frame hd])
  | saveUser _ hd => exact .same (by rw [Db.updateUser_frame hd])
  | removeUser _ => exact .same rfl

/-! ## Categories -/

/-- What a step does to the categories. -/
inductive CatStep (d : Db) (ts : List String) (d' : Db) : Prop where
  | same : d'.cats = d.cats → CatStep d ts d'
  | create {name : String} : name ≠ "" → d.insertCat name = .ok d' → ts = ["cats"] → CatStep d ts d'
  | rename {id : Int} {name : String} : name ≠ "" → d' = d.updateCat id name →
      ts = ["cats", catKey id] → CatStep d ts d'
  | remove {id : Int} : d'.cats = d.cats.delete (fun r => r.id = id) → ts = ["cats", catKey id] →
      CatStep d ts d'

/-- A valid form names the category. -/
theorem catsForm_name {data : List (String × String)} {f : CatsForm}
    (hf : f = (CatsForm.load {} data).validate) (hvalid : f.valid = true) : f.cat.value ≠ "" := by
  subst hf
  simp only [CatsForm.valid, Bool.and_eq_true] at hvalid
  have hlength := TextField.le_length_of_validate hvalid.2
  have hlow : (CatsForm.load {} data).cat.low = 1 := TextField.load_low _ _ _
  rw [hlow] at hlength
  intro hempty
  have hvalue : (CatsForm.load {} data).cat.value = "" := hempty
  rw [hvalue] at hlength
  exact absurd hlength (by decide)

theorem Invalidates.cats (h : Invalidates e d ts d') : CatStep d ts d' := by
  cases h with
  | comment _ _ _ hm => exact .same (by rw [Db.updateCommentCount, (Db.insertComment_eq_ok hm).1])
  | eraseComment _ => exact .same rfl
  | editComment _ _ _ _ _ => exact .same rfl
  | configure f _ hf => exact .same (by rw [Db.configure_frame hf])
  | storeOptions f hf => exact .same (by rw [Db.storeOptions_frame hf])
  | createPost _ f _ _ hd => exact .same (by rw [Db.createPost_frame hd])
  | removePost _ _ _ _ => exact .same rfl
  | savePost _ _ _ _ _ _ hd => exact .same (by rw [Db.savePost_frame hd])
  | createCat _ _ hf hvalid _ hd => exact .create (catsForm_name hf hvalid) hd rfl
  | renameCat hf hvalid => exact .rename (catsForm_name hf hvalid) rfl rfl
  | removeEmptyCat _ => exact .remove rfl rfl
  | removeCat => exact .remove rfl rfl
  | createPage _ _ _ _ hd => exact .same (by rw [Db.insertPage_frame hd])
  | savePage _ _ _ _ => exact .same rfl
  | removePage _ => exact .same rfl
  | createUser _ _ hd => exact .same (by rw [Db.insertUser_frame hd])
  | saveUser _ hd => exact .same (by rw [Db.updateUser_frame hd])
  | removeUser _ => exact .same rfl

/-! ## Posts and their places in categories -/

/-- What a step does to the posts and to the rows that put them into categories. -/
inductive PostStep (e : Env) (d : Db) (ts : List String) (d' : Db) : Prop where
  | same : d'.posts = d.posts → d'.post2cat = d.post2cat → PostStep e d ts d'
  | count {id n : Int} : d'.posts = d.posts.update (fun r => r.id = id)
        (fun r => { r with commentCount := n }) (fun _ => rfl) → d'.post2cat = d.post2cat →
      postKey id ∈ ts → PostStep e d ts d'
  | create {authorId : Int} {f : PostForm} : d.OffersAll f →
      d.createPost authorId f e.chance.now (AdminPost.openStatus false f.changeStatus) = .ok d' →
      ts = createTriggers f → PostStep e d ts d'
  | remove {id : Int} : d'.posts = d.posts.delete (fun r => r.id = id) →
      d'.post2cat = d.post2cat.delete (fun r => r.postId = id) → postKey id ∈ ts → PostStep e d ts d'
  | save {id isOpen : Int} {f : PostForm} : d.selectPostIsOpen id = some isOpen → d.Offers id f →
      d.savePost id f e.chance.now (AdminPost.openStatus (isOpen ≠ 0) f.changeStatus) = .ok d' →
      ts = saveTriggers id f → PostStep e d ts d'
  | dropCat {id : Int} : d'.posts = d.posts →
      d'.post2cat = d.post2cat.delete (fun r => r.catId = id) → catKey id ∈ ts → PostStep e d ts d'

theorem Invalidates.posts (h : Invalidates e d ts d') : PostStep e d ts d' := by
  cases h with
  | comment _ _ _ hm =>
    rename_i m _ _ _
    have hframe := (Db.insertComment_eq_ok hm).1
    have hposts : m.posts = d.posts := by rw [hframe]
    have hpost2cat : m.post2cat = d.post2cat := by rw [hframe]
    exact .count (by rw [← hposts]; rfl) hpost2cat List.mem_cons_self
  | eraseComment _ => exact .count rfl rfl List.mem_cons_self
  | editComment _ _ _ _ _ => exact .same rfl rfl
  | configure f _ hf => exact .same (by rw [Db.configure_frame hf]) (by rw [Db.configure_frame hf])
  | storeOptions f hf => exact .same (by rw [Db.storeOptions_frame hf]) (by rw [Db.storeOptions_frame hf])
  | createPost _ f _ hf hd => exact .create hf hd rfl
  | removePost _ _ _ _ => exact .remove rfl rfl (List.mem_cons_of_mem _ List.mem_cons_self)
  | savePost _ _ hopen hf _ _ hd =>
    subst hf
    exact .save hopen (offers_submission _ d _) hd rfl
  | createCat _ _ _ _ _ hd =>
    have hframe := (Db.insertCat_eq_ok hd).1
    exact .same (by rw [hframe]) (by rw [hframe])
  | renameCat _ _ => exact .same rfl rfl
  | removeEmptyCat _ => exact .same rfl rfl
  | removeCat => exact .dropCat rfl rfl (List.mem_cons_of_mem _ List.mem_cons_self)
  | createPage _ _ _ _ hd => exact .same (by rw [Db.insertPage_frame hd]) (by rw [Db.insertPage_frame hd])
  | savePage _ _ _ _ => exact .same rfl rfl
  | removePage _ => exact .same rfl rfl
  | createUser _ _ hd => exact .same (by rw [Db.insertUser_frame hd]) (by rw [Db.insertUser_frame hd])
  | saveUser _ hd => exact .same (by rw [Db.updateUser_frame hd]) (by rw [Db.updateUser_frame hd])
  | removeUser _ => exact .same rfl rfl

/-! ## Comments -/

/-- What a step does to the comments. -/
inductive CommentStep (d : Db) (ts : List String) (d' : Db) : Prop where
  | same : d'.comments = d.comments → CommentStep d ts d'
  | insert {c : Comment} : d'.comments.rows = d.comments.rows ++ [c] → ts = [postKey c.postId, "comments"] →
      CommentStep d ts d'
  | erase {id postId : Int} : (d.selectComment id).map Comment.postId = some postId →
      d'.comments = d.comments.delete (fun r => r.id = id) → ts = [postKey postId, "comments"] →
      CommentStep d ts d'
  | edit {id postId : Int} {author email url content : String} :
      (d.selectComment id).map Comment.postId = some postId →
      d' = d.updateComment id author email url content → ts = [postKey postId, "comments"] →
      CommentStep d ts d'
  | eraseOf {postId : Int} : d'.comments = d.comments.delete (fun r => r.postId = postId) →
      ts = ["comments", postKey postId] → CommentStep d ts d'

theorem Invalidates.comments (h : Invalidates e d ts d') : CommentStep d ts d' := by
  cases h with
  | comment _ _ _ hm => exact .insert (Db.insertComment_eq_ok hm).2 rfl
  | eraseComment hc => exact .erase hc rfl rfl
  | editComment _ _ _ _ hc => exact .edit hc rfl rfl
  | configure f _ hf => exact .same (by rw [Db.configure_frame hf])
  | storeOptions f hf => exact .same (by rw [Db.storeOptions_frame hf])
  | createPost _ f _ _ hd => exact .same (by rw [Db.createPost_frame hd])
  | removePost _ _ _ _ => exact .eraseOf rfl rfl
  | savePost _ _ _ _ _ _ hd => exact .same (by rw [Db.savePost_frame hd])
  | createCat _ _ _ _ _ hd => exact .same (by rw [(Db.insertCat_eq_ok hd).1])
  | renameCat _ _ => exact .same rfl
  | removeEmptyCat _ => exact .same rfl
  | removeCat => exact .same rfl
  | createPage _ _ _ _ hd => exact .same (by rw [Db.insertPage_frame hd])
  | savePage _ _ _ _ => exact .same rfl
  | removePage _ => exact .same rfl
  | createUser _ _ hd => exact .same (by rw [Db.insertUser_frame hd])
  | saveUser _ hd => exact .same (by rw [Db.updateUser_frame hd])
  | removeUser _ => exact .same rfl

/-! ## Options -/

/-- The options are written by the configuration and by their editor. -/
theorem Invalidates.options (h : Invalidates e d ts d') : d'.textOptions = d.textOptions ∨
    (∃ f, d.configure f = .ok d') ∨ ∃ f, d.storeOptions f = .ok d' := by
  cases h with
  | comment _ _ _ hm => exact .inl (by rw [Db.updateCommentCount, (Db.insertComment_eq_ok hm).1])
  | configure f _ hf => exact .inr (.inl ⟨f, hf⟩)
  | storeOptions f hf => exact .inr (.inr ⟨f, hf⟩)
  | createPost _ f _ _ hd => exact .inl (by rw [Db.createPost_frame hd])
  | savePost _ _ _ _ _ _ hd => exact .inl (by rw [Db.savePost_frame hd])
  | createCat _ _ _ _ _ hd => exact .inl (by rw [(Db.insertCat_eq_ok hd).1])
  | createPage _ _ _ _ hd => exact .inl (by rw [Db.insertPage_frame hd])
  | createUser _ _ hd => exact .inl (by rw [Db.insertUser_frame hd])
  | saveUser _ hd => exact .inl (by rw [Db.updateUser_frame hd])
  | _ => exact .inl rfl

/-- Besides the configuration only the editor of the options writes them. -/
theorem Invalidates.textOptions (h : Invalidates e d ts d') (hconfig : routedToConfig e = false)
    (hts : "options" ∉ ts) : d'.textOptions = d.textOptions := by
  cases h with
  | comment _ _ _ hm => rw [Db.updateCommentCount, (Db.insertComment_eq_ok hm).1]
  | configure f hroute _ =>
    rw [hconfig] at hroute
    exact absurd hroute (by simp)
  | storeOptions f _ => exact absurd List.mem_cons_self hts
  | createPost _ f _ _ hd => rw [Db.createPost_frame hd]
  | savePost _ _ _ _ _ _ hd => rw [Db.savePost_frame hd]
  | createCat _ _ _ _ _ hd => rw [(Db.insertCat_eq_ok hd).1]
  | createPage _ _ _ _ hd => rw [Db.insertPage_frame hd]
  | createUser _ _ hd => rw [Db.insertUser_frame hd]
  | saveUser _ hd => rw [Db.updateUser_frame hd]
  | _ => rfl

/-! ## Users -/

/-- What a step does to the users. -/
inductive UserStep (e : Env) (d d' : Db) : Prop where
  | same : d'.users = d.users → UserStep e d d'
  | create {u : User} : u.id = d.users.seq + 1 → d'.users.rows = d.users.rows ++ [u] → UserStep e d d'
  | save {sid username password : String} : routedToUserEdit e = some sid →
      d'.users = d.users.update (fun r => r.id = Text.atoi sid)
        (fun r => { r with username := username, password := password }) (fun _ => rfl) → UserStep e d d'
  | remove {sid : String} : routedToUserDel e = some sid →
      d'.users = d.users.delete (fun r => r.id = Text.atoi sid) → UserStep e d d'

theorem UserStep.of_insertUser {m : Db} {username password : String} (h : m.insertUser username password = .ok d')
    (hm : m.users = d.users) : UserStep e d d' := by
  unfold Db.insertUser at h
  split at h
  · cases h
  · obtain ⟨t, ht, rfl⟩ := Option.map_eq_some_iff.1 (Db.orRefuse_eq_ok.1 h)
    rw [hm] at ht
    exact .create (u := ⟨d.users.seq + 1, username, password⟩) rfl (AutoTable.insert?_eq_some ht).2.1

theorem Invalidates.users (h : Invalidates e d ts d') : UserStep e d d' := by
  cases h with
  | comment _ _ _ hm => exact .same (by rw [Db.updateCommentCount, (Db.insertComment_eq_ok hm).1])
  | eraseComment _ => exact .same rfl
  | editComment _ _ _ _ _ => exact .same rfl
  | configure f _ hf =>
    unfold Db.configure at hf
    cases hm : (d.deleteOptions Config.replacedOptions).insertOptions
        [("is_configured", "yes"), ("blog_title", f.title.value), ("blog_description", f.subtitle.value),
         ("contact", f.contact.value)] with
    | error err => simp [hm, Except.bind] at hf
    | ok m =>
      simp only [hm, Except.bind] at hf
      exact .of_insertUser hf (by rw [Db.insertOptions_frame hm]; rfl)
  | storeOptions f hf => exact .same (by rw [Db.storeOptions_frame hf])
  | createPost _ f _ _ hd => exact .same (by rw [Db.createPost_frame hd])
  | removePost _ _ _ _ => exact .same rfl
  | savePost _ _ _ _ _ _ hd => exact .same (by rw [Db.savePost_frame hd])
  | createCat _ _ _ _ _ hd => exact .same (by rw [(Db.insertCat_eq_ok hd).1])
  | renameCat _ _ => exact .same rfl
  | removeEmptyCat _ => exact .same rfl
  | removeCat => exact .same rfl
  | createPage _ _ _ _ hd => exact .same (by rw [Db.insertPage_frame hd])
  | savePage _ _ _ _ => exact .same rfl
  | removePage _ => exact .same rfl
  | createUser _ _ hd => exact .of_insertUser hd rfl
  | saveUser hroute hd =>
    unfold Db.updateUser at hd
    split at hd
    · cases hd
    · cases hd
      exact .save hroute rfl
  | removeUser hroute => exact .remove hroute rfl

/-! ## Triggers -/

theorem mem_tickedTriggers {boxes : List CatBox} {t : String} (h : t ∈ tickedTriggers boxes) :
    ∃ cb ∈ boxes, cb.value = true ∧ t = "cat_" ++ cb.identification := by
  obtain ⟨cb, hcb, ht⟩ := List.mem_flatMap.1 h
  split at ht
  · rename_i hv
    exact ⟨cb, hcb, hv, List.mem_singleton.1 ht⟩
  · exact absurd ht List.not_mem_nil

theorem mem_delTriggers {changeStatus : Bool} {boxes : List CatBox} {t : String} :
    t ∈ delTriggers changeStatus boxes ↔
      changeStatus = true ∧ ∃ cb ∈ boxes, t = "cat_" ++ cb.identification := by
  cases changeStatus <;> simp [delTriggers]

/-- The boxes the editor shows are those of categories. -/
theorem Db.Offers.del_subset {id : Int} {f : PostForm} (h : d.Offers id f) :
    f.delFromCatList.map CatBox.identification ⊆ (d.selectCatsOf id).map (fun c => toString c.id) := by
  rw [h.del]
  exact List.Subset.refl _

theorem Db.Offers.add_subset {id : Int} {f : PostForm} (h : d.Offers id f) :
    f.addToCatList.map CatBox.identification ⊆ d.selectCats.map (fun c => toString c.id) := by
  rw [h.add]
  exact List.filter_subset_self _

/-- A trigger made from a box is that of a category. -/
theorem trigger_of_box {boxes : List CatBox} {cats : List Cat}
    (h : boxes.map CatBox.identification ⊆ cats.map (fun c => toString c.id)) {cb : CatBox}
    (hcb : cb ∈ boxes) : ∃ c ∈ cats, "cat_" ++ cb.identification = catKey c.id := by
  obtain ⟨c, hc, hid⟩ := List.mem_map.1 (h (List.mem_map_of_mem hcb))
  exact ⟨c, hc, by rw [← hid, catKey]⟩

/-- Every trigger a step rises is one of the list. -/
theorem Invalidates.risen (h : Invalidates e d ts d') : ∀ t ∈ ts, Risen t := by
  have hcat0 : Risen "cat_0" := Risen.cat 0
  have hbox {boxes : List CatBox} {cats : List Cat}
      (hboxes : boxes.map CatBox.identification ⊆ cats.map (fun c => toString c.id))
      {cb : CatBox} (hcb : cb ∈ boxes) : Risen ("cat_" ++ cb.identification) := by
    obtain ⟨c, -, hc⟩ := trigger_of_box hboxes hcb
    rw [hc]
    exact .cat c.id
  have hpage {visible : Bool} {id : Int} {t : String} (ht : t ∈ pageTriggers visible id) : Risen t := by
    cases visible
    · exact absurd ht List.not_mem_nil
    · rcases List.mem_pair.1 ht with rfl | rfl
      · exact .page id
      · exact .pages
  intro t ht
  cases h with
  | comment _ _ _ _ =>
    rcases List.mem_pair.1 ht with rfl | rfl
    · exact .post _
    · exact .comments
  | eraseComment _ =>
    rcases List.mem_pair.1 ht with rfl | rfl
    · exact .post _
    · exact .comments
  | editComment _ _ _ _ _ =>
    rcases List.mem_pair.1 ht with rfl | rfl
    · exact .post _
    · exact .comments
  | configure _ _ _ => exact absurd ht List.not_mem_nil
  | storeOptions _ _ =>
    obtain rfl := List.mem_singleton.1 ht
    exact .options
  | createPost _ f _ hf _ =>
    rcases List.mem_append.1 ht with h | h
    · obtain ⟨cb, hcb, -, rfl⟩ := mem_tickedTriggers h
      exact hbox (fun _ hx => hf ▸ hx) hcb
    · split at h
      · obtain rfl := List.mem_singleton.1 h
        exact hcat0
      · exact absurd h List.not_mem_nil
  | removePost _ _ _ _ =>
    rcases List.mem_pair.1 ht with rfl | rfl
    · exact .comments
    · exact .post _
  | savePost _ _ _ hf _ _ _ =>
    subst hf
    have hoffers := offers_submission e.req.postOrGet d
    rcases List.mem_append.1 ht with h | h
    · split at h
      · obtain rfl := List.mem_singleton.1 h
        exact hcat0
      · exact absurd h List.not_mem_nil
    rcases List.mem_append.1 h with h | h
    · obtain rfl := List.mem_singleton.1 h
      exact .post _
    rcases List.mem_append.1 h with h | h
    · obtain ⟨cb, hcb, -, rfl⟩ := mem_tickedTriggers h
      exact hbox (hoffers _).add_subset hcb
    · obtain ⟨-, cb, hcb, rfl⟩ := mem_delTriggers.1 h
      exact hbox (hoffers _).del_subset hcb
  | createCat _ _ _ _ _ _ =>
    obtain rfl := List.mem_singleton.1 ht
    exact .cats
  | renameCat _ _ =>
    rcases List.mem_pair.1 ht with rfl | rfl
    · exact .cats
    · exact .cat _
  | removeEmptyCat _ =>
    rcases List.mem_pair.1 ht with rfl | rfl
    · exact .cats
    · exact .cat _
  | removeCat =>
    rcases List.mem_pair.1 ht with rfl | rfl
    · exact .cats
    · exact .cat _
  | createPage _ _ _ _ _ =>
    split at ht
    · obtain rfl := List.mem_singleton.1 ht
      exact .pages
    · exact absurd ht List.not_mem_nil
  | savePage _ _ _ _ => exact hpage ht
  | removePage _ => exact hpage ht
  | createUser _ _ _ => exact absurd ht List.not_mem_nil
  | saveUser _ _ => exact absurd ht List.not_mem_nil
  | removeUser _ => exact absurd ht List.not_mem_nil

end CppBlog
