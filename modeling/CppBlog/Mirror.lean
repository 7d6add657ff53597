import CppBlog.Frames
import CppBlog.Requests

set_option autoImplicit false

/-! # The copies in post2cat

`post2cat` repeats the publication time and the status of its post. The post editor writes both tables
by different statements, depending on the buttons and the boxes; every combination keeps the copies
right, and no row it inserts is refused, because it offers only categories the post is not in. -/

namespace CppBlog

open Effect Store App Relation

/-- The row says what the post says. -/
structure Post2Cat.Copies (r : Post2Cat) (p : Post) : Prop where
  id : p.id = r.postId
  isOpen : r.isOpen = p.isOpen
  publish : r.publish = p.publish

/-- Every row of `post2cat` belongs to a post, whose status and publication time it carries, and to a
    category; the status of a post is 0 or 1. -/
structure Mirrored (d : Db) : Prop where
  post : ∀ r ∈ d.post2cat.rows, ∃ p ∈ d.posts.rows, r.Copies p
  cat : ∀ r ∈ d.post2cat.rows, ∃ c ∈ d.cats.rows, c.id = r.catId
  status : ∀ p ∈ d.posts.rows, p.isOpen = 0 ∨ p.isOpen = 1

theorem mirrored_fresh : Mirrored Db.fresh where
  post _ h := absurd h List.not_mem_nil
  cat _ h := absurd h List.not_mem_nil
  status _ h := absurd h List.not_mem_nil

/-- Posts, categories and `post2cat` are as before. -/
theorem Mirrored.congr {d d' : Db} (h : Mirrored d) (hp : d'.posts = d.posts)
    (hc : d'.cats = d.cats) (hpc : d'.post2cat = d.post2cat) : Mirrored d' :=
  ⟨hpc ▸ hp ▸ h.post, hpc ▸ hc ▸ h.cat, hp ▸ h.status⟩

/-- Rewriting posts in other columns than those `post2cat` repeats. -/
theorem Mirrored.updatePosts {d d' : Db} (h : Mirrored d) {q : Post → Bool} {f : Post → Post}
    {hf : ∀ r, (f r).id = r.id} (hp : d'.posts = d.posts.update q f hf) (hc : d'.cats = d.cats)
    (hpc : d'.post2cat = d.post2cat) (hopen : ∀ r ∈ d.posts.rows, q r = true → (f r).isOpen = r.isOpen)
    (hpublish : ∀ r, (f r).publish = r.publish) : Mirrored d' where
  post r hr := by
    rw [hpc] at hr
    obtain ⟨p, hpm, hcopies⟩ := h.post r hr
    refine ⟨if q p then f p else p, hp ▸ AutoTable.mem_update_rows.2 ⟨p, hpm, rfl⟩, ?_⟩
    by_cases hq : q p = true
    · rw [if_pos hq]
      exact ⟨(hf p).trans hcopies.id, (hopen p hpm hq).symm ▸ hcopies.isOpen,
        (hpublish p).symm ▸ hcopies.publish⟩
    · rw [if_neg hq]
      exact hcopies
  cat := hpc ▸ hc ▸ h.cat
  status p hpm := by
    rw [hp] at hpm
    obtain ⟨p', hp', rfl⟩ := AutoTable.mem_update_rows.1 hpm
    split
    · next hq => exact (hopen p' hp' hq).symm ▸ h.status p' hp'
    · exact h.status p' hp'

/-- Dropping rows of `post2cat`. -/
theorem Mirrored.dropRows {d d' : Db} (h : Mirrored d) (hp : d'.posts = d.posts)
    (hc : d'.cats = d.cats) (hpc : ∀ r ∈ d'.post2cat.rows, r ∈ d.post2cat.rows) : Mirrored d' :=
  ⟨fun r hr => hp ▸ h.post r (hpc r hr), fun r hr => hc ▸ h.cat r (hpc r hr), hp ▸ h.status⟩

theorem Mirrored.delFromCats {d : Db} (h : Mirrored d) (id : Int) (boxes : List CatBox) :
    Mirrored (Db.delFromCats id boxes d) := by
  induction boxes generalizing d with
  | nil => exact h
  | cons cb l ih =>
      simp only [Db.delFromCats]
      split
      · exact ih h
      · exact ih (h.dropRows rfl rfl fun r hr => (Table.mem_delete.1 hr).1)

/-- The check boxes name categories, each of them once. -/
structure NamesCats (d : Db) (boxes : List CatBox) : Prop where
  cat : ∀ b ∈ boxes, ∃ c ∈ d.cats.rows, c.id = Text.atoi b.identification
  nodup : (boxes.map (fun b => Text.atoi b.identification)).Nodup

/-- No row for the post and one of the check boxes. -/
def NewTo (d : Db) (id : Int) (boxes : List CatBox) : Prop :=
  ∀ r ∈ d.post2cat.rows, r.postId = id → ∀ b ∈ boxes, r.catId ≠ Text.atoi b.identification

/-- Putting a post into categories it is not in: every row is accepted, and copies the post. -/
theorem addToCats_ok {d : Db} {p : Post} (hd : Mirrored d) (hp : p ∈ d.posts.rows) {boxes : List CatBox}
    (hboxes : NamesCats d boxes) (hnew : NewTo d p.id boxes) :
    ∃ d', Db.addToCats p.id p.publish p.isOpen boxes d = .ok d' ∧ Mirrored d' := by
  induction boxes generalizing d with
  | nil => exact ⟨d, rfl, hd⟩
  | cons cb l ih =>
      have hl : NamesCats d l :=
        ⟨fun b hb => hboxes.cat b (List.mem_cons_of_mem cb hb), (List.nodup_cons.1 hboxes.nodup).2⟩
      simp only [Db.addToCats]
      split
      · exact ih hd hp hl fun r hr hid b hb => hnew r hr hid b (List.mem_cons_of_mem cb hb)
      · -- the row of `cb` is new, and stays apart from those of the boxes that follow
        obtain ⟨t, ht⟩ := Table.insert?_isSome d.post2cat
          ⟨p.id, Text.atoi cb.identification, p.publish, p.isOpen⟩ fun r hr hkey =>
            hnew r hr (Prod.ext_iff.1 hkey).1 cb List.mem_cons_self (Prod.ext_iff.1 hkey).2
        have hrows := Table.insert?_eq_some ht
        have hins : d.insertPost2Cat p.id (Text.atoi cb.identification) p.publish p.isOpen =
            .ok { d with post2cat := t } := by simp [Db.insertPost2Cat, ht, orRefuse]
        simp only [hins, Except.bind]
        refine ih ⟨fun r hr => ?_, fun r hr => ?_, hd.status⟩ hp ⟨hl.cat, hl.nodup⟩ fun r hr hid b hb => ?_
        all_goals
          rw [hrows] at hr
          rcases List.mem_append.1 hr with hr | hr
        · exact hd.post r hr
        · rw [List.mem_singleton.1 hr]
          exact ⟨p, hp, rfl, rfl, rfl⟩
        · exact hd.cat r hr
        · rw [List.mem_singleton.1 hr]
          exact hboxes.cat cb List.mem_cons_self
        · exact hnew r hr hid b (List.mem_cons_of_mem cb hb)
        · rw [List.mem_singleton.1 hr]
          intro heq
          exact (List.nodup_cons.1 hboxes.nodup).1 (List.mem_map.2 ⟨b, hb, heq.symm⟩)

/-! ## What the post editor offers -/

/-- The number of a category survives the text of its check box. -/
theorem atoi_toString_cat {d : Db} {c : Cat} (hc : c ∈ d.cats.rows) :
    Text.atoi (toString c.id) = c.id := by
  have hpos : 0 < c.id := d.cats.key_pos c hc
  have hle : c.id ≤ 2147483647 := (d.cats.le_seq c hc).trans d.cats.seq_le
  exact Text.atoi_toString (by omega) hle

/-- The check boxes of a form name categories of the tables, each once. -/
theorem namesCats_of_map {d : Db} {boxes : List CatBox} {q : String → Bool}
    (h : boxes.map CatBox.identification =
      (d.selectCats.map (fun c => toString c.id)).filter q) : NamesCats d boxes := by
  have hprint : (d.selectCats.map (fun c => toString c.id)).map Text.atoi = d.cats.rows.map Cat.id := by
    rw [List.map_map]
    exact List.map_congr_left fun c hc => atoi_toString_cat hc
  have hsub : (boxes.map (fun b => Text.atoi b.identification)).Sublist (d.cats.rows.map Cat.id) := by
    have : boxes.map (fun b => Text.atoi b.identification) =
        (boxes.map CatBox.identification).map Text.atoi := by rw [List.map_map]; rfl
    rw [this, h, ← hprint]
    exact List.filter_sublist.map Text.atoi
  refine ⟨fun b hb => ?_, hsub.nodup d.cats.nodup⟩
  obtain ⟨c, hc, hid⟩ := List.mem_map.1 (hsub.subset (List.mem_map_of_mem hb))
  exact ⟨c, hc, hid⟩

/-- The editor offers to add only categories the post is not in. -/
theorem newTo_of_offers {d : Db} (hd : Mirrored d) {id : Int} {f : PostForm} (h : d.Offers id f) :
    NewTo d id f.addToCatList := by
  intro r hr hid b hb heq
  have hadd : b.identification ∈ f.addToCatList.map CatBox.identification := List.mem_map_of_mem hb
  rw [h.add] at hadd
  have hnot := (List.mem_filter.1 hadd).2
  simp only [AdminPost.notAmong, decide_eq_true_eq] at hnot
  -- the category of the row is one the editor has found the post in
  obtain ⟨c, hc, hcid⟩ := hd.cat r hr
  have hmem : c ∈ d.selectCatsOf id :=
    List.mem_filterMap.2 ⟨r, List.mem_filter.2 ⟨hr, by simp [hid]⟩,
      (Table.find?_eq_some _ _ _).2 ⟨hc, hcid⟩⟩
  have hbox : toString c.id ∈ f.delFromCatList.map CatBox.identification :=
    h.del ▸ List.mem_map_of_mem hmem
  obtain ⟨b', hb', hb'id⟩ := List.mem_map.1 hbox
  refine hnot (List.mem_map.2 ⟨b', hb', ?_⟩)
  rw [hb'id, atoi_toString_cat hc, hcid, heq]

/-! ## Saving a post -/

/-- The row of a post was written, with the status `openStatus`, and its copies with it. -/
structure RowSaved (d m : Db) (id : Int) (publish : Tm) (openStatus : Int) : Prop where
  mirrored : Mirrored m
  post : ∃ p ∈ m.posts.rows, p.id = id ∧ p.publish = publish ∧ p.isOpen = openStatus
  cats : m.cats = d.cats
  keys : ∀ r ∈ m.post2cat.rows, ∃ r' ∈ d.post2cat.rows, r'.postId = r.postId ∧ r'.catId = r.catId

theorem openStatus_cases (isOpen changeStatus : Bool) :
    AdminPost.openStatus isOpen changeStatus = 0 ∨ AdminPost.openStatus isOpen changeStatus = 1 := by
  cases isOpen <;> cases changeStatus <;> decide

/-- A post and its copies rewritten together. -/
theorem Mirrored.updateBoth {d m : Db} (h : Mirrored d) {id : Int} {f : Post → Post}
    {g : Post2Cat → Post2Cat} {hf : ∀ r, (f r).id = r.id}
    (hp : m.posts = d.posts.update (fun r => r.id = id) f hf) (hc : m.cats = d.cats)
    (hpc : m.post2cat.rows = d.post2cat.rows.map (fun r => if decide (r.postId = id) then g r else r))
    (hcat : ∀ r, (g r).catId = r.catId) (hcopies : ∀ r p, r.Copies p → (g r).Copies (f p))
    (hstatus : ∀ p, (f p).isOpen = 0 ∨ (f p).isOpen = 1) : Mirrored m where
  post r hr := by
    rw [hpc] at hr
    obtain ⟨r', hr', rfl⟩ := List.mem_map.1 hr
    obtain ⟨p, hpm, hold⟩ := h.post r' hr'
    refine ⟨if p.id = id then f p else p, hp ▸ AutoTable.mem_update_rows.2 ⟨p, hpm, by simp⟩, ?_⟩
    by_cases hid : p.id = id
    · have hrid : r'.postId = id := hold.id ▸ hid
      simp only [hid, hrid, decide_true, if_true]
      exact hcopies r' p hold
    · have hrid : r'.postId ≠ id := hold.id ▸ hid
      simp only [hid, hrid, decide_false, Bool.false_eq_true, if_false]
      exact hold
  cat r hr := by
    rw [hpc] at hr
    obtain ⟨r', hr', rfl⟩ := List.mem_map.1 hr
    rw [hc]
    split
    · rw [hcat]
      exact h.cat r' hr'
    · exact h.cat r' hr'
  status p hpm := by
    rw [hp] at hpm
    obtain ⟨p', hp', rfl⟩ := AutoTable.mem_update_rows.1 hpm
    split
    · exact hstatus p'
    · exact h.status p' hp'

/-- The keys of rewritten rows are old ones. -/
theorem keys_of_update {d m : Db} {q : Post2Cat → Bool} {g : Post2Cat → Post2Cat}
    (hpc : m.post2cat.rows = d.post2cat.rows.map (fun r => if q r then g r else r))
    (hg : ∀ r, (g r).postId = r.postId ∧ (g r).catId = r.catId) :
    ∀ r ∈ m.post2cat.rows, ∃ r' ∈ d.post2cat.rows, r'.postId = r.postId ∧ r'.catId = r.catId := by
  intro r hr
  rw [hpc] at hr
  obtain ⟨r', hr', rfl⟩ := List.mem_map.1 hr
  refine ⟨r', hr', ?_⟩
  split
  · exact ⟨(hg r').1.symm, (hg r').2.symm⟩
  · exact ⟨rfl, rfl⟩

/-- Without a publication the time is the one the post has. -/
theorem updateRow_of_found {d : Db} {id : Int} {f : PostForm} (now : Tm) {publish : Tm} {openStatus : Int}
    (h : ¬(f.changeStatus && decide (openStatus ≠ 0)) = true)
    (hfound : (d.updatePost id f.title.value f.abstract.value f.content.value
      openStatus).selectPostPublish id = some publish) :
    Db.updateRow id f now openStatus d = .ok (publish,
      if f.changeStatus then (d.updatePost id f.title.value f.abstract.value f.content.value
        openStatus).updatePost2CatOpen id openStatus
      else d.updatePost id f.title.value f.abstract.value f.content.value openStatus) := by
  rw [Db.updateRow, if_neg h]
  simp only [hfound]

/-- Writing the row of an existing post succeeds and keeps the copies right. -/
theorem updateRow_ok {d : Db} (hd : Mirrored d) {id isOpen : Int} (f : PostForm) (now : Tm)
    (hopen : d.selectPostIsOpen id = some isOpen) :
    ∃ publish m, Db.updateRow id f now (AdminPost.openStatus (isOpen ≠ 0) f.changeStatus) d =
        .ok (publish, m) ∧
      RowSaved d m id publish (AdminPost.openStatus (isOpen ≠ 0) f.changeStatus) := by
  obtain ⟨p, hp, hid, hpo⟩ := Db.selectPostIsOpen_eq_some hopen
  have hstatus := openStatus_cases (isOpen ≠ 0) f.changeStatus
  -- the post is still there after an update of its row
  have hmem {g : Post → Post} (hg : ∀ r, (g r).id = r.id) :
      g p ∈ (d.posts.update (fun r => r.id = id) g hg).rows :=
    AutoTable.mem_update_rows.2 ⟨p, hp, by simp [hid]⟩
  by_cases hpub : (f.changeStatus && decide (AdminPost.openStatus (isOpen ≠ 0) f.changeStatus ≠ 0)) = true
  · -- published now: both tables get the time and the status
    refine ⟨now, _, by rw [Db.updateRow, if_pos hpub], ?_⟩
    refine ⟨hd.updateBoth rfl rfl rfl (fun _ => rfl) (fun r q hq => ⟨hq.id, rfl, rfl⟩) fun _ => hstatus,
      ⟨_, hmem _, hid, rfl, rfl⟩, rfl, keys_of_update rfl fun _ => ⟨rfl, rfl⟩⟩
  · have hfound : (d.updatePost id f.title.value f.abstract.value f.content.value
        (AdminPost.openStatus (isOpen ≠ 0) f.changeStatus)).selectPostPublish id = some p.publish :=
      Option.map_eq_some_iff.2 ⟨_, (Table.find?_eq_some _ _ _).2 ⟨hmem _, hid⟩, rfl⟩
    refine ⟨p.publish, _, updateRow_of_found _ hpub hfound, ?_⟩
    cases hch : f.changeStatus
    · -- the status is written back as it was
      have hsame : ∀ r ∈ d.posts.rows, decide (r.id = id) = true →
          AdminPost.openStatus (isOpen ≠ 0) false = r.isOpen := by
        intro r hr hrid
        have hrp : r = p := List.inj_on_of_nodup_map d.posts.nodup hr hp
          ((of_decide_eq_true hrid).trans hid.symm)
        rw [hrp, hpo]
        rcases hd.status p hp with h | h <;> rw [← hpo, h] <;> decide
      refine ⟨hd.updatePosts rfl rfl rfl hsame fun _ => rfl, ⟨_, hmem _, hid, rfl, rfl⟩, rfl,
        fun r hr => ⟨r, hr, rfl, rfl⟩⟩
    · rw [hch] at hstatus
      exact ⟨hd.updateBoth rfl rfl rfl (fun _ => rfl) (fun r q hq => ⟨hq.id, rfl, hq.publish⟩) fun _ => hstatus,
        ⟨_, hmem _, hid, rfl, rfl⟩, rfl, keys_of_update rfl fun _ => ⟨rfl, rfl⟩⟩

/-- The statements of a save from the editor's form: none of them is refused. -/
theorem saveSteps_ok {d : Db} (hd : Mirrored d) {id isOpen : Int} {f : PostForm} (now : Tm)
    (hopen : d.selectPostIsOpen id = some isOpen) (hf : d.Offers id f) :
    ∃ publish m m', Db.updateRow id f now (AdminPost.openStatus (isOpen ≠ 0) f.changeStatus) d =
        .ok (publish, m) ∧
      Db.addToCats id publish (AdminPost.openStatus (isOpen ≠ 0) f.changeStatus) f.addToCatList m =
        .ok m' ∧ Mirrored m' := by
  obtain ⟨publish, m, hrow, hm⟩ := updateRow_ok hd f now hopen
  obtain ⟨p, hp, rfl, rfl, hpo⟩ := hm.post
  have hboxes := namesCats_of_map hf.add
  have hnew : NewTo m p.id f.addToCatList := by
    intro r hr hrid b hb
    obtain ⟨r', hr', hpost, hcat⟩ := hm.keys r hr
    exact hcat ▸ newTo_of_offers hd hf r' hr' (hpost.trans hrid) b hb
  obtain ⟨d₂, hadd, hd₂⟩ := addToCats_ok hm.mirrored hp ⟨hm.cats ▸ hboxes.cat, hboxes.nodup⟩ hnew
  rw [hpo] at hadd
  exact ⟨p.publish, m, d₂, hrow, hadd, hd₂⟩

/-- **Saving an existing post from the editor's form never fails for the schema's constraints, and
    keeps the copies right.** -/
theorem savePost_ok {d : Db} (hd : Mirrored d) {id isOpen : Int} {f : PostForm} (now : Tm)
    (hopen : d.selectPostIsOpen id = some isOpen) (hf : d.Offers id f) :
    ∃ d', d.savePost id f now (AdminPost.openStatus (isOpen ≠ 0) f.changeStatus) = .ok d' ∧
      Mirrored d' := by
  obtain ⟨publish, m, m', hrow, hadd, hm'⟩ := saveSteps_ok hd now hopen hf
  refine ⟨_, ?_, hm'.delFromCats id f.delFromCatList⟩
  simp only [Db.savePost, hrow, Except.bind, hadd]

/-! ## Creating and removing -/

/-- Entering a new post into categories of the editor's form: every row is accepted. -/
theorem addToCats_new_ok {d m : Db} (hd : Mirrored d) {authorId : Int} {f : PostForm} {now : Tm}
    {changeStatus : Bool} (hf : d.OffersAll f)
    (hm : d.insertPost authorId f.title.value f.abstract.value f.content.value now
      (AdminPost.openStatus false changeStatus) = .ok m) :
    ∃ d', Db.addToCats m.lastPostId now (AdminPost.openStatus false changeStatus) f.addToCatList m =
      .ok d' ∧ Mirrored d' := by
  obtain ⟨hframe, hlast, hrows⟩ := Db.insertPost_eq_ok hm
  have hpc : m.post2cat = d.post2cat := by rw [hframe]
  have hc : m.cats = d.cats := by rw [hframe]
  have hmirrored : Mirrored m := by
    refine ⟨fun r hr => ?_, hpc ▸ hc ▸ hd.cat, fun p hp => ?_⟩
    · obtain ⟨p, hp, hcopies⟩ := hd.post r (hpc ▸ hr)
      exact ⟨p, hrows ▸ List.mem_append_left _ hp, hcopies⟩
    · rcases List.mem_append.1 (hrows ▸ hp) with hp | hp
      · exact hd.status p hp
      · rw [List.mem_singleton.1 hp]
        exact openStatus_cases false changeStatus
  have hmem := hrows ▸ List.mem_append_right d.posts.rows (List.mem_singleton_self _)
  have hboxes : NamesCats d f.addToCatList :=
    namesCats_of_map (hf.trans (List.filter_eq_self.2 fun _ _ => rfl).symm)
  rw [hlast]
  -- the number of the new post is in no row
  refine addToCats_ok hmirrored hmem ⟨hc ▸ hboxes.cat, hboxes.nodup⟩ fun r hr hid => ?_
  obtain ⟨p, hp, hcopies⟩ := hd.post r (hpc ▸ hr)
  have hle : p.id ≤ d.posts.seq := d.posts.le_seq p hp
  have hpid := hcopies.id
  dsimp only at hid
  omega

theorem Mirrored.createPost {d d' : Db} (hd : Mirrored d) {authorId : Int} {f : PostForm} {now : Tm}
    (hf : d.OffersAll f)
    (h : d.createPost authorId f now (AdminPost.openStatus false f.changeStatus) = .ok d') :
    Mirrored d' := by
  unfold Db.createPost at h
  cases hm : d.insertPost authorId f.title.value f.abstract.value f.content.value now
      (AdminPost.openStatus false f.changeStatus) with
  | error err => simp [hm, Except.bind] at h
  | ok m =>
      obtain ⟨d₁, hadd, hd₁⟩ := addToCats_new_ok hd hf hm
      simp only [hm, Except.bind, hadd, Except.ok.injEq] at h
      exact h ▸ hd₁

theorem Mirrored.removePost {d : Db} (hd : Mirrored d) (id : Int) :
    Mirrored (((d.deleteCommentsOf id).deletePost2CatOf id).deletePost id) where
  post r hr := by
    obtain ⟨hr, hid⟩ := Table.mem_delete.1 hr
    obtain ⟨p, hp, hcopies⟩ := hd.post r hr
    have hpid := hcopies.id
    refine ⟨p, AutoTable.mem_delete_rows.2 ⟨hp, ?_⟩, hcopies⟩
    simp_all
  cat r hr := hd.cat r (Table.mem_delete.1 hr).1
  status p hp := hd.status p (AutoTable.mem_delete_rows.1 hp).1

/-- Dropping a category in which no row is left. -/
theorem Mirrored.dropCat {d d' : Db} (hd : Mirrored d) {id : Int} (hp : d'.posts = d.posts)
    (hpc : ∀ r ∈ d'.post2cat.rows, r ∈ d.post2cat.rows ∧ r.catId ≠ id)
    (hc : d'.cats = (d.deleteCat id).cats) : Mirrored d' where
  post r hr := hp ▸ hd.post r (hpc r hr).1
  cat r hr := by
    obtain ⟨c, hcm, hid⟩ := hd.cat r (hpc r hr).1
    have hne := (hpc r hr).2
    refine ⟨c, hc ▸ AutoTable.mem_delete_rows.2 ⟨hcm, ?_⟩, hid⟩
    simpa [hid] using hne
  status := hp ▸ hd.status

theorem Mirrored.removeEmptyCat {d : Db} (hd : Mirrored d) {id : Int}
    (h : d.selectPostInCat id = none) : Mirrored (d.deleteCat id) := by
  refine hd.dropCat rfl (fun r hr => ⟨hr, ?_⟩) rfl
  simpa using List.find?_eq_none.1 (Option.map_eq_none_iff.1 h) r hr

theorem Mirrored.removeCat {d : Db} (hd : Mirrored d) (id : Int) :
    Mirrored ((d.deletePost2CatIn id).deleteCat id) := by
  refine hd.dropCat rfl (fun r hr => ?_) rfl
  obtain ⟨hr, hid⟩ := Table.mem_delete.1 hr
  exact ⟨hr, by simpa using hid⟩

/-- More categories, or the same ones renamed. -/
theorem Mirrored.moreCats {d d' : Db} (hd : Mirrored d) (hp : d'.posts = d.posts)
    (hpc : d'.post2cat = d.post2cat) (hc : ∀ c ∈ d.cats.rows, ∃ c' ∈ d'.cats.rows, c'.id = c.id) :
    Mirrored d' where
  post := hp ▸ hpc ▸ hd.post
  cat r hr := by
    obtain ⟨c, hcm, hid⟩ := hd.cat r (hpc ▸ hr)
    exact hid ▸ hc c hcm
  status := hp ▸ hd.status

theorem Mirrored.upgraded {d d' : Db} (hd : Mirrored d) (h : Upgraded d d') : Mirrored d' := by
  obtain ⟨-, m, hm, rfl⟩ := h
  unfold Db.updatePost2CatFromPosts at hm
  split at hm
  · cases hm
    refine ⟨fun r hr => ?_, fun r hr => ?_, hd.status⟩
    all_goals obtain ⟨r', hr', rfl⟩ := List.mem_map.1 hr
    · obtain ⟨p, hp, hcopies⟩ := hd.post r' hr'
      have hfind : d.posts.find? r'.postId = some p :=
        (Table.find?_eq_some _ _ _).2 ⟨hp, hcopies.id⟩
      exact ⟨p, hp, hcopies.id, by simp [hfind], hcopies.publish⟩
    · exact hd.cat r' hr'
  · cases hm

/-- What one change preserves. -/
theorem Mirrored.change {d d' : Db} (h : Mirrored d) (hc : Change d d') : Mirrored d' := by
  cases hc with
  | upgrade hu => exact h.upgraded hu
  | configure f hf =>
      have := Db.configure_frame hf
      exact h.congr (by rw [this]) (by rw [this]) (by rw [this])
  | comment hc =>
      obtain ⟨id, author, mail, url, now, content, isOpen, m, -, -, hm, rfl⟩ := hc
      have hframe := (Db.insertComment_eq_ok hm).1
      have hm : Mirrored m := h.congr (by rw [hframe]) (by rw [hframe]) (by rw [hframe])
      exact hm.updatePosts rfl rfl rfl (fun _ _ _ => rfl) fun _ => rfl
  | eraseComment id postId hc => exact h.updatePosts rfl rfl rfl (fun _ _ _ => rfl) fun _ => rfl
  | editComment id author email url content => exact h.congr rfl rfl rfl
  | storeOptions f hf =>
      have := Db.storeOptions_frame hf
      exact h.congr (by rw [this]) (by rw [this]) (by rw [this])
  | createPost authorId f now hf hd => exact h.createPost hf hd
  | removePost id => exact h.removePost id
  | savePost id isOpen f now hopen hf hd =>
      obtain ⟨d₁, hd₁, hm⟩ := savePost_ok h now hopen hf
      rw [hd] at hd₁
      exact Except.ok.inj hd₁ ▸ hm
  | createCat name hn =>
      obtain ⟨hframe, hrows⟩ := Db.insertCat_eq_ok hn
      exact h.moreCats (by rw [hframe]) (by rw [hframe])
        fun c hc => ⟨c, hrows ▸ List.mem_append_left _ hc, rfl⟩
  | renameCat id name => exact h.moreCats rfl rfl fun c hc => AutoTable.exists_mem_update _ hc
  | removeEmptyCat id hp => exact h.removeEmptyCat hp
  | removeCat id => exact h.removeCat id
  | createPage authorId title content isOpen hp =>
      have := Db.insertPage_frame hp
      exact h.congr (by rw [this]) (by rw [this]) (by rw [this])
  | savePage id title content isOpen => exact h.congr rfl rfl rfl
  | removePage id => exact h.congr rfl rfl rfl
  | createUser username password hu =>
      have := Db.insertUser_frame hu
      exact h.congr (by rw [this]) (by rw [this]) (by rw [this])
  | saveUser id username password hu =>
      have := Db.updateUser_frame hu
      exact h.congr (by rw [this]) (by rw [this]) (by rw [this])
  | removeUser id => exact h.congr rfl rfl rfl

/-! ## No row is refused -/

/-- None of the program's statements is refused for a key that is in use. -/
abbrev Unrefused {α : Type} (p : App α) : Prop := p.Raises calls (· ≠ .sql .unique)

namespace Unrefused

variable {α β : Type}

theorem query (f : Db → β) : Unrefused (App.query f) := fun _ => wp_query.2 ⟨trivial, by simp⟩

theorem exec {f : Db → Except SqlError Db} (hf : ∀ d, f d ≠ .error .unique) :
    Unrefused (App.exec f) :=
  fun s => wp_exec.2 ⟨fun _ _ => trivial, fun err herr => by rintro ⟨⟩; exact hf _ herr, by simp⟩

theorem execTotal (f : Db → Db) : Unrefused (App.execTotal f) := exec fun _ => by simp

theorem own (f : Own → β × Own) : Unrefused (Prog.perform (.own f) : App β) :=
  fun _ => wp_own.2 trivial

theorem cache (f : Cache → β × Cache) : Unrefused (App.cache f) := fun _ => wp_cache.2 trivial

theorem commit : Unrefused App.commit := fun _ => wp_commit.2 ⟨trivial, by simp⟩

theorem transaction {body : App α} (h : Unrefused body) : Unrefused (App.transaction body) :=
  fun _ => wp_transaction.2 ⟨h _, by simp⟩

theorem sessionGetInt (key : String) : Unrefused (App.sessionGetInt key) := by
  refine Prog.Raises.bind (Prog.Raises.bind (own _) fun v => ?_) fun v => ?_
  · cases v
    · exact .throw (by simp)
    · exact .ret _
  · cases Text.readInt? v
    · exact .throw (by simp)
    · exact .ret _

theorem sessionGet (key : String) : Unrefused (App.sessionGet key) := by
  refine Prog.Raises.bind (own _) fun v => ?_
  cases v
  · exact .throw (by simp)
  · exact .ret _

theorem loadForm {φ : Type} (e : Env) (load : List (String × String) → φ) :
    Unrefused (App.loadForm e load) := by
  intro s
  rw [wp_loadForm]
  split
  · simp
  · trivial

theorem fetch (key : String) : Unrefused (App.fetch key) := by
  refine (cache _).bind fun r => ?_
  cases r
  · exact .ret _
  · exact (own _).bind fun _ => .ret _

/-- One part of a transaction's block after the other, with what the first part computes. -/
theorem seq {R : Db → α → Db → Prop} {p : App α} {k : α → App β} (hp : InTx R p) (hu : Unrefused p)
    {s : St} {d : Db} (hs : s.tx = some d)
    (hk : ∀ a d' s', R d a d' → s'.tx = some d' →
      (k a).wp calls (fun _ _ => True) (fun err _ => err ≠ .sql .unique) s') :
    (p.bind k).wp calls (fun _ _ => True) (fun err _ => err ≠ .sql .unique) s := by
  refine Prog.wp_seq (Prog.wp_and (hp s d hs) (hu s)) ?_ (fun _ _ h => h.2)
  rintro a s' ⟨⟨-, d', hd', hR⟩, -⟩
  exact hk a d' s' hR hd'

end Unrefused

theorem unrefused_upgrade (v : String) : Unrefused (upgrade v) := by
  have hcalls : ∀ call ∈ callbacks, Unrefused call := by
    intro call hcall
    simp only [callbacks, List.mem_cons, List.not_mem_nil, or_false] at hcall
    rcases hcall with rfl | rfl | rfl
    · exact .throw (by simp)
    · exact .throw (by simp)
    · refine (Unrefused.exec fun d => ?_).bind fun _ => (Unrefused.execTotal _).bind fun _ => .ret _
      unfold Db.updatePost2CatFromPosts
      split <;> simp
  have hloop (rounds ver : Nat) : Unrefused (upgradeLoop ver rounds) := by
    induction rounds generalizing ver with
    | zero => exact .ret _
    | succ rounds ih =>
        unfold upgradeLoop
        split
        · exact .throw (by simp)
        · next call hcall =>
            exact (hcalls call (List.mem_of_getElem? hcall)).bind fun _ => .ite (ih _) (.ret _)
  refine .ite (.ret _) <| .ite (.ret _) <| Unrefused.transaction <| (hloop _ _).bind fun _ => ?_
  exact .ite (Unrefused.commit.bind fun _ => .ret _) (.ret _)

theorem unrefused_basicPrepare : Unrefused basicPrepare := by
  refine (Unrefused.fetch _).bind fun r => ?_
  split
  · exact .ret _
  · exact .throw (by simp)
  · refine (Unrefused.query _).bind fun _ => Prog.Raises.bind ?_ fun _ => .ite (.throw (by simp)) ?_
    · exact .ite (.ret _) ((unrefused_upgrade _).bind fun ok => by
        cases ok
        · exact .throw (by simp)
        · exact .ret _)
    · exact ((Unrefused.own _).bind fun _ => Unrefused.cache _).bind fun _ => .ret _

theorem unrefused_postEditor (e : Env) (id : Int) (isOpen : Bool) (f : PostForm) :
    Unrefused (AdminPost.render e id isOpen f) := by
  have hprepare : Unrefused adminPrepare :=
    unrefused_basicPrepare.bind fun _ => (Unrefused.own _).bind fun _ =>
      .ite ((Unrefused.sessionGetInt _).bind fun _ => (Unrefused.sessionGet _).bind fun _ => .ret _)
        (.ret _)
  exact hprepare.bind fun _ => (Unrefused.own _).bind fun _ => Unrefused.own _

/-- The loop over the boxes is refused only where the rows themselves are. -/
theorem wp_addToCats_unrefused {id : Int} {now : Tm} {openStatus : Int} {boxes : List CatBox}
    {d d' : Db} (hok : Db.addToCats id now openStatus boxes d = .ok d') {s : St} (hs : s.tx = some d) :
    (AdminPost.addToCats id now openStatus boxes).wp calls (fun _ _ => True)
      (fun err _ => err ≠ .sql .unique) s := by
  induction boxes generalizing d s with
  | nil => trivial
  | cons cb l ih =>
      simp only [AdminPost.addToCats, Prog.each, Db.addToCats] at hok ⊢
      split at hok
      · next hv =>
          rw [if_pos hv]
          exact ih hok hs
      · next hv =>
          rw [if_neg hv]
          cases hm : d.insertPost2Cat id (Text.atoi cb.identification) now openStatus with
          | error err => simp [hm, Except.bind] at hok
          | ok m =>
              simp only [hm, Except.bind] at hok
              have hcur : s.current = d := by simp [St.current, hs]
              rw [Prog.wp_bind, Prog.wp_bind, wp_exec, hcur]
              refine ⟨fun d₁ hd₁ => ?_, fun err herr => ?_, by simp⟩
              · rw [hm] at hd₁
                cases hd₁
                exact wp_cache.2 (ih hok (by simp [St.put, hs, St.setCache]))
              · rw [hm] at herr
                cases herr

theorem unrefused_rise (t : String) : Unrefused (rise t) := Unrefused.cache _

theorem wp_createBlock_unrefused (e : Env) {f : PostForm} {s : St} (hd : Mirrored s.db)
    (hf : s.db.OffersAll f) :
    (AdminPost.createBlock e f (AdminPost.openStatus false f.changeStatus)).wp calls
      (fun _ _ => True) (fun err _ => err ≠ .sql .unique) s := by
  refine wp_transaction.2 ⟨?_, by simp⟩
  have hinsert (authorId : Int) : Unrefused (exec (Db.insertPost authorId f.title.value
      f.abstract.value f.content.value e.chance.now (AdminPost.openStatus false f.changeStatus))) := by
    refine Unrefused.exec fun d => ?_
    unfold Db.insertPost
    cases Option.map _ _ <;> simp [orRefuse]
  refine Unrefused.seq (.idle (Idle.sessionGetInt _)) (Unrefused.sessionGetInt _) rfl ?_
  rintro authorId _ s₁ rfl hs₁
  refine Unrefused.seq (.exec _) (hinsert authorId) hs₁ fun _ d₂ s₂ hd₂ hs₂ => ?_
  refine Unrefused.seq (.query _) (Unrefused.query _) hs₂ ?_
  rintro id _ s₃ ⟨rfl, rfl⟩ hs₃
  obtain ⟨d₄, hadd, -⟩ := addToCats_new_ok hd hf hd₂
  refine Prog.wp_seq (wp_addToCats_unrefused hadd hs₃) (fun _ s₄ _ => ?_) fun _ _ h => h
  exact (Prog.Raises.bind (.ite (unrefused_rise _) (.ret _)) fun _ =>
    Unrefused.commit.bind fun _ => .ret _ : Unrefused _) s₄

theorem unrefused_updateRow (e : Env) (id : Int) (f : PostForm) (openStatus : Int) :
    Unrefused (AdminPost.updateRow e id f openStatus) := by
  refine .ite ((Unrefused.execTotal _).bind fun _ => (Unrefused.execTotal _).bind fun _ => .ret _) ?_
  refine (Unrefused.execTotal _).bind fun _ => (Unrefused.query _).bind fun publish => ?_
  cases publish
  · exact .throw (by simp)
  · exact Prog.Raises.bind (.ite (Unrefused.execTotal _) (.ret _)) fun _ => .ret _

theorem unrefused_delFromCats (id : Int) (changeStatus : Bool) (boxes : List CatBox) :
    Unrefused (AdminPost.delFromCats id changeStatus boxes) :=
  .each (fun _ => Prog.Raises.bind (.ite (unrefused_rise _) (.ret _)) fun _ =>
    .ite (.ret _) (Unrefused.execTotal _)) boxes

theorem wp_saveBlock_unrefused (e : Env) {id isOpen : Int} {f : PostForm} {s : St}
    (hd : Mirrored s.db) (hopen : s.db.selectPostIsOpen id = some isOpen) (hf : s.db.Offers id f) :
    (AdminPost.saveBlock e id f (AdminPost.openStatus (isOpen ≠ 0) f.changeStatus)).wp calls
      (fun _ _ => True) (fun err _ => err ≠ .sql .unique) s := by
  obtain ⟨publish, m, m', hrow, hadd, -⟩ := saveSteps_ok hd e.chance.now hopen hf
  refine wp_transaction.2 ⟨?_, by simp⟩
  refine Unrefused.seq (inTx_updateRow _ _ _ _) (unrefused_updateRow _ _ _ _) rfl
    fun now d₁ s₁ h₁ hs₁ => ?_
  rw [hrow] at h₁
  cases h₁
  refine Unrefused.seq (.idle (.ite (Idle.rise _) (.ret _))) (.ite (unrefused_rise _) (.ret _)) hs₁ ?_
  rintro _ _ s₂ rfl hs₂
  refine Unrefused.seq (.idle (Idle.rise _)) (unrefused_rise _) hs₂ ?_
  rintro _ _ s₃ rfl hs₃
  refine Prog.wp_seq (wp_addToCats_unrefused hadd hs₃) (fun _ s₄ _ => ?_) fun _ _ h => h
  exact ((unrefused_delFromCats _ _ _).bind fun _ => Unrefused.commit : Unrefused _) s₄

theorem unrefused_removeBlock (id : Int) : Unrefused (AdminPost.removeBlock id) :=
  Unrefused.transaction <| (Unrefused.execTotal _).bind fun _ => (Unrefused.execTotal _).bind fun _ =>
    (Unrefused.execTotal _).bind fun _ => (unrefused_rise _).bind fun _ =>
    (unrefused_rise _).bind fun _ => Unrefused.commit

theorem wp_submit_unrefused (e : Env) {id : Int} {isOpen : Bool} {f : PostForm} {s : St}
    (hd : Mirrored s.db) (h : Editing s.db id isOpen f) :
    (if id = 0 then AdminPost.create e f else AdminPost.save e id isOpen f).wp calls
      (fun _ _ => True) (fun err _ => err ≠ .sql .unique) s := by
  have hredirect (url : String) : Unrefused (setRedirectHeader url) := Unrefused.own _
  unfold Editing at h
  split_ifs at h ⊢
  · have hstatus : AdminPost.openStatus false f.changeStatus = if f.changeStatus then 1 else 0 := by
      simp [AdminPost.openStatus]
    have hblock := wp_createBlock_unrefused e hd h
    rw [hstatus] at hblock
    unfold AdminPost.create
    split
    · exact (Prog.Raises.bind (hredirect _) fun _ => .ret _ : Unrefused _) s
    · refine Prog.wp_seq hblock (fun id s' _ => ?_) fun _ _ h => h
      exact (Prog.Raises.ite (.ret _) ((hredirect _).bind fun _ => .ret _) : Unrefused _) s'
  · obtain ⟨o, ho, rfl, hf⟩ := h
    unfold AdminPost.save
    split
    · exact ((unrefused_removeBlock id).bind fun _ => (hredirect _).bind fun _ => .ret _ :
        Unrefused _) s
    · refine Prog.wp_seq (wp_saveBlock_unrefused e hd ho hf) (fun _ s' _ => ?_) fun _ _ h => h
      exact (Prog.Raises.bind (.ite (hredirect _) (.ret _)) fun _ => .ret _ : Unrefused _) s'

theorem wp_edit_unrefused (e : Env) {id : Int} {isOpen : Bool} {form : PostForm} {s : St}
    (hd : Mirrored s.db) (h : Editing s.db id isOpen form) :
    (AdminPost.edit e id isOpen form).wp calls (fun _ _ => True) (fun err _ => err ≠ .sql .unique)
      s := by
  unfold AdminPost.edit
  split
  · have hload := wp_submit_unrefused e (s := s.setOwn { s.own with csrfChecked := true }) hd
      (h.load e.req.postOrGet)
    rw [Prog.wp_bind, wp_loadForm]
    split
    · simp
    dsimp only
    split
    · refine Prog.wp_seq hload (fun r s' _ => ?_) fun _ _ h => h
      cases r with
      | none => trivial
      | some id => exact unrefused_postEditor e id isOpen _ s'
    · exact unrefused_postEditor e id isOpen _ _
  · exact unrefused_postEditor e id isOpen _ s

theorem unrefused_readPost (isPost : Bool) (id : Int) : Unrefused (AdminPost.readPost isPost id) := by
  refine Prog.Raises.bind ?_ fun r => ?_
  · exact .ite (Unrefused.query _) (Unrefused.query _)
  · cases r
    · exact (Unrefused.own _).bind fun _ => .ret _
    · exact (Unrefused.query _).bind fun _ => .ret _

/-- From tables with right copies the post editor inserts no row that is refused. -/
theorem wp_prepareShared_unrefused (e : Env) (id : Int) {s : St} (hs : s.tx = none)
    (hd : Mirrored s.db) :
    (AdminPost.prepareShared e id).wp calls (fun _ _ => True) (fun err _ => err ≠ .sql .unique)
      s := by
  have hstart : Unrefused (if id ≠ 0 then AdminPost.readPost (e.req.method = "POST") id
      else .ret (some (false, {}))) := .ite (unrefused_readPost _ _) (.ret _)
  refine Prog.wp_seq (Prog.wp_and (wp_editorStart e id hs) (hstart s)) ?_ fun _ _ h => h.2
  rintro r s' ⟨⟨hidle, hr⟩, -⟩
  cases r with
  | none => trivial
  | some x =>
      have hcats : Unrefused (AdminPost.readCats x.2) := (Unrefused.query _).bind fun _ => .ret _
      refine Prog.wp_seq (Prog.wp_and (wp_readCats x.2 s') (hcats s')) ?_ fun _ _ h => h.2
      rintro f s'' ⟨⟨rfl, hdel, hadd⟩, -⟩
      rw [St.current_of_none (hidle.tx.trans hs), hidle.db] at hadd
      have hedit : Editing s''.db id x.1 f :=
        hidle.db.symm ▸ editing_of_reads (hr x rfl) hdel hadd
      exact wp_edit_unrefused e (hidle.db.symm ▸ hd) hedit

/-- **In every run each row of `post2cat` belongs to a post, whose status and publication time it
    carries, and to a category; and whatever the post editor, the only handler that inserts such rows,
    is asked next, by whichever session, no row it inserts is refused as a duplicate.** -/
theorem run_mirrored (site : Site) (files : Files) (events : List Event) :
    Mirrored (run site events (World.fresh files)).shared.db ∧
      ∀ (e : Env) (id : Int) (session : Session) (faults : List Bool),
        (execute (AdminPost.prepareShared e id) session faults
          (run site events (World.fresh files)).shared).1 ≠ .error (.sql .unique) := by
  have hd : Mirrored (run site events (World.fresh files)).shared.db :=
    run_change (fun _ _ h hc => Mirrored.change h hc) mirrored_fresh events
  refine ⟨hd, fun e id session faults herr => ?_⟩
  have hends := Prog.wp_run (M := calls) handle viewOf (fun o c => outcome_handle o c)
    (c := ((run site events (World.fresh files)).shared,
      { own := Own.load session, faults := faults }))
    (wp_prepareShared_unrefused e id rfl hd)
  rw [execute] at herr
  rw [herr] at hends
  exact hends rfl

end CppBlog
