import CppBlog.Mirror
import CppBlog.PublicAccess
import CppBlog.Unfailing

set_option autoImplicit false

/-! # Submitting a post form twice

The boxes of the post editor are named by their positions in lists that every request rebuilds from the
tables: first the categories the post is not in, then those it is in. The first of two submissions moves
categories between the lists, so the same names may stand for other boxes when the second is processed.
What the second one does depends on whether it finds a box ticked again. -/

namespace CppBlog

open Effect Store App

/-! ## The form the editor gets -/

/-- The form of the editor of post `id` before it is loaded. -/
def AdminPost.emptyForm (d : Db) (id : Int) : PostForm :=
  let del := (d.selectCatsOf id).map AdminPost.catBox
  { delFromCatList := del
    addToCatList := (d.selectCats.map AdminPost.catBox).filter
      (fun b => AdminPost.notAmong del b.identification) }

/-- The form a request submits to the editor of post `id`. -/
def AdminPost.submission (data : List (String × String)) (d : Db) (id : Int) : PostForm :=
  ((AdminPost.emptyForm d id).load data).validate

/-- The categories a post is not in. -/
def Db.selectCatsOutside (id : Int) (d : Db) : List Cat :=
  d.selectCats.filter (fun c => c.id ∉ (d.selectCatsOf id).map Cat.id)

/-- The categories whose boxes are ticked when the first of them stands at position `i`. -/
def tickedCats (data : List (String × String)) (i : Nat) (cats : List Cat) : List Cat :=
  ((cats.zipIdx i).filter (fun x => checked data (widgetName x.2) (toString x.1.id))).map Prod.fst

/-- The numbers of the boxes that are ticked. -/
def tickedIds (boxes : List CatBox) : List Int :=
  (boxes.filter (fun b => b.value)).map (fun b => Text.atoi b.identification)

theorem loadBoxes_cons (data : List (String × String)) (i : Nat) (b : CatBox) (l : List CatBox) :
    loadBoxes data i (b :: l) =
      { b with value := checked data (widgetName i) b.identification } :: loadBoxes data (i + 1) l := by
  simp only [loadBoxes, List.mapIdx_cons, Nat.add_zero, Nat.add_assoc, Nat.add_comm 1]

/-- The boxes of categories that are ticked, by the numbers of the categories. -/
theorem tickedIds_loadBoxes {d : Db} (data : List (String × String)) {cats : List Cat}
    (hcats : ∀ c ∈ cats, c ∈ d.cats.rows) (i : Nat) :
    tickedIds (loadBoxes data i (cats.map AdminPost.catBox)) =
      (tickedCats data i cats).map Cat.id := by
  induction cats generalizing i with
  | nil => rfl
  | cons c cats ih =>
    have hc : Text.atoi (toString c.id) = c.id := atoi_toString_cat (hcats c List.mem_cons_self)
    have hrest := ih (fun x hx => hcats x (List.mem_cons_of_mem c hx)) (i + 1)
    rw [List.map_cons, loadBoxes_cons]
    by_cases h : checked data (widgetName i) (toString c.id) = true
    · simp only [tickedIds, tickedCats, AdminPost.catBox, List.zipIdx_cons, List.filter_cons, h,
        if_true, List.map_cons, hc] at hrest ⊢
      rw [hrest]
    · simp only [tickedIds, tickedCats, AdminPost.catBox, List.zipIdx_cons, List.filter_cons, h] at hrest ⊢
      exact hrest

theorem tickedCats_subset {data : List (String × String)} {i : Nat} {cats : List Cat} {c : Cat}
    (h : c ∈ tickedCats data i cats) : c ∈ cats := by
  obtain ⟨x, hx, rfl⟩ := List.mem_map.1 h
  exact List.fst_mem_of_mem_zipIdx (List.mem_filter.1 hx).1

theorem mem_selectCatsOf {d : Db} {id : Int} {c : Cat} :
    c ∈ d.selectCatsOf id ↔ c ∈ d.cats.rows ∧ ∃ r ∈ d.post2cat.rows, r.postId = id ∧ r.catId = c.id := by
  simp only [Db.selectCatsOf, List.mem_filterMap, List.mem_filter, decide_eq_true_eq]
  constructor
  · rintro ⟨r, ⟨hr, hid⟩, hfind⟩
    obtain ⟨hc, hcid⟩ := (Table.find?_eq_some _ _ _).1 hfind
    exact ⟨hc, r, hr, hid, hcid.symm⟩
  · rintro ⟨hc, r, hr, hid, hcid⟩
    exact ⟨r, ⟨hr, hid⟩, (Table.find?_eq_some _ _ _).2 ⟨hc, hcid.symm⟩⟩

theorem mem_selectCatsOutside {d : Db} {id : Int} {c : Cat} :
    c ∈ d.selectCatsOutside id ↔ c ∈ d.cats.rows ∧ ∀ c' ∈ d.selectCatsOf id, c'.id ≠ c.id := by
  simp [Db.selectCatsOutside, Db.selectCats]

/-- The boxes for adding are those of the categories the post is not in. -/
theorem emptyForm_addToCatList (d : Db) (id : Int) :
    (AdminPost.emptyForm d id).addToCatList = (d.selectCatsOutside id).map AdminPost.catBox := by
  have hids : (d.selectCatsOf id).map (fun c => Text.atoi (toString c.id)) =
      (d.selectCatsOf id).map Cat.id :=
    List.map_congr_left fun c hc => atoi_toString_cat (mem_selectCatsOf.1 hc).1
  simp only [AdminPost.emptyForm, Db.selectCatsOutside, List.filter_map]
  congr 1
  apply List.filter_congr
  intro c hc
  simp only [Function.comp_apply, AdminPost.notAmong, AdminPost.catBox, List.map_map,
    Function.comp_def, hids, atoi_toString_cat hc]

theorem submission_boxes (data : List (String × String)) (d : Db) (id : Int) :
    (AdminPost.submission data d id).addToCatList =
        loadBoxes data 10 ((d.selectCatsOutside id).map AdminPost.catBox) ∧
      (AdminPost.submission data d id).delFromCatList =
        loadBoxes data (10 + (d.selectCatsOutside id).length)
          ((d.selectCatsOf id).map AdminPost.catBox) := by
  have hvalidate (f : PostForm) : f.validate.addToCatList = f.addToCatList ∧
      f.validate.delFromCatList = f.delFromCatList := by
    simp only [PostForm.validate]
    split <;> exact ⟨rfl, rfl⟩
  have hlength : (AdminPost.emptyForm d id).addToCatList.length = (d.selectCatsOutside id).length := by
    rw [emptyForm_addToCatList, List.length_map]
  refine ⟨(hvalidate _).1.trans ?_, (hvalidate _).2.trans ?_⟩
  · simp only [PostForm.load, emptyForm_addToCatList]
  · simp only [PostForm.load, hlength]
    rfl

/-- The categories a submission ticks to add and to remove. -/
def addedCats (data : List (String × String)) (id : Int) (d : Db) : List Cat :=
  tickedCats data 10 (d.selectCatsOutside id)

def removedCats (data : List (String × String)) (id : Int) (d : Db) : List Cat :=
  tickedCats data (10 + (d.selectCatsOutside id).length) (d.selectCatsOf id)

theorem tickedIds_add (data : List (String × String)) (d : Db) (id : Int) :
    tickedIds (AdminPost.submission data d id).addToCatList = (addedCats data id d).map Cat.id := by
  rw [(submission_boxes data d id).1]
  exact tickedIds_loadBoxes data (fun c hc => (mem_selectCatsOutside.1 hc).1) 10

theorem tickedIds_del (data : List (String × String)) (d : Db) (id : Int) :
    tickedIds (AdminPost.submission data d id).delFromCatList = (removedCats data id d).map Cat.id := by
  rw [(submission_boxes data d id).2]
  exact tickedIds_loadBoxes data (fun c hc => (mem_selectCatsOf.1 hc).1) _

/-! ## What a save does to the rows -/

namespace Db

/-- The row a category gets. -/
def catRow (id : Int) (now : Tm) (openStatus : Int) (catId : Int) : Post2Cat :=
  ⟨id, catId, now, openStatus⟩

theorem addToCats_rows {id : Int} (now : Tm) (openStatus : Int) {boxes : List CatBox} {d : Db}
    (hnodup : (tickedIds boxes).Nodup)
    (hnew : ∀ r ∈ d.post2cat.rows, r.postId = id → r.catId ∉ tickedIds boxes) :
    ∃ t, addToCats id now openStatus boxes d = .ok { d with post2cat := t } ∧
      t.rows = d.post2cat.rows ++ (tickedIds boxes).map (catRow id now openStatus) := by
  induction boxes generalizing d with
  | nil => exact ⟨d.post2cat, rfl, by simp [tickedIds]⟩
  | cons cb l ih =>
    by_cases hv : cb.value = true
    · have hids : tickedIds (cb :: l) = Text.atoi cb.identification :: tickedIds l := by
        simp [tickedIds, hv]
      rw [hids] at hnodup hnew
      obtain ⟨t, ht⟩ := Table.insert?_isSome d.post2cat (catRow id now openStatus
        (Text.atoi cb.identification)) fun r hr hkey =>
          hnew r hr (Prod.ext_iff.1 hkey).1 (List.mem_cons.2 (.inl (Prod.ext_iff.1 hkey).2))
      have hrows := Table.insert?_eq_some ht
      have hins : d.insertPost2Cat id (Text.atoi cb.identification) now openStatus =
          .ok { d with post2cat := t } := by
        simp only [catRow] at ht
        simp [insertPost2Cat, ht, orRefuse]
      obtain ⟨t', ht', hrows'⟩ := ih (d := { d with post2cat := t }) (List.nodup_cons.1 hnodup).2 (by
        intro r hr hid hmem
        rw [hrows] at hr
        rcases List.mem_append.1 hr with hr | hr
        · exact hnew r hr hid (List.mem_cons_of_mem _ hmem)
        · rw [List.mem_singleton.1 hr] at hmem
          exact (List.nodup_cons.1 hnodup).1 hmem)
      refine ⟨t', ?_, ?_⟩
      · simp only [addToCats, hv, Bool.not_true, Bool.false_eq_true, if_false, hins, Except.bind]
        exact ht'
      · rw [hrows', hrows, hids, List.map_cons, List.append_assoc, List.singleton_append]
    · have hids : tickedIds (cb :: l) = tickedIds l := by simp [tickedIds, hv]
      rw [hids] at hnodup hnew
      obtain ⟨t, ht, hrows⟩ := ih hnodup hnew
      refine ⟨t, ?_, by rw [hids]; exact hrows⟩
      simp only [addToCats, hv, Bool.not_false, if_true]
      exact ht

theorem delFromCats_rows (id : Int) (boxes : List CatBox) (d : Db) :
    (delFromCats id boxes d).post2cat.rows =
      d.post2cat.rows.filter (fun r => !(r.postId = id && r.catId ∈ tickedIds boxes)) := by
  induction boxes generalizing d with
  | nil => simp [delFromCats, tickedIds]
  | cons cb l ih =>
    by_cases hv : cb.value = true
    · have hids : tickedIds (cb :: l) = Text.atoi cb.identification :: tickedIds l := by
        simp [tickedIds, hv]
      simp only [delFromCats, hv, Bool.not_true, Bool.false_eq_true, if_false, ih, deletePost2Cat,
        Table.delete_rows, List.filter_filter, hids]
      apply List.filter_congr
      intro r _
      by_cases h1 : r.postId = id <;> by_cases h2 : r.catId = Text.atoi cb.identification <;>
        simp [h1, h2]
    · have hids : tickedIds (cb :: l) = tickedIds l := by simp [tickedIds, hv]
      simp only [delFromCats, hv, Bool.not_false, if_true, ih, hids]

/-- The row of a post after its texts and its status were written. -/
def writeRow (f : PostForm) (openStatus : Int) (r : Post) : Post :=
  { r with
    title := f.title.value, abstract := f.abstract.value, content := f.content.value,
    isOpen := openStatus }

/-- A save from the editor's form, without a change of the status: the row of the post is written, the
    categories ticked to add come behind the others, those ticked to remove go. -/
theorem savePost_rows {d : Db} {id : Int} (openStatus : Int) {f : PostForm} (now : Tm) {p : Post}
    (hp : d.posts.find? id = some p) (hstatus : f.changeStatus = false)
    (hnodup : (tickedIds f.addToCatList).Nodup)
    (hnew : ∀ r ∈ d.post2cat.rows, r.postId = id → r.catId ∉ tickedIds f.addToCatList) :
    ∃ d', d.savePost id f now openStatus = .ok d' ∧
      d'.posts = d.posts.update (fun r => r.id = id) (writeRow f openStatus) (fun _ => rfl) ∧
      d'.cats = d.cats ∧
      d'.post2cat.rows = (d.post2cat.rows ++
        (tickedIds f.addToCatList).map (catRow id p.publish openStatus)).filter
          (fun r => !(r.postId = id && r.catId ∈ tickedIds f.delFromCatList)) := by
  obtain ⟨hmem, hid⟩ := (Table.find?_eq_some _ _ _).1 hp
  have hpublish : (d.updatePost id f.title.value f.abstract.value f.content.value
      openStatus).selectPostPublish id = some p.publish := by
    refine Option.map_eq_some_iff.2 ⟨writeRow f openStatus p, (Table.find?_eq_some _ _ _).2 ⟨?_, hid⟩, rfl⟩
    exact AutoTable.mem_update_rows.2 ⟨p, hmem, by simp [hid, writeRow]⟩
  have hno : ¬(f.changeStatus && decide (openStatus ≠ 0)) = true := by simp [hstatus]
  have hrow := updateRow_of_found now hno hpublish
  rw [if_neg (by simp [hstatus])] at hrow
  generalize hm : d.updatePost id f.title.value f.abstract.value f.content.value openStatus = m at hrow
  have hnew' : ∀ r ∈ m.post2cat.rows, r.postId = id → r.catId ∉ tickedIds f.addToCatList := by
    subst hm
    exact hnew
  obtain ⟨t, ht, hrows⟩ := addToCats_rows p.publish openStatus hnodup hnew'
  have hsave : d.savePost id f now openStatus =
      .ok (delFromCats id f.delFromCatList { m with post2cat := t }) := by
    simp only [savePost, hrow, Except.bind, ht]
  subst hm
  refine ⟨_, hsave, ?_, ?_, ?_⟩
  · rw [delFromCats_frame]
    rfl
  · rw [delFromCats_frame]
    rfl
  · rw [delFromCats_rows, hrows]
    rfl

end Db

/-! ## The lists of the second submission -/

/-- The categories a post is in after a submission: those left, and those added behind them. -/
def catsAfter (data : List (String × String)) (id : Int) (d : Db) : List Cat :=
  (d.selectCatsOf id).filter (fun c => c.id ∉ (removedCats data id d).map Cat.id) ++
    addedCats data id d

/-- The categories a post is not in after a submission. -/
def catsOutsideAfter (data : List (String × String)) (id : Int) (d : Db) : List Cat :=
  d.selectCats.filter (fun c => c.id ∉ (catsAfter data id d).map Cat.id)

/-- With the boxes where the first submission has put them, none is ticked. -/
structure NoneTickedAgain (data : List (String × String)) (id : Int) (d : Db) : Prop where
  add : tickedCats data 10 (catsOutsideAfter data id d) = []
  del : tickedCats data (10 + (catsOutsideAfter data id d).length) (catsAfter data id d) = []

/-- What a submission has done to the rows of a post and of its categories. -/
structure SavedRows (data : List (String × String)) (id : Int) (publish : Tm) (openStatus : Int)
    (d d' : Db) : Prop where
  posts : d'.posts = d.posts.update (fun r => r.id = id)
    (Db.writeRow (AdminPost.submission data d id) openStatus) (fun _ => rfl)
  cats : d'.cats = d.cats
  rows : d'.post2cat.rows = (d.post2cat.rows ++
    ((addedCats data id d).map Cat.id).map (Db.catRow id publish openStatus)).filter
      (fun r => !(r.postId = id && r.catId ∈ (removedCats data id d).map Cat.id))

/-- A category that is ticked to add is none the post is in. -/
theorem addedCats_outside {data : List (String × String)} {id : Int} {d : Db} {c : Cat}
    (h : c ∈ addedCats data id d) : c ∈ d.cats.rows ∧ ∀ c' ∈ d.selectCatsOf id, c'.id ≠ c.id :=
  mem_selectCatsOutside.1 (tickedCats_subset h)

theorem removedCats_inside {data : List (String × String)} {id : Int} {d : Db} {c : Cat}
    (h : c ∈ removedCats data id d) : c ∈ d.selectCatsOf id := tickedCats_subset h

theorem addedIds_nodup (data : List (String × String)) (id : Int) (d : Db) :
    ((addedCats data id d).map Cat.id).Nodup := by
  have hsub : (addedCats data id d).Sublist d.cats.rows := by
    have hzip : (d.selectCatsOutside id).zipIdx 10 |>.map Prod.fst |>.Sublist d.cats.rows := by
      rw [List.zipIdx_map_fst]
      exact List.filter_sublist
    exact (List.filter_sublist.map Prod.fst).trans hzip
  exact (hsub.map Cat.id).nodup d.cats.nodup

theorem addedIds_new {data : List (String × String)} {id : Int} {d : Db} {r : Post2Cat}
    (hr : r ∈ d.post2cat.rows) (hid : r.postId = id) :
    r.catId ∉ (addedCats data id d).map Cat.id := by
  intro hmem
  obtain ⟨c, hc, hcid⟩ := List.mem_map.1 hmem
  obtain ⟨hcat, hout⟩ := addedCats_outside hc
  exact hout c (mem_selectCatsOf.2 ⟨hcat, r, hr, hid, hcid.symm⟩) rfl

theorem addedIds_not_removed {data : List (String × String)} {id : Int} {d : Db} {i : Int}
    (h : i ∈ (addedCats data id d).map Cat.id) : i ∉ (removedCats data id d).map Cat.id := by
  intro hrem
  obtain ⟨c, hc, rfl⟩ := List.mem_map.1 h
  obtain ⟨c', hc', hid⟩ := List.mem_map.1 hrem
  exact (addedCats_outside hc).2 c' (removedCats_inside hc') hid

/-- A submission without a change of the status. -/
theorem savedRows_of_submission (data : List (String × String)) {id : Int} (openStatus : Int) {d : Db}
    {p : Post} (now : Tm) (hp : d.posts.find? id = some p)
    (hstatus : (AdminPost.submission data d id).changeStatus = false) :
    ∃ d', d.savePost id (AdminPost.submission data d id) now openStatus = .ok d' ∧
      SavedRows data id p.publish openStatus d d' := by
  obtain ⟨d', hsave, hposts, hcats, hrows⟩ := Db.savePost_rows openStatus now
    hp hstatus (by rw [tickedIds_add]; exact addedIds_nodup data id d)
    (by rw [tickedIds_add]; exact fun r hr hid => addedIds_new hr hid)
  rw [tickedIds_add, tickedIds_del] at hrows
  exact ⟨d', hsave, hposts, hcats, hrows⟩

theorem SavedRows.catsOf {data : List (String × String)} {id openStatus : Int} {publish : Tm}
    {d d' : Db} (h : SavedRows data id publish openStatus d d') :
    d'.selectCatsOf id = catsAfter data id d := by
  have hadded : ((((addedCats data id d).map Cat.id).map (Db.catRow id publish openStatus)).filter
      (fun r => r.postId = id && !(r.postId = id && r.catId ∈ (removedCats data id d).map Cat.id))).filterMap
        (fun r => d.cats.find? r.catId) = addedCats data id d := by
    rw [List.filter_eq_self.2, List.map_map, List.filterMap_map]
    · have hfind : ∀ c ∈ addedCats data id d, ((fun r : Post2Cat => d.cats.find? r.catId) ∘
          (Db.catRow id publish openStatus ∘ Cat.id)) c = some c := by
        intro c hc
        exact (Table.find?_eq_some _ _ _).2 ⟨(addedCats_outside hc).1, rfl⟩
      rw [List.filterMap_congr hfind, List.filterMap_some]
    · intro r hr
      obtain ⟨i, hi, rfl⟩ := List.mem_map.1 hr
      have hnot := addedIds_not_removed hi
      simp only [Db.catRow, decide_true, Bool.true_and, Bool.not_eq_true']
      exact decide_eq_false hnot
  simp only [Db.selectCatsOf, h.cats, h.rows, List.filter_filter, List.filter_append,
    List.filterMap_append, hadded, catsAfter]
  congr 1
  simp only [List.filterMap_filter, List.filter_filterMap]
  apply List.filterMap_congr
  intro r _
  by_cases hid : r.postId = id
  · cases hfind : d.cats.find? r.catId with
    | none => simp [hid]
    | some c =>
      obtain ⟨-, hcid⟩ := (Table.find?_eq_some _ _ _).1 hfind
      by_cases hrem : r.catId ∈ (removedCats data id d).map Cat.id <;>
        simp [hid, hcid, hrem, Option.filter]
  · simp [hid]

theorem SavedRows.catsOutside {data : List (String × String)} {id openStatus : Int} {publish : Tm}
    {d d' : Db} (h : SavedRows data id publish openStatus d d') :
    d'.selectCatsOutside id = catsOutsideAfter data id d := by
  simp only [Db.selectCatsOutside, Db.selectCats, h.catsOf, h.cats, catsOutsideAfter]

/-! ## The law -/

/-- The texts of a submission do not depend on the tables. -/
theorem submission_texts (data : List (String × String)) (d d' : Db) (id : Int) :
    (AdminPost.submission data d id).title = (AdminPost.submission data d' id).title ∧
      (AdminPost.submission data d id).abstract = (AdminPost.submission data d' id).abstract ∧
      (AdminPost.submission data d id).content = (AdminPost.submission data d' id).content := by
  have htexts (f : PostForm) : f.validate.title = f.title.validate ∧
      f.validate.abstract = f.abstract.validate ∧ f.validate.content = f.content.validate := by
    simp only [PostForm.validate]
    split <;> exact ⟨rfl, rfl, rfl⟩
  have h := htexts ((AdminPost.emptyForm d id).load data)
  have h' := htexts ((AdminPost.emptyForm d' id).load data)
  exact ⟨h.1.trans h'.1.symm, h.2.1.trans h'.2.1.symm, h.2.2.trans h'.2.2.symm⟩

theorem submission_changeStatus (data : List (String × String)) (d : Db) (id : Int) :
    (AdminPost.submission data d id).changeStatus = submitted data "_6" := by
  simp only [AdminPost.submission, PostForm.validate]
  split <;> rfl

theorem submission_remove (data : List (String × String)) (d : Db) (id : Int) :
    (AdminPost.submission data d id).remove = submitted data "_7" := by
  simp only [AdminPost.submission, PostForm.validate]
  split <;> rfl

theorem submission_valid (data : List (String × String)) (d d' : Db) (id : Int) :
    (AdminPost.submission data d id).valid = (AdminPost.submission data d' id).valid := by
  have hvalid (f : PostForm) : f.validate.valid =
      (f.title.validate.valid && f.abstract.validate.valid && f.content.validate.valid &&
        f.backurl.validate.valid && (!(f.remove && !f.reallyRemove) && f.reallyRemoveValid)) := by
    have hbool : ∀ v remove really b : Bool, (if (v && remove && !really) = true then v && false
        else v && b) = (v && (!(remove && !really) && b)) := by decide
    simp only [PostForm.validate, apply_ite PostForm.valid]
    exact hbool _ _ _ _
  rw [AdminPost.submission, AdminPost.submission, hvalid, hvalid]
  rfl

/-- Writing a row twice is writing it once. -/
theorem update_writeRow_twice (t : Store.AutoTable Post Post.id maxId) (id openStatus : Int)
    (f g : PostForm) (htexts : f.title = g.title ∧ f.abstract = g.abstract ∧ f.content = g.content) :
    (t.update (fun r => r.id = id) (Db.writeRow f openStatus) (fun _ => rfl)).update
        (fun r => r.id = id) (Db.writeRow g openStatus) (fun _ => rfl) =
      t.update (fun r => r.id = id) (Db.writeRow f openStatus) (fun _ => rfl) := by
  refine AutoTable.ext ?_ rfl
  change List.map _ (List.map _ t.rows) = List.map _ t.rows
  rw [List.map_map]
  apply List.map_congr_left
  intro r _
  by_cases hr : r.id = id
  · simp [hr, Db.writeRow, htexts.1, htexts.2.1, htexts.2.2]
  · simp [hr]

/-- **Two saves leave the rows one save leaves exactly if the second finds no box ticked.** -/
theorem savedRows_twice {data : List (String × String)} {id openStatus : Int} {publish publish' : Tm}
    {d d' d'' : Db} (h : SavedRows data id publish openStatus d d')
    (h' : SavedRows data id publish' openStatus d' d'') :
    (d''.posts = d'.posts ∧ d''.post2cat = d'.post2cat) ↔ NoneTickedAgain data id d := by
  have hadd : addedCats data id d' = tickedCats data 10 (catsOutsideAfter data id d) := by
    rw [addedCats, h.catsOutside]
  have hdel : removedCats data id d' =
      tickedCats data (10 + (catsOutsideAfter data id d).length) (catsAfter data id d) := by
    rw [removedCats, h.catsOutside, h.catsOf]
  constructor
  · rintro ⟨-, hrows⟩
    have hrows : d''.post2cat.rows = d'.post2cat.rows := by rw [hrows]
    rw [h'.rows] at hrows
    constructor
    · -- a category ticked to add would have got a row it did not have
      rw [← hadd, List.eq_nil_iff_forall_not_mem]
      intro c hc
      have hmem : Db.catRow id publish' openStatus c.id ∈ d'.post2cat.rows := by
        rw [← hrows, List.mem_filter]
        refine ⟨List.mem_append_right _ (List.mem_map_of_mem (List.mem_map_of_mem hc)), ?_⟩
        have hnot := addedIds_not_removed (List.mem_map_of_mem (f := Cat.id) hc)
        simp only [Db.catRow, decide_true, Bool.true_and, Bool.not_eq_true']
        exact decide_eq_false hnot
      exact addedIds_new hmem rfl (List.mem_map_of_mem hc)
    · -- a category ticked to remove would have lost its row
      rw [← hdel, List.eq_nil_iff_forall_not_mem]
      intro c hc
      obtain ⟨-, r, hr, hid, hcid⟩ := mem_selectCatsOf.1 (removedCats_inside hc)
      rw [← hrows, List.mem_filter] at hr
      have hin : r.catId ∈ (removedCats data id d').map Cat.id := hcid ▸ List.mem_map_of_mem hc
      have hout := hr.2
      simp only [hid, decide_true, Bool.true_and, Bool.not_eq_true'] at hout
      exact absurd hin (of_decide_eq_false hout)
  · rintro ⟨hnoAdd, hnoDel⟩
    constructor
    · rw [h'.posts, h.posts]
      exact update_writeRow_twice _ _ _ _ _ (submission_texts data d d' id)
    · refine Table.ext ?_
      rw [h'.rows, hadd, hdel, hnoAdd, hnoDel]
      simp

/-! ## The handler -/

/-- A function on the tables as a block without a value. -/
def unitBlock (f : Db → Except SqlError Db) (d : Db) : Except SqlError (Unit × Db) :=
  (f d).map (fun d' => ((), d'))

theorem computes_addToCats (id : Int) (now : Tm) (openStatus : Int) (boxes : List CatBox) :
    Sure.Computes (unitBlock (Db.addToCats id now openStatus boxes))
      (AdminPost.addToCats id now openStatus boxes) := by
  induction boxes with
  | nil => exact Sure.Computes.ret ()
  | cons cb l ih =>
    cases hv : cb.value with
    | false =>
      simp only [AdminPost.addToCats, Prog.each, hv, Bool.not_false, if_true, Prog.ret_bind]
      refine Sure.Computes.congr ih fun d => ?_
      simp only [unitBlock, Db.addToCats, hv, Bool.not_false, if_true]
    | true =>
      simp only [AdminPost.addToCats, Prog.each, hv, Bool.not_true, Bool.false_eq_true, if_false,
        Prog.bind_assoc]
      refine Sure.Computes.congr ((Sure.Computes.exec _).bind fun _ =>
        (Sure.Computes.rise _).bind fun _ => ih) fun d => ?_
      simp only [unitBlock, Db.addToCats, hv, Bool.not_true, Bool.false_eq_true, if_false]
      cases d.insertPost2Cat id (Text.atoi cb.identification) now openStatus <;> rfl

theorem computes_delFromCats (id : Int) (changeStatus : Bool) (boxes : List CatBox) :
    Sure.Computes (fun d => .ok ((), Db.delFromCats id boxes d))
      (AdminPost.delFromCats id changeStatus boxes) := by
  induction boxes with
  | nil => exact Sure.Computes.ret ()
  | cons cb l ih =>
    have hrise : Sure.Computes (fun d => .ok ((), d))
        (if changeStatus then rise ("cat_" ++ cb.identification) else .ret ()) := by
      cases changeStatus
      · exact Sure.Computes.ret ()
      · exact Sure.Computes.rise _
    cases hv : cb.value with
    | false =>
      simp only [AdminPost.delFromCats, Prog.each, hv, Bool.not_false, if_true]
      refine Sure.Computes.congr ((hrise.bind fun _ => Sure.Computes.ret ()).bind fun _ => ih)
        fun d => ?_
      simp only [Except.bind, Db.delFromCats, hv, Bool.not_false, if_true]
    | true =>
      simp only [AdminPost.delFromCats, Prog.each, hv, Bool.not_true, Bool.false_eq_true, if_false]
      refine Sure.Computes.congr ((hrise.bind fun _ => Sure.Computes.execTotal _).bind fun _ => ih)
        fun d => ?_
      simp only [Except.bind, Db.delFromCats, hv, Bool.not_true, Bool.false_eq_true, if_false]

theorem computes_updateRow (e : Env) (id : Int) (f : PostForm) (openStatus : Int) :
    Sure.Computes (Db.updateRow id f e.chance.now openStatus) (AdminPost.updateRow e id f openStatus) := by
  by_cases h : (f.changeStatus && decide (openStatus ≠ 0)) = true
  · rw [AdminPost.updateRow, if_pos h]
    refine Sure.Computes.congr ((Sure.Computes.execTotal _).bind fun _ =>
      (Sure.Computes.execTotal _).bind fun _ => Sure.Computes.ret _) fun d => ?_
    rw [Db.updateRow, if_pos h]
    rfl
  · rw [AdminPost.updateRow, if_neg h]
    have hopen : Sure.Computes
        (fun d => .ok ((), if f.changeStatus then d.updatePost2CatOpen id openStatus else d))
        (if f.changeStatus then execTotal (Db.updatePost2CatOpen id openStatus) else .ret ()) := by
      cases f.changeStatus
      · exact Sure.Computes.ret ()
      · exact Sure.Computes.execTotal _
    refine Sure.Computes.congr ((Sure.Computes.execTotal _).bind fun _ =>
      (Sure.Computes.query _).bind (h := fun publish d => publish.elim (.error .failed) fun publish =>
        .ok (publish, if f.changeStatus then d.updatePost2CatOpen id openStatus else d))
        fun publish => ?_) fun d => ?_
    · cases publish with
      | none => exact fun _ _ _ => ⟨rfl, _, rfl⟩
      | some publish => exact hopen.bind fun _ => Sure.Computes.ret publish
    · rw [Db.updateRow, if_neg h]
      dsimp only [Except.bind]
      cases Db.selectPostPublish id (d.updatePost id f.title.value f.abstract.value f.content.value openStatus) <;> rfl

/-- The transaction that saves a post: it commits what `savePost` computes, or nothing. -/
theorem wp_saveBlock_sure (e : Env) (id : Int) (f : PostForm) (openStatus : Int) (s : St) :
    (AdminPost.saveBlock e id f openStatus).wp sure
      (fun _ s' => s'.tx = none ∧ s.db.savePost id f e.chance.now openStatus = .ok s'.db)
      (fun _ s' => s'.tx = none ∧ s'.db = s.db ∧
        ∃ err, s.db.savePost id f e.chance.now openStatus = .error err) s := by
  have hrise (c : Bool) (t : String) : Sure.Computes (fun d => .ok ((), d))
      (if c then rise t else .ret ()) := by
    cases c
    · exact Sure.Computes.ret ()
    · exact Sure.Computes.rise _
  have hblock : Sure.Computes (unitBlock (Db.savePost id f e.chance.now openStatus))
      ((AdminPost.updateRow e id f openStatus).bind fun now =>
        (if f.changeStatus then rise "cat_0" else .ret ()).bind fun _ =>
        (rise (postKey id)).bind fun _ =>
        (AdminPost.addToCats id now openStatus f.addToCatList).bind fun _ =>
        AdminPost.delFromCats id f.changeStatus f.delFromCatList) := by
    refine Sure.Computes.congr ((computes_updateRow e id f openStatus).bind fun now =>
      (hrise _ _).bind fun _ => (Sure.Computes.rise _).bind fun _ =>
      (computes_addToCats _ _ _ _).bind fun _ => computes_delFromCats _ _ _) fun d => ?_
    simp only [unitBlock, Db.savePost, Except.bind]
    cases Db.updateRow id f e.chance.now openStatus d with
    | error err => rfl
    | ok x =>
      dsimp only
      cases Db.addToCats id x.1 openStatus f.addToCatList x.2 <;> rfl
  have htx := Sure.wp_transaction_computes hblock s
  simp only [Prog.bind_assoc] at htx
  refine Prog.wp_mono (fun _ s' h => ⟨h.1, ?_⟩) (fun _ s' h => ⟨h.1, h.2.1, ?_⟩) htx
  · have hok := h.2
    unfold unitBlock at hok
    cases hsave : s.db.savePost id f e.chance.now openStatus with
    | error err => simp [hsave, Except.map] at hok
    | ok d' =>
      simp only [hsave, Except.map, Except.ok.injEq, Prod.mk.injEq, true_and] at hok
      rw [hok]
  · obtain ⟨err, herr⟩ := h.2.2
    unfold unitBlock at herr
    cases hsave : s.db.savePost id f e.chance.now openStatus with
    | error err' => exact ⟨err', rfl⟩
    | ok d' => simp [hsave, Except.map] at herr

/-- The tables after the editor of a post has processed a submission without the button for removal;
    `isOpen` is the status of the post. -/
def AdminPost.saved (e : Env) (id isOpen : Int) (d : Db) : Db :=
  let f := AdminPost.submission e.req.postOrGet d id
  if f.valid then
    match d.savePost id f e.chance.now (AdminPost.openStatus (isOpen ≠ 0) f.changeStatus) with
    | .ok d' => d'
    | .error _ => d
  else d

theorem readOnly_keeps {α : Type} {p : App α} (hp : ReadOnly p) {s : St} {d : Db} (hs : s.tx = none)
    (hv : Versioned d) (hd : s.db = d) :
    p.wp sure (fun _ s' => s'.db = d) (fun _ s' => s'.db = d) s := by
  have hkeep {s' : St} (h : Reads s s') : s'.db = d :=
    (h.eq_of_versioned hs (hd ▸ hv)).2.trans hd
  exact Prog.wp_mono (fun _ _ h => hkeep h) (fun _ _ h => hkeep h) (Sure.wp_of_calls (hp s))

theorem versioned_savePost {d d' : Db} (hv : Versioned d) {id openStatus : Int} {f : PostForm} {now : Tm}
    (h : d.savePost id f now openStatus = .ok d') : Versioned d' :=
  hv.congr (by rw [Db.savePost_frame h])

/-- The editor after the post was saved. -/
theorem readOnly_afterSave (e : Env) (id : Int) (isOpen redirect : Bool) (url : String) (f : PostForm) :
    ReadOnly (((if redirect then setRedirectHeader url else .ret ()).bind fun _ => .ret (some id)).bind fun r =>
      match r with
      | none => .ret ()
      | some id => AdminPost.render e id isOpen f) := by
  refine Prog.Within.bind (Prog.Within.bind (.ite (Idle.setRedirectHeader _) (.ret _)) fun _ => .ret _) fun r => ?_
  cases r
  · exact .ret _
  · exact readOnly_postEditor e _ _ _

/-- The editor of an existing post, on a form without the button for removal. -/
theorem wp_edit_saved {e : Env} {id isOpen : Int} {form : PostForm} {s : St} (hid : id ≠ 0)
    (hs : s.tx = none) (hv : Versioned s.db) (hmethod : e.req.method = "POST")
    (hforged : forged e s.own = false) (hremove : submitted e.req.postOrGet "_7" = false)
    (hform : (form.load e.req.postOrGet).validate =
      AdminPost.submission e.req.postOrGet s.db id) :
    (AdminPost.edit e id (isOpen ≠ 0) form).wp sure
      (fun _ s' => s'.db = AdminPost.saved e id isOpen s.db)
      (fun _ s' => s'.db = AdminPost.saved e id isOpen s.db) s := by
  rw [AdminPost.edit, if_pos hmethod, Prog.wp_bind, Sure.wp_loadForm, if_neg (by simp [hforged])]
  dsimp only
  rw [hform]
  generalize hs₁ : s.setOwn { s.own with csrfChecked := true } = s₁
  have hs₁tx : s₁.tx = none := hs₁ ▸ hs
  have hs₁db : s₁.db = s.db := hs₁ ▸ rfl
  unfold AdminPost.saved
  dsimp only
  split
  · rw [AdminPost.save, submission_remove, hremove, if_neg (by simp), Prog.bind_assoc]
    refine Prog.wp_seq (wp_saveBlock_sure e id _ _ _) (fun _ s' h => ?_) (fun _ s' h => ?_)
    · obtain ⟨htx, hsave⟩ := h
      rw [hs₁db] at hsave
      rw [hsave]
      exact readOnly_keeps (readOnly_afterSave e id _ _ _ _) htx (versioned_savePost hv hsave) rfl
    · obtain ⟨-, hdb, err, herr⟩ := h
      rw [hs₁db] at herr
      rw [herr]
      exact hdb.trans hs₁db
  · exact readOnly_keeps (readOnly_postEditor e _ _ _) hs₁tx hv hs₁db

theorem wp_prepareShared_saved {e : Env} {id isOpen : Int} {s : St} (hs : s.tx = none)
    (hv : Versioned s.db) (hopen : s.db.selectPostIsOpen id = some isOpen)
    (hmethod : e.req.method = "POST") (hforged : forged e s.own = false)
    (hremove : submitted e.req.postOrGet "_7" = false) :
    (AdminPost.prepareShared e id).wp sure (fun _ s' => s'.db = AdminPost.saved e id isOpen s.db)
      (fun _ s' => s'.db = AdminPost.saved e id isOpen s.db) s := by
  have hid : id ≠ 0 := by
    obtain ⟨p, hp, hpid, -⟩ := Db.selectPostIsOpen_eq_some hopen
    have := s.db.posts.key_pos p hp
    omega
  have hcur : s.current = s.db := St.current_of_none hs
  rw [AdminPost.prepareShared, if_pos hid]
  simp only [hmethod, decide_true, AdminPost.readPost, AdminPost.readStatus, if_true, Prog.wp_bind,
    Sure.wp_query, hcur, hopen, Option.map_some, Prog.wp_ret, AdminPost.readCats]
  exact wp_edit_saved hid hs hv hmethod hforged hremove rfl

/-- A blog with two categories and a post in neither, and the first submission of its editor with the
    boxes `_10` and `_11` ticked as given. -/
def editedWorld : World :=
  run .sample [.request (.configure "b" "bob"), .request (.login "b" "bob"),
    .request (.post "b" "/admin/categories" [("id", ""), ("cat", "x")]),
    .request (.post "b" "/admin/categories" [("id", ""), ("cat", "y")]),
    .request (.post "b" "/admin/post" [("_1", "T"), ("_2", "A")])] (World.fresh [])

def Arrival.edit (boxes : List (String × String)) : Arrival :=
  .post "b" "/admin/post/1" ([("_1", "T"), ("_2", "A"), ("_5", "")] ++ boxes)

def editedOnce (a : Arrival) : Db :=
  (runSurely (AdminPost.prepareShared (Site.sample.env a) 1) (editedWorld.start a)).2.db

def editedTwice (a : Arrival) : Db :=
  (runSurely (AdminPost.prepareShared (Site.sample.env a) 1)
    { editedWorld.start a with db := editedOnce a }).2.db

theorem editedWorld_versioned : Versioned editedWorld.shared.db := by
  unfold Versioned
  decide

theorem editedWorld_isOpen : editedWorld.shared.db.selectPostIsOpen 1 = some 0 := by decide

theorem editedWorld_accepts :
    forged (Site.sample.env (.edit [("_10", "1")])) (Own.load (editedWorld.session "b")) = false := by
  decide

section

-- the three facts above are all the witness needs of that run
attribute [local irreducible] editedWorld

end

end CppBlog
