import CppBlog.CachedRuns
import CppBlog.Mirror
import CppBlog.Store.Ordering

set_option autoImplicit false

/-! # The posts of a listing

A listing shows the open posts of a category, or of all, in the order of their publication; the feeds
show the first ten of them. Where `post2cat` copies the posts, this is what the statements select. A step
that does not rise the trigger of the category publishes no post of it and closes none: what the listing
showed is left in its order, with the posts dropped that were deleted or taken out. -/

namespace CppBlog

open Store

/-! ## What the statements select -/

namespace Db

/-- The posts of a category, by their numbers; category 0 stands for all posts. -/
def postIds (k : Int) (d : Db) : List Int :=
  if k = 0 then d.posts.rows.map Post.id
  else (d.post2cat.rows.filter (fun r => r.catId = k)).map Post2Cat.postId

/-- The post of a number, if it is open. -/
def openPost (d : Db) (n : Int) : Option Post := (d.posts.find? n).filter (fun p => p.isOpen = 1)

/-- The open posts of a category. -/
def openPosts (k : Int) (d : Db) : List Post := (d.postIds k).filterMap d.openPost

end Db

/-- The posts of a listing, in the order they are shown. -/
def Summary.listing (e : Env) (k : Int) (q : String) (d : Db) : List Post :=
  orderByDesc (fun p => (p.publish : Int)) ((d.openPosts k).filter (Summary.condition e q))

section
variable {d : Db} {e : Env}

theorem Db.openPost_eq_some {n : Int} {p : Post} :
    d.openPost n = some p ↔ d.posts.find? n = some p ∧ p.isOpen = 1 := by
  simp [Db.openPost, Option.filter_eq_some_iff]

theorem Db.mem_openPosts {k : Int} {p : Post} :
    p ∈ d.openPosts k ↔ p.id ∈ d.postIds k ∧ d.openPost p.id = some p := by
  rw [Db.openPosts, List.mem_filterMap]
  constructor
  · rintro ⟨n, hn, hp⟩
    have hid : p.id = n := ((Table.find?_eq_some _ _ _).1 (Db.openPost_eq_some.1 hp).1).2
    exact hid ▸ ⟨hn, hp⟩
  · rintro ⟨hmem, hp⟩
    exact ⟨p.id, hmem, hp⟩

/-- All open posts. -/
theorem Db.openPosts_zero : d.openPosts 0 = d.posts.rows.filter (fun p => p.isOpen = 1) := by
  rw [Db.openPosts, Db.postIds, if_pos rfl, List.filterMap_map, ← List.filterMap_eq_filter]
  refine List.filterMap_congr fun p hp => ?_
  have hfind : d.posts.find? p.id = some p := (Table.find?_eq_some _ _ _).2 ⟨hp, rfl⟩
  simp only [Function.comp_apply, Db.openPost, hfind, Option.filter_some, Option.guard]

/-- A row of `post2cat` is open where its post is. -/
theorem Mirrored.openPost (hd : Mirrored d) {r : Post2Cat} (hr : r ∈ d.post2cat.rows) :
    ∃ p, d.posts.find? r.postId = some p ∧ r.publish = p.publish ∧ r.isOpen = p.isOpen ∧
      d.openPost r.postId = if r.isOpen = 1 then some p else none := by
  obtain ⟨p, hp, hcopies⟩ := hd.post r hr
  have hfind : d.posts.find? r.postId = some p := (Table.find?_eq_some _ _ _).2 ⟨hp, hcopies.id⟩
  refine ⟨p, hfind, hcopies.publish, hcopies.isOpen, ?_⟩
  rw [Db.openPost, hfind, hcopies.isOpen, Option.filter_some]
  simp

/-- The rows a statement about a category joins have their posts. -/
theorem Mirrored.joined (hd : Mirrored d) {k : Int} {c : Option Post → Bool} {x : Post2Cat × Option Post}
    (hx : x ∈ d.openRowsInCat k c) : ∃ p, x.2 = some p ∧ x.1.publish = p.publish := by
  obtain ⟨hmem, -⟩ := List.mem_filter.1 hx
  obtain ⟨r, hr, rfl⟩ := List.mem_map.1 hmem
  obtain ⟨p, hfind, hpublish, -⟩ := hd.openPost (List.mem_filter.1 hr).1
  exact ⟨p, hfind, hpublish⟩

theorem Mirrored.joined_isSome (hd : Mirrored d) {k : Int} {c : Option Post → Bool}
    {x : Post2Cat × Option Post} (hx : x ∈ d.openRowsInCat k c) : x.2.isSome := by
  obtain ⟨p, hp, -⟩ := hd.joined hx
  rw [hp, Option.isSome_some]

/-- The posts a statement about a category joins. -/
theorem Mirrored.joinedPosts (hd : Mirrored d) {k : Int} (hk : k ≠ 0) (q : String) :
    (d.openRowsInCat k (Summary.conditionInCat e q)).filterMap Prod.snd =
      (d.openPosts k).filter (Summary.condition e q) := by
  rw [Db.openRowsInCat, Db.openPosts, Db.postIds, if_neg hk]
  simp only [← List.filterMap_eq_filter, List.filterMap_filterMap, List.filterMap_map]
  refine List.filterMap_congr fun r hr => ?_
  obtain ⟨p, hfind, -, -, hopen⟩ := hd.openPost hr
  have hcond : Summary.conditionInCat e q (some p) = Summary.condition e q p := rfl
  by_cases hcat : r.catId = k <;> by_cases h1 : r.isOpen = 1 <;>
    by_cases hq : Summary.condition e q p = true <;> simp [hcat, h1, hq, hfind, hopen, hcond, Option.guard]

theorem length_listing (k : Int) (q : String) :
    (Summary.listing e k q d).length = ((d.openPosts k).filter (Summary.condition e q)).length :=
  List.length_insertionSort _ _

theorem mem_listing {k : Int} {q : String} {p : Post} :
    p ∈ Summary.listing e k q d ↔ p ∈ d.openPosts k ∧ Summary.condition e q p = true := by
  rw [Summary.listing, orderByDesc, List.mem_insertionSort, List.mem_filter]

/-- Without its nulls a column is the list of its values. -/
theorem map_some_filterMap {α β : Type} {f : α → Option β} {l : List α} (h : ∀ a ∈ l, (f a).isSome) :
    (l.filterMap f).map some = l.map f := by
  induction l with
  | nil => rfl
  | cons a l ih =>
    obtain ⟨b, hb⟩ := Option.isSome_iff_exists.1 (h a List.mem_cons_self)
    rw [List.filterMap_cons_some hb, List.map_cons, List.map_cons, hb,
      ih fun c hc => h c (List.mem_cons_of_mem a hc)]

theorem limitOffset_map {α β : Type} (f : α → β) (n k : Int) (l : List α) :
    limitOffset n k (l.map f) = (limitOffset n k l).map f := by
  rw [limitOffset, limitOffset, List.map_take, List.map_drop]

/-- Rows can be dropped and rewritten behind `ORDER BY` where they keep the column. -/
theorem orderByDesc_filterMap {α β : Type} {f : α → Int} {g : β → Int} {h : α → Option β} {l : List α}
    (hkeep : ∀ a ∈ l, ∀ b, h a = some b → g b = f a) :
    (orderByDesc f l).filterMap h = orderByDesc g (l.filterMap h) := by
  have htotal : Std.Total (fun a b : α => f b ≤ f a) := ⟨fun a b => Int.le_total (f b) (f a)⟩
  have htrans : IsTrans α (fun a b : α => f b ≤ f a) := ⟨fun a b c hab hbc => Int.le_trans hbc hab⟩
  refine filterMap_insertionSort fun a ha b hb a' b' hfa hfb => ?_
  rw [hkeep a ha a' hfa, hkeep b hb b' hfb]

/-- **The number of records is that of the posts of the listing.** -/
theorem Mirrored.countRecords (hd : Mirrored d) (k : Int) (q : String) :
    Summary.countRecords e k q d = count (Summary.listing e k q d) := by
  rw [count, length_listing]
  unfold Summary.countRecords
  by_cases hk : k = 0
  · subst hk
    rw [if_neg (by simp), Db.countOpenPosts, count, Db.openPosts_zero, List.filter_filter]
    simp only [Bool.and_comm]
  · have hmap := congrArg List.length (map_some_filterMap (l := d.openRowsInCat k
      (Summary.conditionInCat e q)) fun x hx => hd.joined_isSome hx)
    rw [List.length_map, List.length_map] at hmap
    rw [if_pos hk, Db.countInCat, count, ← hd.joinedPosts hk q, hmap]

/-- The statement about a category selects the posts of the listing. -/
theorem Mirrored.selectPostsInCat (hd : Mirrored d) {k : Int} (hk : k ≠ 0) (q : String) (n off : Int) :
    d.selectPostsInCat k (Summary.conditionInCat e q) n off =
      (limitOffset n off (Summary.listing e k q d)).map
        (fun p => (some p, (d.users.find? p.authorId).map User.username)) := by
  have hordered : (orderByDesc (fun x => (x.1.publish : Int))
      (d.openRowsInCat k (Summary.conditionInCat e q))).filterMap Prod.snd = Summary.listing e k q d := by
    rw [Summary.listing, ← hd.joinedPosts hk q]
    refine orderByDesc_filterMap fun x hx p hp => ?_
    obtain ⟨p', hp', hpublish⟩ := hd.joined hx
    obtain rfl := Option.some.inj (hp.symm.trans hp')
    rw [hpublish]
  have hcolumn := map_some_filterMap (l := orderByDesc (fun x => (x.1.publish : Int))
    (d.openRowsInCat k (Summary.conditionInCat e q))) fun x hx =>
      hd.joined_isSome ((List.mem_insertionSort _).1 hx)
  rw [hordered] at hcolumn
  let row (p : Option Post) : Option Post × Option String :=
    (p, p.bind fun r => (d.users.find? r.authorId).map User.username)
  rw [Db.selectPostsInCat]
  change (limitOffset n off _).map (row ∘ Prod.snd) = _
  rw [← List.map_map, ← limitOffset_map, ← hcolumn, limitOffset_map, List.map_map]
  rfl

/-- **The posts a listing shows.** -/
theorem Mirrored.selectPosts (hd : Mirrored d) (k : Int) (q : String) (n off : Int) :
    Summary.selectPosts e k q n off d = (limitOffset n off (Summary.listing e k q d)).map
      (fun p => summaryRow (some p, (d.users.find? p.authorId).map User.username)) := by
  unfold Summary.selectPosts
  by_cases hk : k = 0
  · subst hk
    rw [if_neg (by simp), Db.selectOpenPosts, List.map_map, Summary.listing, Db.openPosts_zero,
      List.filter_filter]
    simp only [Bool.and_comm]
    rfl
  · rw [if_pos hk, hd.selectPostsInCat hk, List.map_map]
    rfl

end

/-! ## What the editor writes -/

namespace Db

variable {d d' m : Db} {id : Int} {now : Tm} {openStatus : Int}

/-- The rows of the categories that are ticked stand behind the others. -/
theorem addToCats_eq_ok {boxes : List CatBox} (h : addToCats id now openStatus boxes d = .ok d') :
    d'.post2cat.rows = d.post2cat.rows ++ (tickedIds boxes).map (catRow id now openStatus) := by
  induction boxes generalizing d with
  | nil =>
    cases h
    simp [tickedIds]
  | cons cb l ih =>
    simp only [addToCats] at h
    split at h
    · rename_i hv
      have hids : tickedIds (cb :: l) = tickedIds l := by simp_all [tickedIds]
      rw [ih h, hids]
    · rename_i hv
      have hids : tickedIds (cb :: l) = Text.atoi cb.identification :: tickedIds l := by
        simp_all [tickedIds]
      cases hx : d.insertPost2Cat id (Text.atoi cb.identification) now openStatus with
      | error err => simp [hx, Except.bind] at h
      | ok m =>
        simp only [hx, Except.bind] at h
        obtain ⟨t, ht, rfl⟩ := Option.map_eq_some_iff.1 (orRefuse_eq_ok.1 hx)
        rw [ih h, hids, List.map_cons]
        simp only [Table.insert?_eq_some ht, catRow, List.append_assoc, List.singleton_append]

/-- The row of the post is rewritten, and its rows in `post2cat` keep their keys. -/
structure Rewritten (id : Int) (d m : Db) (g : Post → Post) : Prop where
  key : ∀ p, (g p).id = p.id
  posts : m.posts = d.posts.update (fun p => p.id = id) g key
  post2cat : ∃ h, (∀ r, Post2Cat.key (h r) = Post2Cat.key r) ∧ m.post2cat.rows = d.post2cat.rows.map h

/-- Writing the row of a post; without a change of its status the texts are written. -/
theorem updateRow_rewritten {f : PostForm} {publish : Tm}
    (h : updateRow id f now openStatus d = .ok (publish, m)) :
    ∃ g, Rewritten id d m g ∧ (f.changeStatus = false → g = writeRow f openStatus) := by
  unfold updateRow at h
  split at h
  · rename_i hpub
    cases h
    refine ⟨fun p => { writeRow f openStatus p with publish := now },
      ⟨fun _ => rfl, rfl, _, fun r => ?_, rfl⟩, fun hno => ?_⟩
    · split <;> rfl
    · simp [hno] at hpub
  · dsimp only at h
    split at h
    · cases h
    · cases h
      refine ⟨writeRow f openStatus, ⟨fun _ => rfl, ?_, ?_⟩, fun _ => rfl⟩
      · split <;> rfl
      · split
        · refine ⟨_, fun r => ?_, rfl⟩
          split <;> rfl
        · exact ⟨fun r => r, fun _ => rfl, (List.map_id _).symm⟩

/-- A saved post: its row is rewritten, and of the rows that put it into categories some are added and
    some are dropped. -/
theorem savePost_eq_ok {f : PostForm} (h : d.savePost id f now openStatus = .ok d') :
    ∃ m g publish, Rewritten id d m g ∧ (f.changeStatus = false → g = writeRow f openStatus) ∧
      d'.posts = m.posts ∧ d'.post2cat.rows =
        (m.post2cat.rows ++ (tickedIds f.addToCatList).map (catRow id publish openStatus)).filter
          (fun r => !(r.postId = id && r.catId ∈ tickedIds f.delFromCatList)) := by
  unfold savePost at h
  cases hrow : d.updateRow id f now openStatus with
  | error err => simp [hrow, Except.bind] at h
  | ok x =>
    obtain ⟨publish, m⟩ := x
    simp only [hrow, Except.bind] at h
    cases hadd : addToCats id publish openStatus f.addToCatList m with
    | error err => simp [hadd] at h
    | ok m' =>
      simp only [hadd, Except.ok.injEq] at h
      obtain ⟨g, hrewritten, hstatus⟩ := updateRow_rewritten hrow
      refine ⟨m, g, publish, hrewritten, hstatus, ?_, ?_⟩
      · rw [← h, delFromCats_frame, addToCats_frame hadd]
      · rw [← h, delFromCats_rows, addToCats_eq_ok hadd]

/-- A created post stands at the end, with its rows. -/
theorem createPost_eq_ok {authorId : Int} {f : PostForm} (h : d.createPost authorId f now openStatus = .ok d') :
    ∃ p : Post, p.id = d.posts.seq + 1 ∧ p.isOpen = openStatus ∧ d'.posts.rows = d.posts.rows ++ [p] ∧
      d'.post2cat.rows = d.post2cat.rows ++
        (tickedIds f.addToCatList).map (catRow p.id now openStatus) := by
  unfold createPost at h
  cases hm : d.insertPost authorId f.title.value f.abstract.value f.content.value now openStatus with
  | error err => simp [hm, Except.bind] at h
  | ok m =>
    simp only [hm, Except.bind] at h
    obtain ⟨hframe, hlast, hrows⟩ := insertPost_eq_ok hm
    have hpc : m.post2cat = d.post2cat := by rw [hframe]
    refine ⟨⟨d.posts.seq + 1, authorId, f.title.value, f.abstract.value, f.content.value, now, 0, openStatus⟩,
      rfl, rfl, ?_, ?_⟩
    · rw [addToCats_frame h, ← hrows]
    · rw [addToCats_eq_ok h, hpc, hlast]

end Db

/-! ## What a step does to the posts of a category -/

/-- A box that is ticked to add a post has its trigger risen. -/
theorem catKey_mem_tickedTriggers {d : Db} {boxes : List CatBox}
    (h : boxes.map CatBox.identification ⊆ d.selectCats.map (fun c => toString c.id)) {n : Int}
    (hn : n ∈ tickedIds boxes) : catKey n ∈ tickedTriggers boxes := by
  obtain ⟨cb, hcb, rfl⟩ := List.mem_map.1 hn
  obtain ⟨hmem, hv⟩ := List.mem_filter.1 hcb
  obtain ⟨c, hc, hid⟩ := List.mem_map.1 (h (List.mem_map_of_mem hmem))
  rw [← hid, atoi_toString_cat hc, tickedTriggers_map]
  refine List.mem_map.2 ⟨cb, hcb, ?_⟩
  rw [← hid, catKey]

theorem postKey_mem_saveTriggers (id : Int) (f : PostForm) : postKey id ∈ saveTriggers id f := by
  rw [saveTriggers]
  exact List.mem_append_right _ (List.mem_append_left _ (List.mem_singleton.2 rfl))

/-- The rows of the boxes that are ticked are in categories that are risen. -/
theorem catId_ne_of_not_risen {d : Db} {boxes : List CatBox} {k : Int} (id : Int) (now : Tm)
    (openStatus : Int) (h : boxes.map CatBox.identification ⊆ d.selectCats.map (fun c => toString c.id))
    (hk : catKey k ∉ tickedTriggers boxes) :
    ∀ r ∈ (tickedIds boxes).map (Db.catRow id now openStatus), r.catId ≠ k := by
  intro r hr
  obtain ⟨n, hn, rfl⟩ := List.mem_map.1 hr
  rintro rfl
  exact hk (catKey_mem_tickedTriggers h hn)

/-- The categories a post is in are risen when its status changes. -/
theorem catKey_mem_delTriggers {d : Db} (hd : Mirrored d) {id k : Int} {f : PostForm} (hf : d.Offers id f)
    {r : Post2Cat} (hr : r ∈ d.post2cat.rows) (hpost : r.postId = id) (hcat : r.catId = k) :
    catKey k ∈ delTriggers true f.delFromCatList := by
  obtain ⟨c, hc, hid⟩ := hd.cat r hr
  have hmem : c ∈ d.selectCatsOf id := List.mem_filterMap.2
    ⟨r, List.mem_filter.2 ⟨hr, by simp [hpost]⟩, (Table.find?_eq_some _ _ _).2 ⟨hc, hid⟩⟩
  have hbox : toString c.id ∈ f.delFromCatList.map CatBox.identification :=
    hf.del ▸ List.mem_map_of_mem hmem
  obtain ⟨cb, hcb, hcbid⟩ := List.mem_map.1 hbox
  exact mem_delTriggers.2 ⟨rfl, cb, hcb, by rw [hcbid, hid, hcat, catKey]⟩

/-- A step that does not rise the trigger of a category leaves the status of its posts alone. -/
theorem changeStatus_of_not_risen {d : Db} (hd : Mirrored d) {id k : Int} {f : PostForm}
    (hf : d.Offers id f) (hmem : id ∈ d.postIds k) (hk : catKey k ∉ saveTriggers id f) :
    f.changeStatus = false := by
  cases hch : f.changeStatus with
  | false => rfl
  | true =>
    refine absurd ?_ hk
    unfold Db.postIds at hmem
    split at hmem
    · rename_i h0
      subst h0
      rw [saveTriggers, hch, if_pos rfl]
      exact List.mem_append_left _ (List.mem_singleton.2 rfl)
    · obtain ⟨r, hr, hpost⟩ := List.mem_map.1 hmem
      obtain ⟨hr, hcat⟩ := List.mem_filter.1 hr
      have hdel := catKey_mem_delTriggers hd hf hr hpost (of_decide_eq_true hcat)
      rw [saveTriggers, hch]
      exact List.mem_append_right _ (List.mem_append_right _ (List.mem_append_right _ hdel))

variable {e : Env} {d d' : Db} {ts : List String} {k : Int}

/-- The numbers of a category after rows were rewritten, added to other categories, and dropped. -/
theorem postIds_of_rows (hk0 : k ≠ 0) {h : Post2Cat → Post2Cat}
    (hkey : ∀ r, Post2Cat.key (h r) = Post2Cat.key r) {added : List Post2Cat}
    (hadded : ∀ r ∈ added, r.catId ≠ k) {id : Int} {dels : List Int}
    (hrows : d'.post2cat.rows = (d.post2cat.rows.map h ++ added).filter
      (fun r => !(r.postId = id && r.catId ∈ dels))) :
    d'.postIds k = (d.postIds k).filter (fun n => !(n = id && k ∈ dels)) := by
  have hcat (r : Post2Cat) : (h r).catId = r.catId := congrArg Prod.snd (hkey r)
  have hpost (r : Post2Cat) : (h r).postId = r.postId := congrArg Prod.fst (hkey r)
  rw [Db.postIds, if_neg hk0, Db.postIds, if_neg hk0, hrows, List.filter_filter, List.filter_append,
    List.map_append]
  have hnone : added.filter (fun r => decide (r.catId = k) && !(r.postId = id && r.catId ∈ dels)) = [] := by
    rw [List.filter_eq_nil_iff]
    intro r hr
    simp [hadded r hr]
  rw [hnone, List.map_nil, List.append_nil]
  induction d.post2cat.rows with
  | nil => rfl
  | cons r l ih =>
    rw [List.map_cons, List.filter_cons, List.filter_cons, hcat, hpost]
    by_cases hr : r.catId = k
    · cases hdrop : (decide (r.postId = id) && decide (k ∈ dels))
      · simp only [hr, decide_true, hdrop, Bool.not_false, Bool.and_self, if_true, List.map_cons, hpost,
          List.filter_cons, ih]
      · simp only [hr, decide_true, hdrop, Bool.not_true, Bool.and_false, Bool.false_eq_true, if_false,
          if_true, List.map_cons, List.filter_cons, ih]
    · simp only [hr, decide_false, Bool.false_and, Bool.false_eq_true, if_false, ih]

/-- Of the posts of the category some are dropped, whose triggers are risen, and those that come in are
    not open. -/
def Db.Shrinks (k : Int) (ts : List String) (d d' : Db) : Prop :=
  ∃ (p : Int → Bool) (extra : List Int), d'.postIds k = (d.postIds k).filter p ++ extra ∧
    (∀ n, p n = false → postKey n ∈ ts) ∧ ∀ n ∈ extra, n ∉ d.postIds k ∧ d'.openPost n = none

theorem Db.Shrinks.of_filter {p : Int → Bool} (h : d'.postIds k = (d.postIds k).filter p)
    (hp : ∀ n, p n = false → postKey n ∈ ts) : Db.Shrinks k ts d d' :=
  ⟨p, [], by rw [h, List.append_nil], hp, fun _ hn => absurd hn List.not_mem_nil⟩

theorem Db.Shrinks.of_eq (h : d'.postIds k = d.postIds k) : Db.Shrinks k ts d d' :=
  .of_filter (p := fun _ => true) (by rw [h, List.filter_true]) fun _ hn => absurd hn (by simp)

/-- Rewriting posts leaves their numbers. -/
theorem postIds_of_update {q : Post → Bool} {f : Post → Post} {hf : ∀ r, (f r).id = r.id}
    (hposts : d'.posts = d.posts.update q f hf) : d'.posts.rows.map Post.id = d.posts.rows.map Post.id := by
  rw [hposts, AutoTable.update_rows, List.map_map]
  refine List.map_congr_left fun r _ => ?_
  simp only [Function.comp_apply]
  split
  · exact hf r
  · rfl

theorem shrinks_createPost {authorId : Int} {f : PostForm} (hf : d.OffersAll f)
    (h : d.createPost authorId f e.chance.now (AdminPost.openStatus false f.changeStatus) = .ok d')
    (hk : catKey k ∉ createTriggers f) : Db.Shrinks k (createTriggers f) d d' := by
  obtain ⟨p, hpid, hpopen, hposts, hpost2cat⟩ := Db.createPost_eq_ok h
  by_cases hk0 : k = 0
  · -- without a change of its status the new post is closed
    subst hk0
    have hclosed : f.changeStatus = false := by
      cases hch : f.changeStatus with
      | false => rfl
      | true =>
        rw [createTriggers, hch] at hk
        exact absurd (List.mem_append_right _ (List.mem_singleton.2 rfl)) hk
    refine ⟨fun _ => true, [p.id], ?_, fun _ h => absurd h (by simp), fun n hn => ?_⟩
    · rw [Db.postIds, if_pos rfl, Db.postIds, if_pos rfl, hposts, List.filter_true, List.map_append,
        List.map_singleton]
    · obtain rfl := List.mem_singleton.1 hn
      have hmem : p ∈ d'.posts.rows := hposts ▸ List.mem_append_right _ (List.mem_singleton.2 rfl)
      have hfind : d'.posts.find? p.id = some p := (Table.find?_eq_some _ _ _).2 ⟨hmem, rfl⟩
      refine ⟨fun hold => ?_, ?_⟩
      · rw [Db.postIds, if_pos rfl] at hold
        obtain ⟨r, hr, hid⟩ := List.mem_map.1 hold
        have hle := d.posts.le_seq r hr
        omega
      · rw [hclosed] at hpopen
        rw [Db.openPost, hfind, Option.filter_some, hpopen]
        rfl
  · have hother := catId_ne_of_not_risen p.id e.chance.now
      (AdminPost.openStatus false f.changeStatus) (fun _ hx => hf ▸ hx) fun hmem =>
        hk (List.mem_append_left _ hmem)
    have hnone := List.filter_eq_nil_iff.2 fun r hr => mt of_decide_eq_true (hother r hr)
    apply Db.Shrinks.of_eq
    rw [Db.postIds, if_neg hk0, Db.postIds, if_neg hk0, hpost2cat, List.filter_append, hnone,
      List.append_nil]

theorem shrinks_savePost {id openStatus : Int} {f : PostForm} {now : Tm} (hf : d.Offers id f)
    (h : d.savePost id f now openStatus = .ok d') (hk : catKey k ∉ saveTriggers id f) :
    Db.Shrinks k (saveTriggers id f) d d' := by
  obtain ⟨m, g, publish, hrewritten, -, hposts, hrows⟩ := Db.savePost_eq_ok h
  by_cases hk0 : k = 0
  · subst hk0
    apply Db.Shrinks.of_eq
    rw [Db.postIds, if_pos rfl, Db.postIds, if_pos rfl, hposts, postIds_of_update hrewritten.posts]
  · obtain ⟨h, hkey, hpost2cat⟩ := hrewritten.post2cat
    rw [hpost2cat] at hrows
    refine .of_filter (postIds_of_rows hk0 hkey (catId_ne_of_not_risen _ _ _ hf.add_subset fun hmem => hk ?_) hrows)
      fun n hn => ?_
    · rw [saveTriggers]
      exact List.mem_append_right _ (List.mem_append_right _ (List.mem_append_left _ hmem))
    · have hid : n = id := by
        simp only [Bool.not_eq_false', Bool.and_eq_true, decide_eq_true_eq] at hn
        exact hn.1
      rw [hid]
      exact postKey_mem_saveTriggers id f

/-- **A step brings no open post into a category whose trigger it does not rise.** -/
theorem PostStep.shrinks (h : PostStep e d ts d') (hk : catKey k ∉ ts) : Db.Shrinks k ts d d' := by
  cases h with
  | same hposts hpost2cat => exact .of_eq (by rw [Db.postIds, Db.postIds, hposts, hpost2cat])
  | count hposts hpost2cat _ =>
    exact .of_eq (by rw [Db.postIds, Db.postIds, postIds_of_update hposts, hpost2cat])
  | create hf hcreate hts => exact hts ▸ shrinks_createPost hf hcreate (hts ▸ hk)
  | remove hposts hpost2cat hid =>
    rename_i id
    refine .of_filter (p := fun n => !(n = id)) ?_ fun n hn => ?_
    case refine_2 =>
      have hn : n = id := by simpa using hn
      exact hn ▸ hid
    rw [Db.postIds, Db.postIds, hposts, hpost2cat, AutoTable.delete_rows, Table.delete_rows,
      List.filter_filter]
    split
    · rw [List.filter_map]
      rfl
    · rw [List.filter_map, List.filter_filter]
      refine congrArg _ (List.filter_congr fun r _ => ?_)
      simp [Bool.and_comm]
  | save _ hf hsave hts => exact hts ▸ shrinks_savePost hf hsave (hts ▸ hk)
  | dropCat hposts hpost2cat hid =>
    rename_i id
    apply Db.Shrinks.of_eq
    rw [Db.postIds, Db.postIds, hposts, hpost2cat, Table.delete_rows, List.filter_filter]
    split
    · rfl
    · refine congrArg _ (List.filter_congr fun r _ => ?_)
      by_cases hr : r.catId = k
      · have hne : k ≠ id := fun h => hk (h ▸ hid)
        simp [hr, hne]
      · simp [hr]

/-- The posts of a category are there. -/
theorem Mirrored.find_postIds (hd : Mirrored d) {n : Int} (hn : n ∈ d.postIds k) :
    ∃ p, d.posts.find? n = some p := by
  unfold Db.postIds at hn
  split at hn
  · obtain ⟨p, hp, rfl⟩ := List.mem_map.1 hn
    exact ⟨p, (Table.find?_eq_some _ _ _).2 ⟨hp, rfl⟩⟩
  · obtain ⟨r, hr, rfl⟩ := List.mem_map.1 hn
    obtain ⟨p, hfind, -⟩ := hd.openPost (List.mem_filter.1 hr).1
    exact ⟨p, hfind⟩

/-- A status that is written back is as it was. -/
theorem Mirrored.openStatus_eq (hd : Mirrored d) {p : Post} (hp : p ∈ d.posts.rows) :
    AdminPost.openStatus (p.isOpen ≠ 0) false = p.isOpen := by
  rcases hd.status p hp with h | h
  · rw [h]
    rfl
  · rw [h]
    rfl

/-- **A post of a category whose trigger is not risen** keeps its time and its status, and is as it was
    unless its own trigger is risen. -/
theorem PostStep.post (h : PostStep e d ts d') (hd : Mirrored d) (hk : catKey k ∉ ts) {n : Int}
    (hn : n ∈ d.postIds k) :
    (postKey n ∉ ts → d'.posts.find? n = d.posts.find? n) ∧
      ∀ p', d'.posts.find? n = some p' → ∃ p, d.posts.find? n = some p ∧ p'.publish = p.publish ∧
        p'.isOpen = p.isOpen := by
  have hsame (hfind : d'.posts.find? n = d.posts.find? n) :
      (postKey n ∉ ts → d'.posts.find? n = d.posts.find? n) ∧
        ∀ p', d'.posts.find? n = some p' → ∃ p, d.posts.find? n = some p ∧ p'.publish = p.publish ∧
          p'.isOpen = p.isOpen :=
    ⟨fun _ => hfind, fun p' hp' => ⟨p', hfind ▸ hp', rfl, rfl⟩⟩
  cases h with
  | same hposts _ => exact hsame (by rw [hposts])
  | count hposts _ hid =>
    rename_i id _ _
    by_cases hne : n = id
    · subst hne
      refine ⟨fun h => absurd hid h, fun p' hp' => ?_⟩
      rw [hposts, AutoTable.find?_update] at hp'
      obtain ⟨p, hp, rfl⟩ := Option.map_eq_some_iff.1 hp'
      refine ⟨p, hp, ?_⟩
      split <;> exact ⟨rfl, rfl⟩
    · exact hsame (by rw [hposts, AutoTable.find?_update_ne hne])
  | create hf hcreate hts =>
    obtain ⟨p, -, -, hposts, -⟩ := Db.createPost_eq_ok hcreate
    obtain ⟨p', hp'⟩ := hd.find_postIds hn
    have hp'' : d.posts.rows.find? (fun r => r.id = n) = some p' := hp'
    refine hsame ?_
    rw [Table.find?, hposts, List.find?_append, hp'', Option.some_or, hp']
  | remove hposts _ hid =>
    rename_i id _
    by_cases hne : n = id
    · subst hne
      refine ⟨fun h => absurd hid h, fun p' hp' => ?_⟩
      rw [hposts, AutoTable.find?_delete] at hp'
      exact ⟨p', hp'.1, rfl, rfl⟩
    · exact hsame (by rw [hposts, AutoTable.find?_delete_ne hne])
  | save hopen hf hsave hts =>
    rename_i id isOpen f
    obtain ⟨m, g, publish, hrewritten, hwrite, hposts, -⟩ := Db.savePost_eq_ok hsave
    by_cases hne : n = id
    · subst hne
      have hrisen : postKey n ∈ ts := hts ▸ postKey_mem_saveTriggers n f
      have hch := changeStatus_of_not_risen hd hf hn (hts ▸ hk)
      refine ⟨fun h => absurd hrisen h, fun p' hp' => ?_⟩
      rw [hposts, hrewritten.posts, AutoTable.find?_update] at hp'
      obtain ⟨p, hp, rfl⟩ := Option.map_eq_some_iff.1 hp'
      obtain ⟨hmem, hid⟩ := (Table.find?_eq_some _ _ _).1 hp
      have hstatus : isOpen = p.isOpen := by
        rw [Db.selectPostIsOpen, hp, Option.map_some] at hopen
        exact (Option.some.inj hopen).symm
      refine ⟨p, hp, ?_⟩
      rw [if_pos (decide_eq_true hid), hwrite hch, hstatus, hch]
      exact ⟨rfl, hd.openStatus_eq hmem⟩
    · exact hsame (by rw [hposts, hrewritten.posts, AutoTable.find?_update_ne hne])
  | dropCat hposts _ _ => exact hsame (by rw [hposts])

/-! ## What a step leaves of a listing -/

/-- What has become of a post of a category: nothing when it is not among its open posts any more. -/
def Db.followed (k : Int) (d' : Db) (p : Post) : Option Post :=
  if p.id ∈ d'.postIds k then d'.openPost p.id else none

/-- The open posts of a category whose trigger is not risen are those that are left, in their order. -/
theorem PostStep.openPosts (h : PostStep e d ts d') (hd : Mirrored d) (hk : catKey k ∉ ts) :
    d'.openPosts k = (d.openPosts k).filterMap (d'.followed k) := by
  obtain ⟨p, extra, hids, -, hextra⟩ := h.shrinks hk
  have hmem {n : Int} (hn : n ∈ d.postIds k) : n ∈ d'.postIds k ↔ p n = true := by
    rw [hids, List.mem_append, List.mem_filter]
    constructor
    · rintro (hp | hx)
      · exact hp.2
      · exact absurd hn (hextra n hx).1
    · exact fun hp => .inl ⟨hn, hp⟩
  have hnone : extra.filterMap d'.openPost = [] :=
    List.filterMap_eq_nil_iff.2 fun n hn => (hextra n hn).2
  rw [Db.openPosts, hids, List.filterMap_append, hnone, List.append_nil, Db.openPosts,
    List.filterMap_filterMap, ← List.filterMap_eq_filter, List.filterMap_filterMap]
  refine List.filterMap_congr fun n hn => ?_
  have hback := (h.post hd hk hn).2
  cases hp' : d'.openPost n with
  | none =>
    cases hp : d.openPost n with
    | none => simp [Option.guard, hp']
    | some q =>
      have hid : q.id = n := ((Table.find?_eq_some _ _ _).1 (Db.openPost_eq_some.1 hp).1).2
      simp [Db.followed, hid, hp', Option.guard]
  | some q' =>
    obtain ⟨hfind, hopen⟩ := Db.openPost_eq_some.1 hp'
    obtain ⟨q, hq, -, hqopen⟩ := hback q' hfind
    have hp : d.openPost n = some q := Db.openPost_eq_some.2 ⟨hq, hqopen ▸ hopen⟩
    have hid : q.id = n := ((Table.find?_eq_some _ _ _).1 hq).2
    rw [hp, Option.bind_some, Db.followed, hid]
    by_cases hpn : p n = true
    · simp [Option.guard, hpn, (hmem hn).2 hpn, hp']
    · have hnot : n ∉ d'.postIds k := fun h => hpn ((hmem hn).1 h)
      simp [Option.guard, hpn, hnot]

/-- What is left of a post has its number and its time. -/
theorem PostStep.followed (h : PostStep e d ts d') (hd : Mirrored d) (hk : catKey k ∉ ts) {p p' : Post}
    (hp : p ∈ d.openPosts k) (hp' : d'.followed k p = some p') :
    p'.id = p.id ∧ p'.publish = p.publish := by
  obtain ⟨hmem, hopen⟩ := Db.mem_openPosts.1 hp
  unfold Db.followed at hp'
  split at hp'
  · obtain ⟨hfind, -⟩ := Db.openPost_eq_some.1 hp'
    obtain ⟨q, hq, hpublish, -⟩ := (h.post hd hk hmem).2 p' hfind
    obtain rfl := Option.some.inj ((Db.openPost_eq_some.1 hopen).1.symm.trans hq)
    exact ⟨((Table.find?_eq_some _ _ _).1 hfind).2, hpublish⟩
  · exact absurd hp' (by simp)

/-- A post whose trigger is not risen is left as it was. -/
theorem PostStep.followed_self (h : PostStep e d ts d') (hd : Mirrored d) (hk : catKey k ∉ ts) {p : Post}
    (hp : p ∈ d.openPosts k) (hpost : postKey p.id ∉ ts) : d'.followed k p = some p := by
  obtain ⟨hmem, hopen⟩ := Db.mem_openPosts.1 hp
  obtain ⟨keep, extra, hids, hkeep, -⟩ := h.shrinks hk
  have hmem' : p.id ∈ d'.postIds k := by
    rw [hids, List.mem_append, List.mem_filter]
    refine .inl ⟨hmem, ?_⟩
    cases hp : keep p.id with
    | true => rfl
    | false => exact absurd (hkeep _ hp) hpost
  rw [Db.followed, if_pos hmem', Db.openPost, (h.post hd hk hmem).1 hpost]
  exact hopen

/-- **A listing whose category's trigger is not risen** is what is left of it, in its order, where no post
    starts or stops to match the search. -/
theorem PostStep.listing (h : PostStep e d ts d') (hd : Mirrored d) (hk : catKey k ∉ ts) (e' : Env)
    (q : String) (hq : ∀ p ∈ d.openPosts k, ∀ p', d'.followed k p = some p' →
      Summary.condition e' q p' = Summary.condition e' q p) :
    Summary.listing e' k q d' = (Summary.listing e' k q d).filterMap (d'.followed k) := by
  unfold Summary.listing
  rw [orderByDesc_filterMap (g := fun p => (p.publish : Int)) fun p hp p' hp' => by
    rw [(h.followed hd hk (List.mem_filter.1 hp).1 hp').2]]
  congr 1
  rw [h.openPosts hd hk]
  simp only [← List.filterMap_eq_filter, List.filterMap_filterMap]
  refine List.filterMap_congr fun p hp => ?_
  cases hp' : d'.followed k p with
  | none => cases hc : Summary.condition e' q p <;> simp [Option.guard, hc, hp']
  | some p' =>
    have hsame := hq p hp p' hp'
    cases hc : Summary.condition e' q p <;> simp [Option.guard, hsame, hc, hp']

end CppBlog
