import CppBlog.CachedRuns
import CppBlog.Listings

set_option autoImplicit false

/-! # Cached posts

The page of a post depends on the trigger of the post. Whatever writes the row of an open post or one of its
comments rises it, so a cached page is that of an open post, with its texts and its comments; only the names
of its author and of its categories are written without it. -/

namespace CppBlog

open Effect Store App

variable {e : Env} {d d' : Db} {ts us : List String} {n : Int}

/-! ## What a post page shows -/

/-- A post page without the names of its author and of its categories, and what it says of the request. -/
def PostPage.ofPost (s : PostPage) : PostPage := { s with author := "", categories := [], requestMethod := "" }

/-- The page of a post with these comments, without names. -/
def Post.pageOf (e : Env) (n : Int) (p : Post) (comments : List Comment) : PostPage where
  id := n
  title := escape p.title
  published := p.publish
  author := ""
  categories := []
  commentCount := (comments.length : Int)
  abstract := abstractHtml e p.abstract
  content := if p.content.isEmpty then none else some p.content
  comments := comments.map (commentEntry e)
  preview := none
  response := {}
  requestMethod := ""

/-- A cached page of a post: the row is there and open, and the page shows it with its comments. -/
def PostShown (e : Env) (d : Db) (n : Int) (v : Cached) (ts : List String) : Prop :=
  postKey n ∈ ts ∧ ∃ p master s, d.posts.find? n = some p ∧ p.isOpen = 1 ∧ v = .page [.blogPost master s] ∧
    s.ofPost = Post.pageOf e n p (d.selectCommentsOf n)

/-! ## Steps -/

/-- A post whose trigger is not risen is left as it was. -/
theorem PostStep.find (h : PostStep e d ts d') (hn : postKey n ∉ ts) {p : Post} (hp : d.posts.find? n = some p) :
    d'.posts.find? n = some p := by
  have hne {id : Int} (hid : postKey id ∈ ts) : n ≠ id := fun heq => hn (heq ▸ hid)
  cases h with
  | same hposts _ => rw [hposts, hp]
  | count hposts _ hid => rw [hposts, AutoTable.find?_update_ne (hne hid), hp]
  | create hf hcreate hts =>
    obtain ⟨p', -, -, hposts, -⟩ := Db.createPost_eq_ok hcreate
    have hold : d.posts.rows.find? (fun r => r.id = n) = some p := hp
    rw [Table.find?, hposts, List.find?_append, hold, Option.some_or]
  | remove hposts _ hid => rw [hposts, AutoTable.find?_delete_ne (hne hid), hp]
  | save _ hf hsave hts =>
    obtain ⟨m, g, publish, hrewritten, -, hposts, -⟩ := Db.savePost_eq_ok hsave
    rw [hposts, hrewritten.posts, AutoTable.find?_update_ne (hne (hts ▸ postKey_mem_saveTriggers _ _)), hp]
  | dropCat hposts _ _ => rw [hposts, hp]

/-- A comment that is found is the only one of its number. -/
theorem postId_of_selectComment {id postId : Int} (h : (d.selectComment id).map Comment.postId = some postId)
    {c : Comment} (hc : c ∈ d.comments.rows) (hid : c.id = id) : c.postId = postId := by
  have hfind : d.selectComment id = some c := (Table.find?_eq_some _ _ _).2 ⟨hc, hid⟩
  rw [hfind, Option.map_some] at h
  exact Option.some.inj h

/-- Rewriting what is filtered away, and stays so, leaves the rest. -/
theorem filter_map_self {α : Type} {f : α → α} {p : α → Bool} {l : List α}
    (h : ∀ a ∈ l, f a = a ∨ p a = false ∧ p (f a) = false) : (l.map f).filter p = l.filter p := by
  induction l with
  | nil => rfl
  | cons a l ih =>
    rw [List.map_cons, List.filter_cons, List.filter_cons, ih fun b hb => h b (List.mem_cons_of_mem a hb)]
    rcases h a List.mem_cons_self with heq | ⟨hold, hnew⟩
    · rw [heq]
    · rw [if_neg (by simp [hnew]), if_neg (by simp [hold])]

/-- The comments of a post whose trigger is not risen are left as they were. -/
theorem CommentStep.selectCommentsOf (h : CommentStep d ts d') (hn : postKey n ∉ ts) :
    d'.selectCommentsOf n = d.selectCommentsOf n := by
  rw [Db.selectCommentsOf, Db.selectCommentsOf]
  refine congrArg _ ?_
  cases h with
  | same hsame => rw [hsame]
  | insert hinsert hts =>
    rename_i c
    have hne : c.postId ≠ n := fun heq => hn (by rw [hts, heq]; exact List.mem_cons_self)
    rw [hinsert, List.filter_append]
    simp [hne]
  | erase hc herase hts =>
    rename_i id postId
    have hne : postId ≠ n := fun heq => hn (by rw [hts, heq]; exact List.mem_cons_self)
    rw [herase, AutoTable.delete_rows, List.filter_filter]
    refine List.filter_congr fun r hr => ?_
    by_cases hid : r.id = id
    · have hpost : r.postId ≠ n := postId_of_selectComment hc hr hid ▸ hne
      simp [hpost]
    · simp [hid]
  | edit hc hedit hts =>
    rename_i id postId author mail url content
    have hne : postId ≠ n := fun heq => hn (by rw [hts, heq]; exact List.mem_cons_self)
    subst hedit
    rw [Db.updateComment, AutoTable.update_rows]
    refine filter_map_self fun r hr => ?_
    by_cases hid : r.id = id
    · have hpost : r.postId ≠ n := postId_of_selectComment hc hr hid ▸ hne
      exact .inr ⟨by simp [hpost], by simp [hid, hpost]⟩
    · exact .inl (if_neg (by simpa using hid))
  | eraseOf herase hts =>
    rename_i postId
    have hne : n ≠ postId := fun heq => hn (by rw [hts, heq]; exact List.mem_cons_of_mem _ List.mem_cons_self)
    rw [herase, AutoTable.delete_rows, List.filter_filter]
    refine List.filter_congr fun r _ => ?_
    by_cases hpost : r.postId = n
    · simp [hpost, hne]
    · simp [hpost]

theorem PostShown.step {e' : Env} {v : Cached} (h : PostShown e d n v ts) (hstep : Invalidates e' d us d')
    (hus : ∀ t ∈ us, t ∉ ts) : PostShown e d' n v ts := by
  obtain ⟨hkey, p, master, s, hp, hopen, hv, hs⟩ := h
  have hn : postKey n ∉ us := fun hrisen => hus _ hrisen hkey
  exact ⟨hkey, p, master, s, hstep.posts.find hn hp, hopen, hv, by rw [hstep.comments.selectCommentsOf hn]; exact hs⟩

/-! ## Runs -/

/-- The family of the posts that are asked for by their canonical numbers, whatever request they are rendered for. -/
def postFamily (site : Site) : Family
  | d, .page _ (.post id), v, ts => ∀ n : Int, 0 ≤ n → n ≤ maxId → id.text = toString n →
      ∀ a, PostShown (site.env a) d n v ts
  | _, _, _, _ => True

section
variable {site : Site}

/-- A post that is open is cached as it is. -/
theorem postFamily_renders {a : Arrival} {l : Nat} (hd : Mirrored d) {o : CachedObject} {v : Cached}
    (ho : Renders (site.env a) l (postFamily site) d o v ts) : postFamily site d o v ts := by
  cases ho with
  | page hshows hkey =>
    cases hshows with
    | post hroute hpost hopen _ _ =>
      intro n hn hmax hid a'
      rw [hid, Text.atoi_toString hn hmax] at hpost ⊢
      obtain ⟨p', hfind, hname⟩ := Option.bind_eq_some_iff.1 hpost
      obtain ⟨u, -, hpair⟩ := Option.map_eq_some_iff.1 hname
      cases hpair
      have hmem := ((Table.find?_eq_some _ _ _).1 hfind).1
      refine ⟨?_, _, _, _, hfind, (hd.status _ hmem).resolve_left hopen, rfl, rfl⟩
      rw [CachedPage.key, hid] at hkey
      exact hkey
    | _ => trivial
  | _ => trivial

theorem postFamily_survives {e : Env} (d : Db) (c : Cache) : Survives (postFamily site) e d c := by
  intro us d' hstep x _ o _ hS hus
  cases o with
  | page g view =>
    cases view with
    | post id => exact fun n hn hmax hid a => (hS n hn hmax hid a).step hstep hus
    | _ => trivial
  | _ => trivial

/-- **A cached post is current**: in every state the server reaches, an entry of the page cache for the canonical
number of a post shows the texts, the time and the comments of the row, which is there and open. -/
theorem cached_post_current {w : World} (hw : Reachable site w) (g : Bool) (a : Arrival) {n : Int} (hn : 0 ≤ n)
    (hmax : n ≤ maxId) {x : CacheEntry Cached} (hx : x ∈ w.shared.cache)
    (hkey : x.key = pagePrefix g ++ "post_" ++ toString n) :
    ∃ p master s, w.shared.db.posts.find? n = some p ∧ p.isOpen = 1 ∧ x.value = .page [.blogPost master s] ∧
      s.ofPost = Post.pageOf (site.env a) n p (w.shared.db.selectCommentsOf n) := by
  have hinv : Cached.Inv (postFamily site) Mirrored w := by
    obtain ⟨files, events, rfl⟩ := hw
    have hversion : Versioned Db.fresh := by
      unfold Versioned
      decide
    refine run_cached (P := fun _ _ => True) (fun w a ts d' _ hd hstep => hd.change hstep.change)
      (fun w a d o v ts _ hd ho => postFamily_renders hd ho) (fun w a _ _ => (postFamily_survives _ _).to _)
      ⟨hversion, mirrored_fresh, fun x hx => absurd hx List.not_mem_nil⟩ (.of_forall (fun _ _ => trivial) _ _)
  obtain ⟨o, ho, hS⟩ := hinv.cache x hx
  have hpost : o = .page g (.post (.canonical n hn)) := by
    apply CachedObject.key_injective
    rw [← ho, hkey, String.append_assoc]
    rfl
  subst hpost
  exact (hS n hn hmax rfl a).2

end

/-- A post is published, and a visitor reads it. -/
def postEvents : List Event :=
  [.request (.configure "b" "bob"), .request (.login "b" "bob"), .request (.get "b" "/admin"),
   .request (.post "b" "/admin/post" [("_1", "T"), ("_2", "A"), ("_6", "")]), .request (.get "v" "/post/1")]

theorem cached_post_current_first :
    (∃ x ∈ (run .sample postEvents (World.fresh [])).shared.cache, x.key = "_U:post_1") ∧
      ∀ x ∈ (run .sample postEvents (World.fresh [])).shared.cache, x.key = "_U:post_1" →
        ∃ p master s, (run .sample postEvents (World.fresh [])).shared.db.posts.find? 1 = some p ∧ p.isOpen = 1 ∧
          x.value = .page [.blogPost master s] ∧
          s.ofPost = Post.pageOf (Site.sample.env (.get "v" "/")) 1 p
            ((run .sample postEvents (World.fresh [])).shared.db.selectCommentsOf 1) := by
  have hw : Reachable .sample (run .sample postEvents (World.fresh [])) := ⟨[], postEvents, rfl⟩
  refine ⟨by decide +kernel, fun x hx hkey => ?_⟩
  exact cached_post_current hw false (.get "v" "/") (n := 1) (by decide) (by decide) hx hkey

end CppBlog
