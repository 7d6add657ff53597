import CppBlog.Rendered

set_option autoImplicit false

/-! # Feeds made from the tables

What the feeds answer when nothing they need is cached and no call to the database fails. -/

namespace CppBlog

open Effect Store App

/-- `response().set_content_header("text/xml")` -/
def Response.xml (r : Response) : Response := { r with headers := r.headers ++ [("Content-Type", "text/xml")] }

namespace Feed

/-- The answer of a feed of posts. -/
def shown (e : Env) (d : Db) (r : Response) (category : Option (Int × String)) (rows : List SummaryRow) :
    Except Error Unit × Response :=
  d.withInfo r fun info => .feedPosts (feedAround e info r.locale) category (rows.map (postItem e))

/-- The answer of `feed_master::posts`. -/
def postsShown (e : Env) (d : Db) (r : Response) : Except Error Unit × Response :=
  shown e d r.xml none (lastPosts d)

/-- The answer of `feed_master::cats`. -/
def catsShown (e : Env) (d : Db) (r : Response) (sid : String) : Except Error Unit × Response :=
  match d.selectCatName (Text.atoi sid) with
  | none => (.ok (), r.xml.error 404)
  | some name => shown e d r.xml (channel (Text.atoi sid) name) (lastPostsIn (Text.atoi sid) d)

/-- The answer of `feed_master::comments`. -/
def commentsShown (e : Env) (d : Db) (r : Response) : Except Error Unit × Response :=
  d.withInfo r.xml fun info =>
    .feedComments (feedAround e info r.locale) (d.selectLastComments.map (commentItem e))

end Feed

section
variable {s : St}

/-- A feed that is not cached. -/
theorem wp_feedStart {e : Env} {key : String} {k : App Unit} {Q : Unit → St → Prop}
    {E : Error → St → Prop} (hmiss : s.cache.fetch (pageKey e key) = none)
    (h : k.wp sure Q E (s.setOwn { s.own with response := s.own.response.xml })) :
    (Feed.setXml.bind fun _ => (fetchPage e key).bind fun hit => if hit then .ret () else k).wp sure Q E s := by
  have hmiss' : (s.setOwn { s.own with response := s.own.response.xml }).cache.fetch (pageKey e key) =
      none := hmiss
  rw [Feed.setXml, setHeader, Prog.wp_bind, Sure.wp_modifyResponse, Prog.wp_bind]
  refine (wp_fetchPage_miss hmiss').2 ?_
  rw [if_neg (by simp)]
  exact h

/-- A feed is written around its items, and cached. -/
theorem wp_feed_sure (e : Env) (key : String) (page : FeedMaster → Output) (hs : s.tx = none)
    (hv : Versioned s.db) (hmiss : s.cache.fetch "options" = none) :
    (basicPrepare.bind fun info => (Feed.feedMaster e info).bind fun master =>
      (write (page master)).bind fun _ => storePage e key).wp sure
      (fun _ s' => (.ok (), s'.own.response) =
        s.db.withInfo s.own.response fun info => page (feedAround e info s.own.response.locale))
      (fun err s' => (.error err, s'.own.response) =
        s.db.withInfo s.own.response fun info => page (feedAround e info s.own.response.locale)) s := by
  rw [Prog.wp_bind]
  refine wp_basicPrepare_sure hs hv hmiss (fun info s₁ hinfo h₁ => ?_) fun hnone => ?_
  · rw [Feed.feedMaster, Prog.bind_assoc, Prog.wp_bind, Sure.wp_getOwn, Prog.ret_bind, Prog.wp_bind, write,
      Sure.wp_modifyResponse]
    refine wp_storePage_sure fun s₂ h₂ => ?_
    simp only [Db.withInfo, hinfo, h₂, St.setOwn, h₁.response]
    rfl
  · simp only [Db.withInfo, hnone]

theorem wp_showPosts_sure (e : Env) (key : String) (category : Option (Int × String))
    (rows : List SummaryRow) (hs : s.tx = none) (hv : Versioned s.db)
    (hmiss : s.cache.fetch "options" = none) :
    (Feed.showPosts e key category rows).wp sure
      (fun _ s' => (.ok (), s'.own.response) = Feed.shown e s.db s.own.response category rows)
      (fun err s' => (.error err, s'.own.response) = Feed.shown e s.db s.own.response category rows) s := by
  rw [Feed.showPosts, Prog.wp_bind]
  refine wp_addTriggers_sure fun s₁ h₁ => ?_
  have hfeed := wp_feed_sure e key (fun master => .feedPosts master category (rows.map (Feed.postItem e)))
    (h₁.tx.trans hs) (h₁.db.symm ▸ hv) (h₁.miss (by simp) hmiss)
  rw [h₁.db, h₁.response] at hfeed
  exact hfeed

/-- The feed of all posts. -/
theorem answer_feedPosts (e : Env) (hs : s.tx = none) (hv : Versioned s.db) (hcache : s.cache = []) :
    answer (Feed.posts e) s = Feed.postsShown e s.db s.own.response := by
  apply answer_of_wp
  have hmiss (key : String) : s.cache.fetch key = none := by rw [hcache, TriggerCache.fetch_nil]
  refine wp_feedStart (hmiss _) ?_
  rw [addTrigger, Prog.wp_bind]
  refine wp_addTriggers_sure fun s₁ h₁ => ?_
  have hs₁ : s₁.tx = none := h₁.tx.trans hs
  have hdb₁ : s₁.db = s.db := h₁.db
  have hresponse : s₁.own.response = s.own.response.xml := h₁.response
  rw [Prog.wp_bind, Sure.wp_query, current_eq hs₁]
  have hposts := wp_showPosts_sure e "rss_posts" none (Feed.lastPosts s₁.db) hs₁ (hdb₁.symm ▸ hv)
    (h₁.miss (by simp) (hmiss "options"))
  rw [hresponse, hdb₁] at hposts
  rw [hdb₁]
  exact hposts

/-- The feed of a category. -/
theorem answer_feedCats (e : Env) (sid : String) (hs : s.tx = none) (hv : Versioned s.db)
    (hcache : s.cache = []) :
    answer (Feed.cats e sid) s = Feed.catsShown e s.db s.own.response sid := by
  apply answer_of_wp
  have hmiss (key : String) : s.cache.fetch key = none := by rw [hcache, TriggerCache.fetch_nil]
  refine wp_feedStart (hmiss _) ?_
  rw [addTrigger, Prog.wp_bind]
  refine wp_addTriggers_sure fun s₁ h₁ => ?_
  have hs₁ : s₁.tx = none := h₁.tx.trans hs
  have hdb₁ : s₁.db = s.db := h₁.db
  have hresponse : s₁.own.response = s.own.response.xml := h₁.response
  dsimp only
  rw [Prog.wp_bind, Sure.wp_query, current_eq hs₁, hdb₁]
  unfold Feed.catsShown
  cases hname : s.db.selectCatName (Text.atoi sid) with
  | none =>
    rw [makeErrorResponse, Sure.wp_modifyResponse]
    simp only [St.setOwn, hresponse]
    rfl
  | some name =>
    dsimp only
    rw [Prog.wp_bind, Sure.wp_query, current_eq hs₁, hdb₁]
    have hposts := wp_showPosts_sure e ("rss_" ++ sid) (Feed.channel (Text.atoi sid) name)
      (Feed.lastPostsIn (Text.atoi sid) s.db) hs₁ (hdb₁.symm ▸ hv) (h₁.miss (by simp) (hmiss "options"))
    rw [hresponse, hdb₁] at hposts
    exact hposts

/-- The feed of the comments. -/
theorem answer_feedComments (e : Env) (hs : s.tx = none) (hv : Versioned s.db) (hcache : s.cache = []) :
    answer (Feed.comments e) s = Feed.commentsShown e s.db s.own.response := by
  apply answer_of_wp
  have hmiss (key : String) : s.cache.fetch key = none := by rw [hcache, TriggerCache.fetch_nil]
  refine wp_feedStart (hmiss _) ?_
  have hs' : (s.setOwn { s.own with response := s.own.response.xml }).tx = none := hs
  rw [Prog.wp_bind, Sure.wp_query, current_eq hs']
  exact wp_feed_sure (s := s.setOwn { s.own with response := s.own.response.xml }) e "comments"
    (fun master => .feedComments master (s.db.selectLastComments.map (Feed.commentItem e))) hs hv (hmiss _)

end

end CppBlog
