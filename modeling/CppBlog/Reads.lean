import CppBlog.Calls
import Mathlib.Logic.Relation

set_option autoImplicit false

/-! # Handlers that only read

Most handlers change neither the tables nor the files, except that the first page of an older database
upgrades it. `Reads` is that relation between the state before and after; it is followed through the
functions the handlers share and then through every handler that only displays. -/

namespace CppBlog

open Effect Store App Relation

/-! ## Steps that leave the tables and the files alone -/

/-- The database, the open transaction and the files are as before. -/
structure Idle (s s' : St) : Prop where
  db : s'.db = s.db
  tx : s'.tx = s.tx
  files : s'.files = s.files

/-- And to the cache it only adds. -/
structure Quiet (s s' : St) : Prop extends Idle s s' where
  cached : TriggerCache.Grown s.cache s'.cache

/-- A preorder that does not look at the session or the response, nor at what is added to the cache. -/
class AllowsQuiet (R : St → St → Prop) : Prop extends IsPreorder St R where
  of_quiet : ∀ {s s'}, Quiet s s' → R s s'

/-- A preorder that does not look at the session, the response or the cache. -/
class AllowsIdle (R : St → St → Prop) : Prop extends IsPreorder St R where
  of_idle : ∀ {s s'}, Idle s s' → R s s'

instance {R : St → St → Prop} [AllowsIdle R] : AllowsQuiet R where
  of_quiet h := AllowsIdle.of_idle h.toIdle

instance : AllowsIdle Idle where
  refl _ := ⟨rfl, rfl, rfl⟩
  trans _ _ _ h h' := ⟨h'.db.trans h.db, h'.tx.trans h.tx, h'.files.trans h.files⟩
  of_idle h := h

/-- A model under which what a page does to the request's own data and to the cache, and what it reads, is within
    the preorder. -/
class Undisturbed {S : Type} (M : Model Sig Error S) (R : S → S → Prop) : Prop extends IsPreorder S R where
  query : ∀ {β : Type} (f : Db → β), (App.query f).Within M R
  own : ∀ {β : Type} (f : Own → β × Own), (Prog.perform (.own f) : App β).Within M R
  peek : ∀ {β : Type} (f : Cache → β), (App.cache (fun c => (f c, c))).Within M R
  put : ∀ (key : String) (value : Cached) (ts : List String),
    (App.cache (fun c => ((), c.store key value ts))).Within M R
  lookUp : ∀ {β : Type} (f : Files → β), (App.files (fun fs => (f fs, fs))).Within M R

instance {R : St → St → Prop} [AllowsQuiet R] : Undisturbed calls R where
  query _ _ := wp_query.2 ⟨refl _, refl _⟩
  own _ _ := wp_own.2 (AllowsQuiet.of_quiet ⟨⟨rfl, rfl, rfl⟩, .refl⟩)
  peek _ _ := wp_cache.2 (AllowsQuiet.of_quiet ⟨⟨rfl, rfl, rfl⟩, .refl⟩)
  put key value ts _ := wp_cache.2 (AllowsQuiet.of_quiet ⟨⟨rfl, rfl, rfl⟩, .single ⟨key, value, ts, rfl⟩⟩)
  lookUp _ _ := wp_files.2 (AllowsQuiet.of_quiet ⟨⟨rfl, rfl, rfl⟩, .refl⟩)

namespace Idle

theorem cache {β : Type} {R : St → St → Prop} [AllowsIdle R] (f : Cache → β × Cache) :
    (App.cache f).Within calls R := fun _ => wp_cache.2 (AllowsIdle.of_idle ⟨rfl, rfl, rfl⟩)

theorem rise {R : St → St → Prop} [AllowsIdle R] (t : String) : (App.rise t).Within calls R := cache _

variable {α β S : Type} {M : Model Sig Error S} {R : S → S → Prop} [Undisturbed M R]

theorem query (f : Db → β) : (App.query f).Within M R := Undisturbed.query f

theorem own (f : Own → β × Own) : (Prog.perform (.own f) : App β).Within M R := Undisturbed.own f

theorem getOwn (f : Own → β) : (App.getOwn f).Within M R := own _

theorem modifyOwn (f : Own → Own) : (App.modifyOwn f).Within M R := own _

theorem peek (f : Cache → β) : (App.cache (fun c => (f c, c))).Within M R := Undisturbed.peek f

theorem put (key : String) (value : Cached) (ts : List String) :
    (App.cache (fun c => ((), c.store key value ts))).Within M R := Undisturbed.put key value ts

/-- A call on the file system that changes nothing. -/
theorem lookUp (f : Files → β) : (App.files (fun fs => (f fs, fs))).Within M R := Undisturbed.lookUp f

theorem sessionGet (key : String) : (App.sessionGet key).Within M R :=
  (getOwn _).bind fun v => by cases v <;> first | exact .ret _ | exact .throw _

theorem sessionGetInt (key : String) : (App.sessionGetInt key).Within M R :=
  (sessionGet key).bind fun v => by cases Text.readInt? v <;> first | exact .ret _ | exact .throw _

theorem makeErrorResponse (status : Nat) : (App.makeErrorResponse status).Within M R :=
  modifyOwn _

theorem setRedirectHeader (location : String) :
    (App.setRedirectHeader location).Within M R := modifyOwn _

theorem setHeader (name value : String) : (App.setHeader name value).Within M R := modifyOwn _

theorem write (out : Output) : (App.write out).Within M R := modifyOwn _

theorem addTriggers (ts : List String) : (App.addTriggers ts).Within M R := modifyOwn _

theorem loadForm {φ : Type} (e : Env) (load : List (String × String) → φ) :
    (App.loadForm e load).Within M R :=
  Prog.Within.bind ((own _).bind fun _ => .ite (.throw _) (.ret _)) fun _ => .ret _

theorem fetchPage (e : Env) (key : String) : (App.fetchPage e key).Within M R := by
  refine (peek _).bind fun r => ?_
  split
  · exact .ret _
  · split
    · exact (modifyOwn _).bind fun _ => .ret _
    · exact .throw _

theorem storePage (e : Env) (key : String) : (App.storePage e key).Within M R :=
  (addTriggers _).bind fun _ => (getOwn _).bind fun _ => put _ _ _

theorem fetch (key : String) : (App.fetch key).Within M R := by
  refine (peek _).bind fun r => ?_
  split
  · exact .ret _
  · exact (addTriggers _).bind fun _ => .ret _

theorem store (key : String) (value : Cached) (triggers : List String) :
    (App.store key value triggers).Within M R := (addTriggers _).bind fun _ => put _ _ _

theorem record {body : App α} (h : body.Within M R) : (App.record body).Within M R :=
  (modifyOwn _).bind fun _ => h.bind fun _ => (own _).bind fun _ => .ret _

end Idle

/-! ## Steps that may upgrade an older database -/

/-- `upgrade_2_3` on a database of another version. -/
def Upgraded (d d' : Db) : Prop :=
  d.option "dbversion" ≠ some cppblogDbversion ∧
    ∃ m, d.updatePost2CatFromPosts = .ok m ∧ d' = m.updateDbversion

/-- Files stay, and outside of a transaction the tables stay or are upgraded. -/
structure Reads (s s' : St) : Prop where
  files : s'.files = s.files
  db : s.tx = none → s'.tx = none ∧ ReflTransGen Upgraded s.db s'.db

instance : AllowsIdle Reads where
  refl s := ⟨rfl, fun h => ⟨h, .refl⟩⟩
  trans a b c hab hbc := by
    refine ⟨hbc.files.trans hab.files, fun ha => ?_⟩
    obtain ⟨hb, hdb⟩ := hab.db ha
    obtain ⟨hc, hdb'⟩ := hbc.db hb
    exact ⟨hc, hdb.trans hdb'⟩
  of_idle h := ⟨h.files, fun hs => ⟨h.tx.trans hs, h.db ▸ .refl⟩⟩

/-- An upgrade leaves the cache alone. -/
structure Upgrades (s s' : St) : Prop extends Reads s s' where
  cache : s'.cache = s.cache

/-- A preorder that allows an upgrade, too. -/
class AllowsReads (R : St → St → Prop) : Prop extends AllowsQuiet R where
  of_upgrade : ∀ {s s'}, Upgrades s s' → R s s'

instance : AllowsReads Reads where
  of_upgrade h := h.toReads

/-- A handler that only reads. -/
abbrev ReadOnly {α : Type} (p : App α) : Prop := p.Within calls Reads

/-! ## The shared part of every page -/

theorem foldl_read_of_forall_ne {rows : List (String × String)} (h : ∀ r ∈ rows, r.1 ≠ "dbversion")
    (o : OptionRows) : (rows.foldl OptionRows.read o).dbversion = o.dbversion := by
  induction rows generalizing o with
  | nil => rfl
  | cons r rows ih =>
      have hr := h r List.mem_cons_self
      rw [List.foldl_cons, ih (fun x hx => h x (List.mem_cons_of_mem r hx))]
      unfold OptionRows.read
      split_ifs <;> rfl

theorem foldl_read_dbversion {rows : List TextOption} (hnd : (rows.map TextOption.id).Nodup)
    (o : OptionRows) :
    ((rows.map (fun r => (r.id, r.value))).foldl OptionRows.read o).dbversion =
      ((rows.find? (fun r => r.id = "dbversion")).map TextOption.value).getD o.dbversion := by
  induction rows generalizing o with
  | nil => rfl
  | cons r rows ih =>
      rw [List.map_cons, List.nodup_cons] at hnd
      by_cases hr : r.id = "dbversion"
      · have hne : ∀ x ∈ rows.map (fun r => (r.id, r.value)), x.1 ≠ "dbversion" := by
          intro x hx he
          obtain ⟨y, hy, rfl⟩ := List.mem_map.1 hx
          exact hnd.1 (hr ▸ he ▸ List.mem_map_of_mem hy)
        rw [List.map_cons, List.foldl_cons, foldl_read_of_forall_ne hne]
        simp [OptionRows.read, hr]
      · have hread : (o.read (r.id, r.value)).dbversion = o.dbversion := by
          unfold OptionRows.read
          split_ifs <;> rfl
        rw [List.map_cons, List.foldl_cons, ih hnd.2, hread]
        simp [hr]

/-- The version `basic_master::prepare` reads is the one in `text_options`. -/
theorem read_dbversion (d : Db) :
    (d.selectOptions.foldl OptionRows.read {}).dbversion = (d.option "dbversion").getD "" :=
  foldl_read_dbversion d.textOptions.nodup {}

theorem wp_upgrade (v : String) (s : St)
    (hv : s.tx = none → s.db.option "dbversion" ≠ some cppblogDbversion) :
    (upgrade v).wp calls (fun _ s' => Upgrades s s')
      (fun _ s' => Upgrades s s') s := by
  have hfinal : Text.atoi cppblogDbversion = 3 := by decide
  have hrefl : Upgrades s s := ⟨refl s, rfl⟩
  have hsame : Upgrades s { s with tx := none } := ⟨⟨rfl, fun _ => ⟨rfl, .refl⟩⟩, rfl⟩
  have hback (s' : St) (hf : s'.files = s.files) (hd : s'.db = s.db) (hc : s'.cache = s.cache) :
      Upgrades s { s' with tx := none } := ⟨⟨hf, fun _ => ⟨rfl, hd ▸ .refl⟩⟩, hc⟩
  simp only [upgrade, hfinal]
  generalize Text.atoi v = ver
  split_ifs with hgt hlt
  · exact hrefl
  · exact hrefl
  obtain rfl | rfl : ver = 2 ∨ ver = 3 := by omega
  · -- one round: the mirror of `is_open` is filled in and the version is set
    simp only [wp_transaction, Prog.wp_bind]
    refine ⟨?_, hrefl⟩
    change (upgrade23.bind fun ok => if ok then upgradeLoop 3 0 else .ret false).wp calls _ _ _
    simp only [upgrade23, Prog.wp_bind, wp_exec, wp_execTotal, Prog.wp_ret, if_true, upgradeLoop,
      wp_commit]
    refine ⟨fun m hm => ⟨⟨⟨⟨rfl, fun hs => ⟨rfl, .single ⟨hv hs, m, hm, rfl⟩⟩⟩, rfl⟩,
      hback _ rfl rfl rfl⟩, hback _ rfl rfl rfl⟩, fun _ _ => hsame, hsame⟩
  · simp only [wp_transaction, Prog.wp_bind]
    refine ⟨?_, hrefl⟩
    change (upgradeLoop 3 0).wp calls _ _ _
    simp only [upgradeLoop, Prog.wp_ret, if_true, Prog.wp_bind, wp_commit]
    exact ⟨hsame, hsame⟩

theorem wp_checkVersion (v : String) (s : St)
    (hv : s.tx = none → v ≠ cppblogDbversion → s.db.option "dbversion" ≠ some cppblogDbversion) :
    (checkVersion v).wp calls (fun _ s' => Upgrades s s')
      (fun _ s' => Upgrades s s') s := by
  unfold checkVersion
  split_ifs with h
  · exact ⟨refl s, rfl⟩
  · refine Prog.wp_seq (wp_upgrade v s (fun hs => hv hs h)) (fun ok s' hs' => ?_) (fun _ _ h => h)
    cases ok <;> exact hs'

/-- A model under which preparing a page is within the preorder, too. -/
class Prepares {S : Type} (M : Model Sig Error S) (R : S → S → Prop) : Prop extends Undisturbed M R where
  basicPrepare : basicPrepare.Within M R

instance {R : St → St → Prop} [AllowsReads R] : Prepares calls R where
  basicPrepare := by
    refine (Idle.fetch _).bind fun r => ?_
    split
    · exact .ret _
    · exact .throw _
    · intro s
      rw [Prog.wp_bind, wp_query]
      refine ⟨Prog.wp_seq (wp_checkVersion _ s ?_) (fun _ s' hs' => ?_)
        (fun _ _ h => AllowsReads.of_upgrade h), refl s⟩
      · intro hs hne hv
        rw [read_dbversion, St.current_of_none hs, hv] at hne
        exact hne rfl
      · have hs' : R s s' := AllowsReads.of_upgrade hs'
        have hrest : (if (s.current.selectOptions.foldl OptionRows.read {}).isConfigured ≠ "yes"
            then Prog.throw Error.notConfigured
            else (store "options" (.info (s.current.selectOptions.foldl OptionRows.read {}).info)
              []).bind fun _ =>
                .ret (s.current.selectOptions.foldl OptionRows.read {}).info).Within calls R :=
          .ite (.throw _) ((Idle.store _ _ _).bind fun _ => .ret _)
        exact hrest.wp (fun _ _ h => IsTrans.trans _ _ _ hs' h) (fun _ _ h => IsTrans.trans _ _ _ hs' h)

section
variable {S : Type} {M : Model Sig Error S} {R : S → S → Prop} [Prepares M R]

theorem readOnly_basicPrepare : basicPrepare.Within M R := Prepares.basicPrepare

theorem readOnly_loadSidebar : loadSidebar.Within M R := by
  refine (Idle.fetch _).bind fun r => ?_
  split
  · exact .ret _
  · exact .throw _
  · refine (Idle.record ?_).bind fun _ => (Idle.store _ _ _).bind fun _ => .ret _
    exact (Idle.query _).bind fun _ => (Idle.addTriggers _).bind fun _ =>
      (Idle.query _).bind fun _ => (Idle.addTriggers _).bind fun _ =>
      (Idle.addTriggers _).bind fun _ => .ret _

theorem readOnly_renderMaster (e : Env) (info : GeneralInfo) : (renderMaster e info).Within M R := by
  refine Prog.Within.bind ?_ fun _ => (Idle.getOwn _).bind fun _ => .ret _
  refine (Idle.fetch _).bind fun r => ?_
  split
  · exact .ret _
  · exact .throw _
  · refine (Idle.record ?_).bind fun _ => (Idle.getOwn _).bind fun _ =>
      (Idle.store _ _ _).bind fun _ => .ret _
    exact readOnly_loadSidebar.bind fun _ => (Idle.addTriggers _).bind fun _ => .ret _

theorem readOnly_adminPrepare : adminPrepare.Within M R :=
  readOnly_basicPrepare.bind fun _ => (Idle.getOwn _).bind fun _ =>
    .ite ((Idle.sessionGetInt _).bind fun _ => (Idle.sessionGet _).bind fun _ => .ret _)
      (.ret _)

theorem readOnly_renderAdmin (e : Env) (c : AdminContent) (active : String) (view : AdminView) :
    (renderAdmin e c active view).Within M R := (Idle.getOwn _).bind fun _ => Idle.write _

/-- A page of the administration without further queries. -/
theorem readOnly_adminPage (e : Env) (active : String) (view : AdminContent → AdminView) :
    (adminPrepare.bind fun c => renderAdmin e c active (view c)).Within M R :=
  readOnly_adminPrepare.bind fun _ => readOnly_renderAdmin e _ active _

/-! ## The public pages -/

theorem readOnly_prepareContent (sid : String) (preview : Bool) :
    (Post.prepareContent sid preview).Within M R := by
  refine (Idle.query _).bind fun r => ?_
  split
  · exact (Idle.makeErrorResponse _).bind fun _ => .ret _
  · refine .ite ((Idle.makeErrorResponse _).bind fun _ => .ret _) ?_
    exact readOnly_basicPrepare.bind fun _ => (Idle.query _).bind fun _ =>
      (Idle.query _).bind fun _ => .ret _

theorem readOnly_postRender (e : Env) (c : PostContent) (text : String) (f : CommentForm) :
    (Post.render e c text f).Within M R :=
  (readOnly_renderMaster e c.info).bind fun _ => Idle.write _

/-- The page of a post, shown again with the form of a comment. -/
theorem readOnly_redisplay (e : Env) (sid text : String) (f : CommentForm) :
    ((Post.prepareContent sid false).bind fun c =>
      match c with
      | none => .ret ()
      | some c => Post.render e c text f).Within M R := by
  refine (readOnly_prepareContent sid false).bind fun c => ?_
  split
  · exact .ret _
  · exact readOnly_postRender e _ _ _

theorem readOnly_postDisplay (e : Env) (id : String) : (Post.display e id).Within M R := by
  refine (Idle.fetchPage e _).bind fun hit => .ite (.ret _) ?_
  refine (readOnly_prepareContent id false).bind fun r => ?_
  split
  · exact .ret _
  · exact (readOnly_postRender e _ _ _).bind fun _ => Idle.storePage e _

theorem readOnly_postPreview (e : Env) (id : String) : (Post.preview e id).Within M R := by
  refine (Idle.getOwn _).bind fun user => .ite (Idle.makeErrorResponse _) ?_
  refine (readOnly_prepareContent id true).bind fun r => ?_
  split
  · exact .ret _
  · exact readOnly_postRender e _ _ _

theorem readOnly_pagePrepare (e : Env) (sid : String) (preview : Bool) :
    (Page.prepare e sid preview).Within M R := by
  refine (Idle.query _).bind fun r => ?_
  split
  · exact (Idle.makeErrorResponse _).bind fun _ => .ret _
  · refine .ite ((Idle.makeErrorResponse _).bind fun _ => .ret _) ?_
    exact readOnly_basicPrepare.bind fun _ => (readOnly_renderMaster e _).bind fun _ =>
      (Idle.write _).bind fun _ => .ret _

theorem readOnly_pageDisplay (e : Env) (id : String) : (Page.display e id).Within M R :=
  (Idle.fetchPage e _).bind fun _ => .ite (.ret _)
    ((readOnly_pagePrepare e id false).bind fun _ => .ite (Idle.storePage e _) (.ret _))

theorem readOnly_pagePreview (e : Env) (id : String) : (Page.preview e id).Within M R :=
  (Idle.getOwn _).bind fun _ => .ite (Idle.makeErrorResponse _)
    ((readOnly_pagePrepare e id true).bind fun _ => .ret _)

theorem readOnly_checkMaxCatId (catId : Int) : (Summary.checkMaxCatId catId).Within M R := by
  refine .ite ((Idle.fetch _).bind fun r => ?_) (.ret _)
  split
  · exact .ite ((Idle.makeErrorResponse _).bind fun _ => .ret _) (.ret _)
  · exact .throw _
  · exact (Idle.query _).bind fun _ => (Idle.store _ _ _).bind fun _ => .ret _

theorem readOnly_categoryName (catId : Int) : (Summary.categoryName catId).Within M R := by
  refine (Idle.fetch _).bind fun r => ?_
  split
  · exact .ret _
  · exact .throw _
  · exact (Idle.query _).bind fun _ => (Idle.store _ _ _).bind fun _ => .ret _

theorem readOnly_pageRecords (key : String) (catId : Int) (n : Db → Int) :
    (Summary.pageRecords key catId n).Within M R := by
  refine (Idle.fetch _).bind fun r => ?_
  split
  · exact .ret _
  · exact .throw _
  · exact (Idle.query _).bind fun _ => (Idle.store _ _ _).bind fun _ => .ret _

theorem readOnly_showPage (e : Env) (key : String) (catId : Int) (name q : String) (p : Paging) :
    (Summary.showPage e key catId name q p).Within M R :=
  (Idle.query _).bind fun _ => (Idle.addTriggers _).bind fun _ =>
    readOnly_basicPrepare.bind fun _ =>
    Prog.Within.bind (.ite (.ret _) (Idle.query _)) fun _ =>
    (readOnly_renderMaster e _).bind fun _ => (Idle.write _).bind fun _ => Idle.storePage e _

theorem readOnly_summaryList (e : Env) (key : String) (catId page : Int) (name q : String) :
    (Summary.list e key catId page name q).Within M R :=
  (readOnly_pageRecords _ _ _).bind fun _ =>
    .ite (Idle.setRedirectHeader _) (readOnly_showPage e _ _ _ _ _)

theorem readOnly_summary (e : Env) (catId page : Int) : (Summary.prepare e catId page).Within M R :=
  (readOnly_checkMaxCatId _).bind fun _ => .ite (.ret _) <|
    (Idle.fetchPage e _).bind fun _ => .ite (.ret _) <|
    (Idle.addTriggers _).bind fun _ =>
    .ite ((readOnly_categoryName _).bind fun _ =>
        .ite (Idle.makeErrorResponse _) (readOnly_summaryList e _ _ _ _ _))
      (readOnly_summaryList e _ _ _ _ _)

theorem readOnly_feedMaster (e : Env) (info : GeneralInfo) : (Feed.feedMaster e info).Within M R :=
  (Idle.getOwn _).bind fun _ => .ret _

theorem readOnly_feedComments (e : Env) : (Feed.comments e).Within M R :=
  (Idle.setHeader _ _).bind fun _ => (Idle.fetchPage e _).bind fun _ => .ite (.ret _) <|
    (Idle.query _).bind fun _ => readOnly_basicPrepare.bind fun _ =>
    (readOnly_feedMaster e _).bind fun _ => (Idle.write _).bind fun _ => Idle.storePage e _

theorem readOnly_showPosts (e : Env) (key : String) (c : Option (Int × String))
    (rows : List SummaryRow) : (Feed.showPosts e key c rows).Within M R :=
  (Idle.addTriggers _).bind fun _ => readOnly_basicPrepare.bind fun _ =>
    (readOnly_feedMaster e _).bind fun _ => (Idle.write _).bind fun _ => Idle.storePage e _

theorem readOnly_feedPosts (e : Env) : (Feed.posts e).Within M R :=
  (Idle.setHeader _ _).bind fun _ => (Idle.fetchPage e _).bind fun _ => .ite (.ret _) <|
    (Idle.addTriggers _).bind fun _ => (Idle.query _).bind fun _ =>
    readOnly_showPosts e _ _ _

theorem readOnly_feedCats (e : Env) (sid : String) : (Feed.cats e sid).Within M R := by
  refine (Idle.setHeader _ _).bind fun _ => (Idle.fetchPage e _).bind fun _ =>
    .ite (.ret _) ?_
  refine (Idle.addTriggers _).bind fun _ => (Idle.query _).bind fun name => ?_
  split
  · exact Idle.makeErrorResponse _
  · exact (Idle.query _).bind fun _ => readOnly_showPosts e _ _ _

theorem readOnly_captcha (e : Env) : (Captcha.main e).Within M R :=
  (Idle.modifyOwn _).bind fun _ => (Idle.setHeader _ _).bind fun _ => Idle.write _

omit [Prepares M R] in
theorem within_configVersion [Undisturbed M R] (e : Env) : (Config.version e).Within M R :=
  (Idle.query _).bind fun _ => .ite (Idle.setRedirectHeader _)
    ((Idle.getOwn _).bind fun _ => Idle.write _)

theorem readOnly_sendFile (e : Env) (show64 : Int → String) (content : List UInt8) (mtime : Nat) :
    (sendFile e show64 content mtime).Within M R :=
  Prog.Within.bind (.ite (Idle.setHeader _ _) (.ret _)) fun _ =>
    (Idle.setHeader _ _).bind fun _ => (Idle.setHeader _ _).bind fun _ =>
    (Idle.setHeader _ _).bind fun _ => (Idle.setHeader _ _).bind fun _ =>
    (Idle.setHeader _ _).bind fun _ => (Idle.setHeader _ _).bind fun _ =>
    (Idle.setHeader _ _).bind fun _ => (Idle.setHeader _ _).bind fun _ =>
    (Idle.setHeader _ _).bind fun _ =>
    Prog.Within.bind (.ite (Idle.modifyOwn _) (.ret _)) fun _ => Idle.write _

theorem readOnly_serveFile (e : Env) (show64 : Int → String) (path : String) :
    (serveFile e show64 path).Within M R := by
  refine (Idle.lookUp _).bind fun r => ?_
  split
  · exact Idle.makeErrorResponse _
  · exact readOnly_sendFile e _ _ _
  · exact readOnly_sendFile e _ _ _

theorem readOnly_media (e : Env) (path : String) : (Media.prepare e path).Within M R :=
  .ite (Idle.makeErrorResponse _)
    ((Idle.setHeader _ _).bind fun _ => readOnly_serveFile e _ _)

omit [Prepares M R] in
theorem within_extension [IsPreorder S R] (s : String) : (extension s).Within M R :=
  .ite (.ret _) (.throw _)

omit [Prepares M R] in
theorem within_uploadPath [IsPreorder S R] (e : Env) (md5 : String) (size : Nat) :
    (Download.uploadPath e md5 size).Within M R := by
  have hsubstr (s : String) (pos n : Nat) : (substr s pos n).Within M R :=
    .ite (.throw _) (.ret _)
  exact (hsubstr _ _ _).bind fun _ => (hsubstr _ _ _).bind fun _ => (hsubstr _ _ _).bind fun _ => .ret _

theorem readOnly_download (e : Env) (md5 size name : String) :
    (Download.prepare e md5 size name).Within M R :=
  readOnly_basicPrepare.bind fun _ => (within_uploadPath e _ _).bind fun _ =>
    (within_extension _).bind fun _ => (Idle.setHeader _ _).bind fun _ =>
    (Idle.setHeader _ _).bind fun _ => readOnly_serveFile e _ _

theorem readOnly_login (e : Env) : (Users.prepare e).Within M R := by
  refine (Idle.modifyOwn _).bind fun _ => (Idle.modifyOwn _).bind fun _ =>
    .ite ?_ (readOnly_adminPage e _ _)
  refine (Idle.loadForm e _).bind fun form => .ite (readOnly_adminPage e _ _) ?_
  refine ((Idle.query _).bind fun _ => .ret _).bind fun r => ?_
  split
  · exact (Idle.modifyOwn _).bind fun _ => (Idle.modifyOwn _).bind fun _ =>
      Idle.setRedirectHeader _
  · exact readOnly_adminPage e _ _

/-! ## Administration pages that only display -/

theorem readOnly_usersList (e : Env) (page : Int) : (Users.list e page).Within M R :=
  (Idle.query _).bind fun _ => (Idle.query _).bind fun _ =>
    readOnly_adminPrepare.bind fun _ => readOnly_renderAdmin e _ _ _

theorem readOnly_adminSummary (e : Env) (page : Int) : (AdminSummary.prepare e page).Within M R :=
  readOnly_adminPrepare.bind fun _ => (Idle.query _).bind fun _ =>
    (Idle.query _).bind fun _ => (Idle.query _).bind fun _ =>
    (Idle.query _).bind fun _ => (Idle.query _).bind fun _ =>
    readOnly_renderAdmin e _ _ _

/-- A `POST` to the page of the cache empties it. -/
theorem within_caching (e : Env) (hclear : e.req.method = "POST" → clearCache.Within M R) :
    (Caching.prepare e).Within M R := by
  refine Prog.Within.bind ?_ fun _ => (Idle.peek _).bind fun _ => readOnly_adminPage e _ _
  split
  · rename_i hmethod
    exact hclear hmethod
  · exact .ret _

end

theorem readOnly_caching {R : St → St → Prop} [AllowsReads R] [AllowsIdle R] (e : Env) :
    (Caching.prepare e).Within calls R := within_caching e fun _ => Idle.cache _

end CppBlog
