import CppBlog.Effect.Every
import CppBlog.CachedRuns
import CppBlog.Number.Double

set_option autoImplicit false

/-! # Pages of a listing

`calc_pages` and the slices it leads to, and the redirect of `summary::prepare` to a page that exists. -/

namespace CppBlog

open Effect Store App

/-! ## The operations of a page -/

/-- A set of operations with every call to the database and the cache, and every step on the data of the
    request that leaves the redirect alone. -/
class AllowsPages (P : (γ : Type) → Sig γ → Prop) : Prop where
  query : ∀ {β : Type} (f : Db → β), P β (.query f)
  exec : ∀ f, P Unit (.exec f)
  begin : P Unit .begin
  commit : P Unit .commit
  rollback : P Unit .rollback
  cache : ∀ {β : Type} (f : Cache → β × Cache), P β (.cache f)
  own : ∀ {β : Type} (f : Own → β × Own),
    (∀ o, (f o).2.response.location = o.response.location) → P β (.own f)

namespace Asks

variable {α β : Type} {P : (γ : Type) → Sig γ → Prop} [AllowsPages P]

theorem query (f : Db → β) : (App.query f).Every P := .perform (AllowsPages.query f)

theorem exec (f : Db → Except SqlError Db) : (App.exec f).Every P := .perform (AllowsPages.exec f)

theorem cache (f : Cache → β × Cache) : (App.cache f).Every P := .perform (AllowsPages.cache f)

theorem getOwn (f : Own → β) : (App.getOwn f).Every P := .perform (AllowsPages.own _ fun _ => rfl)

theorem modifyOwn {f : Own → Own} (h : ∀ o, (f o).response.location = o.response.location) :
    (App.modifyOwn f).Every P := .perform (AllowsPages.own _ h)

theorem transaction {body : App α} (h : body.Every P) : (App.transaction body).Every P :=
  Prog.Every.bind (.perform AllowsPages.begin) fun _ => h.ensure (.perform AllowsPages.rollback)

theorem write (out : Output) : (App.write out).Every P := modifyOwn fun _ => rfl

theorem makeErrorResponse (status : Nat) : (App.makeErrorResponse status).Every P := modifyOwn fun _ => rfl

theorem addTriggers (ts : List String) : (App.addTriggers ts).Every P := modifyOwn fun _ => rfl

theorem fetch (key : String) : (App.fetch key).Every P := by
  refine (cache _).bind fun r => ?_
  split
  · exact .ret _
  · exact (addTriggers _).bind fun _ => .ret _

theorem store (key : String) (value : Cached) (triggers : List String) :
    (App.store key value triggers).Every P := (addTriggers _).bind fun _ => cache _

theorem record {body : App α} (h : body.Every P) : (App.record body).Every P := by
  unfold App.record
  refine Prog.Every.bind (modifyOwn fun _ => rfl) fun _ => h.bind fun a => ?_
  exact Prog.Every.bind (.perform (AllowsPages.own _ fun _ => rfl)) fun _ => .ret _

theorem storePage (e : Env) (key : String) : (App.storePage e key).Every P :=
  (addTriggers _).bind fun _ => (getOwn _).bind fun _ => cache _

theorem fetchPage (e : Env) (key : String) : (App.fetchPage e key).Every P := by
  unfold App.fetchPage
  refine Prog.Every.bind (cache _) fun r => ?_
  split
  · exact .ret _
  · split
    · exact Prog.Every.bind (modifyOwn fun _ => rfl) fun _ => .ret _
    · exact .throw _

theorem basicPrepare : CppBlog.basicPrepare.Every P := by
  have hloop (ver rounds : Nat) : (upgradeLoop ver rounds).Every P := by
    induction rounds generalizing ver with
    | zero => exact .ret _
    | succ rounds ih =>
      unfold upgradeLoop
      split
      · exact .throw _
      · rename_i call hcall
        have hmem : call = dummyUpgrade ∨ call = upgrade23 := by
          simpa [callbacks] using List.mem_of_getElem? hcall
        refine Prog.Every.bind ?_ fun ok => .ite (ih _) (.ret _)
        rcases hmem with rfl | rfl
        · exact .throw _
        · exact (exec _).bind fun _ => (exec _).bind fun _ => .ret _
  have hupgrade (v : String) : (upgrade v).Every P :=
    .ite (.ret _) <| .ite (.ret _) <| transaction <| (hloop _ _).bind fun ok =>
      .ite ((Prog.Every.perform AllowsPages.commit).bind fun _ => .ret _) (.ret _)
  have hversion (v : String) : (checkVersion v).Every P :=
    .ite (.ret _) <| (hupgrade v).bind fun _ => .ite (.ret _) (.throw _)
  refine (fetch "options").bind fun r => ?_
  split
  · exact .ret _
  · exact .throw _
  · exact (query _).bind fun _ => (hversion _).bind fun _ =>
      .ite (.throw _) ((store _ _ _).bind fun _ => .ret _)

theorem renderMaster (e : Env) (info : GeneralInfo) : (CppBlog.renderMaster e info).Every P := by
  have hquery : querySidebar.Every P :=
    (query _).bind fun _ => (addTriggers _).bind fun _ => (query _).bind fun _ =>
      (addTriggers _).bind fun _ => (addTriggers _).bind fun _ => .ret _
  have hload : loadSidebar.Every P := by
    refine (fetch "sidebar_info").bind fun r => ?_
    split
    · exact .ret _
    · exact .throw _
    · exact (record hquery).bind fun _ => (store _ _ _).bind fun _ => .ret _
  have hsidebar : (renderSidebar e info).Every P := by
    refine (fetch "sidebar").bind fun r => ?_
    split
    · exact .ret _
    · exact .throw _
    · exact (record (hload.bind fun _ => (addTriggers _).bind fun _ => .ret _)).bind fun _ =>
        (getOwn _).bind fun _ => (store _ _ _).bind fun _ => .ret _
  exact hsidebar.bind fun _ => (getOwn _).bind fun _ => .ret _

end Asks

/-! ## The pages of a list -/

/-- The first `n` slices of a list, one after the other. -/
theorem flatMap_slices {α : Type} (l : List α) (size n : Nat) :
    (List.range n).flatMap (fun i => (l.drop (i * size)).take size) = l.take (n * size) := by
  induction n with
  | zero => simp
  | succ n ih =>
    rw [List.range_succ, List.flatMap_append, ih, List.flatMap_singleton, Nat.succ_mul, List.take_add]

theorem limitOffset_nat {α : Type} (l : List α) (size i : Nat) :
    limitOffset size (i * size) l = (l.drop (i * size)).take size := by
  rw [limitOffset, ← Int.natCast_mul, Int.toNat_natCast, Int.toNat_natCast]

namespace Paging

/-- The paging fields of a listing of `n` records with the page that is asked for. -/
def asked (n size page : Int) : Paging :=
  ({ pageRecords := n, pageSize := size, curpage := page } : Paging).calcPages

variable {n size : Int}

theorem asked_pageSize (hsize : 0 < size) (page : Int) : (asked n size page).pageSize = size := by
  unfold asked calcPages
  split
  · rfl
  · exact if_neg (not_le.2 hsize)

/-- The number of pages, and that the last of them begins within the list. -/
theorem asked_pageTotal (hn : 0 < n) (hsize : 0 < size) (page : Int) :
    n ≤ (asked n size page).pageTotal * size ∧ ((asked n size page).pageTotal - 1) * size < n := by
  have htotal : (asked n size page).pageTotal = -(-n / size) := by
    unfold asked calcPages
    rw [if_neg hn.ne', if_neg (not_le.2 hsize)]
  have hmod := Int.emod_nonneg (-n) hsize.ne'
  have hlt := Int.emod_lt_of_pos (-n) hsize
  have hdiv := Int.emod_add_mul_ediv (-n) size
  rw [htotal]
  constructor <;> nlinarith

theorem asked_zero (size page : Int) : (asked 0 size page).pageTotal = 1 ∧ (asked 0 size page).curpage = 0 := by
  unfold asked calcPages
  rw [if_pos rfl]
  exact ⟨rfl, rfl⟩

theorem asked_pageTotal_pos (hn : 0 ≤ n) (hsize : 0 < size) (page : Int) :
    0 < (asked n size page).pageTotal := by
  rcases hn.eq_or_lt with rfl | hpos
  · rw [(asked_zero size page).1]
    exact Int.one_pos
  · have htotal := (asked_pageTotal hpos hsize page).1
    by_contra hle
    nlinarith

/-- The page shown, in terms of the number of pages. -/
theorem asked_curpage_eq (hn : 0 < n) (page : Int) :
    (asked n size page).curpage =
      if page < 0 then 0
      else if (asked n size page).pageTotal ≤ page then (asked n size page).pageTotal - 1 else page := by
  unfold asked calcPages
  rw [if_neg hn.ne']

/-- **The page that is shown exists.** -/
theorem asked_curpage (hn : 0 ≤ n) (hsize : 0 < size) (page : Int) :
    0 ≤ (asked n size page).curpage ∧ (asked n size page).curpage < (asked n size page).pageTotal := by
  have hpos := asked_pageTotal_pos hn hsize page
  rcases hn.eq_or_lt with rfl | hn
  · rw [(asked_zero size page).1, (asked_zero size page).2]
    decide
  · rw [asked_curpage_eq hn]
    split_ifs <;> omega

theorem asked_pageTotal_eq (page page' : Int) :
    (asked n size page).pageTotal = (asked n size page').pageTotal := by
  unfold asked calcPages
  split <;> rfl

/-- A page that exists is shown when it is asked for. -/
theorem asked_curpage_self {page : Int} (hn : 0 ≤ n) (hsize : 0 < size) :
    (asked n size (asked n size page).curpage).curpage = (asked n size page).curpage := by
  obtain ⟨hnonneg, hlt⟩ := asked_curpage hn hsize page
  rcases hn.eq_or_lt with rfl | hn
  · rw [(asked_zero size _).2, (asked_zero size page).2]
  · rw [asked_curpage_eq hn, asked_pageTotal_eq _ page, if_neg (not_lt.2 hnonneg), if_neg (not_le.2 hlt)]

/-- **The slice of the page that is shown begins within the list**, or at its beginning. -/
theorem asked_offset (hn : 0 ≤ n) (hsize : 0 < size) (page : Int) :
    0 ≤ (asked n size page).curpage * size ∧ (asked n size page).curpage * size ≤ n := by
  obtain ⟨hnonneg, hlt⟩ := asked_curpage hn hsize page
  refine ⟨mul_nonneg hnonneg hsize.le, ?_⟩
  rcases hn.eq_or_lt with rfl | hn
  · rw [(asked_zero size page).2, Int.zero_mul]
  · have hlast := (asked_pageTotal hn hsize page).2
    nlinarith

/-- **The slices of the pages are the list.** -/
theorem flatMap_pages {α : Type} (l : List α) (hsize : 0 < size) (page : Int) :
    (List.range (asked l.length size page).pageTotal.toNat).flatMap
      (fun i : Nat => limitOffset (asked l.length size page).pageSize
        ((i : Int) * (asked l.length size page).pageSize) l) = l := by
  obtain ⟨k, rfl⟩ := Int.eq_ofNat_of_zero_le hsize.le
  simp only [asked_pageSize hsize, limitOffset_nat]
  rw [flatMap_slices, List.take_of_length_le]
  have hpos := asked_pageTotal_pos (Int.natCast_nonneg l.length) hsize page
  obtain ⟨m, hm⟩ := Int.eq_ofNat_of_zero_le hpos.le
  rcases Nat.eq_zero_or_pos l.length with hzero | hlength
  · omega
  · have hcover := (asked_pageTotal (Int.natCast_pos.2 hlength) hsize page).1
    rw [hm] at hcover ⊢
    exact_mod_cast hcover

/-- **The number of pages is the ceiling that the division of two doubles gives.** -/
theorem pageTotal_of_roundsTo {y : ℚ} (hn : 0 < n) (hn' : n < 2 ^ 31) (hsize : 0 < size)
    (hsize' : size < 2 ^ 31) (page : Int) (h : Double.RoundsTo (n / size) y) :
    (asked n size page).pageTotal = ⌈y⌉ := by
  have hpos : (0 : ℚ) < size := by exact_mod_cast hsize
  obtain ⟨hcover, hlast⟩ := asked_pageTotal hn hsize page
  rw [Double.ceil_of_roundsTo hn hn' hsize hsize' h, eq_comm, Int.ceil_eq_iff]
  rw [lt_div_iff₀ hpos, div_le_iff₀ hpos]
  exact ⟨by exact_mod_cast hlast, by exact_mod_cast hcover⟩

end Paging

/-! ## The redirect of a listing -/

/-- The operations that leave the redirect alone, and what is cached under a key. -/
def Settled (key : String) : (γ : Type) → Sig γ → Prop
  | _, .own f => ∀ o, (f o).2.response.location = o.response.location
  | _, .cache f => ∀ c, (f c).2.fetch key = c.fetch key
  | _, _ => True

/-- No redirect, and under the key what was there before. -/
def Calmly (key : String) (s s' : St) : Prop :=
  s'.own.response.location = none ∧ s'.cache.fetch key = s.cache.fetch key

/-- The operations that leave the redirect alone. -/
def Unmoved : (γ : Type) → Sig γ → Prop
  | _, .own f => ∀ o, (f o).2.response.location = o.response.location
  | _, _ => True

instance : AllowsPages Unmoved where
  query _ := trivial
  exec _ := trivial
  begin := trivial
  commit := trivial
  rollback := trivial
  cache _ := trivial
  own _ h := h

/-- The operations on the database and on the files. -/
def Elsewhere : (γ : Type) → Sig γ → Prop
  | _, .own _ => False
  | _, .cache _ => False
  | _, _ => True

/-- What they do to the request's data and the cache. -/
theorem outcome_own_cache {γ : Type} {o : Sig γ} {s s' : St} {r : Except Error γ} (ho : Elsewhere γ o)
    (h : Outcome o s r s') : s'.own = s.own ∧ s'.cache = s.cache := by
  cases o with
  | own f => exact ho.elim
  | cache f => exact ho.elim
  | query f => rw [h.1]; exact ⟨rfl, rfl⟩
  | exec f =>
    obtain ⟨-, rfl⟩ | ⟨-, -, -, rfl⟩ | ⟨d, -, -, rfl⟩ := h
    · exact ⟨rfl, rfl⟩
    · exact ⟨rfl, rfl⟩
    · exact ⟨St.put_own s d, St.put_cache s d⟩
  | begin => obtain ⟨-, rfl⟩ | ⟨-, rfl⟩ := h <;> exact ⟨rfl, rfl⟩
  | commit => obtain ⟨-, rfl⟩ | ⟨-, rfl⟩ := h <;> exact ⟨rfl, rfl⟩
  | rollback => rw [h.2]; exact ⟨rfl, rfl⟩
  | files f => rw [h.2]; exact ⟨rfl, rfl⟩

theorem outcome_unmoved {γ : Type} {o : Sig γ} {s s' : St} {r : Except Error γ} (ho : Unmoved γ o)
    (h : Outcome o s r s') : s'.own.response.location = s.own.response.location := by
  cases o with
  | own f => rw [h.2]; exact ho s.own
  | cache f => rw [h.2]; rfl
  | _ => rw [(outcome_own_cache (by trivial) h).1]

theorem outcome_settled {key : String} {γ : Type} {o : Sig γ} {s₀ s s' : St} {r : Except Error γ}
    (ho : Settled key γ o) (h : Outcome o s r s') (hs : Calmly key s₀ s) : Calmly key s₀ s' := by
  cases o with
  | own f => rw [h.2]; exact ⟨(ho s.own).trans hs.1, hs.2⟩
  | cache f => rw [h.2]; exact ⟨hs.1, (ho s.cache).trans hs.2⟩
  | _ =>
    obtain ⟨hown, hcache⟩ := outcome_own_cache (by trivial) h
    rw [Calmly, hown, hcache]
    exact hs

theorem wp_unmoved {α : Type} {p : App α} (hp : p.Every Unmoved) {s : St}
    (hs : s.own.response.location = none) :
    p.wp calls (fun _ s' => s'.own.response.location = none)
      (fun _ s' => s'.own.response.location = none) s :=
  Prog.Every.wp (fun _ (s : St) _ _ ho (hs : s.own.response.location = none) h =>
    (outcome_unmoved ho h).trans hs) hp hs

theorem wp_settled {α : Type} {key : String} {p : App α} (hp : p.Every (Settled key)) {s : St}
    (hs : s.own.response.location = none) :
    p.wp calls (fun _ => Calmly key s) (fun _ => Calmly key s) s :=
  Prog.Every.wp (fun _ _ _ _ ho hs h => outcome_settled ho h hs) hp ⟨hs, rfl⟩

namespace Summary

variable {e : Env} {catId n : Int} {q : String}

theorem countKey_eq (catId : Int) (q : String) : countKey catId q = (CachedObject.catCount catId q).key := rfl

theorem settled_fetch (key key' : String) : (App.fetch key').Every (Settled key) := by
  unfold App.fetch
  refine Prog.Every.bind (.perform fun _ => rfl) fun r => ?_
  split
  · exact .ret _
  · exact Prog.Every.bind (.perform fun _ => rfl) fun _ => .ret _

theorem settled_store {key key' : String} (hne : key ≠ key') (value : Cached)
    (triggers : List String) : (App.store key' value triggers).Every (Settled key) :=
  Prog.Every.bind (.perform fun _ => rfl) fun _ => .perform fun c =>
    TriggerCache.fetch_store_ne c hne value triggers

theorem settled_checkMaxCatId (k : Int) : (checkMaxCatId k).Every (Settled (countKey catId q)) := by
  have hne : countKey catId q ≠ "max_cat_id" := by
    rw [countKey_eq]
    exact fun h => absurd (@CachedObject.key_injective _ .maxCatId h) (by simp)
  unfold checkMaxCatId
  refine .ite ?_ (.ret _)
  refine Prog.Every.bind (settled_fetch _ _) fun r => ?_
  split
  · exact .ite (Prog.Every.bind (.perform fun _ => rfl) fun _ => .ret _) (.ret _)
  · exact .throw _
  · refine Prog.Every.bind (.perform trivial) fun m => ?_
    exact Prog.Every.bind (settled_store hne _ _) fun _ => .ret _

theorem settled_categoryName (k : Int) : (categoryName k).Every (Settled (countKey catId q)) := by
  have hne : countKey catId q ≠ "cat_name_" ++ toString k := by
    rw [countKey_eq]
    exact fun h => absurd (@CachedObject.key_injective _ (.catName k) h) (by simp)
  unfold categoryName
  refine Prog.Every.bind (settled_fetch _ _) fun r => ?_
  split
  · exact .ret _
  · exact .throw _
  · refine Prog.Every.bind (.perform trivial) fun m => ?_
    exact Prog.Every.bind (settled_store hne _ _) fun _ => .ret _

theorem settled_fetchPage (key key' : String) : (App.fetchPage e key').Every (Settled key) := by
  unfold App.fetchPage
  refine Prog.Every.bind (.perform fun _ => rfl) fun r => ?_
  split
  · exact .ret _
  · split
    · exact Prog.Every.bind (.perform fun _ => rfl) fun _ => .ret _
    · exact .throw _

theorem unmoved_showPage (key : String) (catId : Int) (name q : String) (p : Paging) :
    (showPage e key catId name q p).Every Unmoved := by
  unfold showPage
  refine Prog.Every.bind (Asks.query _) fun rows => Prog.Every.bind (Asks.addTriggers _) fun _ =>
    Prog.Every.bind Asks.basicPrepare fun info => ?_
  refine Prog.Every.bind (.ite (.ret _) (Asks.query _)) fun cats => ?_
  exact Prog.Every.bind (Asks.renderMaster _ _) fun master => Prog.Every.bind (Asks.write _) fun _ =>
    Asks.storePage _ _

/-- The number of records is the one that is cached. -/
theorem wp_pageRecords_cached {s : St} {key : String} {countRecords : Db → Int}
    (hs : (s.cache.fetch key).map CacheEntry.value = some (.pageRecords n)) (k : Int) :
    (pageRecords key k countRecords).wp calls
      (fun m s' => m = n ∧ s'.own.response.location = s.own.response.location) (fun _ _ => False) s := by
  obtain ⟨x, hx, hvalue⟩ := Option.map_eq_some_iff.1 hs
  rw [pageRecords, Prog.wp_bind, App.fetch, Prog.wp_bind, wp_cache, hx]
  dsimp only
  rw [Prog.wp_bind, App.addTriggers, wp_modifyOwn, Prog.wp_ret, hvalue]
  exact ⟨rfl, rfl⟩

/-- With the number of records cached, the listing of a page that exists is not redirected. -/
theorem wp_list_served {s : St} {page : Int} (key name : String)
    (hpage : (Paging.asked n 10 page).curpage = page)
    (hcached : (s.cache.fetch (countKey catId q)).map CacheEntry.value = some (.pageRecords n))
    (hs : s.own.response.location = none) :
    (list e key catId page name q).wp calls (fun _ s' => s'.own.response.location = none)
      (fun _ s' => s'.own.response.location = none) s := by
  unfold list
  refine Prog.wp_seq (wp_pageRecords_cached hcached catId) (fun m s' h => ?_) (fun _ _ h => h.elim)
  obtain ⟨rfl, hlocation⟩ := h
  have hcur : ¬({ pageRecords := m, curpage := page } : Paging).calcPages.curpage ≠ page := not_not.2 hpage
  dsimp only
  rw [if_neg hcur]
  exact wp_unmoved (unmoved_showPage _ _ _ _ _) (hlocation.trans hs)

/-- What is cached under the key of a number of records is no negative number. -/
def CountsLaw (key : String) (c : Cache) : Prop :=
  ∀ n, (c.fetch key).map CacheEntry.value = some (.pageRecords n) → 0 ≤ n

/-- A listing is sent to the page that is shown of `n` records, a number that is now cached. -/
def Moved (e : Env) (catId page : Int) (q : String) (s : St) : Prop :=
  ∃ n, 0 ≤ n ∧ (s.cache.fetch (countKey catId q)).map CacheEntry.value = some (.pageRecords n) ∧
    (Paging.asked n 10 page).curpage ≠ page ∧
    s.own.response.location = some (redirectUrl e catId (Paging.asked n 10 page).curpage q)

/-- The number of records is not negative, and cached from then on. -/
theorem wp_pageRecords {s : St} {key : String} {countRecords : Db → Int} (hcount : ∀ d, 0 ≤ countRecords d)
    (hlaw : CountsLaw key s.cache) (hs : s.own.response.location = none) (k : Int) :
    (pageRecords key k countRecords).wp calls
      (fun n s' => 0 ≤ n ∧ (s'.cache.fetch key).map CacheEntry.value = some (.pageRecords n) ∧
        s'.own.response.location = none)
      (fun _ s' => s'.own.response.location = none) s := by
  rw [pageRecords, App.fetch, Prog.bind_assoc, Prog.wp_bind, wp_cache]
  dsimp only
  cases hx : s.cache.fetch key with
  | none =>
    rw [Prog.ret_bind, Prog.wp_bind, wp_query]
    refine ⟨?_, hs⟩
    rw [Prog.wp_bind, App.store, Prog.wp_bind, App.addTriggers, wp_modifyOwn, wp_cache, Prog.wp_ret]
    refine ⟨hcount _, ?_, hs⟩
    show ((TriggerCache.store _ _ _ _).fetch key).map CacheEntry.value = _
    rw [TriggerCache.fetch_store_self]
    rfl
  | some x =>
    dsimp only
    rw [Prog.bind_assoc, Prog.wp_bind, App.addTriggers, wp_modifyOwn, Prog.ret_bind]
    have hvalue : (s.cache.fetch key).map CacheEntry.value = some x.value := by rw [hx]; rfl
    split
    · rename_i n hn
      have hn : x.value = .pageRecords n := Option.some.inj hn
      rw [hn] at hvalue
      exact ⟨hlaw n hvalue, hvalue, hs⟩
    · exact hs
    · rename_i hnone
      exact absurd hnone (by simp)

theorem countRecords_nonneg (e : Env) (catId : Int) (q : String) (d : Db) :
    0 ≤ countRecords e catId q d := by
  unfold countRecords
  split <;> exact Int.natCast_nonneg _

/-- A listing is redirected at most to the page that is shown. -/
theorem wp_list_moved {s : St} {page : Int} (key name : String)
    (hlaw : CountsLaw (countKey catId q) s.cache) (hs : s.own.response.location = none) :
    (list e key catId page name q).wp calls
      (fun _ s' => s'.own.response.location = none ∨ Moved e catId page q s')
      (fun _ s' => s'.own.response.location = none) s := by
  unfold list
  refine Prog.wp_seq (wp_pageRecords (countRecords_nonneg e catId q) hlaw hs catId) (fun n s' h => ?_)
    (fun _ _ h => h)
  obtain ⟨hn, hcached, hlocation⟩ := h
  dsimp only
  by_cases hcur : ({ pageRecords := n, curpage := page } : Paging).calcPages.curpage ≠ page
  · rw [if_pos hcur, App.setRedirectHeader, App.modifyResponse, wp_modifyOwn]
    exact .inr ⟨n, hn, hcached, hcur, rfl⟩
  · rw [if_neg hcur]
    exact Prog.wp_mono (fun _ _ h => .inl h) (fun _ _ h => h) (wp_unmoved (unmoved_showPage _ _ _ _ _) hlocation)

/-- `summary::prepare` up to its listing, given what the listing ends with. -/
theorem wp_prepare {Q : St → Prop} {s : St} {page : Int} (hQ : ∀ s', s'.own.response.location = none → Q s')
    (hs : s.own.response.location = none)
    (hlist : ∀ key name s', Calmly (countKey (max catId 0) (e.req.getValue "q")) s s' →
      (list e key (max catId 0) (max page 0) name (e.req.getValue "q")).wp calls (fun _ => Q)
        (fun _ s' => s'.own.response.location = none) s') :
    (prepare e catId page).wp calls (fun _ => Q) (fun _ s' => s'.own.response.location = none) s := by
  have hclamp (x : Int) : (if x < 0 then 0 else x) = max x 0 := by
    split <;> omega
  have hseq {α : Type} {p : App α} {k : α → App Unit} {s₁ : St}
      (hp : p.Every (Settled (countKey (max catId 0) (e.req.getValue "q"))))
      (h₁ : Calmly (countKey (max catId 0) (e.req.getValue "q")) s s₁)
      (hk : ∀ a s₂, Calmly (countKey (max catId 0) (e.req.getValue "q")) s s₂ →
        (k a).wp calls (fun _ => Q) (fun _ s' => s'.own.response.location = none) s₂) :
      (p.bind k).wp calls (fun _ => Q) (fun _ s' => s'.own.response.location = none) s₁ :=
    Prog.wp_seq (wp_settled hp h₁.1) (fun a s₂ h₂ => hk a s₂ ⟨h₂.1, h₂.2.trans h₁.2⟩) (fun _ _ h => h.1)
  unfold prepare
  rw [hclamp, hclamp]
  refine hseq (settled_checkMaxCatId _) ⟨hs, rfl⟩ fun ok s₁ h₁ => ?_
  split
  · exact hQ s₁ h₁.1
  refine hseq (settled_fetchPage _ _) h₁ fun hit s₂ h₂ => ?_
  split
  · exact hQ s₂ h₂.1
  refine hseq (.perform fun _ => rfl) h₂ fun _ s₃ h₃ => ?_
  split
  · refine hseq (settled_categoryName _) h₃ fun name s₄ h₄ => ?_
    split
    · exact wp_modifyOwn.2 (hQ _ h₄.1)
    · exact hlist _ _ s₄ h₄
  · exact hlist _ _ s₃ h₃

/-- The numbers of records the server caches are counts. -/
theorem reachable_countsLaw {site : Site} {w : World} (hw : Reachable site w) (catId : Int) (q : String) :
    CountsLaw (countKey catId q) w.shared.cache := by
  have hinv := hw.cached (S := fun _ o v _ => ∀ k q n, o = .catCount k q → v = .pageRecords n → 0 ≤ n)
    (J := fun _ => True) trivial (fun _ _ _ _ _ _ => trivial) (fun e d o v ts _ hr k q n ho hv => by
      subst ho
      cases hr with
      | catCount =>
        cases hv
        exact countRecords_nonneg _ _ _ _) (fun _ _ _ _ _ _ _ _ _ _ _ h _ => h)
  intro n hn
  obtain ⟨x, hx, hvalue⟩ := Option.map_eq_some_iff.1 hn
  obtain ⟨hmem, hkey⟩ := TriggerCache.mem_of_fetch hx
  obtain ⟨o, ho, hcount⟩ := hinv.cache x hmem
  obtain rfl := CachedObject.key_injective (ho.symm.trans (hkey.trans (countKey_eq catId q)))
  exact hcount catId q n rfl hvalue

/-- A listing asked for at the page it was sent to. -/
theorem wp_prepare_served (e : Env) (catId page : Int) {s : St} (hn : 0 ≤ n)
    (hcached : (s.cache.fetch (countKey (max catId 0) (e.req.getValue "q"))).map CacheEntry.value =
      some (.pageRecords n)) (hs : s.own.response.location = none) :
    (prepare e (max catId 0) (Paging.asked n 10 page).curpage).wp calls
      (fun _ s' => s'.own.response.location = none) (fun _ s' => s'.own.response.location = none) s := by
  have hpage : max (Paging.asked n 10 page).curpage 0 = (Paging.asked n 10 page).curpage :=
    max_eq_left (Paging.asked_curpage hn (by decide) page).1
  have hcat : max (max catId 0) 0 = max catId 0 := max_eq_left (le_max_right _ _)
  refine wp_prepare (fun _ h => h) hs fun key name s' hcalm => ?_
  rw [hpage, hcat]
  rw [hcat] at hcalm
  exact wp_list_served key name (Paging.asked_curpage_self hn (by decide)) (by rw [hcalm.2, hcached]) hcalm.1

/-- **A listing is served, or sent to a page that is then served**: whatever the cache holds and whichever
    database calls fail, the request for the page it is sent to, with the same search text, is not sent
    on. -/
theorem prepare_redirect {site : Site} {w : World} (hw : Reachable site w) (e : Env) (catId page : Int)
    (l : Local) (hl : l.own.response.location = none) :
    ((prepare e catId page).run handle (w.shared, l)).2.2.own.response.location = none ∨
    ∃ p, p ≠ max page 0 ∧
      ((prepare e catId page).run handle (w.shared, l)).2.2.own.response.location =
        some (redirectUrl e (max catId 0) p (e.req.getValue "q")) ∧
      ∀ (e' : Env) (l' : Local), e'.req.getValue "q" = e.req.getValue "q" →
        l'.own.response.location = none →
        ((prepare e' (max catId 0) p).run handle
          (((prepare e catId page).run handle (w.shared, l)).2.1, l')).2.2.own.response.location = none := by
  have hfirst : (prepare e catId page).wp calls
      (fun _ s' => s'.own.response.location = none ∨ Moved e (max catId 0) (max page 0) (e.req.getValue "q") s')
      (fun _ s' => s'.own.response.location = none) (viewOf (w.shared, l)) := by
    refine wp_prepare (fun _ h => .inl h) hl fun key name s' hcalm => ?_
    have hlaw := reachable_countsLaw hw (max catId 0) (e.req.getValue "q")
    exact wp_list_moved key name (fun n hn => hlaw n (by rw [← hn, hcalm.2]; rfl)) hcalm.1
  have hends := Prog.wp_run handle viewOf (fun o c => outcome_handle o c) hfirst
  generalize (prepare e catId page).run handle (w.shared, l) = r at hends ⊢
  obtain ⟨out, s₁, l₁⟩ := r
  cases out with
  | error err => exact .inl hends
  | ok u =>
    rcases hends with hnone | ⟨n, hn, hcached, hmoved, hlocation⟩
    · exact .inl hnone
    · refine .inr ⟨_, hmoved, hlocation, fun e' l' hq hl' => ?_⟩
      have hsecond := wp_prepare_served e' catId (max page 0) (s := viewOf (s₁, l')) hn (by rw [hq]; exact hcached) hl'
      have hends' := Prog.wp_run handle viewOf (fun o c => outcome_handle o c) hsecond
      revert hends'
      cases ((prepare e' (max catId 0) (Paging.asked n 10 (max page 0)).curpage).run handle (s₁, l')).1 with
      | ok u => exact id
      | error err => exact id

end Summary

end CppBlog
