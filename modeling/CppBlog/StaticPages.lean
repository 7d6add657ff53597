import CppBlog.CachedRuns
import CppBlog.Mirror

set_option autoImplicit false

/-! # Cached static pages

The editor of a static page rises the page's triggers only where its old or its new status is open. That
is enough, because a closed page is never cached: a cached page exists, is open, and shows the title and
the content of its row. -/

namespace CppBlog

open Effect Store App

/-- The status of a page is 0 or 1. -/
def PageStatus (d : Db) : Prop := ∀ p ∈ d.pages.rows, p.isOpen = 0 ∨ p.isOpen = 1

theorem PageStatus.step {e : Env} {d d' : Db} {ts : List String} (h : PageStatus d)
    (hstep : Invalidates e d ts d') : PageStatus d' := by
  intro p hp
  cases hstep.pages with
  | same hpages =>
    rw [hpages] at hp
    exact h p hp
  | create hd _ =>
    obtain ⟨t, ht, rfl⟩ := Option.map_eq_some_iff.1 (Db.orRefuse_eq_ok.1 hd)
    rw [(AutoTable.insert?_eq_some ht).2.1] at hp
    rcases List.mem_append.1 hp with hp | hp
    · exact h p hp
    · rw [List.mem_singleton.1 hp]
      exact openStatus_cases _ _
  | save _ hd _ =>
    subst hd
    obtain ⟨p', hp', rfl⟩ := AutoTable.mem_update_rows.1 hp
    split
    · exact openStatus_cases _ _
    · exact h p' hp'
  | remove _ hd _ =>
    subst hd
    exact h p (AutoTable.mem_delete_rows.1 hp).1

/-- What is said of a cached static page: its row is there and open, and is what it shows. -/
def PageShown (d : Db) (n : Int) (v : Cached) (ts : List String) : Prop :=
  pageIdKey n ∈ ts ∧ ∃ p master, d.selectPage n = some p ∧ p.isOpen = 1 ∧
    v = .page [.blogPage master n (escape p.title) p.content]

/-- The family of the static pages that are asked for by their canonical numbers. -/
def pageFamily : Family
  | d, .page _ (.page id), v, ts =>
      ∀ n : Int, 0 ≤ n → n ≤ maxId → id.text = toString n → PageShown d n v ts
  | _, _, _, _ => True

/-- A page that is open is cached as it is. -/
theorem pageFamily_renders {e : Env} {l : Nat} {d : Db} (h : PageStatus d) {o : CachedObject} {v : Cached}
    {ts : List String} (ho : Renders e l pageFamily d o v ts) : pageFamily d o v ts := by
  cases ho with
  | page hshows hkey =>
    cases hshows with
    | page hroute hpage hopen _ _ =>
      intro n hn hmax hid
      rw [hid, Text.atoi_toString hn hmax] at hpage
      rw [hid, Text.atoi_toString hn hmax]
      have hmem := ((Table.find?_eq_some _ _ _).1 hpage).1
      refine ⟨?_, _, _, hpage, (h _ hmem).resolve_left hopen, rfl⟩
      rw [CachedPage.key, hid] at hkey
      exact hkey
    | _ => trivial
  | _ => trivial

/-- A step that changes a page that is open rises its trigger. -/
theorem PageShown.step {e : Env} {d d' : Db} {us : List String} {n : Int} {v : Cached} {ts : List String}
    (h : PageShown d n v ts) (hstep : Invalidates e d us d') (hus : ∀ t ∈ us, t ∉ ts) :
    PageShown d' n v ts := by
  obtain ⟨hkey, p, master, hpage, hopen, rfl⟩ := h
  have hsame (hpage' : d'.selectPage n = some p) :
      PageShown d' n (.page [.blogPage master n (escape p.title) p.content]) ts :=
    ⟨hkey, p, master, hpage', hopen, rfl⟩
  have hvisible (c : Bool) (hc : us = pageTriggers c n) : c = false := by
    cases c with
    | false => rfl
    | true => exact absurd hkey (hus (pageIdKey n) (hc ▸ List.mem_cons_self))
  cases hstep.pages with
  | same hpages => exact hsame (by rw [Db.selectPage, hpages]; exact hpage)
  | create hd _ =>
    obtain ⟨t, ht, rfl⟩ := Option.map_eq_some_iff.1 (Db.orRefuse_eq_ok.1 hd)
    exact hsame (AutoTable.find?_insert_of_some ht hpage)
  | save hp hd hts =>
    rename_i id p' title content changeStatus
    subst hd
    by_cases hid : n = id
    · subst hid
      obtain rfl := Option.some.inj (hpage.symm.trans hp)
      -- an open page stays open or changes its status
      have hfalse := hvisible _ hts
      cases changeStatus <;> simp [AdminPost.openStatus, hopen] at hfalse
    · exact hsame ((AutoTable.find?_update_ne hid).trans hpage)
  | remove hp hd hts =>
    rename_i id p'
    subst hd
    by_cases hid : n = id
    · subst hid
      obtain rfl := Option.some.inj (hpage.symm.trans hp)
      have hfalse := hvisible _ hts
      simp [hopen] at hfalse
    · exact hsame ((AutoTable.find?_delete_ne hid).trans hpage)

theorem pageFamily_survives (e : Env) (d : Db) (c : Cache) : Survives pageFamily e d c := by
  intro us d' hstep x _ o _ hS hus
  cases o with
  | page g view =>
    cases view with
    | page id => exact fun n hn hmax hid => (hS n hn hmax hid).step hstep hus
    | _ => trivial
  | _ => trivial

/-- **A cached static page is current**: in every run, an entry of the page cache for the canonical
    number of a page shows the title and the content of the row, which is there and open. -/
theorem cached_page_current {site : Site} {w : World} (hw : Reachable site w) (g : Bool) {n : Int}
    (hn : 0 ≤ n) (hmax : n ≤ maxId) {x : CacheEntry Cached} (hx : x ∈ w.shared.cache)
    (hkey : x.key = pagePrefix g ++ "page_" ++ toString n) :
    ∃ p master, w.shared.db.selectPage n = some p ∧ p.isOpen = 1 ∧
      x.value = .page [.blogPage master n (escape p.title) p.content] := by
  have hinv : Cached.Inv pageFamily PageStatus w :=
    hw.cached (fun _ hp => absurd hp List.not_mem_nil) (fun _ _ _ _ h hstep => h.step hstep)
      (fun _ _ _ _ _ h ho => pageFamily_renders h ho) fun e d c _ => pageFamily_survives e d c
  obtain ⟨o, ho, hS⟩ := hinv.cache x hx
  have hpage : o = .page g (.page (.canonical n hn)) := by
    apply CachedObject.key_injective
    rw [← ho, hkey, String.append_assoc]
    rfl
  subst hpage
  obtain ⟨-, p, master, hpage, hopen, hvalue⟩ := hS n hn hmax rfl
  exact ⟨p, master, hpage, hopen, hvalue⟩

/-- A visitor has asked for the first page, which was just published. -/
def pageEvents : List Event :=
  [.request (.configure "b" "bob"), .request (.login "b" "bob"),
   .request (.post "b" "/admin/page" [("_1", "T"), ("_2", "C"), ("_5", "")]),
   .request (.get "v" "/page/1")]

theorem cached_page_current_first :
    (∃ x ∈ (run .sample pageEvents (World.fresh [])).shared.cache, x.key = "_U:page_1") ∧
      ∀ x ∈ (run .sample pageEvents (World.fresh [])).shared.cache, x.key = "_U:page_1" →
        ∃ p master, (run .sample pageEvents (World.fresh [])).shared.db.selectPage 1 = some p ∧
          p.isOpen = 1 ∧ x.value = .page [.blogPage master 1 (escape p.title) p.content] := by
  have hw : Reachable .sample (run .sample pageEvents (World.fresh [])) := ⟨[], pageEvents, rfl⟩
  refine ⟨by decide, fun x hx hkey => ?_⟩
  exact cached_page_current hw false (n := 1) (by decide) (by decide) hx hkey

end CppBlog
