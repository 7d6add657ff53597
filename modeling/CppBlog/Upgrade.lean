import CppBlog.Reads

set_option autoImplicit false

/-! # The upgrade of an older database

`upgrade` on any stored version and any tables: which way each of its exits leaves them. -/

namespace CppBlog

open Effect Store App

/-- The tables `d'` are those `upgrade_2_3` makes of `d`. -/
structure Db.Upgraded23 (d d' : Db) : Prop where
  /-- Every row of `post2cat` has its post, and takes over its `is_open`. -/
  post2cat : List.Forall₂
    (fun r r' => ∃ p, d.posts.find? r.postId = some p ∧ r' = { r with isOpen := p.isOpen })
    d.post2cat.rows d'.post2cat.rows
  /-- The stored version is 3. -/
  dbversion : d'.option "dbversion" = (d.option "dbversion").map fun _ => "3"
  /-- The other options stay. -/
  textOptions : d'.textOptions.rows =
    d.textOptions.rows.map (fun r => if r.id = "dbversion" then { r with value := "3" } else r)
  users : d'.users = d.users
  posts : d'.posts = d.posts
  comments : d'.comments = d.comments
  cats : d'.cats = d.cats
  pages : d'.pages = d.pages

/-- How `upgrade` ends on the version `v` and the tables `d`, with the tables it leaves. -/
inductive UpgradeEnds (v : String) (d : Db) : Except Error Bool → Db → Prop where
  | refused : Text.atoi v < 2 ∨ 3 < Text.atoi v → UpgradeEnds v d (.ok false) d
  | failed (err : SqlError) : UpgradeEnds v d (.error (.sql err)) d
  | final : Text.atoi v = 3 → UpgradeEnds v d (.ok true) d
  | upgraded {d' : Db} : Text.atoi v = 2 → d.Upgraded23 d' → UpgradeEnds v d (.ok true) d'

/-- The row of `post2cat` behind the mirror of its post. -/
theorem forall₂_mirrored {d m : Db} (h : d.updatePost2CatFromPosts = .ok m) :
    List.Forall₂ (fun r r' => ∃ p, d.posts.find? r.postId = some p ∧ r' = { r with isOpen := p.isOpen })
      d.post2cat.rows m.post2cat.rows := by
  unfold Db.updatePost2CatFromPosts at h
  split at h
  · rename_i hall
    cases h
    show List.Forall₂ _ d.post2cat.rows (d.post2cat.rows.map fun r =>
      if true then { r with isOpen := ((d.posts.find? r.postId).map Post.isOpen).getD 0 } else r)
    rw [List.forall₂_map_right_iff, List.forall₂_same]
    intro r hr
    obtain ⟨p, hp⟩ := Option.isSome_iff_exists.1 (List.all_eq_true.1 hall r hr)
    exact ⟨p, hp, by simp [hp]⟩
  · exact absurd h (by simp)

theorem updateDbversion_rows (d : Db) : d.updateDbversion.textOptions.rows =
    d.textOptions.rows.map (fun r => if r.id = "dbversion" then { r with value := "3" } else r) := by
  show d.textOptions.rows.map (fun r => if decide (r.id = "dbversion") then { r with value := "3" } else r) = _
  simp only [decide_eq_true_eq]

theorem updateDbversion_option (d : Db) :
    d.updateDbversion.option "dbversion" = (d.option "dbversion").map fun _ => "3" := by
  have hid : (fun r : TextOption => decide (r.id = "dbversion")) ∘
      (fun r => if r.id = "dbversion" then { r with value := "3" } else r) =
      fun r => decide (r.id = "dbversion") := by
    funext r
    by_cases h : r.id = "dbversion" <;> simp [h]
  rw [Db.option, Db.option, Table.find?, Table.find?, updateDbversion_rows, List.find?_map, hid,
    Option.map_map, Option.map_map]
  refine Option.map_congr fun r hr => ?_
  have hversion : r.id = "dbversion" := by simpa using List.find?_some hr
  simp [hversion]

theorem upgraded23_of_ok {d m : Db} (h : d.updatePost2CatFromPosts = .ok m) :
    d.Upgraded23 m.updateDbversion := by
  have hrows := forall₂_mirrored h
  unfold Db.updatePost2CatFromPosts at h
  split at h
  · cases h
    exact ⟨hrows, updateDbversion_option _, updateDbversion_rows _, rfl, rfl, rfl, rfl, rfl⟩
  · exact absurd h (by simp)

theorem wp_upgrade_ends (v : String) {s : St} (hs : s.tx = none) :
    (upgrade v).wp calls (fun ok s' => s'.tx = none ∧ UpgradeEnds v s.db (.ok ok) s'.db)
      (fun err s' => s'.tx = none ∧ UpgradeEnds v s.db (.error err) s'.db) s := by
  have hfinal : Text.atoi cppblogDbversion = 3 := by decide
  simp only [upgrade, hfinal]
  split_ifs with hgt hlt
  · exact ⟨hs, .refused (.inr hgt)⟩
  · exact ⟨hs, .refused (.inl hlt)⟩
  obtain htwo | hthree : Text.atoi v = 2 ∨ Text.atoi v = 3 := by omega
  · -- one round: the third entry of the table
    rw [htwo, wp_transaction, Prog.wp_bind]
    refine ⟨?_, hs, .failed _⟩
    change (upgrade23.bind fun ok => if ok then upgradeLoop 3 0 else .ret false).wp calls _ _ _
    simp only [upgrade23, Prog.wp_bind, wp_exec, wp_execTotal, Prog.wp_ret, if_true, upgradeLoop, wp_commit]
    refine ⟨fun m hm => ⟨⟨⟨trivial, .upgraded htwo (upgraded23_of_ok hm)⟩, trivial, .failed _⟩, trivial,
      .failed _⟩, fun err _ => ⟨trivial, .failed err⟩, trivial, .failed _⟩
  · -- no round: nothing is written
    rw [hthree, wp_transaction, Prog.wp_bind]
    refine ⟨?_, hs, .failed _⟩
    change (upgradeLoop 3 0).wp calls _ _ _
    simp only [upgradeLoop, Prog.wp_ret, if_true, Prog.wp_bind, wp_commit]
    exact ⟨⟨trivial, .final hthree⟩, trivial, .failed _⟩

/-- **Whatever the stored version and the tables are, and whichever database call fails**: `upgrade`
    never reads past its table of callbacks (it ends with no other exception than one of the database),
    leaves no transaction open, and either leaves the tables as they are or makes a version 2 a version 3. -/
theorem run_upgrade (v : String) (s : Shared) (own : Own) (faults : List Bool) :
    UpgradeEnds v s.db ((upgrade v).run handle (s, { own, faults })).1
        ((upgrade v).run handle (s, { own, faults })).2.1.db ∧
      ((upgrade v).run handle (s, { own, faults })).2.2.tx = none := by
  have hends := Prog.wp_run handle viewOf (fun o c => outcome_handle o c)
    (wp_upgrade_ends v (s := viewOf (s, { own, faults })) rfl)
  revert hends
  cases ((upgrade v).run handle (s, { own, faults })).1 with
  | ok b => exact fun h => ⟨h.2, h.1⟩
  | error err => exact fun h => ⟨h.2, h.1⟩

end CppBlog
