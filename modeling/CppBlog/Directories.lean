import CppBlog.Store.Walk
import Mathlib.Logic.Function.Iterate

set_option autoImplicit false

/-! # Making the directories of a path

`basic_master::mkdir` looks for the longest part of a path that is there and makes the directories behind it
one after the other. It cuts a path at its last slash; a path without one is not cut, and the empty path is
never there. -/

namespace CppBlog

open Store

/-- `path.substr(0,path.rfind("/"))` -/
def cutName (path : List Char) : List Char :=
  if '/' ∈ path then ((path.reverse.dropWhile (· ≠ '/')).drop 1).reverse else path

/-- `basic_master::mkdir`; `none` when `depth` calls are not enough. -/
def mkdir (d : Disk) : Nat → List Char → Bool → Option (Bool × Disk)
  | 0, _, _ => none
  | depth + 1, path, isfile =>
      if d.access path then some (true, d)
      else
        (mkdir d depth (cutName path) false).bind fun r =>
          if !r.1 then some (false, r.2)
          else if isfile then some (true, r.2)
          else some (r.2.makeDir path)

/-- What a caller of `mkdir` relies on: every part of the path in front of a slash is a directory, and the path
    too when it is not that of a file. -/
def DirsReady (d : Disk) (path : List Char) (isfile : Bool) : Prop :=
  (∀ q t, q ≠ [] → path = q ++ '/' :: t → d.IsDir q) ∧ (isfile = false → d.IsDir path)

/-! ## Cutting a path -/

theorem cutName_append (q : List Char) {w : List Char} (hw : '/' ∉ w) : cutName (q ++ '/' :: w) = q := by
  have hdrop : (q ++ '/' :: w).reverse.dropWhile (· ≠ '/') = '/' :: q.reverse := by
    rw [List.reverse_append, List.reverse_cons, List.append_assoc, List.dropWhile_append_of_pos]
    · rfl
    · intro c hc
      have hne : c ≠ '/' := fun h => hw (h ▸ List.mem_reverse.1 hc)
      simp [hne]
  rw [cutName, if_pos (by simp), hdrop, List.drop_one, List.tail_cons, List.reverse_reverse]

theorem exists_cutName {path : List Char} (h : '/' ∈ path) : ∃ w, path = cutName path ++ '/' :: w ∧ '/' ∉ w := by
  obtain ⟨w, q, hpath, hw⟩ := List.eq_append_cons_of_mem (List.mem_reverse.2 h)
  have hpath' : path = q.reverse ++ '/' :: w.reverse := by
    rw [← List.reverse_reverse path, hpath, List.reverse_append, List.reverse_cons, List.append_assoc]
    rfl
  have hw' : '/' ∉ w.reverse := fun hmem => hw (List.mem_reverse.1 hmem)
  exact ⟨w.reverse, by rw [hpath', cutName_append _ hw'], hw'⟩

/-- A part in front of a slash is what the path is cut to, or in front of a slash of that. -/
theorem cutName_cases (q t : List Char) :
    cutName (q ++ '/' :: t) = q ∨ ∃ t', cutName (q ++ '/' :: t) = q ++ '/' :: t' := by
  by_cases ht : '/' ∈ t
  · obtain ⟨w, heq, hw⟩ := exists_cutName ht
    refine .inr ⟨cutName t, ?_⟩
    have hpath : q ++ '/' :: t = (q ++ '/' :: cutName t) ++ '/' :: w := by
      rw [List.append_assoc, List.cons_append, ← heq]
    rw [hpath, cutName_append _ hw]
  · exact .inl (cutName_append q ht)

/-! ## When the recursion ends -/

variable {d d' : Disk} {path : List Char}

/-- **The recursion ends exactly when something it comes to is there.** -/
theorem mkdir_isSome_iff {isfile : Bool} :
    (∃ depth r, mkdir d depth path isfile = some r) ↔ ∃ k, d.access (cutName^[k] path) = true := by
  constructor
  · rintro ⟨depth, r, hr⟩
    induction depth generalizing path isfile r with
    | zero => exact absurd hr (by simp [mkdir])
    | succ depth ih =>
      rw [mkdir] at hr
      split at hr
      · rename_i hthere
        exact ⟨0, hthere⟩
      · obtain ⟨r', hr', -⟩ := Option.bind_eq_some_iff.1 hr
        obtain ⟨k, hk⟩ := ih r' hr'
        exact ⟨k + 1, hk⟩
  · rintro ⟨k, hk⟩
    induction k generalizing path isfile with
    | zero => exact ⟨1, (true, d), if_pos hk⟩
    | succ k ih =>
      by_cases hthere : d.access path = true
      · exact ⟨1, (true, d), by rw [mkdir, if_pos hthere]⟩
      · obtain ⟨depth, r, hr⟩ := @ih (cutName path) false hk
        refine ⟨depth + 1, ?_⟩
        rw [mkdir, if_neg hthere, hr, Option.bind_some]
        split
        · exact ⟨_, rfl⟩
        split
        · exact ⟨_, rfl⟩
        · exact ⟨_, rfl⟩

/-! ## What it leaves -/

theorem mkdir_keeps {depth : Nat} {isfile : Bool} {r : Bool × Disk} (h : mkdir d depth path isfile = some r) :
    d.Keeps r.2 := by
  induction depth generalizing path isfile r with
  | zero => exact absurd h (by simp [mkdir])
  | succ depth ih =>
    rw [mkdir] at h
    split at h
    · obtain rfl := Option.some.inj h
      exact .refl d
    · obtain ⟨r', hr', hrest⟩ := Option.bind_eq_some_iff.1 h
      have hkeeps : d.Keeps r'.2 := ih hr'
      split at hrest
      · obtain rfl := Option.some.inj hrest
        exact hkeeps
      split at hrest
      · obtain rfl := Option.some.inj hrest
        exact hkeeps
      · obtain rfl := Option.some.inj hrest
        exact hkeeps.trans (Disk.makeDir_keeps _ _)

/-- Where a directory was asked for, one was made, or something was there. -/
theorem mkdir_true {depth : Nat} (h : mkdir d depth path false = some (true, d')) :
    d'.IsDir path ∨ d' = d ∧ d.access path = true := by
  cases depth with
  | zero => exact absurd h (by simp [mkdir])
  | succ depth =>
    rw [mkdir] at h
    split at h
    · rename_i hthere
      obtain ⟨-, rfl⟩ := Prod.mk.inj (Option.some.inj h)
      exact .inr ⟨rfl, hthere⟩
    · obtain ⟨r', -, hrest⟩ := Option.bind_eq_some_iff.1 h
      split at hrest
      · exact absurd (Option.some.inj hrest) (by simp)
      split at hrest
      · rename_i hfile
        exact absurd hfile (by simp)
      · exact .inl (Disk.makeDir_true (Option.some.inj hrest)).1

theorem mkdir_of_access {depth : Nat} {isfile : Bool} (hthere : d.access path = true)
    (h : mkdir d depth path isfile = some (true, d')) : d' = d := by
  cases depth with
  | zero => exact absurd h (by simp [mkdir])
  | succ depth =>
    rw [mkdir, if_pos hthere] at h
    exact (Prod.mk.inj (Option.some.inj h)).2.symm

/-- What is looked for is there with the directories in front of it. -/
theorem ready_of_access {isfile : Bool} (hthere : d.access path = true) (hdir : isfile = false → d.IsDir path) :
    DirsReady d path isfile := by
  refine ⟨fun q t hq hpath => ?_, hdir⟩
  rw [hpath] at hthere
  exact Disk.isDir_of_access hq hthere

theorem mkdir_ready_dir {depth : Nat} (h : mkdir d depth path false = some (true, d')) :
    DirsReady d' path false ↔ ¬d.IsFile path := by
  by_cases hthere : d.access path = true
  · obtain rfl := mkdir_of_access hthere h
    constructor
    · intro hready hfile
      exact hfile.2 (hready.2 rfl)
    · intro hfile
      exact ready_of_access hthere fun _ => not_not.1 fun hdir => hfile ⟨hthere, hdir⟩
  · have hdir : d'.IsDir path := (mkdir_true h).resolve_right fun hkept => hthere hkept.2
    exact iff_of_true (ready_of_access hdir.access fun _ => hdir) fun hfile => hthere hfile.1

theorem mkdir_ready_file {depth : Nat} (h : mkdir d depth path true = some (true, d')) :
    DirsReady d' path true ↔ d.access path = true ∨ ¬d.IsFile (cutName path) := by
  by_cases hthere : d.access path = true
  · obtain rfl := mkdir_of_access hthere h
    exact iff_of_true (ready_of_access hthere fun h => absurd h (by simp)) (.inl hthere)
  rw [or_iff_right hthere]
  cases depth with
  | zero => exact absurd h (by simp [mkdir])
  | succ depth =>
    rw [mkdir, if_neg hthere] at h
    obtain ⟨⟨ok, d''⟩, hcut, hrest⟩ := Option.bind_eq_some_iff.1 h
    cases ok with
    | false => exact absurd (Option.some.inj hrest) (by simp)
    | true =>
      obtain ⟨-, rfl⟩ := Prod.mk.inj (Option.some.inj hrest)
      constructor
      · intro hready hfile
        obtain rfl := mkdir_of_access hfile.1 hcut
        by_cases hslash : '/' ∈ path
        · obtain ⟨w, hpath, -⟩ := exists_cutName hslash
          have hne : cutName path ≠ [] := by
            intro hnil
            rw [hnil] at hfile
            exact absurd hfile.1 (by simp [Disk.access, Disk.look])
          exact hfile.2 (hready.1 _ w hne hpath)
        · have huncut : cutName path = path := if_neg hslash
          exact hthere (huncut ▸ hfile.1)
      · intro hfile
        have hdir : d''.IsDir (cutName path) := by
          rcases mkdir_true hcut with hdir | ⟨rfl, hfound⟩
          · exact hdir
          · exact not_not.1 fun hdir => hfile ⟨hfound, hdir⟩
        refine ⟨fun q t hq hpath => ?_, fun h => absurd h (by simp)⟩
        rw [hpath] at hdir
        rcases cutName_cases q t with heq | ⟨t', heq⟩
        · rwa [heq] at hdir
        · rw [heq] at hdir
          exact Disk.isDir_of_access hq hdir.access

/-- **What `mkdir` leaves where it says that the directories are there.** -/
theorem mkdir_ready_iff {depth : Nat} {isfile : Bool} (h : mkdir d depth path isfile = some (true, d')) :
    DirsReady d' path isfile ↔ (isfile = false → ¬d.IsFile path) ∧
      (isfile = true → d.access path = true ∨ ¬d.IsFile (cutName path)) := by
  cases isfile with
  | false => simpa using mkdir_ready_dir h
  | true => simpa using mkdir_ready_file h

/-- **`mkdir` comes to an end, and leaves the directories where it says that they are there, exactly when it
comes to something that is there, a path that is not meant as a file is not that of one, and a file is not put
below a file.** -/
theorem mkdir_ends_iff (d : Disk) (path : List Char) (isfile : Bool) :
    ((∃ depth r, mkdir d depth path isfile = some r) ∧
      ∀ depth r, mkdir d depth path isfile = some r → d.Keeps r.2 ∧ (r.1 = true → DirsReady r.2 path isfile)) ↔
    (∃ k, d.access (cutName^[k] path) = true) ∧ (isfile = false → ¬d.IsFile path) ∧
      (isfile = true → d.access path = true ∨ ¬d.IsFile (cutName path)) := by
  rw [mkdir_isSome_iff]
  refine and_congr_right fun _ => ⟨fun hall => ⟨?_, ?_⟩, fun hcond depth r hr => ⟨mkdir_keeps hr, fun htrue => ?_⟩⟩
  · intro hdir hfile
    have hmkdir : mkdir d 1 path isfile = some (true, d) := if_pos hfile.1
    exact ((mkdir_ready_iff hmkdir).1 ((hall _ _ hmkdir).2 rfl)).1 hdir hfile
  · rintro rfl
    by_contra hnot
    rw [not_or, not_not] at hnot
    have hmkdir : mkdir d 2 path true = some (true, d) := by
      rw [mkdir, if_neg hnot.1, mkdir, if_pos hnot.2.1]
      rfl
    exact absurd (((mkdir_ready_iff hmkdir).1 ((hall _ _ hmkdir).2 rfl)).2 rfl) (by simp [hnot.1, hnot.2])
  · obtain ⟨ok, d'⟩ := r
    obtain rfl : ok = true := htrue
    exact (mkdir_ready_iff hr).2 hcond

/-- A disk with nothing but its root, which is the working directory. -/
def emptyDisk : Disk where
  entries := fun p => if p = [] then some .dir else none
  cwd := []
  refuses := fun _ => false

/-- On it the recursion for a path from the root comes to the empty path and does not end. -/
theorem not_mkdir_ends : ¬∀ (d : Disk) (path : List Char) (isfile : Bool),
    ∃ depth r, mkdir d depth path isfile = some r := by
  intro h
  obtain ⟨k, hk⟩ := mkdir_isSome_iff.1 (h emptyDisk "/a".toList false)
  have hcut : ∀ k, cutName^[k + 1] "/a".toList = [] := by
    intro k
    induction k with
    | zero => decide
    | succ k ih =>
      rw [Function.iterate_succ_apply', ih]
      rfl
  cases k with
  | zero => exact absurd hk (by decide)
  | succ k =>
    rw [hcut k] at hk
    exact absurd hk (by decide)

end CppBlog
