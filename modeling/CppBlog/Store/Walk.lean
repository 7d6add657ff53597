import CppBlog.Store.Slashes

set_option autoImplicit false

/-! # Paths as they are walked

A path is walked name by name from the root or from the working directory, and every name on the way has
to be that of a directory, also one that `..` takes back. A path is a text without a NUL; the empty one
leads nowhere. -/

namespace Store

/-- A file system by the names that lead to each entry from the root. -/
structure Disk where
  entries : Path → Option Node
  /-- the working directory -/
  cwd : Path
  /-- where no directory can be made -/
  refuses : Path → Bool

namespace Disk

/-- Where the names lead to. -/
def walk (d : Disk) : Path → List (List Char) → Option Path
  | at_, [] => some at_
  | at_, w :: ws =>
      if d.entries at_ ≠ some .dir then none
      else if w = [] ∨ w = ['.'] then d.walk at_ ws
      else if w = ['.', '.'] then d.walk at_.dropLast ws
      else if (d.entries (at_ ++ [w])).isSome then d.walk (at_ ++ [w]) ws
      else none

/-- Where an entry under the last of the names would stand; slashes may follow it. -/
def walkLast (d : Disk) : Path → List (List Char) → Option Path
  | _, [] => none
  | at_, w :: ws =>
      if d.entries at_ ≠ some .dir then none
      else if w = [] ∨ w = ['.'] then d.walkLast at_ ws
      else if w = ['.', '.'] then d.walkLast at_.dropLast ws
      else if ws.all (· = []) then some (at_ ++ [w])
      else if (d.entries (at_ ++ [w])).isSome then d.walkLast (at_ ++ [w]) ws
      else none

/-- Where a path starts. -/
def start (d : Disk) (path : List Char) : Path := if path.head? = some '/' then [] else d.cwd

/-- The entry a path leads to. -/
def look (d : Disk) (path : List Char) : Option Node :=
  if path = [] then none else (d.walk (d.start path) (splitSlash path)).bind d.entries

/-- `access(path,F_OK) == 0` -/
def access (d : Disk) (path : List Char) : Bool := (d.look path).isSome

def put (d : Disk) (p : Path) (n : Node) : Disk := { d with entries := fun q => if q = p then some n else d.entries q }

/-- `mkdir(path,mode) == 0` -/
def makeDir (d : Disk) (path : List Char) : Bool × Disk :=
  match d.walkLast (d.start path) (splitSlash path) with
  | none => (false, d)
  | some p => if (d.entries p).isSome || d.refuses p then (false, d) else (true, d.put p .dir)

/-- A directory stands under the path. -/
def IsDir (d : Disk) (path : List Char) : Prop := d.look path = some .dir

/-- Something else does. -/
def IsFile (d : Disk) (path : List Char) : Prop := d.access path = true ∧ ¬d.IsDir path

/-- What was there is there. -/
def Keeps (d d' : Disk) : Prop := ∀ p n, d.entries p = some n → d'.entries p = some n

section
variable {d d' : Disk} {path : List Char}

theorem IsDir.access (h : d.IsDir path) : d.access path = true := by
  rw [Disk.access, h]
  rfl

theorem walk_append (d : Disk) (at_ : Path) (ws vs : List (List Char)) :
    d.walk at_ (ws ++ vs) = (d.walk at_ ws).bind fun p => d.walk p vs := by
  induction ws generalizing at_ with
  | nil => rfl
  | cons w ws ih =>
    rw [List.cons_append, walk, walk]
    split
    · rfl
    split
    · exact ih at_
    split
    · exact ih at_.dropLast
    split
    · exact ih (at_ ++ [w])
    · rfl

/-- **What stands in front of a slash of a path that leads somewhere is a directory.** -/
theorem isDir_of_access {q t : List Char} (hq : q ≠ []) (h : d.access (q ++ '/' :: t) = true) : d.IsDir q := by
  have hstart : d.start (q ++ '/' :: t) = d.start q := by
    rw [start, start, List.head?_append_of_ne_nil _ hq]
  obtain ⟨n, hn⟩ := Option.isSome_iff_exists.1 h
  rw [look, if_neg (by simp), hstart, splitSlash_append_slash, walk_append] at hn
  obtain ⟨p, hp, -⟩ := Option.bind_eq_some_iff.1 hn
  obtain ⟨p', hp', hrest⟩ := Option.bind_eq_some_iff.1 hp
  obtain ⟨w, ws, hws⟩ := List.exists_cons_of_ne_nil (splitSlash_ne_nil t)
  rw [IsDir, look, if_neg hq, hp', Option.bind_some]
  by_contra hdir
  rw [hws, walk, if_pos hdir] at hrest
  exact absurd hrest (by simp)

theorem Keeps.refl (d : Disk) : d.Keeps d := fun _ _ h => h

theorem Keeps.trans {d'' : Disk} (h : d.Keeps d') (h' : d'.Keeps d'') : d.Keeps d'' :=
  fun p n hp => h' p n (h p n hp)

theorem keeps_put {p : Path} (hp : d.entries p = none) (n : Node) : d.Keeps (d.put p n) := by
  intro q m hq
  have hne : q ≠ p := by
    rintro rfl
    rw [hp] at hq
    exact absurd hq (by simp)
  exact (if_neg hne).trans hq

/-- Slashes behind a directory lead nowhere else. -/
theorem walk_slashes {at_ : Path} (hdir : d.entries at_ = some .dir) {ws : List (List Char)}
    (hws : ws.all (· = []) = true) : d.walk at_ ws = some at_ := by
  induction ws with
  | nil => rfl
  | cons w ws ih =>
    rw [List.all_cons, Bool.and_eq_true, decide_eq_true_eq] at hws
    rw [walk, if_neg (not_not.2 hdir), if_pos (.inl hws.1)]
    exact ih hws.2

/-- A directory that is made stands where the path leads. -/
theorem walk_put {p : Path} (hp : d.entries p = none) {at_ : Path} {ws : List (List Char)}
    (h : d.walkLast at_ ws = some p) : (d.put p .dir).walk at_ ws = some p := by
  have hkeeps := keeps_put hp .dir
  have hself : (d.put p .dir).entries p = some .dir := if_pos rfl
  induction ws generalizing at_ with
  | nil => exact absurd h (by simp [walkLast])
  | cons w ws ih =>
    rw [walkLast] at h
    split at h
    · exact absurd h (by simp)
    rename_i hdir
    rw [walk, if_neg (not_not.2 (hkeeps _ _ (not_not.1 hdir)))]
    split at h
    · rename_i hdot
      rw [if_pos hdot]
      exact ih h
    rename_i hdot
    rw [if_neg hdot]
    split at h
    · rename_i hdots
      rw [if_pos hdots]
      exact ih h
    rename_i hdots
    rw [if_neg hdots]
    split at h
    · -- the last of the names
      rename_i hslashes
      obtain rfl := Option.some.inj h
      rw [if_pos (by rw [hself]; rfl)]
      exact walk_slashes hself hslashes
    split at h
    · rename_i hthere
      obtain ⟨n, hn⟩ := Option.isSome_iff_exists.1 hthere
      rw [if_pos (by rw [hkeeps _ _ hn]; rfl)]
      exact ih h
    · exact absurd h (by simp)

/-- **A directory that is made is there, and what was there is.** -/
theorem makeDir_true (h : d.makeDir path = (true, d')) : d'.IsDir path ∧ d.Keeps d' := by
  unfold makeDir at h
  split at h
  · exact absurd h (by simp)
  rename_i p hwalk
  split at h
  · exact absurd h (by simp)
  rename_i hfree
  rw [Bool.or_eq_true, not_or, Bool.not_eq_true, Option.isSome_eq_false_iff, Option.isNone_iff_eq_none] at hfree
  obtain ⟨-, rfl⟩ := Prod.mk.inj h
  refine ⟨?_, keeps_put hfree.1 .dir⟩
  have hne : path ≠ [] := by
    rintro rfl
    simp [splitSlash, walkLast] at hwalk
  rw [IsDir, look, if_neg hne]
  have hstart : (d.put p .dir).start path = d.start path := rfl
  rw [hstart, walk_put hfree.1 hwalk]
  exact if_pos rfl

theorem makeDir_keeps (d : Disk) (path : List Char) : d.Keeps (d.makeDir path).2 := by
  unfold makeDir
  split
  · exact .refl d
  split
  · exact .refl d
  · rename_i hfree
    rw [Bool.or_eq_true, not_or, Bool.not_eq_true, Option.isSome_eq_false_iff, Option.isNone_iff_eq_none] at hfree
    exact keeps_put hfree.1 .dir

end

end Disk

end Store
