import CppBlog.Store.FileSystem

set_option autoImplicit false

/-! # Calls on the file system, entry by entry

What each call leaves under a path, and what a path resolves to when a plain component is put behind
it. -/

namespace Store

/-! ## Resolving -/

/-- A component that stands for itself: it is not empty, `.` or `..`, and holds neither a slash nor a
    NUL. -/
structure Plain (w : List Char) : Prop where
  ne_nil : w ≠ []
  ne_dot : w ≠ ['.']
  ne_dots : w ≠ ['.', '.']
  slash : '/' ∉ w
  nul : '\x00' ∉ w

theorem splitSlash_of_notMem {w : List Char} (h : '/' ∉ w) : splitSlash w = [w] := by
  induction w with
  | nil => rfl
  | cons c w ih =>
      rw [List.mem_cons, not_or] at h
      rw [splitSlash, if_neg (Ne.symm h.1), ih h.2]

theorem splitSlash_ne_nil (s : List Char) : splitSlash s ≠ [] := by
  cases s with
  | nil => simp [splitSlash]
  | cons c s =>
      rw [splitSlash]
      split
      · simp
      · split <;> simp

theorem splitSlash_append {w : List Char} (h : '/' ∉ w) (s : List Char) :
    splitSlash (s ++ '/' :: w) = splitSlash s ++ [w] := by
  induction s with
  | nil => simp [splitSlash, splitSlash_of_notMem h]
  | cons c s ih =>
      rw [List.cons_append, splitSlash, splitSlash, ih]
      split
      · rfl
      · cases hs : splitSlash s with
        | nil => exact absurd hs (splitSlash_ne_nil s)
        | cons v vs => rfl

theorem takeWhile_ne_eq_self {c : Char} {s : List Char} (h : c ∉ s) : s.takeWhile (· ≠ c) = s := by
  have hall : ∀ x ∈ s, decide (x ≠ c) = true := fun x hx => by
    simpa using fun hxc : x = c => h (hxc ▸ hx)
  simpa using @List.takeWhile_append_of_pos _ _ _ [] hall

/-- **A plain component behind a path is one more component of what it resolves to.** -/
theorem resolve_snoc {s t : String} {w : List Char} (hs : s.toList ≠ []) (hnul : '\x00' ∉ s.toList)
    (hw : Plain w) (ht : t.toList = s.toList ++ '/' :: w) : resolve t = resolve s ++ [w] := by
  have hnul' : '\x00' ∉ s.toList ++ '/' :: w := by
    simp only [List.mem_append, List.mem_cons, not_or]
    exact ⟨hnul, by decide, hw.nul⟩
  have hhead : (s.toList ++ '/' :: w).head? = s.toList.head? := by
    obtain ⟨c, l, hc⟩ := List.exists_cons_of_ne_nil hs
    rw [hc]
    rfl
  have hpush (done : Path) : pushComponent done w = w :: done := by
    unfold pushComponent
    rw [if_neg (by simp [hw.ne_nil, hw.ne_dot]), if_neg hw.ne_dots]
  simp only [resolve, ht, takeWhile_ne_eq_self hnul', takeWhile_ne_eq_self hnul, hhead,
    splitSlash_append hw.slash, List.foldl_append, List.foldl_cons, List.foldl_nil, hpush,
    List.reverse_cons]

/-! ## What a call leaves -/

namespace Files

theorem find_cons (p q : Path) (n : Node) (fs : Files) :
    find ((p, n) :: fs) q = if q = p then some n else fs.find q := by
  by_cases h : q = p
  · simp [find, h]
  · simp [find, h, Ne.symm h]

theorem find_remove (fs : Files) (p q : Path) :
    (fs.remove p).find q = if q = p then none else fs.find q := by
  induction fs with
  | nil => simp [remove, find]
  | cons x fs ih =>
      obtain ⟨r, n⟩ := x
      have hcons : remove ((r, n) :: fs) p = if r = p then remove fs p else (r, n) :: remove fs p := by
        by_cases h : r = p <;> simp [remove, h]
      rw [hcons, find_cons]
      split
      · rename_i hr
        rw [ih, hr]
        split <;> rfl
      · rename_i hr
        rw [find_cons, ih]
        by_cases hq : q = r
        · rw [if_pos hq, if_pos hq, if_neg (hq ▸ hr)]
        · rw [if_neg hq, if_neg hq]

theorem find_put (fs : Files) (p q : Path) (n : Node) :
    (fs.put p n).find q = if q = p then some n else fs.find q := by
  rw [put, find_cons, find_remove]
  split <;> rfl

theorem read_of_find {fs : Files} {t : String} {content : List UInt8} (mtime : Nat)
    (h : fs.find (resolve t) = some (.file content mtime)) : fs.read t = some content := by
  rw [read, h]

theorem find_of_read {fs : Files} {t : String} {content : List UInt8} (h : fs.read t = some content) :
    ∃ mtime, fs.find (resolve t) = some (.file content mtime) := by
  unfold read at h
  split at h
  · rename_i c mtime hfind
    exact ⟨mtime, Option.some.inj h ▸ hfind⟩
  · exact absurd h (by simp)

/-- The directory of a path that can be created is there. -/
theorem hasParent_snoc {fs : Files} {p : Path} {w : List Char} (h : fs.find p = some .dir) :
    fs.hasParent (p ++ [w]) = true := by
  simp [hasParent, h]

theorem find_mkdir {fs : Files} {t : String} {p : Path} {w : List Char} (ht : resolve t = p ++ [w])
    (hparent : fs.find p = some .dir) (hnone : fs.find (p ++ [w]) = none) :
    fs.mkdir t = (true, fs.put (p ++ [w]) .dir) := by
  rw [mkdir, pathExists, ht, hnone, hasParent_snoc hparent]
  rfl

theorem create_eq {fs : Files} {t : String} {p : Path} {w : List Char} (ht : resolve t = p ++ [w])
    (hparent : fs.find p = some .dir) (hdir : fs.find (p ++ [w]) ≠ some .dir) (content : List UInt8)
    (now : Nat) : fs.create t content now = (true, fs.put (p ++ [w]) (.file content now)) := by
  rw [create, ht, hasParent_snoc hparent]
  simp [hdir]

theorem writeAt_end {fs : Files} {t : String} {done : List UInt8} {mtime : Nat}
    (h : fs.find (resolve t) = some (.file done mtime)) (bytes : List UInt8) (now : Nat) :
    fs.writeAt t done.length bytes now = fs.put (resolve t) (.file (done ++ bytes) now) := by
  have hrest : done.drop (done.length + bytes.length) = [] := List.drop_eq_nil_of_le (by omega)
  rw [writeAt, read_of_find _ h]
  simp [hrest]

theorem find_unlink {fs : Files} {t : String} {content : List UInt8} {mtime : Nat}
    (h : fs.find (resolve t) = some (.file content mtime)) (q : Path) :
    (fs.unlink t).find q = if q = resolve t then none else fs.find q := by
  rw [unlink, h]
  exact find_remove _ _ _

theorem find_rename {fs : Files} {src dst : String} {n : Node} (h : fs.find (resolve src) = some n)
    (q : Path) :
    (fs.rename src dst).find q =
      if q = resolve dst then some n else if q = resolve src then none else fs.find q := by
  rw [rename, h]
  simp only [find_put, find_remove]

end Files

end Store
