import CppBlog.Store.Paths
import CppBlog.Requests

set_option autoImplicit false

/-! # The names of uploaded files

Under the directory of the uploads the first two and the next two digits of a hash name directories, and
the rest of it, the size and what follows name the complete file, a part of it, a part that is being
saved, or a rotation. No two of these names are the same. -/

namespace CppBlog

open Effect Store App Text

namespace Upload

/-! ## Characters -/

/-- A digit of `^[0-9a-fA-F]+$`. -/
def isHexDigit (c : Char) : Bool := isDigit c || ('a' ≤ c && c ≤ 'f') || ('A' ≤ c && c ≤ 'F')

/-- A text of hexadecimal digits. -/
def Hex (s : List Char) : Prop := ∀ c ∈ s, isHexDigit c = true

theorem Hex.notMem {s : List Char} (hs : Hex s) {c : Char} (hc : isHexDigit c = false) : c ∉ s :=
  fun h => absurd (hs c h) (by simp [hc])

theorem hex_of_isHex {s : String} (h : isHex s = true) : Hex s.toList := by
  unfold isHex at h
  exact List.all_eq_true.1 (Bool.and_eq_true_iff.1 h).2

theorem isHexDigit_digitChar {d : Nat} (hd : d < 16) : isHexDigit (Nat.digitChar d) = true := by
  revert d
  decide

theorem hex_toDigits (n : Nat) : Hex (Nat.toDigits 16 n) := by
  induction n using Nat.strongRecOn with
  | ind n ih =>
    rw [Nat.toDigits_eq_if (by decide)]
    split
    · rename_i hn
      intro c hc
      rw [List.mem_singleton.1 hc]
      exact isHexDigit_digitChar hn
    · rename_i hn
      intro c hc
      rcases List.mem_append.1 hc with hc | hc
      · exact ih (n / 16) (Nat.div_lt_self (by omega) (by decide)) c hc
      · rw [List.mem_singleton.1 hc]
        exact isHexDigit_digitChar (Nat.mod_lt n (by decide))

/-- Hexadecimal digits spell one number. -/
theorem toDigits_hex_injective {m n : Nat} (h : Nat.toDigits 16 m = Nat.toDigits 16 n) : m = n := by
  have hchar : ∀ a < 16, ∀ b < 16, Nat.digitChar a = Nat.digitChar b → a = b := by decide
  induction m using Nat.strongRecOn generalizing n with
  | ind m ih =>
    have hne (k : Nat) : Nat.toDigits 16 k ≠ [] := Nat.toDigits_ne_nil
    rw [Nat.toDigits_eq_if (by decide), Nat.toDigits_eq_if (n := n) (by decide)] at h
    split at h
    · rename_i hm
      split at h
      · rename_i hn
        exact hchar m hm n hn (List.singleton_inj.1 h)
      · exact absurd (List.append_eq_singleton_iff.1 h.symm) (by simp [hne])
    · rename_i hm
      split at h
      · exact absurd (List.append_eq_singleton_iff.1 h) (by simp [hne])
      · obtain ⟨hdiv, hmod⟩ := List.append_inj' h rfl
        have hquot := ih (m / 16) (Nat.div_lt_self (by omega) (by decide)) hdiv
        have hrem := hchar _ (Nat.mod_lt m (by decide)) _ (Nat.mod_lt n (by decide)) (List.singleton_inj.1 hmod)
        omega

/-! ## Extensions -/

/-- One of the extensions the editor accepts, in letters of any case. -/
def AcceptedExt (ext : List Char) : Prop := ∃ x ∈ extensions, ext.map Char.toLower = '.' :: x.toList

theorem toLower_eq_dot {c : Char} (h : c.toLower = '.') : c = '.' := by
  unfold Char.toLower at h
  split at h
  · rename_i hc
    have hval := congrArg Char.val h
    simp only at hval
    have h' := congrArg UInt32.toNat hval
    have hle := UInt32.le_iff_toNat_le.1 hc.1
    have hge := UInt32.le_iff_toNat_le.1 hc.2
    rw [UInt32.toNat_add] at h'
    simp at h' hle hge
    omega
  · exact h

/-- What stands in no extension. -/
theorem notMem_extension {c : Char} (hc : c.toLower = c) (h : ∀ x ∈ extensions, c ∉ x.toList)
    {y : List Char} {x : String} (hx : x ∈ extensions) (hy : y.map Char.toLower = x.toList) : c ∉ y := by
  intro hmem
  have := List.mem_map_of_mem (f := Char.toLower) hmem
  rw [hc, hy] at this
  exact h x hx this

/-- An accepted extension starts with its only dot and holds neither a slash, a NUL nor a dash. -/
theorem AcceptedExt.eq {ext : List Char} (h : AcceptedExt ext) :
    ∃ y, ext = '.' :: y ∧ '.' ∉ y ∧ '/' ∉ y ∧ '\x00' ∉ y ∧ '-' ∉ y ∧
      y ≠ "part".toList ∧ y ≠ "lock".toList := by
  obtain ⟨x, hx, hmap⟩ := h
  cases ext with
  | nil => exact absurd hmap (by simp)
  | cons d y =>
    rw [List.map_cons] at hmap
    obtain ⟨hd, hy⟩ := List.cons.inj hmap
    refine ⟨y, by rw [toLower_eq_dot hd], notMem_extension (by decide) (by decide) hx hy,
      notMem_extension (by decide) (by decide) hx hy, notMem_extension (by decide) (by decide) hx hy,
      notMem_extension (by decide) (by decide) hx hy, ?_, ?_⟩
    · rintro rfl
      exact absurd (String.toList_inj.1 (hy.symm.trans (by decide : _ = "part".toList)) ▸ hx) (by decide)
    · rintro rfl
      exact absurd (String.toList_inj.1 (hy.symm.trans (by decide : _ = "lock".toList)) ▸ hx) (by decide)

theorem extension_eq {s : String} {pre y : List Char} (hy : '.' ∉ y) (hs : s.toList = pre ++ '.' :: y) :
    CppBlog.extension s = .ret (String.ofList ('.' :: y)) := by
  have hpos : ∀ c ∈ y.reverse, decide (c ≠ '.') = true :=
    fun c hc => decide_eq_true fun h => hy (h ▸ List.mem_reverse.1 hc)
  have htake : s.toList.reverse.takeWhile (· ≠ '.') = y.reverse := by
    rw [hs, List.reverse_append, List.reverse_cons, List.append_assoc,
      List.takeWhile_append_of_pos hpos]
    simp
  rw [CppBlog.extension, if_pos (by rw [hs]; simp), htake, List.reverse_reverse]

/-- An accepted name ends with an accepted extension, -/
theorem acceptedName_split {name : String} (h : acceptedName name = true) :
    '\n' ∉ name.toList ∧ ∃ pre ext, name.toList = pre ++ ext ∧ AcceptedExt ext := by
  unfold acceptedName at h
  obtain ⟨hline, h⟩ := Bool.and_eq_true_iff.1 h
  obtain ⟨x, hx, hsuffix⟩ := List.any_eq_true.1 h
  obtain ⟨pre, hpre⟩ := List.isSuffixOf_iff_suffix.1 hsuffix
  obtain ⟨pre', suf, hname, -, hsuf⟩ := List.map_eq_append_iff.1 hpre.symm
  exact ⟨of_decide_eq_true hline, pre', suf, hname, x, hx, hsuf⟩

/-- which is what stands behind its last dot. -/
theorem extension_of_acceptedName {name : String} (h : acceptedName name = true) :
    ∃ ext, CppBlog.extension name = .ret ext ∧ AcceptedExt ext.toList := by
  obtain ⟨-, pre, ext, hname, hext⟩ := acceptedName_split h
  obtain ⟨y, rfl, hdot, -⟩ := hext.eq
  exact ⟨String.ofList ('.' :: y), extension_eq hdot hname, by rwa [String.toList_ofList]⟩

/-! ## The files of one upload -/

/-- The text of the directory of the uploads. -/
def rootText (s : Settings) : List Char :=
  (Media.trimSlashes s.documentRoot ++ (s.media ++ "/upload")).toList

/-- The directory of the uploads. -/
def root (s : Settings) : Path := resolve (String.ofList (rootText s))

/-- The settings name a directory, not one cut off at a NUL. -/
def Rooted (s : Settings) : Prop := '\x00' ∉ rootText s

/-- Where the files of a hash and a size are: two directories and the beginning of their names. -/
structure Place where
  a : List Char
  b : List Char
  stem : List Char

namespace Place

/-- The path of the file with something behind the beginning of its name. -/
def path (r : Path) (p : Place) (rest : List Char) : Path := r ++ [p.a, p.b, p.stem ++ rest]

/-- Its text. -/
def text (s : Settings) (p : Place) (rest : List Char) : List Char :=
  rootText s ++ '/' :: p.a ++ '/' :: p.b ++ '/' :: (p.stem ++ rest)

end Place

/-- The place of a hash and a size. -/
def place (md5 : String) (size : Nat) : Place where
  a := md5.toList.take 2
  b := (md5.toList.drop 2).take 2
  stem := md5.toList.drop 4 ++ '-' :: Nat.toDigits 16 size

/-- A part. -/
def partRest (i : Nat) : List Char := '-' :: Nat.toDigits 10 i ++ ".part".toList

/-- A part that is being saved. -/
def lockRest (i : Nat) : List Char := partRest i ++ ".lock".toList

/-- A rotation. -/
def rotRest (r : Int) (ext : List Char) : List Char := "-r".toList ++ (toString r).toList ++ ext

theorem substr_eq {s : String} {pos n : Nat} (h : pos ≤ s.length) :
    substr s pos n = .ret (String.ofList ((s.toList.drop pos).take n)) := if_neg (Nat.not_lt.2 h)

/-- The names of the files of an upload, -/
theorem names_eq_ret (e : Env) {md5 : String} (h4 : 4 ≤ md5.length) (ext : String) (size : Nat) :
    ∃ n, names e md5 ext size = .ret n ∧ n.base.toList = (place md5 size).text e.settings [] ∧
      n.path.toList = (place md5 size).text e.settings ext.toList ∧
      ∃ pre, n.url.toList = pre ++ ext.toList := by
  have htake : (md5.toList.drop 4).take md5.length = md5.toList.drop 4 :=
    List.take_of_length_le (by simp [md5.length_toList])
  refine ⟨_, by
    simp only [names, Download.uploadPath, substr_eq (Nat.zero_le md5.length),
      substr_eq (show 2 ≤ md5.length by omega), substr_eq h4, Prog.ret_bind]
    rfl, ?_, ?_, _, String.toList_append⟩
  · simp [place, Place.text, rootText, htake, toHexNumber]
  · simp [place, Place.text, rootText, htake, toHexNumber]

/-- and a hash of less than four digits has none. -/
theorem uploadPath_eq_throw (e : Env) {md5 : String} (h4 : md5.length < 4) (size : Nat) :
    Download.uploadPath e md5 size = .throw .outOfRange := by
  by_cases h2 : 2 ≤ md5.length
  · have h : substr md5 4 md5.length = .throw .outOfRange := if_pos h4
    simp only [Download.uploadPath, substr_eq (Nat.zero_le md5.length), substr_eq h2, h,
      Prog.ret_bind, Prog.throw_bind]
  · have h : substr md5 2 2 = .throw .outOfRange := if_pos (by omega)
    simp only [Download.uploadPath, substr_eq (Nat.zero_le md5.length), h, Prog.ret_bind,
      Prog.throw_bind]

theorem names_eq_throw (e : Env) {md5 : String} (h4 : md5.length < 4) (ext : String) (size : Nat) :
    names e md5 ext size = .throw .outOfRange := by
  rw [names, uploadPath_eq_throw e h4 size, Prog.throw_bind]

theorem partPath_toList {base : String} {s : Settings} {p : Place} (h : base.toList = p.text s [])
    (i : Nat) : (partPath base i).toList = p.text s (partRest i) := by
  simp [partPath, h, Place.text, partRest]

theorem lockPath_toList {base : String} {s : Settings} {p : Place} (h : base.toList = p.text s [])
    (i : Nat) : (partPath base i ++ ".lock").toList = p.text s (lockRest i) := by
  rw [String.toList_append, partPath_toList h]
  simp [Place.text, lockRest]

/-! ### Their paths -/

/-- A place that a hash and a size really make. -/
structure Place.Valid (p : Place) : Prop where
  a : Hex p.a ∧ p.a.length = 2
  b : Hex p.b ∧ p.b.length = 2
  stem : ∃ c h, Hex c ∧ Hex h ∧ p.stem = c ++ '-' :: h

theorem valid_place {md5 : String} (h : isHex md5 = true) (h4 : 4 ≤ md5.length) (size : Nat) :
    (place md5 size).Valid := by
  have hhex := hex_of_isHex h
  have hlen : md5.toList.length = md5.length := md5.length_toList
  refine ⟨⟨fun c hc => hhex c (List.mem_of_mem_take hc), ?_⟩,
    ⟨fun c hc => hhex c (List.mem_of_mem_drop (List.mem_of_mem_take hc)), ?_⟩,
    md5.toList.drop 4, Nat.toDigits 16 size, fun c hc => hhex c (List.mem_of_mem_drop hc),
    hex_toDigits size, rfl⟩
  · simp only [place, List.length_take]
    omega
  · simp only [place, List.length_take, List.length_drop]
    omega

theorem plain_of_hex {w : List Char} (h : Hex w) (hlen : w.length = 2) : Plain w where
  ne_nil := by rintro rfl; simp at hlen
  ne_dot := by rintro rfl; simp at hlen
  ne_dots := by rintro rfl; exact h.notMem (c := '.') (by decide) (by simp)
  slash := h.notMem (by decide)
  nul := h.notMem (by decide)

/-- What may follow the beginning of a name. -/
def Rest (rest : List Char) : Prop := '/' ∉ rest ∧ '\x00' ∉ rest

theorem Place.Valid.plain {p : Place} (hp : p.Valid) {rest : List Char} (hrest : Rest rest) :
    Plain (p.stem ++ rest) := by
  obtain ⟨c, h, hc, hh, hstem⟩ := hp.stem
  have hdash : '-' ∈ p.stem ++ rest := by simp [hstem]
  refine ⟨List.ne_nil_of_mem hdash, ?_, ?_, ?_, ?_⟩
  · intro heq
    rw [heq] at hdash
    exact absurd hdash (by decide)
  · intro heq
    rw [heq] at hdash
    exact absurd hdash (by decide)
  · simp [hstem, hc.notMem (c := '/') (by decide), hh.notMem (c := '/') (by decide), hrest.1]
  · simp [hstem, hc.notMem (c := '\x00') (by decide), hh.notMem (c := '\x00') (by decide), hrest.2]

section
variable {s : Settings} {p : Place} {rest : List Char}

/-- The directories on the way to a file, as `basic_master::mkdir` spells them. -/
theorem resolve_first (hs : Rooted s) (hp : p.Valid) :
    resolve (String.ofList (rootText s ++ '/' :: p.a)) = root s ++ [p.a] := by
  have hne : (String.ofList (rootText s)).toList ≠ [] := by simp [rootText]
  refine resolve_snoc hne ?_ (plain_of_hex hp.a.1 hp.a.2) ?_
  · rwa [String.toList_ofList]
  · rw [String.toList_ofList, String.toList_ofList]

theorem resolve_second (hs : Rooted s) (hp : p.Valid) :
    resolve (String.ofList (rootText s ++ '/' :: p.a ++ '/' :: p.b)) = root s ++ [p.a, p.b] := by
  have hne : (String.ofList (rootText s ++ '/' :: p.a)).toList ≠ [] := by simp
  rw [resolve_snoc hne ?_ (plain_of_hex hp.b.1 hp.b.2) ?_, resolve_first hs hp, List.append_assoc]
  · rfl
  · simp [hp.a.1.notMem (c := '\x00') (by decide), show '\x00' ∉ rootText s from hs]
  · rw [String.toList_ofList, String.toList_ofList]

theorem resolve_text (hs : Rooted s) (hp : p.Valid) (hrest : Rest rest) {t : String}
    (ht : t.toList = p.text s rest) : resolve t = p.path (root s) rest := by
  have hne : (String.ofList (rootText s ++ '/' :: p.a ++ '/' :: p.b)).toList ≠ [] := by simp
  rw [resolve_snoc (s := String.ofList (rootText s ++ '/' :: p.a ++ '/' :: p.b)) hne ?_ (hp.plain hrest) ?_,
    resolve_second hs hp, List.append_assoc]
  · rfl
  · simp [hp.a.1.notMem (c := '\x00') (by decide), hp.b.1.notMem (c := '\x00') (by decide),
      show '\x00' ∉ rootText s from hs]
  · rw [ht, String.toList_ofList]
    rfl

end

/-! ### Which names differ -/

theorem AcceptedExt.rest {ext : List Char} (h : AcceptedExt ext) : Rest ext := by
  obtain ⟨y, rfl, -, hslash, hnul, -, -, -⟩ := h.eq
  exact ⟨by simp [hslash], by simp [hnul]⟩

theorem notMem_toDigits {c : Char} (hc : isDigit c = false) (n : Nat) : c ∉ Nat.toDigits 10 n :=
  fun h => absurd (isDigit_of_mem_toDigits h) (by simp [hc])

theorem rest_part (i : Nat) : Rest (partRest i) := by
  constructor
  · simp [partRest, notMem_toDigits (c := '/') (by decide) i]
  · simp [partRest, notMem_toDigits (c := '\x00') (by decide) i]

theorem rest_lock (i : Nat) : Rest (lockRest i) := by
  constructor <;> simp [lockRest, (rest_part i).1, (rest_part i).2]

theorem rest_rot (r : Int) {ext : List Char} (h : AcceptedExt ext) : Rest (rotRest r ext) := by
  have hr (c : Char) (hc : isDigit c = false) (hminus : c ≠ '-') : c ∉ (toString r).toList := by
    intro hmem
    rcases mem_toString_int hmem with h | h
    · exact absurd h (by simp [hc])
    · exact hminus h
  constructor
  · have hslash : '/' ∉ r.repr.toList := hr '/' (by decide) (by decide)
    simp [rotRest, h.rest.1, hslash]
  · have hnul : '\x00' ∉ r.repr.toList := hr '\x00' (by decide) (by decide)
    simp [rotRest, h.rest.2, hnul]

/-- What stands behind the last dot. -/
theorem last_dot_inj {s s' y y' : List Char} (hy : '.' ∉ y) (hy' : '.' ∉ y')
    (h : s ++ '.' :: y = s' ++ '.' :: y') : y = y' := by
  have htake (s y : List Char) (hy : '.' ∉ y) : ((s ++ '.' :: y).reverse.takeWhile (· ≠ '.')) = y.reverse := by
    have hpos : ∀ c ∈ y.reverse, decide (c ≠ '.') = true :=
      fun c hc => decide_eq_true fun h => hy (h ▸ List.mem_reverse.1 hc)
    rw [List.reverse_append, List.reverse_cons, List.append_assoc, List.takeWhile_append_of_pos hpos]
    simp
  have h' := congrArg (fun s => s.reverse.takeWhile (· ≠ '.')) h
  simp only [htake s y hy, htake s' y' hy'] at h'
  exact List.reverse_inj.1 h'

theorem AcceptedExt.ne_part {ext : List Char} (h : AcceptedExt ext) (s s' : List Char) (i : Nat) :
    s ++ ext ≠ s' ++ partRest i := by
  obtain ⟨y, rfl, hdot, -, -, -, hpart, -⟩ := h.eq
  intro heq
  have heq : s ++ '.' :: y = (s' ++ '-' :: Nat.toDigits 10 i) ++ '.' :: "part".toList := by
    simpa [partRest] using heq
  exact hpart (last_dot_inj hdot (by decide) heq)

theorem AcceptedExt.ne_lock {ext : List Char} (h : AcceptedExt ext) (s s' : List Char) (i : Nat) :
    s ++ ext ≠ s' ++ lockRest i := by
  obtain ⟨y, rfl, hdot, -, -, -, -, hlock⟩ := h.eq
  intro heq
  have heq : s ++ '.' :: y = (s' ++ partRest i) ++ '.' :: "lock".toList := by
    simpa [lockRest] using heq
  exact hlock (last_dot_inj hdot (by decide) heq)

theorem part_ne_lock (s s' : List Char) (i j : Nat) : s ++ partRest i ≠ s' ++ lockRest j := by
  intro heq
  have heq : (s ++ '-' :: Nat.toDigits 10 i) ++ '.' :: "part".toList =
      (s' ++ partRest j) ++ '.' :: "lock".toList := by simpa [partRest, lockRest] using heq
  exact absurd (last_dot_inj (by decide) (by decide) heq) (by decide)

theorem partRest_injective {i j : Nat} (h : partRest i = partRest j) : i = j := by
  have hdot : NoDigit ".part".toList := by simp [NoDigit, isDigit]
  exact (toDigits_append_inj hdot hdot (List.cons.inj h).2).1

/-- A name of the final form. -/
def FinalName (w : List Char) : Prop :=
  ∃ c h ext, Hex c ∧ Hex h ∧ AcceptedExt ext ∧ w = c ++ '-' :: h ++ ext

theorem not_finalName_part (s : List Char) (i : Nat) : ¬FinalName (s ++ partRest i) := by
  rintro ⟨c, h, ext, -, -, hext, heq⟩
  exact hext.ne_part _ _ i heq.symm

theorem not_finalName_lock (s : List Char) (i : Nat) : ¬FinalName (s ++ lockRest i) := by
  rintro ⟨c, h, ext, -, -, hext, heq⟩
  exact hext.ne_lock _ _ i heq.symm

/-- A name of the final form holds one dash, that of a rotation at least two. -/
theorem not_finalName_rot {p : Place} (hp : p.Valid) (r : Int) (ext : List Char) :
    ¬FinalName (p.stem ++ rotRest r ext) := by
  rintro ⟨c, h, ext', hc, hh, hext, heq⟩
  obtain ⟨c₀, h₀, -, -, hstem⟩ := hp.stem
  obtain ⟨y, rfl, -, -, -, hdash, -, -⟩ := hext.eq
  have hcount := congrArg (List.count '-') heq
  have hzero {w : List Char} (hw : '-' ∉ w) : List.count '-' w = 0 := List.count_eq_zero_of_not_mem hw
  rw [hstem] at hcount
  simp [rotRest, hzero (hc.notMem (c := '-') (by decide)), hzero (hh.notMem (c := '-') (by decide)),
    hzero hdash] at hcount
  omega

theorem Place.path_inj {r : Path} {p q : Place} {rest rest' : List Char}
    (h : p.path r rest = q.path r rest') : p.a = q.a ∧ p.b = q.b ∧ p.stem ++ rest = q.stem ++ rest' := by
  have h := List.append_cancel_left h
  simp only [List.cons.injEq, and_true] at h
  exact h

end Upload

end CppBlog
