import CppBlog.UploadNames

set_option autoImplicit false

/-! # What an upload leaves in the directory

The steps of `upload::prepare` on the files: the directories are made, the part or the file is saved,
the parts are joined, and what is not what its name says is removed. -/

namespace CppBlog

open Effect Store App Text

namespace Upload

/-! ## The directory -/

/-- The directory of the uploads: two levels of directories, and below them no more. -/
structure Tree (r : Path) (fs : Files) : Prop where
  root : fs.find r = some .dir
  first : ∀ a n, fs.find (r ++ [a]) = some n → n = .dir
  second : ∀ a b n, fs.find (r ++ [a, b]) = some n → n = .dir ∧ fs.find (r ++ [a]) = some .dir
  third : ∀ a b x n, fs.find (r ++ [a, b, x]) = some n → n ≠ .dir ∧ fs.find (r ++ [a, b]) = some .dir

theorem append_ne {r : Path} {l l' : Path} (h : l ≠ l') : r ++ l ≠ r ++ l' :=
  fun heq => h (List.append_cancel_left heq)

/-- A change of one file. -/
theorem Tree.changed {r : Path} {fs fs' : Files} (h : Tree r fs) {a b x : List Char}
    (hother : ∀ q, q ≠ r ++ [a, b, x] → fs'.find q = fs.find q)
    (hself : ∀ n, fs'.find (r ++ [a, b, x]) = some n → n ≠ .dir ∧ fs.find (r ++ [a, b]) = some .dir) :
    Tree r fs' := by
  have hroot : fs'.find r = fs.find r :=
    hother r fun heq => absurd (congrArg List.length heq) (by simp)
  have hfirst (c : List Char) : fs'.find (r ++ [c]) = fs.find (r ++ [c]) := hother _ (append_ne (by simp))
  have hsecond (c d : List Char) : fs'.find (r ++ [c, d]) = fs.find (r ++ [c, d]) :=
    hother _ (append_ne (by simp))
  refine ⟨hroot.trans h.root, fun c n hn => h.first c n (hfirst c ▸ hn), fun c d n hn => ?_,
    fun c d y n hn => ?_⟩
  · rw [hfirst]
    exact h.second c d n (hsecond c d ▸ hn)
  · rw [hsecond]
    by_cases heq : r ++ [c, d, y] = r ++ [a, b, x]
    · obtain ⟨rfl, rfl, rfl⟩ : c = a ∧ d = b ∧ y = x := by simpa using List.append_cancel_left heq
      exact hself n hn
    · exact h.third c d y n (hother _ heq ▸ hn)

theorem Tree.putFile {r : Path} {fs : Files} (h : Tree r fs) {a b : List Char} (x : List Char)
    (hdir : fs.find (r ++ [a, b]) = some .dir) (content : List UInt8) (now : Nat) :
    Tree r (fs.put (r ++ [a, b, x]) (.file content now)) := by
  refine h.changed (a := a) (b := b) (x := x) (fun q hq => by rw [Files.find_put, if_neg hq]) fun n hn => ?_
  rw [Files.find_put, if_pos rfl] at hn
  exact ⟨by rw [← Option.some.inj hn]; simp, hdir⟩

theorem Tree.remove {r : Path} {fs : Files} (h : Tree r fs) (a b x : List Char) :
    Tree r (fs.remove (r ++ [a, b, x])) := by
  refine h.changed (a := a) (b := b) (x := x) (fun q hq => by rw [Files.find_remove, if_neg hq]) fun n hn => ?_
  rw [Files.find_remove, if_pos rfl] at hn
  exact absurd hn (by simp)

/-- Below the second level both file systems hold the same. -/
def SameFiles (r : Path) (fs fs' : Files) : Prop :=
  ∀ a b x, fs'.find (r ++ [a, b, x]) = fs.find (r ++ [a, b, x])

/-- Make a directory of the first level. -/
theorem Tree.mkdirFirst {r : Path} {fs : Files} (h : Tree r fs) (a : List Char) :
    Tree r (fs.put (r ++ [a]) .dir) := by
  have hroot : r ≠ r ++ [a] := fun heq => absurd (congrArg List.length heq) (by simp)
  refine ⟨by rw [Files.find_put, if_neg hroot, h.root], fun c n hn => ?_, fun c d n hn => ?_,
    fun c d y n hn => ?_⟩
  · rw [Files.find_put] at hn
    split at hn
    · exact (Option.some.inj hn).symm
    · exact h.first c n hn
  · rw [Files.find_put, if_neg (append_ne (by simp))] at hn
    obtain ⟨hdir, hparent⟩ := h.second c d n hn
    refine ⟨hdir, ?_⟩
    rw [Files.find_put]
    split
    · rfl
    · exact hparent
  · rw [Files.find_put, if_neg (append_ne (by simp))] at hn ⊢
    exact h.third c d y n hn

/-- Make a directory of the second level. -/
theorem Tree.mkdirSecond {r : Path} {fs : Files} (h : Tree r fs) (a b : List Char)
    (hparent : fs.find (r ++ [a]) = some .dir) (hnone : fs.find (r ++ [a, b]) = none) :
    Tree r (fs.put (r ++ [a, b]) .dir) := by
  have hroot : r ≠ r ++ [a, b] := fun heq => absurd (congrArg List.length heq) (by simp)
  refine ⟨by rw [Files.find_put, if_neg hroot, h.root], fun c n hn => ?_, fun c d n hn => ?_,
    fun c d y n hn => ?_⟩
  · rw [Files.find_put, if_neg (append_ne (by simp))] at hn
    exact h.first c n hn
  · rw [Files.find_put] at hn
    rw [Files.find_put, if_neg (append_ne (by simp))]
    split at hn
    · rename_i heq
      obtain ⟨rfl, rfl⟩ : c = a ∧ d = b := by simpa using List.append_cancel_left heq
      exact ⟨(Option.some.inj hn).symm, hparent⟩
    · exact h.second c d n hn
  · rw [Files.find_put, if_neg (append_ne (by simp))] at hn
    obtain ⟨hfile, hdir⟩ := h.third c d y n hn
    refine ⟨hfile, ?_⟩
    rw [Files.find_put]
    split
    · rfl
    · exact hdir

/-! ## `basic_master::mkdir` -/

/-- The text in front of the last slash. -/
theorem parent_eq {s w : List Char} (hw : '/' ∉ w) :
    ((s ++ '/' :: w).reverse.dropWhile (· ≠ '/')).drop 1 = s.reverse := by
  have hpos : ∀ c ∈ w.reverse, decide (c ≠ '/') = true :=
    fun c hc => decide_eq_true fun h => hw (h ▸ List.mem_reverse.1 hc)
  rw [List.reverse_append, List.reverse_cons, List.append_assoc, List.dropWhile_append_of_pos hpos]
  simp

/-- One level: a path that is there is done with, otherwise its parent comes first. -/
theorem wp_mkdir_succ {fuel : Nat} {t : String} {isfile : Bool} {s w : List Char} (hw : '/' ∉ w)
    (ht : t.toList = s ++ '/' :: w) {Q : Bool → St → Prop} {E : Error → St → Prop} {st : St}
    (hfound : (st.files.find (resolve t)).isSome = true → Q true st)
    (hmake : st.files.find (resolve t) = none →
      (mkdir fuel (String.ofList s) false).wp calls (fun ok st' => ok = true ∧
        (if isfile then Q true st' else Q (st'.files.mkdir t).1 { st' with files := (st'.files.mkdir t).2 }))
        E st) : (mkdir (fuel + 1) t isfile).wp calls Q E st := by
  have hslash : '/' ∈ t.toList := by rw [ht]; simp
  rw [mkdir, Prog.wp_bind, wp_files]
  dsimp only
  by_cases hex : (st.files.find (resolve t)).isSome = true
  · rw [Files.pathExists, if_pos hex]
    exact hfound hex
  · rw [Files.pathExists, if_neg hex, if_pos hslash, ht, parent_eq hw, List.reverse_reverse, Prog.wp_bind]
    refine Prog.wp_mono (fun ok st' h => ?_) (fun _ _ h => h)
      (hmake (Option.not_isSome_iff_eq_none.1 hex))
    obtain ⟨rfl, h⟩ := h
    cases isfile
    · simpa using h
    · simpa using h

section
variable {s : Settings} {p : Place}

theorem wp_mkdir_first (hs : Rooted s) (hp : p.Valid) {fuel : Nat} {st : St}
    (htree : Tree (root s) st.files) :
    (mkdir (fuel + 2) (String.ofList (rootText s ++ '/' :: p.a)) false).wp calls
      (fun ok st' => ok = true ∧ ∃ fs', st' = { st with files := fs' } ∧ Tree (root s) fs' ∧
        fs'.find (root s ++ [p.a]) = some .dir ∧
        ∀ q, q ≠ root s ++ [p.a] → fs'.find q = st.files.find q) (fun _ _ => False) st := by
  have hfirst := resolve_first hs hp
  refine wp_mkdir_succ (plain_of_hex hp.a.1 hp.a.2).slash (String.toList_ofList) (fun hex => ?_)
    fun hnone => ?_
  · obtain ⟨n, hn⟩ := Option.isSome_iff_exists.1 hex
    rw [hfirst] at hn
    exact ⟨rfl, _, rfl, htree, htree.first _ n hn ▸ hn, fun _ _ => rfl⟩
  · rw [hfirst] at hnone
    have hroot : (st.files.find (resolve (String.ofList (rootText s)))).isSome = true := by
      rw [show resolve (String.ofList (rootText s)) = root s from rfl, htree.root]
      rfl
    rw [mkdir, Prog.wp_bind, wp_files]
    dsimp only
    rw [Files.pathExists, if_pos hroot, Prog.wp_ret, if_neg (by simp),
      Files.find_mkdir hfirst htree.root hnone]
    refine ⟨rfl, rfl, _, rfl, htree.mkdirFirst _, by rw [Files.find_put, if_pos rfl], fun q hq => ?_⟩
    rw [Files.find_put, if_neg hq]

/-- The directories of a place are there, and the files are as before. -/
structure Made (s : Settings) (p : Place) (st st' : St) : Prop where
  rest : ∃ fs', st' = { st with files := fs' }
  tree : Tree (root s) st'.files
  dir : st'.files.find (root s ++ [p.a, p.b]) = some .dir
  same : SameFiles (root s) st.files st'.files

theorem wp_mkdir_second (hs : Rooted s) (hp : p.Valid) {fuel : Nat} {st : St}
    (htree : Tree (root s) st.files) :
    (mkdir (fuel + 3) (String.ofList (rootText s ++ '/' :: p.a ++ '/' :: p.b)) false).wp calls
      (fun ok st' => ok = true ∧ Made s p st st') (fun _ _ => False) st := by
  have hsecond := resolve_second hs hp
  refine wp_mkdir_succ (plain_of_hex hp.b.1 hp.b.2).slash (String.toList_ofList) (fun hex => ?_)
    fun hnone => ?_
  · obtain ⟨n, hn⟩ := Option.isSome_iff_exists.1 hex
    rw [hsecond] at hn
    exact ⟨rfl, ⟨_, rfl⟩, htree, (htree.second _ _ n hn).1 ▸ hn, fun _ _ _ => rfl⟩
  · rw [hsecond] at hnone
    refine Prog.wp_mono (fun ok st' h => ?_) (fun _ _ h => h) (wp_mkdir_first hs hp htree)
    obtain ⟨rfl, fs', rfl, htree', hdir, hother⟩ := h
    have hnone' : fs'.find (root s ++ [p.a, p.b]) = none := by
      rw [hother _ (append_ne (by simp)), hnone]
    have hmkdir : fs'.mkdir (String.ofList (rootText s ++ '/' :: p.a ++ '/' :: p.b)) =
        (true, fs'.put (root s ++ [p.a, p.b]) .dir) := by
      have h := Files.find_mkdir (p := root s ++ [p.a]) (w := p.b)
        (show resolve (String.ofList (rootText s ++ '/' :: p.a ++ '/' :: p.b)) = _ by rw [hsecond]; simp)
        hdir (by simpa using hnone')
      simpa using h
    rw [if_neg (by simp)]
    dsimp only
    rw [hmkdir]
    refine ⟨rfl, rfl, ⟨_, rfl⟩, htree'.mkdirSecond _ _ hdir hnone', by rw [Files.find_put, if_pos rfl],
      fun a b x => ?_⟩
    rw [Files.find_put, if_neg (append_ne (by simp)), hother _ (append_ne (by simp))]

/-- **The directories on the way to a file are made**, whichever of them were there. -/
theorem wp_mkdir (hs : Rooted s) (hp : p.Valid) {rest : List Char} (hrest : Rest rest) {t : String}
    (ht : t.toList = p.text s rest) {fuel : Nat} {st : St} (htree : Tree (root s) st.files) :
    (mkdir (fuel + 4) t true).wp calls (fun _ => Made s p st) (fun _ _ => False) st := by
  have hthird := resolve_text hs hp hrest ht
  refine wp_mkdir_succ (hp.plain hrest).slash ht (fun hex => ?_) fun _ => ?_
  · obtain ⟨n, hn⟩ := Option.isSome_iff_exists.1 hex
    rw [hthird] at hn
    exact ⟨⟨_, rfl⟩, htree, (htree.third _ _ _ n hn).2, fun _ _ _ => rfl⟩
  · simp only [if_true]
    exact wp_mkdir_second hs hp htree

/-! ## Saving and joining -/

/-- Only the files meant by `c` may have changed. -/
structure Only (r : Path) (c : Path → Prop) (st st' : St) : Prop where
  rest : ∃ fs', st' = { st with files := fs' }
  tree : Tree r st'.files
  same : ∀ a b x, ¬c (r ++ [a, b, x]) → st'.files.find (r ++ [a, b, x]) = st.files.find (r ++ [a, b, x])

theorem Only.trans {r : Path} {c c' : Path → Prop} {st₁ st₂ st₃ : St} (h : Only r c st₁ st₂)
    (h' : Only r c' st₂ st₃) : Only r (fun q => c q ∨ c' q) st₁ st₃ := by
  obtain ⟨fs, rfl⟩ := h.rest
  obtain ⟨fs', rfl⟩ := h'.rest
  refine ⟨⟨fs', rfl⟩, h'.tree, fun a b x hc => ?_⟩
  rw [not_or] at hc
  rw [h'.same a b x hc.2, h.same a b x hc.1]

theorem Only.mono {r : Path} {c c' : Path → Prop} {st st' : St} (h : Only r c st st')
    (hc : ∀ q, c q → c' q) : Only r c' st st' :=
  ⟨h.rest, h.tree, fun a b x hx => h.same a b x fun hq => hx (hc _ hq)⟩

/-- The names of an upload are those of a place and an extension. -/
structure Named (s : Settings) (p : Place) (ext : List Char) (n : Names) : Prop where
  rooted : Rooted s
  valid : p.Valid
  accepted : AcceptedExt ext
  base : n.base.toList = p.text s []
  path : n.path.toList = p.text s ext
  url : ∃ pre, n.url.toList = pre ++ ext

namespace Named

variable {ext : List Char} {n : Names}

theorem resolve_path (h : Named s p ext n) : resolve n.path = p.path (root s) ext :=
  resolve_text h.rooted h.valid h.accepted.rest h.path

theorem resolve_part (h : Named s p ext n) (i : Nat) :
    resolve (partPath n.base i) = p.path (root s) (partRest i) :=
  resolve_text h.rooted h.valid (rest_part i) (partPath_toList h.base i)

theorem resolve_lock (h : Named s p ext n) (i : Nat) :
    resolve (partPath n.base i ++ ".lock") = p.path (root s) (lockRest i) :=
  resolve_text h.rooted h.valid (rest_lock i) (lockPath_toList h.base i)

end Named

/-- The directory of a place, as the parent of its files. -/
theorem Place.path_eq (r : Path) (p : Place) (rest : List Char) :
    p.path r rest = (r ++ [p.a, p.b]) ++ [p.stem ++ rest] := by simp [Place.path]

/-- Create a file in a directory that is there. -/
theorem create_place {rest : List Char} {t : String} {fs : Files} (ht : resolve t = p.path (root s) rest)
    (htree : Tree (root s) fs) (hdir : fs.find (root s ++ [p.a, p.b]) = some .dir) (content : List UInt8)
    (now : Nat) : fs.create t content now = (true, fs.put (p.path (root s) rest) (.file content now)) := by
  rw [Place.path_eq] at ht ⊢
  refine Files.create_eq ht hdir (fun h => ?_) content now
  have h : fs.find (root s ++ [p.a, p.b, p.stem ++ rest]) = some .dir := by simpa using h
  exact (htree.third _ _ _ _ h).1 rfl

theorem Only.put (rest : List Char) {st : St} (htree : Tree (root s) st.files)
    (hdir : st.files.find (root s ++ [p.a, p.b]) = some .dir) (content : List UInt8) (now : Nat) :
    Only (root s) (· = p.path (root s) rest) st
      { st with files := st.files.put (p.path (root s) rest) (.file content now) } :=
  ⟨⟨_, rfl⟩, htree.putFile _ hdir content now, fun a b x hx => by
    rw [Files.find_put, if_neg hx]⟩

theorem Only.remove (rest : List Char) {st : St} (htree : Tree (root s) st.files) :
    Only (root s) (· = p.path (root s) rest) st
      { st with files := st.files.remove (p.path (root s) rest) } :=
  ⟨⟨_, rfl⟩, htree.remove _ _ _, fun a b x hx => by rw [Files.find_remove, if_neg hx]⟩

theorem Made.only {st st' : St} (h : Made s p st st') (c : Path → Prop) : Only (root s) c st st' :=
  ⟨h.rest, h.tree, fun a b x _ => h.same a b x⟩

/-- `mkdir` and `save_to` under one name. -/
theorem wp_mkdir_saveTo (e : Env) (hs : Rooted s) (hp : p.Valid) {rest : List Char} (hrest : Rest rest)
    {t : String} (ht : t.toList = p.text s rest) (content : List UInt8) {st : St}
    (htree : Tree (root s) st.files) :
    ((mkdir (t.length + 1) t true).bind fun _ => saveTo e t content).wp calls
      (fun _ st' => Only (root s) (· = p.path (root s) rest) st st' ∧
        st'.files.find (root s ++ [p.a, p.b]) = some .dir ∧
        st'.files.find (p.path (root s) rest) = some (.file content e.chance.now)) (fun _ _ => False) st := by
  obtain ⟨fuel, hfuel⟩ : ∃ fuel, t.length + 1 = fuel + 4 := by
    refine ⟨t.length - 3, ?_⟩
    have hlen := congrArg List.length ht
    rw [String.length_toList] at hlen
    simp only [Place.text, List.length_append, List.length_cons, hp.a.2, hp.b.2] at hlen
    omega
  rw [hfuel]
  refine Prog.wp_seq (wp_mkdir hs hp hrest ht htree) (fun _ st₁ h₁ => ?_) (fun _ _ h => h)
  rw [saveTo, Prog.wp_bind, wp_files, create_place (resolve_text hs hp hrest ht) h₁.tree h₁.dir]
  simp only [if_true, Prog.wp_ret]
  refine ⟨((h₁.only _).trans (Only.put _ h₁.tree h₁.dir _ _)).mono fun q hq => hq.elim id id, ?_, ?_⟩
  · have hne : root s ++ [p.a, p.b] ≠ p.path (root s) rest := append_ne (by simp)
    rw [Files.find_put, if_neg hne, h₁.dir]
  · rw [Files.find_put, if_pos rfl]

variable {ext : List Char} {n : Names}

/-- A part is saved under another name first. -/
def savePart (e : Env) (n : Names) (content : List UInt8) (chunk : Nat) : App Unit :=
  (mkdir ((partPath n.base chunk ++ ".lock").length + 1) (partPath n.base chunk ++ ".lock") true).bind fun _ =>
  (saveTo e (partPath n.base chunk ++ ".lock") content).bind fun _ =>
  files (fun fs => ((), fs.rename (partPath n.base chunk ++ ".lock") (partPath n.base chunk)))

theorem wp_savePart (e : Env) (h : Named s p ext n) (content : List UInt8) (chunk : Nat) {st : St}
    (htree : Tree (root s) st.files) :
    (savePart e n content chunk).wp calls
      (fun _ st' => Only (root s) (fun q => q = p.path (root s) (lockRest chunk) ∨
          q = p.path (root s) (partRest chunk)) st st' ∧
        st'.files.find (root s ++ [p.a, p.b]) = some .dir ∧
        st'.files.find (p.path (root s) (partRest chunk)) = some (.file content e.chance.now))
      (fun _ _ => False) st := by
  have hsave := wp_mkdir_saveTo e h.rooted h.valid (rest_lock chunk) (lockPath_toList h.base chunk) content
    htree
  rw [Prog.wp_bind] at hsave
  rw [savePart, Prog.wp_bind]
  refine Prog.wp_mono (fun _ st₁ h₁ => ?_) (fun _ _ h => h) hsave
  refine Prog.wp_seq h₁ (fun _ st₂ h₂ => ?_) (fun _ _ h => h)
  obtain ⟨honly, hdir, hlock⟩ := h₂
  have hrename : st₂.files.rename (partPath n.base chunk ++ ".lock") (partPath n.base chunk) =
      (st₂.files.remove (p.path (root s) (lockRest chunk))).put (p.path (root s) (partRest chunk))
        (.file content e.chance.now) := by
    rw [Files.rename, h.resolve_lock, h.resolve_part, hlock]
  have hne (rest : List Char) : root s ++ [p.a, p.b] ≠ p.path (root s) rest := append_ne (by simp)
  rw [wp_files]
  dsimp only
  rw [hrename]
  have hremove : Only (root s) (· = p.path (root s) (lockRest chunk)) st₂ _ := Only.remove _ honly.tree
  have hdir' : (st₂.files.remove (p.path (root s) (lockRest chunk))).find (root s ++ [p.a, p.b]) =
      some .dir := by
    rw [Files.find_remove, if_neg (hne _), hdir]
  refine ⟨((honly.trans hremove).trans (Only.put _ hremove.tree hdir' content e.chance.now)).mono
    fun q hq => ?_, ?_, ?_⟩
  · exact hq.imp (fun h => h.elim id id) id
  · rw [Files.find_put, if_neg (hne _), hdir']
  · rw [Files.find_put, if_pos rfl]

/-- The loop says whether all parts are there. -/
theorem wp_allParts (h : Named s p ext n) (i k : Nat) {st : St} :
    (allParts n.base i k).wp calls
      (fun ok st' => st' = st ∧ (ok = true ↔ ∀ j, i ≤ j → j < i + k →
        (st.files.find (p.path (root s) (partRest j))).isSome = true)) (fun _ _ => False) st := by
  induction k generalizing i with
  | zero => exact ⟨rfl, iff_of_true rfl fun j h₁ h₂ => absurd h₁ (by omega)⟩
  | succ k ih =>
    rw [allParts, Prog.wp_bind, wp_files]
    dsimp only
    rw [Files.pathExists, h.resolve_part]
    by_cases hex : (st.files.find (p.path (root s) (partRest i))).isSome = true
    · rw [if_pos hex]
      refine Prog.wp_mono (fun ok st' hok => ⟨hok.1, hok.2.trans ⟨fun hall j h₁ h₂ => ?_,
        fun hall j h₁ h₂ => hall j (by omega) (by omega)⟩⟩) (fun _ _ h => h) (ih (i + 1))
      rcases Nat.eq_or_lt_of_le h₁ with rfl | hlt
      · exact hex
      · exact hall j hlt (by omega)
    · rw [if_neg hex]
      exact ⟨rfl, iff_of_false (by simp) fun hall => hex (hall i le_rfl (by omega))⟩

/-- The parts from `i` on hold what `f` says. -/
def Parts (s : Settings) (p : Place) (f : Nat → List UInt8) (i k : Nat) (fs : Files) : Prop :=
  ∀ j, i ≤ j → j < i + k → ∃ mtime, fs.find (p.path (root s) (partRest j)) = some (.file (f j) mtime)

theorem path_part_ne {i j : Nat} (hij : i ≠ j) :
    p.path (root s) (partRest i) ≠ p.path (root s) (partRest j) := by
  intro heq
  exact hij (partRest_injective (List.append_cancel_left (Place.path_inj heq).2.2))

theorem path_ext_ne_part (h : Named s p ext n) (i : Nat) :
    p.path (root s) ext ≠ p.path (root s) (partRest i) :=
  fun heq => h.accepted.ne_part _ _ i (Place.path_inj heq).2.2

/-- One round: a part is appended and removed. -/
theorem wp_joinParts_succ (e : Env) (h : Named s p ext n) {i k : Nat} {done bytes : List UInt8} {st : St}
    (htree : Tree (root s) st.files)
    (hdone : ∃ mtime, st.files.find (p.path (root s) ext) = some (.file done mtime))
    (hpart : ∃ mtime, st.files.find (p.path (root s) (partRest i)) = some (.file bytes mtime))
    {Q : List UInt8 → St → Prop} {E : Error → St → Prop}
    (hnext : ∀ st', Only (root s) (fun q => q = p.path (root s) ext ∨ q = p.path (root s) (partRest i)) st st' →
      (∃ mtime, st'.files.find (p.path (root s) ext) = some (.file (done ++ bytes) mtime)) →
      st'.files.find (p.path (root s) (partRest i)) = none →
      (joinParts e n.base n.path (i + 1) (done ++ bytes) k).wp calls Q E st') :
    (joinParts e n.base n.path i done (k + 1)).wp calls Q E st := by
  obtain ⟨mtime, hfinal⟩ := hdone
  obtain ⟨mtime', hpart⟩ := hpart
  have hne := path_ext_ne_part h i
  have hread : st.files.read (partPath n.base i) = some bytes :=
    Files.read_of_find _ (by rw [h.resolve_part, hpart])
  have hwrite : st.files.writeAt n.path done.length bytes e.chance.now =
      st.files.put (p.path (root s) ext) (.file (done ++ bytes) e.chance.now) := by
    rw [Files.writeAt_end (by rw [h.resolve_path, hfinal]), h.resolve_path]
  have hput := Only.put (p := p) ext htree (htree.third _ _ _ _ hfinal).2 (done ++ bytes)
    e.chance.now
  have hremove := Only.remove (p := p) (partRest i) hput.tree
  rw [joinParts, Prog.wp_bind, readAll, Prog.wp_bind, wp_files]
  dsimp only
  rw [hread]
  simp only [Prog.wp_ret, Prog.wp_bind, wp_files]
  rw [hwrite, Files.unlink, h.resolve_part, Files.find_put, if_neg hne.symm, hpart]
  refine hnext _ (hput.trans hremove) ⟨e.chance.now, ?_⟩ ?_
  · rw [Files.find_remove, if_neg hne, Files.find_put, if_pos rfl]
  · rw [Files.find_remove, if_pos rfl]

/-- **The parts are joined**: the file ends up with all of them, and they are removed. -/
theorem wp_joinParts (e : Env) (h : Named s p ext n) (f : Nat → List UInt8) {i k : Nat} {done : List UInt8}
    {st : St} (htree : Tree (root s) st.files)
    (hdone : ∃ mtime, st.files.find (p.path (root s) ext) = some (.file done mtime))
    (hparts : Parts s p f i k st.files) :
    (joinParts e n.base n.path i done k).wp calls
      (fun bytes st' => bytes = done ++ (List.range' i k).flatMap f ∧
        Only (root s) (fun q => q = p.path (root s) ext ∨
          ∃ j, i ≤ j ∧ j < i + k ∧ q = p.path (root s) (partRest j)) st st' ∧
        (∃ mtime, st'.files.find (p.path (root s) ext) = some (.file bytes mtime)) ∧
        ∀ j, i ≤ j → j < i + k → st'.files.find (p.path (root s) (partRest j)) = none)
      (fun _ _ => False) st := by
  induction k generalizing i done st with
  | zero =>
    exact ⟨by simp, ⟨⟨_, rfl⟩, htree, fun _ _ _ _ => rfl⟩, hdone, fun j h₁ h₂ => absurd h₁ (by omega)⟩
  | succ k ih =>
    refine wp_joinParts_succ e h htree hdone (hparts i le_rfl (by omega)) fun st₁ honly hfinal hgone => ?_
    have hparts₁ : Parts s p f (i + 1) k st₁.files := by
      intro j h₁ h₂
      obtain ⟨mtime, hj⟩ := hparts j (by omega) (by omega)
      refine ⟨mtime, (honly.same _ _ _ ?_).trans hj⟩
      rintro (heq | heq)
      · exact path_ext_ne_part h j heq.symm
      · exact path_part_ne (show j ≠ i by omega) heq
    refine Prog.wp_mono (fun bytes st₂ h₂ => ?_) (fun _ _ h => h) (ih honly.tree hfinal hparts₁)
    obtain ⟨hbytes, honly₂, hfinal₂, hgone₂⟩ := h₂
    refine ⟨by simp [hbytes, List.range'_succ], (honly.trans honly₂).mono fun q hq => ?_, hfinal₂,
      fun j h₁ h₂ => ?_⟩
    · rcases hq with (hq | hq) | hq | ⟨j, h₁, h₂, hq⟩
      · exact .inl hq
      · exact .inr ⟨i, le_rfl, by omega, hq⟩
      · exact .inl hq
      · exact .inr ⟨j, by omega, by omega, hq⟩
    · rcases Nat.eq_or_lt_of_le h₁ with rfl | hlt
      · refine (honly₂.same _ _ _ ?_).trans hgone
        rintro (heq | ⟨j, h₁, -, heq⟩)
        · exact path_ext_ne_part h i heq.symm
        · exact path_part_ne (show i ≠ j by omega) heq
      · exact hgone₂ j hlt (by omega)

/-! ## Receiving a part -/

theorem receive_eq (e : Env) (n : Names) (content : List UInt8) {chunk chunks : Nat} (hchunks : chunks ≠ 1) :
    receive e n content chunk chunks =
      (savePart e n content chunk).bind fun _ => (allParts n.base 0 chunks).bind fun completed =>
        if completed then
          (files (fun fs => fs.create n.path [] e.chance.now)).bind fun _ =>
          (joinParts e n.base n.path 0 [] chunks).bind fun bytes => .ret (some bytes)
        else .ret none := by
  rw [receive, if_neg hchunks]
  simp only [savePart, Prog.bind_assoc]

/-- What `receive` leaves of several parts: the part is saved, and when all are there, they are joined. -/
structure Received (s : Settings) (p : Place) (ext : List Char) (content : List UInt8) (chunk chunks : Nat)
    (r : Option (List UInt8)) (st st' : St) : Prop where
  via : ∃ st₁, Only (root s) (fun q => q = p.path (root s) (lockRest chunk) ∨
      q = p.path (root s) (partRest chunk)) st st₁ ∧
    (∃ mtime, st₁.files.find (p.path (root s) (partRest chunk)) = some (.file content mtime)) ∧
    ((r = none ∧ st' = st₁ ∧ ∀ f, ¬Parts s p f 0 chunks st₁.files) ∨
      ∃ f bytes, Parts s p f 0 chunks st₁.files ∧ r = some bytes ∧ bytes = (List.range' 0 chunks).flatMap f ∧
        Only (root s) (fun q => q = p.path (root s) ext ∨
          ∃ j, j < chunks ∧ q = p.path (root s) (partRest j)) st₁ st' ∧
        (∃ mtime, st'.files.find (p.path (root s) ext) = some (.file bytes mtime)) ∧
        ∀ j, j < chunks → st'.files.find (p.path (root s) (partRest j)) = none)

/-- Where a file is there, it is no directory. -/
theorem parts_of_isSome {chunks : Nat} {fs : Files} (htree : Tree (root s) fs)
    (hall : ∀ j, 0 ≤ j → j < 0 + chunks → (fs.find (p.path (root s) (partRest j))).isSome = true) :
    ∃ f, Parts s p f 0 chunks fs := by
  have hfile (j : Nat) : ∃ content, j < chunks →
      ∃ mtime, fs.find (p.path (root s) (partRest j)) = some (.file content mtime) := by
    by_cases hj : j < chunks
    · obtain ⟨node, hnode⟩ := Option.isSome_iff_exists.1 (hall j (Nat.zero_le j) (by omega))
      cases node with
      | dir => exact absurd rfl (htree.third _ _ _ _ hnode).1
      | file content mtime => exact ⟨content, fun _ => ⟨mtime, hnode⟩⟩
    · exact ⟨[], fun h => absurd h hj⟩
  choose f hf using hfile
  exact ⟨f, fun j _ hj => hf j (by omega)⟩

theorem wp_receive_parts (e : Env) (h : Named s p ext n) (content : List UInt8) {chunk chunks : Nat}
    (hchunks : chunks ≠ 1) {st : St} (htree : Tree (root s) st.files) :
    (receive e n content chunk chunks).wp calls (fun r st' => Received s p ext content chunk chunks r st st')
      (fun _ _ => False) st := by
  rw [receive_eq e n content hchunks]
  refine Prog.wp_seq (wp_savePart e h content chunk htree) (fun _ st₁ h₁ => ?_) (fun _ _ h => h)
  obtain ⟨honly, hdir, hpart⟩ := h₁
  refine Prog.wp_seq (wp_allParts h 0 chunks) (fun ok st₂ h₂ => ?_) (fun _ _ h => h)
  obtain ⟨rfl, hall⟩ := h₂
  cases ok with
  | false =>
    refine ⟨st₂, honly, ⟨_, hpart⟩, .inl ⟨rfl, rfl, fun f hf => ?_⟩⟩
    refine absurd (hall.2 fun j h₁ h₂ => ?_) (by decide)
    obtain ⟨mtime, hj⟩ := hf j h₁ h₂
    rw [hj]
    rfl
  | true =>
    obtain ⟨f, hparts⟩ := parts_of_isSome honly.tree (hall.1 rfl)
    have hput := Only.put (p := p) ext honly.tree hdir [] e.chance.now
    rw [if_pos rfl, Prog.wp_bind, wp_files, create_place h.resolve_path honly.tree hdir]
    refine Prog.wp_seq (wp_joinParts e h f hput.tree ⟨_, by rw [Files.find_put, if_pos rfl]⟩
      fun j h₁ h₂ => ?_) (fun bytes st₃ h₃ => ?_) (fun _ _ h => h)
    · obtain ⟨mtime, hj⟩ := hparts j h₁ h₂
      exact ⟨mtime, by rw [Files.find_put, if_neg (path_ext_ne_part h j).symm, hj]⟩
    · obtain ⟨hbytes, honly₃, hfinal, hgone⟩ := h₃
      refine ⟨st₂, honly, ⟨_, hpart⟩, .inr ⟨_, bytes, hparts, rfl, by simpa using hbytes,
        (hput.trans honly₃).mono fun q hq => ?_, hfinal, fun j hj => hgone j (by omega) (by omega)⟩⟩
      rcases hq with hq | hq | ⟨j, -, hj, hq⟩
      · exact .inl hq
      · exact .inl hq
      · exact .inr ⟨j, by omega, hq⟩

/-- A file in one piece. -/
theorem wp_receive_whole (e : Env) (h : Named s p ext n) (content : List UInt8) (chunk : Nat) {st : St}
    (htree : Tree (root s) st.files) :
    (receive e n content chunk 1).wp calls
      (fun r st' => r = some content ∧ Only (root s) (· = p.path (root s) ext) st st' ∧
        ∃ mtime, st'.files.find (p.path (root s) ext) = some (.file content mtime)) (fun _ _ => False) st := by
  have hsave := wp_mkdir_saveTo e h.rooted h.valid h.accepted.rest h.path content htree
  rw [Prog.wp_bind] at hsave
  rw [receive, if_pos rfl, Prog.wp_bind]
  refine Prog.wp_mono (fun _ st₁ h₁ => ?_) (fun _ _ h => h) hsave
  refine Prog.wp_seq h₁ (fun _ st₂ h₂ => ?_) (fun _ _ h => h)
  obtain ⟨honly, -, hfinal⟩ := h₂
  have hread : st₂.files.read n.path = some content := Files.read_of_find _ (by rw [h.resolve_path, hfinal])
  rw [Prog.wp_bind, readAll, Prog.wp_bind, wp_files]
  dsimp only
  rw [hread]
  exact ⟨rfl, honly, _, hfinal⟩

end

end Upload

end CppBlog
