import CppBlog.Ranges
import CppBlog.Uploads

set_option autoImplicit false

/-! # Uploaded files are what their names say

A complete file is written before it is checked, and removed if the check fails; parts, parts being
saved and rotations have other names. So between two requests every file of the final form has the hash
and the size that its path spells. -/

namespace CppBlog

open Effect Store App Text

namespace Upload

/-- The content of a file under a name of the final form: hash and size are those of its path. -/
def GenuineAt (md5 : List UInt8 → String) (a b w : List Char) (content : List UInt8) : Prop :=
  ∀ c h ext, Hex c → Hex h → AcceptedExt ext → w = c ++ '-' :: h ++ ext →
    (md5 content).toList = a ++ b ++ c ∧ h = Nat.toDigits 16 content.length

/-- All files are what their names say. -/
structure Sound (md5 : List UInt8 → String) (r : Path) (fs : Files) : Prop where
  tree : Tree r fs
  genuine : ∀ a b w content mtime, fs.find (r ++ [a, b, w]) = some (.file content mtime) →
    GenuineAt md5 a b w content

section
variable {md5 : List UInt8 → String} {r : Path}

theorem genuineAt_of_not_finalName {a b w : List Char} (h : ¬FinalName w) (content : List UInt8) :
    GenuineAt md5 a b w content :=
  fun c h' ext hc hh hext heq => absurd ⟨c, h', ext, hc, hh, hext, heq⟩ h

/-- Only the files that changed have to be looked at. -/
theorem Sound.only {c : Path → Prop} {st st' : St} (h : Sound md5 r st.files) (honly : Only r c st st')
    (hc : ∀ a b w, c (r ++ [a, b, w]) → ¬FinalName w ∨ ∀ content mtime,
      st'.files.find (r ++ [a, b, w]) = some (.file content mtime) → GenuineAt md5 a b w content) :
    Sound md5 r st'.files := by
  refine ⟨honly.tree, fun a b w content mtime hfind => ?_⟩
  by_cases hchanged : c (r ++ [a, b, w])
  · rcases hc a b w hchanged with hnot | hgenuine
    · exact genuineAt_of_not_finalName hnot content
    · exact hgenuine content mtime hfind
  · exact h.genuine a b w content mtime (honly.same a b w hchanged ▸ hfind)

theorem path_components {p : Place} {a b w rest : List Char} (h : r ++ [a, b, w] = p.path r rest) :
    a = p.a ∧ b = p.b ∧ w = p.stem ++ rest := by
  have h := List.append_cancel_left h
  simpa using h

end

section
variable {e : Env} {s : Settings} {p : Place} {ext : List Char} {n : Names} {md5 : List UInt8 → String}

/-- Saving parts leaves no file of the final form. -/
theorem Sound.saved {i : Nat} {st st' : St} (h : Sound md5 (root s) st.files)
    (honly : Only (root s) (fun q => q = p.path (root s) (lockRest i) ∨
      q = p.path (root s) (partRest i)) st st') : Sound md5 (root s) st'.files := by
  refine h.only honly fun a b w hq => .inl ?_
  rcases hq with hq | hq <;> obtain ⟨-, -, rfl⟩ := path_components hq
  · exact not_finalName_lock _ _
  · exact not_finalName_part _ _

/-- A name of the final form spells one hash and one size. -/
theorem finalName_inj {c c' h h' ext ext' : List Char} (hc : Hex c) (hh : Hex h) (hext : AcceptedExt ext)
    (hext' : AcceptedExt ext') (heq : c ++ '-' :: h ++ ext = c' ++ '-' :: h' ++ ext') :
    c = c' ∧ h = h' := by
  obtain ⟨y, rfl, hdot, -, -, hdash, -, -⟩ := hext.eq
  obtain ⟨y', rfl, -⟩ := hext'.eq
  rw [List.append_assoc, List.append_assoc, List.cons_append, List.cons_append] at heq
  have hrest : '-' ∉ h ++ '.' :: y := by simp [hh.notMem (c := '-') (by decide), hdash]
  obtain ⟨rfl, -, heq⟩ := (List.append_cons_inj_of_notMem (hc.notMem (by decide)) hrest).1 heq
  obtain ⟨rfl, -, -⟩ := (List.append_cons_inj_of_notMem (hh.notMem (by decide)) hdot).1 heq
  exact ⟨rfl, rfl⟩

theorem toList_eq_take_drop (s : List Char) : s = s.take 2 ++ (s.drop 2).take 2 ++ s.drop 4 := by
  have hdrop : s.drop 4 = (s.drop 2).drop 2 := by rw [List.drop_drop]
  rw [hdrop, List.append_assoc, List.take_append_drop, List.take_append_drop]

/-- A file that was checked is what its name says. -/
theorem genuineAt_checked {hash : String} (hhash : isHex hash = true) (hext : AcceptedExt ext)
    {content : List UInt8} (hmd5 : hash = md5 content) :
    GenuineAt md5 (place hash content.length).a (place hash content.length).b
      ((place hash content.length).stem ++ ext) content := by
  intro c h ext' hc hh hext' heq
  have hrest : Hex (hash.toList.drop 4) := fun c hc => hex_of_isHex hhash c (List.mem_of_mem_drop hc)
  obtain ⟨rfl, rfl⟩ := finalName_inj hrest (hex_toDigits content.length) hext hext' heq
  refine ⟨?_, rfl⟩
  rw [← hmd5]
  exact toList_eq_take_drop hash.toList

/-- A complete file was written and is still to be checked. -/
structure Unchecked (md5 : List UInt8 → String) (s : Settings) (p : Place) (ext : List Char)
    (bytes : List UInt8) (fs : Files) : Prop where
  tree : Tree (root s) fs
  genuine : ∀ a b w content mtime, root s ++ [a, b, w] ≠ p.path (root s) ext →
    fs.find (root s ++ [a, b, w]) = some (.file content mtime) → GenuineAt md5 a b w content
  final : ∃ mtime, fs.find (p.path (root s) ext) = some (.file bytes mtime)

theorem Sound.unchecked {c : Path → Prop} {bytes : List UInt8} {st st' : St}
    (h : Sound md5 (root s) st.files) (honly : Only (root s) c st st')
    (hc : ∀ q, c q → q = p.path (root s) ext ∨ ∃ j, q = p.path (root s) (partRest j))
    (hfinal : ∃ mtime, st'.files.find (p.path (root s) ext) = some (.file bytes mtime)) :
    Unchecked md5 s p ext bytes st'.files := by
  refine ⟨honly.tree, fun a b w content mtime hne hfind => ?_, hfinal⟩
  by_cases hchanged : c (root s ++ [a, b, w])
  · rcases hc _ hchanged with heq | ⟨j, heq⟩
    · exact absurd heq hne
    · obtain ⟨-, -, rfl⟩ := path_components heq
      exact genuineAt_of_not_finalName (not_finalName_part _ _) content
  · exact h.genuine a b w content mtime (honly.same a b w hchanged ▸ hfind)

/-- The check keeps what is as its name says, -/
theorem Unchecked.accepted {hash : String} {bytes : List UInt8} {fs : Files} (hhash : isHex hash = true)
    (hext : AcceptedExt ext) (h : Unchecked md5 s (place hash bytes.length) ext bytes fs)
    (hmd5 : hash = md5 bytes) : Sound md5 (root s) fs := by
  refine ⟨h.tree, fun a b w content mtime hfind => ?_⟩
  by_cases heq : root s ++ [a, b, w] = (place hash bytes.length).path (root s) ext
  · obtain ⟨mtime', hfinal⟩ := h.final
    obtain ⟨rfl, -⟩ := Node.file.inj (Option.some.inj (hfind.symm.trans (heq ▸ hfinal)))
    obtain ⟨rfl, rfl, rfl⟩ := path_components heq
    exact genuineAt_checked hhash hext hmd5
  · exact h.genuine a b w content mtime heq hfind

/-- and removes what is not. -/
theorem Unchecked.rejected {bytes : List UInt8} {fs : Files} {t : String}
    (h : Unchecked md5 s p ext bytes fs) (ht : resolve t = p.path (root s) ext) :
    Sound md5 (root s) (fs.unlink t) := by
  obtain ⟨mtime, hfinal⟩ := h.final
  have hunlink : fs.unlink t = fs.remove (p.path (root s) ext) := by rw [Files.unlink, ht, hfinal]
  rw [hunlink]
  refine ⟨h.tree.remove _ _ _, fun a b w content mtime hfind => ?_⟩
  rw [Files.find_remove] at hfind
  split at hfind
  · exact absurd hfind (by simp)
  · rename_i hne
    exact h.genuine a b w content mtime hne hfind

/-- What `receive` leaves: everything is sound, or the complete file is to be checked. -/
theorem wp_receive (hnamed : Named s p ext n) (content : List UInt8) (chunk chunks : Nat) {st : St}
    (h : Sound md5 (root s) st.files) :
    (receive e n content chunk chunks).wp calls (fun r st' =>
      match r with
      | none => Sound md5 (root s) st'.files
      | some bytes => Unchecked md5 s p ext bytes st'.files) (fun _ _ => False) st := by
  by_cases hchunks : chunks = 1
  · subst hchunks
    refine Prog.wp_mono (fun r st' hr => ?_) (fun _ _ h => h)
      (wp_receive_whole e hnamed content chunk h.tree)
    obtain ⟨rfl, honly, hfinal⟩ := hr
    exact h.unchecked honly (fun _ hq => .inl hq) hfinal
  · refine Prog.wp_mono (fun r st' hr => ?_) (fun _ _ h => h)
      (wp_receive_parts e hnamed content hchunks h.tree)
    obtain ⟨st₁, hsaved, -, hr⟩ := hr
    rcases hr with ⟨rfl, rfl, -⟩ | ⟨f, bytes, -, rfl, -, honly, hfinal, -⟩
    · exact h.saved hsaved
    · exact (h.saved hsaved).unchecked honly (fun _ hq => hq.imp id fun ⟨j, _, hj⟩ => ⟨j, hj⟩) hfinal

/-- A posted file is checked before the request ends. -/
theorem wp_submit {hash name : String} {size : Nat} (hhash : isHex hash = true)
    (hnamed : Named e.settings (place hash size) ext n) (hmd5 : e.lib.md5 = md5) (chunk chunks : Nat) {st : St}
    (h : Sound md5 (root e.settings) st.files) :
    (submit e n hash name size chunk chunks).wp calls (fun _ st' => Sound md5 (root e.settings) st'.files)
      (fun _ st' => Sound md5 (root e.settings) st'.files) st := by
  unfold submit
  split
  · rename_i content _
    refine Prog.wp_seq (wp_receive hnamed content chunk chunks h) (fun r st₁ hr => ?_)
      (fun _ _ h => h.elim)
    cases r with
    | none => exact hr
    | some bytes =>
      have hunchecked : Unchecked md5 e.settings (place hash size) ext bytes st₁.files := hr
      obtain ⟨mtime, hfinal⟩ := hunchecked.final
      have hread : (st₁.files.read n.path).map List.length = some bytes.length := by
        rw [Files.read_of_find _ (by rw [hnamed.resolve_path, hfinal])]
        rfl
      rw [Prog.wp_bind, wp_files]
      dsimp only
      rw [hread]
      split
      · rw [Prog.wp_bind, wp_files]
        exact hunchecked.rejected hnamed.resolve_path
      · rename_i hok
        rw [not_or, not_not, not_not] at hok
        obtain rfl := Option.some.inj hok.2
        exact hunchecked.accepted hhash hnamed.accepted (hmd5 ▸ hok.1)
  · exact h

/-! ## Rotations -/

theorem only_refl {r : Path} {c : Path → Prop} {st : St} (h : Tree r st.files) : Only r c st st :=
  ⟨⟨_, rfl⟩, h, fun _ _ _ _ => rfl⟩

/-- Whether or not a file can be created. -/
theorem only_create {rest : List Char} {t : String} {st : St} (htree : Tree (root s) st.files)
    (ht : resolve t = p.path (root s) rest) (content : List UInt8) (now : Nat) :
    Only (root s) (· = p.path (root s) rest) st
      { st with files := (st.files.create t content now).2 } := by
  have hdrop : (p.path (root s) rest).dropLast = root s ++ [p.a, p.b] := by
    rw [Place.path_eq, List.dropLast_concat]
  have hlong : ¬(p.path (root s) rest).length ≤ 1 := by simp [Place.path]
  rw [Files.create, ht]
  split
  · rename_i h
    have hdir : st.files.find (root s ++ [p.a, p.b]) = some .dir := by
      have h := (Bool.and_eq_true_iff.1 h).1
      simpa only [Files.hasParent, hdrop, hlong, decide_false, Bool.false_or, decide_eq_true_eq] using h
    exact Only.put _ htree hdir content now
  · exact only_refl htree

theorem only_writeAt {rest : List Char} {t : String} {st : St} (htree : Tree (root s) st.files)
    (ht : resolve t = p.path (root s) rest) (offset : Nat) (bytes : List UInt8) (now : Nat) :
    Only (root s) (· = p.path (root s) rest) st
      { st with files := st.files.writeAt t offset bytes now } := by
  rw [Files.writeAt]
  split
  · exact only_refl htree
  · rename_i content hread
    obtain ⟨mtime, hfind⟩ := Files.find_of_read hread
    rw [ht] at hfind ⊢
    exact Only.put _ htree (htree.third _ _ _ _ hfind).2 _ now

/-- The rest of `rotate` once the name of the rotation is known. -/
theorem wp_rotate_rest {rest : List Char} {m : Names} (hm : resolve m.path = p.path (root s) rest)
    (rotation : Int) {st : St} (htree : Tree (root s) st.files) :
    ((files (fun fs => (fs.pathExists m.path, fs))).bind fun found =>
      if found then (.ret m : App Names)
      else (files (fun fs => fs.create m.path [] e.chance.now)).bind fun _ =>
        (files (fun fs => (fs.read n.path, fs))).bind fun content =>
        match content.bind (fun c => e.lib.rotate c rotation) with
        | none => .throw .magick
        | some bytes =>
            (files (fun fs => ((), fs.writeAt m.path 0 bytes e.chance.now))).bind fun _ => .ret m).wp calls
      (fun _ st' => Only (root s) (· = p.path (root s) rest) st st')
      (fun _ st' => Only (root s) (· = p.path (root s) rest) st st' ∧
        ∀ content, (st.files.create m.path [] e.chance.now).2.read n.path = some content →
          e.lib.rotate content rotation = none) st := by
  have hcreate := only_create htree hm [] e.chance.now
  rw [Prog.wp_bind, wp_files]
  dsimp only
  split
  · exact only_refl htree
  · rw [Prog.wp_bind, wp_files, Prog.wp_bind, wp_files]
    dsimp only
    split
    · rename_i hnone
      refine ⟨hcreate, fun content hread => ?_⟩
      rw [hread] at hnone
      exact hnone
    · rename_i bytes _
      rw [Prog.wp_bind, wp_files]
      exact (hcreate.trans (only_writeAt hcreate.tree hm 0 bytes e.chance.now)).mono fun _ hq => hq.elim id id

/-- The number in the name of a rotation. -/
def bucket (rotation : Int) : Int :=
  if 4 ≤ rotation.tdiv 90 + 3 then rotation.tdiv 90 + 3 - 4 else rotation.tdiv 90 + 3

/-- The name of a rotation. -/
theorem rotated_text (hext : AcceptedExt ext) (hpath : n.path.toList = p.text s ext)
    (hurl : ∃ pre, n.url.toList = pre ++ ext) (rotation : Int) :
    ∃ m, rotated n rotation = .ret m ∧ m.path.toList = p.text s (rotRest (bucket rotation) ext) := by
  obtain ⟨y, rfl, hdot, -⟩ := hext.eq
  obtain ⟨pre, hurl⟩ := hurl
  have hext : CppBlog.extension n.path = .ret (String.ofList ('.' :: y)) :=
    extension_eq hdot (show n.path.toList =
      (rootText s ++ '/' :: p.a ++ '/' :: p.b ++ '/' :: p.stem) ++ '.' :: y by
        rw [hpath, Place.text]
        simp)
  have hstrip : n.path.toList.take (n.path.length - (String.ofList ('.' :: y)).length) = p.text s [] := by
    have hlen : n.path.length - (String.ofList ('.' :: y)).length = (p.text s []).length := by
      rw [← String.length_toList, ← String.length_toList, String.toList_ofList, hpath]
      simp [Place.text]
      omega
    have happend : n.path.toList = p.text s [] ++ '.' :: y := by rw [hpath]; simp [Place.text]
    rw [hlen, happend, List.take_left']
    rfl
  refine ⟨_, by
    rw [rotated, hext, Prog.ret_bind, extension_eq hdot hurl, Prog.ret_bind], ?_⟩
  dsimp only
  rw [String.toList_append, String.toList_append, String.toList_append, String.toList_ofList, hstrip]
  simp [Place.text, rotRest, bucket]

theorem rotated_eq (hnamed : Named s p ext n) (rotation : Int) :
    ∃ m, rotated n rotation = .ret m ∧ resolve m.path = p.path (root s) (rotRest (bucket rotation) ext) := by
  obtain ⟨m, hret, htext⟩ := rotated_text hnamed.accepted hnamed.path hnamed.url rotation
  exact ⟨m, hret, resolve_text hnamed.rooted hnamed.valid (rest_rot _ hnamed.accepted) htext⟩

/-- A rotation writes under its own name, and fails only if the image cannot be rotated. -/
theorem wp_rotate (hnamed : Named s p ext n) (rotation : Int) {st : St} (htree : Tree (root s) st.files) :
    (rotate e n rotation).wp calls
      (fun _ st' => ∃ r, Only (root s) (· = p.path (root s) (rotRest r ext)) st st')
      (fun _ st' => (∃ r, Only (root s) (· = p.path (root s) (rotRest r ext)) st st') ∧
        ∀ content mtime, st.files.find (p.path (root s) ext) = some (.file content mtime) →
          e.lib.rotate content rotation = none) st := by
  obtain ⟨m, hret, hm⟩ := rotated_eq hnamed rotation
  rw [rotate, hret, Prog.ret_bind]
  refine Prog.wp_mono (fun _ _ h => ⟨bucket rotation, h⟩) (fun _ _ h => ?_)
    (wp_rotate_rest (e := e) (n := n) hm rotation htree)
  refine ⟨⟨bucket rotation, h.1⟩, fun content mtime hfind => h.2 content (Files.read_of_find mtime ?_)⟩
  have hne : p.path (root s) ext ≠ p.path (root s) (rotRest (bucket rotation) ext) := by
    intro heq
    have hlength := congrArg List.length (Place.path_inj heq).2.2
    simp only [rotRest, List.length_append] at hlength
    have hr : "-r".toList.length = 2 := rfl
    omega
  rw [hnamed.resolve_path]
  have hcreate := only_create htree hm [] e.chance.now
  exact (hcreate.same _ _ _ hne).trans hfind

/-! ## Requests -/

/-- The shared part of the page leaves files and response alone. -/
theorem wp_adminPrepare {Q : AdminContent → St → Prop} {E : Error → St → Prop} {st : St}
    (hQ : ∀ c st', st'.files = st.files → st'.own.response = st.own.response → Q c st')
    (hE : ∀ err st', st'.files = st.files → st'.own.response = st.own.response → E err st') :
    adminPrepare.wp calls Q E st :=
  Prog.wp_mono (fun c st' h => hQ c st' h.1.files h.2) (fun err st' h => hE err st' h.1.files h.2)
    (Prog.wp_and (readOnly_adminPrepare (R := Reads) st) (SameResponse.adminPrepare st))

theorem wp_answer {status : Bool} {fields : List (String × String)} {Q : Unit → St → Prop}
    {E : Error → St → Prop} {st : St}
    (h : ∀ st', st'.files = st.files →
      st'.own.response.body = st.own.response.body ++ [.json status fields] → Q () st') :
    (answer status fields).wp calls Q E st := by
  rw [answer, Prog.wp_bind, setHeader, wp_modifyResponse, wp_write]
  exact h _ rfl rfl

/-- The names of an upload that passed the checks. -/
theorem wp_names {α : Type} {hash ext : String} (hs : Rooted e.settings) (hhash : isHex hash = true)
    (hext : AcceptedExt ext.toList) (size : Nat) {f : Names → App α} {Q : α → St → Prop}
    {E : Error → St → Prop} {st : St} (hthrow : ∀ err, E err st)
    (hret : ∀ n, Named e.settings (place hash size) ext.toList n → (f n).wp calls Q E st) :
    ((names e hash ext size).bind f).wp calls Q E st := by
  by_cases h4 : 4 ≤ hash.length
  · obtain ⟨n, h, hbase, hpath, hurl⟩ := names_eq_ret e h4 ext size
    rw [h]
    exact hret n ⟨hs, valid_place hhash h4 size, hext, hbase, hpath, hurl⟩
  · have h := names_eq_throw e (Nat.not_le.1 h4) ext size
    rw [h]
    exact hthrow .outOfRange

-- From here on the names are what `wp_names` says; unfolding them would evaluate the hash.
attribute [local irreducible] names transfer

/-- The last part of a request: the rotation and the answer. -/
theorem wp_finish (hnamed : Named e.settings p ext n) (r : Bool × List (String × String) × Bool)
    (rotation : Int) {st : St} (h : Sound md5 (root e.settings) st.files) :
    (if r.2.2 = true ∧ rotation ≠ 0 then
      (rotate e n rotation).bind fun m =>
      answer r.1 (r.2.1.map (fun f => if f.1 = "fileUrl" then ("fileUrl", m.url) else f))
    else answer r.1 r.2.1).wp calls (fun _ st' => Sound md5 (root e.settings) st'.files)
      (fun _ st' => Sound md5 (root e.settings) st'.files) st := by
  have hanswer (fields : List (String × String)) {st₁ : St} (h₁ : Sound md5 (root e.settings) st₁.files) :
      (answer r.1 fields).wp calls (fun _ st' => Sound md5 (root e.settings) st'.files)
        (fun _ st' => Sound md5 (root e.settings) st'.files) st₁ :=
    wp_answer fun st' hfiles _ => hfiles ▸ h₁
  have hrot {st₁ : St} (honly : ∃ r, Only (root e.settings) (· = p.path (root e.settings) (rotRest r ext)) st st₁) :
      Sound md5 (root e.settings) st₁.files := by
    obtain ⟨i, honly⟩ := honly
    refine h.only honly fun a b w hq => .inl ?_
    obtain ⟨-, -, rfl⟩ := path_components hq
    exact not_finalName_rot hnamed.valid i ext
  split
  · exact Prog.wp_seq (wp_rotate hnamed rotation h.tree) (fun m st₁ honly => hanswer _ (hrot honly))
      (fun _ st₁ honly => hrot honly.1)
  · exact hanswer _ h

/-- **Every upload request keeps the files what their names say**, however it ends. -/
theorem wp_prepare_sound (e : Env) (hs : Rooted e.settings) {st : St}
    (h : Sound e.lib.md5 (root e.settings) st.files) :
    (prepare e).wp calls (fun _ st' => Sound e.lib.md5 (root e.settings) st'.files)
      (fun _ st' => Sound e.lib.md5 (root e.settings) st'.files) st := by
  unfold prepare
  dsimp only
  split
  · exact wp_answer fun st' hfiles _ => hfiles ▸ h
  rename_i hparams
  split
  · exact wp_answer fun st' hfiles _ => hfiles ▸ h
  rename_i hname
  simp only [not_or, not_not] at hparams hname
  obtain ⟨ext, hext, haccepted⟩ := extension_of_acceptedName hname
  rw [transfer, hext, Prog.ret_bind, Prog.wp_bind]
  refine wp_adminPrepare (fun c st₁ hfiles _ => ?_) (fun _ st₁ hfiles _ => hfiles ▸ h)
  have h₁ : Sound e.lib.md5 (root e.settings) st₁.files := hfiles ▸ h
  refine wp_names hs hparams.2.1 haccepted _ (fun _ => h₁) fun n hnamed => ?_
  refine Prog.wp_seq (R := fun _ st' => Sound e.lib.md5 (root e.settings) st'.files) ?_
    (fun r st₂ h₂ => wp_finish hnamed r _ h₂)
    (fun _ st' (h : Sound e.lib.md5 (root e.settings) st'.files) => h)
  split
  · exact wp_submit hparams.2.1 hnamed rfl _ _ h₁
  · rw [ask, Prog.wp_bind, wp_files]
    dsimp only
    split <;> exact h₁

end

/-! ## What a query is told -/

instance : AllowsFiles SameResponse where
  files _ := fun _ => wp_files.2 rfl

/-- A response says that a file exists. -/
def Tells (r : Response) : Prop :=
  ∃ status fields, Output.json status fields ∈ r.body ∧ ("exists", "true") ∈ fields

/-- The file a request asks for is there, with the size it names. -/
def Stored (e : Env) (fs : Files) (content : List UInt8) : Prop :=
  isHex (postOrGet e "md5") = true ∧ ∃ ext mtime,
    CppBlog.extension (postOrGet e "name") = .ret ext ∧ AcceptedExt ext.toList ∧
    fs.find ((place (postOrGet e "md5") (toSize (postOrGetLong e "size" 0))).path (root e.settings) ext.toList) =
      some (.file content mtime) ∧ content.length = toSize (postOrGetLong e "size" 0)

theorem mem_fileFields {b : Bool} {n : Names} {name message : String} {size : Nat}
    (h : ("exists", "true") ∈ fileFields b n name size message) : b = true := by
  cases b
  · exact absurd h (by simp [fileFields, show toString false = "false" from rfl])
  · rfl

section
variable {e : Env} {st : St}

attribute [local irreducible] names transfer

/-- An answer is all that a request writes. -/
theorem wp_answer_tells {status : Bool} {fields : List (String × String)} {P : Prop}
    (hbody : st.own.response.body = []) (h : ("exists", "true") ∈ fields → P) :
    (answer status fields).wp calls (fun _ st' => Tells st'.own.response → P)
      (fun _ st' => st'.own.response.body = []) st := by
  refine wp_answer fun st' _ hresponse => ?_
  rintro ⟨status', fields', hmem, hexists⟩
  rw [hresponse, hbody, List.nil_append, List.mem_singleton] at hmem
  obtain ⟨-, rfl⟩ := Output.json.inj hmem
  exact h hexists

/-- **A query is told that a file exists only if it is there with that size.** -/
theorem wp_prepare_ask (hs : Rooted e.settings) (hmethod : e.req.method ≠ "POST")
    (hbody : st.own.response.body = []) :
    (prepare e).wp calls (fun _ st' => Tells st'.own.response → ∃ content, Stored e st.files content)
      (fun _ st' => st'.own.response.body = []) st := by
  unfold prepare
  dsimp only
  split
  · exact wp_answer_tells hbody fun h => absurd h (by simp)
  rename_i hparams
  split
  · exact wp_answer_tells hbody fun h => absurd h (by simp)
  rename_i hname
  simp only [not_or, not_not] at hparams hname
  obtain ⟨ext, hext, haccepted⟩ := extension_of_acceptedName hname
  rw [transfer, hext, Prog.ret_bind, Prog.wp_bind]
  refine wp_adminPrepare (fun c st₁ hfiles hresponse => ?_) (fun _ st₁ _ hresponse => hresponse ▸ hbody)
  have hbody₁ : st₁.own.response.body = [] := hresponse ▸ hbody
  refine wp_names hs hparams.2.1 haccepted _ (fun _ => hbody₁) fun n hnamed => ?_
  rw [if_neg hmethod, ask, Prog.wp_bind, Prog.wp_bind, wp_files]
  dsimp only
  have hstored (h : (st₁.files.read n.path).map List.length = some (toSize (postOrGetLong e "size" 0))) :
      ∃ content, Stored e st.files content := by
    obtain ⟨content, hread, hlen⟩ := Option.map_eq_some_iff.1 h
    obtain ⟨mtime, hfind⟩ := Files.find_of_read hread
    exact ⟨content, hparams.2.1, ext, mtime, hext, haccepted, by rw [← hfiles, ← hnamed.resolve_path, hfind], hlen⟩
  -- the answer for a file that is there may carry the address of a rotation instead
  have hrest (b : Bool) (message : String) (hb : b = true → ∃ content, Stored e st.files content)
      (rotation : Int) : (if b = true ∧ rotation ≠ 0 then
        (rotate e n rotation).bind fun m =>
        answer true ((fileFields b n (postOrGet e "name") (toSize (postOrGetLong e "size" 0)) message).map
          (fun f => if f.1 = "fileUrl" then ("fileUrl", m.url) else f))
      else answer true (fileFields b n (postOrGet e "name") (toSize (postOrGetLong e "size" 0)) message)).wp
        calls (fun _ st' => Tells st'.own.response → ∃ content, Stored e st.files content)
        (fun _ st' => st'.own.response.body = []) st₁ := by
    split
    · rename_i h
      refine Prog.wp_seq ((OnFiles.rotate e n rotation).within (R := SameResponse) st₁) (fun m st₂ h₂ => ?_)
        (fun _ st₂ h₂ => ?_)
      · exact wp_answer_tells (by rw [h₂, hbody₁]) fun _ => hb h.1
      · rw [h₂, hbody₁]
    · exact wp_answer_tells hbody₁ fun hmem => hb (mem_fileFields hmem)
  split
  · rename_i h
    exact hrest true _ (fun _ => hstored h) _
  · exact hrest false _ (fun h => absurd h (by decide)) ((postOrGetInt e "rotation" 0).tmod 360)

end

/-! ## Runs -/

/-- An upload request with everything it meets but the files. -/
structure Turn where
  arrival : Arrival
  db : Db
  cache : Cache
  l : Local

/-- How the handler of a request ends on the files it meets. -/
def Turn.outcome (site : Site) (t : Turn) (fs : Files) : Except Error Unit × (Shared × Local) :=
  (prepare (site.env t.arrival)).run handle ({ db := t.db, cache := t.cache, files := fs }, t.l)

/-- The files after requests handled one at a time. -/
def afterTurns (site : Site) (turns : List Turn) (fs : Files) : Files :=
  turns.foldl (fun fs t => (t.outcome site fs).2.1.files) fs

/-- The directory of the uploads is there and empty. -/
def EmptyDir (r : Path) (fs : Files) : Prop :=
  fs.find r = some .dir ∧ ∀ w ws, fs.find (r ++ w :: ws) = none

theorem EmptyDir.sound {md5 : List UInt8 → String} {r : Path} {fs : Files} (h : EmptyDir r fs) :
    Sound md5 r fs := by
  have hnone (w : List Char) (ws : Path) {n : Node} (hn : fs.find (r ++ w :: ws) = some n) : False := by
    rw [h.2] at hn
    exact absurd hn (by simp)
  exact ⟨⟨h.1, fun a n hn => (hnone _ _ hn).elim, fun a b n hn => (hnone _ _ hn).elim,
    fun a b x n hn => (hnone _ _ hn).elim⟩, fun a b w content mtime hn => (hnone _ _ hn).elim⟩

/-- What a request does to the files. -/
theorem Turn.sound {site : Site} (hs : Rooted site.settings) (t : Turn) {fs : Files}
    (h : Sound site.lib.md5 (root site.settings) fs) :
    Sound site.lib.md5 (root site.settings) (t.outcome site fs).2.1.files := by
  have hends := Prog.wp_run (M := calls) handle viewOf (fun o c => outcome_handle o c)
    (c := ({ db := t.db, cache := t.cache, files := fs }, t.l)) (wp_prepare_sound (site.env t.arrival) hs h)
  exact hends.of_both (P := fun st : St => Sound site.lib.md5 (root site.settings) st.files)

theorem afterTurns_sound {site : Site} (hs : Rooted site.settings) (turns : List Turn) {fs : Files}
    (h : Sound site.lib.md5 (root site.settings) fs) :
    Sound site.lib.md5 (root site.settings) (afterTurns site turns fs) := by
  induction turns generalizing fs with
  | nil => exact h
  | cons t turns ih => exact ih (t.sound hs h)

/-- An exception leaves an error page, which tells nothing. -/
theorem ends_tells {P : Prop} {r : Except Error Unit} {m : Shared × Local}
    (h : Prog.Ends (fun _ st => Tells st.own.response → P) (fun _ st => st.own.response.body = []) r (viewOf m))
    (htells : Tells (finish r m.2.own.response)) : P := by
  cases r with
  | ok _ => exact h htells
  | error err =>
    have hbody : m.2.own.response.body = [] := h
    obtain ⟨status, fields, hmem, -⟩ := htells
    simp [finish, hbody] at hmem

/-- **Uploads are what their paths say.** After every sequence of upload requests from an empty directory
    a file of the final form has the hash and the size in its path, and a query is told that a file exists
    only if the file it names is there with that hash and size. -/
theorem afterTurns_genuine {site : Site} {fs : Files} (hs : Rooted site.settings)
    (hempty : EmptyDir (root site.settings) fs) (turns : List Turn) :
    (∀ a b c h ext content mtime, Hex c → Hex h → AcceptedExt ext →
      (afterTurns site turns fs).find (root site.settings ++ [a, b, c ++ '-' :: h ++ ext]) =
        some (.file content mtime) →
      (site.lib.md5 content).toList = a ++ b ++ c ∧ h = Nat.toDigits 16 content.length) ∧
    ∀ t : Turn, t.arrival.req.method ≠ "POST" → t.l.own.response = {} →
      Tells (finish (t.outcome site (afterTurns site turns fs)).1
        (t.outcome site (afterTurns site turns fs)).2.2.own.response) →
      ∃ content, Stored (site.env t.arrival) (afterTurns site turns fs) content ∧
        site.lib.md5 content = postOrGet (site.env t.arrival) "md5" := by
  have hsound := afterTurns_sound hs turns hempty.sound
  have hgenuine (a b c h ext : List Char) (content : List UInt8) (mtime : Nat) (hc : Hex c) (hh : Hex h)
      (hext : AcceptedExt ext) (hfind : (afterTurns site turns fs).find
        (root site.settings ++ [a, b, c ++ '-' :: h ++ ext]) = some (.file content mtime)) :
      (site.lib.md5 content).toList = a ++ b ++ c ∧ h = Nat.toDigits 16 content.length :=
    hsound.genuine a b _ content mtime hfind c h ext hc hh hext rfl
  refine ⟨hgenuine, fun t hmethod hfresh htells => ?_⟩
  have hends := Prog.wp_run (M := calls) handle viewOf (fun o c => outcome_handle o c)
    (c := ({ db := t.db, cache := t.cache, files := afterTurns site turns fs }, t.l))
    (wp_prepare_ask (e := site.env t.arrival) hs hmethod (congrArg Response.body hfresh))
  obtain ⟨content, hstored⟩ := ends_tells hends htells
  refine ⟨content, hstored, ?_⟩
  obtain ⟨hhash, ext, mtime, -, haccepted, hfind, -⟩ := hstored
  have hmd5 := (hgenuine _ _ _ _ _ content mtime
    (fun c hc => hex_of_isHex hhash c (List.mem_of_mem_drop hc)) (hex_toDigits _) haccepted hfind).1
  exact String.toList_inj.1 (hmd5.trans (toList_eq_take_drop _).symm)

theorem emptyDir_single (r : Path) : EmptyDir r [(r, .dir)] := by
  refine ⟨by rw [Files.find_cons, if_pos rfl], fun w ws => ?_⟩
  have hne : r ++ w :: ws ≠ r := fun heq => absurd (congrArg List.length heq) (by simp)
  rw [Files.find_cons, if_neg hne]
  rfl

/-- A site whose digests are those of a file of one byte. -/
def oneByteSite : Site where
  settings := {}
  lib := { Site.sample.lib with md5 := fun content =>
    if content = [97] then "0cc175b9c0f1b6a831c399e269772661" else "d41d8cd98f00b204e9800998ecf8427e" }

/-- A request about that file on a configured site. -/
def oneByteTurn (method : String) (files : List (List UInt8)) (fields : List (String × String)) : Turn where
  arrival := { req := {
    sid := "a", path := "/admin/upload", method := method, files := files
    post := if method = "POST" then fields else []
    get := if method = "POST" then [] else fields } }
  db := (run oneByteSite [.request (Arrival.configure "a" "alice")] (World.fresh [])).shared.db
  cache := []
  l := {}

def oneByteFields : List (String × String) :=
  [("md5", "0cc175b9c0f1b6a831c399e269772661"), ("name", "a.txt"), ("size", "1")]

theorem afterTurns_genuine_one :
    ∃ content, Stored (oneByteSite.env (oneByteTurn "GET" [] oneByteFields).arrival)
      (afterTurns oneByteSite [oneByteTurn "POST" [[97]] oneByteFields] [(root {}, .dir)]) content ∧
      oneByteSite.lib.md5 content = "0cc175b9c0f1b6a831c399e269772661" :=
  (@afterTurns_genuine oneByteSite _ (show '\x00' ∉ rootText {} by decide) (emptyDir_single _)
    [oneByteTurn "POST" [[97]] oneByteFields]).2 (oneByteTurn "GET" [] oneByteFields) (by decide) rfl
    ⟨true, fileFields true ⟨"", "", "/media/upload/0c/c1/75b9c0f1b6a831c399e269772661-1.txt"⟩ "a.txt" 1
      "Successful transmission in seconds!", by decide +kernel, by decide⟩

end Upload

end CppBlog
