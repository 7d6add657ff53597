import CppBlog.Assembly

set_option autoImplicit false

/-! # What an upload does to a file that is there

An upload writes over the file it names before it knows whether the new bytes are right, and removes it
when they are not. Here is what one request leaves of a file that has the hash and the size of its
name. -/

namespace CppBlog

open Effect Store App Text

namespace Upload

/-! ## The bytes that take the place of the file -/

/-- The bytes of a file. -/
def contentAt (fs : Files) (q : Path) : Option (List UInt8) :=
  match fs.find q with
  | some (.file content _) => some content
  | _ => none

/-- A part, once the posted one is saved. -/
def partAt (s : Settings) (p : Place) (fs : Files) (posted : List UInt8) (chunk i : Nat) :
    Option (List UInt8) :=
  if i = chunk then some posted else contentAt fs (p.path (root s) (partRest i))

/-- What a posted file makes of the complete one: in one piece it is the complete file, as a part it
    completes the file when all parts are there. No part at all is all of no parts. -/
def incoming (s : Settings) (p : Place) (fs : Files) (posted : List UInt8) (chunk chunks : Nat) :
    Option (List UInt8) :=
  if chunks = 1 then some posted
  else if ∀ i < chunks, (partAt s p fs posted chunk i).isSome = true then
    some ((List.range chunks).flatMap fun i => (partAt s p fs posted chunk i).getD [])
  else none

/-- What a request makes of the complete file. -/
def arriving (e : Env) (p : Place) (fs : Files) : Option (List UInt8) :=
  match e.req.files with
  | [posted] => incoming e.settings p fs posted (toSize (postOrGetLong e "chunk" 0))
      (toSize (postOrGetLong e "chunks" 1))
  | _ => none

/-- What is left under the name of the file: new bytes stay if they are what the name says. -/
def Leaves (md5 : List UInt8 → String) (hash : String) (size : Nat) (new : Option (List UInt8))
    (before after : Option Node) : Prop :=
  match new with
  | none => after = before
  | some bytes =>
      if hash = md5 bytes ∧ size = bytes.length then ∃ mtime, after = some (.file bytes mtime)
      else after = none

section
variable {e : Env} {s : Settings} {p : Place} {ext : List Char} {n : Names} {st st' : St}

theorem contentAt_eq {fs : Files} {q : Path} {content : List UInt8} {mtime : Nat}
    (h : fs.find q = some (.file content mtime)) : contentAt fs q = some content := by
  rw [contentAt, h]

/-- After the posted part is saved, the parts are what `partAt` says. -/
theorem contentAt_saved {posted : List UInt8} {chunk : Nat}
    (honly : Only (root s) (fun q => q = p.path (root s) (lockRest chunk) ∨
      q = p.path (root s) (partRest chunk)) st st')
    (hsaved : ∃ mtime, st'.files.find (p.path (root s) (partRest chunk)) = some (.file posted mtime)) (i : Nat) :
    contentAt st'.files (p.path (root s) (partRest i)) = partAt s p st.files posted chunk i := by
  unfold partAt
  split
  · rename_i hi
    subst hi
    obtain ⟨mtime, hsaved⟩ := hsaved
    exact contentAt_eq hsaved
  · rename_i hi
    have hsame : st'.files.find (p.path (root s) (partRest i)) = st.files.find (p.path (root s) (partRest i)) := by
      refine honly.same _ _ _ ?_
      rintro (heq | heq)
      · exact part_ne_lock _ _ _ _ (Place.path_inj heq).2.2
      · exact path_part_ne hi heq
    rw [contentAt, contentAt, hsame]

/-- The parts that were joined are those that arrive, -/
theorem incoming_of_parts {posted : List UInt8} {chunk chunks : Nat} {fs : Files} {f : Nat → List UInt8}
    (hchunks : chunks ≠ 1)
    (hparts : ∀ i, contentAt st'.files (p.path (root s) (partRest i)) = partAt s p fs posted chunk i)
    (hf : Parts s p f 0 chunks st'.files) :
    incoming s p fs posted chunk chunks = some ((List.range' 0 chunks).flatMap f) := by
  have hpart (i : Nat) (hi : i < chunks) : partAt s p fs posted chunk i = some (f i) := by
    obtain ⟨mtime, hfind⟩ := hf i (Nat.zero_le i) (by omega)
    rw [← hparts, contentAt_eq hfind]
  rw [incoming, if_neg hchunks, if_pos fun i hi => by rw [hpart i hi]; rfl, ← List.range_eq_range']
  refine congrArg some (List.flatMap_congr fun i hi => ?_)
  rw [hpart i (List.mem_range.1 hi)]
  rfl

/-- and when a part is missing, nothing does. -/
theorem incoming_of_missing {posted : List UInt8} {chunk chunks : Nat} {fs : Files}
    (hchunks : chunks ≠ 1)
    (hparts : ∀ i, contentAt st'.files (p.path (root s) (partRest i)) = partAt s p fs posted chunk i)
    (hmissing : ∀ f, ¬Parts s p f 0 chunks st'.files) : incoming s p fs posted chunk chunks = none := by
  rw [incoming, if_neg hchunks, if_neg]
  intro hall
  refine hmissing (fun i => (partAt s p fs posted chunk i).getD []) fun i _ hi => ?_
  obtain ⟨bytes, hbytes⟩ := Option.isSome_iff_exists.1 (hall i (by omega))
  have hcontent := (hparts i).trans hbytes
  unfold contentAt at hcontent
  split at hcontent
  · rename_i content mtime hfind
    obtain rfl := Option.some.inj hcontent
    refine ⟨mtime, ?_⟩
    dsimp only
    rw [hfind, hbytes]
    rfl
  · exact absurd hcontent (by simp)

/-! ## One request -/

/-- A path of the final form. -/
def IsFinal (s : Settings) (q : Path) : Prop :=
  ∃ (p : Place) (ext : List Char), p.Valid ∧ AcceptedExt ext ∧ q = p.path (root s) ext

/-- Of the files of the final form only that under one path changes. -/
def SameFinals (s : Settings) (q₀ : Path) (fs fs' : Files) : Prop :=
  ∀ q, IsFinal s q → q ≠ q₀ → fs'.find q = fs.find q

theorem finalName_stem (hp : p.Valid) (hext : AcceptedExt ext) : FinalName (p.stem ++ ext) := by
  obtain ⟨c, h, hc, hh, hstem⟩ := hp.stem
  exact ⟨c, h, ext, hc, hh, hext, by rw [hstem]⟩

/-- A file of the final form is not one of those a change is about, unless it is that of the place. -/
theorem Only.find_final {q₀ : Path} {c : Path → Prop} (honly : Only (root s) c st st')
    (hc : ∀ a b w, c (root s ++ [a, b, w]) → root s ++ [a, b, w] = q₀ ∨ ¬FinalName w) :
    SameFinals s q₀ st.files st'.files := by
  intro q hq hne
  obtain ⟨p', ext', hp', hext', hq⟩ := hq
  rw [hq]
  refine honly.same p'.a p'.b (p'.stem ++ ext') fun hcq => ?_
  rcases hc p'.a p'.b (p'.stem ++ ext') hcq with h | h
  · exact hne (hq.trans h)
  · exact h (finalName_stem hp' hext')

theorem SameFinals.trans {q₀ : Path} {fs₁ fs₂ fs₃ : Files} (h : SameFinals s q₀ fs₁ fs₂)
    (h' : SameFinals s q₀ fs₂ fs₃) : SameFinals s q₀ fs₁ fs₃ :=
  fun q hq hne => (h' q hq hne).trans (h q hq hne)

/-- What `receive` makes of the file and of the others. -/
theorem wp_receive_incoming (hnamed : Named s p ext n) (posted : List UInt8) (chunk chunks : Nat)
    (htree : Tree (root s) st.files) :
    (receive e n posted chunk chunks).wp calls
      (fun r st' => r = incoming s p st.files posted chunk chunks ∧ Tree (root s) st'.files ∧
        SameFinals s (p.path (root s) ext) st.files st'.files ∧
        match r with
        | none => st'.files.find (p.path (root s) ext) = st.files.find (p.path (root s) ext)
        | some bytes => ∃ mtime, st'.files.find (p.path (root s) ext) = some (.file bytes mtime))
      (fun _ _ => False) st := by
  by_cases hchunks : chunks = 1
  · subst hchunks
    refine Prog.wp_mono (fun r st₁ h₁ => ?_) (fun _ _ h => h) (wp_receive_whole e hnamed posted chunk htree)
    obtain ⟨rfl, honly, hfinal⟩ := h₁
    exact ⟨(if_pos rfl).symm, honly.tree, honly.find_final fun _ _ _ h => .inl h, hfinal⟩
  · refine Prog.wp_mono (fun r st₂ h₂ => ?_) (fun _ _ h => h)
      (wp_receive_parts e hnamed posted hchunks htree)
    obtain ⟨st₁, hsaved, hpart, hr⟩ := h₂
    have hparts := contentAt_saved hsaved hpart
    have hsame₁ : SameFinals s (p.path (root s) ext) st.files st₁.files := by
      refine hsaved.find_final fun a b w h => .inr ?_
      rcases h with h | h
      · obtain ⟨-, -, rfl⟩ := path_components h
        exact not_finalName_lock _ _
      · obtain ⟨-, -, rfl⟩ := path_components h
        exact not_finalName_part _ _
    have hfinal₁ : st₁.files.find (p.path (root s) ext) = st.files.find (p.path (root s) ext) := by
      refine hsaved.same _ _ _ ?_
      rintro (heq | heq)
      · exact hnamed.accepted.ne_lock _ _ _ (Place.path_inj heq).2.2
      · exact path_ext_ne_part hnamed chunk heq
    rcases hr with ⟨rfl, rfl, hmissing⟩ | ⟨f, bytes, hf, rfl, rfl, honly, hfinal, -⟩
    · exact ⟨(incoming_of_missing hchunks hparts hmissing).symm, hsaved.tree, hsame₁, hfinal₁⟩
    · refine ⟨(incoming_of_parts hchunks hparts hf).symm, honly.tree, hsame₁.trans ?_, hfinal⟩
      refine honly.find_final fun a b w h => ?_
      rcases h with h | ⟨j, -, h⟩
      · exact .inl h
      · obtain ⟨-, -, rfl⟩ := path_components h
        exact .inr (not_finalName_part _ _)

/-- The check behind `receive`. -/
theorem wp_submit_leaves {hash name : String} {size : Nat}
    (hnamed : Named e.settings (place hash size) ext n) (htree : Tree (root e.settings) st.files) :
    (submit e n hash name size (toSize (postOrGetLong e "chunk" 0)) (toSize (postOrGetLong e "chunks" 1))).wp
      calls (fun _ st' => Tree (root e.settings) st'.files ∧
        SameFinals e.settings ((place hash size).path (root e.settings) ext) st.files st'.files ∧
        Leaves e.lib.md5 hash size (arriving e (place hash size) st.files)
          (st.files.find ((place hash size).path (root e.settings) ext))
          (st'.files.find ((place hash size).path (root e.settings) ext)))
      (fun _ _ => False) st := by
  unfold submit
  split
  · rename_i posted hposted
    have harriving : arriving e (place hash size) st.files = incoming e.settings (place hash size) st.files posted
        (toSize (postOrGetLong e "chunk" 0)) (toSize (postOrGetLong e "chunks" 1)) := by
      rw [arriving, hposted]
    rw [harriving]
    refine Prog.wp_seq (wp_receive_incoming hnamed posted _ _ htree) (fun r st₁ h₁ => ?_) (fun _ _ h => h)
    obtain ⟨hr, htree₁, hsame, hfinal⟩ := h₁
    rw [← hr]
    cases r with
    | none => exact ⟨htree₁, hsame, hfinal⟩
    | some bytes =>
      obtain ⟨mtime, hfinal⟩ := hfinal
      have hread : (st₁.files.read n.path).map List.length = some bytes.length := by
        rw [Files.read_of_find _ (by rw [hnamed.resolve_path, hfinal])]
        rfl
      rw [Prog.wp_bind, wp_files]
      dsimp only
      rw [hread]
      split
      · rename_i hbad
        rw [Prog.wp_bind, wp_files]
        have hunlink : st₁.files.unlink n.path =
            st₁.files.remove ((place hash size).path (root e.settings) ext) := by
          rw [Files.unlink, hnamed.resolve_path, hfinal]
        have hremove := Only.remove (p := place hash size) ext htree₁
        dsimp only
        rw [hunlink]
        refine ⟨hremove.tree, hsame.trans (hremove.find_final fun _ _ _ h => .inl h), ?_⟩
        rw [Leaves, if_neg, Files.find_remove, if_pos rfl]
        rintro ⟨hmd5, hsize⟩
        exact hbad.elim (fun h => h hmd5) fun h => h (congrArg some hsize.symm)
      · rename_i hok
        rw [not_or, not_not, not_not] at hok
        refine ⟨htree₁, hsame, ?_⟩
        rw [Leaves, if_pos ⟨hok.1, (Option.some.inj hok.2).symm⟩]
        exact ⟨mtime, hfinal⟩
  · rename_i hfiles
    have harriving : arriving e (place hash size) st.files = none := by
      unfold arriving
      split
      · rename_i posted hposted
        exact absurd hposted (hfiles posted)
      · rfl
    rw [harriving]
    exact ⟨htree, fun _ _ _ => rfl, rfl⟩

/-- The end of a request changes no file of the final form. -/
theorem wp_conclude (hnamed : Named e.settings p ext n) (rotation : Int)
    (r : Bool × List (String × String) × Bool) (htree : Tree (root e.settings) st.files) :
    (conclude e n rotation r).wp calls
      (fun _ st' => ∀ q, IsFinal e.settings q → st'.files.find q = st.files.find q)
      (fun _ st' => ∀ q, IsFinal e.settings q → st'.files.find q = st.files.find q) st := by
  have hrotated {st₁ : St}
      (h : ∃ i, Only (root e.settings) (· = p.path (root e.settings) (rotRest i ext)) st st₁) (q : Path)
      (hq : IsFinal e.settings q) : st₁.files.find q = st.files.find q := by
    obtain ⟨i, honly⟩ := h
    have hsame : SameFinals e.settings (p.path (root e.settings) (rotRest i ext)) st.files st₁.files :=
      honly.find_final fun _ _ _ h => .inl h
    refine hsame q hq fun heq => ?_
    obtain ⟨p', ext', hp', hext', hpath⟩ := hq
    refine not_finalName_rot hnamed.valid i ext ?_
    rw [← (Place.path_inj (hpath.symm.trans heq)).2.2]
    exact finalName_stem hp' hext'
  unfold conclude
  split
  · refine Prog.wp_seq (wp_rotate hnamed rotation htree) (fun m st₁ h₁ => ?_) (fun _ _ h => hrotated h.1)
    exact wp_answer fun st' hfiles _ q hq => hfiles ▸ hrotated h₁ q hq
  · exact wp_answer fun st' hfiles _ q _ => by rw [hfiles]

/-- The request is one that stores: a `POST` with good parameters behind a shared part that lets it pass. -/
structure Reaches (e : Env) (m : Shared × Local) : Prop where
  method : e.req.method = "POST"
  md5 : isHex (postOrGet e "md5") = true ∧ 4 ≤ (postOrGet e "md5").length
  name : acceptedName (postOrGet e "name") = true
  size : toSize (postOrGetLong e "size" 0) ≠ 0
  admitted : ∃ c, (adminPrepare.run handle m).1 = .ok c

/-- The path of the file a request is about. -/
def target (e : Env) (ext : List Char) : Path :=
  (place (postOrGet e "md5") (toSize (postOrGetLong e "size" 0))).path (root e.settings) ext

/-- The new bytes are checked under the path the request is about; the other files stay. -/
structure Landed (e : Env) (ext : List Char) (fs fs' : Files) : Prop where
  others : SameFinals e.settings (target e ext) fs fs'
  leaves : Leaves e.lib.md5 (postOrGet e "md5") (toSize (postOrGetLong e "size" 0))
    (arriving e (place (postOrGet e "md5") (toSize (postOrGetLong e "size" 0))) fs)
    (fs.find (target e ext)) (fs'.find (target e ext))

/-- What a request does behind the shared part. -/
def body (e : Env) (ext : String) : App Unit :=
  (names e (postOrGet e "md5") ext (toSize (postOrGetLong e "size" 0))).bind fun n =>
  (if e.req.method = "POST" then
      submit e n (postOrGet e "md5") (postOrGet e "name") (toSize (postOrGetLong e "size" 0))
        (toSize (postOrGetLong e "chunk" 0)) (toSize (postOrGetLong e "chunks" 1))
    else ask n (postOrGet e "name") (toSize (postOrGetLong e "size" 0))).bind
  (conclude e n ((postOrGetInt e "rotation" 0).tmod 360))

theorem prepare_eq_body {ext : String} (hmd5 : isHex (postOrGet e "md5") = true)
    (hname : acceptedName (postOrGet e "name") = true) (hsize : toSize (postOrGetLong e "size" 0) ≠ 0)
    (hext : CppBlog.extension (postOrGet e "name") = .ret ext) :
    prepare e = adminPrepare.bind fun _ => body e ext := by
  have hne : (postOrGet e "md5").isEmpty = false := by
    unfold isHex at hmd5
    simpa using (Bool.and_eq_true_iff.1 hmd5).1
  unfold prepare
  dsimp only
  rw [if_neg, if_neg, transfer, hext, Prog.ret_bind]
  · rfl
  · simp [hname]
  · rintro (h | h | h | h)
    · exact absurd h (by simp [hne])
    · exact h hmd5
    · exact absurd h (by simp [not_isEmpty_of_acceptedName hname])
    · exact hsize h

attribute [local irreducible] names transfer

/-- What a request that stores does to the files of the final form. -/
theorem wp_body (hs : Rooted e.settings) (hmethod : e.req.method = "POST")
    (hmd5 : isHex (postOrGet e "md5") = true) (h4 : 4 ≤ (postOrGet e "md5").length) {ext : String}
    (hext : AcceptedExt ext.toList) (htree : Tree (root e.settings) st.files) :
    (body e ext).wp calls (fun _ st' => Landed e ext.toList st.files st'.files)
      (fun _ st' => Landed e ext.toList st.files st'.files) st := by
  obtain ⟨n, hnames, hbase, hpath, hurl⟩ := names_eq_ret e h4 ext (toSize (postOrGetLong e "size" 0))
  have hvalid := valid_place hmd5 h4 (toSize (postOrGetLong e "size" 0))
  have hnamed : Named e.settings (place (postOrGet e "md5") (toSize (postOrGetLong e "size" 0))) ext.toList n :=
    ⟨hs, hvalid, hext, hbase, hpath, hurl⟩
  rw [body, hnames, Prog.ret_bind, if_pos hmethod]
  refine Prog.wp_seq (wp_submit_leaves hnamed htree) (fun r st₁ h₁ => ?_) (fun _ _ h => h.elim)
  obtain ⟨htree₁, hsame, hleaves⟩ := h₁
  have hlanded {st₂ : St} (h₂ : ∀ q, IsFinal e.settings q → st₂.files.find q = st₁.files.find q) :
      Landed e ext.toList st.files st₂.files := by
    refine ⟨fun q hq hne => (h₂ q hq).trans (hsame q hq hne), ?_⟩
    rw [h₂ (target e ext.toList) ⟨_, _, hvalid, hext, rfl⟩]
    exact hleaves
  exact Prog.wp_mono (fun _ _ => hlanded) (fun _ _ => hlanded) (wp_conclude hnamed _ r htree₁)

/-- A request that does not store changes no file of the final form. -/
theorem run_of_not_reaches {m : Shared × Local} (hs : Rooted e.settings)
    (htree : Tree (root e.settings) m.1.files) (h : ¬Reaches e m) {q : Path} (hq : IsFinal e.settings q) :
    ((prepare e).run handle m).2.1.files.find q = m.1.files.find q := by
  have hends {Q : St → Prop} (hwp : (prepare e).wp calls (fun _ => Q) (fun _ => Q) (viewOf m)) :
      Q (viewOf ((prepare e).run handle m).2) :=
    (Prog.wp_run (M := calls) handle viewOf (fun o c => outcome_handle o c) hwp).of_both
  by_cases hmethod : e.req.method = "POST"
  swap
  · obtain ⟨p', ext', hp', hext', hpath⟩ := hq
    have honly := hends (wp_prepare_query hs hmethod (show Tree _ (viewOf m).files from htree))
    rw [hpath]
    exact honly.final hp' hext'
  by_cases hchecks : isHex (postOrGet e "md5") = true ∧ acceptedName (postOrGet e "name") = true ∧
      toSize (postOrGetLong e "size" 0) ≠ 0
  swap
  · refine hends (Q := fun st => st.files.find q = m.1.files.find q) ?_
    unfold prepare
    dsimp only
    split
    · exact wp_answer fun st' hfiles _ => by rw [hfiles]; rfl
    rename_i hparams
    split
    · exact wp_answer fun st' hfiles _ => by rw [hfiles]; rfl
    rename_i hname
    simp only [not_or, not_not] at hparams hname
    exact absurd ⟨hparams.2.1, hname, hparams.2.2.2⟩ hchecks
  obtain ⟨hmd5, hname, hsize⟩ := hchecks
  obtain ⟨ext, hext, -⟩ := extension_of_acceptedName hname
  by_cases h4 : 4 ≤ (postOrGet e "md5").length
  · -- the shared part ended the request
    have hfiles : (adminPrepare.run handle m).2.1.files = m.1.files :=
      (Prog.wp_run (M := calls) handle viewOf (fun o c => outcome_handle o c)
        (wp_adminPrepare (Q := fun _ st => st.files = m.1.files) (E := fun _ st => st.files = m.1.files)
          (fun _ _ hfiles _ => hfiles) fun _ _ hfiles _ => hfiles)).of_both
    rw [prepare_eq_body hmd5 hname hsize hext, Prog.run_bind]
    revert hfiles
    cases hrun : adminPrepare.run handle m with
    | mk r m' =>
      intro hfiles
      cases r with
      | ok c => exact absurd ⟨hmethod, ⟨hmd5, h4⟩, hname, hsize, c, by rw [hrun]⟩ h
      | error err => exact congrArg (fun fs : Files => fs.find q) hfiles
  · have hnames := names_eq_throw e (Nat.not_le.1 h4) ext (toSize (postOrGetLong e "size" 0))
    refine hends (Q := fun st => st.files.find q = m.1.files.find q) ?_
    rw [prepare_eq_body hmd5 hname hsize hext, Prog.wp_bind]
    refine wp_adminPrepare (fun c st₁ hfiles _ => ?_) (fun _ _ hfiles _ => by rw [hfiles]; rfl)
    rw [body, hnames]
    show st₁.files.find q = m.1.files.find q
    rw [hfiles]
    rfl

/-- A request that stores. -/
theorem run_of_reaches {m : Shared × Local} (hs : Rooted e.settings)
    (htree : Tree (root e.settings) m.1.files) (h : Reaches e m) {ext : String}
    (hext : CppBlog.extension (postOrGet e "name") = .ret ext) :
    Landed e ext.toList m.1.files ((prepare e).run handle m).2.1.files := by
  obtain ⟨c, hc⟩ := h.admitted
  obtain ⟨ext', hext', haccepted⟩ := extension_of_acceptedName h.name
  obtain rfl := Prog.ret.inj (hext.symm.trans hext')
  rw [prepare_eq_body h.md5.1 h.name h.size hext]
  have hends := ends_admitted hc (f := fun _ => body e ext)
    (Q := fun _ st => Landed e ext.toList m.1.files st.files)
    (E := fun _ st => Landed e ext.toList m.1.files st.files) fun st hfiles _ => by
      have hwp := wp_body hs h.method h.md5.1 h.md5.2 haccepted
        (show Tree _ st.files by rw [hfiles]; exact htree)
      rwa [hfiles] at hwp
  exact hends.of_both (P := fun st : St => Landed e ext.toList m.1.files st.files)

end

/-! ## A file that has the hash and the size of its name -/

/-- The path of a file with its content as the name. -/
def properPath (e : Env) (content : List UInt8) (ext : List Char) : Path :=
  (place (e.lib.md5 content) content.length).path (root e.settings) ext

/-- The request stores under the name of the file, and these are the bytes it makes of it: the posted file
    when it comes in one piece, the parts when all of them are there, none of them when it asks for none. -/
structure Replaces (e : Env) (m : Shared × Local) (content : List UInt8) (ext : List Char)
    (bytes : List UInt8) : Prop where
  reaches : Reaches e m
  md5 : postOrGet e "md5" = e.lib.md5 content
  size : toSize (postOrGetLong e "size" 0) = content.length
  extension : CppBlog.extension (postOrGet e "name") = .ret (String.ofList ext)
  arriving : arriving e (place (e.lib.md5 content) content.length) m.1.files = some bytes

/-- Two uploads that name the same file agree in hash, size and extension. -/
theorem target_inj {e : Env} {content : List UInt8} {ext ext' : List Char}
    (hhex : isHex (e.lib.md5 content) = true) (hext' : AcceptedExt ext') (hext : AcceptedExt ext) (h : properPath e content ext = target e ext') :
    postOrGet e "md5" = e.lib.md5 content ∧ toSize (postOrGetLong e "size" 0) = content.length ∧
      ext = ext' := by
  obtain ⟨ha, hb, hstem⟩ := Place.path_inj h
  have hdrop {w : String} (hw : isHex w = true) : Hex (w.toList.drop 4) :=
    fun c hc => hex_of_isHex hw c (List.mem_of_mem_drop hc)
  have hname : (e.lib.md5 content).toList.drop 4 ++ '-' :: Nat.toDigits 16 content.length ++ ext =
      (postOrGet e "md5").toList.drop 4 ++ '-' :: Nat.toDigits 16 (toSize (postOrGetLong e "size" 0)) ++ ext' :=
    hstem
  obtain ⟨hrest, hdigits⟩ := finalName_inj (hdrop hhex) (hex_toDigits _) hext hext' hname
  refine ⟨String.toList_inj.1 ?_, ?_, ?_⟩
  · rw [toList_eq_take_drop (postOrGet e "md5").toList, toList_eq_take_drop (e.lib.md5 content).toList, hrest]
    exact congrArg (· ++ _) (congrArg₂ (· ++ ·) ha.symm hb.symm)
  · exact (toDigits_hex_injective hdigits).symm
  · rw [hrest, hdigits] at hname
    exact List.append_cancel_left hname

/-- **A request spares a file if and only if it does not replace it by other bytes.** -/
theorem spares_iff {e : Env} {m : Shared × Local} {content : List UInt8} {ext : List Char}
    (hs : Rooted e.settings) (htree : Tree (root e.settings) m.1.files) (hext : AcceptedExt ext)
    (hdigest : Digest (e.lib.md5 content))
    (hfile : ∃ mtime, m.1.files.find (properPath e content ext) = some (.file content mtime)) :
    (∃ mtime, ((prepare e).run handle m).2.1.files.find (properPath e content ext) =
      some (.file content mtime)) ↔ ∀ bytes, Replaces e m content ext bytes → bytes = content := by
  have h4 : 4 ≤ (e.lib.md5 content).length := by rw [hdigest.1]; decide
  have hvalid := valid_place hdigest.isHex h4 content.length
  have hfinal : IsFinal e.settings (properPath e content ext) := ⟨_, _, hvalid, hext, rfl⟩
  by_cases hreaches : Reaches e m
  swap
  · rw [run_of_not_reaches hs htree hreaches hfinal]
    exact iff_of_true hfile fun bytes h => absurd h.reaches hreaches
  obtain ⟨ext', hext', haccepted⟩ := extension_of_acceptedName hreaches.name
  have hlanded := run_of_reaches hs htree hreaches hext'
  by_cases htarget : properPath e content ext = target e ext'.toList
  · obtain ⟨hmd5, hsize, rfl⟩ := target_inj hdigest.isHex haccepted hext htarget
    have hleaves := hlanded.leaves
    rw [← htarget, hmd5, hsize] at hleaves
    have hreplaces (bytes : List UInt8) : Replaces e m content ext'.toList bytes ↔
        arriving e (place (e.lib.md5 content) content.length) m.1.files = some bytes := by
      refine ⟨fun h => h.arriving, fun h => ⟨hreaches, hmd5, hsize, ?_, h⟩⟩
      rw [String.ofList_toList, hext']
    cases harriving : arriving e (place (e.lib.md5 content) content.length) m.1.files with
    | none =>
      rw [harriving] at hleaves
      have hsame : ((prepare e).run handle m).2.1.files.find (properPath e content ext'.toList) =
          m.1.files.find (properPath e content ext'.toList) := hleaves
      rw [hsame]
      refine iff_of_true hfile fun bytes h => ?_
      exact absurd (harriving.symm.trans ((hreplaces bytes).1 h)) (by simp)
    | some bytes =>
      rw [harriving, Leaves] at hleaves
      constructor
      · rintro ⟨mtime, hkept⟩ bytes' h
        obtain rfl := Option.some.inj (harriving.symm.trans ((hreplaces bytes').1 h))
        split at hleaves
        · obtain ⟨mtime', hnew⟩ := hleaves
          exact (Node.file.inj (Option.some.inj (hnew.symm.trans hkept))).1
        · exact absurd (hleaves.symm.trans hkept) (by simp)
      · intro h
        obtain rfl := h bytes ((hreplaces bytes).2 harriving)
        rw [if_pos ⟨rfl, rfl⟩] at hleaves
        exact hleaves
  · rw [hlanded.others _ hfinal htarget]
    refine iff_of_true hfile fun bytes h => absurd ?_ htarget
    obtain rfl := Prog.ret.inj (hext'.symm.trans h.extension)
    rw [target, h.md5, h.size, String.toList_ofList]
    rfl

/-- A directory of uploads with one file in it. -/
def oneFile (r : Path) (a b x : List Char) (content : List UInt8) : Files :=
  (((Files.put [(r, .dir)] (r ++ [a]) .dir).put (r ++ [a, b]) .dir).put (r ++ [a, b, x]) (.file content 0))

theorem tree_oneFile (r : Path) (a b x : List Char) (content : List UInt8) :
    Tree r (oneFile r a b x content) := by
  have hempty := @EmptyDir.sound (fun _ => "") r _ (emptyDir_single r)
  have hsecond : (Files.put [(r, .dir)] (r ++ [a]) .dir).find (r ++ [a, b]) = none := by
    rw [Files.find_put, if_neg (append_ne (by simp))]
    exact (emptyDir_single r).2 a [b]
  refine ((hempty.tree.mkdirFirst a).mkdirSecond a b ?_ hsecond).putFile x ?_ content 0
  · rw [Files.find_put, if_pos rfl]
  · rw [Files.find_put, if_pos rfl]

/-- The directory with the file of one byte. -/
def oneByteFiles : Files :=
  oneFile (root oneByteSite.settings) "0c".toList "c1".toList "75b9c0f1b6a831c399e269772661-1.txt".toList [97]

/-- The upload of that file, posted again with other bytes and another number of parts. -/
def secondUpload (posted : List UInt8) (chunks : String) : Turn :=
  oneByteTurn "POST" [posted] (("chunks", chunks) :: oneByteFields)

/-- What the second upload meets. -/
def secondStart (posted : List UInt8) (chunks : String) : Shared × Local :=
  ({ db := (secondUpload posted chunks).db, cache := [], files := oneByteFiles }, {})

theorem find_oneByteFiles : oneByteFiles.find (properPath (oneByteSite.env (secondUpload [97] "1").arrival) [97]
    ".txt".toList) = some (.file [97] 0) := by decide +kernel

theorem spares_iff_same :
    (∃ mtime, ((prepare (oneByteSite.env (secondUpload [97] "1").arrival)).run handle
        (secondStart [97] "1")).2.1.files.find
      (properPath (oneByteSite.env (secondUpload [97] "1").arrival) [97] ".txt".toList) =
        some (.file [97] mtime)) ↔
    ∀ bytes, Replaces (oneByteSite.env (secondUpload [97] "1").arrival) (secondStart [97] "1") [97]
      ".txt".toList bytes → bytes = [97] :=
  @spares_iff (oneByteSite.env (secondUpload [97] "1").arrival) (secondStart [97] "1") [97] ".txt".toList
    (show '\x00' ∉ rootText {} by decide) (tree_oneFile _ _ _ _ _) ⟨"txt", by decide, by decide⟩
    ⟨by decide, List.all_eq_true.1 rfl⟩ ⟨0, find_oneByteFiles⟩

/-- An upload of no parts removes the file. -/
theorem spares_no_parts :
    (∃ mtime, (secondStart [97] "0").1.files.find
      (properPath (oneByteSite.env (secondUpload [97] "0").arrival) [97] ".txt".toList) =
        some (.file [97] mtime)) ∧
    ¬∃ mtime, ((prepare (oneByteSite.env (secondUpload [97] "0").arrival)).run handle
        (secondStart [97] "0")).2.1.files.find
      (properPath (oneByteSite.env (secondUpload [97] "0").arrival) [97] ".txt".toList) =
        some (.file [97] mtime) := by
  refine ⟨⟨0, find_oneByteFiles⟩, ?_⟩
  have hgone : ((prepare (oneByteSite.env (secondUpload [97] "0").arrival)).run handle
      (secondStart [97] "0")).2.1.files.find
      (properPath (oneByteSite.env (secondUpload [97] "0").arrival) [97] ".txt".toList) = none := by
    decide +kernel
  rintro ⟨mtime, hfind⟩
  exact absurd (hgone.symm.trans hfind) (by simp)

end Upload

end CppBlog
