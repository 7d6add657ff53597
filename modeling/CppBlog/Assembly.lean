import CppBlog.GenuineUploads

set_option autoImplicit false

/-! # Uploading a file in pieces

The server keeps nothing of an upload but the parts in its directory: a request saves its part and looks
for all of them. However the pieces arrive, the request that brings the last one joins them into the
file. -/

namespace CppBlog

open Effect Store App Text

namespace Upload

/-! ## One piece -/

/-- Of the pieces those in `P` are stored as parts. -/
structure Stocked (s : Settings) (p : Place) (pieces : List (List UInt8)) (P : Nat → Prop) (fs : Files) :
    Prop where
  tree : Tree (root s) fs
  present : ∀ i, i < pieces.length → P i →
    ∃ mtime, fs.find (p.path (root s) (partRest i)) = some (.file (pieces.getD i []) mtime)
  absent : ∀ i, i < pieces.length → ¬P i → fs.find (p.path (root s) (partRest i)) = none

section
variable {e : Env} {s : Settings} {p : Place} {ext : List Char} {n : Names} {pieces : List (List UInt8)}
  {P : Nat → Prop}

/-- The pieces in order are the content. -/
theorem flatMap_getD (pieces : List (List UInt8)) :
    (List.range' 0 pieces.length).flatMap (fun i => pieces.getD i []) = pieces.flatten := by
  have hmap : (List.range' 0 pieces.length).map (fun i => pieces.getD i []) = pieces := by
    refine List.ext_getElem (by simp) fun i h₁ h₂ => ?_
    simp [List.getD_eq_getElem?_getD, List.getElem?_eq_getElem h₂]
  rw [List.flatMap_def, hmap]

theorem path_part_ne_lock (i j : Nat) : p.path (root s) (partRest i) ≠ p.path (root s) (lockRest j) :=
  fun heq => part_ne_lock _ _ i j (Place.path_inj heq).2.2

/-- Saving a piece adds it to those that are stored. -/
theorem Stocked.saved {i : Nat} {st st₁ : St} (h : Stocked s p pieces P st.files)
    (honly : Only (root s) (fun q => q = p.path (root s) (lockRest i) ∨
      q = p.path (root s) (partRest i)) st st₁)
    (hpart : ∃ mtime, st₁.files.find (p.path (root s) (partRest i)) = some (.file (pieces.getD i []) mtime)) :
    Stocked s p pieces (fun j => P j ∨ j = i) st₁.files := by
  have hsame (j : Nat) (hj : j ≠ i) : st₁.files.find (p.path (root s) (partRest j)) =
      st.files.find (p.path (root s) (partRest j)) := by
    refine honly.same _ _ _ ?_
    rintro (heq | heq)
    · exact path_part_ne_lock j i heq
    · exact path_part_ne hj heq
  refine ⟨honly.tree, fun j hlt hj => ?_, fun j hlt hj => ?_⟩
  · by_cases heq : j = i
    · exact heq ▸ hpart
    · rw [hsame j heq]
      exact h.present j hlt (hj.resolve_right heq)
  · rw [not_or] at hj
    rw [hsame j hj.2]
    exact h.absent j hlt hj.1

/-- All parts are there exactly if all pieces are stored. -/
theorem Stocked.parts_iff {fs : Files} (h : Stocked s p pieces P fs) :
    (∃ f, Parts s p f 0 pieces.length fs) ↔ ∀ i, i < pieces.length → P i := by
  constructor
  · rintro ⟨f, hf⟩ i hi
    by_contra hP
    obtain ⟨mtime, hfind⟩ := hf i (by omega) (by omega)
    rw [h.absent i hi hP] at hfind
    exact absurd hfind (by simp)
  · exact fun hall => ⟨_, fun i _ hi => h.present i (by omega) (hall i (by omega))⟩

theorem Stocked.parts_eq {fs : Files} (h : Stocked s p pieces P fs) {f : Nat → List UInt8}
    (hf : Parts s p f 0 pieces.length fs) :
    (List.range' 0 pieces.length).flatMap f = pieces.flatten := by
  rw [← flatMap_getD pieces, List.flatMap_def, List.flatMap_def]
  congr 1
  refine List.map_congr_left fun i hi => ?_
  have hi : i < pieces.length := by simpa using hi
  obtain ⟨mtime, hfind⟩ := hf i (by omega) (by omega)
  by_cases hP : P i
  · obtain ⟨mtime', hfind'⟩ := h.present i hi hP
    exact (Node.file.inj (Option.some.inj (hfind.symm.trans hfind'))).1
  · rw [h.absent i hi hP] at hfind
    exact absurd hfind (by simp)

/-- What a piece leaves: it waits for others, or it completes the file. -/
inductive Delivered (s : Settings) (p : Place) (ext : List Char) (pieces : List (List UInt8))
    (P : Nat → Prop) (i : Nat) (st st' : St) : Option (List UInt8) → Prop
  | waiting : ¬(∀ j, j < pieces.length → P j ∨ j = i) →
      Stocked s p pieces (fun j => P j ∨ j = i) st'.files →
      Only (root s) (fun q => q = p.path (root s) (lockRest i) ∨ ∃ j, q = p.path (root s) (partRest j)) st st' →
      Delivered s p ext pieces P i st st' none
  | complete : (∀ j, j < pieces.length → P j ∨ j = i) → Stocked s p pieces (fun _ => False) st'.files →
      (∃ mtime, st'.files.find (p.path (root s) ext) = some (.file pieces.flatten mtime)) →
      Only (root s) (fun q => q = p.path (root s) ext ∨ q = p.path (root s) (lockRest i) ∨
        (∃ j, q = p.path (root s) (partRest j)) ∨ ∃ r, q = p.path (root s) (rotRest r ext)) st st' →
      Delivered s p ext pieces P i st st' (some pieces.flatten)

theorem wp_receive_piece (hnamed : Named s p ext n) {i : Nat} (hN : pieces.length ≠ 1) {st : St}
    (h : Stocked s p pieces P st.files) :
    (receive e n (pieces.getD i []) i pieces.length).wp calls
      (fun r st' => Delivered s p ext pieces P i st st' r) (fun _ _ => False) st := by
  refine Prog.wp_mono (fun r st' hr => ?_) (fun _ _ h => h)
    (wp_receive_parts e hnamed (pieces.getD i []) hN h.tree)
  obtain ⟨st₁, hsaved, hpart, hr⟩ := hr
  have hstocked := h.saved hsaved hpart
  have hfirst : Only (root s) (fun q => q = p.path (root s) (lockRest i) ∨
      ∃ j, q = p.path (root s) (partRest j)) st st₁ :=
    hsaved.mono fun q hq => hq.imp id fun hq => ⟨i, hq⟩
  rcases hr with ⟨rfl, rfl, hnot⟩ | ⟨f, bytes, hparts, rfl, hbytes, honly, hfinal, hgone⟩
  · exact .waiting (fun hall => (hstocked.parts_iff.2 hall).elim hnot) hstocked hfirst
  · obtain rfl : bytes = pieces.flatten := hbytes.trans (hstocked.parts_eq hparts)
    refine .complete (hstocked.parts_iff.1 ⟨f, hparts⟩)
      ⟨honly.tree, fun j _ hj => hj.elim, fun j hj _ => hgone j hj⟩ hfinal ?_
    refine (hfirst.trans honly).mono fun q hq => ?_
    rcases hq with (hq | hq) | hq | ⟨j, -, hq⟩
    · exact .inr (.inl hq)
    · exact .inr (.inr (.inl hq))
    · exact .inl hq
    · exact .inr (.inr (.inl ⟨j, hq⟩))

/-- The answer to a piece. -/
theorem wp_submit_piece {name : String} {i : Nat} (hnamed : Named s p ext n) (hN : pieces.length ≠ 1)
    (hfiles : e.req.files = [pieces.getD i []]) {st : St} (h : Stocked s p pieces P st.files) :
    (submit e n (e.lib.md5 pieces.flatten) name pieces.flatten.length i pieces.length).wp calls
      (fun r st' => ∃ o, Delivered s p ext pieces P i st st' o ∧
        r = if o.isSome then (true, fileFields true n name pieces.flatten.length "Upload completed!", true)
          else (true, [("message", "File block saved successfully!")], false)) (fun _ _ => False) st := by
  rw [submit, hfiles]
  refine Prog.wp_seq (wp_receive_piece hnamed hN h) (fun r st₁ hr => ?_) (fun _ _ h => h)
  cases hr with
  | waiting hnot hstocked honly => exact ⟨none, .waiting hnot hstocked honly, rfl⟩
  | complete hall hstocked hfinal honly =>
    have hread : (st₁.files.read n.path).map List.length = some pieces.flatten.length := by
      obtain ⟨mtime, hfind⟩ := hfinal
      rw [Files.read_of_find _ (by rw [hnamed.resolve_path, hfind])]
      rfl
    rw [Prog.wp_bind, wp_files]
    dsimp only
    rw [hread, if_neg (by simp)]
    exact ⟨_, .complete hall hstocked hfinal honly, rfl⟩

/-- The rotation of the complete file leaves the rest alone. -/
theorem wp_rotate_piece (hnamed : Named s p ext n) {i : Nat} {rotation : Int}
    (hrotation : e.lib.rotate pieces.flatten rotation ≠ none) {st st₁ : St}
    (h : Delivered s p ext pieces P i st st₁ (some pieces.flatten)) :
    (rotate e n rotation).wp calls
      (fun _ st₂ => Delivered s p ext pieces P i st st₂ (some pieces.flatten)) (fun _ _ => False) st₁ := by
  cases h with
  | complete hall hstocked hfinal honly =>
    obtain ⟨mtime, hfind⟩ := hfinal
    refine Prog.wp_mono (fun _ st₂ h₂ => ?_) (fun _ st₂ h₂ => hrotation (h₂.2 _ mtime hfind))
      (wp_rotate hnamed rotation honly.tree)
    obtain ⟨r, hrot⟩ := h₂
    have hpart (j : Nat) : st₂.files.find (p.path (root s) (partRest j)) =
        st₁.files.find (p.path (root s) (partRest j)) := by
      refine hrot.same _ _ _ fun heq => hnamed.accepted.ne_part (p.stem ++ ("-r".toList ++ (toString r).toList))
        p.stem j ?_
      simpa [rotRest] using (Place.path_inj heq).2.2.symm
    have hne : p.path (root s) ext ≠ p.path (root s) (rotRest r ext) := by
      intro heq
      have hlength := congrArg List.length (Place.path_inj heq).2.2
      simp only [rotRest, List.length_append] at hlength
      have hr : "-r".toList.length = 2 := rfl
      omega
    refine .complete hall ⟨hrot.tree, fun j _ hj => hj.elim, fun j hj hP => ?_⟩
      ⟨mtime, (hrot.same _ _ _ hne).trans hfind⟩ ?_
    · exact (hpart j).trans (hstocked.absent j hj hP)
    · refine (honly.trans hrot).mono fun q hq => hq.elim id fun hq => ?_
      exact .inr (.inr (.inr ⟨r, hq⟩))

end

/-! ## A request -/

/-- The request posts a piece of the content, under an accepted name; if it asks for a rotation, the content
    is an image that can be rotated. -/
structure Posts (e : Env) (pieces : List (List UInt8)) (i : Nat) : Prop where
  method : e.req.method = "POST"
  md5 : postOrGet e "md5" = e.lib.md5 pieces.flatten
  size : toSize (postOrGetLong e "size" 0) = pieces.flatten.length
  name : acceptedName (postOrGet e "name") = true
  chunk : toSize (postOrGetLong e "chunk" 0) = i
  chunks : toSize (postOrGetLong e "chunks" 1) = pieces.length
  files : e.req.files = [pieces.getD i []]
  index : i < pieces.length
  rotation : (postOrGetInt e "rotation" 0).tmod 360 = 0 ∨
    e.lib.rotate pieces.flatten ((postOrGetInt e "rotation" 0).tmod 360) ≠ none

/-- A digest in lower-case hexadecimal digits. -/
def Digest (hash : String) : Prop :=
  hash.length = 32 ∧ ∀ c ∈ hash.toList, (isDigit c || ('a' ≤ c && c ≤ 'f')) = true

theorem Digest.isHex {hash : String} (h : Digest hash) : isHex hash = true := by
  have hne : hash.isEmpty = false := by
    refine Bool.eq_false_iff.2 fun hempty => ?_
    rw [String.isEmpty_iff.1 hempty] at h
    exact absurd h.1 (by decide)
  rw [Upload.isHex, hne]
  refine List.all_eq_true.2 fun c hc => ?_
  rw [h.2 c hc]
  rfl

theorem not_isEmpty_of_acceptedName {name : String} (h : acceptedName name = true) : name.isEmpty = false := by
  refine Bool.eq_false_iff.2 fun hempty => ?_
  rw [String.isEmpty_iff.1 hempty] at h
  exact absurd h (by decide)

/-- The shared part of the page lets the request pass: its site is configured and no call fails. -/
def Admitted (t : Turn) : Prop :=
  ∀ fs, ∃ c, (adminPrepare.run handle ({ db := t.db, cache := t.cache, files := fs }, t.l)).1 = .ok c

/-- Behind the shared part, which leaves files and response alone. -/
theorem ends_admitted {m : Shared × Local} {c : AdminContent} (hc : (adminPrepare.run handle m).1 = .ok c)
    {f : AdminContent → App Unit} {Q : Unit → St → Prop} {E : Error → St → Prop}
    (h : ∀ st, st.files = m.1.files → st.own.response = m.2.own.response → (f c).wp calls Q E st) :
    Prog.Ends Q E ((adminPrepare.bind f).run handle m).1 (viewOf ((adminPrepare.bind f).run handle m).2) := by
  have hwp : adminPrepare.wp calls
      (fun _ st => st.files = m.1.files ∧ st.own.response = m.2.own.response)
      (fun _ st => st.files = m.1.files ∧ st.own.response = m.2.own.response) (viewOf m) :=
    wp_adminPrepare (fun _ _ h₁ h₂ => ⟨h₁, h₂⟩) fun _ _ h₁ h₂ => ⟨h₁, h₂⟩
  have hkeeps := (Prog.wp_run (M := calls) handle viewOf (fun o c => outcome_handle o c) hwp).of_both
  rw [Prog.run_bind]
  revert hc hkeeps
  rcases adminPrepare.run handle m with ⟨r, m'⟩
  rintro rfl hkeeps
  exact Prog.wp_run (M := calls) handle viewOf (fun o c => outcome_handle o c) (h _ hkeeps.1 hkeeps.2)

section
variable {e : Env} {pieces : List (List UInt8)} {P : Nat → Prop} {i : Nat}

attribute [local irreducible] names

/-- The end of a request: the rotation and the answer. -/
def conclude (e : Env) (n : Names) (rotation : Int) (r : Bool × List (String × String) × Bool) : App Unit :=
  if r.2.2 = true ∧ rotation ≠ 0 then
    (rotate e n rotation).bind fun m =>
    answer r.1 (r.2.1.map (fun f => if f.1 = "fileUrl" then ("fileUrl", m.url) else f))
  else answer r.1 r.2.1

/-- What a piece does behind the shared part. -/
theorem wp_transfer_piece (hs : Rooted e.settings) (hdigest : Digest (e.lib.md5 pieces.flatten))
    (hN : 2 ≤ pieces.length) (hpost : Posts e pieces i) {ext : String}
    (hext : AcceptedExt ext.toList) {st : St} (hbody : st.own.response.body = [])
    (h : Stocked e.settings (place (e.lib.md5 pieces.flatten) pieces.flatten.length) pieces P st.files) :
    ((names e (e.lib.md5 pieces.flatten) ext pieces.flatten.length).bind fun n =>
      (submit e n (e.lib.md5 pieces.flatten) (postOrGet e "name") pieces.flatten.length i pieces.length).bind
      (conclude e n ((postOrGetInt e "rotation" 0).tmod 360))).wp calls
      (fun _ st' => ∃ o st₂, Delivered e.settings (place (e.lib.md5 pieces.flatten) pieces.flatten.length)
        ext.toList pieces P i st st₂ o ∧ st'.files = st₂.files ∧
        (Tells st'.own.response ↔ o.isSome = true)) (fun _ _ => False) st := by
  have h4 : 4 ≤ (e.lib.md5 pieces.flatten).length := by rw [hdigest.1]; decide
  obtain ⟨n, hret, hbase, hpath, hurl⟩ := names_eq_ret e h4 ext pieces.flatten.length
  have hnamed : Named e.settings (place (e.lib.md5 pieces.flatten) pieces.flatten.length) ext.toList n :=
    ⟨hs, valid_place hdigest.isHex h4 _, hext, hbase, hpath, hurl⟩
  rw [hret, Prog.ret_bind]
  refine Prog.wp_seq (Prog.wp_and (wp_submit_piece hnamed (by omega) hpost.files h)
    ((OnFiles.submit e n _ _ _ _ _).within (R := SameResponse) st)) (fun r st₂ hr => ?_)
    (fun _ _ h => h.1.elim)
  obtain ⟨⟨o, hdelivered, rfl⟩, hresponse⟩ := hr
  have hbody₂ : st₂.own.response.body = [] := by rw [hresponse, hbody]
  unfold conclude
  cases o with
  | none =>
    rw [if_neg (by simp)]
    refine wp_answer fun st' hfiles hwritten => ⟨none, st₂, hdelivered, hfiles, iff_of_false ?_ (by simp)⟩
    rintro ⟨status, fields, hmem, hexists⟩
    rw [hwritten, hbody₂, List.nil_append, List.mem_singleton] at hmem
    obtain ⟨-, rfl⟩ := Output.json.inj hmem
    simp at hexists
  | some bytes =>
    -- whether or not the address becomes that of a rotation, the answer says that the file exists
    have htells (f : String × String → String × String) (hf : f ("exists", "true") = ("exists", "true"))
        {st₃ : St} (hfiles₃ : Delivered e.settings (place (e.lib.md5 pieces.flatten) pieces.flatten.length)
          ext.toList pieces P i st st₃ (some bytes)) (hbody₃ : st₃.own.response.body = []) :
        (answer true ((fileFields true n (postOrGet e "name") pieces.flatten.length "Upload completed!").map f)).wp
          calls (fun _ st' => ∃ o st₂, Delivered e.settings
            (place (e.lib.md5 pieces.flatten) pieces.flatten.length) ext.toList pieces P i st st₂ o ∧
            st'.files = st₂.files ∧ (Tells st'.own.response ↔ o.isSome = true)) (fun _ _ => False) st₃ := by
      refine wp_answer fun st' hfiles hwritten => ⟨_, st₃, hfiles₃, hfiles, iff_of_true ?_ rfl⟩
      have hmem := hwritten.symm ▸ List.mem_append_right st₃.own.response.body (List.mem_singleton_self _)
      exact ⟨true, _, hmem, List.mem_map.2 ⟨_, List.mem_cons_self, hf⟩⟩
    by_cases hrotation : (postOrGetInt e "rotation" 0).tmod 360 ≠ 0
    · rw [if_pos ⟨rfl, hrotation⟩]
      obtain rfl : bytes = pieces.flatten := by cases hdelivered; rfl
      refine Prog.wp_seq (Prog.wp_and
        (wp_rotate_piece hnamed (hpost.rotation.resolve_left hrotation) hdelivered)
        ((OnFiles.rotate e n _).within (R := SameResponse) st₂)) (fun m st₃ h₃ => ?_) (fun _ _ h => h.1.elim)
      exact htells _ (by simp) h₃.1 (by rw [h₃.2, hbody₂])
    · rw [if_neg fun h => hrotation h.2]
      have hall := htells id rfl hdelivered hbody₂
      rw [List.map_id] at hall
      exact hall

/-- A piece that gets past the shared part. -/
theorem ends_prepare_piece (hs : Rooted e.settings) (hdigest : Digest (e.lib.md5 pieces.flatten))
    (hcontent : pieces.flatten ≠ []) (hN : 2 ≤ pieces.length) (hpost : Posts e pieces i) {m : Shared × Local}
    {c : AdminContent} (hc : (adminPrepare.run handle m).1 = .ok c) (hbody : m.2.own.response.body = [])
    (h : Stocked e.settings (place (e.lib.md5 pieces.flatten) pieces.flatten.length) pieces P m.1.files) :
    ∃ ext o st st₂, CppBlog.extension (postOrGet e "name") = .ret ext ∧ AcceptedExt ext.toList ∧
      Delivered e.settings (place (e.lib.md5 pieces.flatten) pieces.flatten.length) ext.toList pieces P i st st₂ o ∧
      st.files = m.1.files ∧ ((prepare e).run handle m).2.1.files = st₂.files ∧
      ((prepare e).run handle m).1 = .ok () ∧
      (Tells ((prepare e).run handle m).2.2.own.response ↔ o.isSome = true) := by
  obtain ⟨ext, hext, haccepted⟩ := extension_of_acceptedName hpost.name
  have hlength : pieces.flatten.length ≠ 0 := fun h0 => hcontent (List.length_eq_zero_iff.1 h0)
  have hmd5 : (e.lib.md5 pieces.flatten).isEmpty = false := by
    have h := hdigest.isHex
    unfold isHex at h
    simpa using (Bool.and_eq_true_iff.1 h).1
  have hprepare : prepare e = adminPrepare.bind fun _ =>
      (names e (e.lib.md5 pieces.flatten) ext pieces.flatten.length).bind fun n =>
      (submit e n (e.lib.md5 pieces.flatten) (postOrGet e "name") pieces.flatten.length i pieces.length).bind
      (conclude e n ((postOrGetInt e "rotation" 0).tmod 360)) := by
    unfold prepare
    dsimp only
    rw [hpost.md5, hpost.size, if_neg, if_neg, transfer, hext, Prog.ret_bind]
    · simp only [hpost.method, hpost.chunk, hpost.chunks, if_true]
      rfl
    · simp [hpost.name]
    · rintro (h | h | h | h)
      · exact absurd h (by simp [hmd5])
      · exact h hdigest.isHex
      · exact absurd h (by simp [not_isEmpty_of_acceptedName hpost.name])
      · exact hlength h
  rw [hprepare]
  have hends := ends_admitted hc (f := fun _ =>
      (names e (e.lib.md5 pieces.flatten) ext pieces.flatten.length).bind fun n =>
      (submit e n (e.lib.md5 pieces.flatten) (postOrGet e "name") pieces.flatten.length i pieces.length).bind
      (conclude e n ((postOrGetInt e "rotation" 0).tmod 360)))
    (Q := fun _ st' => ∃ o st st₂, Delivered e.settings
      (place (e.lib.md5 pieces.flatten) pieces.flatten.length) ext.toList pieces P i st st₂ o ∧
      st.files = m.1.files ∧ st'.files = st₂.files ∧ (Tells st'.own.response ↔ o.isSome = true))
    (E := fun _ _ => False) fun st hfiles hresponse =>
      Prog.wp_mono (fun _ st' h => by
        obtain ⟨o, st₂, hd, hf, ht⟩ := h
        exact ⟨o, st, st₂, hd, hfiles, hf, ht⟩) (fun _ _ h => h)
        (wp_transfer_piece hs hdigest hN hpost haccepted (by rw [hresponse, hbody]) (by rw [hfiles]; exact h))
  revert hends
  generalize (Prog.bind adminPrepare fun _ => _).run handle m = r
  obtain ⟨err | ⟨⟩, m'⟩ := r
  · exact fun h => h.elim
  · rintro ⟨o, st, st₂, hd, hfiles, hfiles', htells⟩
    exact ⟨ext, o, st, st₂, hext, haccepted, hd, hfiles, hfiles', rfl, htells⟩

end

/-! ## A query -/

/-- Nothing changed but rotations. -/
structure OnlyRotations (r : Path) (fs fs' : Files) : Prop where
  tree : Tree r fs'
  same : ∀ a b x, (∀ (p : Place) (i : Int) (ext : List Char), p.Valid → AcceptedExt ext →
    r ++ [a, b, x] ≠ p.path r (rotRest i ext)) → fs'.find (r ++ [a, b, x]) = fs.find (r ++ [a, b, x])

theorem OnlyRotations.of_eq {r : Path} {fs fs' : Files} (h : Tree r fs) (heq : fs' = fs) :
    OnlyRotations r fs fs' := ⟨heq ▸ h, fun _ _ _ _ => by rw [heq]⟩

section
variable {e : Env} {s : Settings} {p : Place} {ext : List Char} {n : Names} {st : St}

attribute [local irreducible] names transfer

/-- A query changes nothing but rotations. -/
theorem wp_prepare_query (hs : Rooted e.settings) (hmethod : e.req.method ≠ "POST")
    (htree : Tree (root e.settings) st.files) :
    (prepare e).wp calls (fun _ st' => OnlyRotations (root e.settings) st.files st'.files)
      (fun _ st' => OnlyRotations (root e.settings) st.files st'.files) st := by
  have hsame {fields : List (String × String)} {status : Bool} {st₁ : St}
      (h₁ : OnlyRotations (root e.settings) st.files st₁.files) :
      (answer status fields).wp calls (fun _ st' => OnlyRotations (root e.settings) st.files st'.files)
        (fun _ st' => OnlyRotations (root e.settings) st.files st'.files) st₁ :=
    wp_answer fun st' hfiles _ => hfiles ▸ h₁
  unfold prepare
  dsimp only
  split
  · exact hsame (.of_eq htree rfl)
  rename_i hparams
  split
  · exact hsame (.of_eq htree rfl)
  rename_i hname
  simp only [not_or, not_not] at hparams hname
  obtain ⟨ext, hext, haccepted⟩ := extension_of_acceptedName hname
  rw [transfer, hext, Prog.ret_bind, Prog.wp_bind]
  refine wp_adminPrepare (fun c st₁ hfiles _ => ?_) (fun _ st₁ hfiles _ => .of_eq htree hfiles)
  have htree₁ : Tree (root e.settings) st₁.files := hfiles ▸ htree
  refine wp_names hs hparams.2.1 haccepted _ (fun _ => .of_eq htree hfiles) fun n hnamed => ?_
  have hrotated {st₂ : St} (h : ∃ i, Only (root e.settings)
      (· = (place (postOrGet e "md5") (toSize (postOrGetLong e "size" 0))).path (root e.settings)
        (rotRest i ext.toList)) st₁ st₂) : OnlyRotations (root e.settings) st.files st₂.files := by
    obtain ⟨i, honly⟩ := h
    exact ⟨honly.tree, fun a b x hx => hfiles ▸ honly.same a b x (hx _ i _ hnamed.valid haccepted)⟩
  rw [if_neg hmethod, ask, Prog.wp_bind, Prog.wp_bind, wp_files]
  dsimp only
  have hrest (r : Bool × List (String × String) × Bool) (rotation : Int) : (if r.2.2 = true ∧ rotation ≠ 0 then
        (rotate e n rotation).bind fun m =>
        answer r.1 (r.2.1.map (fun f => if f.1 = "fileUrl" then ("fileUrl", m.url) else f))
      else answer r.1 r.2.1).wp calls (fun _ st' => OnlyRotations (root e.settings) st.files st'.files)
        (fun _ st' => OnlyRotations (root e.settings) st.files st'.files) st₁ := by
    split
    · exact Prog.wp_seq (wp_rotate hnamed rotation htree₁) (fun m st₂ h => hsame (hrotated h))
        (fun _ _ h => hrotated h.1)
    · exact hsame (.of_eq htree hfiles)
  split
  · exact hrest (true, _, true) ((postOrGetInt e "rotation" 0).tmod 360)
  · exact hrest (true, _, false) ((postOrGetInt e "rotation" 0).tmod 360)

theorem OnlyRotations.part {fs fs' : Files} (h : OnlyRotations (root s) fs fs') (p : Place) (i : Nat) :
    fs'.find (p.path (root s) (partRest i)) = fs.find (p.path (root s) (partRest i)) := by
  refine h.same _ _ _ fun q j ext _ hext heq => ?_
  refine hext.ne_part (q.stem ++ ("-r".toList ++ (toString j).toList)) p.stem i ?_
  have heq := (Place.path_inj heq).2.2
  simpa [rotRest] using heq.symm

theorem OnlyRotations.final {fs fs' : Files} (h : OnlyRotations (root s) fs fs') {p : Place} (hp : p.Valid)
    {ext : List Char} (hext : AcceptedExt ext) :
    fs'.find (p.path (root s) ext) = fs.find (p.path (root s) ext) := by
  refine h.same _ _ _ fun q j ext' hq _ heq => not_finalName_rot hq j ext' ?_
  obtain ⟨c, d, hc, hd, hstem⟩ := hp.stem
  exact ⟨c, d, ext, hc, hd, hext, by rw [← (Place.path_inj heq).2.2, hstem]⟩

end

/-! ## Runs -/

/-- A request of the upload: a piece that gets past the shared part of the page, or a query. -/
structure Sends (site : Site) (pieces : List (List UInt8)) (t : Turn) : Prop where
  fresh : t.l.own.response = {}
  kind : (Admitted t ∧ ∃ i, Posts (site.env t.arrival) pieces i) ∨ t.arrival.req.method ≠ "POST"

/-- The pieces that were posted. -/
def Arrived (site : Site) (pieces : List (List UInt8)) (turns : List Turn) (i : Nat) : Prop :=
  ∃ t ∈ turns, Posts (site.env t.arrival) pieces i

def AllArrived (site : Site) (pieces : List (List UInt8)) (turns : List Turn) : Prop :=
  ∀ i, i < pieces.length → Arrived site pieces turns i

/-- Where the content belongs. -/
def home (site : Site) (pieces : List (List UInt8)) : Place :=
  place (site.lib.md5 pieces.flatten) pieces.flatten.length

/-- The file under the final path with an extension is the content. -/
def Complete (site : Site) (pieces : List (List UInt8)) (ext : List Char) (fs : Files) : Prop :=
  ∃ mtime, fs.find ((home site pieces).path (root site.settings) ext) = some (.file pieces.flatten mtime)

/-- What the directory holds after some requests: as long as pieces are missing, exactly the others. -/
def Assembling (site : Site) (pieces : List (List UInt8)) (turns : List Turn) (fs : Files) : Prop :=
  ∃ P, Stocked site.settings (home site pieces) pieces P fs ∧ ¬(∀ i, i < pieces.length → P i) ∧
    (¬AllArrived site pieces turns → (∀ i, i < pieces.length → (P i ↔ Arrived site pieces turns i)) ∧
      ∀ ext, AcceptedExt ext → fs.find ((home site pieces).path (root site.settings) ext) = none)

section
variable {site : Site} {pieces : List (List UInt8)} {turns : List Turn} {t : Turn} {fs : Files}

theorem arrived_append (i : Nat) : Arrived site pieces (turns ++ [t]) i ↔
    Arrived site pieces turns i ∨ Posts (site.env t.arrival) pieces i := by
  simp only [Arrived, List.mem_append, List.mem_singleton]
  constructor
  · rintro ⟨u, hu | rfl, hpost⟩
    · exact .inl ⟨u, hu, hpost⟩
    · exact .inr hpost
  · rintro (⟨u, hu, hpost⟩ | hpost)
    · exact ⟨u, .inl hu, hpost⟩
    · exact ⟨t, .inr rfl, hpost⟩

/-- A request posts one piece. -/
theorem arrived_append_posts {i : Nat} (hpost : Posts (site.env t.arrival) pieces i) (j : Nat) :
    Arrived site pieces (turns ++ [t]) j ↔ Arrived site pieces turns j ∨ j = i := by
  rw [arrived_append]
  refine or_congr_right ⟨fun h => h.chunk.symm.trans hpost.chunk, ?_⟩
  rintro rfl
  exact hpost

/-- A query posts none. -/
theorem arrived_append_query (h : t.arrival.req.method ≠ "POST") (j : Nat) :
    Arrived site pieces (turns ++ [t]) j ↔ Arrived site pieces turns j := by
  rw [arrived_append]
  exact or_iff_left fun hpost => h hpost.method

theorem not_allArrived_of_append (h : ¬AllArrived site pieces (turns ++ [t])) :
    ¬AllArrived site pieces turns :=
  fun hall => h fun i hi => (arrived_append i).2 (.inl (hall i hi))

/-- What a piece does to the directory and what its answer says. -/
structure Step (site : Site) (pieces : List (List UInt8)) (turns : List Turn) (t : Turn) (fs fs' : Files)
    (tells : Prop) : Prop where
  assembling : Assembling site pieces (turns ++ [t]) fs'
  kept : ∀ ext, AcceptedExt ext → Complete site pieces ext fs → Complete site pieces ext fs'
  early : ¬AllArrived site pieces (turns ++ [t]) → ¬tells
  last : ¬AllArrived site pieces turns → AllArrived site pieces (turns ++ [t]) → tells ∧
    ∃ ext, CppBlog.extension (postOrGet (site.env t.arrival) "name") = .ret ext ∧ AcceptedExt ext.toList ∧
      Complete site pieces ext.toList fs'

/-- A post in the terms of the site. -/
theorem outcome_posts (hs : Rooted site.settings) (hdigest : Digest (site.lib.md5 pieces.flatten))
    (hcontent : pieces.flatten ≠ []) (hN : 2 ≤ pieces.length) {i : Nat}
    (hpost : Posts (site.env t.arrival) pieces i) (hadmitted : Admitted t) (hfresh : t.l.own.response = {})
    {P : Nat → Prop} (h : Stocked site.settings (home site pieces) pieces P fs) :
    ∃ ext o st st₂, CppBlog.extension (postOrGet (site.env t.arrival) "name") = .ret ext ∧
      AcceptedExt ext.toList ∧
      Delivered site.settings (home site pieces) ext.toList pieces P i st st₂ o ∧ st.files = fs ∧
      (t.outcome site fs).2.1.files = st₂.files ∧ (t.outcome site fs).1 = .ok () ∧
      (Tells (t.outcome site fs).2.2.own.response ↔ o.isSome = true) := by
  obtain ⟨c, hc⟩ := hadmitted fs
  exact ends_prepare_piece (e := site.env t.arrival) hs hdigest hcontent hN hpost hc (by rw [hfresh]) h

theorem step_posts (hs : Rooted site.settings) (hdigest : Digest (site.lib.md5 pieces.flatten))
    (hcontent : pieces.flatten ≠ []) (hN : 2 ≤ pieces.length) {i : Nat}
    (hpost : Posts (site.env t.arrival) pieces i) (hadmitted : Admitted t) (hfresh : t.l.own.response = {})
    (h : Assembling site pieces turns fs) :
    Step site pieces turns t fs (t.outcome site fs).2.1.files
      (Tells (finish (t.outcome site fs).1 (t.outcome site fs).2.2.own.response)) := by
  obtain ⟨P, hstocked, hsome, hbefore⟩ := h
  obtain ⟨ext, o, st, st₂, hext, haccepted, hdelivered, hfiles, hfiles', hok, htells⟩ :=
    outcome_posts hs hdigest hcontent hN hpost hadmitted hfresh hstocked
  generalize t.outcome site fs = r at hfiles' hok htells ⊢
  have hfinish : finish r.1 r.2.2.own.response = r.2.2.own.response := by
    rw [hok]
    rfl
  rw [hfinish, hfiles']
  have harrived (hmiss : ¬AllArrived site pieces turns) (j : Nat) (hj : j < pieces.length) :
      (P j ∨ j = i) ↔ Arrived site pieces (turns ++ [t]) j := by
    rw [arrived_append_posts hpost, (hbefore hmiss).1 j hj]
  have hname {ext' : List Char} (hext' : AcceptedExt ext') :
      ¬((home site pieces).path (root site.settings) ext' =
          (home site pieces).path (root site.settings) (lockRest i) ∨
        ∃ j, (home site pieces).path (root site.settings) ext' =
          (home site pieces).path (root site.settings) (partRest j)) := by
    rintro (heq | ⟨j, heq⟩)
    · exact hext'.ne_lock _ _ i (Place.path_inj heq).2.2
    · exact hext'.ne_part _ _ j (Place.path_inj heq).2.2
  obtain rfl : fs = st.files := hfiles.symm
  cases hdelivered with
  | waiting hnot hstocked' honly =>
    have hsame {ext' : List Char} (hext' : AcceptedExt ext') :
        st₂.files.find ((home site pieces).path (root site.settings) ext') =
          st.files.find ((home site pieces).path (root site.settings) ext') :=
      honly.same _ _ _ (hname hext')
    refine ⟨⟨_, hstocked', hnot, fun hmiss => ?_⟩, fun ext' hext' hc => ?_, fun _ => ?_,
      fun hmiss hall => ?_⟩
    · have hmiss := not_allArrived_of_append hmiss
      exact ⟨harrived hmiss, fun ext' hext' => (hsame hext').trans ((hbefore hmiss).2 ext' hext')⟩
    · exact hc.imp fun _ hfind => (hsame hext').trans hfind
    · exact fun h => absurd (htells.1 h) (by simp)
    · exact absurd (fun j hj => (harrived hmiss j hj).2 (hall j hj)) hnot
  | complete hall hstocked' hfinal honly =>
    have hnow (hmiss : ¬AllArrived site pieces turns) : AllArrived site pieces (turns ++ [t]) :=
      fun j hj => (harrived hmiss j hj).1 (hall j hj)
    refine ⟨⟨_, hstocked', fun h => h 0 (by omega), fun hmiss => ?_⟩, fun ext' hext' hc => ?_,
      fun hmiss => ?_, fun _ _ => ⟨htells.2 rfl, ext, hext, haccepted, hfinal⟩⟩
    · exact absurd (hnow (not_allArrived_of_append hmiss)) hmiss
    · by_cases heq : (home site pieces).path (root site.settings) ext' =
          (home site pieces).path (root site.settings) ext.toList
      · rw [Complete, heq]
        exact hfinal
      · refine hc.imp fun _ hfind => (honly.same _ _ _ ?_).trans hfind
        rintro (h | h | h | ⟨r, h⟩)
        · exact heq h
        · exact hname hext' (.inl h)
        · exact hname hext' (.inr h)
        · obtain ⟨y, rfl, -⟩ := hext'.eq
          exact absurd (Place.path_inj h).2.2 (by simp [rotRest])
    · exact absurd (hnow (not_allArrived_of_append hmiss)) hmiss

/-- What a query does, and what its answer says if it asks for the content. -/
theorem step_query (hs : Rooted site.settings) (hdigest : Digest (site.lib.md5 pieces.flatten))
    (hmethod : t.arrival.req.method ≠ "POST") (hfresh : t.l.own.response = {})
    (h : Assembling site pieces turns fs) :
    Assembling site pieces (turns ++ [t]) (t.outcome site fs).2.1.files ∧
      (∀ ext, AcceptedExt ext → Complete site pieces ext fs →
        Complete site pieces ext (t.outcome site fs).2.1.files) ∧
      (¬AllArrived site pieces turns →
        postOrGet (site.env t.arrival) "md5" = site.lib.md5 pieces.flatten →
        toSize (postOrGetLong (site.env t.arrival) "size" 0) = pieces.flatten.length →
        ¬Tells (finish (t.outcome site fs).1 (t.outcome site fs).2.2.own.response)) := by
  obtain ⟨P, hstocked, hsome, hbefore⟩ := h
  have hends := Prog.wp_run (M := calls) handle viewOf (fun o c => outcome_handle o c)
    (c := ({ db := t.db, cache := t.cache, files := fs }, t.l))
    (wp_prepare_query (e := site.env t.arrival) hs hmethod hstocked.tree)
  have hrot : OnlyRotations (root site.settings) fs (t.outcome site fs).2.1.files :=
    hends.of_both (P := fun st : St => OnlyRotations (root site.settings) fs st.files)
  have hvalid : (home site pieces).Valid :=
    valid_place hdigest.isHex (by rw [hdigest.1]; decide) _
  have harrived : ∀ j, Arrived site pieces (turns ++ [t]) j ↔ Arrived site pieces turns j :=
    arrived_append_query hmethod
  refine ⟨⟨P, ⟨hrot.tree, fun i hi hP => ?_, fun i hi hP => ?_⟩, hsome, fun hmiss => ?_⟩,
    fun ext hext hc => ?_, fun hmiss hmd5 hsize htells => ?_⟩
  · rw [hrot.part]
    exact hstocked.present i hi hP
  · rw [hrot.part]
    exact hstocked.absent i hi hP
  · obtain ⟨hP, hfinal⟩ := hbefore (not_allArrived_of_append hmiss)
    refine ⟨fun i hi => (hP i hi).trans (harrived i).symm, fun ext hext => ?_⟩
    rw [hrot.final hvalid hext]
    exact hfinal ext hext
  · exact hc.imp fun _ hfind => (hrot.final hvalid hext).trans hfind
  · have hasked := Prog.wp_run (M := calls) handle viewOf (fun o c => outcome_handle o c)
      (c := ({ db := t.db, cache := t.cache, files := fs }, t.l))
      (wp_prepare_ask (e := site.env t.arrival) hs hmethod (congrArg Response.body hfresh))
    obtain ⟨content, -, ext, mtime, -, haccepted, hfind, -⟩ := ends_tells hasked htells
    rw [hmd5, hsize] at hfind
    have hnone := (hbefore hmiss).2 ext.toList haccepted
    exact absurd (hfind.symm.trans hnone) (by simp)

/-- The directory the upload starts from: a directory of uploads, without files of this hash and size. -/
def Untouched (site : Site) (pieces : List (List UInt8)) (fs : Files) : Prop :=
  Tree (root site.settings) fs ∧
    ∀ rest, fs.find ((home site pieces).path (root site.settings) rest) = none

theorem Untouched.assembling (h : Untouched site pieces fs) (hN : 2 ≤ pieces.length) :
    Assembling site pieces [] fs := by
  refine ⟨fun _ => False, ⟨h.1, fun _ _ hP => hP.elim, fun i _ _ => h.2 _⟩, fun hall => hall 0 (by omega),
    fun _ => ⟨fun i _ => iff_of_false id ?_, fun ext _ => h.2 ext⟩⟩
  rintro ⟨t, ht, -⟩
  exact absurd ht (by simp)

theorem afterTurns_append (ts ts' : List Turn) :
    afterTurns site (ts ++ ts') fs = afterTurns site ts' (afterTurns site ts fs) := List.foldl_append

/-- A request of the upload keeps the invariant and every complete file. -/
theorem step_sends (hs : Rooted site.settings) (hdigest : Digest (site.lib.md5 pieces.flatten))
    (hcontent : pieces.flatten ≠ []) (hN : 2 ≤ pieces.length) (ht : Sends site pieces t)
    (h : Assembling site pieces turns fs) :
    Assembling site pieces (turns ++ [t]) (t.outcome site fs).2.1.files ∧
      ∀ ext, AcceptedExt ext → Complete site pieces ext fs →
        Complete site pieces ext (t.outcome site fs).2.1.files := by
  rcases ht.kind with ⟨hadmitted, i, hpost⟩ | hmethod
  · have hstep := step_posts hs hdigest hcontent hN hpost hadmitted ht.fresh h
    exact ⟨hstep.assembling, hstep.kept⟩
  · have hstep := step_query hs hdigest hmethod ht.fresh h
    exact ⟨hstep.1, hstep.2.1⟩

theorem afterTurns_assembling (hs : Rooted site.settings) (hdigest : Digest (site.lib.md5 pieces.flatten))
    (hcontent : pieces.flatten ≠ []) (hN : 2 ≤ pieces.length) {ts : List Turn}
    (hts : ∀ t ∈ ts, Sends site pieces t) (h : Assembling site pieces turns fs) :
    Assembling site pieces (turns ++ ts) (afterTurns site ts fs) ∧
      ∀ ext, AcceptedExt ext → Complete site pieces ext fs →
        Complete site pieces ext (afterTurns site ts fs) := by
  induction ts generalizing turns fs with
  | nil =>
    rw [List.append_nil]
    exact ⟨h, fun _ _ hc => hc⟩
  | cons t ts ih =>
    obtain ⟨h₁, hkept⟩ := step_sends hs hdigest hcontent hN (hts t List.mem_cons_self) h
    obtain ⟨h₂, hkept'⟩ := ih (fun u hu => hts u (List.mem_cons_of_mem t hu)) h₁
    rw [List.append_assoc] at h₂
    exact ⟨h₂, fun ext hext hc => hkept' ext hext (hkept ext hext hc)⟩

end

/-- **However the pieces arrive, the file is put together.** In every sequence of requests that post the
    pieces of a content, with queries among them: while a piece is missing, neither a post nor a query about
    the content is answered that the file exists; the post that brings the last one is; and from then on
    the file under the final path is the content. -/
theorem afterTurns_complete {site : Site} {pieces : List (List UInt8)} {fs : Files}
    (hs : Rooted site.settings) (hdigest : Digest (site.lib.md5 pieces.flatten))
    (hcontent : pieces.flatten ≠ []) (hN : 2 ≤ pieces.length) (hfs : Untouched site pieces fs)
    {before : List Turn} {t : Turn} (hbefore : ∀ u ∈ before ++ [t], Sends site pieces u) :
    (¬AllArrived site pieces (before ++ [t]) →
      (t.arrival.req.method ≠ "POST" → postOrGet (site.env t.arrival) "md5" = site.lib.md5 pieces.flatten ∧
        toSize (postOrGetLong (site.env t.arrival) "size" 0) = pieces.flatten.length) →
      ¬Tells (finish (t.outcome site (afterTurns site before fs)).1
        (t.outcome site (afterTurns site before fs)).2.2.own.response)) ∧
    (¬AllArrived site pieces before → AllArrived site pieces (before ++ [t]) →
      Tells (finish (t.outcome site (afterTurns site before fs)).1
        (t.outcome site (afterTurns site before fs)).2.2.own.response) ∧
      ∃ ext, CppBlog.extension (postOrGet (site.env t.arrival) "name") = .ret ext ∧
        ∀ after : List Turn, (∀ u ∈ after, Sends site pieces u) →
          Complete site pieces ext.toList (afterTurns site (before ++ t :: after) fs)) := by
  have hsends (u : Turn) (hu : u ∈ before) : Sends site pieces u := hbefore u (List.mem_append_left _ hu)
  have ht : Sends site pieces t := hbefore t (by simp)
  have hassembling := (afterTurns_assembling hs hdigest hcontent hN hsends (hfs.assembling hN)).1
  rw [List.nil_append] at hassembling
  rcases ht.kind with ⟨hadmitted, i, hpost⟩ | hmethod
  · have hstep := step_posts hs hdigest hcontent hN hpost hadmitted ht.fresh hassembling
    refine ⟨fun hmiss _ => hstep.early hmiss, fun hmiss hall => ?_⟩
    obtain ⟨htells, ext, hext, haccepted, hcomplete⟩ := hstep.last hmiss hall
    refine ⟨htells, ext, hext, fun after hafter => ?_⟩
    rw [afterTurns_append]
    exact (afterTurns_assembling hs hdigest hcontent hN hafter hstep.assembling).2 _ haccepted hcomplete
  · have hstep := step_query hs hdigest hmethod ht.fresh hassembling
    refine ⟨fun hmiss hasked => ?_, fun hmiss hall => ?_⟩
    · obtain ⟨hmd5, hsize⟩ := hasked hmethod
      exact hstep.2.2 (not_allArrived_of_append hmiss) hmd5 hsize
    · exact absurd (fun j hj => (arrived_append_query hmethod j).1 (hall j hj)) hmiss

/-- A site whose digests are those of a file of two bytes. -/
def twoBytesSite : Site where
  settings := {}
  lib := { Site.sample.lib with md5 := fun content =>
    if content = [97, 98] then "187ef4436122d1cc2f40dc2b92f0eba0" else "d41d8cd98f00b204e9800998ecf8427e" }

/-- The post of one of its two pieces on a configured site. -/
def pieceTurn (chunk : String) (byte : UInt8) : Turn where
  arrival := { req := {
    sid := "a", path := "/admin/upload", method := "POST", files := [[byte]]
    post := [("md5", "187ef4436122d1cc2f40dc2b92f0eba0"), ("name", "ab.txt"), ("size", "2"),
      ("chunk", chunk), ("chunks", "2")] } }
  db := (run twoBytesSite [.request (Arrival.configure "a" "alice")] (World.fresh [])).shared.db
  cache := []
  l := {}

theorem admitted_piece (chunk : String) (byte : UInt8) : Admitted (pieceTurn chunk byte) :=
  fun _ => ⟨_, rfl⟩

theorem sends_piece {chunk : String} {byte : UInt8} {i : Nat}
    (h : Posts (twoBytesSite.env (pieceTurn chunk byte).arrival) [[97], [98]] i) :
    Sends twoBytesSite [[97], [98]] (pieceTurn chunk byte) :=
  ⟨rfl, .inl ⟨admitted_piece chunk byte, i, h⟩⟩

theorem posts_first : Posts (twoBytesSite.env (pieceTurn "0" 97).arrival) [[97], [98]] 0 := by
  constructor <;> decide

theorem posts_second : Posts (twoBytesSite.env (pieceTurn "1" 98).arrival) [[97], [98]] 1 := by
  constructor <;> decide

theorem digest_two : Digest (twoBytesSite.lib.md5 [[97], [98]].flatten) := by
  show Digest "187ef4436122d1cc2f40dc2b92f0eba0"
  constructor
  · rfl
  · exact List.all_eq_true.1 rfl

theorem afterTurns_complete_two :
    (Tells (finish ((pieceTurn "0" 97).outcome twoBytesSite
        (afterTurns twoBytesSite [pieceTurn "1" 98] [(root {}, .dir)])).1
      ((pieceTurn "0" 97).outcome twoBytesSite
        (afterTurns twoBytesSite [pieceTurn "1" 98] [(root {}, .dir)])).2.2.own.response) ∧
    ∃ ext, CppBlog.extension "ab.txt" = .ret ext ∧ ∀ after : List Turn,
      (∀ u ∈ after, Sends twoBytesSite [[97], [98]] u) →
      Complete twoBytesSite [[97], [98]] ext.toList
        (afterTurns twoBytesSite ([pieceTurn "1" 98] ++ pieceTurn "0" 97 :: after) [(root {}, .dir)])) := by
  refine (@afterTurns_complete twoBytesSite [[97], [98]] [(root {}, .dir)] (show '\x00' ∉ rootText {} by decide)
    digest_two (by decide) (by decide) ⟨(show Sound twoBytesSite.lib.md5 _ _ from
      (emptyDir_single _).sound).tree, fun rest => ?_⟩ [pieceTurn "1" 98] (pieceTurn "0" 97)
    (List.forall_mem_cons.2 ⟨sends_piece posts_second, List.forall_mem_singleton.2 (sends_piece posts_first)⟩)).2
    (fun hall => ?_) (fun i hi => ?_)
  · exact (emptyDir_single _).2 _ _
  · obtain ⟨t, ht, hpost⟩ := hall 0 (by decide)
    obtain rfl := List.mem_singleton.1 ht
    exact absurd hpost.chunk (by decide)
  · match i, hi with
    | 0, _ => exact ⟨_, by simp, posts_first⟩
    | 1, _ => exact ⟨_, by simp, posts_second⟩

end Upload

end CppBlog
