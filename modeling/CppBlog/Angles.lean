import CppBlog.Rotations

set_option autoImplicit false

/-! # The angles of rotations

The file of a rotation is named after the quarter its angle lies in, and is not made again while it is
there. So it holds the image turned by the angle of the request that made it. -/

namespace CppBlog

open Effect Store App Text

namespace Upload

variable {e : Env} {s : Settings} {p : Place} {ext : List Char} {n : Names} {st : St}

/-! ## The files of rotations -/

/-- A path that a rotation is kept under. -/
def IsRotation (s : Settings) (q : Path) : Prop :=
  ∃ (p : Place) (ext : List Char) (r : Int), p.Valid ∧ AcceptedExt ext ∧ q = p.path (root s) (rotRest r ext)

theorem isRotation_path (hp : p.Valid) (hext : AcceptedExt ext) (r : Int) :
    IsRotation s (p.path (root s) (rotRest r ext)) :=
  ⟨p, ext, r, hp, hext, rfl⟩

theorem not_isRotation_final (hp : p.Valid) (hext : AcceptedExt ext) : ¬IsRotation s (p.path (root s) ext) := by
  rintro ⟨p', ext', r, hp', -, heq⟩
  refine not_finalName_rot hp' r ext' ?_
  rw [← (Place.path_inj heq).2.2]
  exact finalName_stem hp hext

/-- A rotation ends in the extension of its image. -/
theorem stem_rotRest (p : Place) (r : Int) (ext : List Char) :
    p.stem ++ rotRest r ext = (p.stem ++ ("-r".toList ++ (toString r).toList)) ++ ext := by
  simp only [rotRest, List.append_assoc]

theorem not_isRotation_part (i : Nat) : ¬IsRotation s (p.path (root s) (partRest i)) := by
  rintro ⟨p', ext, r, -, hext, heq⟩
  refine hext.ne_part (p'.stem ++ ("-r".toList ++ (toString r).toList)) p.stem i ?_
  rw [← stem_rotRest]
  exact (Place.path_inj heq).2.2.symm

theorem not_isRotation_lock (i : Nat) : ¬IsRotation s (p.path (root s) (lockRest i)) := by
  rintro ⟨p', ext, r, -, hext, heq⟩
  refine hext.ne_lock (p'.stem ++ ("-r".toList ++ (toString r).toList)) p.stem i ?_
  rw [← stem_rotRest]
  exact (Place.path_inj heq).2.2.symm

theorem r_notMem_toString (r : Int) : 'r' ∉ (toString r).toList := by
  intro hmem
  rcases mem_toString_int hmem with h | h
  · exact absurd h (by decide)
  · exact absurd h (by decide)

/-- The name of a rotation spells its upload and its number. -/
theorem rotation_inj {p' : Place} {ext' : List Char} {r r' : Int} (hp : p.Valid)
    (hext : AcceptedExt ext) (hext' : AcceptedExt ext')
    (h : p.path (root s) (rotRest r ext) = p'.path (root s) (rotRest r' ext')) :
    p.path (root s) ext = p'.path (root s) ext' ∧ r = r' := by
  obtain ⟨ha, hb, hrest⟩ := Place.path_inj h
  rw [stem_rotRest, stem_rotRest] at hrest
  obtain ⟨y, rfl, hdot, -⟩ := hext.eq
  obtain ⟨y', rfl, hdot', -⟩ := hext'.eq
  obtain rfl := last_dot_inj hdot hdot' hrest
  have hr : 'r' ∉ p.stem ++ ['-'] := by
    obtain ⟨c, h, hc, hh, hstem⟩ := hp.stem
    rw [hstem]
    simp [hc.notMem (c := 'r') (by decide), hh.notMem (c := 'r') (by decide)]
  have hrest : (p.stem ++ ['-']) ++ 'r' :: (toString r).toList = (p'.stem ++ ['-']) ++ 'r' :: (toString r').toList := by
    simpa using List.append_cancel_right hrest
  obtain ⟨hstem, -, hnumber⟩ := (List.append_cons_inj_of_notMem hr (r_notMem_toString r)).1 hrest
  refine ⟨?_, toString_int_injective (String.toList_inj.1 hnumber)⟩
  rw [Place.path, Place.path, ha, hb, List.append_cancel_right hstem]

theorem IsRotation.ne_dir {q : Path} (hq : IsRotation s q) {fs : Files} (htree : Tree (root s) fs) {node : Node}
    (h : fs.find q = some node) : node ≠ .dir := by
  obtain ⟨p, ext, r, -, -, hpath⟩ := hq
  rw [hpath, Place.path] at h
  exact (htree.third _ _ _ _ h).1

/-- Both hold the same rotations. -/
def SameRotations (s : Settings) (fs fs' : Files) : Prop :=
  ∀ q, IsRotation s q → fs'.find q = fs.find q

theorem SameRotations.trans {fs₁ fs₂ fs₃ : Files} (h : SameRotations s fs₁ fs₂) (h' : SameRotations s fs₂ fs₃) :
    SameRotations s fs₁ fs₃ :=
  fun q hq => (h' q hq).trans (h q hq)

theorem Only.sameRotations {c : Path → Prop} {st st' : St} (h : Only (root s) c st st')
    (hc : ∀ q, c q → ¬IsRotation s q) : SameRotations s st.files st'.files := by
  intro q hq
  have hchanged : ¬c q := fun hchanged => hc q hchanged hq
  obtain ⟨p, ext, r, -, -, hpath⟩ := hq
  rw [Place.path] at hpath
  rw [hpath] at hchanged ⊢
  exact h.same _ _ _ hchanged

theorem Only.rotation_ne {q q' : Path} {st st' : St} (h : Only (root s) (· = q') st st') (hq : IsRotation s q)
    (hne : q ≠ q') : st'.files.find q = st.files.find q := by
  obtain ⟨p, ext, r, -, -, hpath⟩ := hq
  rw [Place.path] at hpath
  rw [hpath] at hne ⊢
  exact h.same _ _ _ hne

/-! ## The part in front of the rotation -/

theorem wp_receive_rotations (hnamed : Named s p ext n) (content : List UInt8) (chunk chunks : Nat)
    (htree : Tree (root s) st.files) :
    (receive e n content chunk chunks).wp calls
      (fun _ st' => Tree (root s) st'.files ∧ SameRotations s st.files st'.files) (fun _ _ => False) st := by
  have hfinal : ¬IsRotation s (p.path (root s) ext) := not_isRotation_final hnamed.valid hnamed.accepted
  have hsaved {st' : St} (h : Only (root s) (fun q => q = p.path (root s) (lockRest chunk) ∨
      q = p.path (root s) (partRest chunk)) st st') : SameRotations s st.files st'.files :=
    h.sameRotations fun q hq => by
      rcases hq with hq | hq <;> rw [hq]
      · exact not_isRotation_lock chunk
      · exact not_isRotation_part chunk
  by_cases hchunks : chunks = 1
  · subst hchunks
    refine Prog.wp_mono (fun r st' h => ?_) (fun _ _ h => h) (wp_receive_whole e hnamed content chunk htree)
    obtain ⟨-, honly, -⟩ := h
    refine ⟨honly.tree, honly.sameRotations fun q hq => ?_⟩
    rw [hq]
    exact hfinal
  · refine Prog.wp_mono (fun r st' h => ?_) (fun _ _ h => h) (wp_receive_parts e hnamed content hchunks htree)
    obtain ⟨st₁, honly, -, h⟩ := h
    rcases h with ⟨-, rfl, -⟩ | ⟨f, bytes, -, -, -, hjoined, -, -⟩
    · exact ⟨honly.tree, hsaved honly⟩
    · refine ⟨hjoined.tree, (hsaved honly).trans (hjoined.sameRotations fun q hq => ?_)⟩
      rcases hq with hq | ⟨j, -, hq⟩ <;> rw [hq]
      · exact hfinal
      · exact not_isRotation_part j

/-- A request finds its upload, and says so, or says nothing of it. -/
def Answers (n : Names) (r : Bool × List (String × String) × Bool) : Prop :=
  if r.2.2 = true then ∃ name size message, r.2.1 = fileFields true n name size message
  else ("exists", "true") ∉ r.2.1

theorem wp_submit_rotations {hash name : String} {size : Nat} (hnamed : Named s p ext n) (chunk chunks : Nat)
    (htree : Tree (root s) st.files) :
    (submit e n hash name size chunk chunks).wp calls
      (fun r st' => Answers n r ∧ SameRotations s st.files st'.files) (fun _ _ => False) st := by
  unfold submit
  split
  · rename_i content _
    refine Prog.wp_seq (wp_receive_rotations hnamed content chunk chunks htree) (fun r st₁ h₁ => ?_)
      (fun _ _ h => h)
    obtain ⟨htree₁, hsame⟩ := h₁
    cases r with
    | none => exact ⟨by simp [Answers], hsame⟩
    | some bytes =>
      rw [Prog.wp_bind, wp_files]
      dsimp only
      split
      · rw [Prog.wp_bind, wp_files]
        refine ⟨by simp [Answers], hsame.trans fun q hq => ?_⟩
        have hne : q ≠ resolve n.path := by
          rintro rfl
          rw [hnamed.resolve_path] at hq
          exact not_isRotation_final hnamed.valid hnamed.accepted hq
        dsimp only
        rw [Files.unlink]
        split
        · rw [Files.find_remove, if_neg hne]
        · rfl
      · exact ⟨⟨name, size, _, rfl⟩, hsame⟩
  · exact ⟨by simp [Answers], fun _ _ => rfl⟩

theorem wp_ask_rotations (name : String) (size : Nat) :
    (ask n name size).wp calls (fun r st' => Answers n r ∧ st' = st) (fun _ _ => False) st := by
  rw [ask, Prog.wp_bind, wp_files]
  dsimp only
  split
  · exact ⟨⟨name, size, _, rfl⟩, rfl⟩
  · refine ⟨?_, rfl⟩
    rw [Answers, if_neg Bool.false_ne_true]
    exact fun h => absurd (mem_fileFields h) Bool.false_ne_true

/-! ## The rotation -/

/-- The angle a request asks for. -/
def angle (e : Env) : Int := postOrGetInt e "rotation" 0

theorem tmod_ne_zero_iff {a : Int} : a.tmod 360 ≠ 0 ↔ ¬(360 : Int) ∣ a :=
  not_congr (Int.dvd_iff_tmod_eq_zero).symm

/-- A rotation that is there stays; else it is made of the upload. -/
theorem wp_rotate_made (hnamed : Named s p ext n) {rotation : Int} {m : Names} (hret : rotated n rotation = .ret m)
    (hm : resolve m.path = p.path (root s) (rotRest (bucket rotation) ext)) (htree : Tree (root s) st.files)
    {content : List UInt8} (hread : st.files.read n.path = some content) :
    (rotate e n rotation).wp calls
      (fun m' st' => m' = m ∧ Only (root s) (· = p.path (root s) (rotRest (bucket rotation) ext)) st st' ∧
        (st'.files = st.files ∧ (st.files.find (p.path (root s) (rotRest (bucket rotation) ext))).isSome = true ∨
          ∃ bytes mtime, e.lib.rotate content rotation = some bytes ∧
            st'.files.find (p.path (root s) (rotRest (bucket rotation) ext)) = some (.file bytes mtime)))
      (fun err _ => err = .magick) st := by
  obtain ⟨mtime, hstored⟩ := Files.find_of_read hread
  rw [hnamed.resolve_path] at hstored
  have hdir : st.files.find (root s ++ [p.a, p.b]) = some .dir := (htree.third _ _ _ _ hstored).2
  rw [rotate, hret, Prog.ret_bind, Prog.wp_bind, wp_files]
  dsimp only
  split
  · rename_i hthere
    rw [Files.pathExists, hm] at hthere
    exact ⟨rfl, only_refl htree, .inl ⟨rfl, hthere⟩⟩
  · have hput := Only.put (p := p) (rotRest (bucket rotation) ext) htree hdir [] e.chance.now
    have hempty : (st.files.put (p.path (root s) (rotRest (bucket rotation) ext)) (.file [] e.chance.now)).find
        (resolve m.path) = some (.file [] e.chance.now) := by rw [hm, Files.find_put, if_pos rfl]
    have hsame : (st.files.put (p.path (root s) (rotRest (bucket rotation) ext)) (.file [] e.chance.now)).read n.path =
        some content := by
      refine Files.read_of_find mtime ?_
      rw [hnamed.resolve_path, Files.find_put, if_neg fun heq => rotRest_ne _
        (List.append_cancel_left (Place.path_inj heq).2.2.symm)]
      exact hstored
    rw [Prog.wp_bind, wp_files, create_place hm htree hdir, Prog.wp_bind, wp_files]
    dsimp only
    rw [hsame]
    split
    · rfl
    · rename_i bytes hbytes
      rw [Prog.wp_bind, wp_files]
      have hwrite := Files.writeAt_end hempty bytes e.chance.now
      rw [List.length_nil, List.nil_append, hm] at hwrite
      have hwritten := hput.trans (only_writeAt hput.tree hm 0 bytes e.chance.now)
      dsimp only
      refine ⟨rfl, hwritten.mono fun q hq => hq.elim id id, .inr ⟨bytes, e.chance.now, hbytes, ?_⟩⟩
      rw [hwrite, Files.find_put, if_pos rfl]

/-- A response says that a file exists, and gives an address. -/
def Gives (r : Response) (url : String) : Prop :=
  ∃ status fields, Output.json status fields ∈ r.body ∧ ("exists", "true") ∈ fields ∧ ("fileUrl", url) ∈ fields

/-- The upload a request is about has a proper name. -/
structure Concerns (e : Env) (ext : String) : Prop where
  hash : isHex (postOrGet e "md5") = true ∧ 4 ≤ (postOrGet e "md5").length
  extension : CppBlog.extension (postOrGet e "name") = .ret ext
  accepted : AcceptedExt ext.toList

theorem Concerns.isRotation {ext : String} (h : Concerns e ext) : IsRotation e.settings (rotationFile e ext.toList) :=
  isRotation_path (valid_place h.hash.1 h.hash.2 _) h.accepted _

/-- A request made a rotation of its upload, and says that the upload exists. -/
structure Turned (e : Env) (ext : String) (st : St) : Prop where
  concerns : Concerns e ext
  rotates : ¬(360 : Int) ∣ angle e
  tells : Tells st.own.response
  turned : ∃ content mtime bytes mtime', st.files.find (target e ext.toList) = some (.file content mtime) ∧
    e.lib.rotate content ((angle e).tmod 360) = some bytes ∧
    st.files.find (rotationFile e ext.toList) = some (.file bytes mtime')

/-- What a request leaves that ends: the rotations there were, perhaps one more, and in its answer the address
of the one it asks for. -/
structure Ended (e : Env) (st st' : St) : Prop where
  tree : Tree (root e.settings) st'.files
  rotations : ∀ q, IsRotation e.settings q → st'.files.find q = st.files.find q ∨
    ∃ ext, Turned e ext st' ∧ q = rotationFile e ext.toList
  told : st.own.response.body = [] → ¬(360 : Int) ∣ angle e → ∀ url, Gives st'.own.response url →
    ∃ ext, Concerns e ext ∧ resolve (Media.trimSlashes e.settings.documentRoot ++ url) = rotationFile e ext.toList ∧
      (st'.files.find (rotationFile e ext.toList)).isSome = true

theorem mem_renamed {fields : List (String × String)} {url url' : String}
    (h : ("fileUrl", url') ∈ fields.map (fun f => if f.1 = "fileUrl" then ("fileUrl", url) else f)) : url' = url := by
  obtain ⟨f, -, hf⟩ := List.mem_map.1 h
  split at hf
  · exact (Prod.mk.inj hf).2.symm
  · rename_i hname
    exact absurd (congrArg Prod.fst hf) hname

theorem gives_append {r : Response} {status : Bool} {fields : List (String × String)} {url : String}
    (hbody : r.body = [.json status fields]) (h : Gives r url) : ("exists", "true") ∈ fields ∧ ("fileUrl", url) ∈ fields := by
  obtain ⟨status', fields', hmem, hexists, hurl⟩ := h
  rw [hbody, List.mem_singleton] at hmem
  obtain ⟨-, rfl⟩ := Output.json.inj hmem
  exact ⟨hexists, hurl⟩

/-- The end of a request: the rotation and the answer. -/
theorem wp_conclude_ended {ext : String} (hconcerns : Concerns e ext)
    (hnamed : Named e.settings (place (postOrGet e "md5") (toSize (postOrGetLong e "size" 0))) ext.toList n)
    (hnames : n.path.toList = (Media.trimSlashes e.settings.documentRoot).toList ++ n.url.toList)
    (htree : Tree (root e.settings) st.files) {r : Bool × List (String × String) × Bool} (hanswers : Answers n r)
    (hfound : r.2.2 = true → ∃ content, st.files.read n.path = some content) :
    (conclude e n ((angle e).tmod 360) r).wp calls (fun _ st' => Ended e st st') (fun err _ => err = .magick) st := by
  unfold conclude
  split
  · rename_i hrotates
    obtain ⟨hthere, hangle⟩ := hrotates
    rw [Answers, if_pos hthere] at hanswers
    obtain ⟨name, size, message, hfields⟩ := hanswers
    obtain ⟨content, hread⟩ := hfound hthere
    obtain ⟨m, hret, hm⟩ := rotated_eq hnamed ((angle e).tmod 360)
    refine Prog.wp_seq (wp_rotate_made hnamed hret hm htree hread) (fun m' st₁ h₁ => ?_) (fun _ _ h => h)
    obtain ⟨rfl, honly, hmade⟩ := h₁
    refine wp_answer fun st₂ hfiles hresponse => ?_
    rw [hfields] at hresponse
    have htells : Tells st₂.own.response := by
      refine ⟨r.1, _, by rw [hresponse]; exact List.mem_append_right _ (List.mem_singleton_self _), ?_⟩
      exact List.mem_map.2 ⟨("exists", toString true), List.mem_cons_self, rfl⟩
    have hfile : rotationFile e ext.toList =
        (place (postOrGet e "md5") (toSize (postOrGetLong e "size" 0))).path (root e.settings)
          (rotRest (bucket ((angle e).tmod 360)) ext.toList) := rfl
    rw [← hfile] at honly hmade hm
    refine ⟨hfiles ▸ honly.tree, fun q hq => ?_, fun hbody _ url hgives => ?_⟩
    · rw [hfiles]
      by_cases hown : q = rotationFile e ext.toList
      · rcases hmade with ⟨hsame, -⟩ | ⟨bytes, mtime, hbytes, hfind⟩
        · exact .inl (by rw [hsame])
        · obtain ⟨mtime', hstored⟩ := Files.find_of_read hread
          rw [hnamed.resolve_path] at hstored
          have hne : target e ext.toList ≠ rotationFile e ext.toList := fun heq =>
            rotRest_ne _ (List.append_cancel_left (Place.path_inj heq).2.2.symm)
          refine .inr ⟨ext, ⟨hconcerns, tmod_ne_zero_iff.1 hangle, htells, content, mtime', bytes, mtime, ?_, hbytes, ?_⟩,
            hown⟩
          · rw [hfiles]
            exact (honly.same _ _ _ hne).trans hstored
          · rw [hfiles]
            exact hfind
      · exact .inl (honly.rotation_ne hq hown)
    · have hown : st₁.own = st.own := by
        obtain ⟨fs', hrest⟩ := honly.rest
        rw [hrest]
      rw [hown, hbody, List.nil_append] at hresponse
      obtain rfl := mem_renamed (gives_append hresponse hgives).2
      have htext := rotated_url hnames hnamed.url hnamed.accepted hret
      rw [← String.toList_append] at htext
      refine ⟨ext, hconcerns, by rw [← String.toList_inj.1 htext, hm], ?_⟩
      rw [hfiles]
      rcases hmade with ⟨hsame, hthere⟩ | ⟨bytes, mtime, -, hfind⟩
      · rw [hsame]
        exact hthere
      · rw [hfind]
        rfl
  · rename_i hnot
    refine wp_answer fun st' hfiles hresponse => ⟨hfiles ▸ htree, fun q _ => .inl (by rw [hfiles]), ?_⟩
    intro hbody hangle url hgives
    rw [hbody, List.nil_append] at hresponse
    have hthere : ¬r.2.2 = true := fun hthere => hnot ⟨hthere, tmod_ne_zero_iff.2 hangle⟩
    rw [Answers, if_neg hthere] at hanswers
    exact absurd (gives_append hresponse hgives).1 hanswers

attribute [local irreducible] names

/-- What stands in front of the rotation finds the upload, or says nothing of it. -/
theorem wp_found_rotations {hash name : String} {size : Nat} (hnamed : Named e.settings (place hash size) ext n)
    (htree : Tree (root e.settings) st.files) :
    (if e.req.method = "POST" then
      submit e n hash name size (toSize (postOrGetLong e "chunk" 0)) (toSize (postOrGetLong e "chunks" 1))
    else ask n name size).wp calls
      (fun r st' => Answers n r ∧ st'.own.response = st.own.response ∧ SameRotations e.settings st.files st'.files)
      (fun _ _ => False) st := by
  split
  · exact Prog.wp_mono (fun r st' h => ⟨h.1.1, h.2, h.1.2⟩) (fun _ _ h => h.1)
      (Prog.wp_and (wp_submit_rotations hnamed _ _ htree)
        ((OnFiles.submit e n hash name size _ _).within (R := SameResponse) st))
  · refine Prog.wp_mono (fun r st' h => ?_) (fun _ _ h => h) (wp_ask_rotations name size)
    obtain ⟨hanswers, rfl⟩ := h
    exact ⟨hanswers, rfl, fun _ _ => rfl⟩

theorem Ended.behind {st₁ st' : St} (h : Ended e st₁ st') (hresponse : st₁.own.response = st.own.response)
    (hsame : SameRotations e.settings st.files st₁.files) : Ended e st st' := by
  refine ⟨h.tree, fun q hq => ?_, fun hbody => h.told (hresponse ▸ hbody)⟩
  rw [← hsame q hq]
  exact h.rotations q hq

theorem wp_body_ended (hs : Rooted e.settings) (hmd5 : isHex (postOrGet e "md5") = true) {ext : String}
    (hext : CppBlog.extension (postOrGet e "name") = .ret ext) (haccepted : AcceptedExt ext.toList)
    (htree : Tree (root e.settings) st.files) :
    (body e ext).wp calls (fun _ st' => Ended e st st') (fun err st' => err = .magick ∨ st' = st) st := by
  unfold body
  by_cases h4 : 4 ≤ (postOrGet e "md5").length
  swap
  · rw [names_eq_throw e (Nat.not_le.1 h4)]
    exact .inr rfl
  obtain ⟨n, hnames, hbase, hpath, hurl⟩ := names_eq_ret e h4 ext (toSize (postOrGetLong e "size" 0))
  have hnamed : Named e.settings (place (postOrGet e "md5") (toSize (postOrGetLong e "size" 0))) ext.toList n :=
    ⟨hs, valid_place hmd5 h4 _, haccepted, hbase, hpath, hurl⟩
  rw [hnames, Prog.ret_bind]
  refine Prog.wp_seq (Prog.wp_and (wp_found hnamed htree) (wp_found_rotations hnamed htree)) (fun r st₁ h₁ => ?_)
    (fun _ _ h => h.1.elim)
  obtain ⟨⟨htree₁, hfound⟩, hanswers, hresponse, hsame⟩ := h₁
  refine Prog.wp_mono (fun _ st' h => h.behind hresponse hsame) (fun _ _ h => .inl h)
    (wp_conclude_ended ⟨⟨hmd5, h4⟩, hext, haccepted⟩ hnamed (names_url hnames) htree₁ hanswers fun hthere => ?_)
  obtain ⟨content, hread, -⟩ := hfound hthere
  exact ⟨content, hread⟩

/-- What an upload request leaves, in which no image fails to be decoded. -/
theorem wp_prepare_ended (hs : Rooted e.settings) (htree : Tree (root e.settings) st.files) :
    (prepare e).wp calls (fun _ st' => Ended e st st')
      (fun err st' => err = .magick ∨ st'.files = st.files ∧ st'.own.response = st.own.response) st := by
  by_cases hchecked : Checked e
  · obtain ⟨ext, hext, haccepted⟩ := extension_of_acceptedName hchecked.2.1
    rw [prepare_eq_body hchecked.1 hchecked.2.1 hchecked.2.2 hext, Prog.wp_bind]
    refine wp_adminPrepare (fun c st₁ hfiles hresponse => ?_) (fun _ _ hfiles hresponse => .inr ⟨hfiles, hresponse⟩)
    refine Prog.wp_mono (fun _ st' h => h.behind hresponse fun q _ => by rw [hfiles]) (fun _ st' h => ?_)
      (wp_body_ended hs hchecked.1 hext haccepted (hfiles ▸ htree))
    rcases h with h | rfl
    · exact .inl h
    · exact .inr ⟨hfiles, hresponse⟩
  · obtain ⟨message, hprepare⟩ : ∃ message, prepare e = answer false [("message", message)] := by
      unfold prepare
      dsimp only
      split
      · exact ⟨_, rfl⟩
      rename_i hparams
      split
      · exact ⟨_, rfl⟩
      rename_i hname
      simp only [not_or, not_not] at hparams hname
      exact absurd ⟨hparams.2.1, hname, hparams.2.2.2⟩ hchecked
    rw [hprepare]
    refine wp_answer fun st' hfiles hresponse => ⟨hfiles ▸ htree, fun q _ => .inl (by rw [hfiles]), ?_⟩
    intro hbody _ url hgives
    rw [hbody, List.nil_append] at hresponse
    exact absurd (gives_append hresponse hgives).1 (by simp)

/-! ## Runs -/

section
variable {site : Site} {fs : Files}

/-- The file a request is about. -/
def About (e : Env) (q : Path) : Prop :=
  ∃ ext, CppBlog.extension (postOrGet e "name") = .ret ext ∧ q = target e ext.toList

/-- A directory of uploads without rotations. -/
structure Unturned (s : Settings) (fs : Files) : Prop where
  tree : Tree (root s) fs
  rotations : ∀ q, IsRotation s q → fs.find q = none

/-- What a request is answered. -/
def Turn.response (site : Site) (t : Turn) (fs : Files) : Response :=
  finish (t.outcome site fs).1 (t.outcome site fs).2.2.own.response

/-- A request makes a rotation of the upload it finds, and says that the upload exists. -/
structure MadeBy (site : Site) (t : Turn) (fs : Files) (q : Path) (bytes : List UInt8) : Prop where
  rotates : ¬(360 : Int) ∣ angle (site.env t.arrival)
  tells : Tells (t.response site fs)
  turned : ∃ ext content mtime, Concerns (site.env t.arrival) ext ∧
    (t.outcome site fs).2.1.files.find (target (site.env t.arrival) ext.toList) = some (.file content mtime) ∧
    site.lib.rotate content ((angle (site.env t.arrival)).tmod 360) = some bytes ∧
    q = rotationFile (site.env t.arrival) ext.toList

/-- What a request finds. -/
def Turn.start (t : Turn) (fs : Files) : St := viewOf ({ db := t.db, cache := t.cache, files := fs }, t.l)

theorem Turn.ends (hs : Rooted site.settings) (t : Turn) (htree : Tree (root site.settings) fs) :
    Prog.Ends (fun _ st' => Ended (site.env t.arrival) (t.start fs) st')
      (fun err st' => err = .magick ∨ st'.files = fs ∧ st'.own.response = t.l.own.response)
      (t.outcome site fs).1 (viewOf (t.outcome site fs).2) :=
  Prog.wp_run (M := calls) handle viewOf (fun o c => outcome_handle o c)
    (c := ({ db := t.db, cache := t.cache, files := fs }, t.l))
    (@wp_prepare_ended (site.env t.arrival) (t.start fs) hs htree)

-- Unfolding an outcome would run the request.
attribute [local irreducible] Turn.outcome

/-- What a request does to the rotations. -/
theorem Turn.rotations (hs : Rooted site.settings) (t : Turn) (htree : Tree (root site.settings) fs)
    (hdecoded : (t.outcome site fs).1 ≠ .error .magick) :
    Tree (root site.settings) (t.outcome site fs).2.1.files ∧
      ∀ q, IsRotation site.settings q → (t.outcome site fs).2.1.files.find q = fs.find q ∨
        ∃ bytes mtime, (t.outcome site fs).2.1.files.find q = some (.file bytes mtime) ∧ MadeBy site t fs q bytes := by
  have hends := t.ends hs htree
  cases hr : (t.outcome site fs).1 with
  | error err =>
    rw [hr] at hends
    rcases hends with rfl | ⟨hfiles, -⟩
    · exact absurd hr hdecoded
    · have hfiles : (t.outcome site fs).2.1.files = fs := hfiles
      rw [hfiles]
      exact ⟨htree, fun q _ => .inl rfl⟩
  | ok u =>
    have hresponse : t.response site fs = (t.outcome site fs).2.2.own.response := by rw [Turn.response, hr]; rfl
    rw [hr] at hends
    obtain ⟨hafter, hrotations, -⟩ : Ended _ _ _ := hends
    refine ⟨hafter, fun q hq => (hrotations q hq).imp id ?_⟩
    rintro ⟨ext, ⟨hconcerns, hangle, htells, content, mtime, bytes, mtime', hstored, hbytes, hfind⟩, hpath⟩
    rw [← hpath] at hfind
    have htells : Tells (t.response site fs) := by
      rw [hresponse]
      exact htells
    exact ⟨bytes, mtime', hfind, hangle, htells, ext, content, mtime, hconcerns, hstored, hbytes, hpath⟩

/-- No image in the run fails to be decoded. -/
def Decoded (site : Site) (turns : List Turn) (fs : Files) : Prop :=
  ∀ pre t post, turns = pre ++ t :: post → (t.outcome site (afterTurns site pre fs)).1 ≠ .error .magick

theorem afterTurns_concat (turns : List Turn) (t : Turn) :
    afterTurns site (turns ++ [t]) fs = (t.outcome site (afterTurns site turns fs)).2.1.files := by
  rw [afterTurns_append]
  rfl

/-- Every rotation that is there after a run was made in it. -/
theorem afterTurns_rotations (hs : Rooted site.settings) (hstart : Unturned site.settings fs) (turns : List Turn)
    (hdecoded : Decoded site turns fs) :
    Tree (root site.settings) (afterTurns site turns fs) ∧
      ∀ q, IsRotation site.settings q → ∀ bytes mtime, (afterTurns site turns fs).find q = some (.file bytes mtime) →
        ∃ pre t post, turns = pre ++ t :: post ∧ MadeBy site t (afterTurns site pre fs) q bytes := by
  induction turns using List.reverseRecOn with
  | nil =>
    refine ⟨hstart.tree, fun q hq bytes mtime hfind => ?_⟩
    have hfind : fs.find q = some (.file bytes mtime) := hfind
    rw [hstart.rotations q hq] at hfind
    exact absurd hfind (by simp)
  | append_singleton turns t ih =>
    obtain ⟨htree, hmade⟩ := ih fun pre t' post heq => hdecoded pre t' (post ++ [t]) (by rw [heq]; simp)
    obtain ⟨hafter, hrotations⟩ := t.rotations hs htree (hdecoded turns t [] rfl)
    rw [afterTurns_concat]
    refine ⟨hafter, fun q hq bytes mtime hfind => ?_⟩
    rcases hrotations q hq with hsame | ⟨bytes', mtime', hfind', hby⟩
    · obtain ⟨pre, t', post, heq, hby⟩ := hmade q hq bytes mtime (hsame ▸ hfind)
      exact ⟨pre, t', post ++ [t], by rw [heq]; simp, hby⟩
    · obtain ⟨rfl, -⟩ := Node.file.inj (Option.some.inj (hfind'.symm.trans hfind))
      exact ⟨turns, t, [], rfl, hby⟩

/-- An answer that gives an address gives that of the rotation asked for, which is there. -/
theorem Turn.gives (hs : Rooted site.settings) (t : Turn) (htree : Tree (root site.settings) fs)
    (hfresh : t.l.own.response = {}) (hangle : ¬(360 : Int) ∣ angle (site.env t.arrival)) {url : String}
    (hgives : Gives (t.response site fs) url) (hdecoded : (t.outcome site fs).1 ≠ .error .magick) :
    ∃ ext, Concerns (site.env t.arrival) ext ∧
      resolve (Media.trimSlashes site.settings.documentRoot ++ url) =
        rotationFile (site.env t.arrival) ext.toList ∧
      ((t.outcome site fs).2.1.files.find (rotationFile (site.env t.arrival) ext.toList)).isSome = true := by
  have hends := t.ends hs htree
  cases hr : (t.outcome site fs).1 with
  | error err =>
    rw [Turn.response, hr] at hgives
    rw [hr] at hends
    rcases hends with rfl | ⟨-, hresponse⟩
    · exact absurd hr hdecoded
    · have hresponse : (t.outcome site fs).2.2.own.response = {} := hresponse.trans hfresh
      obtain ⟨status, fields, hmem, -⟩ := hgives
      simp [finish, hresponse] at hmem
  | ok u =>
    have hresponse : t.response site fs = (t.outcome site fs).2.2.own.response := by rw [Turn.response, hr]; rfl
    rw [hresponse] at hgives
    rw [hr] at hends
    obtain ⟨-, -, htold⟩ : Ended _ _ _ := hends
    exact htold (congrArg Response.body hfresh) hangle url hgives

/-- The image under a path is the same wherever it is there. -/
def Keeps (site : Site) (turns : List Turn) (fs : Files) (q : Path) (original : List UInt8) : Prop :=
  ∀ pre post content mtime, turns = pre ++ post →
    (afterTurns site pre fs).find q = some (.file content mtime) → content = original

/-- The request asks for the angle that those before it asked for who were told of the same upload and whose
angle lies in the same quarter. -/
def OneAngle (site : Site) (turns : List Turn) (fs : Files) (q : Path) (t : Turn) : Prop :=
  ∀ pre t' post, turns = pre ++ t' :: post → Tells (t'.response site (afterTurns site pre fs)) →
    About (site.env t'.arrival) q → ¬(360 : Int) ∣ angle (site.env t'.arrival) →
    bucket ((angle (site.env t'.arrival)).tmod 360) = bucket ((angle (site.env t.arrival)).tmod 360) →
    angle (site.env t'.arrival) % 360 = angle (site.env t.arrival) % 360

/-- The address in an answer is that of a file that holds the image, turned by the angle asked for. -/
def ShowsTurned (site : Site) (t : Turn) (fs : Files) (original : List UInt8) : Prop :=
  ∀ url, Gives (t.response site fs) url →
    ∃ bytes mtime x, (t.outcome site fs).2.1.files.find
        (resolve (Media.trimSlashes site.settings.documentRoot ++ url)) = some (.file bytes mtime) ∧
      site.lib.rotate original x = some bytes ∧ x % 360 = angle (site.env t.arrival) % 360

theorem tmod_emod (a : Int) : a.tmod 360 % 360 = a % 360 := by
  have h := Int.mul_tdiv_add_tmod a 360
  omega

/-- The last of the requests, or one before it. -/
theorem split_concat {α : Type} {l pre post : List α} {x y : α} (h : l ++ [x] = pre ++ y :: post) :
    y = x ∨ ∃ post', l = pre ++ y :: post' := by
  induction post using List.reverseRecOn with
  | nil =>
    exact .inl (List.append_inj_right' h rfl |> List.singleton_inj.1).symm
  | append_singleton post z _ =>
    refine .inr ⟨post, ?_⟩
    rw [← List.cons_append, ← List.append_assoc] at h
    exact (List.append_inj' h rfl).1

/-- **The address in an answer is that of the image turned by the angle asked for**, in every run whose requests
for one quarter ask for one angle. -/
theorem shows_turned (hs : Rooted site.settings) (hstart : Unturned site.settings fs) (turns : List Turn) (t : Turn)
    {q : Path} {original : List UInt8} (habout : About (site.env t.arrival) q)
    (hdecoded : Decoded site (turns ++ [t]) fs) (hkeeps : Keeps site (turns ++ [t]) fs q original)
    (hfresh : t.l.own.response = {}) (hangle : ¬(360 : Int) ∣ angle (site.env t.arrival))
    (hone : OneAngle site turns fs q t) : ShowsTurned site t (afterTurns site turns fs) original := by
  intro url hgives
  have htree := (afterTurns_rotations hs hstart turns fun pre t' post heq =>
    hdecoded pre t' (post ++ [t]) (by rw [heq]; simp)).1
  obtain ⟨hafter, hmade⟩ := afterTurns_rotations hs hstart (turns ++ [t]) hdecoded
  rw [afterTurns_concat] at hafter hmade
  obtain ⟨ext, hconcerns, hurl, hthere⟩ := t.gives hs htree hfresh hangle hgives (hdecoded turns t [] rfl)
  have hrotation : IsRotation site.settings (rotationFile (site.env t.arrival) ext.toList) := hconcerns.isRotation
  obtain ⟨node, hnode⟩ := Option.isSome_iff_exists.1 hthere
  have hfile := hrotation.ne_dir hafter hnode
  cases node with
  | dir => exact absurd rfl hfile
  | file bytes mtime =>
    obtain ⟨pre, t', post, heq, hangle', htells, ext', content, mtime', hconcerns', hstored, hbytes, hpath⟩ :=
      hmade _ hrotation bytes mtime hnode
    -- one file is the rotation of one upload in one quarter
    obtain ⟨htarget, hbucket⟩ := rotation_inj (valid_place hconcerns.hash.1 hconcerns.hash.2 _) hconcerns.accepted
      hconcerns'.accepted hpath
    obtain ⟨ext₀, hext₀, hq⟩ := habout
    obtain rfl := Prog.ret.inj (hext₀.symm.trans hconcerns.extension)
    have hq : q = target (site.env t'.arrival) ext'.toList := hq.trans htarget
    have hcontent : content = original := by
      refine hkeeps (pre ++ [t']) post content mtime' (by rw [heq]; simp) ?_
      rw [afterTurns_concat, hq]
      exact hstored
    have hsame : angle (site.env t'.arrival) % 360 = angle (site.env t.arrival) % 360 := by
      rcases split_concat heq with rfl | ⟨post', hpre⟩
      · rfl
      · exact hone pre t' post' hpre htells ⟨ext', hconcerns'.extension, hq⟩ hangle' hbucket.symm
    refine ⟨bytes, mtime, (angle (site.env t'.arrival)).tmod 360, ?_, hcontent ▸ hbytes, (tmod_emod _).trans hsame⟩
    rw [hurl]
    exact hnode

theorem unturned_oneFile {a b x : List Char} (hx : FinalName x) (content : List UInt8) :
    Unturned s (oneFile (root s) a b x content) := by
  refine ⟨tree_oneFile _ _ _ _ _, ?_⟩
  rintro q ⟨p, ext, r, hp, -, hpath⟩
  have hne {l : Path} (h : [p.a, p.b, p.stem ++ rotRest r ext] ≠ l) : q ≠ root s ++ l := by
    rw [hpath, Place.path]
    exact append_ne h
  have hfile : q ≠ root s ++ [a, b, x] := hne fun h => not_finalName_rot hp r ext (by
    simp only [List.cons.injEq, and_true] at h
    exact h.2.2 ▸ hx)
  have hroot : q ≠ root s := by
    have h : q ≠ root s ++ [] := hne (by simp)
    rwa [List.append_nil] at h
  rw [oneFile, Files.find_put, if_neg hfile, Files.find_put, if_neg (hne (by simp)), Files.find_put,
    if_neg (hne (by simp)), Files.find_cons, if_neg hroot]
  rfl

/-- The runs before the requests of a run of two. -/
theorem pre_of_two {t t' u : Turn} {pre post : List Turn} (h : [t] ++ [t'] = pre ++ u :: post) :
    pre = [] ∧ u = t ∨ pre = [t] ∧ u = t' := by
  rcases pre with _ | ⟨a, _ | ⟨b, pre⟩⟩
  · exact .inl ⟨rfl, (List.cons.inj h).1.symm⟩
  · obtain ⟨rfl, hrest⟩ := List.cons.inj h
    exact .inr ⟨rfl, (List.cons.inj hrest).1.symm⟩
  · simp at h

theorem decoded_two {t t' : Turn} (h : (t.outcome site fs).1 ≠ .error .magick)
    (h' : (t'.outcome site (afterTurns site [t] fs)).1 ≠ .error .magick) : Decoded site ([t] ++ [t']) fs := by
  intro pre u post heq
  rcases pre_of_two heq with ⟨rfl, rfl⟩ | ⟨rfl, rfl⟩
  · exact h
  · exact h'

theorem keeps_two {t t' : Turn} {q : Path} {original : List UInt8} {m : Nat}
    (h : fs.find q = some (.file original m)) (h₁ : (afterTurns site [t] fs).find q = some (.file original m))
    (h₂ : (afterTurns site ([t] ++ [t']) fs).find q = some (.file original m)) :
    Keeps site ([t] ++ [t']) fs q original := by
  intro pre post content mtime heq hfind
  have hcontent (h : some (.file content mtime) = some (Node.file original m)) : content = original :=
    (Node.file.inj (Option.some.inj h)).1
  rcases post with _ | ⟨u, post⟩
  · rw [List.append_nil] at heq
    rw [← heq, h₂] at hfind
    exact hcontent hfind.symm
  · rcases pre_of_two heq with ⟨rfl, -⟩ | ⟨rfl, -⟩
    · exact hcontent (hfind.symm.trans h)
    · exact hcontent (hfind.symm.trans h₁)

end

/-- A site whose images are followed by the angle they were turned by. -/
def angleSite : Site := { oneByteSite with lib := { oneByteSite.lib with
  rotate := fun content x => some (content ++ [UInt8.ofNat (x % 360).toNat]) } }

/-- A query for a rotation of an image of one byte. -/
def angleTurn (rotation : String) : Turn :=
  oneByteTurn "GET" [] [("md5", "0cc175b9c0f1b6a831c399e269772661"), ("name", "a.png"), ("size", "1"),
    ("rotation", rotation)]

def angleFiles : Files :=
  oneFile (root angleSite.settings) "0c".toList "c1".toList "75b9c0f1b6a831c399e269772661-1.png".toList [97]

/-- The path of that image. -/
def anglePath : Path :=
  root angleSite.settings ++ ["0c".toList, "c1".toList, "75b9c0f1b6a831c399e269772661-1.png".toList]

theorem unturned_angleFiles : Unturned angleSite.settings angleFiles := by
  refine unturned_oneFile ⟨"75b9c0f1b6a831c399e269772661".toList, "1".toList, ".png".toList, ?_, ?_,
    ⟨"png", by decide, by decide⟩, by decide⟩ [97]
  · exact List.all_eq_true.1 rfl
  · exact List.all_eq_true.1 rfl

theorem about_angleTurn {rotation : String}
    (h : target (angleSite.env (angleTurn rotation).arrival) ".png".toList = anglePath) :
    About (angleSite.env (angleTurn rotation).arrival) anglePath := by
  have hext : CppBlog.extension (postOrGet (angleSite.env (angleTurn rotation).arrival) "name") =
      .ret (String.ofList ('.' :: "png".toList)) :=
    @extension_eq _ ['a'] _ (by decide) (show "a.png".toList = 'a' :: '.' :: "png".toList by decide)
  refine ⟨_, hext, ?_⟩
  rw [String.toList_ofList]
  exact h.symm

/-- The directory behind the first query. -/
def turnedFiles : Files :=
  (root angleSite.settings ++ ["0c".toList, "c1".toList, "75b9c0f1b6a831c399e269772661-1-r3.png".toList],
    .file [97, 30] (angleSite.env (angleTurn "30").arrival).chance.now) :: angleFiles

theorem outcome_first : ((angleTurn "30").outcome angleSite angleFiles).1 = .ok () ∧
    afterTurns angleSite [angleTurn "30"] angleFiles = turnedFiles := by decide +kernel

/-- A query for a rotation that is there. -/
def Served (t : Turn) : Prop :=
  (t.outcome angleSite turnedFiles).1 = .ok () ∧ (t.outcome angleSite turnedFiles).2.1.files = turnedFiles ∧
    (t.outcome angleSite turnedFiles).2.2.own.response.body = [.json true [("exists", "true"),
      ("fileUrl", "/media/upload/0c/c1/75b9c0f1b6a831c399e269772661-1-r3.png"), ("fileName", "a.png"),
      ("fileSize", "1"), ("message", "Successful transmission in seconds!")]]

instance (t : Turn) : Decidable (Served t) := inferInstanceAs (Decidable (_ ∧ _ ∧ _))

theorem Served.decoded {t : Turn} (h : Served t) : Decoded angleSite ([angleTurn "30"] ++ [t]) angleFiles := by
  refine decoded_two ?_ ?_
  · rw [outcome_first.1]
    simp
  · rw [outcome_first.2, h.1]
    simp

theorem Served.keeps {t : Turn} (h : Served t) :
    Keeps angleSite ([angleTurn "30"] ++ [t]) angleFiles anglePath [97] := by
  have hfiles : afterTurns angleSite ([angleTurn "30"] ++ [t]) angleFiles = turnedFiles := by
    rw [afterTurns_concat, outcome_first.2, h.2.1]
  refine @keeps_two _ _ _ _ _ _ 0 (by decide +kernel) ?_ ?_
  · rw [outcome_first.2]
    decide +kernel
  · rw [hfiles]
    decide +kernel

theorem shows_turned_twice :
    ShowsTurned angleSite (angleTurn "390") (afterTurns angleSite [angleTurn "30"] angleFiles) [97] := by
  have hserved : Served (angleTurn "390") := by decide +kernel
  refine @shows_turned angleSite angleFiles (show '\x00' ∉ rootText {} by decide) unturned_angleFiles
    [angleTurn "30"] (angleTurn "390") anglePath [97] (about_angleTurn (by decide +kernel)) hserved.decoded
    hserved.keeps rfl (by decide +kernel) ?_
  intro pre t' post heq _ _ _ _
  rcases pre with _ | ⟨a, pre⟩
  · obtain ⟨rfl, -⟩ := List.cons.inj heq
    decide +kernel
  · simp at heq

/-- Two angles in one quarter: the second request is given the image turned for the first. -/
theorem not_shows_turned : ¬∀ (site : Site) (fs : Files) (turns : List Turn) (t : Turn) (q : Path)
    (original : List UInt8), Rooted site.settings → Unturned site.settings fs → About (site.env t.arrival) q →
    Decoded site (turns ++ [t]) fs → Keeps site (turns ++ [t]) fs q original → t.l.own.response = {} →
    ¬(360 : Int) ∣ angle (site.env t.arrival) → ShowsTurned site t (afterTurns site turns fs) original := by
  intro h
  have hserved : Served (angleTurn "45") := by decide +kernel
  have hshows := @h angleSite angleFiles [angleTurn "30"] (angleTurn "45") anglePath [97]
    (show '\x00' ∉ rootText {} by decide) unturned_angleFiles (about_angleTurn (by decide +kernel)) hserved.decoded
    hserved.keeps rfl (by decide +kernel)
  rw [outcome_first.2, ShowsTurned, Turn.response, hserved.1, hserved.2.1] at hshows
  have hgives : Gives ((angleTurn "45").outcome angleSite turnedFiles).2.2.own.response
      "/media/upload/0c/c1/75b9c0f1b6a831c399e269772661-1-r3.png" :=
    ⟨true, _, by rw [hserved.2.2]; exact List.mem_singleton_self _, by decide, by decide⟩
  obtain ⟨bytes, mtime, x, hfind, hrotate, hx⟩ := hshows _ hgives
  have hread : turnedFiles.read (Media.trimSlashes angleSite.settings.documentRoot ++
      "/media/upload/0c/c1/75b9c0f1b6a831c399e269772661-1-r3.png") = some [97, 30] := by decide +kernel
  rw [Files.read_of_find mtime hfind] at hread
  have hx : x % 360 = 45 := hx.trans (by decide +kernel)
  have hbytes : some ([97] ++ [UInt8.ofNat (x % 360).toNat]) = some [97, 30] := Eq.trans hrotate hread
  rw [hx] at hbytes
  exact absurd hbytes (by decide)

end Upload

end CppBlog
