import CppBlog.OutOfRange

set_option autoImplicit false

/-! # Rotated images

A rotation of an uploaded image is kept in a file of its own, whose being there is what tells later
requests that it need not be made. The file is opened before the image is read. -/

namespace CppBlog

open Effect Store App Text

namespace Upload

variable {e : Env} {s : Settings} {p : Place} {ext : List Char} {n : Names} {st : St}

/-- The file a request keeps the rotation it asks for in. -/
def rotationFile (e : Env) (ext : List Char) : Path :=
  (place (postOrGet e "md5") (toSize (postOrGetLong e "size" 0))).path (root e.settings)
    (rotRest (bucket ((postOrGetInt e "rotation" 0).tmod 360)) ext)

/-! ## Before the rotation -/

/-- Where a request finds or completes its upload, the file is there. -/
theorem wp_submit_stored (e : Env) (n : Names) (md5 name : String) (size chunk chunks : Nat) (st : St) :
    (submit e n md5 name size chunk chunks).wp calls
      (fun r st' => r.2.2 = true → ∃ content, st'.files.read n.path = some content ∧ content.length = size)
      (fun _ _ => True) st := by
  unfold submit
  split
  · refine Prog.wp_seq (Prog.wp_of_forall (fun _ _ => trivial) (fun _ _ => trivial) st) (fun r st₁ _ => ?_)
      (fun _ _ h => h)
    cases r with
    | none => exact fun h => absurd h (by simp)
    | some bytes =>
      rw [Prog.wp_bind, wp_files]
      dsimp only
      split
      · rw [Prog.wp_bind, wp_files]
        exact fun h => absurd h (by simp)
      · rename_i hok
        rw [not_or, not_not, not_not] at hok
        exact fun _ => Option.map_eq_some_iff.1 hok.2
  · exact fun h => absurd h (by simp)

theorem wp_ask_stored (n : Names) (name : String) (size : Nat) (st : St) :
    (ask n name size).wp calls
      (fun r st' => st' = st ∧
        (r.2.2 = true → ∃ content, st'.files.read n.path = some content ∧ content.length = size))
      (fun _ _ => False) st := by
  rw [ask, Prog.wp_bind, wp_files]
  dsimp only
  split
  · rename_i hstored
    exact ⟨rfl, fun _ => Option.map_eq_some_iff.1 hstored⟩
  · exact ⟨rfl, fun h => absurd h (by simp)⟩

/-! ## The rotation -/

theorem rotRest_ne (r : Int) : rotRest r ext ≠ ext := by
  intro heq
  have hlength := congrArg List.length heq
  simp only [rotRest, List.length_append] at hlength
  have hr : "-r".toList.length = 2 := rfl
  omega

/-- An image that cannot be rotated leaves an empty file. -/
theorem wp_rotate_failed (hnamed : Named s p ext n) (rotation : Int) (htree : Tree (root s) st.files)
    {content : List UInt8} {mtime : Nat} (hstored : st.files.find (p.path (root s) ext) = some (.file content mtime)) :
    (rotate e n rotation).wp calls (fun _ _ => True)
      (fun _ st' => st'.files = st.files.put (p.path (root s) (rotRest (bucket rotation) ext))
        (.file [] e.chance.now)) st := by
  obtain ⟨m, hret, hm⟩ := rotated_eq hnamed rotation
  have hdir : st.files.find (root s ++ [p.a, p.b]) = some .dir := (htree.third _ _ _ _ hstored).2
  rw [rotate, hret, Prog.ret_bind, Prog.wp_bind, wp_files]
  dsimp only
  split
  · trivial
  · rw [Prog.wp_bind, wp_files, create_place hm htree hdir, Prog.wp_bind, wp_files]
    dsimp only
    split
    · rfl
    · rw [Prog.wp_bind, wp_files]
      trivial

/-- What a request leaves that could not rotate its image. -/
structure LeftEmpty (e : Env) (ext : List Char) (fs : Files) : Prop where
  rotation : ∃ mtime, fs.find (rotationFile e ext) = some (.file [] mtime)
  upload : ∃ content mtime, fs.find (target e ext) = some (.file content mtime) ∧
    content.length = toSize (postOrGetLong e "size" 0)

/-- The part of a request in front of the rotation. -/
theorem wp_found {hash name : String} {size : Nat} (hnamed : Named e.settings (place hash size) ext n)
    (htree : Tree (root e.settings) st.files) :
    (if e.req.method = "POST" then
      submit e n hash name size (toSize (postOrGetLong e "chunk" 0)) (toSize (postOrGetLong e "chunks" 1))
    else ask n name size).wp calls
      (fun r st' => Tree (root e.settings) st'.files ∧
        (r.2.2 = true → ∃ content, st'.files.read n.path = some content ∧ content.length = size))
      (fun _ _ => False) st := by
  split
  · refine Prog.wp_mono (fun r st₁ h => ⟨h.1.1, h.2⟩) (fun _ _ h => h.1) (Prog.wp_and
      (wp_submit_leaves hnamed htree) (wp_submit_stored e n hash name size _ _ st))
  · refine Prog.wp_mono (fun r st₁ h => ?_) (fun _ _ h => h) (wp_ask_stored n name size st)
    obtain ⟨rfl, hstored⟩ := h
    exact ⟨htree, hstored⟩

/-- A request that could not rotate its image. -/
structure Failed (e : Env) (ext : List Char) (fs : Files) : Prop where
  hash : 4 ≤ (postOrGet e "md5").length
  rotates : (postOrGetInt e "rotation" 0).tmod 360 ≠ 0
  left : LeftEmpty e ext fs

attribute [local irreducible] names

theorem wp_body_failed (hs : Rooted e.settings) (hmd5 : isHex (postOrGet e "md5") = true)
    {ext : String} (hext : AcceptedExt ext.toList) (htree : Tree (root e.settings) st.files) :
    (body e ext).wp calls (fun _ _ => True) (fun err st' => err = .magick → Failed e ext.toList st'.files) st := by
  unfold body
  by_cases h4 : 4 ≤ (postOrGet e "md5").length
  swap
  · rw [names_eq_throw e (Nat.not_le.1 h4)]
    exact fun h => absurd h (by simp)
  obtain ⟨n, hnames, hbase, hpath, hurl⟩ := names_eq_ret e h4 ext (toSize (postOrGetLong e "size" 0))
  have hnamed : Named e.settings (place (postOrGet e "md5") (toSize (postOrGetLong e "size" 0))) ext.toList n :=
    ⟨hs, valid_place hmd5 h4 _, hext, hbase, hpath, hurl⟩
  rw [hnames, Prog.ret_bind]
  refine Prog.wp_seq (wp_found hnamed htree) (fun r st₁ h₁ => ?_) (fun _ _ h => h.elim)
  obtain ⟨htree₁, hfound⟩ := h₁
  unfold conclude
  split
  · rename_i hrotates
    obtain ⟨content, hread, hsize⟩ := hfound hrotates.1
    obtain ⟨mtime, hstored⟩ := Files.find_of_read hread
    rw [hnamed.resolve_path] at hstored
    refine Prog.wp_seq (wp_rotate_failed hnamed _ htree₁ hstored) (fun m st₂ _ => ?_) (fun _ st₂ h₂ _ => ?_)
    · exact wp_answer fun _ _ _ => trivial
    · rw [h₂]
      refine ⟨h4, hrotates.2, ⟨e.chance.now, ?_⟩, content, mtime, ?_, hsize⟩
      · rw [rotationFile, Files.find_put, if_pos rfl]
      · rw [target, Files.find_put, if_neg fun heq => rotRest_ne _ (List.append_cancel_left (Place.path_inj heq).2.2.symm)]
        exact hstored
  · exact wp_answer fun _ _ _ => trivial

theorem wp_prepare_failed (hs : Rooted e.settings) (hchecked : Checked e) {ext : String}
    (hext : CppBlog.extension (postOrGet e "name") = .ret ext) (haccepted : AcceptedExt ext.toList)
    (htree : Tree (root e.settings) st.files) :
    (prepare e).wp calls (fun _ _ => True) (fun err st' => err = .magick → Failed e ext.toList st'.files) st := by
  rw [prepare_eq_body hchecked.1 hchecked.2.1 hchecked.2.2 hext]
  -- the shared part leaves the files alone and rotates nothing
  have hshared : adminPrepare.wp calls (fun _ st' => st'.files = st.files) (fun err _ => err ≠ .magick) st :=
    Prog.wp_mono (fun _ _ h => h.1) (fun _ _ h => h.2.2)
      (Prog.wp_and (wp_adminPrepare (E := fun _ _ => True) (fun _ _ hfiles _ => hfiles) fun _ _ _ _ => trivial)
        (Ordinary.adminPrepare st))
  refine Prog.wp_seq hshared (fun c st₁ hfiles => ?_) (fun _ _ hne heq => absurd heq hne)
  refine wp_body_failed hs hchecked.1 haccepted ?_
  rw [hfiles]
  exact htree

theorem prepare_failed (hs : Rooted e.settings) {m : Shared × Local} (htree : Tree (root e.settings) m.1.files)
    (hrun : ((prepare e).run handle m).1 = .error .magick) :
    Checked e ∧ ∃ ext, CppBlog.extension (postOrGet e "name") = .ret ext ∧ AcceptedExt ext.toList ∧
      Failed e ext.toList ((prepare e).run handle m).2.1.files := by
  by_cases hchecked : Checked e
  · obtain ⟨ext, hext, haccepted⟩ := extension_of_acceptedName hchecked.2.1
    have hends := Prog.wp_run (M := calls) handle viewOf (fun o c => outcome_handle o c)
      (@wp_prepare_failed e (viewOf m) hs hchecked ext hext haccepted htree)
    rw [hrun] at hends
    exact ⟨hchecked, ext, hext, haccepted, hends rfl⟩
  · have hends := Prog.wp_run (M := calls) handle viewOf (fun o c => outcome_handle o c)
      (ordinary_unchecked hchecked (viewOf m))
    rw [hrun] at hends
    exact absurd rfl hends.2

/-! ## The requests after it -/

/-- An answer that a file exists, with an address of what is under a path. -/
def GivenUrl (e : Env) (q : Path) (r : Response) : Prop :=
  ∃ fields url, r.body = [.json true fields] ∧ ("exists", "true") ∈ fields ∧ ("fileUrl", url) ∈ fields ∧
    resolve (Media.trimSlashes e.settings.documentRoot ++ url) = q

/-- The address of a file is its path behind the document root. -/
theorem names_url {hash ext : String} {size : Nat} {n : Names} (h : names e hash ext size = .ret n) :
    n.path.toList = (Media.trimSlashes e.settings.documentRoot).toList ++ n.url.toList := by
  rw [names] at h
  cases hpath : Download.uploadPath e hash size with
  | ret b =>
    rw [hpath, Prog.ret_bind] at h
    obtain rfl := Prog.ret.inj h
    simp only [String.toList_append, List.append_assoc]
  | throw err =>
    rw [hpath] at h
    exact absurd h (by simp)
  | op o k =>
    rw [hpath] at h
    exact absurd h (by simp)

theorem rotated_url {d : List Char} {rotation : Int} {m : Names} (hpath : n.path.toList = d ++ n.url.toList)
    (hurl : ∃ pre, n.url.toList = pre ++ ext) (hext : AcceptedExt ext) (h : rotated n rotation = .ret m) :
    m.path.toList = d ++ m.url.toList := by
  obtain ⟨y, rfl, hdot, -⟩ := hext.eq
  obtain ⟨pre, hurl⟩ := hurl
  have hpath' : n.path.toList = (d ++ pre) ++ '.' :: y := by rw [hpath, hurl, List.append_assoc]
  rw [rotated, extension_eq hdot hpath', Prog.ret_bind, extension_eq hdot hurl, Prog.ret_bind] at h
  obtain rfl := Prog.ret.inj h
  have hlen : n.path.length - (String.ofList ('.' :: y)).length = (d ++ pre).length := by
    rw [← String.length_toList, ← String.length_toList, String.toList_ofList, hpath', List.length_append]
    omega
  have hlen' : n.url.length - (String.ofList ('.' :: y)).length = pre.length := by
    rw [← String.length_toList, ← String.length_toList, String.toList_ofList, hurl, List.length_append]
    omega
  have hstrip : n.path.toList.take (n.path.length - (String.ofList ('.' :: y)).length) = d ++ pre := by
    rw [hlen, hpath', List.take_left]
  have hstrip' : n.url.toList.take (n.url.length - (String.ofList ('.' :: y)).length) = pre := by
    rw [hlen', hurl, List.take_left]
  dsimp only
  rw [hstrip, hstrip']
  simp only [String.toList_append, String.toList_ofList, List.append_assoc]

/-- A query for a rotation that is there is given its address. -/
theorem wp_body_given (hs : Rooted e.settings) (hmd5 : isHex (postOrGet e "md5") = true)
    (h4 : 4 ≤ (postOrGet e "md5").length) {ext : String} (hext : AcceptedExt ext.toList)
    (hmethod : e.req.method ≠ "POST") (hrotation : (postOrGetInt e "rotation" 0).tmod 360 ≠ 0)
    (hleft : LeftEmpty e ext.toList st.files) (hbody : st.own.response.body = []) :
    (body e ext).wp calls (fun _ st' => GivenUrl e (rotationFile e ext.toList) st'.own.response)
      (fun _ _ => False) st := by
  obtain ⟨n, hnames, hbase, hpath, hurl⟩ := names_eq_ret e h4 ext (toSize (postOrGetLong e "size" 0))
  have hnamed : Named e.settings (place (postOrGet e "md5") (toSize (postOrGetLong e "size" 0))) ext.toList n :=
    ⟨hs, valid_place hmd5 h4 _, hext, hbase, hpath, hurl⟩
  obtain ⟨m, hret, hm⟩ := rotated_eq hnamed ((postOrGetInt e "rotation" 0).tmod 360)
  obtain ⟨⟨mtime, hthere⟩, content, mtime', hupload, hsize⟩ := hleft
  have hread : (st.files.read n.path).map List.length = some (toSize (postOrGetLong e "size" 0)) := by
    rw [Files.read_of_find mtime' (by rw [hnamed.resolve_path]; exact hupload), Option.map_some, hsize]
  have hexists : st.files.pathExists m.path = true := by
    rw [Files.pathExists, hm]
    exact Option.isSome_iff_exists.2 ⟨_, hthere⟩
  rw [body, hnames, Prog.ret_bind, if_neg hmethod, ask, Prog.wp_bind, Prog.wp_bind, wp_files]
  dsimp only
  rw [hread, if_pos rfl, Prog.wp_ret, conclude, if_pos ⟨rfl, hrotation⟩, rotate, hret, Prog.ret_bind, Prog.wp_bind,
    Prog.wp_bind, wp_files]
  dsimp only
  rw [hexists, if_pos rfl, Prog.wp_ret]
  refine wp_answer fun st' _ hresponse => ?_
  refine ⟨(fileFields true n (postOrGet e "name") (toSize (postOrGetLong e "size" 0))
    "Successful transmission in seconds!").map (fun f => if f.1 = "fileUrl" then ("fileUrl", m.url) else f),
    m.url, ?_, ?_, ?_, ?_⟩
  · rw [hresponse, hbody, List.nil_append]
  · exact List.mem_map.2 ⟨("exists", toString true), List.mem_cons_self, rfl⟩
  · exact List.mem_map.2 ⟨("fileUrl", n.url), List.mem_cons_of_mem _ List.mem_cons_self, rfl⟩
  · have htext := rotated_url (names_url hnames) hurl hext hret
    rw [← String.toList_append] at htext
    rw [← String.toList_inj.1 htext, hm, rotationFile]

/-- A query like a request before it: for the same file in the same rotation. -/
structure Repeats (e e' : Env) : Prop where
  settings : e'.settings = e.settings
  md5 : postOrGet e' "md5" = postOrGet e "md5"
  name : postOrGet e' "name" = postOrGet e "name"
  size : postOrGet e' "size" = postOrGet e "size"
  rotation : postOrGet e' "rotation" = postOrGet e "rotation"
  method : e'.req.method ≠ "POST"

theorem Repeats.leftEmpty {e' : Env} (h : Repeats e e') {fs : Files} (hleft : LeftEmpty e ext fs) : LeftEmpty e' ext fs := by
  have hsize : postOrGetLong e' "size" 0 = postOrGetLong e "size" 0 := by rw [postOrGetLong, postOrGetLong, h.size]
  have hrotation : postOrGetInt e' "rotation" 0 = postOrGetInt e "rotation" 0 := by
    rw [postOrGetInt, postOrGetInt, h.rotation]
  obtain ⟨hrot, hupload⟩ := hleft
  rw [rotationFile, ← h.settings, ← h.md5, ← hsize, ← hrotation] at hrot
  rw [target, ← h.settings, ← h.md5, ← hsize] at hupload
  exact ⟨hrot, hupload⟩

/-- **Every request whose image cannot be rotated leaves an empty file under the name of the rotation, and the
queries for the rotation after it are given its address.** -/
theorem rotation_left (e : Env) (hs : Rooted e.settings) {m : Shared × Local}
    (htree : Tree (root e.settings) m.1.files) (hrun : ((prepare e).run handle m).1 = .error .magick) :
    ∃ ext, CppBlog.extension (postOrGet e "name") = .ret ext ∧
      (∃ mtime, ((prepare e).run handle m).2.1.files.find (rotationFile e ext.toList) = some (.file [] mtime)) ∧
      ∀ e' m' c, Repeats e e' → m'.1.files = ((prepare e).run handle m).2.1.files →
        (adminPrepare.run handle m').1 = .ok c → m'.2.own.response.body = [] →
        GivenUrl e' (rotationFile e ext.toList) ((prepare e').run handle m').2.2.own.response := by
  obtain ⟨hchecked, ext, hext, haccepted, hhash, hrotates, hleft⟩ := prepare_failed hs htree hrun
  refine ⟨ext, hext, hleft.rotation, fun e' m' c hrepeats hfiles hadmitted hbody => ?_⟩
  have hleft' := hrepeats.leftEmpty hleft
  obtain ⟨hsettings, hmd5, hname, hsize, hrotation, hmethod⟩ := hrepeats
  have hsize' : postOrGetLong e' "size" 0 = postOrGetLong e "size" 0 := by rw [postOrGetLong, postOrGetLong, hsize]
  have hrotation' : postOrGetInt e' "rotation" 0 = postOrGetInt e "rotation" 0 := by
    rw [postOrGetInt, postOrGetInt, hrotation]
  have hfile : rotationFile e' ext.toList = rotationFile e ext.toList := by
    rw [rotationFile, rotationFile, hsettings, hmd5, hsize', hrotation']
  have hends := ends_admitted hadmitted (f := fun _ => body e' ext)
    (Q := fun _ st => GivenUrl e' (rotationFile e ext.toList) st.own.response) (E := fun _ _ => False)
    fun st hst hresponse => by
      rw [← hfile]
      refine wp_body_given (hsettings ▸ hs) (hmd5 ▸ hchecked.1) (hmd5 ▸ hhash) haccepted hmethod
        (hrotation' ▸ hrotates) ?_ (hresponse ▸ hbody)
      rw [hst, hfiles]
      exact hleft'
  rw [prepare_eq_body (hmd5 ▸ hchecked.1) (hname ▸ hchecked.2.1) (hsize' ▸ hchecked.2.2) (hname ▸ hext)]
  revert hends
  cases ((adminPrepare.bind fun _ => body e' ext).run handle m') with
  | mk r m'' =>
    cases r with
    | ok u => exact fun h => h
    | error err => exact fun h => h.elim

/-- A site on which nothing is an image. -/
def noImageSite : Site := { oneByteSite with lib := { oneByteSite.lib with rotate := fun _ _ => none } }

/-- A query for a rotation of the file of one byte. -/
def noImage : Env := noImageSite.env (oneByteTurn "GET" [] (("rotation", "90") :: oneByteFields)).arrival

def noImageStart : Shared × Local :=
  ({ db := (oneByteTurn "GET" [] oneByteFields).db, cache := [], files := oneByteFiles }, {})

theorem rotation_left_text : ∃ ext, CppBlog.extension (postOrGet noImage "name") = .ret ext ∧
    (∃ mtime, ((prepare noImage).run handle noImageStart).2.1.files.find (rotationFile noImage ext.toList) =
      some (.file [] mtime)) ∧
    ∀ e' m' c, Repeats noImage e' → m'.1.files = ((prepare noImage).run handle noImageStart).2.1.files →
      (adminPrepare.run handle m').1 = .ok c → m'.2.own.response.body = [] →
      GivenUrl e' (rotationFile noImage ext.toList) ((prepare e').run handle m').2.2.own.response :=
  rotation_left noImage (show '\x00' ∉ rootText {} by decide) (tree_oneFile _ _ _ _ _) (by decide +kernel)

theorem not_rotation_spared : ¬∀ (e : Env) (m : Shared × Local), ((prepare e).run handle m).1 = .error .magick →
    ∀ ext, CppBlog.extension (postOrGet e "name") = .ret ext → m.1.files.find (rotationFile e ext.toList) = none →
      ((prepare e).run handle m).2.1.files.find (rotationFile e ext.toList) = none := by
  intro h
  have hext : CppBlog.extension (postOrGet noImage "name") = .ret (String.ofList ('.' :: "txt".toList)) :=
    @extension_eq _ ['a'] _ (by decide) (show "a.txt".toList = 'a' :: '.' :: "txt".toList by decide)
  have hnone := h noImage noImageStart (by decide +kernel) _ hext (by decide +kernel)
  exact absurd hnone (by decide +kernel)

end Upload

end CppBlog
