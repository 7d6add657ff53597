import CppBlog.Assembly
import CppBlog.Routes
import CppBlog.Store.Slashes

set_option autoImplicit false

/-! # Downloading what was uploaded

`upload::prepare` and `download::prepare` build the path of a file each on its own: the upload drops the
slashes at the end of the document root, the download keeps them. For every upload that is reported as
completed, here is when the two paths are the same but for repeated slashes. -/

namespace CppBlog

open Effect Store App Text

/-! ## The two paths -/

/-- The path of the file `download::prepare` looks for. -/
def Download.openedPath (e : Env) (md5 size name : String) : App String :=
  (uploadPath e md5 (toSize (atol size))).bind fun path =>
  (CppBlog.extension name).bind fun ext => .ret (e.settings.documentRoot ++ path ++ ext)

/-- A download serves the file under that path. -/
theorem Download.prepare_eq {e : Env} {md5 size name path : String}
    (h : openedPath e md5 size name = .ret path) :
    prepare e md5 size name =
      (basicPrepare.bind fun _ => (setHeader "Content-Type" "application/octet-stream").bind fun _ =>
        (setHeader "Content-Disposition" ("attachment; filename=\x22" ++ name ++ "\x22" ++
          (if plainName name then "" else "; filename*=utf-8''" ++ urlencode name))).bind fun _ =>
        serveFile e (fun x => toString (toSize x)) path) := by
  unfold openedPath at h
  unfold prepare
  cases hpath : uploadPath e md5 (toSize (atol size)) with
  | ret p =>
    rw [hpath, Prog.ret_bind] at h
    cases hext : CppBlog.extension name with
    | ret x =>
      rw [hext, Prog.ret_bind] at h
      obtain rfl := Prog.ret.inj h
      rfl
    | throw err => rw [hext] at h; exact absurd h (by simp)
    | op o k => rw [hext] at h; exact absurd h (by simp)
  | throw err => rw [hpath] at h; exact absurd h (by simp)
  | op o k => rw [hpath] at h; exact absurd h (by simp)

namespace Upload

/-- The path of the file of an upload. -/
def storedPath (e : Env) : App String :=
  (CppBlog.extension (postOrGet e "name")).bind fun ext =>
  (names e (postOrGet e "md5") ext (toSize (postOrGetLong e "size" 0))).bind fun n => .ret n.path

/-- What stands behind the document root. -/
def Place.located (s : Settings) (p : Place) (ext : List Char) : List Char :=
  (s.media ++ "/upload").toList ++ '/' :: p.a ++ '/' :: p.b ++ '/' :: (p.stem ++ ext)

theorem Place.located_eq (s : Settings) (p : Place) (ext : List Char) :
    ∃ t, p.located s ext = s.media.toList ++ '/' :: t := by
  refine ⟨"upload".toList ++ '/' :: p.a ++ '/' :: p.b ++ '/' :: (p.stem ++ ext), ?_⟩
  have hupload : "/upload".toList = '/' :: "upload".toList := by decide
  simp only [Place.located, String.toList_append, hupload, List.append_assoc, List.cons_append]

theorem uploadPath_eq_ret (e : Env) {md5 : String} (h4 : 4 ≤ md5.length) (size : Nat) :
    ∃ path, Download.uploadPath e md5 size = .ret path ∧
      path.toList = (place md5 size).located e.settings [] := by
  have htake : (md5.toList.drop 4).take md5.length = md5.toList.drop 4 :=
    List.take_of_length_le (by simp [md5.length_toList])
  refine ⟨_, by
    simp only [Download.uploadPath, substr_eq (Nat.zero_le md5.length),
      substr_eq (show 2 ≤ md5.length by omega), substr_eq h4, Prog.ret_bind]
    rfl, ?_⟩
  simp [place, Place.located, htake, toHexNumber]

attribute [local irreducible] Download.uploadPath names

theorem storedPath_eq_ret {e : Env} (h4 : 4 ≤ (postOrGet e "md5").length) {ext : String}
    (hext : CppBlog.extension (postOrGet e "name") = .ret ext) :
    ∃ path, storedPath e = .ret path ∧ path.toList = (Media.trimSlashes e.settings.documentRoot).toList ++
      (place (postOrGet e "md5") (toSize (postOrGetLong e "size" 0))).located e.settings ext.toList := by
  obtain ⟨n, hnames, -, hpath, -⟩ := names_eq_ret e h4 ext (toSize (postOrGetLong e "size" 0))
  refine ⟨n.path, ?_, ?_⟩
  · rw [storedPath, hext, Prog.ret_bind, hnames, Prog.ret_bind]
  · rw [hpath]
    simp [Place.text, Place.located, rootText]

theorem openedPath_eq_ret {e : Env} {md5 size name : String} (h4 : 4 ≤ md5.length) {ext : String}
    (hext : CppBlog.extension name = .ret ext) :
    ∃ path, Download.openedPath e md5 size name = .ret path ∧
      path.toList = e.settings.documentRoot.toList ++
        (place md5 (toSize (atol size))).located e.settings ext.toList := by
  obtain ⟨path, hpath, htext⟩ := uploadPath_eq_ret e h4 (toSize (atol size))
  refine ⟨e.settings.documentRoot ++ path ++ ext, ?_, ?_⟩
  · rw [Download.openedPath, hpath, Prog.ret_bind, hext, Prog.ret_bind]
  · simp [htext, Place.located]

/-! ## Slashes at the end of the document root -/

/-- The document root is as `upload` takes it, but for slashes at its end. -/
theorem trimSlashes_cases (root : String) : Media.trimSlashes root = root ∨
    ∃ k, root.toList = (Media.trimSlashes root).toList ++ List.replicate (k + 1) '/' ∧
      (Media.trimSlashes root).toList.getLast? ≠ some '/' := by
  unfold Media.trimSlashes
  split
  · exact .inl rfl
  have hsplit : root.toList = (root.toList.reverse.dropWhile (· = '/')).reverse ++
      (root.toList.reverse.takeWhile (· = '/')).reverse := by
    rw [← List.reverse_append, List.takeWhile_append_dropWhile, List.reverse_reverse]
  have hslash : ∀ c ∈ (root.toList.reverse.takeWhile (· = '/')).reverse, c = '/' := fun c hc => by
    simpa using List.all_eq_true.1 (List.all_takeWhile (p := fun c => decide (c = '/'))) c
      (List.mem_reverse.1 hc)
  cases hk : (root.toList.reverse.takeWhile (· = '/')).reverse.length with
  | zero =>
    rw [List.eq_nil_of_length_eq_zero hk, List.append_nil] at hsplit
    exact .inl (by rw [← hsplit, String.ofList_toList])
  | succ k =>
    refine .inr ⟨k, ?_, ?_⟩
    · rw [List.eq_replicate_of_mem hslash, hk] at hsplit
      rw [String.toList_ofList]
      exact hsplit
    · rw [String.toList_ofList, List.getLast?_reverse]
      intro hlast
      have hhead := List.head?_dropWhile_not (fun c : Char => decide (c = '/')) root.toList.reverse
      rw [hlast] at hhead
      exact absurd hhead (by decide)

/-- Document root and location of the media files meet at the same place with and without the slashes at
    the end of the document root. -/
def JoinsAlike (s : Settings) : Prop :=
  s.media = "" ∨ s.media.toList.head? = some '/' ∨ Media.trimSlashes s.documentRoot = s.documentRoot

instance (s : Settings) : Decidable (JoinsAlike s) := inferInstanceAs (Decidable (_ ∨ _ ∨ _))

theorem collapse_iff (s : Settings) (t : List Char) :
    collapse ((Media.trimSlashes s.documentRoot).toList ++ (s.media.toList ++ '/' :: t)) =
      collapse (s.documentRoot.toList ++ (s.media.toList ++ '/' :: t)) ↔ JoinsAlike s := by
  rcases trimSlashes_cases s.documentRoot with htrim | ⟨k, hroot, hlast⟩
  · exact iff_of_true (by rw [htrim]) (.inr (.inr htrim))
  have hne : Media.trimSlashes s.documentRoot ≠ s.documentRoot := by
    intro heq
    rw [heq] at hroot
    exact absurd (congrArg List.length hroot) (by simp)
  rw [hroot]
  cases hmedia : s.media.toList with
  | nil =>
    refine iff_of_true ?_ (.inl (String.toList_inj.1 hmedia))
    rw [List.nil_append, List.append_assoc, collapse_slashes]
  | cons c m =>
    by_cases hc : c = '/'
    · subst hc
      refine iff_of_true ?_ (.inr (.inl (by rw [hmedia]; rfl)))
      rw [List.cons_append, List.append_assoc, collapse_slashes]
    · -- one slash stands between the two texts in one path and none in the other
      refine iff_of_false (fun heq => ?_) ?_
      · have hslashes (u : List Char) : collapse (List.replicate (k + 1) '/' ++ c :: u) =
            '/' :: collapse (c :: u) := by
          have hrun := collapse_slashes [] [] k
          have happend := @collapse_append (List.replicate k '/' ++ ['/']) (c :: u) (.inr (by simpa using hc))
          rw [List.nil_append] at hrun
          rw [List.replicate_succ', happend, hrun]
          rfl
        rw [List.cons_append, List.append_assoc, collapse_append (.inl hlast), collapse_append (.inl hlast),
          hslashes] at heq
        have hlength := congrArg List.length (List.append_cancel_left heq)
        rw [List.length_cons] at hlength
        omega
      · rintro (h | h | h)
        · exact absurd (congrArg String.toList h) (by rw [hmedia]; simp)
        · rw [hmedia] at h
          exact hc (Option.some.inj h)
        · exact hne h

theorem collapse_eq_iff (s : Settings) (p : Place) (ext : List Char) :
    collapse ((Media.trimSlashes s.documentRoot).toList ++ p.located s ext) =
      collapse (s.documentRoot.toList ++ p.located s ext) ↔ JoinsAlike s := by
  obtain ⟨t, hlocated⟩ := p.located_eq s ext
  rw [hlocated]
  exact collapse_iff s t

/-- The directory of the uploads itself. -/
theorem collapse_upload_iff (s : Settings) :
    collapse ((Media.trimSlashes s.documentRoot).toList ++ (s.media ++ "/upload").toList) =
      collapse (s.documentRoot.toList ++ (s.media ++ "/upload").toList) ↔ JoinsAlike s := by
  have hupload : "/upload".toList = '/' :: "upload".toList := by decide
  rw [String.toList_append, hupload]
  exact collapse_iff s _

/-! ## The route of a download -/

/-- A digit of `[0-9a-f]`. -/
def isLowerHex (c : Char) : Bool := isDigit c || ('a' ≤ c && c ≤ 'f')

/-- The parts a path is taken apart into. -/
theorem groups_of_full_downloadRx {s : List Char} {caps : Captures} (h : downloadRx.full s = some caps) :
    ∃ hash size name t, s = '/' :: hash ++ '/' :: (size ++ '/' :: (name ++ t)) ∧
      (hash ≠ [] ∧ ∀ c ∈ hash, isLowerHex c = true) ∧ (size ≠ [] ∧ ∀ c ∈ size, isDigit c = true) ∧
      (t = [] ∨ t = ['/']) ∧
      Rx.group caps 1 = hash ∧ Rx.group caps 2 = size ∧ Rx.group caps 3 = name := by
  obtain ⟨c₁, s₁, r₁, h₁, hrest₁, rfl⟩ := Rx.mem_go_seq.1 (Rx.mem_go_of_full h)
  obtain ⟨rfl, hs₁⟩ := Rx.mem_go_lit h₁
  obtain ⟨c₂, s₂, r₂, h₂, hrest₂, rfl⟩ := Rx.mem_go_seq.1 hrest₁
  obtain ⟨w₁, rfl, rfl, hw₁⟩ := Rx.mem_go_grp_of_nil (fun _ _ => Rx.eq_nil_of_mem_go_plus) h₂
  obtain ⟨c₃, s₃, r₃, h₃, hrest₃, rfl⟩ := Rx.mem_go_seq.1 hrest₂
  obtain ⟨c₄, s₄, c₅, h₄, h₅, rfl⟩ := Rx.mem_go_seq.1 h₃
  obtain ⟨rfl, rfl⟩ := Rx.mem_go_lit h₄
  obtain ⟨w₂, rfl, rfl, hw₂⟩ := Rx.mem_go_grp_of_nil (fun _ _ => Rx.eq_nil_of_mem_go_plus) h₅
  obtain ⟨c₆, s₆, r₆, h₆, hrest₆, rfl⟩ := Rx.mem_go_seq.1 hrest₃
  obtain ⟨rfl, rfl⟩ := Rx.mem_go_lit h₆
  obtain ⟨c₇, s₇, c₈, h₇, h₈, rfl⟩ := Rx.mem_go_seq.1 hrest₆
  obtain ⟨w₃, rfl, rfl, -⟩ := Rx.mem_go_grp_of_nil (fun _ _ => Rx.eq_nil_of_mem_go_star) h₇
  have hend : s₇ = [] ∨ s₇ = ['/'] := by
    obtain ⟨u, hu, hu'⟩ := (Rx.exists_mem_go slashRx s₇ []).1 ⟨_, h₈⟩
    rw [List.append_nil] at hu
    subst hu
    exact hu'.symm.imp id fun h => (Rx.matches_lit _ _).1 h
  refine ⟨w₁, w₂, w₃, s₇, by simpa using hs₁, (Rx.matches_plus _ _).1 hw₁, (Rx.matches_plus _ _).1 hw₂, hend,
    ?_, ?_, ?_⟩
  · simp [Rx.group]
  · simp [Rx.group, List.lookup_cons]
  · simp [Rx.group, List.lookup_cons]

/-- **The route hands on the three parts of a path**, if the last neither spans lines nor ends with a slash. -/
theorem full_downloadRx {hash size name : List Char} (hhash : hash ≠ [] ∧ ∀ c ∈ hash, isLowerHex c = true)
    (hsize : size ≠ [] ∧ ∀ c ∈ size, isDigit c = true) (hname : '\n' ∉ name)
    (hlast : name.getLast? ≠ some '/') :
    ∃ caps, downloadRx.full ('/' :: hash ++ '/' :: (size ++ '/' :: name)) = some caps ∧
      Rx.group caps 1 = hash ∧ Rx.group caps 2 = size ∧ Rx.group caps 3 = name := by
  have hmatches : downloadRx.Matches ('/' :: hash ++ '/' :: (size ++ '/' :: name)) := by
    refine ⟨"/".toList, _, rfl, (Rx.matches_lit _ _).2 rfl, hash, _, rfl, (Rx.matches_plus _ _).2 hhash,
      '/' :: size, '/' :: name, rfl, ⟨"/".toList, size, rfl, (Rx.matches_lit _ _).2 rfl,
        (Rx.matches_plus _ _).2 hsize⟩, "/".toList, name, rfl, (Rx.matches_lit _ _).2 rfl, name, [],
      (List.append_nil name).symm, fun c hc => ?_, .inr rfl⟩
    exact decide_eq_true fun h : c = '\n' => hname (h ▸ hc)
  obtain ⟨caps, hcaps⟩ := Option.isSome_iff_exists.1 ((Rx.full_isSome _ _).2 hmatches)
  obtain ⟨w₁, w₂, w₃, t, hpath, hw₁, hw₂, ht, h1, h2, h3⟩ := groups_of_full_downloadRx hcaps
  -- no slash stands in the first two parts, so they end where the first slashes are
  have hhash' : '/' ∉ hash := fun h => absurd (hhash.2 _ h) (by decide)
  have hsize' : '/' ∉ size := fun h => absurd (hsize.2 _ h) (by decide)
  have hw₁' : '/' ∉ w₁ := fun h => absurd (hw₁.2 _ h) (by decide)
  have hw₂' : '/' ∉ w₂ := fun h => absurd (hw₂.2 _ h) (by decide)
  obtain ⟨rfl, hpath₁⟩ := eq_of_append_slash hhash' hw₁' (List.cons.inj hpath).2
  obtain ⟨rfl, rfl⟩ := eq_of_append_slash hsize' hw₂' hpath₁
  obtain rfl | rfl := ht
  · exact ⟨caps, hcaps, h1, h2, by rw [h3, List.append_nil]⟩
  · exact absurd List.getLast?_concat hlast

/-! ## Completed uploads -/

/-- A response reports a completed upload. -/
def Completes (r : Response) : Prop :=
  ∃ status fields, Output.json status fields ∈ r.body ∧ ("message", "Upload completed!") ∈ fields

/-- What `upload` has checked of a request it reports as completed. -/
def Verified (e : Env) : Prop :=
  acceptedName (postOrGet e "name") = true ∧ ∃ bytes, postOrGet e "md5" = e.lib.md5 bytes

section
variable {e : Env} {st : St}

theorem wp_submit_verified (n : Names) (md5 name : String) (size chunk chunks : Nat) :
    (submit e n md5 name size chunk chunks).wp calls
      (fun r _ => ("message", "Upload completed!") ∈ r.2.1 → ∃ bytes, md5 = e.lib.md5 bytes)
      (fun _ _ => True) st := by
  unfold submit
  split
  · refine Prog.wp_seq ((OnFiles.receive e n _ chunk chunks).within (R := SameResponse) st)
      (fun r st₁ _ => ?_) (fun _ _ _ => trivial)
    split
    · intro h
      exact absurd h (by simp)
    · rename_i bytes
      rw [Prog.wp_bind, wp_files]
      split
      · rw [Prog.wp_bind, wp_files]
        intro h
        exact absurd h (by simp)
      · rename_i hok
        rw [not_or, not_not] at hok
        exact fun _ => ⟨bytes, hok.1⟩
  · intro h
    exact absurd h (by simp)

theorem wp_answer_completes {status : Bool} {fields : List (String × String)} {P : Prop}
    (hbody : st.own.response.body = []) (h : ("message", "Upload completed!") ∈ fields → P) :
    (answer status fields).wp calls (fun _ st' => Completes st'.own.response → P)
      (fun _ st' => st'.own.response.body = []) st := by
  refine wp_answer fun st' _ hresponse => ?_
  rintro ⟨status', fields', hmem, hmessage⟩
  rw [hresponse, hbody, List.nil_append, List.mem_singleton] at hmem
  obtain ⟨-, rfl⟩ := Output.json.inj hmem
  exact h hmessage

attribute [local irreducible] transfer

/-- **Only a verified upload is reported as completed.** -/
theorem wp_prepare_verified (hbody : st.own.response.body = []) :
    (prepare e).wp calls (fun _ st' => Completes st'.own.response → Verified e)
      (fun _ st' => st'.own.response.body = []) st := by
  unfold prepare
  dsimp only
  split
  · exact wp_answer_completes hbody fun h => absurd h (by simp)
  split
  · exact wp_answer_completes hbody fun h => absurd h (by simp)
  rename_i hname
  rw [not_not] at hname
  rw [transfer]
  refine Prog.wp_seq ((OnFiles.extension _).within (R := SameResponse) st) (fun ext st₁ h₁ => ?_)
    (fun _ _ h => h ▸ hbody)
  rw [Prog.wp_bind]
  refine wp_adminPrepare (fun c st₂ _ h₂ => ?_) (fun _ _ _ h => by rw [h, h₁, hbody])
  refine Prog.wp_seq ((OnFiles.names e _ ext _).within (R := SameResponse) st₂) (fun n st₃ h₃ => ?_)
    (fun _ _ h => by rw [h, h₂, h₁, hbody])
  have hbody₃ : st₃.own.response.body = [] := by rw [h₃, h₂, h₁, hbody]
  have hresult : (if e.req.method = "POST" then
      submit e n (postOrGet e "md5") (postOrGet e "name") (toSize (postOrGetLong e "size" 0))
        (toSize (postOrGetLong e "chunk" 0)) (toSize (postOrGetLong e "chunks" 1))
    else ask n (postOrGet e "name") (toSize (postOrGetLong e "size" 0))).wp calls
      (fun r st' => (("message", "Upload completed!") ∈ r.2.1 → Verified e) ∧ st'.own.response.body = [])
      (fun _ st' => st'.own.response.body = []) st₃ := by
    split
    · refine Prog.wp_mono (fun r st' h => ⟨fun hmem => ⟨hname, h.1 hmem⟩, ?_⟩) (fun _ st' h => ?_)
        (Prog.wp_and (wp_submit_verified n _ _ _ _ _)
          ((OnFiles.submit e n _ _ _ _ _).within (R := SameResponse) st₃))
      · rw [h.2, hbody₃]
      · rw [h.2, hbody₃]
    · rw [ask, Prog.wp_bind, wp_files]
      split
      · exact ⟨fun h => absurd h (by simp [fileFields]), hbody₃⟩
      · exact ⟨fun h => absurd h (by simp [fileFields]), hbody₃⟩
  refine Prog.wp_seq hresult (fun r st₄ h₄ => ?_) (fun _ _ h => h)
  dsimp only
  split
  · refine Prog.wp_seq ((OnFiles.rotate e n _).within (R := SameResponse) st₄) (fun m st₅ h₅ => ?_)
      (fun _ _ h => by rw [h, h₄.2])
    refine wp_answer_completes (by rw [h₅, h₄.2]) fun hmem => h₄.1 ?_
    obtain ⟨f, hf, heq⟩ := List.mem_map.1 hmem
    split at heq
    · exact absurd (Prod.mk.inj heq).1 (by decide)
    · exact heq ▸ hf
  · exact wp_answer_completes h₄.2 h₄.1

end

/-! ## Downloading it -/

theorem getLast?_of_acceptedName {name : String} (h : acceptedName name = true) :
    name.toList.getLast? ≠ some '/' := by
  obtain ⟨-, pre, ext, hname, hext⟩ := acceptedName_split h
  obtain ⟨y, rfl, -, hslash, -⟩ := hext.eq
  rw [hname, List.getLast?_append_of_ne_nil _ (by simp)]
  intro hlast
  have hmem := List.mem_of_getLast? hlast
  rcases List.mem_cons.1 hmem with h | h
  · exact absurd h (by decide)
  · exact hslash h

theorem toString_toList (n : Nat) : (toString n).toList = Nat.toDigits 10 n :=
  (congrArg String.toList Nat.repr_eq_ofList_toDigits).trans String.toList_ofList

/-- A size that is an offset is read as it was printed. -/
theorem toSize_atol_toString {n : Nat} (h : n < 2 ^ 63) : toSize (atol (toString n)) = n := by
  rw [atol, toString_toList, strtol_of_digits fun _ => isDigit_of_mem_toDigits, readDigits_toDigits, toSize,
    clampLong]
  omega

/-- The request for the hash, the size in decimal digits and the name of an upload is routed to
    `download::prepare`, which opens the file of that upload: the paths differ in repeated slashes only. -/
structure OpensFile (e e' : Env) : Prop where
  routed : dispatch (downloadRoutes e') ("/" ++ postOrGet e "md5" ++ "/" ++
      toString (toSize (postOrGetLong e "size" 0)) ++ "/" ++ postOrGet e "name") =
    Download.prepare e' (postOrGet e "md5") (toString (toSize (postOrGetLong e "size" 0)))
      (postOrGet e "name")
  paths : ∃ p q, storedPath e = .ret p ∧
    Download.openedPath e' (postOrGet e "md5") (toString (toSize (postOrGetLong e "size" 0)))
      (postOrGet e "name") = .ret q ∧
    collapse p.toList = collapse q.toList ∧ resolve p = resolve q

/-- An upload is answered as completed. -/
def Completed (e : Env) (m : Shared × Local) : Prop :=
  Completes (finish ((prepare e).run handle m).1 ((prepare e).run handle m).2.2.own.response)

theorem Completed.verified {e : Env} {m : Shared × Local} (h : Completed e m)
    (hfresh : m.2.own.response = {}) : Verified e := by
  have hends := Prog.wp_run (M := calls) handle viewOf (fun o c => outcome_handle o c) (c := m)
    (wp_prepare_verified (e := e) (congrArg Response.body hfresh))
  unfold Completed at h
  revert hends h
  rcases (prepare e).run handle m with ⟨r, m'⟩
  intro h hends
  cases r with
  | ok _ => exact hends h
  | error err =>
    -- an exception leaves an error page
    have hbody : m'.2.own.response.body = [] := hends
    obtain ⟨status, fields, hmem, -⟩ := h
    simp [finish, hbody] at hmem

attribute [local irreducible] Download.prepare storedPath Download.openedPath

section
variable {e e' : Env}

/-- The two paths of a verified upload whose size is an offset. -/
theorem paths_iff (hsettings : e'.settings = e.settings) (hhash : Digest (postOrGet e "md5"))
    (hname : acceptedName (postOrGet e "name") = true) (hsize : toSize (postOrGetLong e "size" 0) < 2 ^ 63) :
    (∃ p q, storedPath e = .ret p ∧
      Download.openedPath e' (postOrGet e "md5") (toString (toSize (postOrGetLong e "size" 0)))
        (postOrGet e "name") = .ret q ∧
      collapse p.toList = collapse q.toList ∧ resolve p = resolve q) ↔ JoinsAlike e.settings := by
  have h4 : 4 ≤ (postOrGet e "md5").length := by rw [hhash.1]; decide
  obtain ⟨ext, hext, -⟩ := extension_of_acceptedName hname
  obtain ⟨p, hp, hptext⟩ := storedPath_eq_ret h4 hext
  obtain ⟨q, hq, hqtext⟩ := @openedPath_eq_ret e' _ (toString (toSize (postOrGetLong e "size" 0))) _ h4 _ hext
  rw [toSize_atol_toString hsize, hsettings] at hqtext
  have hcollapse : collapse p.toList = collapse q.toList ↔ JoinsAlike e.settings := by
    rw [hptext, hqtext]
    exact collapse_eq_iff _ _ _
  constructor
  · rintro ⟨p', q', hp', hq', heq, -⟩
    obtain rfl := Prog.ret.inj (hp.symm.trans hp')
    obtain rfl := Prog.ret.inj (hq.symm.trans hq')
    exact hcollapse.1 heq
  · intro hjoins
    exact ⟨p, q, hp, hq, hcollapse.2 hjoins, resolve_eq_of_collapse (hcollapse.2 hjoins)⟩

/-- The route of a verified upload. -/
theorem dispatch_download (hhash : Digest (postOrGet e "md5"))
    (hname : acceptedName (postOrGet e "name") = true) :
    dispatch (downloadRoutes e') ("/" ++ postOrGet e "md5" ++ "/" ++
        toString (toSize (postOrGetLong e "size" 0)) ++ "/" ++ postOrGet e "name") =
      Download.prepare e' (postOrGet e "md5") (toString (toSize (postOrGetLong e "size" 0)))
        (postOrGet e "name") := by
  have hne : (postOrGet e "md5").toList ≠ [] := by
    intro hnil
    have hlen := hhash.1
    rw [← String.length_toList, hnil] at hlen
    exact absurd hlen (by decide)
  obtain ⟨caps, hcaps, h1, h2, h3⟩ := @full_downloadRx _
    (Nat.toDigits 10 (toSize (postOrGetLong e "size" 0))) _ ⟨hne, hhash.2⟩
    ⟨Nat.toDigits_ne_nil, fun c hc => isDigit_of_mem_toDigits hc⟩ (acceptedName_split hname).1
    (getLast?_of_acceptedName hname)
  have hpath : ("/" ++ postOrGet e "md5" ++ "/" ++ toString (toSize (postOrGetLong e "size" 0)) ++ "/" ++
      postOrGet e "name").toList = '/' :: (postOrGet e "md5").toList ++
        '/' :: (Nat.toDigits 10 (toSize (postOrGetLong e "size" 0)) ++ '/' :: (postOrGet e "name").toList) := by
    simp only [String.toList_append, toString_toList, List.append_assoc, List.cons_append]
    rfl
  rw [downloadRoutes, dispatch_cons]
  dsimp only
  rw [hpath, hcaps]
  dsimp only [text]
  rw [h1, h2, h3, String.ofList_toList, String.ofList_toList, ← toString_toList, String.ofList_toList]

end

/-- A site with a document root and a location of the media files. -/
def rootedSite (root media : String) : Site :=
  { oneByteSite with settings := { documentRoot := root, media := media } }

/-- The upload of a file of one byte to it. -/
def rootedUpload (root media : String) : Env :=
  (rootedSite root media).env (oneByteTurn "POST" [[97]] oneByteFields).arrival

/-- What that upload meets. -/
def rootedStart (root media : String) : Shared × Local :=
  ({ db := (oneByteTurn "POST" [[97]] oneByteFields).db, cache := [],
     files := [(Upload.root (rootedSite root media).settings, .dir)] }, {})

theorem digest_oneByteSite (bytes : List UInt8) : Digest (oneByteSite.lib.md5 bytes) := by
  have hmd5 : oneByteSite.lib.md5 bytes =
      if bytes = [97] then "0cc175b9c0f1b6a831c399e269772661" else "d41d8cd98f00b204e9800998ecf8427e" := rfl
  rw [hmd5]
  split
  · exact ⟨by decide, List.all_eq_true.1 rfl⟩
  · exact ⟨by decide, List.all_eq_true.1 rfl⟩

end Upload

end CppBlog
