import CppBlog.Listed
import CppBlog.Overwriting
import CppBlog.SameFile
import CppBlog.Text.Replacing

set_option autoImplicit false

/-! # Which files a request can name

`media`, `download` and `upload` make file names of what a visitor sends. Here is which calls on the file
system each of them can ask for, whatever the calls before it answered, and where the names in these
calls resolve to. -/

namespace CppBlog

open Effect Store App Text

/-! ## Calls on named files -/

/-- A call on the file system that opens, makes, renames or removes files whose names are `ok` only. The
    directories on the way to a file are looked for and made besides; they are no files. -/
inductive Call (ok : String → Prop) : (γ : Type) → (Files → γ × Files) → Prop where
  | find (t : String) : ok t → Call ok (Option Node) (fun fs => (fs.find (resolve t), fs))
  | read (t : String) : ok t → Call ok (Option (List UInt8)) (fun fs => (fs.read t, fs))
  | size (t : String) : ok t → Call ok (Option Nat) (fun fs => ((fs.read t).map List.length, fs))
  | create (t : String) (content : List UInt8) (now : Nat) : ok t →
      Call ok Bool (fun fs => fs.create t content now)
  | writeAt (t : String) (offset : Nat) (bytes : List UInt8) (now : Nat) : ok t →
      Call ok Unit (fun fs => ((), fs.writeAt t offset bytes now))
  | rename (t u : String) : ok t → ok u → Call ok Unit (fun fs => ((), fs.rename t u))
  | unlink (t : String) : ok t → Call ok Unit (fun fs => ((), fs.unlink t))
  | access (t : String) : Call ok Bool (fun fs => (fs.pathExists t, fs))
  | mkdir (t : String) : Call ok Bool (fun fs => fs.mkdir t)

/-- A call that answers with one of at least three values looks at files that are `ok` only. -/
theorem Call.eq_of_agree {ok : String → Prop} {γ : Type} {f : Files → γ × Files} (h : Call ok γ f)
    (hthree : ∃ a b c : γ, a ≠ b ∧ b ≠ c ∧ a ≠ c) {fs fs' : Files}
    (hagree : ∀ t, ok t → fs.find (resolve t) = fs'.find (resolve t)) : (f fs).1 = (f fs').1 := by
  have hbool : ¬∃ a b c : Bool, a ≠ b ∧ b ≠ c ∧ a ≠ c := by decide
  cases h with
  | find t ht => exact hagree t ht
  | read t ht =>
    show fs.read t = fs'.read t
    rw [Files.read, Files.read, hagree t ht]
  | size t ht =>
    show (fs.read t).map List.length = (fs'.read t).map List.length
    rw [Files.read, Files.read, hagree t ht]
  | create t content now ht => exact absurd hthree hbool
  | writeAt t offset bytes now ht => rfl
  | rename t u ht hu => rfl
  | unlink t ht => rfl
  | access t => exact absurd hthree hbool
  | mkdir t => exact absurd hthree hbool

/-- All files that are named resolve to something at or below a path. -/
def Confined (r : Path) : (γ : Type) → Sig γ → Prop
  | γ, .files f => Call (fun t => r <+: resolve t) γ f
  | _, _ => True

instance (r : Path) : AllowsPages (Confined r) where
  query _ := trivial
  exec _ := trivial
  begin := trivial
  commit := trivial
  rollback := trivial
  cache _ := trivial
  own _ _ := trivial

section
variable {r : Path}

theorem Confined.files {γ : Type} {f : Files → γ × Files} (h : Call (fun t => r <+: resolve t) γ f) :
    (App.files f).Every (Confined r) := .perform h

theorem Confined.setHeader (name value : String) : (App.setHeader name value).Every (Confined r) :=
  Asks.modifyOwn fun _ => rfl

/-- A file that is served. -/
theorem Confined.serveFile (e : Env) (show64 : Int → String) {t : String} (ht : r <+: resolve t) :
    (CppBlog.serveFile e show64 t).Every (Confined r) := by
  have hsend (content : List UInt8) (mtime : Nat) : (sendFile e show64 content mtime).Every (Confined r) := by
    refine Prog.Every.bind (.ite (setHeader _ _) (.ret _)) fun _ => ?_
    refine (setHeader _ _).bind fun _ => (setHeader _ _).bind fun _ => (setHeader _ _).bind fun _ => ?_
    refine (setHeader _ _).bind fun _ => (setHeader _ _).bind fun _ => (setHeader _ _).bind fun _ => ?_
    refine (setHeader _ _).bind fun _ => (setHeader _ _).bind fun _ => (setHeader _ _).bind fun _ => ?_
    exact Prog.Every.bind (.ite (Asks.modifyOwn fun _ => rfl) (.ret _)) fun _ => Asks.write _
  refine (files (.find t ht)).bind fun found => ?_
  split
  · exact Asks.makeErrorResponse 404
  · exact hsend [] 0
  · exact hsend _ _

/-! ## `media` -/

/-- The document root resolves to the same with and without slashes at its end, when a slash follows. -/
theorem resolve_trimSlashes (root t : String) (ht : t.toList.head? = some '/') :
    resolve (Media.trimSlashes root ++ t) = resolve (root ++ t) := by
  refine resolve_eq_of_collapse ?_
  rw [String.toList_append, String.toList_append]
  rcases Upload.trimSlashes_cases root with htrim | ⟨k, hroot, -⟩
  · rw [htrim]
  · cases ht' : t.toList with
    | nil => rw [ht'] at ht; exact absurd ht (by simp)
    | cons c u =>
      rw [ht'] at ht
      obtain rfl := Option.some.inj ht
      rw [hroot, List.append_assoc, collapse_slashes]

/-- **What `media` names stays below the directory of the media files.** -/
theorem Confined.media (e : Env) (path : String) :
    (Media.prepare e path).Every (Confined (resolve (e.settings.documentRoot ++ "/media"))) := by
  unfold Media.prepare
  split
  · exact Asks.makeErrorResponse 404
  · rename_i hdots
    have hdots : findSub "..".toList path.toList = none := Option.not_isSome_iff_eq_none.1 hdots
    have hcomponents : ['.', '.'] ∉ components path.toList := fun hmem =>
      findSub_eq_none.1 hdots (infix_of_mem_components hmem)
    refine (setHeader _ _).bind fun _ => serveFile e toString ?_
    rw [← resolve_trimSlashes e.settings.documentRoot "/media" (by decide)]
    refine resolve_below ?_ hcomponents
    rw [String.toList_append, String.toList_append]
    simp

/-! ## `download` -/

theorem count_of_notMem {c : Char} {w : List Char} (h : c ∉ w) : w.count c = 0 := List.count_eq_zero_of_not_mem h

/-- The suffix behind the last dot holds one dot. -/
theorem count_extension {s x : String} (h : CppBlog.extension s = .ret x) : x.toList.count '.' = 1 := by
  unfold CppBlog.extension at h
  split at h
  · obtain rfl := Prog.ret.inj h
    have hrest : '.' ∉ (s.toList.reverse.takeWhile (· ≠ '.')).reverse := fun hmem => by
      simpa using List.all_eq_true.1 (List.all_takeWhile (p := fun c => decide (c ≠ '.'))) '.'
        (List.mem_reverse.1 hmem)
    rw [String.toList_ofList, List.count_cons_self, count_of_notMem hrest]
  · exact absurd h (by simp)

theorem extension_cases (s : String) :
    (∃ x, CppBlog.extension s = .ret x) ∨ CppBlog.extension s = .throw .outOfRange := by
  unfold CppBlog.extension
  split
  · exact .inl ⟨_, rfl⟩
  · exact .inr rfl

/-- The directory of the uploads, as `download` finds it. -/
def uploadsPath (s : Settings) : Path := resolve (s.documentRoot ++ (s.media ++ "/upload"))

open Upload in
/-- A name of `download` lies below the directory of the uploads. -/
theorem uploadsPath_prefix_opened {e : Env} {md5 size name path : String} (hhex : Hex md5.toList)
    (h : Download.openedPath e md5 size name = .ret path) : uploadsPath e.settings <+: resolve path := by
  by_cases h4 : 4 ≤ md5.length
  swap
  · have hthrow := uploadPath_eq_throw e (Nat.not_le.1 h4) (toSize (atol size))
    rw [Download.openedPath, hthrow] at h
    exact absurd h (by simp)
  obtain ⟨b, hb, -⟩ := uploadPath_eq_ret e h4 (toSize (atol size))
  rcases extension_cases name with ⟨x, hext⟩ | hext
  swap
  · rw [Download.openedPath, hb, Prog.ret_bind, hext] at h
    exact absurd h (by simp)
  · obtain ⟨path', hpath', htext⟩ := @openedPath_eq_ret e md5 size name h4 x hext
    obtain rfl := Prog.ret.inj (h.symm.trans hpath')
    have hdot {w : List Char} (hw : Hex w) : w.count '.' = 0 := count_of_notMem (hw.notMem (by decide))
    have hcount : ((place md5 (toSize (atol size))).a ++ '/' :: ((place md5 (toSize (atol size))).b ++ '/' ::
        ((place md5 (toSize (atol size))).stem ++ x.toList))).count '.' = 1 := by
      simp [place, hdot fun c hc => hhex c (List.mem_of_mem_take hc),
        hdot fun c hc => hhex c (List.mem_of_mem_drop (List.mem_of_mem_take hc)),
        hdot fun c hc => hhex c (List.mem_of_mem_drop hc), hdot (hex_toDigits _), count_extension hext]
    refine @resolve_below _ _ (String.ofList ((place md5 (toSize (atol size))).a ++ '/' ::
      ((place md5 (toSize (atol size))).b ++ '/' :: ((place md5 (toSize (atol size))).stem ++ x.toList)))) ?_ ?_
    · rw [htext, String.toList_ofList, Place.located]
      simp
    · rw [String.toList_ofList]
      exact notMem_components_of_count hcount.le

open Upload in
/-- **What `download` names stays below the directory of the uploads.** -/
theorem Confined.download (e : Env) (path : String) :
    (dispatch (downloadRoutes e) path).Every (Confined (uploadsPath e.settings)) := by
  rw [downloadRoutes, dispatch_cons]
  split
  swap
  · exact Asks.makeErrorResponse 404
  rename_i caps hcaps
  obtain ⟨hash, size, name, t, -, hhash, -, -, h1, -, -⟩ := groups_of_full_downloadRx hcaps
  have hhex : Hex (text caps 1).toList := by
    rw [text, String.toList_ofList, h1]
    intro c hc
    have hlower := hhash.2 c hc
    rw [isLowerHex, Bool.or_eq_true] at hlower
    rw [isHexDigit, Bool.or_eq_true, Bool.or_eq_true]
    exact .inl hlower
  show (Download.prepare e (text caps 1) (text caps 2) (text caps 3)).Every _
  unfold Download.prepare
  refine Asks.basicPrepare.bind fun _ => ?_
  by_cases h4 : 4 ≤ (text caps 1).length
  swap
  · have hthrow := uploadPath_eq_throw e (Nat.not_le.1 h4) (toSize (atol (text caps 2)))
    rw [hthrow]
    exact .throw _
  obtain ⟨b, hb, -⟩ := uploadPath_eq_ret e h4 (toSize (atol (text caps 2)))
  rw [hb, Prog.ret_bind]
  rcases extension_cases (text caps 3) with ⟨x, hext⟩ | hext
  swap
  · rw [hext]
    exact .throw _
  · rw [hext]
    refine (setHeader _ _).bind fun _ => (setHeader _ _).bind fun _ => serveFile e _ ?_
    refine @uploadsPath_prefix_opened _ _ (text caps 2) (text caps 3) _ hhex ?_
    rw [Download.openedPath, hb, Prog.ret_bind, hext, Prog.ret_bind]

/-! ## `upload` -/

namespace Upload

/-- All names an upload can make are below a path. -/
structure Names.Below (r : Path) (n : Names) : Prop where
  path : r <+: resolve n.path
  part : ∀ i, r <+: resolve (partPath n.base i)
  lock : ∀ i, r <+: resolve (partPath n.base i ++ ".lock")
  rotated : ∀ rotation, ∃ m, Upload.rotated n rotation = .ret m ∧ r <+: resolve m.path

theorem every_mkdir (fuel : Nat) (t : String) (isfile : Bool) : (mkdir fuel t isfile).Every (Confined r) := by
  induction fuel generalizing t isfile with
  | zero => exact .throw _
  | succ fuel ih =>
    refine (Confined.files (.access t)).bind fun found => .ite (.ret _) ?_
    exact (ih _ false).bind fun ok => .ite (.ret _) (.ite (.ret _) (Confined.files (.mkdir t)))

theorem every_readAll {t : String} (ht : r <+: resolve t) : (readAll t).Every (Confined r) := by
  refine (Confined.files (.read t ht)).bind fun content => ?_
  split
  · exact .ret _
  · exact .throw _

theorem every_saveTo (e : Env) {t : String} (content : List UInt8) (ht : r <+: resolve t) :
    (saveTo e t content).Every (Confined r) :=
  (Confined.files (.create t content e.chance.now ht)).bind fun _ => .ite (.ret _) (.throw _)

theorem every_allParts (base : String) (i k : Nat) : (allParts base i k).Every (Confined r) := by
  induction k generalizing i with
  | zero => exact .ret _
  | succ k ih =>
    exact (Confined.files (.access _)).bind fun _ => .ite (ih (i + 1)) (.ret _)

theorem every_joinParts (e : Env) {base path : String} (h : ∀ i, r <+: resolve (partPath base i))
    (hpath : r <+: resolve path) (i : Nat) (done : List UInt8) (k : Nat) :
    (joinParts e base path i done k).Every (Confined r) := by
  induction k generalizing i done with
  | zero => exact .ret _
  | succ k ih =>
    refine (every_readAll (h i)).bind fun content => ?_
    refine (Confined.files (.writeAt path _ content e.chance.now hpath)).bind fun _ => ?_
    exact (Confined.files (.unlink _ (h i))).bind fun _ => ih (i + 1) _

theorem every_receive (e : Env) {n : Names} (h : n.Below r) (content : List UInt8) (chunk chunks : Nat) :
    (receive e n content chunk chunks).Every (Confined r) := by
  unfold receive
  refine .ite ?_ ?_
  · refine (every_mkdir _ _ true).bind fun _ => ?_
    exact (every_saveTo e content h.path).bind fun _ => (every_readAll h.path).bind fun _ => .ret _
  · refine (every_mkdir _ _ true).bind fun _ => ?_
    refine (every_saveTo e content (h.lock chunk)).bind fun _ => ?_
    refine (Confined.files (.rename _ _ (h.lock chunk) (h.part chunk))).bind fun _ => ?_
    refine (every_allParts _ 0 chunks).bind fun _ => .ite ?_ (.ret _)
    refine (Confined.files (.create _ [] e.chance.now h.path)).bind fun _ => ?_
    exact (every_joinParts e h.part h.path 0 [] chunks).bind fun _ => .ret _

theorem every_submit (e : Env) {n : Names} (h : n.Below r) (md5 name : String) (size chunk chunks : Nat) :
    (submit e n md5 name size chunk chunks).Every (Confined r) := by
  unfold submit
  split
  · refine (every_receive e h _ chunk chunks).bind fun bytes => ?_
    split
    · exact .ret _
    · refine (Confined.files (.size _ h.path)).bind fun _ => .ite ?_ (.ret _)
      exact (Confined.files (.unlink _ h.path)).bind fun _ => .ret _
  · exact .ret _

theorem every_rotate (e : Env) {n : Names} (h : n.Below r) (rotation : Int) :
    (rotate e n rotation).Every (Confined r) := by
  obtain ⟨m, hm, hbelow⟩ := h.rotated rotation
  rw [rotate, hm, Prog.ret_bind]
  refine (Confined.files (.access _)).bind fun _ => .ite (.ret _) ?_
  refine (Confined.files (.create _ [] e.chance.now hbelow)).bind fun _ => ?_
  refine (Confined.files (.read _ h.path)).bind fun _ => ?_
  split
  · exact .throw _
  · exact (Confined.files (.writeAt _ 0 _ e.chance.now hbelow)).bind fun _ => .ret _

theorem every_answer (status : Bool) (fields : List (String × String)) :
    (answer status fields).Every (Confined r) := (Confined.setHeader _ _).bind fun _ => Asks.write _

theorem every_adminPrepare : adminPrepare.Every (Confined r) := by
  have hget (key : String) : (sessionGet key).Every (Confined r) := by
    refine (Asks.getOwn _).bind fun v => ?_
    split
    · exact .ret _
    · exact .throw _
  have hgetInt (key : String) : (sessionGetInt key).Every (Confined r) := by
    refine (hget key).bind fun v => ?_
    split
    · exact .ret _
    · exact .throw _
  refine Asks.basicPrepare.bind fun info => (Asks.getOwn _).bind fun isUser => .ite ?_ (.ret _)
  exact (hgetInt _).bind fun _ => (hget _).bind fun _ => .ret _

/-- The files of an upload are below the directory it makes of the settings. -/
theorem root_prefix_text {s : Settings} {p : Place} {rest : List Char} (hp : p.Valid) (hrest : Rest rest)
    {t : String} (ht : t.toList = p.text s rest) : root s <+: resolve t := by
  have hplain := hp.plain hrest
  have ha := plain_of_hex hp.a.1 hp.a.2
  have hb := plain_of_hex hp.b.1 hp.b.2
  have hcomponents : components (p.a ++ '/' :: (p.b ++ '/' :: (p.stem ++ rest))) =
      [p.a, p.b, p.stem ++ rest] := by
    rw [components_cons ha.slash ha.nul, components_cons hb.slash hb.nul,
      components_single hplain.slash hplain.nul]
  refine @resolve_below _ _ (String.ofList (p.a ++ '/' :: (p.b ++ '/' :: (p.stem ++ rest)))) ?_ ?_
  · rw [ht, String.toList_ofList, String.toList_ofList, Place.text]
    simp
  · rw [String.toList_ofList, hcomponents]
    simp [ha.ne_dots.symm, hb.ne_dots.symm, hplain.ne_dots.symm]

theorem names_below {e : Env} {hash ext : String} {size : Nat} {n : Names} (hhash : isHex hash = true)
    (h4 : 4 ≤ hash.length) (hext : AcceptedExt ext.toList) (hn : names e hash ext size = .ret n)
    (hr : r <+: root e.settings) : n.Below r := by
  obtain ⟨n', hn', hbase, hpath, hurl⟩ := names_eq_ret e h4 ext size
  obtain rfl := Prog.ret.inj (hn.symm.trans hn')
  have hvalid := valid_place hhash h4 size
  refine ⟨hr.trans (root_prefix_text hvalid hext.rest hpath),
    fun i => hr.trans (root_prefix_text hvalid (rest_part i) (partPath_toList hbase i)),
    fun i => hr.trans (root_prefix_text hvalid (rest_lock i) (lockPath_toList hbase i)), fun rotation => ?_⟩
  obtain ⟨m, hm, htext⟩ := rotated_text hext hpath hurl rotation
  exact ⟨m, hm, hr.trans (root_prefix_text hvalid (rest_rot _ hext) htext)⟩

attribute [local irreducible] names transfer

theorem every_body (e : Env) {ext : String} (hmd5 : isHex (postOrGet e "md5") = true)
    (hext : AcceptedExt ext.toList) (hr : r <+: root e.settings) : (body e ext).Every (Confined r) := by
  by_cases h4 : 4 ≤ (postOrGet e "md5").length
  swap
  · have hthrow := names_eq_throw e (Nat.not_le.1 h4) ext (toSize (postOrGetLong e "size" 0))
    rw [body, hthrow]
    exact .throw _
  obtain ⟨n, hn, -⟩ := names_eq_ret e h4 ext (toSize (postOrGetLong e "size" 0))
  have hbelow := names_below hmd5 h4 hext hn hr
  rw [body, hn, Prog.ret_bind]
  refine Prog.Every.bind (.ite (every_submit e hbelow _ _ _ _ _) ?_) fun r => ?_
  · exact (Confined.files (.size _ hbelow.path)).bind fun _ => .ite (.ret _) (.ret _)
  · exact .ite ((every_rotate e hbelow _).bind fun _ => every_answer _ _) (every_answer _ _)

/-- **What `upload` names stays below a path if the directory it makes of the settings does.** -/
theorem every_prepare (e : Env) (hr : r <+: root e.settings) : (prepare e).Every (Confined r) := by
  by_cases hchecks : isHex (postOrGet e "md5") = true ∧ acceptedName (postOrGet e "name") = true ∧
      toSize (postOrGetLong e "size" 0) ≠ 0
  · obtain ⟨hmd5, hname, hsize⟩ := hchecks
    obtain ⟨ext, hext, haccepted⟩ := extension_of_acceptedName hname
    rw [prepare_eq_body hmd5 hname hsize hext]
    exact every_adminPrepare.bind fun _ => every_body e hmd5 haccepted hr
  · unfold prepare
    dsimp only
    split
    · exact every_answer _ _
    rename_i hparams
    split
    · exact every_answer _ _
    rename_i hname
    simp only [not_or, not_not] at hparams hname
    exact absurd ⟨hparams.2.1, hname, hparams.2.2.2⟩ hchecks

/-! ### A request that shows where the directory is -/

/-- A query for a file of one byte. -/
def probe (s : Settings) : Env :=
  { oneByteSite.env (oneByteTurn "GET" [] oneByteFields).arrival with settings := s }

/-- The query looks for the file of its name. -/
theorem probe_below {s : Settings} (h : (prepare (probe s)).Every (Confined r)) :
    ∃ t : String, t.toList = (place "0cc175b9c0f1b6a831c399e269772661" 1).text s ('.' :: "txt".toList) ∧
      r <+: resolve t := by
  have hext : CppBlog.extension (postOrGet (probe s) "name") = .ret (String.ofList ('.' :: "txt".toList)) :=
    @extension_eq _ ['a'] _ (by decide) (show "a.txt".toList = 'a' :: '.' :: "txt".toList by decide)
  have hmd5 : isHex (postOrGet (probe s) "md5") = true :=
    show isHex "0cc175b9c0f1b6a831c399e269772661" = true by decide
  have hname : acceptedName (postOrGet (probe s) "name") = true := show acceptedName "a.txt" = true by decide
  have hsize : toSize (postOrGetLong (probe s) "size" 0) = 1 := by
    have hget : postOrGet (probe s) "size" = "1" := rfl
    rw [postOrGetLong, hget]
    decide
  rw [prepare_eq_body hmd5 hname (by rw [hsize]; decide) hext] at h
  obtain ⟨c, hc⟩ := admitted_piece "0" 97 []
  have hbody := h.of_bind hc
  obtain ⟨n, hn, -, hpath, -⟩ := @names_eq_ret (probe s) "0cc175b9c0f1b6a831c399e269772661" (by decide)
    (String.ofList ('.' :: "txt".toList)) 1
  have hn' : names (probe s) (postOrGet (probe s) "md5") (String.ofList ('.' :: "txt".toList))
      (toSize (postOrGetLong (probe s) "size" 0)) = .ret n := by
    rw [hsize]
    exact hn
  have hmethod : (probe s).req.method ≠ "POST" := show "GET" ≠ "POST" by decide
  rw [body, hn', Prog.ret_bind, if_neg hmethod] at hbody
  have hcall : Call (fun t => r <+: resolve t) (Option Nat)
      (fun fs => ((fs.read n.path).map List.length, fs)) := hbody.1
  refine ⟨n.path, by rw [hpath, String.toList_ofList]; rfl, ?_⟩
  by_contra hnot
  -- the answer tells whether the file is there
  have hagree (t : String) (ht : r <+: resolve t) : Files.find [] (resolve t) =
      Files.find [(resolve n.path, .file [] 0)] (resolve t) := by
    have hne : resolve t ≠ resolve n.path := by
      intro heq
      rw [heq] at ht
      exact hnot ht
    rw [Files.find_cons, if_neg hne]
  have heq := hcall.eq_of_agree ⟨none, some 0, some 1, by decide, by decide, by decide⟩ hagree
  have hread : Files.read [(resolve n.path, .file [] 0)] n.path = some [] :=
    Files.read_of_find 0 (by rw [Files.find_cons, if_pos rfl])
  dsimp only at heq
  rw [hread] at heq
  exact absurd heq (by simp [Files.read, Files.find])

/-- The last component of the directory of the uploads is that of its text. -/
theorem getLast?_uploads {s : Settings} (hnul : '\x00' ∉ (s.documentRoot ++ s.media).toList) :
    (uploadsPath s).getLast? = some "upload".toList := by
  have htext : (s.documentRoot ++ (s.media ++ "/upload")).toList =
      (s.documentRoot ++ s.media).toList ++ '/' :: "upload".toList := by
    have hupload : "/upload".toList = '/' :: "upload".toList := by decide
    simp only [String.toList_append, hupload, List.append_assoc]
  by_cases hempty : (s.documentRoot ++ s.media).toList = []
  · rw [hempty, List.nil_append] at htext
    have hupload : uploadsPath s = resolve "/upload" := congrArg resolve (String.toList_inj.1 (htext.trans (by decide)))
    rw [hupload]
    decide
  · rw [uploadsPath, resolve_snoc hempty hnul ⟨by decide, by decide, by decide, by decide, by decide⟩ htext]
    exact List.getLast?_concat

/-- The directory an upload makes of the settings, which drops the slashes at the end of the document root,
    is at or below the one the settings name. -/
def Inside (s : Settings) : Prop := uploadsPath s <+: root s

instance (s : Settings) : Decidable (Inside s) := inferInstanceAs (Decidable (_ <+: _))

theorem inside_of_joinsAlike {s : Settings} (h : JoinsAlike s) : Inside s := by
  have hsame : uploadsPath s = root s := by
    refine resolve_eq_of_collapse ?_
    have hcollapse := ((collapse_upload_iff s).2 h).symm
    simpa only [rootText, String.toList_ofList, String.toList_append] using hcollapse
  unfold Inside
  rw [hsame]

/-- A request that keeps to the directory the settings name shows that the other one is inside. -/
theorem inside_of_every {s : Settings} (h : (prepare (probe s)).Every (Confined (uploadsPath s))) : Inside s := by
  obtain ⟨t, ht, hbegins⟩ := probe_below h
  by_cases hs : Rooted s
  · rw [resolve_text hs (valid_place (by decide) (by decide) 1) (AcceptedExt.rest ⟨"txt", by decide, by decide⟩) ht,
      Place.path_eq] at hbegins
    have hnul : '\x00' ∉ (s.documentRoot ++ s.media).toList := by
      have hs' : '\x00' ∉ (Media.trimSlashes s.documentRoot).toList ++ (s.media ++ "/upload").toList := by
        rw [← String.toList_append]
        exact hs
      simp only [String.toList_append, List.mem_append, not_or] at hs' ⊢
      refine ⟨fun hmem => ?_, hs'.2.1⟩
      rcases trimSlashes_cases s.documentRoot with htrim | ⟨k, hroot, -⟩
      · rw [htrim] at hs'
        exact hs'.1 hmem
      · rw [hroot, List.mem_append] at hmem
        exact hmem.elim hs'.1 fun h => absurd (List.eq_of_mem_replicate h) (by decide)
    -- the last component is none of those behind the directory
    have hlast := getLast?_uploads hnul
    have hne (l : Path) (w : List Char) (hw : w ≠ "upload".toList) : uploadsPath s ≠ l ++ [w] := by
      intro heq
      rw [heq, List.getLast?_concat] at hlast
      exact hw (Option.some.inj hlast)
    have hsplit (l : Path) (a b : List Char) : l ++ [a, b] = (l ++ [a]) ++ [b] := by simp
    have hsecond := (List.prefix_concat_iff.1 hbegins).resolve_left (hne _ _ (by decide))
    rw [hsplit] at hsecond
    have hfirst := (List.prefix_concat_iff.1 hsecond).resolve_left (hne _ _ (by decide))
    exact (List.prefix_concat_iff.1 hfirst).resolve_left (hne _ _ (by decide))
  · have hroot : resolve t = root s := by
      have htext : t.toList = (String.ofList (rootText s)).toList ++ ('/' ::
          (place "0cc175b9c0f1b6a831c399e269772661" 1).a ++ '/' ::
          (place "0cc175b9c0f1b6a831c399e269772661" 1).b ++ '/' ::
          ((place "0cc175b9c0f1b6a831c399e269772661" 1).stem ++ '.' :: "txt".toList)) := by
        rw [ht, String.toList_ofList, Place.text]
        simp
      refine resolve_of_nul ?_ htext
      rw [String.toList_ofList]
      exact not_not.1 hs
    rw [Inside, ← hroot]
    exact hbegins

end Upload

/-! ## All requests -/

/-- Whatever a visitor sends, the files that `media`, `download` and `upload` name are at or below the
    directories of the settings. -/
structure Confines (s : Settings) : Prop where
  media : ∀ e path, e.settings = s →
    (Media.prepare e path).Every (Confined (resolve (s.documentRoot ++ "/media")))
  download : ∀ e path, e.settings = s → (dispatch (downloadRoutes e) path).Every (Confined (uploadsPath s))
  upload : ∀ e, e.settings = s → (Upload.prepare e).Every (Confined (uploadsPath s))

/-- **The files a request can name are confined if and only if the directory an upload makes of the settings
    is inside.** -/
theorem confines_iff (s : Settings) : Confines s ↔ Upload.Inside s := by
  constructor
  · intro h
    exact Upload.inside_of_every (h.upload (Upload.probe s) rfl)
  · intro h
    refine ⟨fun e path he => ?_, fun e path he => ?_, fun e he => ?_⟩
    · subst he
      exact Confined.media e path
    · subst he
      exact Confined.download e path
    · subst he
      exact Upload.every_prepare e h

/-- No setting holds `..`, but a dot at the end of the document root and one at the beginning of the location
    of the media files meet. -/
theorem confines_dots : findSub "..".toList "./".toList = none ∧ findSub "..".toList "./media".toList = none ∧
    ¬Confines { documentRoot := "./", media := "./media" } := by
  refine ⟨by decide, by decide, fun h => ?_⟩
  have hinside := Upload.inside_of_every
    (h.upload (Upload.probe { documentRoot := "./", media := "./media" }) rfl)
  exact absurd hinside (by decide)

end

end CppBlog
