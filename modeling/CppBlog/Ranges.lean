import CppBlog.Reads

set_option autoImplicit false

/-! # Resuming a download

`media::prepare` and `download::prepare` send a file from an offset the header `Range` asks for. Here
is what such a header means, and for which headers and files the two answers are what it asks for. -/

namespace CppBlog

open Effect Store App Text

/-! ## Ranges of bytes -/

/-- What a header asks for: `bytes=a-b`, `bytes=a-` or `bytes=-k`. -/
inductive ByteRange where
  | between (a b : Nat)
  | onward (a : Nat)
  | suffix (k : Nat)
deriving DecidableEq

namespace ByteRange

/-- The offset of the first byte, in a file of `size` bytes. -/
def first (size : Nat) : ByteRange → Nat
  | between a _ => a
  | onward a => a
  | suffix k => size - k

/-- The offset behind the last byte, which is clipped to the end of the file. -/
def stop (size : Nat) : ByteRange → Nat
  | between _ b => min (b + 1) size
  | onward _ => size
  | suffix _ => size

end ByteRange

/-- The range a header spells, if it spells a single one. -/
def readRange (header : String) : Option ByteRange :=
  if "bytes=".toList.isPrefixOf header.toList then
    let s := header.toList.drop "bytes=".toList.length
    let a := s.takeWhile isDigit
    match s.dropWhile isDigit with
    | '-' :: b =>
        if b.all isDigit then
          if a = [] then if b = [] then none else some (.suffix (readDigits 0 b))
          else if b = [] then some (.onward (readDigits 0 a))
          else some (.between (readDigits 0 a) (readDigits 0 b))
        else none
    | _ => none
  else none

example : readRange "bytes=-500" = some (.suffix 500) := by decide

/-- A file as the system knows it: the type of offsets holds its size. -/
structure RegularFile where
  content : List UInt8
  mtime : Nat
  fits : content.length < 2 ^ 63

/-- The part of an answer that a client resumes by. -/
structure Answer where
  status : Nat
  contentLength : Option String
  contentRange : Option String
  body : List UInt8
deriving DecidableEq

/-- The answer of a response, without the compression the framework may add to a text. -/
def Response.answer (r : Response) : Answer where
  status := r.status
  contentLength := r.headers.lookup "Content-Length"
  contentRange := r.headers.lookup "Content-Range"
  body := r.body.flatMap fun out => match out with | .file content => content | _ => []

/-- The header that names the bytes from `first` up to `stop`. -/
def contentRange (first stop size : Nat) : String :=
  "bytes " ++ toString (first : Int) ++ "-" ++ toString (stop - 1 : Int) ++ "/" ++ toString (size : Int)

/-- What the two answers about one file have to be. -/
structure Resumable (header : String) (content : List UInt8) (media download : Answer) : Prop where
  same : media = download
  length : media.contentLength = some (toString media.body.length)
  whole : header = "" → media.status = 200 ∧ media.body = content
  part : ∀ r, readRange header = some r → r.first content.length < r.stop content.length →
    media.status = 206 ∧
      media.body = (content.take (r.stop content.length)).drop (r.first content.length) ∧
      media.contentRange =
        some (contentRange (r.first content.length) (r.stop content.length) content.length)
  beyond : ∀ r, readRange header = some r → content.length ≤ r.first content.length →
    media.status = 416

/-! ## What the handlers answer -/

/-- The offsets of the first and the last byte as the handlers hold them. -/
def offsets (header : String) (size : Nat) : Int × Int :=
  if !header.isEmpty then scanRange header 0 (size - 1) else (0, size - 1)

/-- The answer of `sendFile`. -/
def sent (show64 : Int → String) (header : String) (content : List UInt8) : Answer :=
  let be := offsets header content.length
  let n := toInt64 (be.2 - be.1 + 1)
  { status := if n ≠ content.length then 206 else 200
    contentLength := some (toString (toSize n))
    contentRange :=
      if !header.isEmpty then
        some ("bytes " ++ show64 be.1 ++ "-" ++ show64 be.2 ++ "/" ++ toString (content.length : Int))
      else none
    body := if 0 ≤ be.1 then content.drop be.1.toNat else content }

/-- `p` ends with an answer. -/
def AnswersWith (p : App Unit) (m : Shared × Local) (a : Answer) : Prop :=
  (p.run handle m).1 = .ok () ∧ (p.run handle m).2.2.own.response.answer = a

/-- The answer is the one of the rest when the first part ends normally. -/
theorem AnswersWith.bind {α : Type} {p : App α} {g : α → App Unit} {m m' : Shared × Local} {x : α}
    {a : Answer} (hp : p.run handle m = (.ok x, m')) (h : AnswersWith (g x) m' a) :
    AnswersWith (p.bind g) m a := by
  unfold AnswersWith at h ⊢
  rw [Prog.run_bind, hp]
  exact h

section
variable {e : Env} {s : Shared} {l : Local}

theorem run_modifyResponse (f : Response → Response) :
    (modifyResponse f).run handle (s, l) =
      (.ok (), (s, { l with own := { l.own with response := f l.own.response } })) := rfl

theorem run_files {β : Type} (f : Files → β × Files) :
    (App.files f).run handle (s, l) =
      (.ok (f s.files).1, ({ s with files := (f s.files).2 }, l)) := rfl

theorem run_setHeader (name value : String) :
    (setHeader name value).run handle (s, l) =
      (.ok (), (s, { l with own := { l.own with
        response := { l.own.response with headers := l.own.response.headers ++ [(name, value)] } } })) :=
  rfl

/-- What is sent, when the response holds only headers that do not concern the range. -/
theorem answersWith_sendFile (show64 : Int → String) (content : List UInt8) (mtime : Nat)
    (hstatus : l.own.response.status = 200) (hbody : l.own.response.body = [])
    (hlength : l.own.response.headers.lookup "Content-Length" = none)
    (hrange : l.own.response.headers.lookup "Content-Range" = none) :
    AnswersWith (sendFile e show64 content mtime) (s, l) (sent show64 e.req.httpRange content) := by
  -- whether there is a range and whether it is the whole file select the calls on the response
  by_cases hr : e.req.httpRange.isEmpty = true
  · by_cases hn : toInt64 (content.length : Int) = content.length <;>
      simp [AnswersWith, sendFile, sent, offsets, Prog.run_bind, run_setHeader, run_modifyResponse, write,
        Response.answer, List.lookup_append, List.lookup_cons, hr, hn, hstatus, hbody, hlength, hrange]
  · by_cases hn : toInt64 ((scanRange e.req.httpRange 0 (content.length - 1)).2 -
        (scanRange e.req.httpRange 0 (content.length - 1)).1 + 1) = content.length <;>
      simp [AnswersWith, sendFile, sent, offsets, Prog.run_bind, run_setHeader, run_modifyResponse, write,
        Response.answer, List.lookup_append, List.lookup_cons, hr, hn, hstatus, hbody, hlength, hrange]

end

/-! ## The two handlers -/

/-- The response written so far is kept. -/
def SameResponse (s s' : St) : Prop := s'.own.response = s.own.response

instance : IsPreorder St SameResponse where
  refl _ := rfl
  trans _ _ _ h h' := h'.trans h

namespace SameResponse

variable {α β : Type}

theorem query (f : Db → β) : (App.query f).Within calls SameResponse := fun _ => wp_query.2 ⟨rfl, rfl⟩

theorem exec (f : Db → Except SqlError Db) : (App.exec f).Within calls SameResponse :=
  fun s => wp_exec.2 ⟨fun d _ => by simp [SameResponse], fun _ _ => rfl, rfl⟩

theorem transaction {body : App α} (h : body.Within calls SameResponse) :
    (App.transaction body).Within calls SameResponse :=
  fun s => wp_transaction.2 ⟨h { s with tx := some s.db }, rfl⟩

theorem fetch (key : String) : (App.fetch key).Within calls SameResponse := by
  refine Prog.Within.bind (fun _ => wp_cache.2 rfl) fun r => ?_
  cases r
  · exact .ret _
  · exact Prog.Within.bind (fun _ => wp_modifyOwn.2 rfl) fun _ => .ret _

theorem basicPrepare : CppBlog.basicPrepare.Within calls SameResponse := by
  have hloop (ver rounds : Nat) : (upgradeLoop ver rounds).Within calls SameResponse := by
    induction rounds generalizing ver with
    | zero => exact .ret _
    | succ rounds ih =>
      unfold upgradeLoop
      split
      · exact .throw _
      · rename_i call hcall
        have hmem : call = dummyUpgrade ∨ call = upgrade23 := by
          simpa [callbacks] using List.mem_of_getElem? hcall
        refine Prog.Within.bind ?_ fun ok => .ite (ih _) (.ret _)
        rcases hmem with rfl | rfl
        · exact .throw _
        · exact (exec _).bind fun _ => (exec _).bind fun _ => .ret _
  have hcommit : App.commit.Within calls SameResponse := fun _ => wp_commit.2 ⟨rfl, rfl⟩
  have hversion (v : String) : (checkVersion v).Within calls SameResponse :=
    .ite (.ret _) <| Prog.Within.bind (.ite (.ret _) <| .ite (.ret _) <| transaction <|
      (hloop _ _).bind fun ok => .ite (hcommit.bind fun _ => .ret _) (.ret _))
      fun _ => .ite (.ret _) (.throw _)
  refine (fetch "options").bind fun r => ?_
  split
  · exact .ret _
  · exact .throw _
  · refine (query _).bind fun _ => (hversion _).bind fun _ => .ite (.throw _) ?_
    exact Prog.Within.bind (Prog.Within.bind (fun _ => wp_modifyOwn.2 rfl) fun _ _ => wp_cache.2 rfl)
      fun _ => .ret _

theorem adminPrepare : CppBlog.adminPrepare.Within calls SameResponse := by
  have hkey (key : String) : (sessionGet key).Within calls SameResponse :=
    fun _ => wp_sessionGet.2 ⟨fun _ _ => rfl, fun _ => rfl⟩
  have hint (key : String) : (sessionGetInt key).Within calls SameResponse :=
    (hkey key).bind fun v => by cases readInt? v <;> first | exact .ret _ | exact .throw _
  exact basicPrepare.bind fun _ => Prog.Within.bind (fun _ => wp_sessionIsSet.2 rfl) fun _ =>
    .ite ((hint _).bind fun _ => (hkey _).bind fun _ => .ret _) (.ret _)

end SameResponse

/-- `media` finds the file under a path. -/
def Media.Finds (e : Env) (path : String) (fs : Files) (f : RegularFile) : Prop :=
  findSub "..".toList path.toList = none ∧
    fs.find (resolve (trimSlashes e.settings.documentRoot ++ "/media" ++ "/" ++ path)) =
      some (.file f.content f.mtime)

/-- `download` finds the file under the hash, the size and the extension of an upload. -/
def Download.Finds (e : Env) (md5 size name : String) (fs : Files) (f : RegularFile) : Prop :=
  ∃ path ext, uploadPath e md5 (toSize (atol size)) = .ret path ∧ CppBlog.extension name = .ret ext ∧
    fs.find (resolve (e.settings.documentRoot ++ path ++ ext)) = some (.file f.content f.mtime)

theorem answersWith_media {e : Env} {path : String} {s : Shared} {l : Local} {f : RegularFile}
    (hf : Media.Finds e path s.files f) (hresponse : l.own.response = {}) :
    AnswersWith (Media.prepare e path) (s, l) (sent toString e.req.httpRange f.content) := by
  obtain ⟨hdots, hfind⟩ := hf
  have hnone : (findSub "..".toList path.toList).isSome = false := by rw [hdots]; rfl
  rw [Media.prepare, hnone]
  refine AnswersWith.bind (run_setHeader _ _) (AnswersWith.bind (run_files _) ?_)
  dsimp only
  rw [hfind]
  refine answersWith_sendFile toString f.content f.mtime ?_ ?_ ?_ ?_ <;> rw [hresponse] <;> rfl

theorem answersWith_download {e : Env} {md5 size name : String} {s : Shared} {l : Local}
    {f : RegularFile} (hf : Download.Finds e md5 size name s.files f) (hresponse : l.own.response = {})
    {a : Answer} (h : AnswersWith (Download.prepare e md5 size name) (s, l) a) :
    a = sent (fun x => toString (toSize x)) e.req.httpRange f.content := by
  obtain ⟨path, ext, hpath, hext, hfind⟩ := hf
  have hkeeps := Prog.Ends.of_both (Prog.wp_run (M := calls) handle viewOf
    (fun o c => outcome_handle o c) (c := (s, l)) (Prog.wp_and (readOnly_basicPrepare (R := Reads) _)
      (SameResponse.basicPrepare _)))
  obtain ⟨hend, hanswer⟩ := h
  rw [Download.prepare, Prog.run_bind] at hend hanswer
  revert hend hanswer hkeeps
  rcases basicPrepare.run handle (s, l) with ⟨r | info, s', l'⟩
  · exact fun _ hend _ => absurd hend (by simp)
  · intro hkeeps hend hanswer
    have hfiles : s'.files = s.files := hkeeps.1.files
    have hsame : l'.own.response = {} := hkeeps.2.trans hresponse
    dsimp only at hend hanswer
    rw [hpath, hext] at hend hanswer
    have hsent : AnswersWith ((setHeader "Content-Type" "application/octet-stream").bind fun _ =>
        (setHeader "Content-Disposition" ("attachment; filename=\x22" ++ name ++ "\x22" ++
          (if Download.plainName name then "" else "; filename*=utf-8''" ++ Download.urlencode name))).bind
        fun _ => serveFile e (fun x => toString (toSize x)) (e.settings.documentRoot ++ path ++ ext))
        (s', l') (sent (fun x => toString (toSize x)) e.req.httpRange f.content) := by
      refine AnswersWith.bind (run_setHeader _ _) (AnswersWith.bind (run_setHeader _ _)
        (AnswersWith.bind (run_files _) ?_))
      dsimp only
      rw [hfiles, hfind]
      refine answersWith_sendFile _ f.content f.mtime ?_ ?_ ?_ ?_ <;> rw [hsame] <;> rfl
    exact hanswer.symm.trans hsent.2

/-! ## What `sscanf` reads -/

theorem toInt64_bounds (x : Int) : -2 ^ 63 ≤ toInt64 x ∧ toInt64 x < 2 ^ 63 := by
  rw [toInt64, Int.bmod_def]
  split <;> omega

theorem toInt64_of_bounds {x : Int} (h : -2 ^ 63 ≤ x) (h' : x < 2 ^ 63) : toInt64 x = x :=
  Int.bmod_eq_of_le (by omega) (by omega)

/-- The number of digits that are read with the value `value`. -/
def scanned (n : Nat) (value : Int) : Int := toInt64 (if 2 ^ 64 ≤ (n : Int) then 2 ^ 64 - 1 else value)

theorem takeWhile_digits {ds rest : List Char} (hds : ∀ c ∈ ds, isDigit c = true) (hrest : NoDigit rest) :
    (ds ++ rest).takeWhile isDigit = ds ∧ (ds ++ rest).dropWhile isDigit = rest := by
  rw [List.takeWhile_append_of_pos hds, List.dropWhile_append_of_pos hds]
  cases rest with
  | nil => simp
  | cons c rest =>
    have hc : isDigit c = false := hrest c rfl
    simp [hc]

/-- `%lu` on digits and a text that does not go on with one. -/
theorem scanUlong_digits {ds rest : List Char} (hds : ∀ c ∈ ds, isDigit c = true) (hne : ds ≠ [])
    (hrest : NoDigit rest) :
    scanUlong (ds ++ rest) = some (scanned (readDigits 0 ds) (readDigits 0 ds), rest) := by
  obtain ⟨htake, hdrop⟩ := takeWhile_digits hds hrest
  obtain ⟨c, t, rfl⟩ := List.exists_cons_of_ne_nil hne
  obtain ⟨hspace, hminus, hplus⟩ := not_isSpace_of_isDigit (hds c List.mem_cons_self)
  rw [scanUlong, List.cons_append, List.dropWhile_cons_of_neg (by simp [hspace])]
  split
  rename_i neg u hmatch
  split at hmatch
  · next h => exact absurd (List.cons.inj h).1 hminus
  · next h => exact absurd (List.cons.inj h).1 hplus
  · obtain ⟨rfl, rfl⟩ := Prod.mk.inj hmatch
    rw [← List.cons_append, htake, hdrop]
    simp [scanned]

/-- `%lu` takes a sign, and the number wraps. -/
theorem scanUlong_minus {ds : List Char} (hds : ∀ c ∈ ds, isDigit c = true) (hne : ds ≠ []) :
    scanUlong ('-' :: ds) = some (scanned (readDigits 0 ds) (-readDigits 0 ds), []) := by
  have hspace : isSpace '-' = false := by decide
  obtain ⟨htake, hdrop⟩ := takeWhile_digits hds (show NoDigit [] by simp [NoDigit])
  rw [List.append_nil] at htake hdrop
  rw [scanUlong, List.dropWhile_cons_of_neg (by simp [hspace])]
  simp [htake, hdrop, hne, scanned]

theorem scanUlong_bounds {s rest : List Char} {x : Int} (h : scanUlong s = some (x, rest)) :
    -2 ^ 63 ≤ x ∧ x < 2 ^ 63 := by
  have hread (neg : Bool) (t : List Char) (h : (if t.takeWhile isDigit = [] then none else
      some (scanned (readDigits 0 (t.takeWhile isDigit)) (if neg then -readDigits 0 (t.takeWhile isDigit)
        else readDigits 0 (t.takeWhile isDigit)), t.dropWhile isDigit)) = some (x, rest)) :
      -2 ^ 63 ≤ x ∧ x < 2 ^ 63 := by
    split at h
    · exact absurd h (by simp)
    · obtain ⟨rfl, -⟩ := Prod.mk.inj (Option.some.inj h)
      exact toInt64_bounds _
  unfold scanUlong at h
  dsimp only at h
  split at h
  · exact hread true _ h
  · exact hread false _ h
  · exact hread false _ h

/-- What the handlers hold of a range that is spelled out. -/
def ByteRange.scan (last : Int) : ByteRange → Int × Int
  | between a b => (scanned a a, scanned b b)
  | onward a => (scanned a a, last)
  | suffix k => (scanned k (-k), last)

theorem scanRange_of_readRange {header : String} {r : ByteRange} (h : readRange header = some r)
    (last : Int) : scanRange header 0 last = r.scan last := by
  unfold readRange at h
  unfold scanRange
  split at h
  · rename_i hhead
    simp only [hhead, if_true]
    generalize header.toList.drop "bytes=".toList.length = s at h ⊢
    have hs := s.takeWhile_append_dropWhile (p := isDigit)
    have ha : ∀ c ∈ s.takeWhile isDigit, isDigit c = true :=
      List.all_eq_true.1 List.all_takeWhile
    dsimp only at h
    split at h
    · rename_i b hb
      rw [hb] at hs
      split at h
      · rename_i hdigits
        have hdigits := List.all_eq_true.1 hdigits
        split at h
        · rename_i ha
          split at h
          · exact absurd h (by simp)
          · rename_i hne
            obtain rfl := Option.some.inj h
            rw [← hs, ha, List.nil_append, scanUlong_minus hdigits hne]
            rfl
        · rename_i hne
          have hminus : NoDigit ('-' :: b) := by simp [NoDigit, isDigit]
          rw [← hs, scanUlong_digits ha hne hminus]
          split at h
          · rename_i hb
            obtain rfl := Option.some.inj h
            subst hb
            rfl
          · rename_i hbne
            obtain rfl := Option.some.inj h
            have hsecond := scanUlong_digits hdigits hbne (show NoDigit [] by simp [NoDigit])
            rw [List.append_nil] at hsecond
            simp only [hsecond, ByteRange.scan]
      · exact absurd h (by simp)
    · exact absurd h (by simp)
  · exact absurd h (by simp)

theorem scanRange_bounds (header : String) {size : Nat} (hsize : size < 2 ^ 63) :
    (-2 ^ 63 ≤ (scanRange header 0 (size - 1)).1 ∧ (scanRange header 0 (size - 1)).1 < 2 ^ 63) ∧
      -2 ^ 63 ≤ (scanRange header 0 (size - 1)).2 ∧ (scanRange header 0 (size - 1)).2 < 2 ^ 63 := by
  unfold scanRange
  dsimp only
  split
  · split
    · exact ⟨by omega, by omega⟩
    · rename_i hb
      have hb := scanUlong_bounds hb
      split
      · exact ⟨hb, by omega⟩
      · rename_i he
        exact ⟨hb, scanUlong_bounds he⟩
    · rename_i hb
      exact ⟨scanUlong_bounds hb, by omega⟩
  · exact ⟨by omega, by omega⟩

/-! ## When the two answers are right -/

/-- The numbers a handler holds mark the end of the file from some offset on, or nothing behind it. -/
def MarksEnd (be : Int × Int) (size : Nat) : Prop :=
  0 ≤ be.1 ∧ 0 ≤ be.2 ∧ be.2 = if be.1 < size then (size - 1 : Int) else be.1 - 1

instance (be : Int × Int) (size : Nat) : Decidable (MarksEnd be size) := by
  unfold MarksEnd
  infer_instance

/-- The headers for which both answers are right: none, or a range that starts behind the first byte
    and ends with the last one. Of a header that spells no range, what is read must mark the end. -/
def Complete (header : String) (size : Nat) : Prop :=
  header = "" ∨
    match readRange header with
    | some (.between a b) => 0 < a ∧ a < size ∧ b + 1 = size
    | some (.onward a) => 0 < a ∧ a < size
    | some (.suffix _) => False
    | none => MarksEnd (scanRange header 0 (size - 1)) size

theorem toString_toSize {x : Int} (h0 : 0 ≤ x) (h : x < 2 ^ 63) : toString (toSize x) = toString x := by
  obtain ⟨n, rfl⟩ := Int.eq_ofNat_of_zero_le h0
  have hn : toSize (n : Int) = n := by
    unfold toSize
    omega
  rw [hn]
  rfl

/-- Signed and unsigned offsets read the same if no sign is printed. -/
theorem same_iff {header : String} {content : List UInt8} (hheader : header ≠ "")
    (hsize : content.length < 2 ^ 63) :
    sent toString header content = sent (fun x => toString (toSize x)) header content ↔
      0 ≤ (scanRange header 0 (content.length - 1)).1 ∧ 0 ≤ (scanRange header 0 (content.length - 1)).2 := by
  obtain ⟨⟨hb, hb'⟩, he, he'⟩ := scanRange_bounds header hsize
  have hempty : (!header.isEmpty) = true := by simpa [String.isEmpty_iff] using hheader
  simp only [sent, offsets, hempty, if_true, Answer.mk.injEq, true_and, and_true, Option.some.injEq]
  constructor
  · intro h
    have hcast (x : Int) : toString (toSize x) = toString (toSize x : Int) := rfl
    rw [hcast, hcast] at h
    have h := congrArg String.toList h
    simp only [String.toList_append, List.append_assoc] at h
    have hminus (s : List Char) : NoDigit ("-".toList ++ s) := by simp [NoDigit, isDigit]
    have hslash (s : List Char) : NoDigit ("/".toList ++ s) := by simp [NoDigit, isDigit]
    obtain ⟨hfirst, h⟩ := toString_append_inj (hminus _) (hminus _) (List.append_cancel_left h)
    obtain ⟨hlast, -⟩ := toString_append_inj (hslash _) (hslash _) (List.append_cancel_left h)
    exact ⟨by omega, by omega⟩
  · rintro ⟨hb0, he0⟩
    rw [toString_toSize hb0 hb', toString_toSize he0 he']

/-- The length that is announced is that of the body only for the end of the file. -/
theorem length_iff {b e : Int} {size : Nat} (hsize : size < 2 ^ 63) (hb : 0 ≤ b) (hb' : b < 2 ^ 63)
    (he : 0 ≤ e) (he' : e < 2 ^ 63) :
    toSize (toInt64 (e - b + 1)) = size - b.toNat ↔
      e = if b < size then (size - 1 : Int) else b - 1 := by
  have hmod : toSize (toInt64 (e - b + 1)) = ((e - b + 1) % 2 ^ 64).toNat := by
    rw [toSize, toInt64, Int.bmod_def]
    split <;> omega
  rw [hmod]
  split <;> omega

theorem scanned_of_lt {n : Nat} (h : n < 2 ^ 63) : scanned n n = n := by
  rw [scanned, if_neg (by omega)]
  exact toInt64_of_bounds (by omega) (by omega)

/-- A number that is read as an offset of the file is that offset. -/
theorem scanned_eq {n k : Nat} (h : scanned n n = k) (hk : k < 2 ^ 63) : n = k := by
  rw [scanned, toInt64, Int.bmod_def] at h
  split at h <;> split at h <;> omega

/-- A suffix is read as a negative number, or as one that is too small. -/
theorem scanned_neg {k : Nat} (hk : 0 < k) (h : 0 ≤ scanned k (-k)) :
    0 < scanned k (-k) ∧ 2 ^ 63 < k := by
  rw [scanned, toInt64, Int.bmod_def] at h ⊢
  split at h <;> split at h <;> split <;> omega

theorem sent_status {header : String} {content : List UInt8} (hheader : header ≠ "")
    (show64 : Int → String) :
    (sent show64 header content).status =
      if toInt64 ((scanRange header 0 (content.length - 1)).2 -
        (scanRange header 0 (content.length - 1)).1 + 1) ≠ content.length then 206 else 200 := by
  have hempty : (!header.isEmpty) = true := by simpa [String.isEmpty_iff] using hheader
  simp only [sent, offsets, hempty, if_true]

/-- The agreement of the two answers, and of length and body, comes down to the numbers. -/
theorem same_length_iff {header : String} {content : List UInt8} (hheader : header ≠ "")
    (hsize : content.length < 2 ^ 63) :
    (sent toString header content = sent (fun x => toString (toSize x)) header content ∧
      (sent toString header content).contentLength =
        some (toString (sent toString header content).body.length)) ↔
      MarksEnd (scanRange header 0 (content.length - 1)) content.length := by
  obtain ⟨⟨hb, hb'⟩, he, he'⟩ := scanRange_bounds header hsize
  have hempty : (!header.isEmpty) = true := by simpa [String.isEmpty_iff] using hheader
  rw [same_iff hheader hsize, and_assoc]
  refine and_congr_right fun hb0 => and_congr_right fun he0 => ?_
  rw [← length_iff hsize hb0 hb' he0 he']
  simp only [sent, offsets, hempty, if_true, if_pos hb0, Option.some.injEq, List.length_drop]
  have hinj (i j : Nat) (h : toString i = toString j) : i = j :=
    Int.ofNat.inj (toString_int_injective (i := i) (j := j) h)
  exact ⟨hinj _ _, congrArg toString⟩

/-- Without a header the whole file is sent. -/
theorem resumable_of_empty {content : List UInt8} (hsize : content.length < 2 ^ 63) :
    Resumable "" content (sent toString "" content) (sent (fun x => toString (toSize x)) "" content) := by
  have hn : toInt64 (content.length : Int) = content.length := toInt64_of_bounds (by omega) (by omega)
  have hlength : toSize (content.length : Int) = content.length := by
    unfold toSize
    omega
  have hnone : readRange "" = none := by decide
  refine ⟨?_, ?_, fun _ => ?_, fun r hr => ?_, fun r hr => ?_⟩
  · simp [sent, offsets]
  · simp [sent, offsets, hn, hlength]
  · simp [sent, offsets, hn]
  · exact absurd hr (by simp [hnone])
  · exact absurd hr (by simp [hnone])

/-- The status tells the whole file from a part of it. -/
theorem sent_status_of_scan {header : String} {content : List UInt8} {a : Nat} (hheader : header ≠ "")
    (ha : a < content.length) (hsize : content.length < 2 ^ 63)
    (hscan : scanRange header 0 (content.length - 1) = ((a : Int), (content.length - 1 : Int))) :
    (sent toString header content).status = if a = 0 then 200 else 206 := by
  have hn : toInt64 ((content.length - 1 : Int) - a + 1) = content.length - a := by
    rw [toInt64_of_bounds (by omega) (by omega)]
    omega
  rw [sent_status hheader, hscan, hn]
  split <;> split <;> first | rfl | omega

theorem complete_of_resumable {header : String} {content : List UInt8} (hsize : content.length < 2 ^ 63)
    (hheader : header ≠ "")
    (h : Resumable header content (sent toString header content)
      (sent (fun x => toString (toSize x)) header content)) : Complete header content.length := by
  have hmarks := (same_length_iff hheader hsize).1 ⟨h.same, h.length⟩
  refine .inr ?_
  cases hr : readRange header with
  | none => exact hmarks
  | some r =>
    have hscan := scanRange_of_readRange hr (content.length - 1)
    have hbeyond : r.first content.length < content.length := by
      refine Nat.not_le.1 fun hle => ?_
      have hstatus := h.beyond r hr hle
      rw [sent_status hheader] at hstatus
      split at hstatus <;> exact absurd hstatus (by decide)
    have hpart := h.part r hr
    rw [hscan] at hmarks
    cases r with
    | between a b =>
      have ha : a < content.length := hbeyond
      rw [ByteRange.scan, MarksEnd, scanned_of_lt (show a < 2 ^ 63 by omega), if_pos (by omega)] at hmarks
      have hb : b = content.length - 1 := scanned_eq (by omega) (by omega)
      have hlast : scanned b b = (content.length - 1 : Int) := hmarks.2.2
      rw [ByteRange.scan, scanned_of_lt (show a < 2 ^ 63 by omega), hlast] at hscan
      have hstatus := (hpart (by simp only [ByteRange.first, ByteRange.stop]; omega)).1
      rw [sent_status_of_scan hheader ha hsize hscan] at hstatus
      refine ⟨Nat.pos_of_ne_zero fun h0 => ?_, ha, by omega⟩
      rw [if_pos h0] at hstatus
      exact absurd hstatus (by decide)
    | onward a =>
      have ha : a < content.length := hbeyond
      rw [ByteRange.scan, scanned_of_lt (show a < 2 ^ 63 by omega)] at hscan
      have hstatus := (hpart ha).1
      rw [sent_status_of_scan hheader ha hsize hscan] at hstatus
      refine ⟨Nat.pos_of_ne_zero fun h0 => ?_, ha⟩
      rw [if_pos h0] at hstatus
      exact absurd hstatus (by decide)
    | suffix k =>
      -- the number is read as a huge one: the whole file is asked for, a part of it is sent
      have hk : content.length - k < content.length := hbeyond
      obtain ⟨hpos, hlarge⟩ := scanned_neg (by omega) hmarks.1
      have hbody := (hpart hk).2.1
      have hempty : (!header.isEmpty) = true := by simpa [String.isEmpty_iff] using hheader
      have hsent : (sent toString header content).body = content.drop (scanned k (-k)).toNat := by
        simp only [sent, offsets, hempty, if_true, hscan, ByteRange.scan]
        exact if_pos hmarks.1
      rw [hsent] at hbody
      have hlen := congrArg List.length hbody
      simp only [ByteRange.first, ByteRange.stop, List.length_drop, List.length_take] at hlen
      omega

theorem resumable_of_complete {header : String} {content : List UInt8} (hsize : content.length < 2 ^ 63)
    (hheader : header ≠ "") (h : Complete header content.length) :
    Resumable header content (sent toString header content)
      (sent (fun x => toString (toSize x)) header content) := by
  have h := h.resolve_left hheader
  have hempty : (!header.isEmpty) = true := by simpa [String.isEmpty_iff] using hheader
  cases hr : readRange header with
  | none =>
    rw [hr] at h
    obtain ⟨hsame, hlength⟩ := (same_length_iff hheader hsize).2 h
    exact ⟨hsame, hlength, fun h => absurd h hheader, fun r h => absurd h (by simp [hr]),
      fun r h => absurd h (by simp [hr])⟩
  | some r =>
    have hscan := scanRange_of_readRange hr (content.length - 1)
    rw [hr] at h
    -- both forms that are left name the end of the file from an offset on
    obtain ⟨a, ha0, ha, hfirst, hstop, hr'⟩ : ∃ a, 0 < a ∧ a < content.length ∧
        r.first content.length = a ∧ r.stop content.length = content.length ∧
        r.scan (content.length - 1) = ((a : Int), (content.length - 1 : Int)) := by
      cases r with
      | between a b =>
        obtain ⟨ha0, ha, hb⟩ := h
        refine ⟨a, ha0, ha, rfl, by simp only [ByteRange.stop]; omega, ?_⟩
        rw [ByteRange.scan, scanned_of_lt (show a < 2 ^ 63 by omega), scanned_of_lt (show b < 2 ^ 63 by omega)]
        exact Prod.ext rfl (by simp only; omega)
      | onward a =>
        refine ⟨a, h.1, h.2, rfl, rfl, ?_⟩
        rw [ByteRange.scan, scanned_of_lt (show a < 2 ^ 63 by have := h.2; omega)]
      | suffix k => exact h.elim
    rw [hr'] at hscan
    obtain ⟨hsame, hlength⟩ := (same_length_iff hheader hsize).2 (by
      rw [hscan, MarksEnd, if_pos (by omega)]
      exact ⟨by omega, by omega, rfl⟩)
    refine ⟨hsame, hlength, fun h => absurd h hheader, fun r₁ hr₁ _ => ?_, fun r₁ hr₁ hle => ?_⟩
    · obtain rfl := Option.some.inj (hr.symm.trans hr₁)
      rw [hfirst, hstop, List.take_length]
      refine ⟨?_, ?_, ?_⟩
      · rw [sent_status_of_scan hheader ha hsize hscan, if_neg (by omega)]
      · simp only [sent, offsets, hempty, if_true, hscan]
        rw [if_pos (by omega), Int.toNat_natCast]
      · simp only [sent, offsets, hempty, if_true, hscan]
        rfl
    · obtain rfl := Option.some.inj (hr.symm.trans hr₁)
      omega

/-- The answers of the two handlers are what a header asks for exactly if it asks for nothing or for
    the end of the file behind its first byte. -/
theorem resumable_sent_iff (header : String) {content : List UInt8} (hsize : content.length < 2 ^ 63) :
    Resumable header content (sent toString header content)
      (sent (fun x => toString (toSize x)) header content) ↔ Complete header content.length := by
  by_cases hheader : header = ""
  · subst hheader
    exact iff_of_true (resumable_of_empty hsize) (.inl rfl)
  · exact ⟨complete_of_resumable hsize hheader, resumable_of_complete hsize hheader⟩

/-- An upload of ten bytes. -/
def tenBytes : RegularFile where
  content := [0, 1, 2, 3, 4, 5, 6, 7, 8, 9]
  mtime := 0
  fits := by decide

/-- A configured site that holds it. -/
def tenBytesWorld : World :=
  run Site.sample [.request (Arrival.configure "a" "alice")]
    (World.fresh [(resolve "./media/upload/ab/cd/ef-a.txt", .file tenBytes.content tenBytes.mtime)])

/-- The requests for it with a header. -/
def tenBytesEnv (header : String) : Env :=
  Site.sample.env { req := { sid := "a", path := "", httpRange := header } }

def tenBytesMedia (header : String) : Answer :=
  ((Media.prepare (tenBytesEnv header) "upload/ab/cd/ef-a.txt").run handle
    (tenBytesWorld.shared, {})).2.2.own.response.answer

def tenBytesDownload (header : String) : Answer :=
  ((Download.prepare (tenBytesEnv header) "abcdef" "10" "x.txt").run handle
    (tenBytesWorld.shared, {})).2.2.own.response.answer

end CppBlog

