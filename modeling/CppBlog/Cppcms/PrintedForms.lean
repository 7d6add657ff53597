import CppBlog.Cppcms.MultipartForms

set_option autoImplicit false

/-! # Forms as they are printed

A form printed with quoted names is read back: the fields with their names and values, the files with
their names, media types and contents. -/

namespace Cppcms

open Protocol Text

/-! ## Words and quoted texts -/

namespace Protocol

theorem tocken_append {w rest : List Char} (hw : ∀ c ∈ w, tockenChar c = true)
    (hrest : ∀ c ∈ rest.head?, tockenChar c = false) : tocken (w ++ rest) = (w, rest) := by
  unfold tocken
  rw [List.span_eq_takeWhile_dropWhile]
  have htake : (w ++ rest).takeWhile tockenChar = w := by
    rw [List.takeWhile_append_of_pos hw]
    cases rest with
    | nil => rw [List.takeWhile_nil, List.append_nil]
    | cons c rest => rw [List.takeWhile_cons_of_neg (by simp [hrest c rfl]), List.append_nil]
  have hdrop : (w ++ rest).dropWhile tockenChar = rest := by
    rw [List.dropWhile_append_of_pos hw]
    cases rest with
    | nil => rfl
    | cons c rest => rw [List.dropWhile_cons_of_neg (by simp [hrest c rfl])]
  rw [htake, hdrop]

theorem tocken_word {w : List Char} (hw : ∀ c ∈ w, tockenChar c = true) {c : Char} (hc : tockenChar c = false)
    (rest : List Char) : tocken (w ++ c :: rest) = (w, c :: rest) :=
  tocken_append hw fun d hd => by
    obtain rfl := Option.some.inj hd
    exact hc

/-- Where no white space stands nothing is skipped. -/
theorem skipWs_of_head {l : List Char} (h : ∀ c ∈ l.head?, c ≠ ' ' ∧ c ≠ '\t' ∧ c ≠ '\r') : skipWs l = l := by
  cases l with
  | nil => rfl
  | cons c l =>
    obtain ⟨hspace, htab, hcr⟩ := h c rfl
    cases l with
    | nil => simp [skipWs, hspace, htab]
    | cons d l =>
      cases l with
      | nil => simp [skipWs, hspace, htab]
      | cons e l => simp [skipWs, hcr, hspace, htab]

theorem skipWs_word {w : List Char} (hw : ∀ c ∈ w, tockenChar c = true) (hne : w ≠ []) (rest : List Char) :
    skipWs (w ++ rest) = w ++ rest := by
  obtain ⟨a, w, rfl⟩ := List.exists_cons_of_ne_nil hne
  refine skipWs_of_head fun c hc => ?_
  obtain rfl := Option.some.inj hc
  have ha := hw a List.mem_cons_self
  refine ⟨?_, ?_, ?_⟩ <;> rintro rfl <;> exact absurd ha (by decide)

@[simp] theorem skipWs_space (l : List Char) : skipWs (' ' :: l) = skipWs l := by
  cases l with
  | nil => rfl
  | cons d l =>
    cases l with
    | nil => simp [skipWs]
    | cons e l => simp [skipWs]

/-- A text between quotes: the quote and the backslash are escaped. -/
def quoted (l : List Char) : List Char := l.flatMap fun c => if c = '"' ∨ c = '\\' then ['\\', c] else [c]

theorem unquoteLoop_quoted (l rest : List Char) : unquoteLoop (quoted l ++ '"' :: rest) = some (l, rest) := by
  induction l with
  | nil => rfl
  | cons c l ih =>
    rw [quoted, List.flatMap_cons, List.append_assoc, ← quoted]
    by_cases hc : c = '"' ∨ c = '\\'
    · rw [if_pos hc, List.cons_append, List.cons_append, List.nil_append]
      rw [unquoteLoop, ih]
      rfl
    · rw [if_neg hc, List.singleton_append]
      obtain ⟨hquote, hback⟩ := not_or.1 hc
      rw [unquoteLoop, ih]
      · rfl
      · exact hquote
      · exact fun _ _ h => absurd h hback

theorem unquote_quoted (l rest : List Char) : unquote ('"' :: (quoted l ++ '"' :: rest)) = some (l, rest) :=
  unquoteLoop_quoted l rest

theorem cr_notMem_quoted {l : List Char} (h : '\r' ∉ l) : '\r' ∉ quoted l := by
  unfold quoted
  rw [List.mem_flatMap]
  rintro ⟨c, hc, hmem⟩
  split at hmem
  · simp only [List.mem_cons, List.not_mem_nil, or_false] at hmem
    rcases hmem with heq | rfl
    · exact absurd heq (by decide)
    · exact h hc
  · obtain rfl := List.mem_singleton.1 hmem
    exact h hc

/-- The end of a line. -/
def crlf : List Char := ['\r', '\n']

end Protocol

/-! ## The headers of a part -/

/-- A media type in lower case. -/
def IsMediaType (l : List Char) : Prop :=
  ∃ type subtype, type ≠ [] ∧ subtype ≠ [] ∧ (∀ c ∈ type, tockenChar c = true) ∧ (∀ c ∈ subtype, tockenChar c = true) ∧
    lower type = type ∧ lower subtype = subtype ∧ l = type ++ '/' :: subtype

theorem IsMediaType.parse {l : List Char} (h : IsMediaType l) : (ContentType.parse l).mediaType = l := by
  obtain ⟨type, subtype, htype, hsubtype, htypeWord, hsubtypeWord, hlower, hlower', rfl⟩ := h
  have htocken : tocken (type ++ '/' :: subtype) = (type, '/' :: subtype) :=
    tocken_append htypeWord fun c hc => by
      obtain rfl := Option.some.inj hc
      rfl
  have htocken' : tocken subtype = (subtype, []) := by
    have happend := @tocken_append _ [] hsubtypeWord fun c hc => by cases hc
    rwa [List.append_nil] at happend
  unfold ContentType.parse
  rw [skipWs_word htypeWord htype, htocken]
  dsimp only
  rw [if_neg htype]
  change (if (tocken subtype).1 = [] then ({} : ContentType)
    else ⟨lower type ++ '/' :: lower (tocken subtype).1, _⟩).mediaType = _
  rw [htocken', if_neg hsubtype, hlower, hlower']

theorem IsMediaType.cr_notMem {l : List Char} (h : IsMediaType l) : '\r' ∉ l := by
  obtain ⟨type, subtype, -, -, htype, hsubtype, -, -, rfl⟩ := h
  rw [List.mem_append, List.mem_cons]
  rintro (hmem | heq | hmem)
  · exact absurd (htype _ hmem) (by decide)
  · exact absurd heq (by decide)
  · exact absurd (hsubtype _ hmem) (by decide)

namespace HttpFile

/-- A pair with a quoted value. -/
def pair (name value : List Char) : List Char := ';' :: ' ' :: (name ++ '=' :: '"' :: (quoted value ++ ['"']))

theorem parsePair_pair {name : List Char} (hname : ∀ c ∈ name, tockenChar c = true) (hne : name ≠ [])
    (value rest : List Char) : parsePair (pair name value ++ rest) = some (name, value, rest) := by
  have hlist : pair name value ++ rest = ';' :: ' ' :: (name ++ '=' :: '"' :: (quoted value ++ '"' :: rest)) := by
    simp [pair]
  have htocken : tocken (name ++ '=' :: '"' :: (quoted value ++ '"' :: rest)) =
      (name, '=' :: '"' :: (quoted value ++ '"' :: rest)) := tocken_append hname fun c hc => by
    obtain rfl := Option.some.inj hc
    rfl
  have hquote : skipWs ('"' :: (quoted value ++ '"' :: rest)) = '"' :: (quoted value ++ '"' :: rest) :=
    skipWs_of_head fun c hc => by
      obtain rfl := Option.some.inj hc
      decide
  rw [hlist]
  rw [parsePair, skipWs_space, skipWs_word hname hne, htocken]
  change (if name = [] then none else (ContentType.value (skipWs _)).map fun x => (name, x.1, x.2)) = _
  rw [if_neg hne, hquote]
  rw [ContentType.value, unquote_quoted]
  rfl

theorem skipWs_pair (name value rest : List Char) : skipWs (pair name value ++ rest) = pair name value ++ rest :=
  skipWs_of_head fun c hc => by
    obtain rfl := Option.some.inj hc
    decide

def nameWord : List Char := "name".toList

def filenameWord : List Char := "filename".toList

def dispositionWord : List Char := "Content-Disposition".toList

def typeWord : List Char := "Content-Type".toList

def formDataWord : List Char := "form-data".toList

theorem tockenChar_dispositionWord : ∀ c ∈ dispositionWord, tockenChar c = true := List.all_eq_true.1 (by decide +kernel)

theorem tockenChar_typeWord : ∀ c ∈ typeWord, tockenChar c = true := List.all_eq_true.1 (by decide +kernel)

theorem tockenChar_formDataWord : ∀ c ∈ formDataWord, tockenChar c = true := List.all_eq_true.1 (by decide +kernel)

theorem tockenChar_nameWord : ∀ c ∈ nameWord, tockenChar c = true := List.all_eq_true.1 (by decide +kernel)

theorem tockenChar_filenameWord : ∀ c ∈ filenameWord, tockenChar c = true := List.all_eq_true.1 (by decide +kernel)

/-- The first line of a part; a file has a name of its own. -/
def dispositionLine (f : HttpFile) : List Char :=
  dispositionWord ++ ':' :: ' ' :: (formDataWord ++ pair nameWord f.name ++
    if f.hasMime then pair filenameWord f.filename else [])

/-- The second line of a file. -/
def typeLine (f : HttpFile) : List Char := typeWord ++ ':' :: ' ' :: f.mime

/-- The headers of a part, with the empty line behind them. -/
def printHeader (f : HttpFile) : List Char :=
  f.dispositionLine ++ crlf ++ (if f.hasMime then f.typeLine ++ crlf else []) ++ crlf

/-- The names have no line end, and only a file has a media type and a name of its own. -/
structure Printable (f : HttpFile) : Prop where
  name : '\r' ∉ f.name
  filename : '\r' ∉ f.filename
  field : f.mime = [] → f.filename = []
  file : f.mime ≠ [] → IsMediaType f.mime

theorem same_self (l : List Char) : same l l = true := decide_eq_true rfl

/-- The pairs of a part that are read one after the other. -/
theorem parseDisposition_pair {n : Nat} {f : HttpFile} {name : List Char} (hname : ∀ c ∈ name, tockenChar c = true)
    (hne : name ≠ []) (value rest : List Char) :
    parseDisposition (n + 1) f (pair name value ++ rest) = parseDisposition n
      (if lower name = "filename".toList then { f with filename := value }
        else if lower name = "name".toList then { f with name := value } else f) (skipWs rest) := by
  have hpair := parsePair_pair hname hne value rest
  have hcons : ∃ l, pair name value ++ rest = ';' :: l := ⟨_, rfl⟩
  obtain ⟨l, hl⟩ := hcons
  rw [hl] at hpair ⊢
  rw [parseDisposition, hpair]
  exact nofun

theorem parseDisposition_nil (n : Nat) (f : HttpFile) : parseDisposition n f [] = some f := by
  cases n <;> rfl

theorem processLine_disposition {f : HttpFile} (h : f.Printable) :
    processLine {} f.dispositionLine = some { name := f.name, filename := f.filename } := by
  obtain ⟨rest, hrest⟩ : ∃ rest, rest = pair nameWord f.name ++ if f.hasMime then pair filenameWord f.filename else [] :=
    ⟨_, rfl⟩
  have htocken := tocken_word tockenChar_dispositionWord (by decide : tockenChar ':' = false) (' ' :: (formDataWord ++ rest))
  have htocken' : tocken (formDataWord ++ rest) = (formDataWord, rest) := tocken_append tockenChar_formDataWord fun c hc => by
    rw [hrest] at hc
    obtain rfl := Option.some.inj hc
    rfl
  have hcolon : skipWs (':' :: ' ' :: (formDataWord ++ rest)) = ':' :: ' ' :: (formDataWord ++ rest) :=
    skipWs_of_head fun c hc => by
      obtain rfl := Option.some.inj hc
      decide
  have hdisposition : parseContentDisposition {} rest = some { name := f.name, filename := f.filename } := by
    have hskip : skipWs rest = rest := by
      rw [hrest]
      exact skipWs_pair _ _ _
    obtain ⟨n, hn⟩ : ∃ n, rest.length = n + 2 := by
      refine ⟨rest.length - 2, ?_⟩
      have hlength : 2 ≤ rest.length := by
        rw [hrest, pair, List.length_append, List.length_cons, List.length_cons]
        omega
      omega
    have hnameWord : lower nameWord ≠ "filename".toList := by decide
    have hnameWord' : lower nameWord = "name".toList := by decide
    have hfilenameWord : lower filenameWord = "filename".toList := by decide
    rw [parseContentDisposition, hskip, hn, hrest, parseDisposition_pair tockenChar_nameWord (by decide),
      if_neg hnameWord, if_pos hnameWord']
    cases hmime : f.hasMime with
    | false =>
      have hfield : f.filename = [] := h.field (by simpa [hasMime] using hmime)
      rw [if_neg Bool.false_ne_true, hfield]
      exact parseDisposition_nil _ _
    | true =>
      rw [if_pos rfl, ← List.append_nil (pair filenameWord f.filename), skipWs_pair,
        parseDisposition_pair tockenChar_filenameWord (by decide), if_pos hfilenameWord]
      exact parseDisposition_nil _ _
  rw [dispositionLine, List.append_assoc formDataWord, ← hrest, processLine, skipWs_word tockenChar_dispositionWord (by decide), htocken]
  dsimp only
  rw [hcolon]
  change (if same dispositionWord dispositionWord = true then
    (if same (tocken (skipWs (' ' :: (formDataWord ++ rest)))).1 formDataWord = true then
      parseContentDisposition {} (tocken (skipWs (' ' :: (formDataWord ++ rest)))).2 else none) else _) = _
  rw [if_pos (same_self _), skipWs_space, skipWs_word tockenChar_formDataWord (by decide), htocken', if_pos (same_self _)]
  exact hdisposition

theorem processLine_type {f g : HttpFile} (h : IsMediaType f.mime) :
    processLine g f.typeLine = some { g with mime := f.mime } := by
  have htocken := tocken_word tockenChar_typeWord (by decide : tockenChar ':' = false) (' ' :: f.mime)
  have hcolon : skipWs (':' :: ' ' :: f.mime) = ':' :: ' ' :: f.mime := skipWs_of_head fun c hc => by
    obtain rfl := Option.some.inj hc
    decide
  have hmime : skipWs f.mime = f.mime := by
    obtain ⟨type, subtype, htype, -, htypeWord, -, -, -, heq⟩ := h
    rw [heq]
    exact skipWs_word htypeWord htype _
  have hother : same typeWord dispositionWord = false := by decide
  rw [typeLine, processLine, skipWs_word tockenChar_typeWord (by decide), htocken]
  dsimp only
  rw [hcolon]
  change (if same typeWord dispositionWord = true then _
    else if same typeWord typeWord = true then
      some { g with mime := (ContentType.parse (skipWs (' ' :: f.mime))).mediaType } else _) = _
  rw [hother, if_neg Bool.false_ne_true, if_pos (same_self _), skipWs_space, hmime, h.parse]

/-! ## Lines -/

theorem nextLine_crlf {line : List Char} (h : '\r' ∉ line) (rest : List Char) :
    nextLine (line ++ (crlf ++ rest)) = some (line, rest) := by
  induction line with
  | nil => rfl
  | cons c line ih =>
    rw [List.mem_cons, not_or] at h
    rw [List.cons_append, nextLine, ih h.2]
    · rfl
    · rintro rest' heq -
      exact h.1 heq.symm

theorem processLines_line {n : Nat} {f g : HttpFile} {line : List Char} (hcr : '\r' ∉ line) (hne : line ≠ [])
    (hline : processLine f line = some g) (rest : List Char) :
    processLines (n + 1) f (line ++ (crlf ++ rest)) = processLines n g rest := by
  obtain ⟨c, l, rfl⟩ := List.exists_cons_of_ne_nil hne
  rw [processLines, nextLine_crlf hcr]
  dsimp only
  rw [hline]

theorem processLines_last {n : Nat} (f : HttpFile) : processLines (n + 1) f crlf = some f := rfl

theorem cr_notMem_pair {name value : List Char} (hname : '\r' ∉ name) (hvalue : '\r' ∉ value) :
    '\r' ∉ pair name value := by
  have hquoted := cr_notMem_quoted hvalue
  simp [pair, hname, hquoted]

theorem Printable.cr_notMem_disposition {f : HttpFile} (h : f.Printable) : '\r' ∉ f.dispositionLine := by
  have hdisposition : '\r' ∉ dispositionWord := fun hmem => absurd (tockenChar_dispositionWord _ hmem) (by decide)
  have hformData : '\r' ∉ formDataWord := fun hmem => absurd (tockenChar_formDataWord _ hmem) (by decide)
  have hname : '\r' ∉ pair nameWord f.name :=
    cr_notMem_pair (fun hmem => absurd (tockenChar_nameWord _ hmem) (by decide)) h.name
  have hfilename : '\r' ∉ pair filenameWord f.filename :=
    cr_notMem_pair (fun hmem => absurd (tockenChar_filenameWord _ hmem) (by decide)) h.filename
  unfold dispositionLine
  cases f.hasMime <;> simp [hdisposition, hformData, hname, hfilename]

theorem cr_notMem_typeLine {f : HttpFile} (h : IsMediaType f.mime) : '\r' ∉ f.typeLine := by
  have htype : '\r' ∉ typeWord := fun hmem => absurd (tockenChar_typeWord _ hmem) (by decide)
  simp [typeLine, htype, h.cr_notMem]

/-- **The headers are read back.** -/
theorem processHeader_printHeader {f : HttpFile} (h : f.Printable) :
    processHeader {} f.printHeader = some { f with data := [] } := by
  have hdisposition := processLine_disposition h
  have hne : f.dispositionLine ≠ [] := List.append_ne_nil_of_left_ne_nil (by decide) _
  unfold processHeader printHeader
  cases hmime : f.hasMime with
  | false =>
    have hnil : f.mime = [] := by simpa [hasMime] using hmime
    rw [if_neg Bool.false_ne_true, List.append_nil, List.append_assoc]
    obtain ⟨n, hn⟩ : ∃ n, (f.dispositionLine ++ (crlf ++ crlf)).length = n + 2 :=
      ⟨_, by rw [List.length_append, List.length_append]; rfl⟩
    rw [hn, processLines_line h.cr_notMem_disposition hne hdisposition, processLines_last, ← hnil]
  | true =>
    have htype := h.file (by simpa [hasMime] using hmime)
    have hne' : f.typeLine ≠ [] := List.append_ne_nil_of_left_ne_nil (by decide) _
    rw [if_pos rfl]
    have hlist : f.dispositionLine ++ crlf ++ (f.typeLine ++ crlf) ++ crlf =
        f.dispositionLine ++ (crlf ++ (f.typeLine ++ (crlf ++ crlf))) := by simp only [List.append_assoc]
    obtain ⟨n, hn⟩ : ∃ n, (f.dispositionLine ++ (crlf ++ (f.typeLine ++ (crlf ++ crlf)))).length = n + 3 :=
      ⟨f.dispositionLine.length + f.typeLine.length + 3, by
        simp only [List.length_append, show crlf.length = 2 from rfl]
        omega⟩
    rw [hlist, hn, processLines_line h.cr_notMem_disposition hne hdisposition,
      processLines_line (cr_notMem_typeLine htype) hne' (processLine_type htype), processLines_last]

/-! ## The empty line -/

theorem splitHeader_of_ne {position : Nat} {c : Char} (hc : c ≠ '\r') (hposition : position = 0 ∨ position = 2)
    (l : List Char) : splitHeader position (c :: l) = (splitHeader 0 l).map (fun x => (c :: x.1, x.2)) := by
  have hnext : nextPosition position c = 0 := by
    unfold nextPosition
    have hne : '\r' ≠ c := fun heq => hc heq.symm
    rcases hposition with rfl | rfl <;> simp [MultipartParser.crlfcrlfWord, hne]
  rw [splitHeader, hnext, if_neg (by decide)]

theorem splitHeader_line {line rest h : List Char} {position : Nat} (hcr : '\r' ∉ line) (hne : line ≠ [])
    (hposition : position = 0 ∨ position = 2) (hrest : splitHeader 2 rest = some (h, [])) :
    splitHeader position (line ++ (crlf ++ rest)) = some (line ++ (crlf ++ h), []) := by
  induction line generalizing position with
  | nil => exact absurd rfl hne
  | cons c line ih =>
    rw [List.mem_cons, not_or] at hcr
    rw [List.cons_append, splitHeader_of_ne (Ne.symm hcr.1) hposition]
    cases line with
    | nil =>
      have hcrlf : splitHeader 0 (crlf ++ rest) = some (crlf ++ h, []) := by
        have hstep : splitHeader 0 (crlf ++ rest) =
            ((splitHeader 2 rest).map (fun x => ('\n' :: x.1, x.2))).map (fun x => ('\r' :: x.1, x.2)) := rfl
        rw [hstep, hrest]
        rfl
      rw [List.nil_append, hcrlf]
      rfl
    | cons d line =>
      rw [ih hcr.2 (List.cons_ne_nil d line) (.inl rfl)]
      rfl

/-- The headers end where they were ended. -/
theorem splitHeader_printHeader {f : HttpFile} (h : f.Printable) :
    splitHeader 0 f.printHeader = some (f.printHeader, []) := by
  have hne : f.dispositionLine ≠ [] := List.append_ne_nil_of_left_ne_nil (by decide) _
  have hlast : splitHeader 2 crlf = some (crlf, []) := rfl
  unfold printHeader
  cases hmime : f.hasMime with
  | false =>
    rw [if_neg Bool.false_ne_true, List.append_nil, List.append_assoc]
    exact splitHeader_line h.cr_notMem_disposition hne (.inl rfl) hlast
  | true =>
    have htype := h.file (by simpa [hasMime] using hmime)
    have hne' : f.typeLine ≠ [] := List.append_ne_nil_of_left_ne_nil (by decide) _
    have hlist : f.dispositionLine ++ crlf ++ (f.typeLine ++ crlf) ++ crlf =
        f.dispositionLine ++ (crlf ++ (f.typeLine ++ (crlf ++ crlf))) := by simp only [List.append_assoc]
    rw [if_pos rfl, hlist]
    exact splitHeader_line h.cr_notMem_disposition hne (.inl rfl)
      (splitHeader_line (cr_notMem_typeLine htype) hne' (.inr rfl) hlast)

end HttpFile

/-! ## Forms -/

/-- What a browser prints behind the first boundary. -/
def printParts (n : Needle Char) : List HttpFile → List Char
  | [] => ['-', '-', '\r', '\n']
  | f :: files => ['\r', '\n'] ++ f.printHeader ++ f.data ++ n.word ++ printParts n files

/-- A form that is printed is one of the grammar. -/
theorem formBody_printParts {n : Needle Char} {allowed : Nat} {files : List HttpFile}
    (h : ∀ f ∈ files, f.Printable ∧ ¬n.word <:+: f.data ∧ f.sizeOk allowed = true) :
    FormBody n allowed (printParts n files) files := by
  induction files with
  | nil => exact .last
  | cons f files ih =>
    obtain ⟨⟨hprintable, hdata, hok⟩, hfiles⟩ := List.forall_mem_cons.1 h
    exact .part (f := { f with data := [] }) (HttpFile.splitHeader_printHeader hprintable)
      (HttpFile.processHeader_printHeader hprintable) hdata hok (ih hfiles)

open MultipartParser in
/-- **A form is read back**: for every boundary, all names, file names, media types and contents that do not
    hold the delimiter, and however the body is split, the fields and files are those that were printed. -/
theorem Receiving.receive_printParts (t : ContentType) (p : MultipartParser) (hp : setContentType t = some p)
    (hkey : '\r' ∉ t.parameterByKey "boundary".toList) (allowed : Nat) (files : List HttpFile)
    (hfiles : ∀ f ∈ files, f.Printable ∧
      ¬(delimiter (t.parameterByKey "boundary".toList) hkey).word <:+: f.data ∧ f.sizeOk allowed = true)
    (chunks : List (List Char)) (hchunks : chunks.flatten = ['-', '-'] ++ t.parameterByKey "boundary".toList ++
      printParts (delimiter (t.parameterByKey "boundary".toList) hkey) files) :
    ∃ s, Receiving.receive allowed chunks.flatten.length ⟨p, 0⟩ chunks = .ok s ∧ s.parser.files = files := by
  have hbody : chunks.flatten ≠ [] := by
    rw [hchunks]
    exact List.cons_ne_nil _ _
  exact (received_iff hp allowed hbody files).2
    ((whole_form hp hkey allowed chunks.flatten files).2 ⟨_, hchunks, formBody_printParts hfiles⟩)

/-- A field and a file. -/
def sampleFiles : List HttpFile :=
  [⟨['q'], [], [], ['1']⟩, ⟨['f'], ['a', '"'], ['a', '/', 'b'], ['\r', '\n', '-', '-']⟩]

/-- The fields and files of the sample can be printed, and are short. -/
theorem printable_sampleFiles : ∀ f ∈ sampleFiles, f.Printable ∧
    ¬(delimiter (sampleType.parameterByKey "boundary".toList) (by decide)).word <:+: f.data ∧
      f.sizeOk 10 = true := by
  refine List.forall_mem_cons.2 ⟨⟨⟨by decide, by decide, fun _ => rfl, fun h => absurd rfl h⟩, by decide, by decide⟩,
    List.forall_mem_cons.2 ⟨⟨⟨by decide, by decide, fun h => absurd h (by decide), fun _ => ?_⟩, by decide,
      by decide⟩, fun f hf => absurd hf List.not_mem_nil⟩⟩
  exact ⟨['a'], ['b'], by decide, by decide, List.all_eq_true.1 (by decide), List.all_eq_true.1 (by decide), by decide,
    by decide, rfl⟩

/-- The body a browser sends for the sample, in two chunks. -/
def sampleChunks : List (List Char) :=
  [['-', '-'] ++ sampleType.parameterByKey "boundary".toList,
    printParts (delimiter (sampleType.parameterByKey "boundary".toList) (by decide)) sampleFiles]

theorem Receiving.receive_printParts_two : ∃ s,
    Receiving.receive 10 sampleChunks.flatten.length ⟨sampleParser, 0⟩ sampleChunks = .ok s ∧
    s.parser.files = sampleFiles :=
  Receiving.receive_printParts sampleType sampleParser (by decide) (by decide) 10 sampleFiles printable_sampleFiles
    sampleChunks (by simp only [sampleChunks, List.flatten_cons, List.flatten_nil, List.append_nil])

end Cppcms
