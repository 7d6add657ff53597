import CppBlog.Cppcms.Multipart

set_option autoImplicit false

/-! # The answer does not depend on the chunks

The body of a form, read letter by letter: what the parser did with the chunks of a body is what it would
have done with its letters. The size of a field that is not read to its end is checked behind every chunk;
that refuses no body that would not be refused behind its last one. -/

namespace Cppcms

namespace HttpFile

variable {f f' : HttpFile}

theorem parseDisposition_data {n : Nat} {l : List Char} (h : parseDisposition n f l = some f') : f'.data = f.data := by
  induction n generalizing f l with
  | zero =>
    cases l with
    | nil =>
      obtain rfl := Option.some.inj h
      rfl
    | cons c l => cases h
  | succ n ih =>
    cases l with
    | nil =>
      obtain rfl := Option.some.inj h
      rfl
    | cons c l =>
      unfold parseDisposition at h
      split at h
      · cases h
      · have hdata := ih h
        split_ifs at hdata <;> exact hdata

theorem processLine_data {line : List Char} (h : processLine f line = some f') : f'.data = f.data := by
  unfold processLine at h
  dsimp only at h
  split at h
  · split_ifs at h
    · exact parseDisposition_data h
    · obtain rfl := Option.some.inj h
      rfl
    · obtain rfl := Option.some.inj h
      rfl
  · cases h

theorem processLines_data {n : Nat} {hdr : List Char} (h : processLines n f hdr = some f') : f'.data = f.data := by
  induction n generalizing f hdr with
  | zero => cases h
  | succ n ih =>
    unfold processLines at h
    split at h
    · cases h
    · obtain rfl := Option.some.inj h
      rfl
    · split at h
      · cases h
      · rename_i hline
        exact (ih h).trans (processLine_data hline)

/-- The headers of a part leave its content. -/
theorem processHeader_data {hdr : List Char} (h : f.processHeader hdr = some f') : f'.data = f.data :=
  processLines_data h

/-- What is too large stays so when more of it is written. -/
theorem sizeOk_write {allowed : Nat} {l : List Char} (h : f.sizeOk allowed = false) :
    (f.write l).sizeOk allowed = false := by
  obtain ⟨hmime, hsize⟩ := Bool.or_eq_false_iff.1 h
  refine Bool.or_eq_false_iff.2 ⟨hmime, decide_eq_false ?_⟩
  have hlarge := of_decide_eq_false hsize
  rw [write, List.length_append]
  omega

theorem sizeOk_of_empty (allowed : Nat) (h : f.data = []) : f.sizeOk allowed = true := by simp [sizeOk, h]

@[simp] theorem write_nil (f : HttpFile) : f.write [] = f := by rw [write, List.append_nil]

theorem write_write (f : HttpFile) (l l' : List Char) : (f.write l).write l' = f.write (l ++ l') := by
  rw [write, write, write, List.append_assoc]

end HttpFile

namespace MultipartParser

variable {p q : MultipartParser} {c : Char}

/-! ## What a letter does -/

/-- How many letters of the boundary are held back behind a letter of the content. -/
def held (p : MultipartParser) (c : Char) : Nat :=
  if p.boundary[p.position]? = some c then p.position + 1 else if p.boundary.head? = some c then 1 else 0

/-- What a letter of the content gives out. -/
def written (p : MultipartParser) (c : Char) : List Char :=
  if p.boundary[p.position]? = some c then []
  else if p.boundary.head? = some c then p.boundary.take p.position else p.boundary.take p.position ++ [c]

/-- A letter of the content: what is given out is written, and the content ends with the boundary. -/
theorem takeContent_eq (p : MultipartParser) (c : Char) : p.takeContent c =
    if p.held c ≠ 0 ∧ p.held c = p.boundary.length then .content { p with
      state := .oneCrlfOrEof, position := 0, files := p.files ++ [p.file.write (p.written c)], file := {}
      fileIsReady := false }
    else .next { p with position := p.held c, file := p.file.write (p.written c) } := by
  unfold takeContent held written
  by_cases hagree : p.boundary[p.position]? = some c
  · simp [hagree]
  · by_cases hpos : p.position = 0
    · rw [hpos] at hagree
      have hhead : ¬p.boundary.head? = some c := by rwa [List.head?_eq_getElem?]
      simp [hpos, hagree, hhead]
    · have hheld : 0 < p.position := Nat.pos_of_ne_zero hpos
      by_cases hhead : p.boundary.head? = some c <;> simp [hagree, hheld, hhead, HttpFile.write_write]

/-- How many letters of the word that ends the headers were read behind a letter. -/
def matched (p : MultipartParser) (c : Char) : Nat := if crlfcrlfWord[p.position]? = some c then p.position + 1 else 0

/-- A letter of the headers: they end with the empty line. -/
theorem takeHeader_eq (p : MultipartParser) (c : Char) : p.takeHeader c =
    if p.matched c = crlfcrlfWord.length then
      match p.file.processHeader (p.header ++ [c]) with
      | none => .refused
      | some f => .headers { p with
          file := f, header := [], position := 0, state := .separatorBoundary, fileIsReady := true }
    else .next { p with header := p.header ++ [c], position := p.matched c } := rfl

/-- The parser reads a content exactly where it says so, and has none elsewhere. -/
structure Kept (p : MultipartParser) : Prop where
  ready : p.fileIsReady = decide (p.state = .separatorBoundary)
  data : p.state ≠ .separatorBoundary → p.file.data = []

theorem Kept.next (h : p.Kept) (hq : p.take c = .next q) : q.Kept := by
  have hready := h.ready
  cases hstate : p.state with
  | separatorBoundary =>
    rw [take, hstate] at hq
    dsimp only at hq
    rw [takeContent_eq] at hq
    split_ifs at hq
    cases hq
    exact ⟨hready, fun hne => absurd hstate hne⟩
  | crlfcrlf =>
    rw [take, hstate] at hq
    dsimp only at hq
    rw [takeHeader_eq] at hq
    split at hq
    · split at hq <;> cases hq
    · cases hq
      exact ⟨hready, h.data⟩
  | _ =>
    have hdata := h.data (by rw [hstate]; decide)
    rw [hstate] at hready
    rw [take, hstate] at hq
    dsimp only at hq
    split_ifs at hq <;> cases hq <;> exact ⟨hready, fun _ => hdata⟩

theorem headers_cases (hq : p.take c = .headers q) : ∃ f, p.state = .crlfcrlf ∧
    p.matched c = crlfcrlfWord.length ∧ p.file.processHeader (p.header ++ [c]) = some f ∧
    q = { p with file := f, header := [], position := 0, state := .separatorBoundary, fileIsReady := true } := by
  cases hstate : p.state with
  | separatorBoundary =>
    rw [take, hstate] at hq
    dsimp only at hq
    rw [takeContent_eq] at hq
    split_ifs at hq
  | crlfcrlf =>
    rw [take, hstate] at hq
    dsimp only at hq
    rw [takeHeader_eq] at hq
    split at hq
    · rename_i hmatched
      split at hq
      · cases hq
      · rename_i f hf
        cases hq
        exact ⟨f, rfl, hmatched, hf, rfl⟩
    · cases hq
  | _ =>
    rw [take, hstate] at hq
    dsimp only at hq
    split_ifs at hq

theorem content_cases (hq : p.take c = .content q) : p.state = .separatorBoundary ∧
    p.held c = p.boundary.length ∧
    q = { p with
      state := .oneCrlfOrEof, position := 0, files := p.files ++ [p.file.write (p.written c)], file := {}
      fileIsReady := false } := by
  cases hstate : p.state with
  | separatorBoundary =>
    rw [take, hstate] at hq
    dsimp only at hq
    rw [takeContent_eq] at hq
    split_ifs at hq with hend
    cases hq
    exact ⟨rfl, hend.2, rfl⟩
  | crlfcrlf =>
    rw [take, hstate] at hq
    dsimp only at hq
    rw [takeHeader_eq] at hq
    split at hq
    · split at hq <;> cases hq
    · cases hq
  | _ =>
    rw [take, hstate] at hq
    dsimp only at hq
    split_ifs at hq

theorem Kept.headers (h : p.Kept) (hq : p.take c = .headers q) : q.Kept ∧ q.file.data = [] := by
  obtain ⟨f, hstate, -, hf, rfl⟩ := headers_cases hq
  have hdata := h.data (by rw [hstate]; decide)
  exact ⟨⟨rfl, fun hne => absurd rfl hne⟩, (HttpFile.processHeader_data hf).trans hdata⟩

theorem Kept.content (hq : p.take c = .content q) : q.Kept := by
  obtain ⟨-, -, rfl⟩ := content_cases hq
  exact ⟨rfl, fun _ => rfl⟩

/-! ## Letter by letter -/

/-- One letter of the body, with the check of a part that is complete; nothing may follow the last line. -/
def feed (allowed : Nat) (s : MultipartParser × Bool) (c : Char) : Except Nat (MultipartParser × Bool) :=
  if s.2 then .error 400
  else match s.1.take c with
    | .refused => .error 400
    | .next p => .ok (p, false)
    | .headers p => .ok (p, false)
    | .content p => if (p.files.getLast?.getD {}).sizeOk allowed then .ok (p, false) else .error 413
    | .body p => .ok (p, true)

/-- The letters of the body, one after the other. -/
def feedAll (allowed : Nat) : MultipartParser × Bool → List Char → Except Nat (MultipartParser × Bool)
  | s, [] => .ok s
  | s, c :: l =>
      match feed allowed s c with
      | .error code => .error code
      | .ok s => feedAll allowed s l

/-- What the end of the body finds. -/
def finish (allowed : Nat) (s : MultipartParser × Bool) : Except Nat MultipartParser :=
  if s.2 then .ok s.1
  else if s.1.fileIsReady && !s.1.file.sizeOk allowed then .error 413 else .error 400

/-- The whole body. -/
def whole (allowed : Nat) (s : MultipartParser × Bool) (l : List Char) : Except Nat MultipartParser :=
  match feedAll allowed s l with
  | .error code => .error code
  | .ok s => finish allowed s

theorem whole_cons (allowed : Nat) (s : MultipartParser × Bool) (c : Char) (l : List Char) :
    whole allowed s (c :: l) = match feed allowed s c with
      | .error code => .error code
      | .ok s => whole allowed s l := by
  unfold whole
  rw [feedAll]
  cases feed allowed s c <;> rfl

theorem whole_append (allowed : Nat) (s : MultipartParser × Bool) (l l' : List Char) :
    whole allowed s (l ++ l') = match feedAll allowed s l with
      | .error code => .error code
      | .ok s => whole allowed s l' := by
  induction l generalizing s with
  | nil => rfl
  | cons c l ih =>
    rw [List.cons_append, whole_cons, feedAll]
    cases feed allowed s c with
    | error code => rfl
    | ok s => exact ih s

theorem feed_false (allowed : Nat) (p : MultipartParser) (c : Char) : feed allowed (p, false) c =
    match p.take c with
    | .refused => .error 400
    | .next p => .ok (p, false)
    | .headers p => .ok (p, false)
    | .content p => if (p.files.getLast?.getD {}).sizeOk allowed then .ok (p, false) else .error 413
    | .body p => .ok (p, true) := rfl

theorem whole_nil (allowed : Nat) (s : MultipartParser × Bool) : whole allowed s [] = finish allowed s := rfl

/-- A body that ends before its last line. -/
theorem finish_incomplete {allowed : Nat} {p : MultipartParser}
    (h : p.fileIsReady = true → p.file.sizeOk allowed = true) : finish allowed (p, false) = .error 400 := by
  unfold finish
  cases hready : p.fileIsReady with
  | false => simp
  | true => simp [h hready]

/-- Nothing may follow the last line. -/
theorem whole_behind (allowed : Nat) (p : MultipartParser) {l : List Char} (hl : l ≠ []) :
    whole allowed (p, true) l = .error 400 := by
  obtain ⟨c, l, rfl⟩ := List.exists_cons_of_ne_nil hl
  rw [whole_cons]
  rfl

/-- **A part that is too large already** is refused, however the body goes on. -/
theorem whole_large {allowed : Nat} {p : MultipartParser} (h : p.Kept) (hstate : p.state = .separatorBoundary)
    (hlarge : p.file.sizeOk allowed = false) (l : List Char) : whole allowed (p, false) l = .error 413 := by
  have hready : p.fileIsReady = true := by rw [h.ready, hstate]; rfl
  induction l generalizing p with
  | nil => simp [whole, feedAll, finish, hready, hlarge]
  | cons c l ih =>
    have htake : p.take c = p.takeContent c := by rw [take, hstate]
    have hwritten : (p.file.write (p.written c)).sizeOk allowed = false := HttpFile.sizeOk_write hlarge
    rw [whole_cons, feed_false, htake, takeContent_eq]
    split_ifs
    · simp [hwritten]
    · exact ih ⟨h.ready, fun hne => absurd hstate hne⟩ hstate hwritten hready

/-! ## Chunk by chunk -/

/-- What a call did with its buffer, letter by letter. -/
inductive Consumed (allowed : Nat) (p : MultipartParser) (l : List Char) :
    MultipartParser × ParsingResult × List Char → Prop where
  | parsingError {q : MultipartParser} {rest : List Char} : feedAll allowed (p, false) l = .error 400 → Consumed allowed p l (q, .parsingError, rest)
  | metaReady {q : MultipartParser} {rest : List Char} : q.Kept → q.file.data = [] → rest.length < l.length →
      feedAll allowed (p, false) l = feedAll allowed (q, false) rest → Consumed allowed p l (q, .metaReady, rest)
  | contentReady {q : MultipartParser} {rest : List Char} : q.Kept → q.fileIsReady = false → rest.length < l.length →
      feedAll allowed (p, false) l =
        (if (q.files.getLast?.getD {}).sizeOk allowed then feedAll allowed (q, false) rest else .error 413) →
      Consumed allowed p l (q, .contentReady, rest)
  | contentPartial {q : MultipartParser} : q.Kept → q.fileIsReady = true → feedAll allowed (p, false) l = .ok (q, false) →
      Consumed allowed p l (q, .contentPartial, [])
  | continueInput {q : MultipartParser} : q.Kept → q.fileIsReady = false → feedAll allowed (p, false) l = .ok (q, false) →
      Consumed allowed p l (q, .continueInput, [])
  | eof {q : MultipartParser} : feedAll allowed (p, false) l = .ok (q, true) → Consumed allowed p l (q, .eof, [])

theorem Consumed.next {allowed : Nat} {l : List Char} {x : MultipartParser × ParsingResult × List Char}
    (h : Consumed allowed q l x) (hq : p.take c = .next q) : Consumed allowed p (c :: l) x := by
  have hfeed : feedAll allowed (p, false) (c :: l) = feedAll allowed (q, false) l := by
    rw [feedAll, feed_false, hq]
  cases h with
  | parsingError h => exact .parsingError (hfeed.trans h)
  | metaReady hk hd hl h => exact .metaReady hk hd (Nat.lt_succ_of_lt hl) (hfeed.trans h)
  | contentReady hk hr hl h => exact .contentReady hk hr (Nat.lt_succ_of_lt hl) (hfeed.trans h)
  | contentPartial hk hr h => exact .contentPartial hk hr (hfeed.trans h)
  | continueInput hk hr h => exact .continueInput hk hr (hfeed.trans h)
  | eof h => exact .eof (hfeed.trans h)

theorem consumed_consume (allowed : Nat) (hkept : p.Kept) (l : List Char) :
    Consumed allowed p l (p.consume l) := by
  induction l generalizing p with
  | nil =>
    rw [consume]
    cases hready : p.fileIsReady with
    | false => exact .continueInput hkept hready rfl
    | true => exact .contentPartial hkept hready rfl
  | cons c l ih =>
    rw [consume]
    cases hq : p.take c with
    | refused => exact .parsingError (by rw [feedAll, feed_false, hq])
    | next q => exact (ih (hkept.next hq)).next hq
    | headers q =>
      obtain ⟨hq', hdata⟩ := hkept.headers hq
      exact .metaReady hq' hdata (Nat.lt_succ_self _) (by rw [feedAll, feed_false, hq])
    | content q =>
      have hready : q.fileIsReady = false := by
        obtain ⟨-, -, rfl⟩ := content_cases hq
        rfl
      refine .contentReady (Kept.content hq) hready (Nat.lt_succ_self _) ?_
      rw [feedAll, feed_false, hq]
      dsimp only
      by_cases hok : (q.files.getLast?.getD {}).sizeOk allowed = true <;> simp [hok]
    | body q =>
      dsimp only
      split
      · rename_i hl
        rw [hl]
        exact .eof (by rw [feedAll, feed_false, hq]; rfl)
      · rename_i hl
        obtain ⟨d, l, rfl⟩ := List.exists_cons_of_ne_nil hl
        exact .parsingError (by rw [feedAll, feed_false, hq]; rfl)

/-- What a chunk that is read from the connection did, letter by letter. -/
inductive Progressed (allowed contentLength readSize : Nat) (p : MultipartParser) (l : List Char) :
    Except Nat (MultipartParser × ParsingResult) → Prop where
  | error {code : Nat} : feedAll allowed (p, false) l = .error code → Progressed allowed contentLength readSize p l (.error code)
  | early {q : MultipartParser} : feedAll allowed (p, false) l = .ok (q, true) → readSize ≠ contentLength →
      Progressed allowed contentLength readSize p l (.error 400)
  | ended {q : MultipartParser} : feedAll allowed (p, false) l = .ok (q, true) → readSize = contentLength →
      Progressed allowed contentLength readSize p l (.ok (q, .eof))
  | large {q : MultipartParser} : feedAll allowed (p, false) l = .ok (q, false) → q.Kept → q.fileIsReady = true →
      q.file.sizeOk allowed = false → Progressed allowed contentLength readSize p l (.error 413)
  | more {q : MultipartParser} {r : ParsingResult} : feedAll allowed (p, false) l = .ok (q, false) → q.Kept →
      (q.fileIsReady = true → q.file.sizeOk allowed = true) → r ≠ .eof →
      Progressed allowed contentLength readSize p l (.ok (q, r))

theorem Progressed.congr {allowed contentLength readSize : Nat} {l l' : List Char}
    {x : Except Nat (MultipartParser × ParsingResult)} (h : Progressed allowed contentLength readSize q l' x)
    (heq : feedAll allowed (p, false) l = feedAll allowed (q, false) l') :
    Progressed allowed contentLength readSize p l x := by
  cases h with
  | error h => exact .error (heq.trans h)
  | early h hsize => exact .early (heq.trans h) hsize
  | ended h hsize => exact .ended (heq.trans h) hsize
  | large h hkept hready hlarge => exact .large (heq.trans h) hkept hready hlarge
  | more h hkept hok hr => exact .more (heq.trans h) hkept hok hr

/-- The loop over a chunk; the result handed in is that of the part before. -/
theorem progressed_progress (allowed contentLength readSize : Nat) {n : Nat} {l : List Char} (hl : l.length ≤ n)
    (hkept : p.Kept) (hdata : p.fileIsReady = true → p.file.sizeOk allowed = true ∨ l ≠ []) {r : ParsingResult}
    (hr : r ≠ .eof) : Progressed allowed contentLength readSize p l
      (Receiving.progress allowed contentLength readSize n p r l) := by
  induction n generalizing p l r with
  | zero =>
    obtain rfl := List.eq_nil_of_length_eq_zero (Nat.le_zero.1 hl)
    exact .more rfl hkept (fun h => (hdata h).resolve_right fun hne => hne rfl) hr
  | succ n ih =>
    cases l with
    | nil => exact .more rfl hkept (fun h => (hdata h).resolve_right fun hne => hne rfl) hr
    | cons c l =>
      have hconsumed := consumed_consume allowed hkept (c :: l)
      unfold Receiving.progress
      generalize p.consume (c :: l) = x at hconsumed
      cases hconsumed with
      | parsingError h => exact .error h
      | metaReady hk hd hlt h =>
        exact (ih (Nat.le_of_lt_succ (Nat.lt_of_lt_of_le hlt hl)) hk
          (fun _ => .inl (HttpFile.sizeOk_of_empty allowed hd)) (by decide)).congr h
      | contentReady hk hready hlt h =>
        dsimp only
        split
        · rename_i hok
          rw [if_pos hok] at h
          exact (ih (Nat.le_of_lt_succ (Nat.lt_of_lt_of_le hlt hl)) hk
            (fun h => by rw [hready] at h; cases h) (by decide)).congr h
        · rename_i hlarge
          rw [if_neg hlarge] at h
          exact .error h
      | contentPartial hk hready h =>
        dsimp only
        split
        · rename_i hok
          exact (ih (Nat.zero_le _) hk (fun _ => .inl hok) (by decide)).congr h
        · rename_i hlarge
          exact .large h hk hready (Bool.eq_false_iff.2 hlarge)
      | continueInput hk hready h =>
        exact (ih (Nat.zero_le _) hk (fun h => by rw [hready] at h; cases h) (by decide)).congr h
      | eof h =>
        dsimp only
        rw [if_neg fun hne => hne rfl]
        split
        · rename_i hsize
          exact .early h hsize
        · rename_i hsize
          unfold Receiving.progress
          exact .ended h (not_not.1 hsize)

end MultipartParser

namespace Receiving

open MultipartParser

theorem receive_nil (allowed contentLength : Nat) (s : Receiving) {chunks : List (List Char)}
    (h : chunks.flatten = []) : s.receive allowed contentLength chunks = .ok s := by
  induction chunks with
  | nil => rfl
  | cons chunk chunks ih =>
    rw [List.flatten_cons, List.append_eq_nil_iff] at h
    unfold receive onContentProgress
    rw [if_pos h.1]
    exact ih h.2

/-- **Chunks and letters**: however the body was split, the answer is that of its letters. -/
theorem receive_eq (allowed : Nat) {p : MultipartParser} (hkept : p.Kept) {chunks : List (List Char)}
    {readSize contentLength : Nat} (hlength : readSize + chunks.flatten.length = contentLength)
    (hbody : chunks.flatten ≠ []) : receive allowed contentLength ⟨p, readSize⟩ chunks =
      (whole allowed (p, false) chunks.flatten).map (fun q => ⟨q, contentLength⟩) := by
  induction chunks generalizing p readSize with
  | nil => exact absurd rfl hbody
  | cons chunk chunks ih =>
    rw [List.flatten_cons] at hlength hbody ⊢
    rw [List.length_append] at hlength
    unfold receive onContentProgress
    by_cases hchunk : chunk = []
    · subst hchunk
      rw [if_pos rfl]
      exact ih hkept (by simpa using hlength) (by simpa using hbody)
    · rw [if_neg hchunk, whole_append]
      have hprogress := progressed_progress allowed contentLength (readSize + chunk.length) le_rfl hkept
        (fun _ => .inr hchunk) (r := .continueInput) (by decide)
      dsimp only
      generalize progress allowed contentLength (readSize + chunk.length) chunk.length p .continueInput chunk = x
        at hprogress
      have hnil : chunks.flatten = [] ↔ readSize + chunk.length = contentLength := by
        rw [← List.length_eq_zero_iff]
        omega
      cases hprogress with
      | error h =>
        rw [h]
        rfl
      | early h hsize =>
        rw [h]
        dsimp only
        rw [whole_behind allowed _ (hnil.not.2 hsize)]
        rfl
      | ended h hsize =>
        rw [h, hnil.2 hsize]
        dsimp only
        rw [if_neg fun hne => hne.2 rfl, hsize]
        exact receive_nil allowed contentLength _ (hnil.2 hsize)
      | large h hk hready hlarge =>
        have hstate := hk.ready
        rw [hready] at hstate
        rw [h]
        dsimp only
        rw [whole_large hk (of_decide_eq_true hstate.symm) hlarge]
        rfl
      | @more q r h hk hok hr =>
        rw [h]
        dsimp only
        by_cases hsize : readSize + chunk.length = contentLength
        · rw [if_pos ⟨hsize, hr⟩, hnil.2 hsize, whole_nil, finish_incomplete hok]
          rfl
        · rw [if_neg fun h => hsize h.1]
          exact ih hk (by omega) (hnil.not.2 hsize)

/-- The parser of a request is kept. -/
theorem kept_of_setContentType {t : ContentType} {p : MultipartParser} (h : setContentType t = some p) : p.Kept := by
  unfold setContentType at h
  dsimp only at h
  split at h
  · cases h
  · obtain rfl := Option.some.inj h
    exact ⟨rfl, fun _ => rfl⟩

/-- **The answer does not depend on the chunks**: for every boundary and every limit, two requests whose bodies
    are the same are answered alike, wherever the bodies were split while they were read. -/
theorem receive_chunks (t : ContentType) (p : MultipartParser) (h : setContentType t = some p) (allowed : Nat)
    (chunks chunks' : List (List Char)) (hsame : chunks.flatten = chunks'.flatten) :
    receive allowed chunks.flatten.length ⟨p, 0⟩ chunks = receive allowed chunks.flatten.length ⟨p, 0⟩ chunks' := by
  have hkept := kept_of_setContentType h
  by_cases hbody : chunks.flatten = []
  · rw [receive_nil _ _ _ hbody, receive_nil _ _ _ (hsame ▸ hbody)]
  · rw [receive_eq allowed hkept (Nat.zero_add _) hbody,
      receive_eq allowed hkept (by rw [hsame, Nat.zero_add]) (hsame ▸ hbody), hsame]

theorem receive_chunks_two : receive 10 5 ⟨{ boundary := ['\r', '\n', '-', '-', 'b'], position := 2 }, 0⟩
      [['-', '-', 'b'], ['-', '-']] =
    receive 10 5 ⟨{ boundary := ['\r', '\n', '-', '-', 'b'], position := 2 }, 0⟩ [['-'], ['-', 'b', '-'], [], ['-']] :=
  receive_chunks ⟨"multipart/form-data".toList, [("boundary".toList, ['b'])]⟩ _ (by decide) 10
    [['-', '-', 'b'], ['-', '-']] [['-'], ['-', 'b', '-'], [], ['-']] (by decide)

end Receiving

end Cppcms
