import CppBlog.Cppcms.MultipartChunks

set_option autoImplicit false

/-! # The forms that are accepted

The bodies that are accepted are those of a grammar: parts of headers that end with the first empty line and
a content in which the delimiter does not occur, with the delimiter between them. The content of a part is
taken as it stands, and a form that a browser printed is read back with its names and contents. -/

namespace Cppcms

open Text

/-! ## The grammar -/

/-- The delimiter of a form whose boundary has no line end. -/
def delimiter (key : List Char) (h : '\r' ∉ key) : Needle Char :=
  ⟨'\r', ['\n', '-', '-'] ++ key, by simp [h]⟩

/-- How many letters of the empty line were read behind one more. -/
def nextPosition (position : Nat) (c : Char) : Nat :=
  if MultipartParser.crlfcrlfWord[position]? = some c then position + 1 else 0

/-- What stands up to the first empty line, and behind it. -/
def splitHeader : Nat → List Char → Option (List Char × List Char)
  | _, [] => none
  | position, c :: l =>
      if nextPosition position c = MultipartParser.crlfcrlfWord.length then some ([c], l)
      else (splitHeader (nextPosition position c) l).map (fun x => (c :: x.1, x.2))

/-- What stands behind the first delimiter of a form with these parts. -/
inductive FormBody (n : Needle Char) (allowed : Nat) : List Char → List HttpFile → Prop where
  | last : FormBody n allowed ['-', '-', '\r', '\n'] []
  | part {header data l : List Char} {f : HttpFile} {files : List HttpFile} :
      splitHeader 0 header = some (header, []) → HttpFile.processHeader {} header = some f →
      ¬n.word <:+: data → (f.write data).sizeOk allowed = true → FormBody n allowed l files →
      FormBody n allowed (['\r', '\n'] ++ header ++ data ++ n.word ++ l) (f.write data :: files)

namespace MultipartParser

variable {allowed : Nat} {p : MultipartParser}

/-! ## The parser reads the grammar -/

/-- The parser behind the headers of a part. -/
def behindHeaders (p : MultipartParser) (f : HttpFile) : MultipartParser :=
  { p with file := f, header := [], position := 0, state := .separatorBoundary, fileIsReady := true }

/-- The parser behind the content of a part. -/
def behindContent (p : MultipartParser) (f : HttpFile) : MultipartParser :=
  { p with state := .oneCrlfOrEof, position := 0, files := p.files ++ [f], file := {}, fileIsReady := false }

/-- The headers are read up to the first empty line. -/
theorem whole_headers (hstate : p.state = .crlfcrlf) (hready : p.fileIsReady = false) (l : List Char) :
    whole allowed (p, false) l = match splitHeader p.position l with
      | none => .error 400
      | some (header, rest) => match p.file.processHeader (p.header ++ header) with
        | none => .error 400
        | some f => whole allowed (p.behindHeaders f, false) rest := by
  induction l generalizing p with
  | nil => simp [whole_nil, splitHeader, finish, hready]
  | cons c l ih =>
    have htake : p.take c = p.takeHeader c := by rw [take, hstate]
    have hmatched : nextPosition p.position c = p.matched c := rfl
    rw [whole_cons, feed_false, htake, takeHeader_eq, splitHeader, hmatched]
    by_cases hend : p.matched c = crlfcrlfWord.length
    · rw [if_pos hend, if_pos hend]
      dsimp only
      cases p.file.processHeader (p.header ++ [c]) <;> rfl
    · rw [if_neg hend, if_neg hend]
      have hrest := ih (p := { p with header := p.header ++ [c], position := p.matched c }) hstate hready
      dsimp only
      rw [hrest]
      dsimp only
      cases splitHeader (p.matched c) l with
      | none => rfl
      | some x =>
        rw [Option.map_some]
        dsimp only
        rw [List.append_assoc, List.singleton_append]
        rfl

/-- A letter of the content is one of the search for the delimiter. -/
theorem next_eq {n : Needle Char} (hboundary : p.boundary = n.word) (out : List Char) (c : Char) :
    n.next ⟨out, p.position⟩ c = ⟨out ++ p.written c, p.held c⟩ := by
  unfold Needle.next written held
  rw [hboundary]
  have hhead : n.word.head? = some n.head := rfl
  by_cases hagree : n.word[p.position]? = some c
  · simp [hagree]
  · by_cases hc : c = n.head
    · subst hc
      simp [hagree, hhead]
    · have hne : ¬some n.head = some c := fun heq => hc (Option.some.inj heq).symm
      simp [hagree, hhead, hc, hne]

/-- The content is read up to the first delimiter, and taken as it stands. -/
theorem whole_content {n : Needle Char} (hboundary : p.boundary = n.word) (hstate : p.state = .separatorBoundary)
    {f : HttpFile} {s : Needle.Search Char} (hposition : p.position = s.held) (hfile : p.file = f.write s.out)
    (l : List Char) : match n.split s l with
      | none => ∃ code, whole allowed (p, false) l = .error code
      | some (data, rest) => whole allowed (p, false) l =
          if (f.write data).sizeOk allowed then whole allowed (p.behindContent (f.write data), false) rest
          else .error 413 := by
  induction l generalizing p s with
  | nil =>
    rw [Needle.split, whole_nil, finish, if_neg Bool.false_ne_true]
    dsimp only
    split <;> exact ⟨_, rfl⟩
  | cons c l ih =>
    have htake : p.take c = p.takeContent c := by rw [take, hstate]
    have hnext : n.next s c = ⟨s.out ++ p.written c, p.held c⟩ := by
      rw [← next_eq hboundary, hposition]
    have hwritten : p.file.write (p.written c) = f.write (s.out ++ p.written c) := by
      rw [hfile, HttpFile.write_write]
    have hlength : p.boundary.length = n.word.length := by rw [hboundary]
    rw [Needle.split, hnext, whole_cons, feed_false, htake, takeContent_eq, hlength, hwritten]
    dsimp only
    by_cases hend : p.held c = n.word.length
    · have hpos : p.held c ≠ 0 := by
        rw [hend]
        exact Nat.succ_ne_zero _
      rw [if_pos hend, if_pos ⟨hpos, hend⟩]
      dsimp only
      rw [List.getLast?_append]
      split_ifs with hok <;> simp_all [behindContent]
    · rw [if_neg hend, if_neg fun h => hend h.2]
      dsimp only
      exact ih (p := { p with position := p.held c, file := f.write (s.out ++ p.written c) })
        (s := ⟨s.out ++ p.written c, p.held c⟩) hboundary hstate rfl rfl

theorem whole_letter {q : MultipartParser} {c : Char} (h : p.take c = .next q) (l : List Char) :
    whole allowed (p, false) (c :: l) = whole allowed (q, false) l := by
  rw [whole_cons, feed_false, h]

theorem whole_refused {c : Char} (h : p.take c = .refused) (l : List Char) :
    whole allowed (p, false) (c :: l) = .error 400 := by
  rw [whole_cons, feed_false, h]

/-- Behind a delimiter stands the next part, or the end of the body. -/
theorem whole_delimiter (hstate : p.state = .oneCrlfOrEof) (hready : p.fileIsReady = false) (l : List Char) :
    (∃ rest, l = ['\r', '\n'] ++ rest ∧
      whole allowed (p, false) l = whole allowed ({ p with state := .crlfcrlf }, false) rest) ∨
    l = ['-', '-', '\r', '\n'] ∧ whole allowed (p, false) l = .ok { p with state := .eofLf } ∨
    ∃ code, whole allowed (p, false) l = .error code := by
  have hend {q : MultipartParser} (h : q.fileIsReady = false) : ∃ code, whole allowed (q, false) [] = .error code :=
    ⟨400, by rw [whole_nil, finish_incomplete fun h' => by rw [h] at h'; cases h']⟩
  -- the letters one after the other, each of which may end the body or be refused
  cases l with
  | nil => exact .inr (.inr (hend hready))
  | cons c l =>
    by_cases hcr : c = '\r'
    · subst hcr
      have hlf : p.take '\r' = .next { p with state := .lf } := by simp [take, hstate]
      rw [whole_letter hlf]
      cases l with
      | nil => exact .inr (.inr (hend hready))
      | cons d l =>
        by_cases hd : d = '\n'
        · subst hd
          exact .inl ⟨l, rfl, whole_letter (by simp [take]) l⟩
        · exact .inr (.inr ⟨400, whole_refused (by simp [take, hd]) l⟩)
    · by_cases hminus : c = '-'
      · subst hminus
        have hnext : p.take '-' = .next { p with state := .minus } := by simp [take, hstate]
        rw [whole_letter hnext]
        cases l with
        | nil => exact .inr (.inr (hend hready))
        | cons d l =>
          by_cases hd : d = '-'
          · subst hd
            rw [whole_letter (q := { p with state := .eofCr }) (by simp [take])]
            cases l with
            | nil => exact .inr (.inr (hend hready))
            | cons d l =>
              by_cases hd : d = '\r'
              · subst hd
                rw [whole_letter (q := { p with state := .eofLf }) (by simp [take])]
                cases l with
                | nil => exact .inr (.inr (hend hready))
                | cons d l =>
                  by_cases hd : d = '\n'
                  · subst hd
                    have hbody : ({ p with state := .eofLf } : MultipartParser).take '\n' =
                        .body { p with state := .eofLf } := by simp [take]
                    rw [whole_cons, feed_false, hbody]
                    cases l with
                    | nil => exact .inr (.inl ⟨rfl, rfl⟩)
                    | cons d l => exact .inr (.inr ⟨400, whole_behind allowed _ (List.cons_ne_nil d l)⟩)
                  · exact .inr (.inr ⟨400, whole_refused (by simp [take, hd]) l⟩)
              · exact .inr (.inr ⟨400, whole_refused (by simp [take, hd]) l⟩)
          · exact .inr (.inr ⟨400, whole_refused (by simp [take, hd]) l⟩)
      · exact .inr (.inr ⟨400, whole_refused (by simp [take, hstate, hcr, hminus]) l⟩)

theorem whole_crlf (hstate : p.state = .oneCrlfOrEof) (l : List Char) :
    whole allowed (p, false) (['\r', '\n'] ++ l) = whole allowed ({ p with state := .crlfcrlf }, false) l := by
  have hlf : p.take '\r' = .next { p with state := .lf } := by simp [take, hstate]
  rw [List.cons_append, whole_letter hlf]
  exact whole_letter (by simp [take]) l

theorem whole_last (hstate : p.state = .oneCrlfOrEof) :
    whole allowed (p, false) ['-', '-', '\r', '\n'] = .ok { p with state := .eofLf } := by
  have hminus : p.take '-' = .next { p with state := .minus } := by simp [take, hstate]
  rw [whole_letter hminus, whole_letter (q := { p with state := .eofCr }) (by simp [take]),
    whole_letter (q := { p with state := .eofLf }) (by simp [take])]
  rfl

/-! ## The headers end with the first empty line -/

theorem splitHeader_append {position : Nat} {header : List Char} (h : splitHeader position header = some (header, []))
    (rest : List Char) : splitHeader position (header ++ rest) = some (header, rest) := by
  induction header generalizing position with
  | nil => cases h
  | cons c header ih =>
    rw [splitHeader] at h
    rw [List.cons_append, splitHeader]
    split at h
    · rename_i hend
      rw [if_pos hend]
      cases h
      rfl
    · rename_i hend
      obtain ⟨x, hx, heq⟩ := Option.map_eq_some_iff.1 h
      have hsplit : x = (header, []) := by
        obtain ⟨hx1, hx2⟩ := Prod.mk.inj heq
        exact Prod.ext (List.cons.inj hx1).2 hx2
      rw [if_neg hend, ih (hsplit ▸ hx)]
      rfl

theorem splitHeader_eq_some {position : Nat} {l header rest : List Char}
    (h : splitHeader position l = some (header, rest)) :
    l = header ++ rest ∧ splitHeader position header = some (header, []) := by
  induction l generalizing position header with
  | nil => cases h
  | cons c l ih =>
    rw [splitHeader] at h
    split at h
    · rename_i hend
      cases h
      refine ⟨rfl, ?_⟩
      rw [splitHeader]
      exact if_pos hend
    · rename_i hend
      obtain ⟨x, hx, heq⟩ := Option.map_eq_some_iff.1 h
      obtain ⟨rfl, rfl⟩ := Prod.mk.inj heq
      obtain ⟨rfl, hheader⟩ := ih hx
      refine ⟨rfl, ?_⟩
      rw [splitHeader, if_neg hend, hheader]
      rfl

/-! ## Accepted forms -/

/-- The parser stands behind a delimiter. -/
structure AtPart (n : Needle Char) (p : MultipartParser) : Prop where
  state : p.state = .oneCrlfOrEof
  position : p.position = 0
  header : p.header = []
  boundary : p.boundary = n.word
  file : p.file = {}
  ready : p.fileIsReady = false

theorem AtPart.behind {n : Needle Char} (h : AtPart n p) (f g : HttpFile) :
    AtPart n ((behindHeaders { p with state := .crlfcrlf } f).behindContent g) where
  state := rfl
  position := rfl
  header := rfl
  boundary := h.boundary
  file := rfl
  ready := rfl

/-- What is left of a part, letter by letter. -/
theorem AtPart.whole_part {n : Needle Char} (h : AtPart n p) {header data : List Char} {f : HttpFile}
    (hheader : splitHeader 0 header = some (header, [])) (hf : HttpFile.processHeader {} header = some f)
    (hdata : ¬n.word <:+: data) (hok : (f.write data).sizeOk allowed = true) (l : List Char) :
    whole allowed (p, false) (['\r', '\n'] ++ header ++ data ++ n.word ++ l) = whole allowed
      ((behindHeaders { p with state := .crlfcrlf } f).behindContent (f.write data), false) l := by
  have hsplit : n.split ⟨[], 0⟩ (data ++ n.word ++ l) = some (data, l) := Needle.split_eq_some_iff.2 ⟨rfl, hdata⟩
  have hcontent := @whole_content allowed (behindHeaders { p with state := .crlfcrlf } f) n h.boundary rfl
    f ⟨[], 0⟩ rfl (HttpFile.write_nil f).symm (data ++ n.word ++ l)
  rw [hsplit] at hcontent
  have hlist : ['\r', '\n'] ++ header ++ data ++ n.word ++ l = ['\r', '\n'] ++ (header ++ (data ++ n.word ++ l)) := by
    simp only [List.append_assoc]
  have hposition : ({ p with state := .crlfcrlf } : MultipartParser).position = 0 := h.position
  rw [hlist, whole_crlf h.state, whole_headers (p := { p with state := .crlfcrlf }) rfl h.ready, hposition, splitHeader_append hheader]
  dsimp only
  rw [h.header, h.file, List.nil_append, hf]
  exact hcontent.trans (if_pos hok)

/-- A form of the grammar is accepted, part by part. -/
theorem AtPart.whole_of_form {n : Needle Char} {l : List Char} {files : List HttpFile} (hform : FormBody n allowed l files)
    (h : AtPart n p) : ∃ q, whole allowed (p, false) l = .ok q ∧ q.files = p.files ++ files := by
  induction hform generalizing p with
  | last => exact ⟨_, whole_last h.state, (List.append_nil _).symm⟩
  | @part header data l f files hheader hf hdata hok _ ih =>
    obtain ⟨q, hq, hfiles⟩ := ih (h.behind f (f.write data))
    refine ⟨q, (h.whole_part hheader hf hdata hok l).trans hq, ?_⟩
    rw [hfiles]
    exact List.append_assoc p.files [f.write data] files

/-- What is accepted is a form of the grammar. -/
theorem AtPart.form_of_whole {n : Needle Char} {l : List Char} {q : MultipartParser} (h : AtPart n p)
    (hq : whole allowed (p, false) l = .ok q) : ∃ files, q.files = p.files ++ files ∧ FormBody n allowed l files := by
  obtain ⟨k, hk⟩ : ∃ k, k = l.length := ⟨_, rfl⟩
  induction k using Nat.strongRecOn generalizing p l q with
  | ind k ih =>
  rcases @whole_delimiter allowed p h.state h.ready l with ⟨rest, rfl, hrest⟩ | ⟨rfl, hlast⟩ | ⟨code, herror⟩
  · have hposition : ({ p with state := .crlfcrlf } : MultipartParser).position = 0 := h.position
    rw [hrest, whole_headers (p := { p with state := .crlfcrlf }) rfl h.ready, hposition] at hq
    cases hheader : splitHeader 0 rest with
    | none =>
      rw [hheader] at hq
      cases hq
    | some x =>
      obtain ⟨header, behind⟩ := x
      rw [hheader] at hq
      dsimp only at hq
      rw [h.header, h.file, List.nil_append] at hq
      cases hf : HttpFile.processHeader {} header with
      | none =>
        rw [hf] at hq
        cases hq
      | some f =>
        rw [hf] at hq
        dsimp only at hq
        have hcontent := @whole_content allowed (behindHeaders { p with state := .crlfcrlf } f) n h.boundary rfl
          f ⟨[], 0⟩ rfl (HttpFile.write_nil f).symm behind
        cases hsplit : n.split ⟨[], 0⟩ behind with
        | none =>
          rw [hsplit] at hcontent
          obtain ⟨code, herror⟩ := hcontent
          cases herror.symm.trans hq
        | some y =>
          obtain ⟨data, l⟩ := y
          rw [hsplit] at hcontent
          dsimp only at hcontent
          obtain ⟨rfl, hself⟩ := splitHeader_eq_some hheader
          obtain ⟨rfl, hdata⟩ := Needle.split_eq_some_iff.1 hsplit
          replace hq := hcontent.symm.trans hq
          split at hq
          · rename_i hok
            have hlength : l.length < (['\r', '\n'] ++ (header ++ (data ++ n.word ++ l))).length := by
              simp only [List.length_append, List.length_cons]
              omega
            obtain ⟨files, hfiles, hform⟩ := ih l.length (hk ▸ hlength) (h.behind f (f.write data)) hq rfl
            refine ⟨f.write data :: files, ?_, ?_⟩
            · rw [hfiles]
              exact List.append_assoc p.files [f.write data] files
            · have hpart := FormBody.part hself hf hdata hok hform
              simpa only [List.append_assoc] using hpart
          · cases hq
  · rw [hlast] at hq
    cases hq
    exact ⟨[], (List.append_nil _).symm, .last⟩
  · rw [herror] at hq
    cases hq

/-- The parser behind the first boundary. -/
def behindBoundary (p : MultipartParser) : MultipartParser := { p with state := .oneCrlfOrEof, position := 0 }

theorem whole_boundary {u word : List Char} (hstate : p.state = .firstBoundary)
    (hboundary : p.boundary = u ++ word) (hposition : p.position = u.length) (hword : word ≠ [])
    (l : List Char) : whole allowed (p, false) (word ++ l) = whole allowed (p.behindBoundary, false) l := by
  induction word generalizing p u with
  | nil => exact absurd rfl hword
  | cons c word ih =>
    have hc : p.boundary[p.position]? = some c := by simp [hboundary, hposition]
    have hlength : p.boundary.length = p.position + 1 + word.length := by
      rw [hboundary, hposition, List.length_append, List.length_cons]
      omega
    cases word with
    | nil =>
      have htake : p.take c = .next p.behindBoundary := by
        rw [take, hstate]
        dsimp only
        rw [if_neg (not_not.2 hc), if_pos (by rw [hlength]; rfl), behindBoundary]
      exact whole_letter htake l
    | cons d word =>
      have htake : p.take c = .next { p with position := p.position + 1 } := by
        simp [take, hstate, hc, hlength]
      rw [List.cons_append, whole_letter htake]
      exact ih (p := { p with position := p.position + 1 }) (u := u ++ [c]) hstate
        (by simp [hboundary]) (by simp [hposition]) (List.cons_ne_nil d word)

theorem boundary_of_whole {u word : List Char} (hstate : p.state = .firstBoundary) (hready : p.fileIsReady = false)
    (hboundary : p.boundary = u ++ word) (hposition : p.position = u.length) (hword : word ≠ [])
    {l : List Char} {q : MultipartParser} (hq : whole allowed (p, false) l = .ok q) :
    ∃ rest, l = word ++ rest := by
  induction word generalizing p u l with
  | nil => exact absurd rfl hword
  | cons c word ih =>
    have hc : p.boundary[p.position]? = some c := by simp [hboundary, hposition]
    have hlength : p.boundary.length = p.position + 1 + word.length := by
      rw [hboundary, hposition, List.length_append, List.length_cons]
      omega
    cases l with
    | nil =>
      rw [whole_nil, finish_incomplete fun h => by rw [hready] at h; cases h] at hq
      cases hq
    | cons d l =>
      by_cases hd : d = c
      · subst hd
        cases word with
        | nil => exact ⟨l, rfl⟩
        | cons e word =>
          have htake : p.take d = .next { p with position := p.position + 1 } := by
            simp [take, hstate, hc, hlength]
          rw [whole_letter htake] at hq
          obtain ⟨rest, rfl⟩ := ih (p := { p with position := p.position + 1 }) (u := u ++ [d]) hstate hready
            (by simp [hboundary]) (by simp [hposition]) (List.cons_ne_nil e word) hq
          exact ⟨rest, rfl⟩
      · have htake : p.take d = .refused := by
          have hne : ¬c = d := fun heq => hd heq.symm
          simp [take, hstate, hc, hne]
        rw [whole_refused htake] at hq
        cases hq

end MultipartParser

open MultipartParser in
/-- What is received is what the letters of the body leave. -/
theorem Receiving.received_iff {t : ContentType} {p : MultipartParser} (hp : setContentType t = some p) (allowed : Nat)
    {chunks : List (List Char)} (hbody : chunks.flatten ≠ []) (files : List HttpFile) :
    (∃ s, Receiving.receive allowed chunks.flatten.length ⟨p, 0⟩ chunks = .ok s ∧ s.parser.files = files) ↔
      ∃ q, whole allowed (p, false) chunks.flatten = .ok q ∧ q.files = files := by
  rw [receive_eq allowed (kept_of_setContentType hp) (Nat.zero_add _) hbody]
  constructor
  · rintro ⟨s, hs, rfl⟩
    cases hq : whole allowed (p, false) chunks.flatten with
    | error code =>
      rw [hq] at hs
      cases hs
    | ok q =>
      rw [hq] at hs
      cases hs
      exact ⟨q, rfl, rfl⟩
  · rintro ⟨q, hq, rfl⟩
    exact ⟨⟨q, chunks.flatten.length⟩, by rw [hq]; rfl, rfl⟩

open MultipartParser in
/-- The letters of a body are accepted exactly if it is the first boundary and a form of the grammar. -/
theorem MultipartParser.whole_form {t : ContentType} {p : MultipartParser} (hp : setContentType t = some p)
    (hkey : '\r' ∉ t.parameterByKey "boundary".toList) (allowed : Nat) (body : List Char) (files : List HttpFile) :
    (∃ q, whole allowed (p, false) body = .ok q ∧ q.files = files) ↔
      ∃ l, body = ['-', '-'] ++ t.parameterByKey "boundary".toList ++ l ∧
        FormBody (delimiter (t.parameterByKey "boundary".toList) hkey) allowed l files := by
  have hfresh : p = ⟨.firstBoundary, 2, [], ['\r', '\n'] ++ (['-', '-'] ++ t.parameterByKey "boundary".toList),
      {}, [], false⟩ := by
    unfold setContentType at hp
    dsimp only at hp
    split at hp
    · cases hp
    · exact (Option.some.inj hp).symm
  have hstate : p.state = .firstBoundary := by rw [hfresh]
  have hready : p.fileIsReady = false := by rw [hfresh]
  have hposition : p.position = 2 := by rw [hfresh]
  have hboundary : p.boundary = ['\r', '\n'] ++ (['-', '-'] ++ t.parameterByKey "boundary".toList) := by rw [hfresh]
  have hfiles : p.behindBoundary.files = [] := by
    rw [hfresh]
    rfl
  have hword : ['-', '-'] ++ t.parameterByKey "boundary".toList ≠ [] := List.cons_ne_nil _ _
  have hpart : AtPart (delimiter (t.parameterByKey "boundary".toList) hkey) p.behindBoundary := by
    rw [hfresh]
    exact ⟨rfl, rfl, rfl, rfl, rfl, rfl⟩
  constructor
  · rintro ⟨q, hq, rfl⟩
    obtain ⟨l, hl⟩ := boundary_of_whole hstate hready hboundary hposition hword hq
    rw [hl, whole_boundary hstate hboundary hposition hword] at hq
    obtain ⟨files, hparts, hform⟩ := hpart.form_of_whole hq
    rw [hfiles, List.nil_append] at hparts
    exact ⟨l, hl, hparts ▸ hform⟩
  · rintro ⟨l, hl, hform⟩
    obtain ⟨q, hq, hparts⟩ := hpart.whole_of_form hform
    rw [hfiles, List.nil_append] at hparts
    exact ⟨q, by rw [hl, whole_boundary hstate hboundary hposition hword, hq], hparts⟩

/-- A form with the boundary `b`. -/
def sampleType : ContentType := ⟨"multipart/form-data".toList, [("boundary".toList, ['b'])]⟩

/-- The parser of such a form. -/
def sampleParser : MultipartParser := { boundary := ['\r', '\n', '-', '-', 'b'], position := 2 }

end Cppcms
