import Mathlib.Data.List.Basic
import Mathlib.Data.List.TakeWhile
import Mathlib.Tactic.Common

set_option autoImplicit false

/-! # Reading markup

Tags, their attributes and the text between them, as a browser takes them from a text: newlines are made
alike, tags and attributes are found character by character, and character references are replaced in what was
found. Comments and declarations are not read. -/

namespace Html

/-! ## Character references -/

/-- The named references, with what each stands for, which is no longer than its name. -/
structure References where
  named : List (List Char × List Char)
  shorter : ∀ x ∈ named, x.2.length ≤ x.1.length

/-- What stands for a character that may not be. -/
def replacement : Char := Char.ofNat 0xFFFD

/-- The number some digits make in a base. -/
def readNumber (base : Nat) (digit : Char → Nat) (s : List Char) : Nat :=
  s.foldl (fun n c => n * base + digit c) 0

def hexDigit (c : Char) : Nat :=
  if c.isDigit then c.toNat - '0'.toNat else if c.toNat ≤ 'F'.toNat then c.toNat - 'A'.toNat + 10
  else c.toNat - 'a'.toNat + 10

def isHexDigit (c : Char) : Bool :=
  c.isDigit || ('a'.toNat ≤ c.toNat && c.toNat ≤ 'f'.toNat) || ('A'.toNat ≤ c.toNat && c.toNat ≤ 'F'.toNat)

/-- The character with a number; from 0x80 on some numbers are those of another encoding. -/
def numbered (n : Nat) : Char :=
  let c1 : List Nat :=
    [0x20AC, 0x81, 0x201A, 0x192, 0x201E, 0x2026, 0x2020, 0x2021, 0x2C6, 0x2030, 0x160, 0x2039, 0x152, 0x8D,
     0x17D, 0x8F, 0x90, 0x2018, 0x2019, 0x201C, 0x201D, 0x2022, 0x2013, 0x2014, 0x2DC, 0x2122, 0x161, 0x203A,
     0x153, 0x9D, 0x17E, 0x178]
  if n = 0 ∨ 0x10FFFF < n then replacement
  else if 0x80 ≤ n ∧ n ≤ 0x9F then Char.ofNat (c1.getD (n - 0x80) 0xFFFD)
  else if 0xD800 ≤ n ∧ n ≤ 0xDFFF then replacement
  else Char.ofNat n

/-- The number a text begins with, and how many characters it has with its semicolon. -/
def digits (base : Nat) (isDigit : Char → Bool) (s : List Char) : Option (Char × Nat) :=
  let word := s.takeWhile isDigit
  if word = [] then none
  else some (numbered (readNumber base hexDigit word),
    word.length + if (s.drop word.length).head? = some ';' then 1 else 0)

/-- A numbered reference behind its `#`. -/
def numeric : List Char → Option (Char × Nat)
  | 'x' :: t => (digits 16 isHexDigit t).map fun x => (x.1, x.2 + 1)
  | 'X' :: t => (digits 16 isHexDigit t).map fun x => (x.1, x.2 + 1)
  | t => digits 10 Char.isDigit t

/-- The longest name a text begins with. -/
def longest (named : List (List Char × List Char)) (s : List Char) : Option (List Char × List Char) :=
  (named.filter fun x => x.1.isPrefixOf s).foldl
    (fun best x => match best with
      | none => some x
      | some y => if y.1.length < x.1.length then some x else some y) none

/-- What the text behind an ampersand begins with: what the reference stands for, and its length. In the value
    of an attribute a name without semicolon is none when an equals sign or a letter or digit follows. -/
def reference (R : References) (inValue : Bool) : List Char → Option (List Char × Nat)
  | '#' :: t => (numeric t).map fun x => ([x.1], x.2 + 1)
  | t =>
      match longest R.named t with
      | none => none
      | some (name, value) =>
          let next := (t.drop name.length).head?
          if inValue ∧ name.getLast? ≠ some ';' ∧ next.any (fun c => c = '=' || c.isAlphanum) then none
          else some (value, name.length)

/-- The text with its references replaced, behind the first `skip` characters. -/
def decodeFrom (R : References) (inValue : Bool) : Nat → List Char → List Char
  | _, [] => []
  | skip + 1, _ :: t => decodeFrom R inValue skip t
  | 0, c :: t =>
      if c = '&' then
        match reference R inValue t with
        | some (value, n) => value ++ decodeFrom R inValue n t
        | none => c :: decodeFrom R inValue 0 t
      else c :: decodeFrom R inValue 0 t

def decode (R : References) (inValue : Bool) (s : List Char) : List Char := decodeFrom R inValue 0 s

/-- No ampersand of a text begins a reference. -/
def NoReference (R : References) (inValue : Bool) : List Char → Prop
  | [] => True
  | c :: t => (c = '&' → reference R inValue t = none) ∧ NoReference R inValue t

section
variable {R : References} {inValue : Bool}

theorem digits_length {base : Nat} {isDigit : Char → Bool} {s : List Char} {x : Char × Nat}
    (h : digits base isDigit s = some x) : x.2 ≤ s.length := by
  unfold digits at h
  dsimp only at h
  split at h
  · exact absurd h (by simp)
  · obtain rfl := Option.some.inj h
    have hword : (s.takeWhile isDigit).length ≤ s.length := (List.takeWhile_prefix isDigit).length_le
    dsimp only
    split
    · rename_i hnext
      -- a semicolon stands behind the digits
      have hne : s.drop (s.takeWhile isDigit).length ≠ [] := fun hnil => absurd hnext (by simp [hnil])
      have := List.length_pos_of_ne_nil hne
      rw [List.length_drop] at this
      omega
    · omega

theorem numeric_length {s : List Char} {x : Char × Nat} (h : numeric s = some x) : x.2 ≤ s.length := by
  unfold numeric at h
  split at h
  · obtain ⟨y, hy, rfl⟩ := Option.map_eq_some_iff.1 h
    exact Nat.succ_le_succ (digits_length hy)
  · obtain ⟨y, hy, rfl⟩ := Option.map_eq_some_iff.1 h
    exact Nat.succ_le_succ (digits_length hy)
  · exact digits_length h

theorem longest_mem {named : List (List Char × List Char)} {s : List Char} {x : List Char × List Char}
    (h : longest named s = some x) : x ∈ named ∧ x.1 <+: s := by
  suffices hfold : ∀ (l : List (List Char × List Char)) best,
      l.foldl (fun best x => match best with
        | none => some x
        | some y => if y.1.length < x.1.length then some x else some y) best = some x →
      best = some x ∨ x ∈ l by
    rcases hfold _ _ h with hbest | hmem
    · exact absurd hbest (by simp)
    · obtain ⟨hmem, hprefix⟩ := List.mem_filter.1 hmem
      exact ⟨hmem, List.isPrefixOf_iff_prefix.1 hprefix⟩
  intro l
  induction l with
  | nil => exact fun best h => .inl h
  | cons y l ih =>
    intro best h
    rcases ih _ h with hbest | hmem
    · cases best with
      | none => exact .inr (Option.some.inj hbest ▸ List.mem_cons_self)
      | some z =>
        dsimp only at hbest
        split at hbest
        · exact .inr (Option.some.inj hbest ▸ List.mem_cons_self)
        · exact .inl hbest
    · exact .inr (List.mem_cons_of_mem y hmem)

/-- What a reference stands for is no longer than the reference without its ampersand. -/
theorem reference_length {t value : List Char} {n : Nat} (h : reference R inValue t = some (value, n)) :
    value.length ≤ n ∧ n ≤ t.length := by
  unfold reference at h
  split at h
  · obtain ⟨x, hx, heq⟩ := Option.map_eq_some_iff.1 h
    obtain ⟨rfl, rfl⟩ := Prod.mk.inj heq
    exact ⟨by simp, Nat.succ_le_succ (numeric_length hx)⟩
  · split at h
    · exact absurd h (by simp)
    · rename_i name value' hlongest
      obtain ⟨hmem, hprefix⟩ := longest_mem hlongest
      dsimp only at h
      split at h
      · exact absurd h (by simp)
      · obtain ⟨rfl, rfl⟩ := Prod.mk.inj (Option.some.inj h)
        exact ⟨R.shorter _ hmem, hprefix.length_le⟩

theorem length_decodeFrom (skip : Nat) (s : List Char) :
    (decodeFrom R inValue skip s).length + min skip s.length ≤ s.length := by
  induction s generalizing skip with
  | nil => cases skip <;> simp [decodeFrom]
  | cons c t ih =>
    cases skip with
    | succ skip =>
      have := ih skip
      simp only [decodeFrom, List.length_cons]
      omega
    | zero =>
      have hplain := ih 0
      rw [Nat.zero_min] at hplain ⊢
      unfold decodeFrom
      split
      · split
        · rename_i value n hreference
          obtain ⟨hvalue, hn⟩ := reference_length hreference
          have := ih n
          rw [List.length_append, List.length_cons]
          omega
        · simpa using hplain
      · simpa using hplain

theorem length_decode (s : List Char) : (decode R inValue s).length ≤ s.length := by
  have h := @length_decodeFrom R inValue 0 s
  rw [Nat.zero_min] at h
  exact h

/-- **A text of unchanged length has no reference.** -/
theorem noReference_of_length {s : List Char} (h : s.length ≤ (decode R inValue s).length) :
    NoReference R inValue s := by
  unfold decode at h
  induction s with
  | nil => trivial
  | cons c t ih =>
    unfold decodeFrom at h
    split at h
    · split at h
      · rename_i value n hreference
        -- the reference alone makes the text shorter
        obtain ⟨hvalue, hn⟩ := reference_length hreference
        have := @length_decodeFrom R inValue n t
        rw [List.length_append, List.length_cons] at h
        omega
      · rename_i hreference
        exact ⟨fun _ => hreference, ih (by simpa using h)⟩
    · rename_i hc
      exact ⟨fun h => absurd h hc, ih (by simpa using h)⟩

theorem decode_eq_self {s : List Char} (h : NoReference R inValue s) : decode R inValue s = s := by
  unfold decode
  induction s with
  | nil => rfl
  | cons c t ih =>
    unfold decodeFrom
    split
    · rename_i hc
      rw [h.1 hc, ih h.2]
    · rw [ih h.2]

theorem noReference_append {s t : List Char} (hs : '&' ∉ s) :
    NoReference R inValue (s ++ t) ↔ NoReference R inValue t := by
  induction s with
  | nil => rfl
  | cons c s ih =>
    rw [List.cons_append, NoReference, ih fun h => hs (List.mem_cons_of_mem c h)]
    exact and_iff_right fun hc => absurd (hc ▸ List.mem_cons_self) hs

end

/-! ## Newlines -/

/-- The newlines of a text, made alike. -/
def normalise : List Char → List Char
  | [] => []
  | '\r' :: '\n' :: t => '\n' :: normalise t
  | '\r' :: t => '\n' :: normalise t
  | c :: t => c :: normalise t

theorem normalise_cons {c : Char} (h : c ≠ '\r') (t : List Char) : normalise (c :: t) = c :: normalise t := by
  rw [normalise]
  · rintro u rfl
    exact absurd rfl h
  · exact h

theorem normalise_append {s : List Char} (h : '\r' ∉ s) (t : List Char) :
    normalise (s ++ t) = s ++ normalise t := by
  induction s with
  | nil => rfl
  | cons c s ih =>
    rw [List.cons_append, normalise_cons (fun hc => h (hc ▸ List.mem_cons_self)),
      ih fun hmem => h (List.mem_cons_of_mem c hmem), List.cons_append]

theorem normalise_eq_self {s : List Char} (h : '\r' ∉ s) : normalise s = s := by
  have := normalise_append h []
  rwa [List.append_nil, normalise, List.append_nil] at this

theorem not_mem_normalise (s : List Char) : '\r' ∉ normalise s := by
  fun_induction normalise s with
  | case1 => simp
  | case2 t ih => simpa using ih
  | case3 t _ ih => simpa using ih
  | case4 c t _ hc ih =>
    rw [List.mem_cons, not_or]
    exact ⟨fun h => hc h.symm, ih⟩

theorem length_normalise (s : List Char) : (normalise s).length ≤ s.length := by
  fun_induction normalise s with
  | case1 => exact Nat.le_refl 0
  | case2 t ih => simp only [List.length_cons]; omega
  | case3 t _ ih => simpa using ih
  | case4 c t _ _ ih => simpa using ih

/-- A character that belongs to no newline keeps its two sides apart. -/
theorem normalise_append_cons {c : Char} (hr : c ≠ '\r') (hn : c ≠ '\n') (s t : List Char) :
    normalise (s ++ c :: t) = normalise s ++ c :: normalise t := by
  fun_induction normalise s with
  | case1 => exact normalise_cons hr t
  | case2 s ih => rw [List.cons_append, List.cons_append, normalise, ih]; rfl
  | case3 s hs ih =>
    rw [List.cons_append, normalise, ih]
    · rfl
    · intro u hu
      cases s with
      | nil => exact hn (List.cons.inj hu).1
      | cons d s => exact hs _ (congrArg (· :: s) (List.cons.inj hu).1)
  | case4 d s _ hd ih => rw [List.cons_append, normalise_cons hd, ih]; rfl

/-! ## Tags -/

/-- What is found in a text; a tag has its name and, when it starts an element, its attributes. -/
inductive Token where
  | text (s : List Char)
  | start (name : List Char) (attrs : List (List Char × List Char))
  | stop (name : List Char)
deriving DecidableEq

/-- A tag that is being read. -/
structure Tag where
  stops : Bool
  name : List Char
  attrs : List (List Char × List Char) := []
deriving DecidableEq

/-- Of two attributes of one name the first one counts. -/
def Tag.add (t : Tag) (name value : List Char) : Tag :=
  if name ∈ t.attrs.map Prod.fst then t else { t with attrs := t.attrs ++ [(name, value)] }

def Tag.token (t : Tag) : Token := if t.stops then .stop t.name else .start t.name t.attrs

/-- Where in a tag the reading is: in its name, between its attributes, in or behind the name of one, before
    its value, or in it, up to a quote or up to a blank. -/
inductive Place where
  | name
  | between
  | attrName (name : List Char)
  | afterName (name : List Char)
  | beforeValue (name : List Char)
  | value (quote : Option Char) (name value : List Char)
deriving DecidableEq

/-- What has been read: the tokens found, and the text since, the beginning of a tag, or a part of it. -/
inductive Scan where
  | data (out : List Token) (text : List Char)
  | tagOpen (out : List Token) (text : List Char)
  | endTagOpen (out : List Token) (text : List Char)
  | inTag (place : Place) (out : List Token) (tag : Tag)
deriving DecidableEq

/-- The tokens with the text behind them. -/
def flush (out : List Token) (text : List Char) : List Token :=
  if text = [] then out else out ++ [.text text]

def isBlank (c : Char) : Bool := c = ' ' || c = '\t' || c = '\n' || c = '\x0c'

/-- A character of a name or a value; one is not allowed. -/
def shown (c : Char) : Char := if c = '\x00' then replacement else c

def lower (c : Char) : Char := (shown c).toLower

/-- A character between the attributes of a tag. -/
def between (out : List Token) (tag : Tag) (c : Char) : Scan :=
  if isBlank c || c = '/' then .inTag .between out tag
  else if c = '>' then .data (out ++ [tag.token]) []
  else .inTag (.attrName [lower c]) out tag

/-- Read one character; a comment or a declaration is not read. -/
def step : Scan → Char → Option Scan
  | .data out text, c => some (if c = '<' then .tagOpen out text else .data out (text ++ [c]))
  | .tagOpen out text, c =>
      if c = '/' then some (.endTagOpen out text)
      else if c.isAlpha then some (.inTag .name (flush out text) { stops := false, name := [lower c] })
      else if c = '!' ∨ c = '?' then none
      else if c = '<' then some (.tagOpen out (text ++ ['<']))
      else some (.data out (text ++ ['<', c]))
  | .endTagOpen out text, c =>
      if c.isAlpha then some (.inTag .name (flush out text) { stops := true, name := [lower c] })
      else if c = '>' then some (.data out text)
      else none
  | .inTag .name out tag, c =>
      some (if isBlank c || c = '/' || c = '>' then between out tag c
        else .inTag .name out { tag with name := tag.name ++ [lower c] })
  | .inTag .between out tag, c => some (between out tag c)
  | .inTag (.attrName n) out tag, c =>
      some (if c = '=' then .inTag (.beforeValue n) out tag
        else if isBlank c then .inTag (.afterName n) out tag
        else if c = '/' || c = '>' then between out (tag.add n []) c
        else .inTag (.attrName (n ++ [lower c])) out tag)
  | .inTag (.afterName n) out tag, c =>
      some (if isBlank c then .inTag (.afterName n) out tag
        else if c = '=' then .inTag (.beforeValue n) out tag
        else between out (tag.add n []) c)
  | .inTag (.beforeValue n) out tag, c =>
      some (if isBlank c then .inTag (.beforeValue n) out tag
        else if c = '\x22' || c = '\x27' then .inTag (.value (some c) n []) out tag
        else if c = '>' then .data (out ++ [(tag.add n []).token]) []
        else .inTag (.value none n [shown c]) out tag)
  | .inTag (.value (some q) n v) out tag, c =>
      some (if c = q then .inTag .between out (tag.add n v)
        else .inTag (.value (some q) n (v ++ [shown c])) out tag)
  | .inTag (.value none n v) out tag, c =>
      some (if isBlank c then .inTag .between out (tag.add n v)
        else if c = '>' then .data (out ++ [(tag.add n v).token]) []
        else .inTag (.value none n (v ++ [shown c])) out tag)

def run : Scan → List Char → Option Scan
  | s, [] => some s
  | s, c :: t => (step s c).bind fun s' => run s' t

/-- The tokens at the end of the text; a tag that is not finished is none. -/
def Scan.finish : Scan → List Token
  | .data out text => flush out text
  | .tagOpen out text => flush out (text ++ ['<'])
  | .endTagOpen out text => flush out (text ++ ['<', '/'])
  | .inTag _ out _ => out

/-- A token with its references replaced. -/
def Token.decode (R : References) : Token → Token
  | .text s => .text (Html.decode R false s)
  | .start name attrs => .start name (attrs.map fun x => (x.1, Html.decode R true x.2))
  | .stop name => .stop name

/-- The tokens of a text, or `none` if there is a comment or a declaration. -/
def tokens (R : References) (s : List Char) : Option (List Token) :=
  (run (.data [] []) (normalise s)).map fun scan => scan.finish.map (Token.decode R)

theorem run_append (s : Scan) (u v : List Char) : run s (u ++ v) = (run s u).bind fun s' => run s' v := by
  induction u generalizing s with
  | nil => rfl
  | cons c u ih =>
    rw [List.cons_append, run, run, Option.bind_assoc]
    congr 1
    funext s'
    exact ih s'

/-- **Text up to a tag stays text.** -/
theorem run_text {w : List Char} (h : '<' ∉ w) (out : List Token) (text : List Char) :
    run (.data out text) w = some (.data out (text ++ w)) := by
  induction w generalizing text with
  | nil => rw [List.append_nil]; rfl
  | cons c w ih =>
    have hc : c ≠ '<' := fun hc => h (hc ▸ List.mem_cons_self)
    rw [run, step, if_neg hc, Option.bind_some, ih fun hmem => h (List.mem_cons_of_mem c hmem),
      List.append_assoc, List.singleton_append]

/-- **A value goes up to its quote.** -/
theorem run_value {w : List Char} {q : Char} (h : q ∉ w) (n v : List Char) (out : List Token) (tag : Tag) :
    run (.inTag (.value (some q) n v) out tag) w =
      some (.inTag (.value (some q) n (v ++ w.map shown)) out tag) := by
  induction w generalizing v with
  | nil => rw [List.map_nil, List.append_nil]; rfl
  | cons c w ih =>
    have hc : c ≠ q := fun hc => h (hc ▸ List.mem_cons_self)
    rw [run, step, if_neg hc, Option.bind_some, ih fun hmem => h (List.mem_cons_of_mem c hmem),
      List.append_assoc, List.singleton_append, List.map_cons]

/-- The tokens found so far. -/
def Scan.out : Scan → List Token
  | .data out _ => out
  | .tagOpen out _ => out
  | .endTagOpen out _ => out
  | .inTag _ out _ => out

theorem prefix_flush (out : List Token) (text : List Char) : out <+: flush out text := by
  unfold flush
  split
  · exact List.prefix_rfl
  · exact List.prefix_append _ _

theorem Scan.out_prefix_finish (s : Scan) : s.out <+: s.finish := by
  cases s with
  | data out text => exact prefix_flush _ _
  | tagOpen out text => exact prefix_flush _ _
  | endTagOpen out text => exact prefix_flush _ _
  | inTag place out tag => exact List.prefix_rfl

theorem out_prefix_between (out : List Token) (tag : Tag) (c : Char) : out <+: (between out tag c).out := by
  unfold between
  split_ifs
  · exact List.prefix_rfl
  · exact List.prefix_append _ _
  · exact List.prefix_rfl

/-- What has been found stays found. -/
theorem out_prefix_step {s s' : Scan} {c : Char} (h : step s c = some s') : s.out <+: s'.out := by
  cases s with
  | data out text =>
    obtain rfl := Option.some.inj h
    split <;> exact List.prefix_rfl
  | tagOpen out text =>
    simp only [step] at h
    split_ifs at h
    · obtain rfl := Option.some.inj h
      exact List.prefix_rfl
    · obtain rfl := Option.some.inj h
      exact prefix_flush _ _
    · obtain rfl := Option.some.inj h
      exact List.prefix_rfl
    · obtain rfl := Option.some.inj h
      exact List.prefix_rfl
  | endTagOpen out text =>
    simp only [step] at h
    split_ifs at h
    · obtain rfl := Option.some.inj h
      exact prefix_flush _ _
    · obtain rfl := Option.some.inj h
      exact List.prefix_rfl
  | inTag place out tag =>
    cases place with
    | value quote n v =>
      cases quote <;> obtain rfl := Option.some.inj h <;> split_ifs <;>
        first | exact List.prefix_rfl | exact List.prefix_append _ _
    | _ =>
      obtain rfl := Option.some.inj h
      try split_ifs
      all_goals first | exact List.prefix_rfl | exact List.prefix_append _ _ | exact out_prefix_between _ _ _

/-- A start tag with some first attributes is being read, or has been read, behind some tokens. -/
inductive Began (out : List Token) (name : List Char) (attrs : List (List Char × List Char)) : Scan → Prop where
  | reading (place : Place) (more : List (List Char × List Char)) : place ≠ .name →
      Began out name attrs (.inTag place out { stops := false, name := name, attrs := attrs ++ more })
  | read (more : List (List Char × List Char)) (s : Scan) :
      out ++ [.start name (attrs ++ more)] <+: s.out → Began out name attrs s

namespace Began

variable {out : List Token} {name : List Char} {attrs : List (List Char × List Char)}

theorem add (more : List (List Char × List Char)) (n v : List Char) :
    ∃ more', Tag.add { stops := false, name := name, attrs := attrs ++ more } n v =
      { stops := false, name := name, attrs := attrs ++ more' } := by
  unfold Tag.add
  split
  · exact ⟨more, rfl⟩
  · exact ⟨more ++ [(n, v)], by rw [List.append_assoc]⟩

theorem between (more : List (List Char × List Char)) (c : Char) :
    Began out name attrs (Html.between out { stops := false, name := name, attrs := attrs ++ more } c) := by
  unfold Html.between
  split_ifs
  · exact .reading _ more (by simp)
  · exact .read more _ List.prefix_rfl
  · exact .reading _ more (by simp)

theorem step {s s' : Scan} {c : Char} (h : Began out name attrs s) (hs : Html.step s c = some s') :
    Began out name attrs s' := by
  cases h with
  | read more s hread => exact .read more _ (hread.trans (out_prefix_step hs))
  | reading place more hplace =>
    cases place with
    | name => exact absurd rfl hplace
    | between =>
      obtain rfl := Option.some.inj hs
      exact between more c
    | attrName n =>
      obtain ⟨more', hadd⟩ := @add name attrs more n []
      obtain rfl := Option.some.inj hs
      rw [hadd]
      split_ifs
      · exact .reading _ more (by simp)
      · exact .reading _ more (by simp)
      · exact between more' c
      · exact .reading _ more (by simp)
    | afterName n =>
      obtain ⟨more', hadd⟩ := @add name attrs more n []
      obtain rfl := Option.some.inj hs
      rw [hadd]
      split_ifs
      · exact .reading _ more (by simp)
      · exact .reading _ more (by simp)
      · exact between more' c
    | beforeValue n =>
      obtain ⟨more', hadd⟩ := @add name attrs more n []
      obtain rfl := Option.some.inj hs
      rw [hadd]
      split_ifs
      · exact .reading _ more (by simp)
      · exact .reading _ more (by simp)
      · exact .read more' _ List.prefix_rfl
      · exact .reading _ more (by simp)
    | value quote n v =>
      obtain ⟨more', hadd⟩ := @add name attrs more n v
      cases quote with
      | none =>
        obtain rfl := Option.some.inj hs
        rw [hadd]
        split_ifs
        · exact .reading _ more' (by simp)
        · exact .read more' _ List.prefix_rfl
        · exact .reading _ more (by simp)
      | some q =>
        obtain rfl := Option.some.inj hs
        rw [hadd]
        split_ifs
        · exact .reading _ more' (by simp)
        · exact .reading _ more (by simp)

theorem run {s s' : Scan} {w : List Char} (h : Began out name attrs s) (hs : Html.run s w = some s') :
    Began out name attrs s' := by
  induction w generalizing s with
  | nil =>
    obtain rfl := Option.some.inj hs
    exact h
  | cons c w ih =>
    obtain ⟨s₁, hstep, hrest⟩ := Option.bind_eq_some_iff.1 hs
    exact ih (h.step hstep) hrest

/-- At the end the tag is there with those attributes first, or nothing is behind the tokens. -/
theorem finish {s : Scan} (h : Began out name attrs s) :
    s.finish = out ∨ ∃ more rest, s.finish = out ++ .start name (attrs ++ more) :: rest := by
  cases h with
  | reading place more _ => exact .inl rfl
  | read more s hread =>
    obtain ⟨rest, hrest⟩ := hread.trans s.out_prefix_finish
    exact .inr ⟨more, rest, by rw [← hrest, List.append_assoc, List.singleton_append]⟩

end Began

end Html
