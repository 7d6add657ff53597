import Mathlib.Algebra.Order.BigOperators.Group.List
import Mathlib.Algebra.Order.Group.Nat
import Mathlib.Data.List.Basic
import Mathlib.Tactic.Common

set_option autoImplicit false

/-! # Input streams

A file stream with its three error bits. Opening a file that can be opened clears the bits, opening one
that cannot sets the fail bit; reading from a stream with a bit set extracts nothing. The end of the file
sets the end bit, a read that fails sets the bad bit. A loop that reads until the end bit is set goes on
forever once another bit is set without it. -/

namespace Store

variable {α : Type}

/-- What stands behind a name when it is opened; reading from a broken file fails behind its `content`. -/
inductive Source (α : Type) where
  | missing
  | file (content : List α) (broken : Bool)
deriving DecidableEq

/-- Read to its end, it gives its content. -/
def Source.Whole (src : Source α) : Prop := ∃ content, src = .file content false

def Source.Broken (src : Source α) : Prop := ∃ content, src = .file content true

/-- How much there is to read. -/
def Source.size : Source α → Nat
  | .missing => 0
  | .file content _ => content.length

/-- `std::ifstream` -/
structure InStream (α : Type) where
  isOpen : Bool := false
  rest : List α := []
  broken : Bool := false
  eofbit : Bool := false
  failbit : Bool := false
  badbit : Bool := false

namespace InStream

def good (s : InStream α) : Bool := !s.eofbit && !s.failbit && !s.badbit

/-- `open(path)` -/
def openFile (s : InStream α) : Source α → InStream α
  | .missing => { s with failbit := true }
  | .file content broken => { isOpen := true, rest := content, broken := broken }

/-- `close()` -/
def close (s : InStream α) : InStream α := { s with isOpen := false, failbit := s.failbit || !s.isOpen }

/-- `read(buffer,n)`, with what it puts into the buffer -/
def read (n : Nat) (s : InStream α) : List α × InStream α :=
  if !s.good then ([], { s with failbit := true })
  else if n ≤ s.rest.length then (s.rest.take n, { s with rest := s.rest.drop n })
  else if s.broken then ([], { s with rest := [], badbit := true })
  else (s.rest, { s with rest := [], eofbit := true, failbit := true })

/-- `while(!s.eof()) s.read(buffer,n);` with all that it reads; `none` when the rounds are not enough. -/
def readLoop (n : Nat) : Nat → InStream α → List α → Option (List α × InStream α)
  | 0, _, _ => none
  | rounds + 1, s, done =>
      if s.eofbit then some (done, s) else readLoop n rounds (s.read n).2 (done ++ (s.read n).1)

/-- The files one after the other, read through one stream. -/
def readFiles (n rounds : Nat) : InStream α → List (Source α) → List α → Option (List α × InStream α)
  | s, [], done => some (done, s)
  | s, src :: srcs, done =>
      (readLoop n rounds (s.openFile src) done).bind fun r => readFiles n rounds r.2.close srcs r.1

section
variable {n : Nat} {s : InStream α} {done : List α}

theorem readLoop_eof (h : s.eofbit = true) (rounds : Nat) : readLoop n (rounds + 1) s done = some (done, s) :=
  if_pos h

theorem readLoop_mono {rounds rounds' : Nat} (hle : rounds ≤ rounds') {r : List α × InStream α}
    (h : readLoop n rounds s done = some r) : readLoop n rounds' s done = some r := by
  induction rounds generalizing rounds' s done with
  | zero => exact absurd h (by simp [readLoop])
  | succ rounds ih =>
    obtain ⟨k, rfl⟩ := Nat.exists_eq_succ_of_ne_zero (show rounds' ≠ 0 by omega)
    rw [readLoop] at h ⊢
    split at h
    · rename_i heof
      rw [if_pos heof]
      exact h
    · rename_i heof
      rw [if_neg heof]
      exact ih (by omega) h

/-- **A loop that is not at the end and cannot read goes on forever.** -/
theorem readLoop_stuck (heof : s.eofbit = false) (hgood : s.good = false) (rounds : Nat) :
    readLoop n rounds s done = none := by
  induction rounds generalizing s done with
  | zero => rfl
  | succ rounds ih =>
    have hread : (s.read n).2 = { s with failbit := true } := by
      rw [read, hgood]
      rfl
    rw [readLoop, heof, if_neg (by decide), hread]
    exact ih heof (by simp [good])

theorem readLoop_broken (hgood : s.good = true) (hbroken : s.broken = true) (rounds : Nat) :
    readLoop n rounds s done = none := by
  induction rounds generalizing s done with
  | zero => rfl
  | succ rounds ih =>
    have heof : s.eofbit = false := by simp_all [good]
    rw [readLoop, heof, if_neg (by decide), read, hgood]
    by_cases hn : n ≤ s.rest.length
    · rw [if_neg (by decide), if_pos hn]
      exact ih hgood hbroken
    · rw [if_neg (by decide), if_neg hn, hbroken]
      refine readLoop_stuck ?_ ?_ rounds
      · exact heof
      · simp [good]

/-- A file that is not broken is read to its end. -/
theorem readLoop_whole (hn : 0 < n) (hgood : s.good = true) (hbroken : s.broken = false) {rounds : Nat}
    (hrounds : s.rest.length + 1 < rounds) :
    ∃ s', readLoop n rounds s done = some (done ++ s.rest, s') ∧ s'.eofbit = true := by
  induction rounds generalizing s done with
  | zero => exact absurd hrounds (Nat.not_lt_zero _)
  | succ rounds ih =>
    have heof : s.eofbit = false := by simp_all [good]
    rw [readLoop, heof, if_neg (by decide), read, hgood]
    by_cases hlen : n ≤ s.rest.length
    · rw [if_neg (by decide), if_pos hlen]
      -- the measure is what is left to read
      have hless : (s.rest.drop n).length + 1 < rounds := by
        rw [List.length_drop]
        omega
      obtain ⟨s', hs', heof'⟩ := @ih { s with rest := s.rest.drop n } (done ++ s.rest.take n) hgood hbroken hless
      refine ⟨s', ?_, heof'⟩
      rw [hs', List.append_assoc, List.take_append_drop]
    · rw [if_neg (by decide), if_neg hlen, hbroken, if_neg (by decide)]
      obtain ⟨k, rfl⟩ := Nat.exists_eq_succ_of_ne_zero (show rounds ≠ 0 by omega)
      exact ⟨_, readLoop_eof rfl k, rfl⟩

/-! ### One file -/

theorem readLoop_missing (heof : s.eofbit = false) (rounds : Nat) :
    readLoop n rounds (s.openFile .missing) done = none := by
  refine readLoop_stuck ?_ ?_ rounds
  · exact heof
  · simp [openFile, good]

/-- A file that cannot be opened is passed over by a stream that is at the end of another one. -/
theorem readLoop_missing_eof (heof : s.eofbit = true) (rounds : Nat) :
    readLoop n (rounds + 1) (s.openFile .missing) done = some (done, s.openFile .missing) :=
  @readLoop_eof _ n (s.openFile .missing) done heof rounds

theorem readLoop_file_broken (content : List α) (rounds : Nat) :
    readLoop n rounds (s.openFile (.file content true)) done = none := by
  refine readLoop_broken ?_ ?_ rounds
  · rfl
  · rfl

theorem readLoop_file (hn : 0 < n) (content : List α) {rounds : Nat} (hrounds : content.length + 1 < rounds) :
    ∃ s', readLoop n rounds (s.openFile (.file content false)) done = some (done ++ content, s') ∧
      s'.eofbit = true :=
  @readLoop_whole _ n (s.openFile (.file content false)) done hn rfl rfl rounds hrounds

/-! ### One file after the other -/

variable {srcs : List (Source α)} {rounds : Nat}

/-- **Behind the end of a file, files that are missing are passed over.** -/
theorem readFiles_eof (hn : 0 < n) (heof : s.eofbit = true) (hbroken : ∀ src ∈ srcs, ¬src.Broken)
    (hrounds : ∀ src ∈ srcs, src.size + 1 < rounds) : ∃ r, readFiles n rounds s srcs done = some r := by
  induction srcs generalizing s done with
  | nil => exact ⟨_, rfl⟩
  | cons src srcs ih =>
    have hstep : ∃ done' s', readLoop n rounds (s.openFile src) done = some (done', s') ∧ s'.eofbit = true := by
      cases src with
      | missing =>
        obtain ⟨k, rfl⟩ := Nat.exists_eq_succ_of_ne_zero (show rounds ≠ 0 by
          have := hrounds _ List.mem_cons_self
          omega)
        exact ⟨_, _, readLoop_missing_eof heof k, heof⟩
      | file content broken =>
        cases broken with
        | true => exact absurd ⟨content, rfl⟩ (hbroken _ List.mem_cons_self)
        | false =>
          obtain ⟨s', hs', heof'⟩ := readLoop_file (s := s) hn content (hrounds _ List.mem_cons_self)
          exact ⟨_, s', hs', heof'⟩
    obtain ⟨done', s', hs', heof'⟩ := hstep
    rw [readFiles, hs', Option.bind_some]
    exact ih heof' (fun src hsrc => hbroken src (List.mem_cons_of_mem _ hsrc))
      fun src hsrc => hrounds src (List.mem_cons_of_mem _ hsrc)

theorem readFiles_broken {src : Source α} (hsrc : src ∈ srcs) (hbroken : src.Broken) :
    readFiles n rounds s srcs done = none := by
  induction srcs generalizing s done with
  | nil => exact absurd hsrc List.not_mem_nil
  | cons head srcs ih =>
    rw [readFiles, Option.bind_eq_none_iff]
    intro r hr
    rcases List.mem_cons.1 hsrc with rfl | htail
    · obtain ⟨content, rfl⟩ := hbroken
      rw [readLoop_file_broken] at hr
      exact absurd hr (by simp)
    · exact ih htail

/-- **A loop over files comes to its end exactly when the first can be opened and none is broken.** -/
theorem readFiles_isSome_iff (hn : 0 < n) (heof : s.eofbit = false) :
    (∃ rounds r, readFiles n rounds s srcs done = some r) ↔
      srcs.head? ≠ some .missing ∧ ∀ src ∈ srcs, ¬src.Broken := by
  constructor
  · rintro ⟨rounds, r, hr⟩
    constructor
    · intro hmissing
      obtain ⟨tail, rfl⟩ := List.head?_eq_some_iff.1 hmissing
      rw [readFiles, readLoop_missing heof] at hr
      exact absurd hr (by simp)
    · intro src hsrc hbroken
      rw [readFiles_broken hsrc hbroken] at hr
      exact absurd hr (by simp)
  · rintro ⟨hfirst, hbroken⟩
    refine ⟨(srcs.map Source.size).sum + 2, ?_⟩
    have hrounds : ∀ src ∈ srcs, src.size + 1 < (srcs.map Source.size).sum + 2 := by
      intro src hsrc
      have hle := List.single_le_sum (fun _ _ => Nat.zero_le _) _ (List.mem_map_of_mem (f := Source.size) hsrc)
      omega
    cases srcs with
    | nil => exact ⟨_, rfl⟩
    | cons src srcs =>
      cases src with
      | missing => exact absurd rfl hfirst
      | file content broken =>
        cases broken with
        | true => exact absurd ⟨content, rfl⟩ (hbroken _ List.mem_cons_self)
        | false =>
          obtain ⟨s', hs', heof'⟩ := @readLoop_file _ n s done hn content _ (hrounds _ List.mem_cons_self)
          rw [readFiles, hs', Option.bind_some]
          exact readFiles_eof hn heof' (fun src hsrc => hbroken src (List.mem_cons_of_mem _ hsrc))
            fun src hsrc => hrounds src (List.mem_cons_of_mem _ hsrc)

end

end InStream

end Store
