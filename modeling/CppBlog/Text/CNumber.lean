import Mathlib.Data.Int.Basic
import Mathlib.Data.Nat.Digits.Defs
import Mathlib.Tactic.Common

set_option autoImplicit false

/-! # Decimal numbers as the C library reads them

`strtol` skips white space, takes an optional sign and as many decimal digits as follow, and stays at
the ends of the 64-bit range when the number is larger; `atol` is that value and `atoi` is its low
32 bits read as a signed number. -/

namespace Text

/-- The white space of the C locale. -/
def isSpace (c : Char) : Bool :=
  c = ' ' || c = '\t' || c = '\n' || c = '\r' || c = '\x0b' || c = '\x0c'

def isDigit (c : Char) : Bool := '0' ≤ c && c ≤ '9'

def digitVal (c : Char) : Nat := c.toNat - '0'.toNat

/-- The number written by the leading digits, continued from `acc`. -/
def readDigits (acc : Nat) : List Char → Nat
  | [] => acc
  | c :: s => if isDigit c then readDigits (10 * acc + digitVal c) s else acc

/-- Keep a number in the range of a 64-bit `long`. -/
def clampLong (x : Int) : Int := max (-(2 ^ 63)) (min x (2 ^ 63 - 1))

def strtol (s : List Char) : Int :=
  match s.dropWhile isSpace with
  | '-' :: t => clampLong (-(readDigits 0 t))
  | '+' :: t => clampLong (readDigits 0 t)
  | t => clampLong (readDigits 0 t)

/-- The low 32 bits of a number as a signed `int`. -/
def toInt32 (x : Int) : Int := x.bmod (2 ^ 32)

def atol (s : String) : Int := strtol s.toList

def atoi (s : String) : Int := toInt32 (strtol s.toList)

/-- `ss >> n` for an `int` that leaves the stream at its end: a number with an optional sign, within 32
    bits and with nothing behind it. -/
def readInt? (s : String) : Option Int :=
  let (neg, digits) := match s.toList.dropWhile isSpace with
    | '-' :: t => (true, t)
    | '+' :: t => (false, t)
    | t => (false, t)
  let n : Int := if neg then -(readDigits 0 digits) else readDigits 0 digits
  if digits ≠ [] ∧ digits.all isDigit ∧ -(2 ^ 31) ≤ n ∧ n < 2 ^ 31 then some n else none

/-! ## Reading what was printed -/

theorem isDigit_eq (c : Char) : isDigit c = c.isDigit := by
  simp only [isDigit, Char.isDigit, Char.le_def]

/-- On digits alone the loop is the positional value. -/
theorem readDigits_eq_ofDigitChars {s : List Char} (hs : ∀ c ∈ s, isDigit c = true) (acc : Nat) :
    readDigits acc s = Nat.ofDigitChars 10 s acc := by
  induction s generalizing acc with
  | nil => rfl
  | cons c s ih =>
      rw [readDigits, if_pos (hs c List.mem_cons_self),
        ih (fun x hx => hs x (List.mem_cons_of_mem c hx)), Nat.ofDigitChars_cons]
      rfl

theorem isDigit_of_mem_toDigits {n : Nat} {c : Char} (h : c ∈ Nat.toDigits 10 n) :
    isDigit c = true := by
  rw [isDigit_eq]
  exact Nat.isDigit_of_mem_toDigits (by decide) (by decide) h

theorem readDigits_toDigits (n : Nat) : readDigits 0 (Nat.toDigits 10 n) = n := by
  rw [readDigits_eq_ofDigitChars fun _ => isDigit_of_mem_toDigits]
  exact Nat.ofDigitChars_toDigits (by decide) (by decide)

/-- A digit is neither white space nor a sign. -/
theorem not_isSpace_of_isDigit {c : Char} (hc : isDigit c = true) :
    isSpace c = false ∧ c ≠ '-' ∧ c ≠ '+' := by
  refine ⟨?_, by rintro rfl; exact absurd hc (by decide), by rintro rfl; exact absurd hc (by decide)⟩
  cases h : isSpace c with
  | false => rfl
  | true =>
      simp only [isSpace, Bool.or_eq_true, decide_eq_true_eq] at h
      rcases h with ((((rfl | rfl) | rfl) | rfl) | rfl) | rfl <;> exact absurd hc (by decide)

/-- On digits `strtol` sees neither white space nor a sign. -/
theorem strtol_of_digits {s : List Char} (hs : ∀ c ∈ s, isDigit c = true) :
    strtol s = clampLong (readDigits 0 s) := by
  cases s with
  | nil => rfl
  | cons c s =>
      obtain ⟨hspace, hminus, hplus⟩ := not_isSpace_of_isDigit (hs c List.mem_cons_self)
      rw [strtol, List.dropWhile_cons_of_neg (by simp [hspace])]
      split
      · next h => exact absurd (List.cons.inj h).1 hminus
      · next h => exact absurd (List.cons.inj h).1 hplus
      · rfl

theorem toString_natCast_toList (n : Nat) : (toString (n : Int)).toList = Nat.toDigits 10 n :=
  (congrArg String.toList Nat.repr_eq_ofList_toDigits).trans String.toList_ofList

/-- **Printing a row number and reading it back.** -/
theorem atoi_toString {i : Int} (h0 : 0 ≤ i) (h : i ≤ 2147483647) : atoi (toString i) = i := by
  obtain ⟨n, rfl⟩ := Int.eq_ofNat_of_zero_le h0
  rw [atoi, toString_natCast_toList, strtol_of_digits fun _ => isDigit_of_mem_toDigits, readDigits_toDigits]
  have hclamp : clampLong (n : Int) = n := by
    unfold clampLong
    omega
  rw [hclamp, toInt32]
  exact Int.bmod_eq_of_le (by omega) (by omega)

/-- A session reads a row number as it was printed. -/
theorem readInt?_toString {i : Int} (h0 : 0 ≤ i) (h : i ≤ 2147483647) : readInt? (toString i) = some i := by
  obtain ⟨n, rfl⟩ := Int.eq_ofNat_of_zero_le h0
  have hdigits (c : Char) (hc : c ∈ Nat.toDigits 10 n) : isDigit c = true := isDigit_of_mem_toDigits hc
  have hread := readDigits_toDigits n
  obtain ⟨c, t, hct⟩ := List.exists_cons_of_ne_nil (Nat.toDigits_ne_nil (b := 10) (n := n))
  rw [hct] at hread hdigits
  obtain ⟨hspace, hminus, hplus⟩ := not_isSpace_of_isDigit (hdigits c List.mem_cons_self)
  rw [readInt?, toString_natCast_toList, hct, List.dropWhile_cons_of_neg (by simp [hspace])]
  split
  rename_i neg digits hmatch
  split at hmatch
  · next h => exact absurd (List.cons.inj h).1 hminus
  · next h => exact absurd (List.cons.inj h).1 hplus
  · obtain ⟨rfl, rfl⟩ := Prod.mk.inj hmatch
    rw [hread]
    exact if_pos ⟨by simp, List.all_eq_true.2 hdigits, by omega, by omega⟩

/-! ## Numbers in front of a text -/

/-- A text that does not go on with a digit. -/
def NoDigit (s : List Char) : Prop := ∀ c ∈ s.head?, isDigit c = false

theorem readDigits_append {s t : List Char} (hs : ∀ c ∈ s, isDigit c = true) (ht : NoDigit t)
    (acc : Nat) : readDigits acc (s ++ t) = readDigits acc s := by
  induction s generalizing acc with
  | nil =>
    cases t with
    | nil => rfl
    | cons c t =>
      have hc : isDigit c = false := ht c rfl
      simp [readDigits, hc]
  | cons c s ih =>
    have hc := hs c List.mem_cons_self
    simp only [List.cons_append, readDigits, hc, if_true]
    exact ih (fun x hx => hs x (List.mem_cons_of_mem c hx)) _

theorem toDigits_append_inj {m n : Nat} {s t : List Char} (hs : NoDigit s) (ht : NoDigit t)
    (h : Nat.toDigits 10 m ++ s = Nat.toDigits 10 n ++ t) : m = n ∧ s = t := by
  have hnum := congrArg (readDigits 0) h
  rw [readDigits_append (fun _ => isDigit_of_mem_toDigits) hs,
    readDigits_append (fun _ => isDigit_of_mem_toDigits) ht, readDigits_toDigits,
    readDigits_toDigits] at hnum
  subst hnum
  exact ⟨rfl, List.append_cancel_left h⟩

theorem toString_negSucc_toList (n : Nat) :
    (toString (Int.negSucc n)).toList = '-' :: Nat.toDigits 10 (n + 1) := by
  have hneg : toString (Int.negSucc n) = "-" ++ Nat.repr (n + 1) := rfl
  rw [hneg, String.toList_append, Nat.repr_eq_ofList_toDigits]
  exact congrArg ('-' :: ·) String.toList_ofList

theorem toDigits_ne_minus (n : Nat) (s t : List Char) : Nat.toDigits 10 n ++ s ≠ '-' :: t := by
  intro h
  cases hd : Nat.toDigits 10 n with
  | nil => exact absurd hd (List.ne_nil_of_length_pos Nat.length_toDigits_pos)
  | cons c l =>
    rw [hd] at h
    obtain ⟨rfl, -⟩ := List.cons.inj h
    exact absurd (isDigit_of_mem_toDigits (n := n) (hd ▸ List.mem_cons_self)) (by decide)

/-- **A number and the text behind it can be told apart.** -/
theorem toString_append_inj {i j : Int} {s t : List Char} (hs : NoDigit s) (ht : NoDigit t)
    (h : (toString i).toList ++ s = (toString j).toList ++ t) : i = j ∧ s = t := by
  cases i with
  | ofNat m =>
    cases j with
    | ofNat n =>
      rw [Int.ofNat_eq_natCast, Int.ofNat_eq_natCast, toString_natCast_toList,
        toString_natCast_toList] at h
      obtain ⟨rfl, hst⟩ := toDigits_append_inj hs ht h
      exact ⟨rfl, hst⟩
    | negSucc n =>
      rw [Int.ofNat_eq_natCast, toString_natCast_toList, toString_negSucc_toList] at h
      exact absurd h (toDigits_ne_minus _ _ _)
  | negSucc m =>
    cases j with
    | ofNat n =>
      rw [Int.ofNat_eq_natCast, toString_natCast_toList, toString_negSucc_toList] at h
      exact absurd h.symm (toDigits_ne_minus _ _ _)
    | negSucc n =>
      rw [toString_negSucc_toList, toString_negSucc_toList] at h
      obtain ⟨hmn, hst⟩ := toDigits_append_inj hs ht (List.cons.inj h).2
      exact ⟨by rw [Nat.succ.inj hmn], hst⟩

theorem mem_toString_int {i : Int} {c : Char} (h : c ∈ (toString i).toList) :
    isDigit c = true ∨ c = '-' := by
  cases i with
  | ofNat n =>
    rw [Int.ofNat_eq_natCast, toString_natCast_toList] at h
    exact .inl (isDigit_of_mem_toDigits h)
  | negSucc n =>
    rw [toString_negSucc_toList] at h
    rcases List.mem_cons.1 h with h | h
    · exact .inr h
    · exact .inl (isDigit_of_mem_toDigits h)

theorem toString_int_injective {i j : Int} (h : toString i = toString j) : i = j := by
  have hnil : NoDigit [] := by simp [NoDigit]
  exact (toString_append_inj hnil hnil (congrArg (fun s => s.toList ++ []) h)).1

end Text
