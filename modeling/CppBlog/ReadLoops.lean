import CppBlog.Apps.Transfer
import CppBlog.Store.Stream

set_option autoImplicit false

/-! # The read loops of an upload

`upload::prepare` reads a file, or its parts through one stream, `while(!ifs.eof())`. Another request may
remove a file before it is opened, and a read may fail: here is when the loops come to an end. -/

namespace CppBlog

open Effect Store

namespace Upload

/-- `char buffer[2048]` -/
def bufferSize : Nat := 2048

/-- The loop over a file that was posted in one piece. -/
def wholeLoop (rounds : Nat) (src : Source UInt8) : Option (List UInt8) :=
  (InStream.readLoop bufferSize rounds (InStream.openFile {} src) []).map Prod.fst

/-- The loop over the parts, with what stands behind the name of each when it is opened. -/
def partsLoop (rounds : Nat) (srcs : List (Source UInt8)) : Option (List UInt8) :=
  (InStream.readFiles bufferSize rounds {} srcs []).map Prod.fst

/-- What stands behind a name; a directory can be opened and not be read. -/
def source : Option Node → Source UInt8
  | none => .missing
  | some .dir => .file [] true
  | some (.file content _) => .file content false

/-- The loop reads a whole file and nothing else. -/
theorem wholeLoop_iff {src : Source UInt8} {content : List UInt8} :
    (∃ rounds, wholeLoop rounds src = some content) ↔ src = .file content false := by
  have hstarts : (({} : InStream UInt8)).eofbit = false := rfl
  constructor
  · rintro ⟨rounds, hloop⟩
    unfold wholeLoop at hloop
    cases src with
    | missing =>
      rw [InStream.readLoop_missing hstarts] at hloop
      exact absurd hloop (by simp)
    | file content' broken =>
      cases broken with
      | true =>
        rw [InStream.readLoop_file_broken] at hloop
        exact absurd hloop (by simp)
      | false =>
        obtain ⟨r, hr, rfl⟩ := Option.map_eq_some_iff.1 hloop
        obtain ⟨s', hs', -⟩ := @InStream.readLoop_file _ bufferSize {} [] (by decide) content' _
          (Nat.lt_succ_self (content'.length + 1))
        have hmore := InStream.readLoop_mono (Nat.le_add_right rounds (content'.length + 2)) hr
        have hmore' := InStream.readLoop_mono (Nat.le_add_left (content'.length + 2) rounds) hs'
        obtain rfl := Option.some.inj (hmore.symm.trans hmore')
        rfl
  · rintro rfl
    obtain ⟨s', hs', -⟩ := @InStream.readLoop_file _ bufferSize {} [] (by decide) content _
      (Nat.lt_succ_self (content.length + 1))
    exact ⟨_, by rw [wholeLoop, hs', List.nil_append, Option.map_some]⟩

/-- **A file that is only there for one request is read as the loop reads it.** -/
theorem wholeLoop_read (fs : Files) (path : String) (content : List UInt8) :
    (∃ rounds, wholeLoop rounds (source (fs.find (resolve path))) = some content) ↔
      fs.read path = some content := by
  rw [wholeLoop_iff, Files.read]
  cases fs.find (resolve path) with
  | none => simp [source]
  | some node => cases node <;> simp [source]

end Upload

/-- **The loop over a file ends exactly when the file can be opened and read, the loop over the parts exactly
when the first part can be opened and no part that can be opened fails to be read.** -/
theorem read_loops_end_iff (src : Source UInt8) (parts : List (Source UInt8)) :
    ((∃ rounds content, Upload.wholeLoop rounds src = some content) ↔ src.Whole) ∧
      ((∃ rounds content, Upload.partsLoop rounds parts = some content) ↔
        parts.head? ≠ some .missing ∧ ∀ part ∈ parts, ¬part.Broken) := by
  constructor
  · rw [exists_comm]
    exact exists_congr fun content => Upload.wholeLoop_iff
  · rw [← @InStream.readFiles_isSome_iff _ Upload.bufferSize {} [] parts (by decide) rfl]
    refine exists_congr fun rounds => ?_
    rw [Upload.partsLoop]
    cases InStream.readFiles Upload.bufferSize rounds {} parts [] <;> simp

/-- A file that another request has removed is read forever. -/
theorem not_read_loops_end : ¬∀ (src : Source UInt8) (parts : List (Source UInt8)),
    (∃ rounds content, Upload.wholeLoop rounds src = some content) ∧
      ∃ rounds content, Upload.partsLoop rounds parts = some content := by
  intro h
  obtain ⟨⟨rounds, content, hloop⟩, -⟩ := h .missing []
  rw [Upload.wholeLoop, InStream.readLoop_missing rfl] at hloop
  exact absurd hloop (by simp)

end CppBlog
