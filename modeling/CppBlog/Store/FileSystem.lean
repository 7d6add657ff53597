import Mathlib.Data.List.Basic
import Mathlib.Tactic.Common

set_option autoImplicit false

/-! # A file system without links

Files and directories under paths. A path is resolved lexically: it ends at the first NUL, empty and
`.` components are skipped and `..` takes back one component; a leading slash makes it absolute. -/

namespace Store

/-- An entry of the file system. -/
inductive Node where
  | dir
  | file (content : List UInt8) (mtime : Nat)
deriving DecidableEq

/-- A resolved path; an absolute one starts with an empty component. -/
abbrev Path := List (List Char)

/-- The parts of a text between slashes. -/
def splitSlash : List Char → List (List Char)
  | [] => [[]]
  | c :: s =>
      if c = '/' then [] :: splitSlash s
      else match splitSlash s with
        | [] => [[c]]
        | w :: ws => (c :: w) :: ws

/-- One component, put after the path resolved so far (in reverse). -/
def pushComponent (done : Path) (w : List Char) : Path :=
  if w = [] ∨ w = ['.'] then done
  else if w = ['.', '.'] then
    match done with
    | [] => [w]
    | [] :: _ => done
    | v :: rest => if v = ['.', '.'] then w :: done else rest
  else w :: done

/-- Resolve a path text. -/
def resolve (p : String) : Path :=
  let cs := p.toList.takeWhile (· ≠ '\x00')
  ((splitSlash cs).foldl pushComponent (if cs.head? = some '/' then [[]] else [])).reverse

/-- The file system, by path. -/
abbrev Files := List (Path × Node)

namespace Files

def find (fs : Files) (p : Path) : Option Node := (fs.find? (fun x => x.1 = p)).map Prod.snd

/-- `access(path,F_OK) == 0`, `lstat(path) == 0` -/
def pathExists (fs : Files) (p : String) : Bool := (fs.find (resolve p)).isSome

/-- Whether a file can be made at a path: the directory it is in is there. -/
def hasParent (fs : Files) (p : Path) : Bool :=
  p.length ≤ 1 || fs.find p.dropLast = some .dir

def remove (fs : Files) (p : Path) : Files := fs.filter (fun x => x.1 ≠ p)

def put (fs : Files) (p : Path) (n : Node) : Files := (p, n) :: fs.remove p

/-- The bytes of a file. -/
def read (fs : Files) (p : String) : Option (List UInt8) :=
  match fs.find (resolve p) with
  | some (.file content _) => some content
  | _ => none

/-- `mkdir(path,mode) == 0` -/
def mkdir (fs : Files) (p : String) : Bool × Files :=
  if !fs.pathExists p && fs.hasParent (resolve p) then (true, fs.put (resolve p) .dir)
  else (false, fs)

/-- Open a file for writing, which empties it; `false` when it cannot be opened. -/
def create (fs : Files) (p : String) (content : List UInt8) (now : Nat) : Bool × Files :=
  if fs.hasParent (resolve p) && fs.find (resolve p) ≠ some .dir then
    (true, fs.put (resolve p) (.file content now))
  else (false, fs)

/-- Write bytes at an offset of a file; without the file nothing is written. -/
def writeAt (fs : Files) (p : String) (offset : Nat) (bytes : List UInt8) (now : Nat) : Files :=
  match fs.read p with
  | none => fs
  | some content =>
      fs.put (resolve p) (.file (content.take offset ++ bytes ++ content.drop (offset + bytes.length))
        now)

/-- `rename(src,dst)` -/
def rename (fs : Files) (src dst : String) : Files :=
  match fs.find (resolve src) with
  | none => fs
  | some n => (fs.remove (resolve src)).put (resolve dst) n

/-- `unlink(path)` -/
def unlink (fs : Files) (p : String) : Files :=
  match fs.find (resolve p) with
  | some (.file _ _) => fs.remove (resolve p)
  | _ => fs

end Files

example : resolve "..//media/./a/../b" = resolve "../media/b" := by decide

end Store
