import Mathlib.Data.List.Basic
import Mathlib.Tactic.Common

set_option autoImplicit false

/-! # Words of the protocol

What `http::protocol` reads from a header, `content_type::parse`, and the headers of a part of
`multipart/form-data`. A position in a text is the rest of it. -/

namespace Cppcms

namespace Protocol

/-- `protocol::separator` -/
def separator (c : Char) : Bool :=
  ['(', ')', '<', '>', '@', ',', ';', ':', '\\', '"', '/', '[', ']', '?', '=', '\x7b', '\x7d', ' ', '\t'].contains c

/-- `protocol::ascii_to_lower` -/
def asciiToLower (c : Char) : Char :=
  if 'A'.toNat ≤ c.toNat ∧ c.toNat ≤ 'Z'.toNat then Char.ofNat (c.toNat + 32) else c

def lower (l : List Char) : List Char := l.map asciiToLower

/-- `protocol::skip_ws` -/
def skipWs : List Char → List Char
  | '\r' :: '\n' :: c :: rest => if c = ' ' ∨ c = '\t' then skipWs rest else '\r' :: '\n' :: c :: rest
  | c :: rest => if c = ' ' ∨ c = '\t' then skipWs rest else c :: rest
  | [] => []

/-- A letter of `protocol::tocken`. -/
def tockenChar (c : Char) : Bool := 0x20 ≤ c.toNat && c.toNat ≤ 0x7E && !separator c

/-- `protocol::tocken`: the word, and what stands behind it. -/
def tocken (l : List Char) : List Char × List Char := l.span tockenChar

/-- The loop of `protocol::unquote`. -/
def unquoteLoop : List Char → Option (List Char × List Char)
  | [] => none
  | '"' :: rest => some ([], rest)
  | '\\' :: c :: rest => (unquoteLoop rest).map (fun x => (c :: x.1, x.2))
  | c :: rest => (unquoteLoop rest).map (fun x => (c :: x.1, x.2))

/-- `protocol::unquote`, which moves on only behind the closing quote. -/
def unquote : List Char → Option (List Char × List Char)
  | '"' :: rest => unquoteLoop rest
  | _ => none

/-- `protocol::compare(left,right) == 0` -/
def same (left right : List Char) : Bool := lower left = lower right

end Protocol

open Protocol

/-! ## Media types -/

/-- `http::content_type` -/
structure ContentType where
  mediaType : List Char := []
  parameters : List (List Char × List Char) := []
deriving DecidableEq

namespace ContentType

/-- A value of a parameter: a word or a quoted text. -/
def value (l : List Char) : Option (List Char × List Char) :=
  match l with
  | '"' :: _ => unquote l
  | _ => if (tocken l).1 = [] then none else some (tocken l)

/-- The loop of `content_type::parse` over the parameters; the first of a name counts. -/
def parseParameters : Nat → List Char → List (List Char × List Char)
  | 0, _ => []
  | n + 1, l =>
      match skipWs l with
      | ';' :: rest =>
          if (tocken (skipWs rest)).1 = [] then []
          else match skipWs (tocken (skipWs rest)).2 with
            | '=' :: rest' => match value (skipWs rest') with
                | none => []
                | some (v, behind) => (lower (tocken (skipWs rest)).1, v) :: parseParameters n behind
            | _ => []
      | _ => []

/-- `content_type::parse` -/
def parse (l : List Char) : ContentType :=
  let type := tocken (skipWs l)
  if type.1 = [] then {}
  else match type.2 with
    | '/' :: rest =>
        let subtype := tocken rest
        if subtype.1 = [] then {}
        else ⟨lower type.1 ++ '/' :: lower subtype.1, parseParameters subtype.2.length subtype.2⟩
    | _ => {}

/-- `content_type::parameter_by_key` -/
def parameterByKey (t : ContentType) (key : List Char) : List Char := (t.parameters.lookup key).getD []

end ContentType

/-! ## The headers of a part -/

/-- `http::file`: a field of a form or a file; `mime` is set for files only. -/
structure HttpFile where
  name : List Char := []
  filename : List Char := []
  mime : List Char := []
  data : List Char := []
deriving DecidableEq

namespace HttpFile

/-- `file::has_mime` -/
def hasMime (f : HttpFile) : Bool := f.mime ≠ []

def write (f : HttpFile) (l : List Char) : HttpFile := { f with data := f.data ++ l }

/-- `multipart_parser::parse_pair`: the name, the value, and what stands behind them. -/
def parsePair : List Char → Option (List Char × List Char × List Char)
  | ';' :: l =>
      match tocken (skipWs l) with
      | (name, '=' :: rest) =>
          if name = [] then none
          else (ContentType.value (skipWs rest)).map (fun x => (name, x.1, x.2))
      | _ => none
  | _ => none

/-- The loop of `multipart_parser::parse_content_disposition`; every turn takes some letters. -/
def parseDisposition : Nat → HttpFile → List Char → Option HttpFile
  | _, f, [] => some f
  | 0, _, _ => none
  | n + 1, f, l =>
      match parsePair l with
      | none => none
      | some (name, value, rest) =>
          let f := if lower name = "filename".toList then { f with filename := value }
            else if lower name = "name".toList then { f with name := value } else f
          parseDisposition n f (skipWs rest)

/-- `multipart_parser::parse_content_disposition` -/
def parseContentDisposition (f : HttpFile) (l : List Char) : Option HttpFile :=
  parseDisposition l.length f (skipWs l)

/-- One header of `multipart_parser::process_header`. -/
def processLine (f : HttpFile) (line : List Char) : Option HttpFile :=
  let name := tocken (skipWs line)
  match skipWs name.2 with
  | ':' :: rest =>
      if same name.1 "Content-Disposition".toList then
        if same (tocken (skipWs rest)).1 "form-data".toList then
          parseContentDisposition f (tocken (skipWs rest)).2
        else none
      else if same name.1 "Content-Type".toList then
        some { f with mime := (ContentType.parse (skipWs rest)).mediaType }
      else some f
  | _ => none

/-- `hdr.find("\\r\\n",pos)`: a line, and what stands behind its end. -/
def nextLine : List Char → Option (List Char × List Char)
  | [] => none
  | '\r' :: '\n' :: rest => some ([], rest)
  | c :: rest => (nextLine rest).map (fun x => (c :: x.1, x.2))

/-- The loop of `multipart_parser::process_header`; every turn takes a line. -/
def processLines : Nat → HttpFile → List Char → Option HttpFile
  | 0, _, _ => none
  | n + 1, f, hdr =>
      match nextLine hdr with
      | none => none
      | some ([], _) => some f
      | some (line, rest) =>
          match processLine f line with
          | none => none
          | some f => processLines n f rest

/-- `multipart_parser::process_header` -/
def processHeader (f : HttpFile) (hdr : List Char) : Option HttpFile := processLines hdr.length f hdr

end HttpFile

end Cppcms
