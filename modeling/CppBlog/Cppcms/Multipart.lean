import CppBlog.Cppcms.Protocol
import CppBlog.Text.Needle

set_option autoImplicit false

/-! # Receiving a form with files

`multipart_parser` and the part of `http::request` that feeds it with what comes from the connection. The
parser is called with whatever was read, so it keeps its place between two calls; the answer does not depend
on where the body was split. -/

namespace Cppcms

/-- `multipart_parser::states_type` -/
inductive Expecting where
  | firstBoundary
  | oneCrlfOrEof
  | minus
  | eofCr
  | eofLf
  | lf
  | crlfcrlf
  | separatorBoundary
deriving DecidableEq

/-- `multipart_parser` -/
structure MultipartParser where
  state : Expecting := .firstBoundary
  position : Nat := 0
  header : List Char := []
  boundary : List Char
  file : HttpFile := {}
  files : List HttpFile := []
  fileIsReady : Bool := false
deriving DecidableEq

/-- `multipart_parser::parsing_result_type`; no write to a file fails. -/
inductive ParsingResult where
  | parsingError
  | metaReady
  | contentPartial
  | contentReady
  | continueInput
  | eof
deriving DecidableEq

namespace MultipartParser

/-- The word that ends the headers. -/
def crlfcrlfWord : List Char := ['\r', '\n', '\r', '\n']

/-- `multipart_parser::set_content_type`; the line end in front of the first boundary does not appear. -/
def setContentType (t : ContentType) : Option MultipartParser :=
  let bkey := t.parameterByKey "boundary".toList
  if bkey = [] then none else some { boundary := ['\r', '\n', '-', '-'] ++ bkey, position := 2 }

/-- What one letter does: it is refused, it is taken, or it ends the headers, the content or the body. -/
inductive Taken where
  | refused
  | next (p : MultipartParser)
  | headers (p : MultipartParser)
  | content (p : MultipartParser)
  | body (p : MultipartParser)

/-- A letter of the headers. -/
def takeHeader (p : MultipartParser) (c : Char) : Taken :=
  let p := { p with
    header := p.header ++ [c]
    position := if crlfcrlfWord[p.position]? = some c then p.position + 1 else 0 }
  if p.position = crlfcrlfWord.length then
    match p.file.processHeader p.header with
    | none => .refused
    | some f => .headers { p with
        file := f, header := [], position := 0, state := .separatorBoundary, fileIsReady := true }
  else .next p

/-- A letter of the content: what agrees with the boundary is held back, and written where it stops to. -/
def takeContent (p : MultipartParser) (c : Char) : Taken :=
  let p :=
    if p.boundary[p.position]? = some c then { p with position := p.position + 1 }
    else if 0 < p.position then { p with
      file := p.file.write (p.boundary.take p.position)
      position := if p.boundary.head? = some c then 1 else 0 }
    else p
  if p.position = 0 then .next { p with file := p.file.write [c] }
  else if p.position = p.boundary.length then
    .content { p with
      state := .oneCrlfOrEof, position := 0, files := p.files ++ [p.file], file := {}, fileIsReady := false }
  else .next p

/-- One turn of the loop of `multipart_parser::consume`. -/
def take (p : MultipartParser) (c : Char) : Taken :=
  match p.state with
  | .firstBoundary =>
      if p.boundary[p.position]? ≠ some c then .refused
      else if p.position + 1 = p.boundary.length then .next { p with state := .oneCrlfOrEof, position := 0 }
      else .next { p with position := p.position + 1 }
  | .oneCrlfOrEof =>
      if c = '\r' then .next { p with state := .lf }
      else if c = '-' then .next { p with state := .minus }
      else .refused
  | .minus => if c = '-' then .next { p with state := .eofCr } else .refused
  | .eofCr => if c = '\r' then .next { p with state := .eofLf } else .refused
  | .eofLf => if c = '\n' then .body p else .refused
  | .lf => if c = '\n' then .next { p with state := .crlfcrlf } else .refused
  | .crlfcrlf => p.takeHeader c
  | .separatorBoundary => p.takeContent c

/-- `multipart_parser::consume`, with what it left of the buffer. -/
def consume (p : MultipartParser) : List Char → MultipartParser × ParsingResult × List Char
  | [] => (p, if p.fileIsReady then .contentPartial else .continueInput, [])
  | c :: rest =>
      match p.take c with
      | .refused => (p, .parsingError, c :: rest)
      | .next p => p.consume rest
      | .headers p => (p, .metaReady, rest)
      | .content p => (p, .contentReady, rest)
      | .body p => if rest = [] then (p, .eof, []) else (p, .parsingError, rest)

end MultipartParser

/-! ## Reading the body -/

/-- `request::size_ok` -/
def HttpFile.sizeOk (allowed : Nat) (f : HttpFile) : Bool := f.hasMime || f.data.length ≤ allowed

/-- What a request keeps of its body: the parser and `read_size`. -/
structure Receiving where
  parser : MultipartParser
  readSize : Nat := 0

namespace Receiving

open MultipartParser

/-- The loop of `request::on_content_progress`; every turn takes some of the buffer. -/
def progress (allowed contentLength readSize : Nat) :
    Nat → MultipartParser → ParsingResult → List Char → Except Nat (MultipartParser × ParsingResult)
  | _, p, r, [] => .ok (p, r)
  | 0, p, r, _ => .ok (p, r)
  | n + 1, p, _, buffer =>
      match p.consume buffer with
      | (p, .metaReady, rest) => progress allowed contentLength readSize n p .metaReady rest
      | (p, .contentPartial, rest) =>
          if p.file.sizeOk allowed then progress allowed contentLength readSize n p .contentPartial rest
          else .error 413
      | (p, .contentReady, rest) =>
          if (p.files.getLast?.getD {}).sizeOk allowed then
            progress allowed contentLength readSize n p .contentReady rest
          else .error 413
      | (p, .continueInput, rest) => progress allowed contentLength readSize n p .continueInput rest
      | (p, .eof, rest) =>
          if rest ≠ [] then .error 400
          else if readSize ≠ contentLength then .error 400
          else progress allowed contentLength readSize n p .eof rest
      | (_, .parsingError, _) => .error 400

/-- `request::on_content_progress` -/
def onContentProgress (allowed contentLength : Nat) (s : Receiving) (chunk : List Char) : Except Nat Receiving :=
  if chunk = [] then .ok s
  else
    let readSize := s.readSize + chunk.length
    match progress allowed contentLength readSize chunk.length s.parser .continueInput chunk with
    | .error code => .error code
    | .ok (p, r) =>
        if readSize = contentLength ∧ r ≠ .eof then .error 400 else .ok ⟨p, readSize⟩

/-- The calls for what is read from the connection, one after the other. -/
def receive (allowed contentLength : Nat) (s : Receiving) : List (List Char) → Except Nat Receiving
  | [] => .ok s
  | chunk :: chunks =>
      match s.onContentProgress allowed contentLength chunk with
      | .error code => .error code
      | .ok s => s.receive allowed contentLength chunks

end Receiving

/-- What a request takes from the parts: the fields of the form, and the files. -/
def formOf (files : List HttpFile) : List (List Char × List Char) × List HttpFile :=
  ((files.filter (fun f => !f.hasMime)).map (fun f => (f.name, f.data)), files.filter HttpFile.hasMime)

end Cppcms
