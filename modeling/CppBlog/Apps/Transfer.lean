import CppBlog.Apps.Master

set_option autoImplicit false

/-! # Files: media, downloads and uploads

`apps::media`, `apps::blog::download` and `apps::admin::upload`. -/

namespace CppBlog

open Effect Store App

/-! ## Numbers in texts -/

/-- `std::hex << n` for an unsigned number -/
def toHexNumber (n : Nat) : String := String.ofList (Nat.toDigits 16 n)

/-- A 64-bit number, read as signed. -/
def toInt64 (x : Int) : Int := x.bmod (2 ^ 64)

/-- A 64-bit number, read as unsigned. -/
def toSize (x : Int) : Nat := (x % 2 ^ 64).toNat

/-- `s.substr(pos,n)`; past the end it throws `std::out_of_range`. -/
def substr (s : String) (pos n : Nat) : App String :=
  if s.length < pos then .throw .outOfRange else .ret (String.ofList ((s.toList.drop pos).take n))

/-- `s.substr(s.rfind("."))` -/
def extension (s : String) : App String :=
  if '.' ∈ s.toList then
    .ret (String.ofList ('.' :: (s.toList.reverse.takeWhile (· ≠ '.')).reverse))
  else .throw .outOfRange

/-! ## Sending a file -/

/-- `%lu` of `sscanf`: the number read and the rest of the text. -/
def scanUlong (s : List Char) : Option (Int × List Char) :=
  let t := s.dropWhile Text.isSpace
  let (neg, t) := match t with
    | '-' :: t => (true, t)
    | '+' :: t => (false, t)
    | t => (false, t)
  let digits := t.takeWhile Text.isDigit
  if digits = [] then none
  else
    let n : Int := Text.readDigits 0 digits
    let value := if 2 ^ 64 ≤ n then 2 ^ 64 - 1 else if neg then -n else n
    some (toInt64 value, t.dropWhile Text.isDigit)

/-- `sscanf(range,"bytes=%lu-%lu",&b,&e)` -/
def scanRange (range : String) (b e : Int) : Int × Int :=
  let w := "bytes=".toList
  if w.isPrefixOf range.toList then
    match scanUlong (range.toList.drop w.length) with
    | none => (b, e)
    | some (b, '-' :: rest) =>
        match scanUlong rest with
        | none => (b, e)
        | some (e, _) => (b, e)
    | some (b, _) => (b, e)
  else (b, e)

/-- Send a file from the offset the range asks for to its end. `show64` prints the offsets, which
    `media` holds signed and `download` unsigned; dates are given in seconds. -/
def sendFile (e : Env) (show64 : Int → String) (content : List UInt8) (mtime : Nat) : App Unit :=
  let size : Int := content.length
  let hasRange := !e.req.httpRange.isEmpty
  let be := if hasRange then scanRange e.req.httpRange 0 (size - 1) else (0, size - 1)
  let n := toInt64 (be.2 - be.1 + 1)
  (if hasRange then
      setHeader "Content-Range" ("bytes " ++ show64 be.1 ++ "-" ++ show64 be.2 ++ "/" ++ toString size)
    else .ret ()).bind fun _ =>
  (setHeader "Content-Length" (toString (toSize n))).bind fun _ =>
  (setHeader "Accept-Ranges" "bytes").bind fun _ =>
  (setHeader "Cache-Control" "max-age=604800").bind fun _ =>
  (setHeader "Date" (toString e.chance.now)).bind fun _ =>
  (setHeader "Age" "86400").bind fun _ =>
  (setHeader "Last-Modified" (toString mtime)).bind fun _ =>
  (setHeader "Expires" (toString (e.chance.now + 604800))).bind fun _ =>
  (setHeader "Vary" "Accept-Encoding").bind fun _ =>
  (setHeader "ETag" (toHexNumber content.length ++ "-" ++ toHexNumber mtime)).bind fun _ =>
  (if n ≠ size then modifyResponse (fun r => { r with status := 206 }) else .ret ()).bind fun _ =>
  -- a seek to a negative offset fails and leaves the stream at the start
  write (.file (if 0 ≤ be.1 then content.drop be.1.toNat else content))

/-- Look a file up and send it. -/
def serveFile (e : Env) (show64 : Int → String) (path : String) : App Unit :=
  (files (fun fs => (fs.find (resolve path), fs))).bind fun r =>
  match r with
  | none => makeErrorResponse 404
  | some .dir => sendFile e show64 [] 0
  | some (.file content mtime) => sendFile e show64 content mtime

namespace Media

/-- `media::mime_` -/
def mime : List (String × String) :=
  [(".swf", "application/x-shockwave-flash"), (".mp4", "video/mp4"), (".mpeg", "video/mpeg"),
   (".mpg", "video/mpeg"), (".mov", "video/quicktime"), (".qt", "video/quicktime"),
   (".avi", "video/x-msvideo"), (".asf", "video/x-ms-asf"), (".asx", "video/x-ms-asf"),
   (".wmv", "video/x-ms-wmv"), (".flv", "video/x-flv"), (".f4v", "video/x-f4v"),
   (".webm", "video/webm"), (".ogv", "video/ogg"), (".gif", "image/gif"), (".jpg", "image/jpeg"),
   (".jpeg", "image/jpeg"), (".png", "image/png"), (".bmp", "image/bmp"),
   (".svg", "image/svg+xml"), (".svgz", "image/svg+xml"), (".ico", "image/x-icon"),
   (".js", "text/javascript"), (".css", "text/css"), (".html", "text/html"), (".htm", "text/html"),
   (".txt", "text/plain"), (".csv", "text/csv"), (".gz", "application/x-gzip"),
   (".tgz", "application/x-tgz"), (".tar", "application/x-tar"), (".zip", "application/zip"),
   (".bz2", "application/x-bzip"), (".tbz", "application/x-bzip-compressed-tar"),
   (".rar", "application/x-rar-compressed"), (".7z", "application/x-7z-compressed"),
   (".cab", "application/vnd.ms-cab-compressed"), (".xz", "application/x-xz"),
   (".doc", "application/msword"),
   (".docx", "application/vnd.openxmlformats-officedocument.wordprocessingml.document"),
   (".xls", "application/vnd.ms-excel"),
   (".xlsx", "application/vnd.openxmlformats-officedocument.spreadsheetml.sheet"),
   (".ppt", "application/vnd.ms-powerpoint"),
   (".pptx", "application/vnd.openxmlformats-officedocument.presentationml.presentation"),
   (".pdf", "application/pdf")]

/-- The text without its trailing slashes; a text of slashes only stays. -/
def trimSlashes (s : String) : String :=
  if s.toList.all (· = '/') then s
  else String.ofList (s.toList.reverse.dropWhile (· = '/')).reverse

/-- `media::prepare` -/
def prepare (e : Env) (path : String) : App Unit :=
  if (findSub "..".toList path.toList).isSome then makeErrorResponse 404
  else
    let ext :=
      if '.' ∈ path.toList then
        String.ofList ('.' :: (path.toList.reverse.takeWhile (· ≠ '.')).reverse)
      else ""
    (setHeader "Content-Type" ((mime.lookup ext).getD "application/octet-stream")).bind fun _ =>
    serveFile e toString (trimSlashes e.settings.documentRoot ++ "/media" ++ "/" ++ path)

end Media

namespace Download

/-- The part of an upload's path that its hash and its size make, relative to the document root. -/
def uploadPath (e : Env) (md5 : String) (size : Nat) : App String :=
  (substr md5 0 2).bind fun a =>
  (substr md5 2 2).bind fun b =>
  (substr md5 4 md5.length).bind fun c =>
  .ret (e.settings.media ++ "/upload/" ++ a ++ "/" ++ b ++ "/" ++ c ++ "-" ++ toHexNumber size)

/-- Whether a name matches `^[0-9a-zA-Z-_\.]+$`. -/
def plainName (name : String) : Bool :=
  !name.isEmpty && name.toList.all (fun c => c.isAlphanum || c = '-' || c = '_' || c = '.')

/-- `cppcms::util::urlencode` -/
def urlencode (s : String) : String :=
  String.join (s.toUTF8.toList.map (fun b =>
    let c := Char.ofNat b.toNat
    if c.isAlphanum || c = '-' || c = '_' || c = '.' || c = '~' then c.toString
    else "%" ++ String.ofList [Nat.digitChar (b.toNat / 16), Nat.digitChar (b.toNat % 16)]))

/-- `download::prepare` -/
def prepare (e : Env) (md5 size name : String) : App Unit :=
  basicPrepare.bind fun _ =>
  (uploadPath e md5 (toSize (Text.atol size))).bind fun path =>
  (extension name).bind fun ext =>
  (setHeader "Content-Type" "application/octet-stream").bind fun _ =>
  (setHeader "Content-Disposition" ("attachment; filename=\x22" ++ name ++ "\x22" ++
    (if plainName name then "" else "; filename*=utf-8''" ++ urlencode name))).bind fun _ =>
  serveFile e (fun x => toString (toSize x)) (e.settings.documentRoot ++ path ++ ext)

end Download

namespace Upload

/-- `basic_master::post_or_get(key)` -/
def postOrGet (e : Env) (key : String) : String :=
  if (e.req.postValue key).isEmpty then e.req.getValue key else e.req.postValue key

/-- `basic_master::post_or_get(key,def)` for a `long int` -/
def postOrGetLong (e : Env) (key : String) (default : Int) : Int :=
  if (postOrGet e key).isEmpty then default else Text.atol (postOrGet e key)

/-- `basic_master::post_or_get(key,def)` for an `int` -/
def postOrGetInt (e : Env) (key : String) (default : Int) : Int :=
  if (postOrGet e key).isEmpty then default else Text.atoi (postOrGet e key)

/-- `^[0-9a-fA-F]+$` -/
def isHex (s : String) : Bool :=
  !s.isEmpty && s.toList.all (fun c =>
    Text.isDigit c || ('a' ≤ c && c ≤ 'f') || ('A' ≤ c && c ≤ 'F'))

/-- The extensions the editor accepts. -/
def extensions : List String :=
  ["gif", "jpg", "jpeg", "bmp", "png", "mp3", "mp4", "avi", "flv", "f4v", "webm", "ogv", "bz2", "xz",
   "gz", "tar", "rar", "zip", "7z", "cab", "tgz", "tbz", "doc", "docx", "xls", "xlsx", "ppt", "pptx",
   "pdf", "csv", "txt"]

/-- `^.*\.(...)$`, without regard to the case of letters; `.` matches no line feed. -/
def acceptedName (s : String) : Bool :=
  '\n' ∉ s.toList && extensions.any (fun x =>
    ('.' :: x.toList).isSuffixOf (s.toList.map Char.toLower))

/-- `basic_master::mkdir`; `fuel` bounds the depth of the recursion, which ends at an existing
    directory or not at all. -/
def mkdir : Nat → String → Bool → App Bool
  | 0, _, _ => .throw .hang
  | fuel + 1, path, isfile =>
      (files (fun fs => (fs.pathExists path, fs))).bind fun found =>
      if found then .ret true
      else
        let parent :=
          if '/' ∈ path.toList then
            String.ofList ((path.toList.reverse.dropWhile (· ≠ '/')).drop 1).reverse
          else path
        (mkdir fuel parent false).bind fun ok =>
        if !ok then .ret false
        else if isfile then .ret true
        else files (fun fs => fs.mkdir path)

/-- `files[0]->save_to(path)` -/
def saveTo (e : Env) (path : String) (content : List UInt8) : App Unit :=
  (files (fun fs => fs.create path content e.chance.now)).bind fun ok =>
  if ok then .ret () else .throw .file

/-- `ifs.open(path); while(!ifs.eof()) ifs.read(...)`: on a file that cannot be opened the loop never
    sees the end. -/
def readAll (path : String) : App (List UInt8) :=
  (files (fun fs => (fs.read path, fs))).bind fun r =>
  match r with
  | some content => .ret content
  | none => .throw .hang

/-- The name of a part. -/
def partPath (base : String) (i : Nat) : String := base ++ "-" ++ toString i ++ ".part"

/-- The loop that looks for the parts from `i` on. -/
def allParts (base : String) (i : Nat) : Nat → App Bool
  | 0 => .ret true
  | n + 1 =>
      (files (fun fs => (fs.pathExists (partPath base i), fs))).bind fun found =>
      if found then allParts base (i + 1) n else .ret false

/-- The loop that appends the parts from `i` on to the file and removes them; the bytes it read. -/
def joinParts (e : Env) (base path : String) (i : Nat) (done : List UInt8) :
    Nat → App (List UInt8)
  | 0 => .ret done
  | n + 1 =>
      (readAll (partPath base i)).bind fun content =>
      (files (fun fs => ((), fs.writeAt path done.length content e.chance.now))).bind fun _ =>
      (files (fun fs => ((), fs.unlink (partPath base i)))).bind fun _ =>
      joinParts e base path (i + 1) (done ++ content) n

/-- The file names of one upload: without and with the document root, and the URL. -/
structure Names where
  base : String
  path : String
  url : String

def names (e : Env) (md5 ext : String) (size : Nat) : App Names :=
  (Download.uploadPath e md5 size).bind fun bpath =>
  let docroot := Media.trimSlashes e.settings.documentRoot
  .ret { base := docroot ++ bpath, path := docroot ++ bpath ++ ext, url := bpath ++ ext }

/-- Store what was posted; the bytes of the complete file, or `none` while parts are missing. -/
def receive (e : Env) (n : Names) (content : List UInt8) (chunk chunks : Nat) :
    App (Option (List UInt8)) :=
  if chunks = 1 then
    (mkdir (n.path.length + 1) n.path true).bind fun _ =>
    (saveTo e n.path content).bind fun _ =>
    (readAll n.path).bind fun bytes => .ret (some bytes)
  else
    let lock := partPath n.base chunk ++ ".lock"
    (mkdir (lock.length + 1) lock true).bind fun _ =>
    (saveTo e lock content).bind fun _ =>
    (files (fun fs => ((), fs.rename lock (partPath n.base chunk)))).bind fun _ =>
    (allParts n.base 0 chunks).bind fun completed =>
    if completed then
      (files (fun fs => fs.create n.path [] e.chance.now)).bind fun _ =>
      (joinParts e n.base n.path 0 [] chunks).bind fun bytes => .ret (some bytes)
    else .ret none

/-- The fields of an answer about a file. -/
def fileFields (exists_ : Bool) (n : Names) (name : String) (size : Nat) (message : String) :
    List (String × String) :=
  [("exists", toString exists_), ("fileUrl", n.url), ("fileName", name), ("fileSize", toString size),
   ("message", message)]

/-- The answer to a `POST`: status, fields, and whether the file is there. -/
def submit (e : Env) (n : Names) (md5 name : String) (size chunk chunks : Nat) :
    App (Bool × List (String × String) × Bool) :=
  match e.req.files with
  | [content] =>
      (receive e n content chunk chunks).bind fun r =>
      match r with
      | none => .ret (true, [("message", "File block saved successfully!")], false)
      | some bytes =>
          (files (fun fs => ((fs.read n.path).map List.length, fs))).bind fun stored =>
          if md5 ≠ e.lib.md5 bytes ∨ stored ≠ some size then
            (files (fun fs => ((), fs.unlink n.path))).bind fun _ =>
            .ret (false, [("message", "File hash value or size not is equals!")], false)
          else .ret (true, fileFields true n name size "Upload completed!", true)
  | _ => .ret (false, [("message", "No file!")], false)

/-- The answer to any other request. -/
def ask (n : Names) (name : String) (size : Nat) : App (Bool × List (String × String) × Bool) :=
  (files (fun fs => ((fs.read n.path).map List.length, fs))).bind fun stored =>
  if stored = some size then
    .ret (true, fileFields true n name size "Successful transmission in seconds!", true)
  else .ret (true, fileFields false n name size "Files do not exist and can be uploaded.", false)

/-- The name a rotation is stored under. -/
def rotated (n : Names) (rotation : Int) : App Names :=
  (extension n.path).bind fun ext =>
  (extension n.url).bind fun _ =>
  let r := rotation.tdiv 90 + 3
  let r := if 4 ≤ r then r - 4 else r
  let strip (s : String) : String := String.ofList (s.toList.take (s.length - ext.length))
  .ret { base := n.base
         path := strip n.path ++ "-r" ++ toString r ++ ext
         url := strip n.url ++ "-r" ++ toString r ++ ext }

/-- Make a rotated copy unless there is one; the file is opened before the image is read. -/
def rotate (e : Env) (n : Names) (rotation : Int) : App Names :=
  (rotated n rotation).bind fun m =>
  (files (fun fs => (fs.pathExists m.path, fs))).bind fun found =>
  if found then .ret m
  else
    (files (fun fs => fs.create m.path [] e.chance.now)).bind fun _ =>
    (files (fun fs => (fs.read n.path, fs))).bind fun content =>
    match content.bind (fun c => e.lib.rotate c rotation) with
    | none => .throw .magick
    | some bytes =>
        (files (fun fs => ((), fs.writeAt m.path 0 bytes e.chance.now))).bind fun _ => .ret m

/-- `response().out() << json` -/
def answer (status : Bool) (fields : List (String × String)) : App Unit :=
  (setHeader "Content-Type" "application/json; charset=UTF-8").bind fun _ =>
  write (.json status fields)

/-- `upload::prepare` on parameters that pass the checks. -/
def transfer (e : Env) (md5 name : String) (size : Nat) : App Unit :=
  (extension name).bind fun ext =>
  adminPrepare.bind fun _ =>
  (names e md5 ext size).bind fun n =>
  (if e.req.method = "POST" then
      submit e n md5 name size (toSize (postOrGetLong e "chunk" 0)) (toSize (postOrGetLong e "chunks" 1))
    else ask n name size).bind fun r =>
  let rotation := (postOrGetInt e "rotation" 0).tmod 360
  if r.2.2 ∧ rotation ≠ 0 then
    (rotate e n rotation).bind fun m =>
    answer r.1 (r.2.1.map (fun f => if f.1 = "fileUrl" then ("fileUrl", m.url) else f))
  else answer r.1 r.2.1

/-- `upload::prepare` -/
def prepare (e : Env) : App Unit :=
  let md5 := postOrGet e "md5"
  let name := postOrGet e "name"
  let size := toSize (postOrGetLong e "size" 0)
  if md5.isEmpty ∨ ¬ isHex md5 ∨ name.isEmpty ∨ size = 0 then
    answer false [("message", "Request parameter error.")]
  else if ¬ acceptedName name then answer false [("message", "File type is not supported.")]
  else transfer e md5 name size

end Upload

end CppBlog
