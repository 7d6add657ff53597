import CppBlog.Web.Http

set_option autoImplicit false

/-! # Text filters

The filters the handlers and templates put a text through: the HTML escape of the template engine,
`str_replace` and `mysql_like` of `data/basic_master.cpp` and `latex_filter` of
`apps/basic_master.cpp`. -/

namespace CppBlog

/-! ## Escaping -/

def escapeChar : Char → String
  | '<' => "&lt;"
  | '>' => "&gt;"
  | '&' => "&amp;"
  | '\x22' => "&quot;"
  | '\x27' => "&#39;"
  | c => c.toString

/-- `cppcms::util::escape` -/
def escape (s : String) : String := String.join (s.toList.map escapeChar)

/-! ## Searching and replacing -/

/-- The first position at which `src` occurs. -/
def findSub (src : List Char) : List Char → Option Nat
  | [] => if src.isEmpty then some 0 else none
  | c :: t => if src.isPrefixOf (c :: t) then some 0 else (findSub src t).map (· + 1)

/-- `s.find(src,pos)` -/
def findFrom (src : List Char) (pos : Nat) (s : List Char) : Option Nat :=
  (findSub src (s.drop pos)).map (pos + ·)

/-- The loop of `str_replace`; `fuel` bounds its rounds. -/
def strReplaceLoop (src dst : List Char) : Nat → Nat → List Char → List Char
  | 0, _, s => s
  | fuel + 1, pos, s =>
      match findFrom src pos s with
      | none => s
      | some p => strReplaceLoop src dst fuel (p + dst.length)
          (s.take p ++ dst ++ s.drop (p + src.length))

/-- `str_replace`; a round consumes at least one character of the text when `src` is not empty. -/
def strReplace (s src dst : String) : String :=
  String.ofList (strReplaceLoop src.toList dst.toList (s.length + 1) 0 s.toList)

def mysqlLike (s : String) : String :=
  strReplace (strReplace (strReplace (strReplace s "\\" "\\\\") "_" "\\_") "|" "\\|") "%" "\\%"

/-- The pattern a search text is looked for with. -/
def likePattern (q : String) : String := "%" ++ mysqlLike q ++ "%"

/-! ## LaTeX -/

/-- The text that stands for a formula. -/
def latexBlock (convert : String → String) (tex : String) : String :=
  if (convert tex).isEmpty then escape tex
  else "<img src='" ++ convert tex ++ "' alt='" ++ escape tex ++ "' align='absmiddle' />"

/-- The loop of `latex_filter` from position `pOld`; `fuel` bounds its rounds. -/
def latexLoop (convert : String → String) (inp : List Char) : Nat → Nat → String → String
  | 0, pOld, out => out ++ String.ofList (inp.drop pOld)
  | fuel + 1, pOld, out =>
      match findFrom "[tex]".toList pOld inp, findFrom "[/tex]".toList pOld inp with
      | some p1, some p2 =>
          if p1 < p2 then
            latexLoop convert inp fuel (p2 + 6)
              (out ++ String.ofList ((inp.drop pOld).take (p1 - pOld)) ++
                latexBlock convert (String.ofList ((inp.drop (p1 + 5)).take (p2 - (p1 + 5)))))
          else out ++ String.ofList (inp.drop pOld)
      | _, _ => out ++ String.ofList (inp.drop pOld)

/-- `latex_filter`; every round moves `p_old` on. -/
def latexFilter (tex : Option (String → String)) (inp : String) : String :=
  match tex with
  | none => inp
  | some convert => latexLoop convert inp.toList (inp.length + 1) 0 ""

example : mysqlLike "50%_|\\" = "50\\%\\_\\|\\\\" := by decide

example : latexFilter (some fun _ => "") "a[tex]x<y[/tex]b" = "ax&lt;yb" := by decide

end CppBlog
