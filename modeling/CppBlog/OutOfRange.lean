import CppBlog.Confinement

set_option autoImplicit false

/-! # Substrings out of range

`upload` and `download` cut a hash into its first two digits, the next two and the rest, and take what
stands behind the last dot of a name. Where a text is too short, or has no dot, `substr` throws. -/

namespace CppBlog

open Effect Store App Text

/-! ## What is raised -/

/-- The program takes no substring out of range. -/
abbrev InRange {α : Type} (p : App α) : Prop := p.Raises calls (· ≠ .outOfRange)

/-- The program takes no substring out of range and has no image rotated in vain. -/
abbrev Ordinary {α : Type} (p : App α) : Prop := p.Raises calls (fun err => err ≠ .outOfRange ∧ err ≠ .magick)

namespace Ordinary

variable {α β : Type}

/-- The operations raise errors of the database only. -/
theorem perform (o : Sig β) : Ordinary (Prog.perform o : App β) := by
  intro s
  rw [Prog.wp_perform]
  refine ⟨fun _ _ _ => trivial, fun err s' hraised => ?_⟩
  suffices hsql : ∃ k, err = .sql k by
    obtain ⟨k, rfl⟩ := hsql
    simp
  cases o with
  | query f =>
    simp only [calls, Outcome, Except.error.injEq, reduceCtorEq, or_false] at hraised
    exact ⟨_, hraised.2⟩
  | exec f =>
    simp only [calls, Outcome, Except.error.injEq, reduceCtorEq, false_and, and_false, exists_false, or_false]
      at hraised
    rcases hraised with ⟨rfl, -⟩ | ⟨k, -, rfl, -⟩
    · exact ⟨_, rfl⟩
    · exact ⟨_, rfl⟩
  | begin =>
    simp only [calls, Outcome, Except.error.injEq, reduceCtorEq, false_and, or_false] at hraised
    exact ⟨_, hraised.1⟩
  | commit =>
    simp only [calls, Outcome, Except.error.injEq, reduceCtorEq, false_and, or_false] at hraised
    exact ⟨_, hraised.1⟩
  | rollback => simp [calls, Outcome] at hraised
  | cache f => simp [calls, Outcome] at hraised
  | files f => simp [calls, Outcome] at hraised
  | own f => simp [calls, Outcome] at hraised

theorem transaction {p : App α} (h : Ordinary p) : Ordinary (App.transaction p) :=
  fun _ => wp_transaction.2 ⟨h _, by simp⟩

theorem fetch (key : String) : Ordinary (App.fetch key) := by
  refine (perform _).bind fun r => ?_
  cases r with
  | none => exact .ret _
  | some v => exact (perform _).bind fun _ => .ret _

theorem sessionGetInt (key : String) : Ordinary (App.sessionGetInt key) := by
  refine Prog.Raises.bind (Prog.Raises.bind (perform _) fun v => ?_) fun v => ?_
  · cases v with
    | none => exact .throw (by simp)
    | some v => exact .ret _
  · cases readInt? v with
    | none => exact .throw (by simp)
    | some i => exact .ret _

theorem sessionGet (key : String) : Ordinary (App.sessionGet key) := by
  refine Prog.Raises.bind (perform _) fun v => ?_
  cases v with
  | none => exact .throw (by simp)
  | some v => exact .ret _

/-- The rounds of an upgrade stay within the table. -/
theorem upgradeLoop {ver rounds : Nat} (h : ver + rounds ≤ 3) : Ordinary (CppBlog.upgradeLoop ver rounds) := by
  induction rounds generalizing ver with
  | zero => exact .ret _
  | succ rounds ih =>
    have hcall : ∃ call, callbacks[ver]? = some call ∧ Ordinary call := by
      have hver : ver < 3 := by omega
      rcases ver with _ | _ | _ | ver
      · exact ⟨_, rfl, .throw (by simp)⟩
      · exact ⟨_, rfl, .throw (by simp)⟩
      · exact ⟨_, rfl, (perform _).bind fun _ => (perform _).bind fun _ => .ret _⟩
      · omega
    obtain ⟨call, heq, hrange⟩ := hcall
    rw [CppBlog.upgradeLoop, heq]
    exact hrange.bind fun _ => .ite (ih (by omega)) (.ret _)

theorem upgrade (v : String) : Ordinary (CppBlog.upgrade v) := by
  have hfinal : atoi cppblogDbversion = 3 := by decide
  unfold CppBlog.upgrade
  dsimp only
  rw [hfinal]
  split
  · exact .ret _
  split
  · exact .ret _
  rename_i hle hge
  have hrounds : (atoi v).toNat + (3 - atoi v).toNat ≤ 3 := by omega
  exact transaction ((upgradeLoop hrounds).bind fun _ => .ite ((perform _).bind fun _ => .ret _) (.ret _))

theorem basicPrepare : Ordinary CppBlog.basicPrepare := by
  refine (fetch _).bind fun r => ?_
  split
  · exact .ret _
  · exact .throw (by simp)
  · refine (perform _).bind fun _ => Prog.Raises.bind ?_ fun _ => .ite (.throw (by simp)) ?_
    · refine .ite (.ret _) ((upgrade _).bind fun ok => ?_)
      cases ok
      · exact .throw (by simp)
      · exact .ret _
    · exact ((perform _).bind fun _ => perform _).bind fun _ => .ret _

theorem adminPrepare : Ordinary CppBlog.adminPrepare := by
  refine basicPrepare.bind fun _ => (perform _).bind fun _ => .ite ?_ (.ret _)
  exact (sessionGetInt _).bind fun _ => (sessionGet _).bind fun _ => .ret _

/-! ### Uploads -/

theorem mkdir (fuel : Nat) (path : String) (isfile : Bool) : Ordinary (Upload.mkdir fuel path isfile) := by
  induction fuel generalizing path isfile with
  | zero => exact .throw (by simp)
  | succ fuel ih =>
    refine (perform _).bind fun _ => .ite (.ret _) ?_
    exact (ih _ _).bind fun _ => .ite (.ret _) (.ite (.ret _) (perform _))

theorem readAll (path : String) : Ordinary (Upload.readAll path) := by
  refine (perform _).bind fun r => ?_
  cases r with
  | none => exact .throw (by simp)
  | some content => exact .ret _

theorem saveTo (e : Env) (path : String) (content : List UInt8) : Ordinary (Upload.saveTo e path content) :=
  (perform _).bind fun _ => .ite (.ret _) (.throw (by simp))

theorem allParts (base : String) (i n : Nat) : Ordinary (Upload.allParts base i n) := by
  induction n generalizing i with
  | zero => exact .ret _
  | succ n ih => exact (perform _).bind fun _ => .ite (ih _) (.ret _)

theorem joinParts (e : Env) (base path : String) (i : Nat) (done : List UInt8) (n : Nat) :
    Ordinary (Upload.joinParts e base path i done n) := by
  induction n generalizing i done with
  | zero => exact .ret _
  | succ n ih =>
    exact (readAll _).bind fun _ => (perform _).bind fun _ => (perform _).bind fun _ => ih _ _

theorem receive (e : Env) (n : Upload.Names) (content : List UInt8) (chunk chunks : Nat) :
    Ordinary (Upload.receive e n content chunk chunks) := by
  refine .ite ?_ ?_
  · exact (mkdir _ _ _).bind fun _ => (saveTo _ _ _).bind fun _ => (readAll _).bind fun _ => .ret _
  · refine (mkdir _ _ _).bind fun _ => (saveTo _ _ _).bind fun _ => (perform _).bind fun _ =>
      (allParts _ _ _).bind fun _ => .ite ?_ (.ret _)
    exact (perform _).bind fun _ => (joinParts _ _ _ _ _ _).bind fun _ => .ret _

theorem submit (e : Env) (n : Upload.Names) (md5 name : String) (size chunk chunks : Nat) :
    Ordinary (Upload.submit e n md5 name size chunk chunks) := by
  unfold Upload.submit
  split
  · refine (receive _ _ _ _ _).bind fun r => ?_
    cases r with
    | none => exact .ret _
    | some bytes => exact (perform _).bind fun _ => .ite ((perform _).bind fun _ => .ret _) (.ret _)
  · exact .ret _

theorem ask (n : Upload.Names) (name : String) (size : Nat) : Ordinary (Upload.ask n name size) :=
  (perform _).bind fun _ => .ite (.ret _) (.ret _)

theorem answer (status : Bool) (fields : List (String × String)) : Ordinary (Upload.answer status fields) :=
  Prog.Raises.bind (perform _) fun _ => perform _

/-! ### Downloads -/

theorem sendFile (e : Env) (show64 : Int → String) (content : List UInt8) (mtime : Nat) :
    Ordinary (CppBlog.sendFile e show64 content mtime) := by
  refine Prog.Raises.bind (.ite (perform _) (.ret _)) fun _ => ?_
  refine (perform _).bind fun _ => (perform _).bind fun _ => (perform _).bind fun _ => (perform _).bind fun _ =>
    (perform _).bind fun _ => (perform _).bind fun _ => (perform _).bind fun _ => (perform _).bind fun _ =>
    (perform _).bind fun _ => Prog.Raises.bind (.ite (perform _) (.ret _)) fun _ => perform _

theorem serveFile (e : Env) (show64 : Int → String) (path : String) :
    Ordinary (CppBlog.serveFile e show64 path) := by
  refine (perform _).bind fun r => ?_
  split
  · exact perform _
  · exact sendFile _ _ _ _
  · exact sendFile _ _ _ _

theorem inRange {p : App α} (h : Ordinary p) : InRange p :=
  fun s => Prog.wp_mono (fun _ _ h => h) (fun _ _ h => h.1) (h s)

end Ordinary

namespace InRange

variable {α β : Type}

theorem rotate (e : Env) {n m : Upload.Names} {rotation : Int} (h : Upload.rotated n rotation = .ret m) :
    InRange (Upload.rotate e n rotation) := by
  rw [Upload.rotate, h, Prog.ret_bind]
  refine (Ordinary.perform _).inRange.bind fun _ => .ite (.ret _) <| (Ordinary.perform _).inRange.bind fun _ => (Ordinary.perform _).inRange.bind fun content => ?_
  split
  · exact .throw (by simp)
  · exact (Ordinary.perform _).inRange.bind fun _ => .ret _

/-- Where the first part of a program comes to its end, what follows is carried out. -/
theorem not_of_throw {p : App α} {f : α → App β} {m : Shared × Local} {a : α} (hp : (p.run handle m).1 = .ok a)
    (hf : f a = .throw .outOfRange) : ¬InRange (p.bind f) := by
  intro h
  have hends := Prog.wp_run (M := calls) handle viewOf (fun o c => outcome_handle o c)
    ((Prog.wp_bind p f _ _ _).1 (h (viewOf m)))
  rw [hp] at hends
  have hthrow : (f a).wp calls (fun _ _ => True) (fun err _ => err ≠ .outOfRange) _ := hends
  rw [hf] at hthrow
  exact hthrow rfl

end InRange

/-! ## The handlers -/

namespace Upload

/-- The parameters pass the checks of `upload::prepare`. -/
def Checked (e : Env) : Prop :=
  isHex (postOrGet e "md5") = true ∧ acceptedName (postOrGet e "name") = true ∧
    toSize (postOrGetLong e "size" 0) ≠ 0

instance (e : Env) : Decidable (Checked e) := inferInstanceAs (Decidable (_ ∧ _))

/-- A request that does not pass is told so. -/
theorem ordinary_unchecked {e : Env} (h : ¬Checked e) : Ordinary (prepare e) := by
  unfold prepare
  dsimp only
  split
  · exact Ordinary.answer _ _
  rename_i hparams
  split
  · exact Ordinary.answer _ _
  rename_i hname
  simp only [not_or, not_not] at hparams hname
  exact absurd ⟨hparams.2.1, hname, hparams.2.2.2⟩ h

attribute [local irreducible] names

theorem prepare_inRange_iff {e : Env} (h : Checked e) : InRange (prepare e) ↔ 4 ≤ (postOrGet e "md5").length := by
  obtain ⟨hmd5, hname, hsize⟩ := h
  obtain ⟨ext, hext, haccepted⟩ := extension_of_acceptedName hname
  rw [prepare_eq_body hmd5 hname hsize hext]
  constructor
  · intro hrange
    by_contra h4
    obtain ⟨c, hc⟩ := admitted_piece "0" 97 []
    refine InRange.not_of_throw hc ?_ hrange
    rw [body, names_eq_throw e (Nat.not_le.1 h4), Prog.throw_bind]
  · intro h4
    obtain ⟨n, hnames, -, hpath, hurl⟩ := names_eq_ret e h4 ext (toSize (postOrGetLong e "size" 0))
    obtain ⟨m, hrotated, -⟩ := rotated_text haccepted hpath hurl ((postOrGetInt e "rotation" 0).tmod 360)
    refine Ordinary.adminPrepare.inRange.bind fun _ => ?_
    rw [body, hnames, Prog.ret_bind]
    refine Prog.Raises.bind (.ite ((Ordinary.submit _ _ _ _ _ _ _).inRange) ((Ordinary.ask _ _ _).inRange)) fun r => ?_
    exact .ite ((InRange.rotate e hrotated).bind fun _ => (Ordinary.answer _ _).inRange) ((Ordinary.answer _ _).inRange)

end Upload

namespace Download

theorem prepare_inRange_iff (e : Env) (md5 size name : String) :
    InRange (prepare e md5 size name) ↔ 4 ≤ md5.length ∧ '.' ∈ name.toList := by
  have hadmitted : ∃ info, (basicPrepare.run handle
      ({ db := (Upload.pieceTurn "0" 97).db, cache := [], files := [] }, {})).1 = .ok info := ⟨_, rfl⟩
  obtain ⟨info, hinfo⟩ := hadmitted
  constructor
  · intro hrange
    by_contra hnot
    refine InRange.not_of_throw hinfo ?_ hrange
    by_cases h4 : 4 ≤ md5.length
    · obtain ⟨path, hpath, -⟩ := Upload.uploadPath_eq_ret e h4 (toSize (atol size))
      have hdot : extension name = .throw .outOfRange := if_neg fun hmem => hnot ⟨h4, hmem⟩
      rw [hpath, Prog.ret_bind, hdot, Prog.throw_bind]
    · rw [Upload.uploadPath_eq_throw e (Nat.not_le.1 h4), Prog.throw_bind]
  · rintro ⟨h4, hdot⟩
    obtain ⟨path, hpath, -⟩ := Upload.uploadPath_eq_ret e h4 (toSize (atol size))
    have hext : ∃ ext, extension name = .ret ext := ⟨_, if_pos hdot⟩
    obtain ⟨ext, hext⟩ := hext
    refine Ordinary.basicPrepare.inRange.bind fun _ => ?_
    rw [hpath, Prog.ret_bind, hext, Prog.ret_bind]
    exact (Ordinary.perform _).inRange.bind fun _ => (Ordinary.perform _).inRange.bind fun _ => (Ordinary.serveFile _ _ _).inRange

end Download

/-- **The handlers take no substring out of range exactly when the hash has four digits, and a name to
download a dot.** -/
theorem inRange_iff (e : Env) :
    (InRange (Upload.prepare e) ↔ (Upload.Checked e → 4 ≤ (Upload.postOrGet e "md5").length)) ∧
      ∀ md5 size name, InRange (Download.prepare e md5 size name) ↔ 4 ≤ md5.length ∧ '.' ∈ name.toList := by
  constructor
  · by_cases h : Upload.Checked e
    · rw [Upload.prepare_inRange_iff h]
      exact ⟨fun h4 _ => h4, fun h4 => h4 h⟩
    · exact iff_of_true (Upload.ordinary_unchecked h).inRange fun hchecked => absurd hchecked h
  · exact Download.prepare_inRange_iff e

/-- A query for a file whose hash has three digits. -/
def shortHash : Env :=
  Upload.oneByteSite.env { req := {
    sid := "a", path := "/admin/upload", get := [("md5", "abc"), ("name", "a.txt"), ("size", "1")] } }

theorem not_inRange : ¬∀ e : Env, (Upload.Checked e → InRange (Upload.prepare e)) ∧
    ∀ s caps, downloadRx.full s = some caps →
      InRange (Download.prepare e (text caps 1) (text caps 2) (text caps 3)) := by
  intro h
  have hchecked : Upload.Checked shortHash := by decide
  have h4 := (Upload.prepare_inRange_iff hchecked).1 ((h shortHash).1 hchecked)
  exact absurd h4 (by decide)

end CppBlog
