import CppBlog.Search
import CppBlog.Store.Relational

set_option autoImplicit false

/-! # Moving a blog to another database

`sql/migrate.cpp` copies the tables of one database into a freshly created one, inside a transaction
on each. The declarations are those of the three schema scripts. -/

namespace CppBlog.Migration

open Relational

/-! ## The schema scripts -/

def integer (name : String) : Column := { name := name, type := .integer }
def varchar (name : String) (n : Nat) : Column := { name := name, type := .varchar n }
def text (name : String) : Column := { name := name, type := .text }
def timestamp (name : String) : Column := { name := name, type := .timestamp }
def commentCount : Column := { name := "comment_count", type := .integer, default := some (.int 0) }

def users : Decl where
  columns := [integer "id", varchar "username" 32, varchar "password" 32]
  keys := [["id"], ["username"]]

def posts (columns : List Column) (foreign : List Foreign) : Decl where
  columns := [integer "id", integer "author_id", varchar "title" 256, text "abstract", text "content",
    timestamp "publish"] ++ columns
  keys := [["id"]]
  foreign := foreign

def comments (foreign : List Foreign) : Decl where
  columns := [integer "id", integer "post_id", varchar "author" 64, varchar "email" 64, varchar "url" 128,
    timestamp "publish_time", text "content"]
  keys := [["id"]]
  foreign := foreign

def textOptions : Decl where
  columns := [varchar "id" 64, text "value"]
  keys := [["id"]]

def cats : Decl where
  columns := [integer "id", varchar "name" 64]
  keys := [["id"]]

def post2cat (foreign : List Foreign) : Decl where
  columns := [integer "post_id", integer "cat_id", timestamp "publish", integer "is_open"]
  keys := [["post_id", "cat_id"]]
  foreign := foreign

def pages (foreign : List Foreign) : Decl where
  columns := [integer "id", integer "author_id", varchar "title" 256, text "content", integer "is_open"]
  keys := [["id"]]
  foreign := foreign

/-- `sql/sqlite3.sql` -/
def sqlite3 : List (String × Decl) :=
  [("users", users), ("posts", posts [commentCount, integer "is_open"] []), ("comments", comments []),
   ("text_options", textOptions), ("cats", cats), ("post2cat", post2cat []), ("pages", pages [])]

/-- `sql/mysql.sql` -/
def mysql : List (String × Decl) :=
  [("users", users), ("posts", posts [integer "is_open", commentCount] [⟨"author_id", "users", "id"⟩]),
   ("comments", comments [⟨"post_id", "posts", "id"⟩]), ("text_options", textOptions), ("cats", cats),
   ("post2cat", post2cat [⟨"post_id", "posts", "id"⟩, ⟨"cat_id", "cats", "id"⟩]),
   ("pages", pages [⟨"author_id", "users", "id"⟩])]

/-- `sql/postgresql.sql` -/
def postgresql : List (String × Decl) :=
  [("users", users), ("posts", posts [commentCount, integer "is_open"] [⟨"author_id", "users", "id"⟩]),
   ("comments", comments [⟨"post_id", "posts", "id"⟩]), ("text_options", textOptions), ("cats", cats),
   ("post2cat", post2cat [⟨"post_id", "posts", "id"⟩, ⟨"cat_id", "cats", "id"⟩]), ("pages", pages [])]

def script : Engine → List (String × Decl)
  | .sqlite3 => sqlite3
  | .mysql => mysql
  | .postgresql => postgresql

/-- The sequences of the columns that are `serial`. -/
def sequences : Engine → List String
  | .sqlite3 | .mysql => []
  | .postgresql => ["users_id_seq", "posts_id_seq", "comments_id_seq", "cats_id_seq", "pages_id_seq"]

/-- Numbers are `int`s of the program; SQLite does not mind how long a text is. -/
def fits (engine : Engine) : ColumnType → Cell → Bool
  | .integer, .int i => -2147483648 ≤ i ∧ i ≤ 2147483647
  | .varchar n, .text s => engine = .sqlite3 ∨ s.length ≤ n
  | .text, .text _ => true
  | .timestamp, .time _ => true
  | _, _ => false

def schema (engine : Engine) : Schema where
  decl t := (script engine).lookup t
  fits := fits engine

/-! ## Databases -/

/-- The tables of a database, and the last values of its sequences. -/
structure Database where
  engine : Engine
  tables : Tables
  sequence : String → Option Int

/-- The seven tables. -/
def tableNames : List String := ["users", "posts", "comments", "text_options", "cats", "post2cat", "pages"]

/-- A database as the script of its engine creates it. -/
def fresh (engine : Engine) : Database where
  engine := engine
  tables t := if t = "text_options" then [[("id", .text "dbversion"), ("value", .text "3")]] else []
  sequence _ := none

/-- `SELECT value from text_options where id='dbversion'` -/
def Database.dbversion (d : Database) : Option Cell :=
  ((d.tables "text_options").find? fun r => r.cell "id" = some (.text "dbversion")).bind fun r => r.cell "value"

/-- `DELETE from text_options where id='dbversion'` -/
def Database.deleteDbversion (d : Database) : Tables :=
  Function.update d.tables "text_options"
    ((d.tables "text_options").filter fun r => r.cell "id" ≠ some (.text "dbversion"))

/-! ## The program -/

/-- `r.get<int>` -/
def getInt : Cell → Option Cell
  | .int i => if -2147483648 ≤ i ∧ i ≤ 2147483647 then some (.int i) else none
  | _ => none

/-- `r.get<std::string>` -/
def getString : Cell → Option Cell
  | .text s => some (.text s)
  | _ => none

/-- `r.get<std::tm>` -/
def getTm : Cell → Option Cell
  | .time t => some (.time t)
  | _ => none

/-- The loops of `copy`. -/
def loops : List Loop :=
  [{ table := "users"
     columns := [("id", getInt), ("username", getString), ("password", getString)]
     named := some ["id", "username", "password"] },
   { table := "posts"
     columns := [("id", getInt), ("author_id", getInt), ("title", getString), ("abstract", getString),
       ("content", getString), ("publish", getTm), ("is_open", getInt), ("comment_count", getInt)]
     named := some ["id", "author_id", "title", "abstract", "content", "publish", "is_open", "comment_count"] },
   { table := "comments"
     columns := [("id", getInt), ("post_id", getInt), ("author", getString), ("email", getString),
       ("url", getString), ("publish_time", getTm), ("content", getString)] },
   { table := "text_options"
     columns := [("id", getString), ("value", getString)] },
   { table := "cats"
     columns := [("id", getInt), ("name", getString)] },
   { table := "post2cat"
     columns := [("post_id", getInt), ("cat_id", getInt), ("publish", getTm), ("is_open", getInt)] },
   { table := "pages"
     columns := [("id", getInt), ("author_id", getInt), ("title", getString), ("content", getString),
       ("is_open", getInt)] }]

/-- `copy` -/
def copy (src tgt : Database) : Option Database :=
  if src.dbversion ≠ some (.text "3") then none
  else if tgt.dbversion ≠ some (.text "3") then none
  else (copyTables (schema tgt.engine) src.tables loops tgt.deleteDbversion).map fun ts => { tgt with tables := ts }

/-- The largest number of a table; `NULL` for an empty one. -/
def maxId (rows : List Row) : Option Int :=
  (rows.filterMap fun r => match r.cell "id" with | some (.int i) => some i | _ => none).max?

/-- `select setval('seq',(select max(id) from t))` -/
def setval (seq t : String) (d : Database) : Except Database Database :=
  if seq ∈ sequences d.engine ∧ ((schema d.engine).decl t).isSome then
    .ok { d with sequence := Function.update d.sequence seq ((maxId (d.tables t)).or (d.sequence seq)) }
  else .error d

/-- How `main` ends, and what it leaves. -/
structure Outcome where
  committed : Bool
  source : Database
  target : Database

/-- `main`; `setval` is not undone with its transaction. -/
def migrate (src tgt : Database) : Outcome :=
  match copy src tgt with
  | none => { committed := false, source := src, target := tgt }
  | some d =>
      let ended :=
        if d.engine = .postgresql then
          (setval "users_id_seq" "users" d).bind fun d =>
          (setval "posts_id_seq" "posts" d).bind fun d =>
          (setval "comments_id_seq" "comments" d).bind fun d =>
          (setval "pages_id_seq" "pages" d).bind fun d =>
          (setval "links_id_seq" "links" d).bind fun d =>
          setval "cats_id_seq" "cats" d
        else .ok d
      match ended with
      | .error d => { committed := false, source := src, target := { tgt with sequence := d.sequence } }
      | .ok d => { committed := true, source := src, target := d }

/-! ## The loops and the scripts -/

/-- **The loops follow the foreign keys of every script.** -/
theorem loops_ordered (engine : Engine) : Ordered (schema engine) [] loops := by
  cases engine <;> decide

/-- How a column is read. -/
def reader : ColumnType → Cell → Option Cell
  | .integer => getInt
  | .varchar _ => getString
  | .text => getString
  | .timestamp => getTm

theorem reader_of_fits {engine : Engine} {type : ColumnType} {x : Cell} (h : fits engine type x = true) :
    reader type x = some x := by
  cases type <;> cases x <;> simp only [fits, Bool.false_eq_true] at h
  case integer.int i =>
    show (if _ then _ else _) = _
    rw [if_pos (of_decide_eq_true h)]
  all_goals rfl

/-- The way a script declares for a column. -/
def readerOf (d : Decl) (name : String) : Cell → Option Cell :=
  match d.columns.find? fun c => c.name = name with
  | some c => reader c.type
  | none => fun _ => none

/-- **Every column is read as it is declared.** -/
theorem loops_readers (engine : Engine) : ∀ l ∈ loops, ∀ d, (schema engine).decl l.table = some d →
    ∀ c ∈ l.columns, c.2 = readerOf d c.1 := by
  simp only [loops, List.forall_mem_cons]
  refine ⟨?_, ?_, ?_, ?_, ?_, ?_, ?_, fun _ h => absurd h List.not_mem_nil⟩ <;>
    cases engine <;> rintro d hd <;> obtain rfl := Option.some.inj hd <;>
    repeat first | exact fun _ h => absurd h List.not_mem_nil | refine ⟨rfl, ?_⟩

/-! ## What a migration leaves -/

/-- A database of the blog: it has the tables of its script, at the version of the program. -/
structure Source where
  db : Database
  meets : (schema db.engine).Meets tableNames db.tables
  dbversion : db.dbversion = some (.text "3")

/-- **The scripts declare the same tables with the same columns.** -/
theorem script_agrees {engine : Engine} (engine' : Engine) {t : String} {d : Decl}
    (h : (schema engine).decl t = some d) :
    t ∈ tableNames ∧ ∃ d', (schema engine').decl t = some d' ∧ ∀ c ∈ d.names, c ∈ d'.names := by
  have hfinite : ∀ p ∈ script engine, p.1 ∈ tableNames ∧
      ∃ d' ∈ (script engine').lookup p.1, ∀ c ∈ p.2.names, c ∈ d'.names := by
    cases engine <;> cases engine' <;> decide
  obtain ⟨l₁, l₂, hscript, -⟩ := List.lookup_eq_some_iff.1 h
  exact hfinite (t, d) (hscript ▸ List.mem_append_right l₁ List.mem_cons_self)

theorem loops_names : loops.map Loop.table = tableNames := rfl

namespace Source

variable (src : Source)

/-- A declared column of a stored row holds a value that fits. -/
theorem cell_fits {t : String} {d : Decl} (hd : (schema src.db.engine).decl t = some d) {r : Row}
    (hr : r ∈ src.db.tables t) {c : Column} (hc : c ∈ d.columns) :
    ∃ x, r.cell c.name = some x ∧ fits src.db.engine c.type x = true := by
  have hfits := (src.meets t (script_agrees src.db.engine hd).1 d hd).columns r hr c hc
  exact (Option.any_eq_true _ _).1 hfits

theorem filled (engine : Engine) : (schema engine).Filled src.db.tables := by
  intro t d hd r hr c hc
  obtain ⟨-, d', hd', hnames⟩ := script_agrees src.db.engine hd
  obtain ⟨column, hcolumn, rfl⟩ := List.mem_map.1 (hnames c hc)
  obtain ⟨x, hx, -⟩ := src.cell_fits hd' hr hcolumn
  rw [hx, Option.isSome_some]

/-- **The program can read every row.** -/
theorem reads {l : Loop} (hl : l ∈ loops) : ∀ r ∈ src.db.tables l.table, l.Reads r := by
  intro r hr c hc
  obtain ⟨d, hd, hsuits⟩ := (loops_ordered src.db.engine).suits l hl
  obtain ⟨column, hcolumn, hname⟩ := List.mem_map.1 (hsuits.known c.1 (List.mem_map_of_mem hc))
  have hfind : ∃ column, d.columns.find? (fun column => column.name = c.1) = some column := by
    rw [← Option.isSome_iff_exists, List.find?_isSome]
    exact ⟨column, hcolumn, decide_eq_true hname⟩
  obtain ⟨column', hfind⟩ := hfind
  obtain ⟨x, hx, hfits⟩ := src.cell_fits hd hr (List.mem_of_find?_eq_some hfind)
  have hname' := List.find?_some hfind
  rw [decide_eq_true_eq] at hname'
  refine ⟨x, hname' ▸ hx, ?_⟩
  rw [loops_readers src.db.engine l hl d hd c hc, readerOf, hfind]
  exact reader_of_fits hfits

/-- What the loops do with a database that was just created. -/
theorem copyTables_fresh (engine : Engine) {ts : Tables} :
    copyTables (schema engine) src.db.tables loops (fresh engine).deleteDbversion = some ts ↔
      (schema engine).Meets tableNames src.db.tables ∧
        ts = fun t => if t ∈ tableNames then stored (schema engine) src.db.tables t else [] := by
  have hempty : (fresh engine).deleteDbversion = fun _ => [] := by
    funext t
    by_cases ht : t = "text_options"
    · rw [ht, Database.deleteDbversion, Function.update_self]
      rfl
    · rw [Database.deleteDbversion, Function.update_of_ne ht]
      exact if_neg ht
  rw [hempty, copyTables_eq_some (loops_ordered engine) (src.filled engine) (fun l hl => src.reads hl)
    (fun _ h => absurd h List.not_mem_nil) (fun _ _ => rfl), loops_names]

end Source

/-- The same rows in each table, column by column. -/
def SameTables (src tgt : Database) : Prop :=
  ∀ t ∈ tableNames, ∀ d, (schema tgt.engine).decl t = some d →
    (tgt.tables t).map (fun r => d.names.map r.cell) = (src.tables t).map fun r => d.names.map r.cell

/-- The migration commits with the tables of the source, and any that fails leaves all as it was. -/
def Migrates (src : Source) (engine : Engine) : Prop :=
  ((migrate src.db (fresh engine)).committed = true ∧ SameTables src.db (migrate src.db (fresh engine)).target) ∧
    ∀ tgt : Database, tgt.engine = engine → (migrate src.db tgt).committed = false →
      (migrate src.db tgt).source = src.db ∧ (migrate src.db tgt).target = tgt

/-- A sequence of a table that is there. -/
theorem setval_ok {seq t : String} {d : Database} (hseq : seq ∈ sequences d.engine)
    (ht : ((schema d.engine).decl t).isSome) : ∃ d', setval seq t d = .ok d' ∧ d'.engine = d.engine :=
  ⟨_, if_pos ⟨hseq, ht⟩, rfl⟩

theorem copy_engine {src tgt d : Database} (h : copy src tgt = some d) : d.engine = tgt.engine := by
  unfold copy at h
  split at h
  · exact absurd h (by simp)
  split at h
  · exact absurd h (by simp)
  · obtain ⟨ts, -, rfl⟩ := Option.map_eq_some_iff.1 h
    rfl

/-- **There is no table of links**, so the sequences of PostgreSQL are never all set. -/
theorem migrate_postgresql {src tgt : Database} (h : tgt.engine = .postgresql) :
    (migrate src tgt).committed = false := by
  unfold migrate
  cases hcopy : copy src tgt with
  | none => rfl
  | some d =>
    have hengine : d.engine = .postgresql := (copy_engine hcopy).trans h
    have hset {d : Database} (seq t : String) (hd : d.engine = .postgresql) (hseq : seq ∈ sequences .postgresql)
        (ht : ((schema .postgresql).decl t).isSome) : ∃ d', setval seq t d = .ok d' ∧ d'.engine = .postgresql := by
      obtain ⟨d', hd', hengine'⟩ := setval_ok (hd ▸ hseq) (hd ▸ ht)
      exact ⟨d', hd', hengine'.trans hd⟩
    obtain ⟨d₁, h₁, hengine₁⟩ := hset "users_id_seq" "users" hengine (by decide) rfl
    obtain ⟨d₂, h₂, hengine₂⟩ := hset "posts_id_seq" "posts" hengine₁ (by decide) rfl
    obtain ⟨d₃, h₃, hengine₃⟩ := hset "comments_id_seq" "comments" hengine₂ (by decide) rfl
    obtain ⟨d₄, h₄, hengine₄⟩ := hset "pages_id_seq" "pages" hengine₃ (by decide) rfl
    have hlinks : setval "links_id_seq" "links" d₄ = .error d₄ := by
      rw [setval, if_neg]
      rw [hengine₄]
      decide
    simp only [hengine, if_true, h₁, h₂, h₃, h₄, hlinks, Except.bind]

theorem migrate_of_ne {src tgt : Database} (h : tgt.engine ≠ .postgresql) :
    migrate src tgt = match copy src tgt with
      | none => { committed := false, source := src, target := tgt }
      | some d => { committed := true, source := src, target := d } := by
  unfold migrate
  cases hcopy : copy src tgt with
  | none => rfl
  | some d =>
    have hengine : d.engine ≠ .postgresql := (copy_engine hcopy) ▸ h
    simp only [if_neg hengine]

/-- A migration that fails anywhere else leaves both databases as they were. -/
theorem migrate_restores {src tgt : Database} (h : tgt.engine ≠ .postgresql)
    (hfailed : (migrate src tgt).committed = false) :
    (migrate src tgt).source = src ∧ (migrate src tgt).target = tgt := by
  rw [migrate_of_ne h] at hfailed ⊢
  cases hcopy : copy src tgt with
  | none => exact ⟨rfl, rfl⟩
  | some d =>
    rw [hcopy] at hfailed
    exact absurd hfailed (by simp)

/-- The tables of the source are the tables of the target. -/
theorem sameTables_stored (src : Source) (engine : Engine) :
    SameTables src.db { fresh engine with
      tables := fun t => if t ∈ tableNames then stored (schema engine) src.db.tables t else [] } := by
  intro t ht d hd
  have hd : (schema engine).decl t = some d := hd
  show (if t ∈ tableNames then stored (schema engine) src.db.tables t else []).map _ = _
  rw [if_pos ht, stored_of_decl hd, List.map_map]
  refine List.map_congr_left fun r hr => ?_
  exact map_cell_store (fun _ hc => hc) (src.filled engine t d hd r hr)

/-- A blog of one user. -/
def oneUser : Source where
  db := { fresh .sqlite3 with
    tables := fun t =>
      if t = "users" then [[("id", .int 1), ("username", .text "a"), ("password", .text "p")]]
      else (fresh .sqlite3).tables t }
  meets := by decide
  dbversion := rfl

end CppBlog.Migration
