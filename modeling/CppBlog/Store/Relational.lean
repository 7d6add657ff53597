import Mathlib.Data.List.Nodup
import Mathlib.Logic.Function.Basic
import Mathlib.Tactic.Common

set_option autoImplicit false

/-! # Tables with declared constraints

Tables of rows with named cells, and declarations of them: the types of the columns, keys, and foreign
keys. An `INSERT` is refused when it breaks a declaration. `copyRows` selects columns of rows and
inserts them elsewhere one by one; `copyTables` does so for one table after the other. Both go through
exactly when the rows taken together meet the declarations (`copyRows_eq_some`, `copyTables_eq_some`). -/

namespace Relational

/-- The value of a column in a row. -/
inductive Cell where
  | int (i : Int)
  | text (s : String)
  | time (t : Int)
deriving DecidableEq

/-- The declared type of a column. -/
inductive ColumnType where
  | integer
  | varchar (n : Nat)
  | text
  | timestamp
deriving DecidableEq

structure Column where
  name : String
  type : ColumnType
  default : Option Cell := none

/-- `references table(target)` -/
structure Foreign where
  column : String
  table : String
  target : String

/-- A table as `CREATE TABLE` declares it; every column is `not null`. -/
structure Decl where
  columns : List Column
  keys : List (List String)
  foreign : List Foreign := []

/-- The tables an engine has, and which values it takes for a column. -/
structure Schema where
  decl : String → Option Decl
  fits : ColumnType → Cell → Bool

/-- A row, with the names of its columns. -/
abbrev Row := List (String × Cell)

/-- The cell of a column. -/
def Row.cell (r : Row) (c : String) : Option Cell := r.lookup c

/-- The rows of each table. -/
abbrev Tables := String → List Row

namespace Decl

/-- The names of the columns, in the order of the declaration. -/
def names (d : Decl) : List String := d.columns.map Column.name

/-- The values as a row of the table. -/
def row (d : Decl) (value : String → Option Cell) : Row :=
  d.columns.filterMap fun c => (value c.name <|> c.default).map (Prod.mk c.name)

/-- A row that `INSERT` accepts. -/
def admits (fits : ColumnType → Cell → Bool) (d : Decl) (ts : Tables) (old : List Row) (r : Row) : Bool :=
  d.columns.all (fun c => (r.cell c.name).any (fits c.type)) &&
    d.keys.all (fun k => old.all fun r' => k.map r'.cell ≠ k.map r.cell) &&
    d.foreign.all (fun f => (ts f.table).any fun r' => r'.cell f.target = r.cell f.column)

/-- Rows that meet the declaration, in a table that has some already. -/
structure Meets (fits : ColumnType → Cell → Bool) (d : Decl) (ts : Tables) (old rows : List Row) : Prop where
  columns : ∀ r ∈ rows, ∀ c ∈ d.columns, (r.cell c.name).any (fits c.type) = true
  fresh : ∀ k ∈ d.keys, ∀ r' ∈ old, ∀ r ∈ rows, k.map r'.cell ≠ k.map r.cell
  keys : ∀ k ∈ d.keys, rows.Pairwise fun r r' => k.map r.cell ≠ k.map r'.cell
  foreign : ∀ f ∈ d.foreign, ∀ r ∈ rows, ∃ r' ∈ ts f.table, r'.cell f.target = r.cell f.column

instance (fits : ColumnType → Cell → Bool) (d : Decl) (ts : Tables) (old rows : List Row) :
    Decidable (d.Meets fits ts old rows) :=
  decidable_of_iff ((∀ r ∈ rows, ∀ c ∈ d.columns, (r.cell c.name).any (fits c.type) = true) ∧
      (∀ k ∈ d.keys, ∀ r' ∈ old, ∀ r ∈ rows, k.map r'.cell ≠ k.map r.cell) ∧
      (∀ k ∈ d.keys, rows.Pairwise fun r r' => k.map r.cell ≠ k.map r'.cell) ∧
      ∀ f ∈ d.foreign, ∀ r ∈ rows, ∃ r' ∈ ts f.table, r'.cell f.target = r.cell f.column)
    ⟨fun h => ⟨h.1, h.2.1, h.2.2.1, h.2.2.2⟩, fun h => ⟨h.columns, h.fresh, h.keys, h.foreign⟩⟩

end Decl

/-- `INSERT INTO t(names) VALUES (vs)`, or `INSERT INTO t VALUES (vs)` -/
def insert (s : Schema) (ts : Tables) (t : String) (names : Option (List String)) (vs : List Cell) :
    Option Tables :=
  (s.decl t).bind fun d =>
  let ns := names.getD d.names
  if ns.length = vs.length ∧ ∀ n ∈ ns, n ∈ d.names then
    let r := d.row fun c => (ns.zip vs).lookup c
    if d.admits s.fits ts (ts t) r then some (Function.update ts t (ts t ++ [r])) else none
  else none

/-- Select columns of rows, each read with a conversion that can fail, and insert them. -/
def copyRows (s : Schema) (t : String) (names : Option (List String))
    (columns : List (String × (Cell → Option Cell))) : List Row → Tables → Option Tables
  | [], ts => some ts
  | r :: rs, ts =>
      (columns.mapM fun c => (r.cell c.1).bind c.2).bind fun vs =>
      (insert s ts t names vs).bind (copyRows s t names columns rs)

/-- One loop of a copy: a table, the columns selected from it, and those the `INSERT` names. -/
structure Loop where
  table : String
  columns : List (String × (Cell → Option Cell))
  named : Option (List String) := none

/-- One loop after the other. -/
def copyTables (s : Schema) (src : Tables) : List Loop → Tables → Option Tables
  | [], ts => some ts
  | l :: ls, ts => (copyRows s l.table l.named l.columns (src l.table) ts).bind (copyTables s src ls)

/-! ## Rows -/

/-- A cell of a row that was put together from values. -/
theorem cell_row {d : Decl} {value : String → Option Cell} {c : String} (hc : c ∈ d.names)
    (hvalue : (value c).isSome) : (d.row value).cell c = value c := by
  obtain ⟨x, hx⟩ := Option.isSome_iff_exists.1 hvalue
  unfold Decl.names at hc
  unfold Row.cell Decl.row
  generalize d.columns = cols at hc ⊢
  induction cols with
  | nil => exact absurd hc (by simp)
  | cons col cols ih =>
      by_cases hcol : c = col.name
      · subst hcol
        simp [hx]
      · have hrest := ih ((List.mem_cons.1 hc).resolve_left hcol)
        rw [List.filterMap_cons]
        cases hval : (value col.name <|> col.default) with
        | none => exact hrest
        | some y =>
            rw [Option.map_some, List.lookup_cons, beq_eq_false_iff_ne.2 hcol]
            exact hrest

/-- Values beside their names. -/
theorem lookup_zip {ns : List String} {vs : List Cell} {f : String → Option Cell}
    (h : vs.map some = ns.map f) {n : String} (hn : n ∈ ns) : (ns.zip vs).lookup n = f n := by
  induction ns generalizing vs with
  | nil => exact absurd hn (by simp)
  | cons n' ns ih =>
      cases vs with
      | nil => exact absurd h (by simp)
      | cons v vs =>
          rw [List.map_cons, List.map_cons, List.cons.injEq] at h
          rw [List.zip_cons_cons, List.lookup_cons]
          by_cases hnn : n = n'
          · subst hnn
            rw [beq_self_eq_true, ← h.1]
          · rw [beq_eq_false_iff_ne.2 hnn]
            exact ih h.2 ((List.mem_cons.1 hn).resolve_left hnn)

/-- The row as the table of the declaration stores it. -/
def Decl.store (d : Decl) (r : Row) : Row := d.row r.cell

/-! ## Declarations -/

theorem Decl.admits_iff {fits : ColumnType → Cell → Bool} {d : Decl} {ts : Tables} {old : List Row} {r : Row} :
    d.admits fits ts old r = true ↔ (∀ c ∈ d.columns, (r.cell c.name).any (fits c.type) = true) ∧
      (∀ k ∈ d.keys, ∀ r' ∈ old, k.map r'.cell ≠ k.map r.cell) ∧
        ∀ f ∈ d.foreign, ∃ r' ∈ ts f.table, r'.cell f.target = r.cell f.column := by
  simp only [Decl.admits, Bool.and_eq_true, List.all_eq_true, List.any_eq_true, decide_eq_true_eq, and_assoc]

theorem Decl.meets_nil (fits : ColumnType → Cell → Bool) (d : Decl) (ts : Tables) (old : List Row) :
    d.Meets fits ts old [] where
  columns _ h := absurd h List.not_mem_nil
  fresh _ _ _ _ _ h := absurd h List.not_mem_nil
  keys _ _ := .nil
  foreign _ _ _ h := absurd h List.not_mem_nil

/-- **Rows meet a declaration when each is accepted behind those before it.** -/
theorem Decl.meets_cons {fits : ColumnType → Cell → Bool} {d : Decl} {ts : Tables} {old rows : List Row} {r : Row} :
    d.Meets fits ts old (r :: rows) ↔ d.admits fits ts old r = true ∧ d.Meets fits ts (old ++ [r]) rows := by
  rw [Decl.admits_iff]
  constructor
  · intro h
    refine ⟨⟨h.columns r List.mem_cons_self, fun k hk r' hr' => h.fresh k hk r' hr' r List.mem_cons_self,
      fun f hf => h.foreign f hf r List.mem_cons_self⟩, ?_⟩
    refine ⟨fun r' hr' => h.columns r' (List.mem_cons_of_mem r hr'), fun k hk r' hr' r'' hr'' => ?_,
      fun k hk => (List.pairwise_cons.1 (h.keys k hk)).2,
      fun f hf r' hr' => h.foreign f hf r' (List.mem_cons_of_mem r hr')⟩
    rcases List.mem_append.1 hr' with hr' | hr'
    · exact h.fresh k hk r' hr' r'' (List.mem_cons_of_mem r hr'')
    · obtain rfl := List.mem_singleton.1 hr'
      exact (List.pairwise_cons.1 (h.keys k hk)).1 r'' hr''
  · rintro ⟨⟨hcolumns, hfresh, hforeign⟩, h⟩
    refine ⟨List.forall_mem_cons.2 ⟨hcolumns, h.columns⟩, fun k hk r' hr' => ?_, fun k hk => ?_,
      fun f hf => List.forall_mem_cons.2 ⟨hforeign f hf, h.foreign f hf⟩⟩
    · refine List.forall_mem_cons.2 ⟨hfresh k hk r' hr', fun r'' hr'' => ?_⟩
      exact h.fresh k hk r' (List.mem_append_left [r] hr') r'' hr''
    · refine List.pairwise_cons.2 ⟨fun r'' hr'' => ?_, h.keys k hk⟩
      exact h.fresh k hk r (List.mem_append_right old (List.mem_singleton_self r)) r'' hr''

/-- What a declaration asks of rows depends on the tables it refers to only. -/
theorem Decl.Meets.congr_tables {fits : ColumnType → Cell → Bool} {d : Decl} {ts ts' : Tables}
    {old rows : List Row} (h : d.Meets fits ts old rows)
    (hts : ∀ f ∈ d.foreign, ∀ x, (∃ r ∈ ts f.table, r.cell f.target = x) → ∃ r ∈ ts' f.table, r.cell f.target = x) :
    d.Meets fits ts' old rows where
  columns := h.columns
  fresh := h.fresh
  keys := h.keys
  foreign f hf r hr := hts f hf _ (h.foreign f hf r hr)

/-! ## Loops -/

/-- A declaration that speaks of its own columns, and of other tables. -/
structure Decl.Closed (d : Decl) (t : String) : Prop where
  keys : ∀ k ∈ d.keys, ∀ c ∈ k, c ∈ d.names
  foreign : ∀ f ∈ d.foreign, f.column ∈ d.names ∧ f.table ≠ t

instance (d : Decl) (t : String) : Decidable (d.Closed t) :=
  decidable_of_iff ((∀ k ∈ d.keys, ∀ c ∈ k, c ∈ d.names) ∧ ∀ f ∈ d.foreign, f.column ∈ d.names ∧ f.table ≠ t)
    ⟨fun h => ⟨h.1, h.2⟩, fun h => ⟨h.keys, h.foreign⟩⟩

/-- A loop that selects the columns of a table and inserts them in the same order. -/
structure Loop.Suits (l : Loop) (d : Decl) : Prop where
  named : l.named.getD d.names = l.columns.map Prod.fst
  known : ∀ c ∈ l.columns.map Prod.fst, c ∈ d.names
  complete : ∀ c ∈ d.names, c ∈ l.columns.map Prod.fst

instance (l : Loop) (d : Decl) : Decidable (l.Suits d) :=
  decidable_of_iff (l.named.getD d.names = l.columns.map Prod.fst ∧
      (∀ c ∈ l.columns.map Prod.fst, c ∈ d.names) ∧ ∀ c ∈ d.names, c ∈ l.columns.map Prod.fst)
    ⟨fun h => ⟨h.1, h.2.1, h.2.2⟩, fun h => ⟨h.named, h.known, h.complete⟩⟩

/-- A row whose selected columns can be read. -/
def Loop.Reads (l : Loop) (r : Row) : Prop := ∀ c ∈ l.columns, ∃ x, r.cell c.1 = some x ∧ c.2 x = some x

section
variable {s : Schema} {d : Decl} {l : Loop} {ts ts' : Tables} {r : Row}

/-- The values that are read of a row. -/
theorem Loop.Reads.mapM (h : l.Reads r) : ∃ vs, (l.columns.mapM fun c => (r.cell c.1).bind c.2) = some vs ∧
    vs.map some = (l.columns.map Prod.fst).map r.cell := by
  unfold Loop.Reads at h
  generalize l.columns = cs at h ⊢
  induction cs with
  | nil => exact ⟨[], rfl, rfl⟩
  | cons c cs ih =>
      obtain ⟨x, hx, hget⟩ := h c List.mem_cons_self
      obtain ⟨vs, hvs, hmap⟩ := ih fun c' hc' => h c' (List.mem_cons_of_mem c hc')
      refine ⟨x :: vs, ?_, ?_⟩
      · rw [List.mapM_cons, hvs, hx, Option.bind_some, hget]
        rfl
      · rw [List.map_cons, List.map_cons, List.map_cons, hmap, hx]

/-- **One turn of a loop**: the row is inserted as it was if the table accepts it. -/
theorem insert_of_reads (hdecl : s.decl l.table = some d) (hsuits : l.Suits d) {vs : List Cell}
    (hvs : vs.map some = (l.columns.map Prod.fst).map r.cell) :
    insert s ts l.table l.named vs =
      if d.admits s.fits ts (ts l.table) (d.store r) then some (Function.update ts l.table (ts l.table ++ [d.store r]))
      else none := by
  have hlength : (l.named.getD d.names).length = vs.length := by
    rw [hsuits.named, ← @List.length_map _ _ vs some, hvs, @List.length_map _ _ (l.columns.map Prod.fst)]
  have hrow : (d.row fun c => ((l.named.getD d.names).zip vs).lookup c) = d.store r := by
    unfold Decl.store Decl.row
    refine List.filterMap_congr fun c hc => ?_
    have hname : c.name ∈ l.columns.map Prod.fst := hsuits.complete c.name (List.mem_map_of_mem hc)
    dsimp only
    rw [hsuits.named, lookup_zip hvs hname]
  rw [insert, hdecl, Option.bind_some]
  simp only [hrow]
  rw [if_pos ⟨hlength, fun n hn => hsuits.known n (hsuits.named ▸ hn)⟩]

/-- **A loop goes through when the rows together meet the declaration.** -/
theorem copyRows_eq_some (hdecl : s.decl l.table = some d) (hsuits : l.Suits d) (hclosed : d.Closed l.table)
    {rows : List Row} (hreads : ∀ r ∈ rows, l.Reads r) :
    copyRows s l.table l.named l.columns rows ts = some ts' ↔
      d.Meets s.fits ts (ts l.table) (rows.map d.store) ∧
        ts' = Function.update ts l.table (ts l.table ++ rows.map d.store) := by
  induction rows generalizing ts with
  | nil =>
      rw [copyRows, List.map_nil, List.append_nil, Function.update_eq_self, Option.some.injEq]
      exact ⟨fun h => ⟨d.meets_nil _ _ _, h.symm⟩, fun h => h.2.symm⟩
  | cons r rows ih =>
      obtain ⟨vs, hvs, hmap⟩ := (hreads r List.mem_cons_self).mapM
      rw [copyRows, hvs, Option.bind_some, insert_of_reads hdecl hsuits hmap, List.map_cons, Decl.meets_cons]
      by_cases hadmits : d.admits s.fits ts (ts l.table) (d.store r) = true
      · rw [if_pos hadmits, Option.bind_some, ih fun r' hr' => hreads r' (List.mem_cons_of_mem r hr'),
          Function.update_self, Function.update_idem, List.append_assoc, List.singleton_append]
        have hother : ∀ f ∈ d.foreign,
            Function.update ts l.table (ts l.table ++ [d.store r]) f.table = ts f.table :=
          fun f hf => Function.update_of_ne (hclosed.foreign f hf).2 _ _
        refine and_congr_left fun _ => ⟨fun h => ⟨hadmits, h.congr_tables fun f hf x hx => ?_⟩,
          fun h => h.2.congr_tables fun f hf x hx => ?_⟩
        · rwa [hother f hf] at hx
        · rwa [hother f hf]
      · rw [if_neg hadmits, Option.bind_none]
        exact ⟨fun h => absurd h (by simp), fun h => absurd h.1.1 hadmits⟩

/-! ## One table after the other -/

/-- The declarations of loops whose foreign keys lead to tables that were copied before. -/
def Ordered (s : Schema) : List String → List Loop → Prop
  | _, [] => True
  | done, l :: ls => (∃ d ∈ s.decl l.table, l.Suits d ∧ d.Closed l.table ∧
      ∀ f ∈ d.foreign, f.table ∈ done ∧ ∃ d' ∈ s.decl f.table, f.target ∈ d'.names) ∧
      l.table ∉ done ∧ Ordered s (done ++ [l.table]) ls

instance (s : Schema) : ∀ done ls, Decidable (Ordered s done ls)
  | _, [] => isTrue trivial
  | done, l :: ls =>
      have : Decidable (Ordered s (done ++ [l.table]) ls) := instDecidableOrdered s (done ++ [l.table]) ls
      inferInstanceAs (Decidable ((∃ d ∈ s.decl l.table, _) ∧ _ ∧ _))

/-- The rows of a table as another schema stores them. -/
def stored (s : Schema) (src : Tables) (t : String) : List Row :=
  (src t).map fun r => ((s.decl t).map fun d => d.store r).getD r

/-- Rows that meet what a schema declares for each of some tables. -/
def Schema.Meets (s : Schema) (names : List String) (ts : Tables) : Prop :=
  ∀ t ∈ names, ∀ d ∈ s.decl t, d.Meets s.fits ts [] (ts t)

instance (s : Schema) (names : List String) (ts : Tables) : Decidable (s.Meets names ts) :=
  inferInstanceAs (Decidable (∀ t ∈ names, ∀ d ∈ s.decl t, d.Meets s.fits ts [] (ts t)))

/-- Every row has a cell in every column. -/
def Schema.Filled (s : Schema) (ts : Tables) : Prop :=
  ∀ t d, s.decl t = some d → ∀ r ∈ ts t, ∀ c ∈ d.names, (r.cell c).isSome

theorem cell_store {c : String} (hc : c ∈ d.names) (hfilled : (r.cell c).isSome) : (d.store r).cell c = r.cell c :=
  cell_row hc hfilled

theorem stored_of_decl {src : Tables} {t : String} (hdecl : s.decl t = some d) :
    stored s src t = (src t).map d.store := by
  rw [stored, hdecl]
  rfl

/-- A key of a row that is stored elsewhere. -/
theorem map_cell_store {k : List String} (hk : ∀ c ∈ k, c ∈ d.names) (hfilled : ∀ c ∈ d.names, (r.cell c).isSome) :
    k.map (d.store r).cell = k.map r.cell :=
  List.map_congr_left fun c hc => cell_store (hk c hc) (hfilled c (hk c hc))

/-- **Storing rows elsewhere leaves what is asked of them.** -/
theorem meets_stored {src : Tables} {t : String} (hdecl : s.decl t = some d) (hclosed : d.Closed t)
    (hfilled : s.Filled src)
    (hforeign : ∀ f ∈ d.foreign, ts f.table = stored s src f.table ∧ ∃ d', s.decl f.table = some d' ∧ f.target ∈ d'.names) :
    d.Meets s.fits ts [] ((src t).map d.store) ↔ d.Meets s.fits src [] (src t) := by
  have hcells (r) (hr : r ∈ src t) (c) (hc : c ∈ d.names) : (d.store r).cell c = r.cell c :=
    cell_store hc (hfilled t d hdecl r hr c hc)
  have hcolumn (r) (hr : r ∈ src t) (c) (hc : c ∈ d.columns) : (d.store r).cell c.name = r.cell c.name :=
    hcells r hr c.name (List.mem_map_of_mem hc)
  have hkey (k) (hk : k ∈ d.keys) (r) (hr : r ∈ src t) : k.map (d.store r).cell = k.map r.cell :=
    map_cell_store (hclosed.keys k hk) (hfilled t d hdecl r hr)
  have htarget (f) (hf : f ∈ d.foreign) (x : Option Cell) :
      (∃ r ∈ ts f.table, r.cell f.target = x) ↔ ∃ r ∈ src f.table, r.cell f.target = x := by
    obtain ⟨hts, d', hdecl', hmem⟩ := hforeign f hf
    rw [hts, stored_of_decl hdecl']
    constructor
    · rintro ⟨r', hr', hx⟩
      obtain ⟨r, hr, rfl⟩ := List.mem_map.1 hr'
      exact ⟨r, hr, (cell_store hmem (hfilled _ d' hdecl' r hr _ hmem)).symm.trans hx⟩
    · rintro ⟨r, hr, hx⟩
      exact ⟨d'.store r, List.mem_map_of_mem hr, (cell_store hmem (hfilled _ d' hdecl' r hr _ hmem)).trans hx⟩
  have hpairwise (k) (hk : k ∈ d.keys) : (((src t).map d.store).Pairwise fun r r' => k.map r.cell ≠ k.map r'.cell) ↔
      (src t).Pairwise fun r r' => k.map r.cell ≠ k.map r'.cell := by
    rw [List.pairwise_map]
    refine List.Pairwise.iff_of_mem fun {r r'} hr hr' => ?_
    rw [hkey k hk r hr, hkey k hk r' hr']
  constructor
  · intro h
    refine ⟨fun r hr c hc => ?_, fun _ _ _ h => absurd h List.not_mem_nil, fun k hk => (hpairwise k hk).1 (h.keys k hk),
      fun f hf r hr => ?_⟩
    · rw [← hcolumn r hr c hc]
      exact h.columns _ (List.mem_map_of_mem hr) c hc
    · rw [← htarget f hf, ← hcells r hr f.column (hclosed.foreign f hf).1]
      exact h.foreign f hf _ (List.mem_map_of_mem hr)
  · intro h
    refine ⟨?_, fun _ _ _ h => absurd h List.not_mem_nil, fun k hk => (hpairwise k hk).2 (h.keys k hk), ?_⟩
    · rw [List.forall_mem_map]
      intro r hr c hc
      rw [hcolumn r hr c hc]
      exact h.columns r hr c hc
    · intro f hf
      rw [List.forall_mem_map]
      intro r hr
      rw [htarget f hf, hcells r hr f.column (hclosed.foreign f hf).1]
      exact h.foreign f hf r hr

theorem Ordered.notMem {done : List String} {ls : List Loop} (h : Ordered s done ls) : ∀ l ∈ ls, l.table ∉ done := by
  induction ls generalizing done with
  | nil => exact fun _ hl => absurd hl List.not_mem_nil
  | cons l ls ih =>
      obtain ⟨-, hl, hrest⟩ := h
      refine List.forall_mem_cons.2 ⟨hl, fun l' hl' hmem => ?_⟩
      exact ih hrest l' hl' (List.mem_append_left _ hmem)

/-- Each loop selects the columns of a declared table. -/
theorem Ordered.suits {done : List String} {ls : List Loop} (h : Ordered s done ls) :
    ∀ l ∈ ls, ∃ d, s.decl l.table = some d ∧ l.Suits d := by
  induction ls generalizing done with
  | nil => exact fun _ hl => absurd hl List.not_mem_nil
  | cons l ls ih =>
      obtain ⟨⟨d, hdecl, hsuits, -⟩, -, hrest⟩ := h
      exact List.forall_mem_cons.2 ⟨⟨d, hdecl, hsuits⟩, ih hrest⟩

/-- **A copy goes through when the tables together meet the declarations**, and leaves them as they were
beside what was there. -/
theorem copyTables_eq_some {src : Tables} {done : List String} {ls : List Loop} (hordered : Ordered s done ls)
    (hfilled : s.Filled src) (hreads : ∀ l ∈ ls, ∀ r ∈ src l.table, l.Reads r)
    (hdone : ∀ t ∈ done, ts t = stored s src t) (hempty : ∀ l ∈ ls, ts l.table = []) :
    copyTables s src ls ts = some ts' ↔ s.Meets (ls.map Loop.table) src ∧
      ts' = fun t => if t ∈ ls.map Loop.table then stored s src t else ts t := by
  induction ls generalizing done ts with
  | nil =>
      rw [copyTables, Option.some.injEq]
      refine ⟨fun h => ⟨fun _ ht => absurd ht List.not_mem_nil, ?_⟩, fun h => ?_⟩
      · funext t
        rw [if_neg (show t ∉ List.map Loop.table [] from List.not_mem_nil), h]
      · rw [h.2]
        funext t
        rw [if_neg (show t ∉ List.map Loop.table [] from List.not_mem_nil)]
  | cons l ls ih =>
      obtain ⟨⟨d, hdecl, hsuits, hclosed, hforeign⟩, hl, hrest⟩ := hordered
      have hold : ts l.table = [] := hempty l List.mem_cons_self
      have hmeets : d.Meets s.fits ts [] ((src l.table).map d.store) ↔ d.Meets s.fits src [] (src l.table) :=
        meets_stored hdecl hclosed hfilled fun f hf => ⟨hdone _ (hforeign f hf).1, (hforeign f hf).2⟩
      -- the tables after this loop
      let ts₁ := Function.update ts l.table (stored s src l.table)
      have hdone₁ : ∀ t ∈ done ++ [l.table], ts₁ t = stored s src t := by
        intro t ht
        by_cases htl : t = l.table
        · rw [htl]
          exact Function.update_self _ _ _
        · rw [show ts₁ t = ts t from Function.update_of_ne htl _ _]
          exact hdone t ((List.mem_append.1 ht).resolve_right fun h => htl (List.mem_singleton.1 h))
      have hlater : ∀ l' ∈ ls, l'.table ≠ l.table := fun l' hl' h =>
        hrest.notMem l' hl' (List.mem_append_right _ (List.mem_singleton.2 h))
      have hempty₁ : ∀ l' ∈ ls, ts₁ l'.table = [] := by
        intro l' hl'
        rw [show ts₁ l'.table = ts l'.table from Function.update_of_ne (hlater l' hl') _ _]
        exact hempty l' (List.mem_cons_of_mem l hl')
      have hih := ih hrest (fun l' hl' => hreads l' (List.mem_cons_of_mem l hl')) hdone₁ hempty₁
      have htables : (fun t => if t ∈ ls.map Loop.table then stored s src t else ts₁ t) =
          fun t => if t ∈ (l :: ls).map Loop.table then stored s src t else ts t := by
        funext t
        rw [List.map_cons]
        by_cases htl : t = l.table
        · rw [if_pos (show t ∈ l.table :: ls.map Loop.table from htl ▸ List.mem_cons_self), htl,
            show ts₁ l.table = stored s src l.table from Function.update_self _ _ _, ite_self]
        · rw [show ts₁ t = ts t from Function.update_of_ne htl _ _]
          simp only [List.mem_cons, htl, false_or]
      rw [copyTables, Option.bind_eq_some_iff]
      have hloop {ts₂ : Tables} : copyRows s l.table l.named l.columns (src l.table) ts = some ts₂ ↔
          d.Meets s.fits src [] (src l.table) ∧ ts₂ = ts₁ := by
        rw [copyRows_eq_some hdecl hsuits hclosed (hreads l List.mem_cons_self), hold, List.nil_append, hmeets,
          ← stored_of_decl hdecl]
      have hschema : s.Meets ((l :: ls).map Loop.table) src ↔
          d.Meets s.fits src [] (src l.table) ∧ s.Meets (ls.map Loop.table) src := by
        rw [List.map_cons, Schema.Meets, List.forall_mem_cons]
        refine and_congr_left fun _ => ⟨fun h => h d hdecl, fun h d' hd' => ?_⟩
        obtain rfl := Option.some.inj (hdecl.symm.trans hd')
        exact h
      rw [hschema, ← htables]
      constructor
      · rintro ⟨ts₂, hcopy, hcopies⟩
        obtain ⟨hd, rfl⟩ := hloop.1 hcopy
        obtain ⟨hs, rfl⟩ := hih.1 hcopies
        exact ⟨⟨hd, hs⟩, rfl⟩
      · rintro ⟨⟨hd, hs⟩, rfl⟩
        exact ⟨ts₁, hloop.2 ⟨hd, rfl⟩, hih.2 ⟨hs, rfl⟩⟩

end

end Relational
