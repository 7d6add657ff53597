import Mathlib.Data.List.Nodup

set_option autoImplicit false

/-! # Keyed tables

A `Table` is a list of rows of which no two have the same key; an `AutoTable` also hands out its keys
in increasing order, from 1 to the largest number `bound` its key column holds, and never hands one
out twice (`AUTOINCREMENT`). The invariants are fields, so every table a statement can build has
them. -/

namespace Store

/-- Rows under a unique key. -/
@[ext] structure Table (ρ κ : Type) (key : ρ → κ) where
  rows : List ρ
  nodup : (rows.map key).Nodup

/-- Rows under an integer key that the table hands out; `seq` is the last key handed out. -/
@[ext] structure AutoTable (ρ : Type) (key : ρ → Int) (bound : Int) extends Table ρ Int key where
  seq : Int
  key_pos : ∀ r ∈ rows, 0 < key r
  le_seq : ∀ r ∈ rows, key r ≤ seq
  seq_nonneg : 0 ≤ seq
  seq_le : seq ≤ bound

/-! ## Tables -/

namespace Table

variable {ρ κ : Type} {key : ρ → κ}

def empty : Table ρ κ key := ⟨[], List.nodup_nil⟩

/-- Rewrite the selected rows; their keys stay. -/
def update (t : Table ρ κ key) (p : ρ → Bool) (f : ρ → ρ) (hf : ∀ r, key (f r) = key r) :
    Table ρ κ key where
  rows := t.rows.map (fun r => if p r then f r else r)
  nodup := by
    have hkey : key ∘ (fun r => if p r then f r else r) = key := by
      funext r
      by_cases hp : p r <;> simp [hp, hf]
    rw [List.map_map, hkey]
    exact t.nodup

/-- Drop the selected rows. -/
def delete (t : Table ρ κ key) (p : ρ → Bool) : Table ρ κ key where
  rows := t.rows.filter (fun r => !p r)
  nodup := t.nodup.sublist (List.filter_sublist.map key)

section
variable [DecidableEq κ]

/-- Append a row; the constraint refuses a key that is in use. -/
def insert? (t : Table ρ κ key) (r : ρ) : Option (Table ρ κ key) :=
  if h : key r ∈ t.rows.map key then none
  else some
    { rows := t.rows ++ [r]
      nodup := by
        rw [List.map_append, List.nodup_append]
        refine ⟨t.nodup, List.nodup_singleton _, ?_⟩
        rintro a ha b hb rfl
        rw [List.map_singleton, List.mem_singleton] at hb
        exact h (hb ▸ ha) }

/-- The row under a key. -/
def find? (t : Table ρ κ key) (k : κ) : Option ρ := t.rows.find? (fun r => key r = k)

theorem find?_eq_some (t : Table ρ κ key) (k : κ) (r : ρ) :
    t.find? k = some r ↔ r ∈ t.rows ∧ key r = k := by
  constructor
  · intro h
    exact ⟨List.mem_of_find?_eq_some h, by simpa using List.find?_some h⟩
  · rintro ⟨hr, rfl⟩
    obtain ⟨r', hr'⟩ : ∃ r', t.find? (key r) = some r' := by
      cases h : t.find? (key r) with
      | some r' => exact ⟨r', rfl⟩
      | none => exact absurd (List.find?_eq_none.1 h r hr) (by simp)
    have hkey : key r' = key r := by simpa using List.find?_some hr'
    rw [hr', List.inj_on_of_nodup_map t.nodup (List.mem_of_find?_eq_some hr') hr hkey]

theorem find?_eq_none (t : Table ρ κ key) (k : κ) :
    t.find? k = none ↔ ∀ r ∈ t.rows, key r ≠ k := by
  simp [find?, List.find?_eq_none]

theorem insert?_eq_some {t t' : Table ρ κ key} {r : ρ} (h : t.insert? r = some t') :
    t'.rows = t.rows ++ [r] := by
  simp only [insert?] at h
  split at h
  · cases h
  · cases h; rfl

theorem insert?_eq_none (t : Table ρ κ key) (r : ρ) :
    t.insert? r = none ↔ ∃ r' ∈ t.rows, key r' = key r := by
  simp only [insert?]
  split
  · next h => simpa using h
  · next h => simpa using h

theorem insert?_isSome (t : Table ρ κ key) (r : ρ) (h : ∀ r' ∈ t.rows, key r' ≠ key r) :
    ∃ t', t.insert? r = some t' := by
  cases hi : t.insert? r with
  | some t' => exact ⟨t', rfl⟩
  | none =>
      obtain ⟨r', hr', hk⟩ := (insert?_eq_none t r).1 hi
      exact absurd hk (h r' hr')

end

@[simp] theorem update_rows (t : Table ρ κ key) (p : ρ → Bool) (f : ρ → ρ)
    (hf : ∀ r, key (f r) = key r) :
    (t.update p f hf).rows = t.rows.map (fun r => if p r then f r else r) := rfl

@[simp] theorem delete_rows (t : Table ρ κ key) (p : ρ → Bool) :
    (t.delete p).rows = t.rows.filter (fun r => !p r) := rfl

theorem mem_update {t : Table ρ κ key} {p : ρ → Bool} {f : ρ → ρ} {hf : ∀ r, key (f r) = key r}
    {r : ρ} : r ∈ (t.update p f hf).rows ↔ ∃ r' ∈ t.rows, (if p r' then f r' else r') = r := by
  simp [List.mem_map]

theorem mem_delete {t : Table ρ κ key} {p : ρ → Bool} {r : ρ} :
    r ∈ (t.delete p).rows ↔ r ∈ t.rows ∧ p r = false := by
  simp [List.mem_filter]

end Table

/-! ## Tables that hand out their keys -/

namespace AutoTable

variable {ρ : Type} {key : ρ → Int} {bound : Int}

def empty (hb : 0 ≤ bound) : AutoTable ρ key bound :=
  { Table.empty with
    seq := 0
    key_pos := fun _ h => absurd h List.not_mem_nil
    le_seq := fun _ h => absurd h List.not_mem_nil
    seq_nonneg := Int.le_refl 0
    seq_le := hb }

theorem mem_append_fresh {t : AutoTable ρ key bound} {r x : ρ} (h : x ∈ t.rows ++ [r])
    (hr : key r = t.seq + 1) : 0 < key x ∧ key x ≤ t.seq + 1 := by
  rcases List.mem_append.1 h with hx | hx
  · have := t.key_pos x hx
    have := t.le_seq x hx
    omega
  · have := t.seq_nonneg
    rw [List.mem_singleton.1 hx]
    omega

/-- Append a row under a fresh key; refused when the keys are used up. -/
def insert? (t : AutoTable ρ key bound) (mk : Int → ρ) (hmk : ∀ i, key (mk i) = i) :
    Option (AutoTable ρ key bound) :=
  if h : t.seq < bound then some
    { rows := t.rows ++ [mk (t.seq + 1)]
      nodup := by
        rw [List.map_append, List.nodup_append]
        refine ⟨t.nodup, List.nodup_singleton _, ?_⟩
        rintro a ha b hb rfl
        obtain ⟨r, hr, rfl⟩ := List.mem_map.1 ha
        rw [List.map_singleton, List.mem_singleton, hmk] at hb
        have := t.le_seq r hr
        omega
      seq := t.seq + 1
      key_pos := fun _ hx => (mem_append_fresh hx (hmk _)).1
      le_seq := fun _ hx => (mem_append_fresh hx (hmk _)).2
      seq_nonneg := by have := t.seq_nonneg; omega
      seq_le := h }
  else none

theorem mem_update {t : AutoTable ρ key bound} {p : ρ → Bool} {f : ρ → ρ}
    {hf : ∀ r, key (f r) = key r} {r : ρ} (h : r ∈ (t.toTable.update p f hf).rows) :
    ∃ r' ∈ t.rows, key r = key r' := by
  obtain ⟨r', hr', rfl⟩ := Table.mem_update.1 h
  refine ⟨r', hr', ?_⟩
  split <;> simp [hf]

/-- Rewrite the selected rows; their keys stay. -/
def update (t : AutoTable ρ key bound) (p : ρ → Bool) (f : ρ → ρ) (hf : ∀ r, key (f r) = key r) :
    AutoTable ρ key bound :=
  { t.toTable.update p f hf with
    seq := t.seq
    key_pos := by
      intro r hr
      obtain ⟨r', hr', hk⟩ := mem_update hr
      exact hk ▸ t.key_pos r' hr'
    le_seq := by
      intro r hr
      obtain ⟨r', hr', hk⟩ := mem_update hr
      exact hk ▸ t.le_seq r' hr'
    seq_nonneg := t.seq_nonneg
    seq_le := t.seq_le }

/-- Drop the selected rows; their keys are not handed out again. -/
def delete (t : AutoTable ρ key bound) (p : ρ → Bool) : AutoTable ρ key bound :=
  { t.toTable.delete p with
    seq := t.seq
    key_pos := fun r hr => t.key_pos r (Table.mem_delete.1 hr).1
    le_seq := fun r hr => t.le_seq r (Table.mem_delete.1 hr).1
    seq_nonneg := t.seq_nonneg
    seq_le := t.seq_le }

/-- What an insertion does. -/
theorem insert?_eq_some {t t' : AutoTable ρ key bound} {mk : Int → ρ} {hmk : ∀ i, key (mk i) = i}
    (h : t.insert? mk hmk = some t') :
    t.seq < bound ∧ t'.rows = t.rows ++ [mk (t.seq + 1)] ∧ t'.seq = t.seq + 1 := by
  simp only [insert?] at h
  split at h
  · next hb => cases h; exact ⟨hb, rfl, rfl⟩
  · cases h

@[simp] theorem update_rows (t : AutoTable ρ key bound) (p : ρ → Bool) (f : ρ → ρ)
    (hf : ∀ r, key (f r) = key r) :
    (t.update p f hf).rows = t.rows.map (fun r => if p r then f r else r) := rfl

@[simp] theorem update_seq (t : AutoTable ρ key bound) (p : ρ → Bool) (f : ρ → ρ)
    (hf : ∀ r, key (f r) = key r) : (t.update p f hf).seq = t.seq := rfl

@[simp] theorem delete_rows (t : AutoTable ρ key bound) (p : ρ → Bool) :
    (t.delete p).rows = t.rows.filter (fun r => !p r) := rfl

@[simp] theorem delete_seq (t : AutoTable ρ key bound) (p : ρ → Bool) :
    (t.delete p).seq = t.seq := rfl

theorem mem_update_rows {t : AutoTable ρ key bound} {p : ρ → Bool} {f : ρ → ρ}
    {hf : ∀ r, key (f r) = key r} {r : ρ} :
    r ∈ (t.update p f hf).rows ↔ ∃ r' ∈ t.rows, (if p r' then f r' else r') = r := by
  simp [List.mem_map]

theorem mem_delete_rows {t : AutoTable ρ key bound} {p : ρ → Bool} {r : ρ} :
    r ∈ (t.delete p).rows ↔ r ∈ t.rows ∧ p r = false := by
  simp [List.mem_filter]

/-- A rewritten row is found under its old key. -/
theorem exists_mem_update {t : AutoTable ρ key bound} {p : ρ → Bool} {f : ρ → ρ}
    (hf : ∀ r, key (f r) = key r) {r : ρ} (hr : r ∈ t.rows) :
    ∃ r' ∈ (t.update p f hf).rows, key r' = key r := by
  refine ⟨if p r then f r else r, List.mem_map_of_mem hr, ?_⟩
  split
  · exact hf r
  · rfl

/-- A key above `seq` is not in the table. -/
theorem key_ne_of_seq_lt {t : AutoTable ρ key bound} {i : Int} (hi : t.seq < i) {r : ρ}
    (hr : r ∈ t.rows) : key r ≠ i := by
  have := t.le_seq r hr
  omega

/-! ### Looking up a key after a statement -/

theorem find?_map {l : List ρ} {g : ρ → ρ} (hg : ∀ r, key (g r) = key r) (k : Int) :
    (l.map g).find? (fun r => key r = k) = (l.find? (fun r => key r = k)).map g := by
  rw [List.find?_map]
  congr 2
  funext r
  simp [hg]

theorem find?_update {t : AutoTable ρ key bound} {p : ρ → Bool} {f : ρ → ρ}
    {hf : ∀ r, key (f r) = key r} (k : Int) :
    (t.update p f hf).find? k = (t.find? k).map (fun r => if p r then f r else r) :=
  find?_map (fun r => by split <;> simp [hf]) k

/-- Rewriting other rows. -/
theorem find?_update_ne {t : AutoTable ρ key bound} {i : Int} {f : ρ → ρ}
    {hf : ∀ r, key (f r) = key r} {k : Int} (h : k ≠ i) :
    (t.update (fun r => key r = i) f hf).find? k = t.find? k := by
  rw [find?_update]
  cases hfind : t.find? k with
  | none => rfl
  | some r =>
    have hkey := ((Table.find?_eq_some _ _ _).1 hfind).2
    simp [hkey, h]

theorem find?_delete {t : AutoTable ρ key bound} {p : ρ → Bool} {k : Int} {r : ρ} :
    (t.delete p).find? k = some r ↔ t.find? k = some r ∧ p r = false := by
  simp only [Table.find?_eq_some, mem_delete_rows]
  constructor
  · rintro ⟨⟨hr, hp⟩, hk⟩
    exact ⟨⟨hr, hk⟩, hp⟩
  · rintro ⟨⟨hr, hk⟩, hp⟩
    exact ⟨⟨hr, hp⟩, hk⟩

/-- Dropping other rows. -/
theorem find?_delete_ne {t : AutoTable ρ key bound} {i k : Int} (h : k ≠ i) :
    (t.delete (fun r => key r = i)).find? k = t.find? k := by
  apply Option.ext
  intro r
  rw [find?_delete]
  constructor
  · exact And.left
  · intro hr
    have hkey := ((Table.find?_eq_some _ _ _).1 hr).2
    exact ⟨hr, by simp [hkey, h]⟩

/-- A fresh row is found under its key, and every other row as before. -/
theorem find?_insert {t t' : AutoTable ρ key bound} {mk : Int → ρ} {hmk : ∀ i, key (mk i) = i}
    (h : t.insert? mk hmk = some t') (k : Int) :
    t'.find? k = if k = t.seq + 1 then some (mk (t.seq + 1)) else t.find? k := by
  have hrows := (insert?_eq_some h).2.1
  rw [Table.find?, hrows, List.find?_append]
  split
  · rename_i hk
    have hnone : t.rows.find? (fun r => key r = k) = none := by
      rw [List.find?_eq_none]
      intro r hr
      simpa using key_ne_of_seq_lt (by omega) hr
    rw [hnone, hk]
    simp [hmk]
  · rename_i hk
    have hlast : [mk (t.seq + 1)].find? (fun r => key r = k) = none := by
      simp [hmk, Ne.symm hk]
    rw [hlast, Option.or_none]
    rfl

/-- What was found stays what it was. -/
theorem find?_insert_of_some {t t' : AutoTable ρ key bound} {mk : Int → ρ} {hmk : ∀ i, key (mk i) = i}
    (h : t.insert? mk hmk = some t') {k : Int} {r : ρ} (hr : t.find? k = some r) :
    t'.find? k = some r := by
  obtain ⟨hmem, hkey⟩ := (Table.find?_eq_some _ _ _).1 hr
  have hle := t.le_seq r hmem
  rw [find?_insert h, if_neg (by omega), hr]

end AutoTable

end Store
