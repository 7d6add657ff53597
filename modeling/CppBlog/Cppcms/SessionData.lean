import CppBlog.Cppcms.Base64

set_option autoImplicit false

/-! # The data of a session as bytes

`session_interface::save_data` and `load_data`. Every entry is a header of four bytes (10 bits for the length of the
key, one for the flag, 21 for the length of the value), the key and the value. Lengths fit an `unsigned`. -/

namespace Cppcms

/-! ## Numbers as bytes -/

/-- The `k` lowest bytes of a number, as a little-endian machine has them in memory. -/
def toLE : Nat → Nat → Bytes
  | 0, _ => []
  | k + 1, n => UInt8.ofNat n :: toLE k (n / 256)

def ofLE : Bytes → Nat
  | [] => 0
  | b :: rest => b.toNat + 256 * ofLE rest

@[simp] theorem length_toLE (k n : Nat) : (toLE k n).length = k := by
  induction k generalizing n with
  | zero => rfl
  | succ k ih => rw [toLE, List.length_cons, ih]

theorem ofLE_toLE {k n : Nat} (h : n < 256 ^ k) : ofLE (toLE k n) = n := by
  induction k generalizing n with
  | zero =>
    rw [Nat.pow_zero] at h
    rw [toLE, ofLE]
    omega
  | succ k ih =>
    have hdiv : n / 256 < 256 ^ k := by
      rw [Nat.pow_succ] at h
      omega
    rw [toLE, ofLE, ih hdiv, UInt8.toNat_ofNat']
    omega

theorem ofLE_lt (l : Bytes) : ofLE l < 256 ^ l.length := by
  induction l with
  | nil => exact Nat.one_pos
  | cons b rest ih =>
    have hb := b.toNat_lt
    rw [ofLE, List.length_cons, Nat.pow_succ]
    omega

/-! ## The map -/

/-- `session_interface::entry` -/
structure Entry where
  value : Bytes
  exposed : Bool := false
deriving DecidableEq

/-- `session_interface::data_type`, a `std::map`: its keys are in their order. -/
structure SessionData where
  entries : List (Bytes × Entry)
  sorted : entries.Pairwise (fun x y => x.1 < y.1)
deriving DecidableEq

namespace SessionData

def empty : SessionData := ⟨[], .nil⟩

/-- `data_.empty()` -/
def isEmpty (d : SessionData) : Bool := d.entries.isEmpty

/-- `data_.find(key)` -/
def find (d : SessionData) (key : Bytes) : Option Entry := d.entries.lookup key

/-- An entry put in its place. -/
def insert (key : Bytes) (e : Entry) : List (Bytes × Entry) → List (Bytes × Entry)
  | [] => [(key, e)]
  | (k, x) :: rest =>
      if key < k then (key, e) :: (k, x) :: rest
      else if key = k then (key, e) :: rest
      else (k, x) :: insert key e rest

theorem mem_insert {key : Bytes} {e : Entry} {l : List (Bytes × Entry)} {x : Bytes × Entry}
    (h : x ∈ insert key e l) : x = (key, e) ∨ x ∈ l := by
  induction l with
  | nil => exact .inl (List.mem_singleton.1 h)
  | cons y rest ih =>
    obtain ⟨k, v⟩ := y
    rw [insert] at h
    split_ifs at h
    · exact List.mem_cons.1 h
    · exact (List.mem_cons.1 h).imp_right fun h => List.mem_cons_of_mem _ h
    · rcases List.mem_cons.1 h with h | h
      · exact .inr (h ▸ List.mem_cons_self)
      · exact (ih h).imp_right fun h => List.mem_cons_of_mem _ h

theorem sorted_insert {l : List (Bytes × Entry)} (h : l.Pairwise (fun x y => x.1 < y.1)) (key : Bytes) (e : Entry) :
    (insert key e l).Pairwise (fun x y => x.1 < y.1) := by
  induction l with
  | nil => exact List.pairwise_singleton _ _
  | cons y rest ih =>
    obtain ⟨k, v⟩ := y
    obtain ⟨hk, hrest⟩ := List.pairwise_cons.1 h
    rw [insert]
    split_ifs with hlt heq
    · refine List.pairwise_cons.2 ⟨fun z hz => ?_, h⟩
      rcases List.mem_cons.1 hz with rfl | hz
      · exact hlt
      · exact List.lt_trans hlt (hk z hz)
    · exact List.pairwise_cons.2 ⟨heq ▸ hk, hrest⟩
    · refine List.pairwise_cons.2 ⟨fun z hz => ?_, ih hrest⟩
      rcases mem_insert hz with rfl | hz
      · exact (List.le_iff_lt_or_eq.1 (List.not_lt.1 hlt)).resolve_right (Ne.symm heq)
      · exact hk z hz

/-- `data[key] = e` -/
def put (d : SessionData) (key : Bytes) (e : Entry) : SessionData :=
  ⟨insert key e d.entries, sorted_insert d.sorted key e⟩

/-- A key behind all others comes to the end. -/
theorem insert_of_forall_lt {key : Bytes} (e : Entry) {l : List (Bytes × Entry)} (h : ∀ x ∈ l, x.1 < key) :
    insert key e l = l ++ [(key, e)] := by
  induction l with
  | nil => rfl
  | cons y rest ih =>
    obtain ⟨k, v⟩ := y
    have hk : k < key := h _ List.mem_cons_self
    have hne : key ≠ k := fun heq => List.lt_irrefl k (heq ▸ hk)
    rw [insert, if_neg (List.lt_asymm hk), if_neg hne, ih fun x hx => h x (List.mem_cons_of_mem _ hx)]
    rfl

end SessionData

/-! ## The format -/

/-- What `packed`, `load_data` and `get<int>` throw. -/
inductive SessionError where
  | keyTooLong
  | valueTooLong
  | formatPack
  | formatData
  | badValue
deriving DecidableEq

/-- `packed(ks,exp,ds)` as its four bytes -/
def packed (ks : Nat) (exp : Bool) (ds : Nat) : Except SessionError Bytes :=
  if 1024 ≤ ks then .error .keyTooLong
  else if 1024 * 1024 * 2 ≤ ds then .error .valueTooLong
  else .ok (toLE 4 (ks + 1024 * exp.toNat + 2048 * ds))

/-- The loop of `session_interface::save_data` -/
def saveEntries : List (Bytes × Entry) → Except SessionError Bytes
  | [] => .ok []
  | (key, e) :: rest =>
      (packed key.length e.exposed e.value.length).bind fun header =>
      (saveEntries rest).bind fun s => .ok (header ++ key ++ e.value ++ s)

/-- `session_interface::save_data` -/
def saveData (d : SessionData) : Except SessionError Bytes := saveEntries d.entries

/-- The loop of `session_interface::load_data`: the data, and what it throws -/
def loadLoop (data : SessionData) (s : Bytes) : SessionData × Option SessionError :=
  if s = [] then (data, none)
  else if s.length < 4 then (data, some .formatPack)
  else
    let p := ofLE (s.take 4)
    let keySize := p % 1024
    let dataSize := p / 2048
    let rest := s.drop 4
    if keySize + dataSize ≤ rest.length then
      loadLoop (data.put (rest.take keySize) ⟨(rest.drop keySize).take dataSize, p / 1024 % 2 = 1⟩)
        (rest.drop (keySize + dataSize))
    else (data, some .formatData)
termination_by s.length
decreasing_by
  simp only [List.length_drop]
  omega

/-- `session_interface::load_data` -/
def loadData (s : Bytes) : SessionData × Option SessionError := loadLoop .empty s

theorem packed_eq_ok {ks ds : Nat} {exp : Bool} {header : Bytes} (h : packed ks exp ds = .ok header) :
    header.length = 4 ∧ ofLE header % 1024 = ks ∧ ofLE header / 2048 = ds ∧
      (ofLE header / 1024 % 2 = 1 ↔ exp = true) := by
  unfold packed at h
  split at h
  · cases h
  split at h
  · cases h
  cases h
  have hlt : ks + 1024 * exp.toNat + 2048 * ds < 256 ^ 4 := by
    have hexp := exp.toNat_le
    omega
  rw [length_toLE, ofLE_toLE hlt]
  cases exp
  · refine ⟨rfl, ?_, ?_, iff_of_false ?_ Bool.false_ne_true⟩ <;> rw [Bool.toNat_false] <;> omega
  · refine ⟨rfl, ?_, ?_, iff_of_true ?_ rfl⟩ <;> rw [Bool.toNat_true] <;> omega

theorem saveEntries_cons_eq_ok {key : Bytes} {e : Entry} {rest : List (Bytes × Entry)} {s : Bytes}
    (h : saveEntries ((key, e) :: rest) = .ok s) : ∃ header s',
      packed key.length e.exposed e.value.length = .ok header ∧ saveEntries rest = .ok s' ∧
        s = header ++ key ++ e.value ++ s' := by
  rw [saveEntries] at h
  cases hheader : packed key.length e.exposed e.value.length with
  | error err => simp [hheader, Except.bind] at h
  | ok header =>
    cases hrest : saveEntries rest with
    | error err => simp [hheader, hrest, Except.bind] at h
    | ok s' =>
      simp only [hheader, hrest, Except.bind, Except.ok.injEq] at h
      exact ⟨header, s', rfl, rfl, h.symm⟩

/-- One entry is read as it was written. -/
theorem loadLoop_entry (data : SessionData) {header key : Bytes} {e : Entry}
    (h : packed key.length e.exposed e.value.length = .ok header) (s : Bytes) :
    loadLoop data (header ++ key ++ e.value ++ s) = loadLoop (data.put key e) s := by
  obtain ⟨hlen, hkey, hdata, hexp⟩ := packed_eq_ok h
  have htake : (header ++ key ++ e.value ++ s).take 4 = header := by
    rw [List.append_assoc, List.append_assoc, ← hlen, List.take_left]
  have hdrop : (header ++ key ++ e.value ++ s).drop 4 = key ++ (e.value ++ s) := by
    rw [List.append_assoc, List.append_assoc, ← hlen, List.drop_left]
  have hne : header ++ key ++ e.value ++ s ≠ [] := by
    intro hnil
    have hzero := congrArg List.length hnil
    simp only [List.length_append, List.length_nil, hlen] at hzero
    omega
  have hfour : ¬(header ++ key ++ e.value ++ s).length < 4 := by
    simp only [List.length_append, hlen]
    omega
  have hexposed : decide (ofLE header / 1024 % 2 = 1) = e.exposed := by
    cases he : e.exposed <;> simp [hexp, he]
  rw [loadLoop, if_neg hne, if_neg hfour]
  simp only [htake, hdrop, hkey, hdata, hexposed]
  rw [if_pos (by simp only [List.length_append]; omega), List.take_left, List.drop_left, List.take_left,
    ← List.append_assoc, ← List.length_append, List.drop_left]

theorem loadLoop_saveEntries (pre : List (Bytes × Entry)) {post : List (Bytes × Entry)} {s : Bytes}
    (hsorted : (pre ++ post).Pairwise (fun x y => x.1 < y.1)) (hpre : pre.Pairwise (fun x y => x.1 < y.1))
    (h : saveEntries post = .ok s) : loadLoop ⟨pre, hpre⟩ s = (⟨pre ++ post, hsorted⟩, none) := by
  induction post generalizing pre s with
  | nil =>
    cases h
    rw [loadLoop, if_pos rfl]
    simp only [List.append_nil]
  | cons x rest ih =>
    obtain ⟨key, e⟩ := x
    obtain ⟨header, s', hheader, hrest, rfl⟩ := saveEntries_cons_eq_ok h
    have hlast : ∀ x ∈ pre, x.1 < key := fun x hx =>
      (List.pairwise_append.1 hsorted).2.2 x hx (key, e) List.mem_cons_self
    have hput : (SessionData.mk pre hpre).put key e = ⟨pre ++ [(key, e)], by
        rw [← SessionData.insert_of_forall_lt e hlast]
        exact SessionData.sorted_insert hpre key e⟩ := by
      simp only [SessionData.put, SessionData.insert_of_forall_lt e hlast]
    rw [loadLoop_entry _ hheader, hput]
    have hsorted' : ((pre ++ [(key, e)]) ++ rest).Pairwise (fun x y => x.1 < y.1) := by
      rwa [List.append_assoc, List.singleton_append]
    rw [ih _ hsorted' _ hrest]
    simp only [List.append_assoc, List.singleton_append]

/-- **What is saved of a session is what is loaded.** -/
theorem loadData_saveData {d : SessionData} {s : Bytes} (h : saveData d = .ok s) : loadData s = (d, none) :=
  loadLoop_saveEntries [] d.sorted .nil h

end Cppcms
