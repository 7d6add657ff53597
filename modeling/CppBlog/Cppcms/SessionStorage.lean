import CppBlog.Cppcms.SessionData
import Mathlib.Data.List.AList

set_option autoImplicit false

/-! # Storages of sessions

`session_storage` is what the server keeps of a session under an identifier until a time. Any storage that does what
its interface says keeps what was saved; `memory` is the one in memory, which removes a few sessions that are out of
date at every change. Times are seconds. -/

namespace Cppcms

/-- `sessions::session_storage`: what a storage does at a time `now`, and what may be relied on from then on. -/
structure SessionStorage where
  State : Type
  empty : State
  save : State → Int → Bytes → Int → Bytes → State
  load : State → Int → Bytes → Option (Int × Bytes)
  remove : State → Int → Bytes → State
  load_empty : ∀ now id, load empty now id = none
  load_save : ∀ s {now later} id timeout value, now ≤ later →
    load (save s now id timeout value) later id = if later ≤ timeout then some (timeout, value) else none
  load_save_ne : ∀ s {now later id other} timeout value, now ≤ later → other ≠ id →
    load (save s now id timeout value) later other = load s later other
  load_remove : ∀ s {now later} id, now ≤ later → load (remove s now id) later id = none
  load_remove_ne : ∀ s {now later id other}, now ≤ later → other ≠ id →
    load (remove s now id) later other = load s later other

/-- From a time on nothing is different but the sessions under some identifiers, which are gone or are new ones. -/
def SessionStorage.Alters (S : SessionStorage) (now : Int) (own : Bytes → Prop) (new : Int × Bytes → Prop)
    (s s' : S.State) : Prop :=
  ∀ id later, now ≤ later → S.load s' later id = S.load s later id ∨ (own id ∧ ∀ x ∈ S.load s' later id, new x)

namespace SessionStorage.Alters

variable {S : SessionStorage} {now : Int} {own : Bytes → Prop} {new : Int × Bytes → Prop} {s s' s'' : S.State}

theorem refl (s : S.State) : S.Alters now own new s s := fun _ _ _ => .inl rfl

theorem trans (h : S.Alters now own new s s') (h' : S.Alters now own new s' s'') : S.Alters now own new s s'' := by
  intro id later hlater
  rcases h' id later hlater with heq | hnew
  · rw [heq]
    exact h id later hlater
  · exact .inr hnew

theorem mono {new' : Int × Bytes → Prop} (h : S.Alters now own new s s') (hnew : ∀ x, new x → new' x) :
    S.Alters now own new' s s' := fun id later hlater =>
  (h id later hlater).imp_right fun hown => ⟨hown.1, fun x hx => hnew x (hown.2 x hx)⟩

theorem save {id : Bytes} (hid : own id) {timeout : Int} {value : Bytes} (hnew : new (timeout, value)) (s : S.State) :
    S.Alters now own new s (S.save s now id timeout value) := by
  intro other later hlater
  by_cases hother : other = id
  · subst hother
    refine .inr ⟨hid, fun x hx => ?_⟩
    rw [S.load_save s other timeout value hlater] at hx
    split_ifs at hx
    · exact Option.some.inj hx ▸ hnew
    · cases hx
  · exact .inl (S.load_save_ne s timeout value hlater hother)

theorem remove {id : Bytes} (hid : own id) (s : S.State) : S.Alters now own new s (S.remove s now id) := by
  intro other later hlater
  by_cases hother : other = id
  · subst hother
    refine .inr ⟨hid, fun x hx => ?_⟩
    rw [S.load_remove s other hlater] at hx
    cases hx
  · exact .inl (S.load_remove_ne s hlater hother)

end SessionStorage.Alters

/-! ## The storage in memory -/

/-- `session_memory_storage`: the sessions, and their identifiers by the time they go out of date. -/
structure MemoryStorage where
  map : AList (fun _ : Bytes => Int × Bytes)
  timeouts : List (Int × Bytes)
  nodup : (timeouts.map Prod.snd).Nodup
  synced : ∀ x ∈ timeouts, ∃ value, map.lookup x.2 = some (x.1, value)

namespace MemoryStorage

def empty : MemoryStorage := ⟨∅, [], List.nodup_nil, fun _ h => absurd h List.not_mem_nil⟩

/-- Take a session out of both tables. -/
def erase (s : MemoryStorage) (id : Bytes) : MemoryStorage where
  map := s.map.erase id
  timeouts := s.timeouts.filter (fun x => x.2 ≠ id)
  nodup := s.nodup.sublist (List.filter_sublist.map _)
  synced x hx := by
    obtain ⟨hmem, hne⟩ := List.mem_filter.1 hx
    rw [AList.lookup_erase_ne (of_decide_eq_true hne)]
    exact s.synced x hmem

/-- `timeout_.insert(...)`, behind those of the same time -/
def queue (timeout : Int) (id : Bytes) (l : List (Int × Bytes)) : List (Int × Bytes) :=
  l.takeWhile (fun x => x.1 ≤ timeout) ++ (timeout, id) :: l.dropWhile (fun x => x.1 ≤ timeout)

theorem queue_perm (timeout : Int) (id : Bytes) (l : List (Int × Bytes)) :
    (queue timeout id l).Perm ((timeout, id) :: l) := by
  refine List.perm_middle.trans (List.Perm.cons _ ?_)
  rw [List.takeWhile_append_dropWhile]

/-- Put a session into both tables, in the place of the one that was there. -/
def put (s : MemoryStorage) (id : Bytes) (timeout : Int) (value : Bytes) : MemoryStorage where
  map := s.map.insert id (timeout, value)
  timeouts := queue timeout id (s.erase id).timeouts
  nodup := by
    refine ((queue_perm timeout id _).map Prod.snd).nodup_iff.2 ?_
    refine List.nodup_cons.2 ⟨fun hmem => ?_, (s.erase id).nodup⟩
    obtain ⟨x, hx, hid⟩ := List.mem_map.1 hmem
    exact of_decide_eq_true (List.mem_filter.1 hx).2 hid
  synced x hx := by
    rcases List.mem_cons.1 ((queue_perm timeout id _).mem_iff.1 hx) with rfl | hx
    · exact ⟨value, AList.lookup_insert _⟩
    · obtain ⟨hmem, hne⟩ := List.mem_filter.1 hx
      rw [AList.lookup_insert_ne (of_decide_eq_true hne)]
      exact s.synced x hmem

/-- The loop of `short_gc`, with the number of rounds left -/
def gcLoop (now : Int) : Nat → MemoryStorage → MemoryStorage
  | 0, s => s
  | rounds + 1, s =>
      match s.timeouts.head? with
      | some x => if x.1 < now then gcLoop now rounds (s.erase x.2) else s
      | none => s

/-- `short_gc` -/
def shortGc (now : Int) (s : MemoryStorage) : MemoryStorage := gcLoop now 5 s

/-- `session_memory_storage::save` -/
def save (s : MemoryStorage) (now : Int) (id : Bytes) (timeout : Int) (value : Bytes) : MemoryStorage :=
  (s.put id timeout value).shortGc now

/-- `session_memory_storage::load` -/
def load (s : MemoryStorage) (now : Int) (id : Bytes) : Option (Int × Bytes) :=
  (s.map.lookup id).filter (fun x => now ≤ x.1)

/-- `session_memory_storage::remove` -/
def remove (s : MemoryStorage) (now : Int) (id : Bytes) : MemoryStorage :=
  if (s.map.lookup id).isSome then (s.erase id).shortGc now else s

/-- The collection takes only sessions nobody could load any more. -/
theorem load_gcLoop {now later : Int} (h : now ≤ later) (s : MemoryStorage) (id : Bytes) (rounds : Nat) :
    (gcLoop now rounds s).load later id = s.load later id := by
  induction rounds generalizing s with
  | zero => rfl
  | succ rounds ih =>
    rw [gcLoop]
    split
    · rename_i y hy
      split_ifs with hlt
      · obtain ⟨value, hvalue⟩ := s.synced y (List.mem_of_mem_head? hy)
        rw [ih]
        unfold load
        by_cases hid : id = y.2
        · have hlate : ¬later ≤ y.1 := by omega
          rw [hid, hvalue, erase, AList.lookup_erase, Option.filter_none, Option.filter_some,
            if_neg (by simpa using hlate)]
        · rw [erase, AList.lookup_erase_ne hid]
      · rfl
    · rfl

theorem load_put (s : MemoryStorage) (later : Int) (id : Bytes) (timeout : Int) (value : Bytes) :
    (s.put id timeout value).load later id = if later ≤ timeout then some (timeout, value) else none := by
  rw [load, put, AList.lookup_insert, Option.filter_some]
  simp only [decide_eq_true_eq]

theorem load_put_ne (s : MemoryStorage) (later : Int) {id other : Bytes} (h : other ≠ id) (timeout : Int)
    (value : Bytes) : (s.put id timeout value).load later other = s.load later other := by
  rw [load, put, AList.lookup_insert_ne h, load]

theorem load_erase (s : MemoryStorage) (later : Int) (id : Bytes) : (s.erase id).load later id = none := by
  rw [load, erase, AList.lookup_erase, Option.filter_none]

theorem load_erase_ne (s : MemoryStorage) (later : Int) {id other : Bytes} (h : other ≠ id) :
    (s.erase id).load later other = s.load later other := by
  rw [load, erase, AList.lookup_erase_ne h, load]

end MemoryStorage

/-- The storage in memory keeps to the interface. -/
def SessionStorage.memory : SessionStorage where
  State := MemoryStorage
  empty := .empty
  save := MemoryStorage.save
  load := MemoryStorage.load
  remove := MemoryStorage.remove
  load_empty _ _ := rfl
  load_save s _ later id timeout value h :=
    (MemoryStorage.load_gcLoop h _ id 5).trans (s.load_put later id timeout value)
  load_save_ne s _ later _ other timeout value h hne :=
    (MemoryStorage.load_gcLoop h _ other 5).trans (s.load_put_ne later hne timeout value)
  load_remove s _ later id h := by
    unfold MemoryStorage.remove
    split_ifs with hsome
    · exact (MemoryStorage.load_gcLoop h _ id 5).trans (s.load_erase later id)
    · rw [MemoryStorage.load, Option.not_isSome_iff_eq_none.1 hsome, Option.filter_none]
  load_remove_ne s _ later _ other h hne := by
    unfold MemoryStorage.remove
    split_ifs
    · exact (MemoryStorage.load_gcLoop h _ other 5).trans (s.load_erase_ne later hne)
    · rfl

end Cppcms
