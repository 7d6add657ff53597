import CppBlog.Store.TriggerCache
import Mathlib

set_option autoImplicit false

/-! # The cache in memory

`mem_cache`, as the threads of one process share it (`thread_settings`): a table of the objects, the index
of their triggers, the queue of their expiry and the list of their last use, each of which points into the
others. A pointer to an object is its key here, one into the index is the name of the trigger. -/

namespace Cppcms

/-! ## The index of the triggers -/

/-- `triggers_map_type`: the objects that depend on each trigger. -/
abbrev TriggerIndex := AList (fun _ : String => List String)

namespace TriggerIndex

/-- The objects that depend on a trigger. -/
def pointers (i : TriggerIndex) (t : String) : List String := (i.lookup t).getD []

/-- Take an object from a trigger, and the trigger from the index with its last one. -/
def drop (key : String) (i : TriggerIndex) (t : String) : TriggerIndex :=
  if (i.pointers t).erase key = [] then i.erase t else i.insert t ((i.pointers t).erase key)

/-- Put an object under a trigger. -/
def add (key : String) (i : TriggerIndex) (t : String) : TriggerIndex := i.insert t (key :: i.pointers t)

/-- No trigger is kept without an object. -/
def Tidy (i : TriggerIndex) : Prop := ∀ t, i.lookup t ≠ some []

@[simp] theorem pointers_empty (t : String) : (∅ : TriggerIndex).pointers t = [] := by simp [pointers]

theorem pointers_of_lookup {i : TriggerIndex} {t : String} {ps : List String} (h : i.lookup t = some ps) :
    i.pointers t = ps := by rw [pointers, h, Option.getD_some]

theorem pointers_insert_self (i : TriggerIndex) (t : String) (ps : List String) :
    pointers (i.insert t ps) t = ps := pointers_of_lookup (AList.lookup_insert i)

theorem pointers_insert_ne {i : TriggerIndex} {t t' : String} (h : t' ≠ t) (ps : List String) :
    pointers (i.insert t ps) t' = i.pointers t' := by rw [pointers, AList.lookup_insert_ne h, pointers]

theorem pointers_drop (key : String) (i : TriggerIndex) (t t' : String) :
    (drop key i t).pointers t' = if t' = t then (i.pointers t).erase key else i.pointers t' := by
  unfold drop
  split_ifs with hlast heq heq
  · subst heq
    rw [pointers, AList.lookup_erase, hlast, Option.getD_none]
  · rw [pointers, AList.lookup_erase_ne heq, pointers]
  · subst heq
    exact pointers_insert_self _ _ _
  · exact pointers_insert_ne heq _

theorem pointers_add (key : String) (i : TriggerIndex) (t t' : String) :
    (add key i t).pointers t' = if t' = t then key :: i.pointers t else i.pointers t' := by
  unfold add
  split_ifs with heq
  · subst heq
    exact pointers_insert_self _ _ _
  · exact pointers_insert_ne heq _

/-- The loop of `delete_node`: the object is taken from each of its triggers. -/
theorem pointers_foldl_drop (key : String) {ts : List String} (hts : ts.Nodup) (i : TriggerIndex) (t : String) :
    (ts.foldl (drop key) i).pointers t = if t ∈ ts then (i.pointers t).erase key else i.pointers t := by
  induction ts generalizing i with
  | nil => simp
  | cons u ts ih =>
    obtain ⟨hu, hts⟩ := List.nodup_cons.1 hts
    rw [List.foldl_cons, ih hts, pointers_drop]
    by_cases heq : t = u
    · subst heq
      simp [hu]
    · simp [heq]

/-- The loop of `store`: the object is put under each of its triggers. -/
theorem pointers_foldl_add (key : String) {ts : List String} (hts : ts.Nodup) (i : TriggerIndex) (t : String) :
    (ts.foldl (add key) i).pointers t = if t ∈ ts then key :: i.pointers t else i.pointers t := by
  induction ts generalizing i with
  | nil => simp
  | cons u ts ih =>
    obtain ⟨hu, hts⟩ := List.nodup_cons.1 hts
    rw [List.foldl_cons, ih hts, pointers_add]
    by_cases heq : t = u
    · subst heq
      simp [hu]
    · simp [heq]

theorem Tidy.drop {i : TriggerIndex} (h : i.Tidy) (key t : String) : (drop key i t).Tidy := by
  intro t'
  unfold TriggerIndex.drop
  by_cases heq : t' = t
  · subst heq
    split
    · rw [AList.lookup_erase]
      exact nofun
    · rename_i hne
      rw [AList.lookup_insert]
      exact fun heq => hne (Option.some.inj heq)
  · split
    · rw [AList.lookup_erase_ne heq]
      exact h t'
    · rw [AList.lookup_insert_ne heq]
      exact h t'

theorem Tidy.add {i : TriggerIndex} (h : i.Tidy) (key t : String) : (add key i t).Tidy := by
  intro t'
  unfold TriggerIndex.add
  by_cases heq : t' = t
  · subst heq
    rw [AList.lookup_insert]
    exact fun heq => List.cons_ne_nil _ _ (Option.some.inj heq)
  · rw [AList.lookup_insert_ne heq]
    exact h t'

theorem Tidy.foldl_drop {i : TriggerIndex} (h : i.Tidy) (key : String) (ts : List String) :
    (ts.foldl (TriggerIndex.drop key) i).Tidy := by
  induction ts generalizing i with
  | nil => exact h
  | cons t ts ih => exact ih (h.drop key t)

theorem Tidy.foldl_add {i : TriggerIndex} (h : i.Tidy) (key : String) (ts : List String) :
    (ts.foldl (TriggerIndex.add key) i).Tidy := by
  induction ts generalizing i with
  | nil => exact h
  | cons t ts ih => exact ih (h.add key t)

end TriggerIndex

/-! ## The cache -/

/-- `mem_cache::container` -/
structure Container (β : Type) where
  data : β
  triggers : List String
  timeout : Int
  generation : UInt64
deriving DecidableEq

/-- `mem_cache` -/
structure MemCache (β : Type) where
  primary : AList (fun _ : String => Container β)
  triggers : TriggerIndex
  timeout : List (Int × String)
  lru : List String
  limit : Nat
  size : Nat
  triggersCount : Nat
  generation : UInt64

namespace MemCache

variable {β : Type}

/-- `nl_clear`; the next generation is kept. -/
def nlClear (c : MemCache β) : MemCache β :=
  { c with primary := ∅, triggers := ∅, timeout := [], lru := [], size := 0, triggersCount := 0 }

/-- The constructor. -/
def fresh (limit : Nat) : MemCache β := ⟨∅, ∅, [], [], limit, 0, 0, 0⟩

/-- One turn of the loop of `delete_node`. -/
def unlink (key : String) (c : MemCache β) (t : String) : MemCache β :=
  { c with triggers := c.triggers.drop key t, triggersCount := c.triggersCount - 1 }

/-- `delete_node` -/
def deleteNode (c : MemCache β) (key : String) : MemCache β :=
  match c.primary.lookup key with
  | none => c
  | some x =>
      let c' := x.triggers.foldl (unlink key)
        { c with lru := c.lru.erase key, timeout := c.timeout.erase (x.timeout, key) }
      { c' with primary := c'.primary.erase key, size := c'.size - 1 }

/-- What `fetch` finds. -/
structure Hit (β : Type) where
  data : β
  triggers : List String
  timeout : Int
  generation : UInt64

/-- `fetch`: an object that is found is the last one used. -/
def fetch (c : MemCache β) (now : Int) (key : String) : Option (Hit β) × MemCache β :=
  match c.primary.lookup key with
  | none => (none, c)
  | some x =>
      if x.timeout < now then (none, c)
      else (some ⟨x.data, x.triggers, x.timeout, x.generation⟩, { c with lru := key :: c.lru.erase key })

/-- `rise` -/
def rise (c : MemCache β) (trigger : String) : MemCache β :=
  match c.triggers.lookup trigger with
  | none => c
  | some killList => killList.foldl deleteNode c

/-- `remove` -/
def remove (c : MemCache β) (key : String) : MemCache β := c.deleteNode key

/-- What `check_limits` deletes: an object that is expired, or else the one that was not used for longest. -/
def victim (c : MemCache β) (now : Int) : Option String :=
  match c.timeout with
  | (t, key) :: _ => if t < now then some key else c.lru.getLast?
  | [] => c.lru.getLast?

/-- The loop of `check_limits`; it ends within as many turns as there are objects. -/
def evictLoop (now : Int) : Nat → MemCache β → MemCache β
  | 0, c => c
  | n + 1, c =>
      if 0 < c.size ∧ c.limit ≤ c.size ∧ 0 < c.limit then
        match c.victim now with
        | none => c
        | some key => evictLoop now n (c.deleteNode key)
      else c

/-- `check_limits` -/
def checkLimits (c : MemCache β) (now : Int) : MemCache β := c.evictLoop now c.size

/-- `add_trigger` -/
def addTrigger (key : String) (c : MemCache β) (t : String) : MemCache β :=
  { c with
    triggers := c.triggers.add key t
    primary := match c.primary.lookup key with
      | none => c.primary
      | some x => c.primary.insert key { x with triggers := x.triggers ++ [t] }
    triggersCount := c.triggersCount + 1 }

/-- `multimap::insert`: behind what expires at the same time. -/
def insertTimeout (x : Int × String) (l : List (Int × String)) : List (Int × String) :=
  l.orderedInsert (fun a b => a.1 < b.1) x

/-- `store`; `triggersIn` are the elements of the set that is handed over. -/
def store (c : MemCache β) (now : Int) (key : String) (a : β) (triggersIn : List String) (timeoutIn : Int)
    (gen : Option UInt64) : MemCache β :=
  let c := (c.deleteNode key).checkLimits now
  let c := { c with
    primary := c.primary.insert key ⟨a, [], timeoutIn, gen.getD c.generation⟩
    size := c.size + 1
    generation := if gen.isSome then c.generation else c.generation + 1
    lru := key :: c.lru
    timeout := insertTimeout (timeoutIn, key) c.timeout }
  let c := if key ∈ triggersIn then c else c.addTrigger key key
  triggersIn.foldl (addTrigger key) c

/-! ## The four structures agree -/

/-- The number of triggers of an object. -/
def links (c : MemCache β) (key : String) : Nat := ((c.primary.lookup key).map (fun x => x.triggers.length)).getD 0

/-- Every structure holds the same objects, the counters count them, and there are no more than allowed. -/
structure Coherent (c : MemCache β) : Prop where
  mem_lru : ∀ key, key ∈ c.lru ↔ (c.primary.lookup key).isSome
  lru_nodup : c.lru.Nodup
  mem_timeout : ∀ t key, (t, key) ∈ c.timeout ↔ (c.primary.lookup key).map Container.timeout = some t
  timeout_nodup : c.timeout.Nodup
  timeout_sorted : c.timeout.Pairwise (fun a b => a.1 ≤ b.1)
  mem_pointers : ∀ t key, key ∈ c.triggers.pointers t ↔ ∃ x, c.primary.lookup key = some x ∧ t ∈ x.triggers
  pointers_nodup : ∀ t, (c.triggers.pointers t).Nodup
  tidy : c.triggers.Tidy
  own : ∀ key x, c.primary.lookup key = some x → key ∈ x.triggers ∧ x.triggers.Nodup
  size : c.size = c.lru.length
  count : c.triggersCount = (c.lru.map c.links).sum
  bounded : 0 < c.limit → c.size ≤ c.limit

theorem Coherent.nlClear (c : MemCache β) : c.nlClear.Coherent where
  mem_lru key := by simp [MemCache.nlClear]
  lru_nodup := List.nodup_nil
  mem_timeout t key := by simp [MemCache.nlClear]
  timeout_nodup := List.nodup_nil
  timeout_sorted := List.Pairwise.nil
  mem_pointers t key := by simp [MemCache.nlClear]
  pointers_nodup t := by simp [MemCache.nlClear]
  tidy t := by simp [MemCache.nlClear]
  own key x h := by simp [MemCache.nlClear] at h
  size := rfl
  count := rfl
  bounded _ := Nat.zero_le _

theorem Coherent.fresh (limit : Nat) : (fresh limit : MemCache β).Coherent :=
  Coherent.nlClear (MemCache.fresh limit)

/-! ## Deleting -/

theorem foldl_unlink (key : String) (ts : List String) (c : MemCache β) :
    ts.foldl (unlink key) c =
      { c with triggers := ts.foldl (TriggerIndex.drop key) c.triggers, triggersCount := c.triggersCount - ts.length } := by
  induction ts generalizing c with
  | nil => rfl
  | cons t ts ih =>
    rw [List.foldl_cons, ih]
    simp only [unlink, List.foldl_cons, List.length_cons, Nat.sub_sub, Nat.add_comm 1]

theorem deleteNode_none {c : MemCache β} {key : String} (h : c.primary.lookup key = none) : c.deleteNode key = c := by
  unfold deleteNode
  rw [h]

theorem deleteNode_some {c : MemCache β} {key : String} {x : Container β} (h : c.primary.lookup key = some x) :
    c.deleteNode key = { c with
      primary := c.primary.erase key
      triggers := x.triggers.foldl (TriggerIndex.drop key) c.triggers
      timeout := c.timeout.erase (x.timeout, key)
      lru := c.lru.erase key
      size := c.size - 1
      triggersCount := c.triggersCount - x.triggers.length } := by
  unfold deleteNode
  rw [h]
  simp only [foldl_unlink]

theorem lookup_deleteNode (c : MemCache β) (key k : String) :
    (c.deleteNode key).primary.lookup k = if k = key then none else c.primary.lookup k := by
  cases h : c.primary.lookup key with
  | none =>
    rw [deleteNode_none h]
    split
    · rename_i heq
      rw [heq, h]
    · rfl
  | some x =>
    rw [deleteNode_some h]
    split
    · rename_i heq
      rw [heq]
      exact AList.lookup_erase _ _
    · rename_i hne
      exact AList.lookup_erase_ne hne

@[simp] theorem deleteNode_limit (c : MemCache β) (key : String) : (c.deleteNode key).limit = c.limit := by
  cases h : c.primary.lookup key with
  | none => rw [deleteNode_none h]
  | some x => rw [deleteNode_some h]

/-- An object that is there is in the list of the last use, and the list without it is shorter. -/
theorem Coherent.deleteNode_size {c : MemCache β} (h : c.Coherent) {key : String} (hkey : key ∈ c.lru) :
    (c.deleteNode key).size + 1 = c.size := by
  obtain ⟨x, hx⟩ := Option.isSome_iff_exists.1 ((h.mem_lru key).1 hkey)
  have hpos : 0 < c.lru.length := List.length_pos_of_mem hkey
  rw [deleteNode_some hx]
  simp only [h.size]
  omega

theorem deleteNode_lru (c : MemCache β) (h : c.Coherent) (key : String) :
    (c.deleteNode key).lru = c.lru.erase key := by
  cases hx : c.primary.lookup key with
  | none =>
    have hnot : key ∉ c.lru := by simp [h.mem_lru, hx]
    rw [deleteNode_none hx, List.erase_of_not_mem hnot]
  | some x => rw [deleteNode_some hx]

/-- Deleting an object keeps the structures in agreement. -/
theorem Coherent.deleteNode {c : MemCache β} (h : c.Coherent) (key : String) : (c.deleteNode key).Coherent := by
  cases hx : c.primary.lookup key with
  | none =>
    rw [deleteNode_none hx]
    exact h
  | some x =>
    obtain ⟨hown, hts⟩ := h.own key x hx
    have hmem : key ∈ c.lru := (h.mem_lru key).2 (by rw [hx]; rfl)
    have hlookup := lookup_deleteNode c key
    have hpointers (t : String) : (c.deleteNode key).triggers.pointers t =
        if t ∈ x.triggers then (c.triggers.pointers t).erase key else c.triggers.pointers t := by
      rw [deleteNode_some hx]
      exact TriggerIndex.pointers_foldl_drop key hts c.triggers t
    constructor
    case mem_lru =>
      intro k
      rw [deleteNode_lru c h, h.lru_nodup.mem_erase_iff, hlookup, h.mem_lru]
      by_cases hk : k = key <;> simp [hk]
    case lru_nodup =>
      rw [deleteNode_lru c h]
      exact h.lru_nodup.erase key
    case mem_timeout =>
      intro t k
      rw [hlookup, deleteNode_some hx, h.timeout_nodup.mem_erase_iff, h.mem_timeout]
      by_cases hk : k = key
      · subst hk
        rw [hx, if_pos rfl]
        simp [eq_comm]
      · simp [hk]
    case timeout_nodup =>
      rw [deleteNode_some hx]
      exact h.timeout_nodup.erase _
    case timeout_sorted =>
      rw [deleteNode_some hx]
      exact h.timeout_sorted.sublist List.erase_sublist
    case mem_pointers =>
      intro t k
      rw [hpointers, hlookup]
      by_cases hk : k = key
      · subst hk
        split
        · simp [(h.pointers_nodup t).mem_erase_iff]
        · rename_i hnot
          simp [h.mem_pointers, hx, hnot]
      · rw [if_neg hk, ← h.mem_pointers]
        split
        · rw [List.mem_erase_of_ne hk]
        · rfl
    case pointers_nodup =>
      intro t
      rw [hpointers]
      split
      · exact (h.pointers_nodup t).erase key
      · exact h.pointers_nodup t
    case tidy =>
      rw [deleteNode_some hx]
      exact h.tidy.foldl_drop key x.triggers
    case own =>
      intro k y hy
      rw [hlookup] at hy
      split at hy
      · cases hy
      · exact h.own k y hy
    case size =>
      rw [deleteNode_lru c h, List.length_erase_of_mem hmem, deleteNode_some hx, h.size]
    case count =>
      have hlinks : ∀ k ∈ c.lru.erase key, (c.deleteNode key).links k = c.links k := by
        intro k hk
        have hne : k ≠ key := (h.lru_nodup.mem_erase_iff.1 hk).1
        rw [links, hlookup, if_neg hne, links]
      have hsum := List.sum_map_erase c.links hmem
      have hkey : c.links key = x.triggers.length := by rw [links, hx, Option.map_some, Option.getD_some]
      rw [deleteNode_lru c h, List.map_congr_left hlinks, deleteNode_some hx, h.count]
      dsimp only
      omega
    case bounded =>
      intro hlimit
      have hsize := h.deleteNode_size hmem
      have hbounded := h.bounded (by rwa [deleteNode_limit] at hlimit)
      rw [deleteNode_limit]
      omega

/-! ## Keeping the limit -/

/-- What is deleted is expired, or was not used for longest. -/
theorem victim_eq_some {c : MemCache β} {now : Int} {key : String} (h : c.victim now = some key) :
    (∃ t, (t, key) ∈ c.timeout ∧ t < now) ∨ c.lru.getLast? = some key := by
  unfold victim at h
  split at h
  · rename_i t k l htimeout
    split at h
    · rename_i hlt
      obtain rfl := Option.some.inj h
      exact .inl ⟨t, htimeout ▸ List.mem_cons_self, hlt⟩
    · exact .inr h
  · exact .inr h

theorem Coherent.victim_mem {c : MemCache β} (h : c.Coherent) {now : Int} {key : String}
    (hkey : c.victim now = some key) : key ∈ c.lru := by
  rcases victim_eq_some hkey with ⟨t, ht, -⟩ | hlast
  · rw [h.mem_lru, ← Option.isSome_map (f := Container.timeout), (h.mem_timeout t key).1 ht]
    rfl
  · exact List.mem_of_getLast? hlast

theorem Coherent.victim_isSome {c : MemCache β} (h : c.Coherent) (now : Int) (hsize : 0 < c.size) :
    ∃ key, c.victim now = some key := by
  have hlast : ∃ key, c.lru.getLast? = some key := by
    rw [h.size] at hsize
    exact ⟨_, List.getLast?_eq_some_getLast (List.length_pos_iff.1 hsize)⟩
  unfold victim
  split
  · split
    · exact ⟨_, rfl⟩
    · exact hlast
  · exact hlast

/-- What every deletion of the loop keeps, the loop keeps. -/
theorem evictLoop_induction {now : Int} {P : MemCache β → Prop}
    (hstep : ∀ c key, c.Coherent → P c → c.limit ≤ c.size → 0 < c.limit → c.victim now = some key →
      P (c.deleteNode key)) (n : Nat) {c : MemCache β} (h : c.Coherent) (hP : P c) :
    (c.evictLoop now n).Coherent ∧ P (c.evictLoop now n) := by
  induction n generalizing c with
  | zero => exact ⟨h, hP⟩
  | succ n ih =>
    unfold evictLoop
    split
    · rename_i hfull
      split
      · exact ⟨h, hP⟩
      · rename_i key hvictim
        exact ih (h.deleteNode key) (hstep c key h hP hfull.2.1 hfull.2.2 hvictim)
    · exact ⟨h, hP⟩

theorem Coherent.checkLimits {c : MemCache β} (h : c.Coherent) (now : Int) : (c.checkLimits now).Coherent :=
  (evictLoop_induction (P := fun _ => True) (fun _ _ _ _ _ _ _ => trivial) _ h trivial).1

theorem checkLimits_limit {c : MemCache β} (h : c.Coherent) (now : Int) : (c.checkLimits now).limit = c.limit :=
  (evictLoop_induction (P := fun c' => c'.limit = c.limit)
    (fun c' key _ hlimit _ _ _ => (deleteNode_limit c' key).trans hlimit) _ h rfl).2

/-- The loop ends with a place left. -/
theorem evictLoop_size {now : Int} {n : Nat} {c : MemCache β} (h : c.Coherent) (hlimit : 0 < c.limit)
    (hn : c.size ≤ n) : (c.evictLoop now n).size < c.limit := by
  induction n generalizing c with
  | zero =>
    have hsize : c.size = 0 := Nat.le_zero.1 hn
    rw [evictLoop, hsize]
    exact hlimit
  | succ n ih =>
    unfold evictLoop
    split
    · rename_i hfull
      obtain ⟨key, hkey⟩ := h.victim_isSome now hfull.1
      have hsize := h.deleteNode_size (h.victim_mem hkey)
      have hrest := ih (h.deleteNode key) (by rwa [deleteNode_limit]) (by omega)
      rw [hkey]
      rwa [deleteNode_limit] at hrest
    · rename_i hfull
      omega

/-- What the loop deletes is gone, and nothing else. -/
theorem lookup_checkLimits {c : MemCache β} (h : c.Coherent) (now : Int) (key : String) :
    (c.checkLimits now).primary.lookup key = none ∨
      (c.checkLimits now).primary.lookup key = c.primary.lookup key := by
  refine (evictLoop_induction (P := fun c' => c'.primary.lookup key = none ∨
    c'.primary.lookup key = c.primary.lookup key) (fun c' k _ hP _ _ _ => ?_) _ h (.inr rfl)).2
  rw [lookup_deleteNode]
  split
  · exact .inl rfl
  · exact hP

/-! ## Storing -/

theorem foldl_addTrigger (key : String) (ts : List String) {c : MemCache β}
    {p : AList (fun _ : String => Container β)} {x : Container β} (h : c.primary = p.insert key x) :
    ts.foldl (addTrigger key) c = { c with
      primary := p.insert key { x with triggers := x.triggers ++ ts }
      triggers := ts.foldl (TriggerIndex.add key) c.triggers
      triggersCount := c.triggersCount + ts.length } := by
  induction ts generalizing c x with
  | nil =>
    rw [List.append_nil, ← h]
    rfl
  | cons t ts ih =>
    have hstep : c.addTrigger key t = { c with
        primary := p.insert key { x with triggers := x.triggers ++ [t] }
        triggers := c.triggers.add key t
        triggersCount := c.triggersCount + 1 } := by
      unfold addTrigger
      rw [h, AList.lookup_insert]
      dsimp only
      rw [AList.insert_insert]
    rw [List.foldl_cons, hstep, ih rfl]
    simp only [List.foldl_cons, List.append_assoc, List.singleton_append, List.length_cons, Nat.add_assoc,
      Nat.add_comm 1]

open Store.TriggerCache (storedTriggers) in
/-- The object is put behind the deletions, with its own key among its triggers. -/
theorem store_eq (c : MemCache β) (now : Int) (key : String) (a : β) (triggersIn : List String) (timeoutIn : Int)
    (gen : Option UInt64) {c' : MemCache β} (hc' : c' = (c.deleteNode key).checkLimits now) :
    c.store now key a triggersIn timeoutIn gen = { c' with
      primary := c'.primary.insert key ⟨a, storedTriggers key triggersIn, timeoutIn, gen.getD c'.generation⟩
      triggers := (storedTriggers key triggersIn).foldl (TriggerIndex.add key) c'.triggers
      timeout := insertTimeout (timeoutIn, key) c'.timeout
      lru := key :: c'.lru
      size := c'.size + 1
      triggersCount := c'.triggersCount + (storedTriggers key triggersIn).length
      generation := if gen.isSome then c'.generation else c'.generation + 1 } := by
  unfold store
  rw [← hc']
  by_cases hkey : key ∈ triggersIn
  · simp only [storedTriggers, if_pos hkey]
    rw [foldl_addTrigger key triggersIn rfl]
    rfl
  · simp only [storedTriggers, if_neg hkey]
    change (key :: triggersIn).foldl (addTrigger key) _ = _
    rw [foldl_addTrigger key (key :: triggersIn) rfl]
    rfl

theorem nodup_storedTriggers (key : String) {triggers : List String} (h : triggers.Nodup) :
    (Store.TriggerCache.storedTriggers key triggers).Nodup := by
  unfold Store.TriggerCache.storedTriggers
  split
  · exact h
  · rename_i hkey
    exact List.nodup_cons.2 ⟨hkey, h⟩

theorem mem_insertTimeout {x y : Int × String} {l : List (Int × String)} :
    y ∈ insertTimeout x l ↔ y = x ∨ y ∈ l := List.mem_orderedInsert _

/-- What expires first stays in front. -/
theorem sorted_insertTimeout {x : Int × String} {l : List (Int × String)}
    (h : l.Pairwise (fun a b => a.1 ≤ b.1)) : (insertTimeout x l).Pairwise (fun a b => a.1 ≤ b.1) := by
  induction l with
  | nil => simp [insertTimeout]
  | cons b l ih =>
    obtain ⟨hb, hl⟩ := List.pairwise_cons.1 h
    unfold insertTimeout at ih ⊢
    rw [List.orderedInsert_cons]
    split
    · rename_i hlt
      refine List.pairwise_cons.2 ⟨fun y hy => ?_, h⟩
      rcases List.mem_cons.1 hy with rfl | hy
      · exact le_of_lt hlt
      · exact (le_of_lt hlt).trans (hb y hy)
    · rename_i hle
      refine List.pairwise_cons.2 ⟨fun y hy => ?_, ih hl⟩
      rcases mem_insertTimeout.1 hy with rfl | hy
      · exact not_lt.1 hle
      · exact hb y hy

theorem lookup_store (c : MemCache β) (now : Int) (key : String) (a : β) (triggersIn : List String)
    (timeoutIn : Int) (gen : Option UInt64) (k : String) :
    (c.store now key a triggersIn timeoutIn gen).primary.lookup k =
      if k = key then some ⟨a, Store.TriggerCache.storedTriggers key triggersIn, timeoutIn,
        gen.getD ((c.deleteNode key).checkLimits now).generation⟩
      else ((c.deleteNode key).checkLimits now).primary.lookup k := by
  rw [store_eq c now key a triggersIn timeoutIn gen rfl]
  dsimp only
  split
  · rename_i heq
    rw [heq, AList.lookup_insert]
  · rename_i hne
    rw [AList.lookup_insert_ne hne]

/-- Nothing is left of the object before. -/
theorem Coherent.lookup_made_room {c : MemCache β} (h : c.Coherent) (now : Int) (key : String) :
    ((c.deleteNode key).checkLimits now).primary.lookup key = none := by
  rcases lookup_checkLimits (h.deleteNode key) now key with hnone | heq
  · exact hnone
  · rw [heq, lookup_deleteNode, if_pos rfl]

/-- Storing an object keeps the structures in agreement. -/
theorem Coherent.store {c : MemCache β} (h : c.Coherent) (now : Int) (key : String) (a : β)
    {triggersIn : List String} (hts : triggersIn.Nodup) (timeoutIn : Int) (gen : Option UInt64) :
    (c.store now key a triggersIn timeoutIn gen).Coherent := by
  obtain ⟨c', hc'⟩ : ∃ c', c' = (c.deleteNode key).checkLimits now := ⟨_, rfl⟩
  have hcoherent : c'.Coherent := hc' ▸ (h.deleteNode key).checkLimits now
  have hnone : c'.primary.lookup key = none := hc' ▸ h.lookup_made_room now key
  have hnot : key ∉ c'.lru := by simp [hcoherent.mem_lru, hnone]
  have hroom : 0 < c'.limit → c'.size < c'.limit := by
    intro hlimit
    have hsame : c'.limit = (c.deleteNode key).limit := hc' ▸ checkLimits_limit (h.deleteNode key) now
    rw [hsame] at hlimit ⊢
    exact hc' ▸ evictLoop_size (h.deleteNode key) hlimit le_rfl
  have hnames := nodup_storedTriggers key hts
  have hkey : key ∈ Store.TriggerCache.storedTriggers key triggersIn :=
    Store.TriggerCache.mem_storedTriggers.2 (.inl rfl)
  have hlookup (k : String) : (c.store now key a triggersIn timeoutIn gen).primary.lookup k =
      if k = key then some ⟨a, Store.TriggerCache.storedTriggers key triggersIn, timeoutIn, gen.getD c'.generation⟩
      else c'.primary.lookup k := hc' ▸ lookup_store c now key a triggersIn timeoutIn gen k
  have heq := store_eq c now key a triggersIn timeoutIn gen hc'
  have hpointers (t : String) : (c.store now key a triggersIn timeoutIn gen).triggers.pointers t =
      if t ∈ Store.TriggerCache.storedTriggers key triggersIn then key :: c'.triggers.pointers t
      else c'.triggers.pointers t := by
    rw [heq]
    exact TriggerIndex.pointers_foldl_add key hnames c'.triggers t
  have hunlinked (t : String) : key ∉ c'.triggers.pointers t := by simp [hcoherent.mem_pointers, hnone]
  constructor
  case mem_lru =>
    intro k
    rw [hlookup, heq, List.mem_cons, hcoherent.mem_lru]
    by_cases hk : k = key <;> simp [hk]
  case lru_nodup =>
    rw [heq]
    exact List.nodup_cons.2 ⟨hnot, hcoherent.lru_nodup⟩
  case mem_timeout =>
    intro t k
    rw [hlookup, heq, mem_insertTimeout, hcoherent.mem_timeout]
    by_cases hk : k = key
    · subst hk
      simp [hnone, eq_comm]
    · simp [hk]
  case timeout_nodup =>
    have hfresh : (timeoutIn, key) ∉ c'.timeout := by simp [hcoherent.mem_timeout, hnone]
    rw [heq]
    exact ((List.perm_orderedInsert _ _ _).nodup_iff).2 (List.nodup_cons.2 ⟨hfresh, hcoherent.timeout_nodup⟩)
  case timeout_sorted =>
    rw [heq]
    exact sorted_insertTimeout hcoherent.timeout_sorted
  case mem_pointers =>
    intro t k
    rw [hpointers, hlookup]
    by_cases hk : k = key
    · subst hk
      split <;> simp_all
    · rw [if_neg hk, ← hcoherent.mem_pointers]
      split <;> simp [hk]
  case pointers_nodup =>
    intro t
    rw [hpointers]
    split
    · exact List.nodup_cons.2 ⟨hunlinked t, hcoherent.pointers_nodup t⟩
    · exact hcoherent.pointers_nodup t
  case tidy =>
    rw [heq]
    exact hcoherent.tidy.foldl_add key _
  case own =>
    intro k y hy
    rw [hlookup] at hy
    split at hy
    · rename_i hk
      obtain rfl := Option.some.inj hy
      exact ⟨hk ▸ hkey, hnames⟩
    · exact hcoherent.own k y hy
  case size =>
    rw [heq]
    exact congrArg Nat.succ hcoherent.size
  case count =>
    have hlinks : ∀ k ∈ c'.lru, (c.store now key a triggersIn timeoutIn gen).links k = c'.links k := by
      intro k hk
      have hne : k ≠ key := fun heq => hnot (heq ▸ hk)
      rw [links, hlookup, if_neg hne, links]
    have hnew : (c.store now key a triggersIn timeoutIn gen).links key =
        (Store.TriggerCache.storedTriggers key triggersIn).length := by
      rw [links, hlookup, if_pos rfl, Option.map_some, Option.getD_some]
    have hlru : (c.store now key a triggersIn timeoutIn gen).lru = key :: c'.lru := by rw [heq]
    have hcount : (c.store now key a triggersIn timeoutIn gen).triggersCount =
        c'.triggersCount + (Store.TriggerCache.storedTriggers key triggersIn).length := by rw [heq]
    rw [hlru, List.map_cons, List.sum_cons, hnew, List.map_congr_left hlinks, hcount, hcoherent.count, Nat.add_comm]
  case bounded =>
    rw [heq]
    exact hroom

/-! ## The other operations -/

theorem Coherent.fetch {c : MemCache β} (h : c.Coherent) (now : Int) (key : String) :
    (c.fetch now key).2.Coherent := by
  unfold MemCache.fetch
  cases hx : c.primary.lookup key with
  | none => exact h
  | some x =>
    dsimp only
    split
    · exact h
    · have hmem : key ∈ c.lru := (h.mem_lru key).2 (by rw [hx]; rfl)
      -- the list of the last use is the only structure that changes
      have hperm : (key :: c.lru.erase key).Perm c.lru := (List.perm_cons_erase hmem).symm
      exact {
        mem_lru k := hperm.mem_iff.trans (h.mem_lru k)
        lru_nodup := hperm.nodup_iff.2 h.lru_nodup
        mem_timeout := h.mem_timeout
        timeout_nodup := h.timeout_nodup
        timeout_sorted := h.timeout_sorted
        mem_pointers := h.mem_pointers
        pointers_nodup := h.pointers_nodup
        tidy := h.tidy
        own := h.own
        size := h.size.trans hperm.length_eq.symm
        count := h.count.trans (hperm.map c.links).sum_eq.symm
        bounded := h.bounded }

theorem Coherent.foldl_deleteNode {c : MemCache β} (h : c.Coherent) (keys : List String) :
    (keys.foldl MemCache.deleteNode c).Coherent := by
  induction keys generalizing c with
  | nil => exact h
  | cons key keys ih => exact ih (h.deleteNode key)

theorem lookup_foldl_deleteNode (c : MemCache β) (keys : List String) (k : String) :
    (keys.foldl deleteNode c).primary.lookup k = if k ∈ keys then none else c.primary.lookup k := by
  induction keys generalizing c with
  | nil => simp
  | cons key keys ih =>
    rw [List.foldl_cons, ih, lookup_deleteNode]
    by_cases hk : k = key <;> simp [hk]

theorem Coherent.rise {c : MemCache β} (h : c.Coherent) (trigger : String) : (c.rise trigger).Coherent := by
  unfold MemCache.rise
  split
  · exact h
  · exact h.foldl_deleteNode _

/-- Rising a trigger deletes the objects that depend on it, and no others. -/
theorem Coherent.lookup_rise {c : MemCache β} (h : c.Coherent) (trigger k : String) :
    (c.rise trigger).primary.lookup k = (c.primary.lookup k).filter (fun x => trigger ∉ x.triggers) := by
  have hdeleted : (c.rise trigger).primary.lookup k =
      if k ∈ c.triggers.pointers trigger then none else c.primary.lookup k := by
    unfold MemCache.rise TriggerIndex.pointers
    cases c.triggers.lookup trigger with
    | none => simp
    | some killList => exact lookup_foldl_deleteNode c killList k
  rw [hdeleted]
  cases hx : c.primary.lookup k with
  | none => simp
  | some x => simp [h.mem_pointers, hx, Option.filter_some]

end MemCache

end Cppcms
