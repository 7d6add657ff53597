import Mathlib.Data.List.Basic
import Mathlib.Logic.Relation
import Mathlib.Tactic.Common

set_option autoImplicit false

/-! # A cache invalidated by triggers

Every entry carries the triggers it depends on, its own key among them; raising a trigger drops every
entry that carries it. Storing under a key replaces the entry of that key. This is the in-memory cache
of the framework without its clock and its size limit: entries are stored without expiry, and an
eviction is an event of its own (`evict`). -/

namespace Store

/-- One cached object. -/
structure CacheEntry (β : Type) where
  key : String
  value : β
  triggers : List String

/-- A cache whose entries are dropped by raising triggers. -/
abbrev TriggerCache (β : Type) := List (CacheEntry β)

namespace TriggerCache

variable {β : Type}

/-- The object under a key together with its triggers. -/
def fetch (c : TriggerCache β) (key : String) : Option (CacheEntry β) :=
  c.find? (fun e => e.key = key)

/-- Put an object under a key; the key is one of its triggers. -/
def store (c : TriggerCache β) (key : String) (value : β) (triggers : List String) :
    TriggerCache β :=
  { key := key, value := value,
    triggers := if key ∈ triggers then triggers else key :: triggers } ::
    c.filter (fun e => e.key ≠ key)

/-- Drop every entry that depends on a trigger. -/
def rise (c : TriggerCache β) (trigger : String) : TriggerCache β :=
  c.filter (fun e => trigger ∉ e.triggers)

/-- Drop the entries of some keys, as the size limit does. -/
def evict (c : TriggerCache β) (keys : List String) : TriggerCache β :=
  c.filter (fun e => e.key ∉ keys)

theorem mem_of_fetch {c : TriggerCache β} {key : String} {e : CacheEntry β}
    (h : c.fetch key = some e) : e ∈ c ∧ e.key = key :=
  ⟨List.mem_of_find?_eq_some h, by simpa using List.find?_some h⟩

theorem mem_store {c : TriggerCache β} {key : String} {value : β} {triggers : List String}
    {e : CacheEntry β} :
    e ∈ c.store key value triggers ↔
      (e = ⟨key, value, if key ∈ triggers then triggers else key :: triggers⟩) ∨
        (e ∈ c ∧ e.key ≠ key) := by
  simp [store]

theorem mem_rise {c : TriggerCache β} {trigger : String} {e : CacheEntry β} :
    e ∈ c.rise trigger ↔ e ∈ c ∧ trigger ∉ e.triggers := by
  simp [rise]

theorem mem_evict {c : TriggerCache β} {keys : List String} {e : CacheEntry β} :
    e ∈ c.evict keys ↔ e ∈ c ∧ e.key ∉ keys := by
  simp [evict]

@[simp] theorem fetch_nil (key : String) : fetch ([] : TriggerCache β) key = none := rfl

theorem fetch_store_self (c : TriggerCache β) (key : String) (value : β) (triggers : List String) :
    (c.store key value triggers).fetch key =
      some ⟨key, value, if key ∈ triggers then triggers else key :: triggers⟩ := by
  simp [fetch, store]

theorem fetch_store_ne (c : TriggerCache β) {key key' : String} (h : key' ≠ key) (value : β)
    (triggers : List String) : (c.store key value triggers).fetch key' = c.fetch key' := by
  have hne : key ≠ key' := Ne.symm h
  simp only [fetch, store, List.find?_cons, hne, decide_false, List.find?_filter]
  congr 1
  funext e
  by_cases he : e.key = key' <;> simp [he, h]

/-- After a trigger was raised no entry depends on it. -/
theorem not_mem_triggers_rise {c : TriggerCache β} {trigger : String} {e : CacheEntry β}
    (h : e ∈ c.rise trigger) : trigger ∉ e.triggers := (mem_rise.1 h).2

/-! ## Storing alone -/

/-- What comes from a cache by storing alone. -/
def Grown : TriggerCache β → TriggerCache β → Prop :=
  Relation.ReflTransGen fun c c' => ∃ key value triggers, c' = c.store key value triggers

/-- Nothing that was stored is lost by storing. -/
theorem Grown.isSome {c c' : TriggerCache β} (h : Grown c c') (key : String)
    (hkey : (c.fetch key).isSome) : (c'.fetch key).isSome := by
  induction h with
  | refl => exact hkey
  | tail _ hstep ih =>
    obtain ⟨key', value, triggers, rfl⟩ := hstep
    by_cases hne : key = key'
    · rw [hne, fetch_store_self]
      rfl
    · rw [fetch_store_ne _ hne]
      exact ih

/-! ## Several triggers -/

/-- Raise several triggers, one after the other. -/
def riseAll (c : TriggerCache β) (ts : List String) : TriggerCache β := ts.foldl rise c

@[simp] theorem riseAll_nil (c : TriggerCache β) : c.riseAll [] = c := rfl

theorem riseAll_append (c : TriggerCache β) (ts ts' : List String) :
    c.riseAll (ts ++ ts') = (c.riseAll ts).riseAll ts' := List.foldl_append

theorem mem_riseAll {c : TriggerCache β} {ts : List String} {e : CacheEntry β} :
    e ∈ c.riseAll ts ↔ e ∈ c ∧ ∀ t ∈ ts, t ∉ e.triggers := by
  induction ts generalizing c with
  | nil => simp
  | cons t ts ih =>
    have hstep : c.riseAll (t :: ts) = (c.rise t).riseAll ts := rfl
    rw [hstep, ih, mem_rise]
    simp only [List.mem_cons, forall_eq_or_imp]
    exact and_assoc

/-! ## What is said of every entry -/

/-- Every entry of the cache is as `V` says. -/
def Valid (V : CacheEntry β → Prop) (c : TriggerCache β) : Prop := ∀ e ∈ c, V e

theorem valid_nil (V : CacheEntry β → Prop) : Valid V [] := fun _ he => absurd he List.not_mem_nil

theorem Valid.subset {V : CacheEntry β → Prop} {c c' : TriggerCache β} (h : c.Valid V)
    (hsub : ∀ e ∈ c', e ∈ c) : c'.Valid V := fun e he => h e (hsub e he)

theorem Valid.mono {V V' : CacheEntry β → Prop} {c : TriggerCache β} (h : c.Valid V)
    (hV : ∀ e, V e → V' e) : c.Valid V' := fun e he => hV e (h e he)

theorem Valid.fetch {V : CacheEntry β → Prop} {c : TriggerCache β} (h : c.Valid V) {key : String}
    {e : CacheEntry β} (he : c.fetch key = some e) : V e := h e (mem_of_fetch he).1

/-- The triggers an object is stored with: those given, and its key. -/
def storedTriggers (key : String) (triggers : List String) : List String :=
  if key ∈ triggers then triggers else key :: triggers

theorem mem_storedTriggers {key t : String} {triggers : List String} :
    t ∈ storedTriggers key triggers ↔ t = key ∨ t ∈ triggers := by
  unfold storedTriggers
  split
  · rename_i hkey
    constructor
    · exact Or.inr
    · rintro (rfl | ht)
      · exact hkey
      · exact ht
  · exact List.mem_cons

theorem Valid.store {V : CacheEntry β → Prop} {c : TriggerCache β} (h : c.Valid V) {key : String}
    {value : β} {triggers : List String} (hnew : V ⟨key, value, storedTriggers key triggers⟩) :
    (c.store key value triggers).Valid V := by
  intro e he
  rcases mem_store.1 he with rfl | ⟨hmem, -⟩
  · exact hnew
  · exact h e hmem

/-- After a change of what the entries are made from: it is enough that the entries which depend on none
    of the triggers raised are still valid. -/
theorem Valid.riseAll {V V' : CacheEntry β → Prop} {c : TriggerCache β} {ts : List String}
    (h : c.Valid V) (hstep : ∀ e ∈ c, V e → (∀ t ∈ ts, t ∉ e.triggers) → V' e) :
    (c.riseAll ts).Valid V' := by
  intro e he
  obtain ⟨hmem, hts⟩ := mem_riseAll.1 he
  exact hstep e hmem (h e hmem) hts

end TriggerCache

end Store
