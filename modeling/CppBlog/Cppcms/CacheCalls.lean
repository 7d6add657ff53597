import CppBlog.Cppcms.MemCache
import Mathlib.Data.Finset.Card

set_option autoImplicit false

/-! # Runs of the cache

In every run the four structures of the cache agree, what is found is what was stored last and not dropped
since, an object outlives the use of fewer others than the limit admits, and the answers are those of the
cache of the handlers (`Store.TriggerCache`), from which objects are evicted only when they are expired or
there is no room. -/

namespace Cppcms

open Store

variable {β : Type}

/-- A call of `base_cache`. -/
inductive CacheCall (β : Type) where
  | fetch (key : String)
  | rise (trigger : String)
  | remove (key : String)
  | clear
  | store (key : String) (a : β) (triggers : { l : List String // l.Nodup }) (timeout : Int) (gen : Option UInt64)

namespace CacheCall

/-- The objects a call uses. -/
def uses : CacheCall β → List String
  | .fetch key => [key]
  | .store key _ _ _ _ => [key]
  | _ => []

/-- The calls behind which an object with these triggers is not kept. -/
def Drops (key : String) (triggers : List String) : CacheCall β → Prop
  | .fetch _ => False
  | .rise trigger => trigger ∈ triggers
  | .remove k => k = key
  | .clear => True
  | .store k _ _ _ _ => k = key

instance (key : String) (triggers : List String) (call : CacheCall β) : Decidable (call.Drops key triggers) := by
  cases call <;> unfold Drops <;> infer_instance

end CacheCall

namespace MemCache

/-- One call at a time of the clock, with what `fetch` answers. -/
def step (c : MemCache β) (now : Int) : CacheCall β → Option (Hit β) × MemCache β
  | .fetch key => c.fetch now key
  | .rise trigger => (none, c.rise trigger)
  | .remove key => (none, c.remove key)
  | .clear => (none, c.nlClear)
  | .store key a triggers timeout gen => (none, c.store now key a triggers.1 timeout gen)

/-- The calls one after the other. -/
def run (c : MemCache β) (calls : List (Int × CacheCall β)) : MemCache β :=
  calls.foldl (fun c x => (c.step x.1 x.2).2) c

theorem run_append (c : MemCache β) (calls calls' : List (Int × CacheCall β)) :
    c.run (calls ++ calls') = (c.run calls).run calls' := List.foldl_append

theorem run_cons (c : MemCache β) (now : Int) (call : CacheCall β) (calls : List (Int × CacheCall β)) :
    c.run ((now, call) :: calls) = (c.step now call).2.run calls := rfl

/-! ## Agreement -/

theorem Coherent.step {c : MemCache β} (h : c.Coherent) (now : Int) (call : CacheCall β) :
    (c.step now call).2.Coherent := by
  cases call with
  | fetch key => exact h.fetch now key
  | rise trigger => exact h.rise trigger
  | remove key => exact h.deleteNode key
  | clear => exact Coherent.nlClear c
  | store key a triggers timeout gen => exact h.store now key a triggers.2 timeout gen

theorem Coherent.run {c : MemCache β} (h : c.Coherent) (calls : List (Int × CacheCall β)) :
    (c.run calls).Coherent := by
  induction calls generalizing c with
  | nil => exact h
  | cons x calls ih => exact ih (h.step x.1 x.2)

/-- **In every run the four structures agree**, the counters count, and the limit is kept. -/
theorem run_coherent (limit : Nat) (calls : List (Int × CacheCall β)) : ((fresh limit).run calls).Coherent :=
  (Coherent.fresh limit).run calls

/-! ## What a call does to an object -/

theorem lookup_fetch (c : MemCache β) (now : Int) (key k : String) :
    (c.fetch now key).2.primary.lookup k = c.primary.lookup k := by
  unfold MemCache.fetch
  split
  · rfl
  · split <;> rfl

/-- What is stored. -/
def stored (c : MemCache β) (now : Int) (key : String) (a : β) (triggers : List String) (timeout : Int)
    (gen : Option UInt64) : Container β :=
  ⟨a, TriggerCache.storedTriggers key triggers, timeout, gen.getD ((c.deleteNode key).checkLimits now).generation⟩

/-- An object behind a call is the one that is stored, or it was there and the call does not drop it. -/
theorem Coherent.lookup_step {c : MemCache β} (h : c.Coherent) {now : Int} {call : CacheCall β} {key : String}
    {x : Container β} (hx : (c.step now call).2.primary.lookup key = some x) :
    (∃ a triggers timeout gen, call = .store key a triggers timeout gen ∧
        x = c.stored now key a triggers.1 timeout gen) ∨
      c.primary.lookup key = some x ∧ ¬call.Drops key x.triggers := by
  cases call with
  | fetch k =>
    rw [MemCache.step, lookup_fetch] at hx
    exact .inr ⟨hx, id⟩
  | rise trigger =>
    have hfilter : (c.rise trigger).primary.lookup key = some x := hx
    rw [h.lookup_rise, Option.filter_eq_some_iff] at hfilter
    exact .inr ⟨hfilter.1, of_decide_eq_true hfilter.2⟩
  | remove k =>
    have hdeleted : (c.deleteNode k).primary.lookup key = some x := hx
    rw [lookup_deleteNode] at hdeleted
    split at hdeleted
    · cases hdeleted
    · rename_i hne
      exact .inr ⟨hdeleted, fun heq => hne heq.symm⟩
  | clear =>
    have hnone : c.nlClear.primary.lookup key = some x := hx
    simp [MemCache.nlClear] at hnone
  | store k a triggers timeout gen =>
    have hstored : (c.store now k a triggers.1 timeout gen).primary.lookup key = some x := hx
    rw [lookup_store] at hstored
    split at hstored
    · rename_i heq
      subst heq
      exact .inl ⟨a, triggers, timeout, gen, rfl, (Option.some.inj hstored).symm⟩
    · rename_i hne
      rcases lookup_checkLimits (h.deleteNode k) now key with hnone | heq
      · rw [hnone] at hstored
        cases hstored
      · rw [heq, lookup_deleteNode, if_neg hne] at hstored
        exact .inr ⟨hstored, fun heq => hne heq.symm⟩

/-! ## The last store -/

/-- The object is the one the last store under its key put there, and nothing dropped it since. -/
def StoredLast (calls : List (Int × CacheCall β)) (key : String) (x : Container β) : Prop :=
  ∃ before now a triggers gen after,
    calls = before ++ (now, .store key a triggers x.timeout gen) :: after ∧
      x.data = a ∧ x.triggers = TriggerCache.storedTriggers key triggers.1 ∧
      ∀ y ∈ after, ¬y.2.Drops key x.triggers

/-- **What is found was stored last**: in every run an object is the one of the last store under its key, and
    behind that neither one of its triggers was risen, nor it removed, nor the cache cleared. -/
theorem run_storedLast (limit : Nat) (calls : List (Int × CacheCall β)) (key : String) (x : Container β)
    (hx : ((fresh limit).run calls).primary.lookup key = some x) : StoredLast calls key x := by
  induction calls using List.reverseRecOn generalizing x with
  | nil =>
    have hnone : (fresh limit : MemCache β).primary.lookup key = some x := hx
    simp [fresh] at hnone
  | append_singleton calls y ih =>
    obtain ⟨now, call⟩ := y
    have hcoherent : ((fresh limit : MemCache β).run calls).Coherent := (Coherent.fresh limit).run calls
    rw [run_append] at hx
    rcases hcoherent.lookup_step hx with ⟨a, triggers, timeout, gen, rfl, rfl⟩ | ⟨hbefore, hkept⟩
    · exact ⟨calls, now, a, triggers, gen, [], rfl, rfl, rfl, fun _ h => absurd h List.not_mem_nil⟩
    · obtain ⟨before, now', a, triggers, gen, after, rfl, hdata, htriggers, hafter⟩ := ih x hbefore
      refine ⟨before, now', a, triggers, gen, after ++ [(now, call)], by simp, hdata, htriggers, fun z hz => ?_⟩
      rcases List.mem_append.1 hz with hz | hz
      · exact hafter z hz
      · rw [List.mem_singleton.1 hz]
        exact hkept

/-- Three objects, of which the last use keeps two. -/
def sampleCalls : List (Int × CacheCall Nat) :=
  [(0, .store "a" 1 ⟨["t"], by decide⟩ 10 none), (1, .store "b" 2 ⟨[], List.nodup_nil⟩ 10 none), (2, .fetch "a"),
   (3, .store "c" 3 ⟨["t"], by decide⟩ 10 none)]

theorem run_storedLast_one : StoredLast sampleCalls "a" ⟨1, ["a", "t"], 10, 0⟩ :=
  run_storedLast 2 sampleCalls "a" ⟨1, ["a", "t"], 10, 0⟩ (by decide +kernel)

/-! ## The last use -/

/-- The object is there, and only some objects were used behind it. -/
def Recent (c : MemCache β) (used : Finset String) (key : String) (x : Container β) : Prop :=
  c.primary.lookup key = some x ∧ ∃ before after, c.lru = before ++ key :: after ∧ ∀ k ∈ before, k ∈ used

theorem Recent.deleteNode {c : MemCache β} {used : Finset String} {key : String} {x : Container β}
    (h : c.Recent used key x) (hc : c.Coherent) {k : String} (hk : k ≠ key) :
    (c.deleteNode k).Recent (used.erase k) key x := by
  obtain ⟨hx, before, after, hlru, hused⟩ := h
  refine ⟨by rw [lookup_deleteNode, if_neg (Ne.symm hk), hx], ?_⟩
  have hnodup : (before ++ key :: after).Nodup := hlru ▸ hc.lru_nodup
  rw [deleteNode_lru c hc, hlru, List.erase_append]
  split
  · refine ⟨before.erase k, after, rfl, fun j hj => ?_⟩
    have hmem := (List.Nodup.of_append_left hnodup).mem_erase_iff.1 hj
    exact Finset.mem_erase.2 ⟨hmem.1, hused j hmem.2⟩
  · rename_i hnot
    refine ⟨before, after.erase k, ?_, fun j hj => Finset.mem_erase.2 ⟨?_, hused j hj⟩⟩
    · rw [List.erase_cons_tail (by simpa using Ne.symm hk)]
    · rintro rfl
      exact hnot hj

/-- The object that was not used for longest is not one behind which only few were used. -/
theorem Recent.getLast_ne {c : MemCache β} {used : Finset String} {key : String} {x : Container β}
    (h : c.Recent used key x) (hc : c.Coherent) (hfew : (used.erase key).card + 1 < c.size) :
    c.lru.getLast? ≠ some key := by
  obtain ⟨-, before, after, hlru, hused⟩ := h
  have hnodup : (before ++ key :: after).Nodup := hlru ▸ hc.lru_nodup
  intro hlast
  rw [hlru, List.getLast?_append, List.getLast?_cons, Option.some_or] at hlast
  have hafter : after = [] := by
    cases hl : after.getLast? with
    | none => exact List.getLast?_eq_none_iff.1 hl
    | some j =>
      rw [hl, Option.getD_some] at hlast
      have hmem : j ∈ after := List.mem_of_getLast? hl
      rw [Option.some.inj hlast] at hmem
      exact absurd hmem (List.nodup_cons.1 (List.Nodup.of_append_right hnodup)).1
  have hkey : key ∉ before := fun hmem => List.disjoint_of_nodup_append hnodup hmem List.mem_cons_self
  have hcard : before.length ≤ (used.erase key).card := by
    rw [← List.toFinset_card_of_nodup (List.Nodup.of_append_left hnodup)]
    refine Finset.card_le_card fun j hj => Finset.mem_erase.2 ⟨?_, hused j (List.mem_toFinset.1 hj)⟩
    rintro rfl
    exact hkey (List.mem_toFinset.1 hj)
  have hsize := hc.size
  rw [hlru, hafter, List.length_append, List.length_singleton] at hsize
  omega

/-- Of the objects behind which only few were used the loop deletes none that is not expired. -/
theorem Recent.checkLimits {c : MemCache β} {used : Finset String} {key : String} {x : Container β} {now : Int}
    (h : c.Recent used key x) (hc : c.Coherent) (hx : now ≤ x.timeout)
    (hfew : 0 < c.limit → (used.erase key).card + 1 < c.limit) : (c.checkLimits now).Recent used key x := by
  refine (evictLoop_induction (P := fun c' => c'.limit = c.limit ∧ c'.Recent used key x)
    (fun c' k hc' hP hfull hlimit hvictim => ?_) _ hc ⟨rfl, h⟩).2.2
  obtain ⟨hsame, hrecent⟩ := hP
  have hk : k ≠ key := by
    rintro rfl
    rcases victim_eq_some hvictim with ⟨t, ht, hlt⟩ | hlast
    · rw [hc'.mem_timeout, hrecent.1, Option.map_some] at ht
      have heq := Option.some.inj ht
      omega
    · rw [hsame] at hlimit
      have hroom := hfew hlimit
      exact hrecent.getLast_ne hc' (by omega) hlast
  obtain ⟨hlookup, before, after, hlru, hused⟩ := hrecent.deleteNode hc' hk
  exact ⟨(deleteNode_limit c' k).trans hsame, hlookup, before, after, hlru,
    fun j hj => Finset.mem_of_mem_erase (hused j hj)⟩

theorem Recent.foldl_deleteNode {c : MemCache β} {used : Finset String} {key : String} {x : Container β}
    (h : c.Recent used key x) (hc : c.Coherent) {keys : List String} (hkeys : key ∉ keys) :
    (keys.foldl MemCache.deleteNode c).Recent used key x := by
  induction keys generalizing c with
  | nil => exact h
  | cons k keys ih =>
    obtain ⟨hne, hkeys⟩ := not_or.1 (fun hmem => hkeys (List.mem_cons.2 hmem))
    obtain ⟨hlookup, before, after, hlru, hused⟩ := h.deleteNode hc (Ne.symm hne)
    exact ih ⟨hlookup, before, after, hlru, fun j hj => Finset.mem_of_mem_erase (hused j hj)⟩
      (hc.deleteNode k) hkeys

theorem foldl_deleteNode_limit (c : MemCache β) (keys : List String) :
    (keys.foldl deleteNode c).limit = c.limit := by
  induction keys generalizing c with
  | nil => rfl
  | cons k keys ih => exact (ih (c.deleteNode k)).trans (deleteNode_limit c k)

theorem step_limit {c : MemCache β} (hc : c.Coherent) (now : Int) (call : CacheCall β) :
    (c.step now call).2.limit = c.limit := by
  cases call with
  | fetch key =>
    change (c.fetch now key).2.limit = c.limit
    unfold MemCache.fetch
    split
    · rfl
    · split <;> rfl
  | rise trigger =>
    change (c.rise trigger).limit = c.limit
    unfold MemCache.rise
    split
    · rfl
    · exact foldl_deleteNode_limit c _
  | remove key => exact deleteNode_limit c key
  | clear => rfl
  | store key a triggers timeout gen =>
    change (c.store now key a triggers.1 timeout gen).limit = c.limit
    rw [store_eq c now key a triggers.1 timeout gen rfl]
    exact (checkLimits_limit (hc.deleteNode key) now).trans (deleteNode_limit c key)

theorem run_limit (limit : Nat) (calls : List (Int × CacheCall β)) : ((fresh limit).run calls).limit = limit := by
  induction calls using List.reverseRecOn with
  | nil => rfl
  | append_singleton calls y ih =>
    rw [run_append]
    exact (step_limit ((Coherent.fresh limit).run calls) y.1 y.2).trans ih

/-- A call that does not drop the object uses at most one other. -/
theorem Recent.step {c : MemCache β} {used : Finset String} {key : String} {x : Container β} {now : Int}
    {call : CacheCall β} (h : c.Recent used key x) (hc : c.Coherent) (hx : now ≤ x.timeout)
    (hkept : ¬call.Drops key x.triggers)
    (hfew : 0 < c.limit → (insert key (used ∪ call.uses.toFinset)).card ≤ c.limit) :
    (c.step now call).2.Recent (used ∪ call.uses.toFinset) key x := by
  cases call with
  | fetch k =>
    obtain ⟨hlookup, before, after, hlru, hused⟩ := h
    refine ⟨by rw [MemCache.step, lookup_fetch, hlookup], ?_⟩
    change ∃ before after, (c.fetch now k).2.lru = before ++ key :: after ∧ ∀ j ∈ before, j ∈ used ∪ {k}
    unfold MemCache.fetch
    split
    · exact ⟨before, after, hlru, fun j hj => Finset.mem_union_left _ (hused j hj)⟩
    · split
      · exact ⟨before, after, hlru, fun j hj => Finset.mem_union_left _ (hused j hj)⟩
      · dsimp only
        by_cases hk : k = key
        · subst hk
          exact ⟨[], _, rfl, fun _ hj => absurd hj List.not_mem_nil⟩
        · rw [hlru, List.erase_append]
          split
          · refine ⟨k :: before.erase k, after, rfl, fun j hj => ?_⟩
            rcases List.mem_cons.1 hj with rfl | hj
            · exact Finset.mem_union_right _ (Finset.mem_singleton_self _)
            · exact Finset.mem_union_left _ (hused j (List.mem_of_mem_erase hj))
          · refine ⟨k :: before, after.erase k, ?_, fun j hj => ?_⟩
            · rw [List.erase_cons_tail (by simpa using Ne.symm hk)]
              rfl
            · rcases List.mem_cons.1 hj with rfl | hj
              · exact Finset.mem_union_right _ (Finset.mem_singleton_self _)
              · exact Finset.mem_union_left _ (hused j hj)
  | rise trigger =>
    have hnot : key ∉ c.triggers.pointers trigger := by
      rw [hc.mem_pointers]
      rintro ⟨y, hy, hmem⟩
      obtain rfl := Option.some.inj (h.1.symm.trans hy)
      exact hkept hmem
    change (c.rise trigger).Recent (used ∪ ∅) key x
    rw [Finset.union_empty]
    unfold MemCache.rise
    cases ht : c.triggers.lookup trigger with
    | none => exact h
    | some keys => exact h.foldl_deleteNode hc (TriggerIndex.pointers_of_lookup ht ▸ hnot)
  | remove k =>
    change (c.deleteNode k).Recent (used ∪ ∅) key x
    rw [Finset.union_empty]
    have hk : k ≠ key := hkept
    exact h.foldl_deleteNode hc (List.not_mem_cons_of_ne_of_not_mem (Ne.symm hk) List.not_mem_nil)
  | clear => exact absurd trivial hkept
  | store k a triggers timeout gen =>
    have hk : k ≠ key := hkept
    change (c.store now k a triggers.1 timeout gen).Recent (used ∪ {k}) key x
    have hroom : 0 < (c.deleteNode k).limit → ((used.erase k).erase key).card + 1 < (c.deleteNode k).limit := by
      rw [deleteNode_limit]
      intro hlimit
      have hcard : (insert key (insert k ((used.erase k).erase key))).card = ((used.erase k).erase key).card + 2 := by
        rw [Finset.card_insert_of_notMem (by simp [Ne.symm hk]), Finset.card_insert_of_notMem (by simp)]
      have hsub : insert key (insert k ((used.erase k).erase key)) ⊆ insert key (used ∪ {k}) := by
        intro j hj
        simp only [Finset.mem_insert, Finset.mem_erase, Finset.mem_union, Finset.mem_singleton] at hj ⊢
        tauto
      have hall := (Finset.card_le_card hsub).trans (hfew hlimit)
      omega
    obtain ⟨hlookup, before, after, hlru, hused⟩ :=
      (h.deleteNode hc hk).checkLimits (hc.deleteNode k) hx hroom
    refine ⟨by rw [lookup_store, if_neg (Ne.symm hk), hlookup], k :: before, after, ?_, fun j hj => ?_⟩
    · rw [store_eq c now k a triggers.1 timeout gen rfl, hlru]
      rfl
    · rcases List.mem_cons.1 hj with rfl | hj
      · simp
      · exact Finset.mem_union_left _ (Finset.mem_of_mem_erase (hused j hj))

/-- The objects some calls use. -/
def usedBy (calls : List (Int × CacheCall β)) : Finset String := (calls.flatMap (fun y => y.2.uses)).toFinset

theorem Recent.run {c : MemCache β} {used : Finset String} {key : String} {x : Container β}
    (h : c.Recent used key x) (hc : c.Coherent) {calls : List (Int × CacheCall β)}
    (hkept : ∀ y ∈ calls, ¬y.2.Drops key x.triggers ∧ y.1 ≤ x.timeout)
    (hfew : 0 < c.limit → (insert key (used ∪ usedBy calls)).card ≤ c.limit) :
    (c.run calls).Recent (used ∪ usedBy calls) key x := by
  induction calls generalizing c used with
  | nil =>
    rw [usedBy, List.flatMap_nil, List.toFinset_nil, Finset.union_empty]
    exact h
  | cons y calls ih =>
    obtain ⟨hy, hcalls⟩ := List.forall_mem_cons.1 hkept
    have hsplit : used ∪ usedBy (y :: calls) = (used ∪ y.2.uses.toFinset) ∪ usedBy calls := by
      rw [usedBy, List.flatMap_cons, List.toFinset_append, Finset.union_assoc, usedBy]
    rw [hsplit] at hfew ⊢
    have hstep := h.step hc hy.2 hy.1 fun hlimit =>
      (Finset.card_le_card (Finset.insert_subset_insert key Finset.subset_union_left)).trans (hfew hlimit)
    exact ih hstep (hc.step y.1 y.2) hcalls (by rwa [step_limit hc])

/-- **An object outlives the use of fewer others than the limit admits**: in every run an object that was
    just stored or found is still there behind calls that do not drop it, before it expires, as long as they
    use no more objects, itself included, than the limit. -/
theorem run_retains (limit : Nat) (before after : List (Int × CacheCall β)) (key : String) (x : Container β)
    (hx : ((fresh limit).run before).primary.lookup key = some x)
    (hlast : ((fresh limit).run before).lru.head? = some key)
    (hkept : ∀ y ∈ after, ¬y.2.Drops key x.triggers ∧ y.1 ≤ x.timeout)
    (hfew : 0 < limit → (insert key (usedBy after)).card ≤ limit) :
    ((fresh limit).run (before ++ after)).primary.lookup key = some x := by
  obtain ⟨behind, hlru⟩ : ∃ behind, ((fresh limit).run before).lru = key :: behind := by
    cases hl : ((fresh limit).run before).lru with
    | nil =>
      rw [hl] at hlast
      cases hlast
    | cons k behind =>
      rw [hl] at hlast
      obtain rfl := Option.some.inj hlast
      exact ⟨behind, rfl⟩
  have hrecent : ((fresh limit).run before).Recent ∅ key x :=
    ⟨hx, [], behind, hlru, fun _ hk => absurd hk List.not_mem_nil⟩
  have hrun := hrecent.run ((Coherent.fresh limit).run before) hkept (by rwa [run_limit, Finset.empty_union])
  rw [run_append]
  exact hrun.1

theorem run_retains_one : ((fresh 2).run sampleCalls).primary.lookup "a" = some ⟨1, ["a", "t"], 10, 0⟩ :=
  run_retains 2 (sampleCalls.take 3) (sampleCalls.drop 3) "a" ⟨1, ["a", "t"], 10, 0⟩ (by decide +kernel)
    (by decide +kernel) (by decide +kernel) (by decide +kernel)

/-! ## The cache of the handlers -/

/-- A call of the cache that knows neither clock nor limit. -/
def plainStep (c : TriggerCache β) : CacheCall β → Option (CacheEntry β) × TriggerCache β
  | .fetch key => (c.fetch key, c)
  | .rise trigger => (none, c.rise trigger)
  | .remove key => (none, c.evict [key])
  | .clear => (none, [])
  | .store key a triggers _ _ => (none, c.store key a triggers.1)

/-- An object as that cache keeps it. -/
def entry (key : String) (x : Container β) : CacheEntry β := ⟨key, x.data, x.triggers⟩

/-- At a time of the clock that cache holds what is not expired, and nothing that is not there. -/
structure Represents (now : Int) (c : MemCache β) (plain : TriggerCache β) : Prop where
  sound : ∀ e ∈ plain, ∃ x, c.primary.lookup e.key = some x ∧ e = entry e.key x
  complete : ∀ key x, c.primary.lookup key = some x → now ≤ x.timeout → entry key x ∈ plain

/-- The objects a call may evict: one that is expired, or any where it stores and there is no room. -/
def Evictable (c : MemCache β) (now : Int) (call : CacheCall β) (key : String) : Prop :=
  (∃ x, c.primary.lookup key = some x ∧ x.timeout < now) ∨
    0 < c.limit ∧ c.limit ≤ c.size ∧ ∃ k a triggers timeout gen, call = .store k a triggers timeout gen

/-- The calls are answered by the cache of the handlers, with evictions between them. -/
def SimulatedBy (c : MemCache β) (plain : TriggerCache β) : List (Int × CacheCall β) → Prop
  | [] => True
  | (now, call) :: calls => ∃ keys, (∀ key ∈ keys, c.Evictable now call key) ∧
      (c.step now call).1.map (fun hit => (hit.data, hit.triggers)) =
        (plainStep (plain.evict keys) call).1.map (fun e => (e.value, e.triggers)) ∧
      SimulatedBy (c.step now call).2 (plainStep (plain.evict keys) call).2 calls

theorem mem_plainStep {plain : TriggerCache β} {call : CacheCall β} {e : CacheEntry β} :
    e ∈ (plainStep plain call).2 ↔
      (∃ a triggers timeout gen, call = .store e.key a triggers timeout gen ∧
        e = ⟨e.key, a, TriggerCache.storedTriggers e.key triggers.1⟩) ∨
      e ∈ plain ∧ ¬call.Drops e.key e.triggers := by
  cases call with
  | fetch key => simp [plainStep, CacheCall.Drops]
  | rise trigger => simp [plainStep, CacheCall.Drops, TriggerCache.mem_rise]
  | remove key => simp [plainStep, CacheCall.Drops, TriggerCache.mem_evict, eq_comm]
  | clear => simp [plainStep, CacheCall.Drops]
  | store key a triggers timeout gen =>
    rw [plainStep, TriggerCache.mem_store]
    constructor
    · rintro (rfl | ⟨hmem, hne⟩)
      · exact .inl ⟨a, triggers, timeout, gen, rfl, rfl⟩
      · exact .inr ⟨hmem, fun heq => hne heq.symm⟩
    · rintro (⟨a', triggers', timeout', gen', hcall, he⟩ | ⟨hmem, hkept⟩)
      · cases hcall
        exact .inl he
      · exact .inr ⟨hmem, fun heq => hkept heq.symm⟩

theorem checkLimits_of_room {c : MemCache β} {now : Int} (h : ¬(0 < c.limit ∧ c.limit ≤ c.size)) :
    c.checkLimits now = c := by
  unfold checkLimits
  cases c.size with
  | zero => rfl
  | succ n =>
    unfold evictLoop
    exact if_neg fun hfull => h ⟨hfull.2.2, hfull.2.1⟩

/-- An object a call does not drop is left, unless there is no room. -/
theorem Coherent.lost {c : MemCache β} (h : c.Coherent) {now : Int} {call : CacheCall β} {key : String}
    {x : Container β} (hx : c.primary.lookup key = some x) (hkept : ¬call.Drops key x.triggers)
    (hlost : (c.step now call).2.primary.lookup key = none) :
    0 < c.limit ∧ c.limit ≤ c.size ∧ ∃ k a triggers timeout gen, call = .store k a triggers timeout gen := by
  cases call with
  | fetch k =>
    rw [MemCache.step, lookup_fetch, hx] at hlost
    cases hlost
  | rise trigger =>
    have hnone : (c.rise trigger).primary.lookup key = none := hlost
    have hnot : trigger ∉ x.triggers := hkept
    rw [h.lookup_rise, hx, Option.filter_some, if_pos (decide_eq_true hnot)] at hnone
    cases hnone
  | remove k =>
    have hnone : (c.deleteNode k).primary.lookup key = none := hlost
    rw [lookup_deleteNode, if_neg fun heq => hkept heq.symm, hx] at hnone
    cases hnone
  | clear => exact absurd trivial hkept
  | store k a triggers timeout gen =>
    have hnone : (c.store now k a triggers.1 timeout gen).primary.lookup key = none := hlost
    rw [lookup_store, if_neg fun heq => hkept heq.symm] at hnone
    by_contra hroom
    have hsize : (c.deleteNode k).size ≤ c.size := by
      by_cases hk : k ∈ c.lru
      · have hshorter := h.deleteNode_size hk
        omega
      · have habsent : c.primary.lookup k = none := by simpa [h.mem_lru] using hk
        rw [deleteNode_none habsent]
    rw [checkLimits_of_room, lookup_deleteNode, if_neg fun heq => hkept heq.symm, hx] at hnone
    · cases hnone
    · rw [deleteNode_limit]
      exact fun hfull => hroom ⟨hfull.1, hfull.2.trans hsize, k, a, triggers, timeout, gen, rfl⟩

theorem Represents.fetch_eq_none {now : Int} {c : MemCache β} {plain : TriggerCache β}
    (h : Represents now c plain) {key : String} (hx : c.primary.lookup key = none) : plain.fetch key = none := by
  cases he : plain.fetch key with
  | none => rfl
  | some e =>
    obtain ⟨hmem, rfl⟩ := TriggerCache.mem_of_fetch he
    obtain ⟨x, hlookup, -⟩ := h.sound e hmem
    rw [hx] at hlookup
    cases hlookup

theorem Represents.fetch_eq_some {now : Int} {c : MemCache β} {plain : TriggerCache β}
    (h : Represents now c plain) {key : String} {x : Container β} (hx : c.primary.lookup key = some x)
    (hmem : entry key x ∈ plain) : plain.fetch key = some (entry key x) := by
  cases he : plain.fetch key with
  | none => exact absurd (decide_eq_true rfl) (List.find?_eq_none.1 he (entry key x) hmem)
  | some e =>
    obtain ⟨hfound, rfl⟩ := TriggerCache.mem_of_fetch he
    obtain ⟨y, hlookup, heq⟩ := h.sound e hfound
    obtain rfl := Option.some.inj (hx.symm.trans hlookup)
    rw [← heq]

/-- The objects a call loses without dropping them. -/
def lostKeys (c : MemCache β) (now : Int) (call : CacheCall β) : List String :=
  c.lru.filter fun key => match c.primary.lookup key with
    | none => false
    | some x => x.timeout < now || !decide (call.Drops key x.triggers) && ((c.step now call).2.primary.lookup key).isNone

theorem Coherent.mem_lostKeys {c : MemCache β} (h : c.Coherent) {now : Int} {call : CacheCall β} {key : String}
    {x : Container β} (hx : c.primary.lookup key = some x) : key ∈ c.lostKeys now call ↔
      x.timeout < now ∨ ¬call.Drops key x.triggers ∧ (c.step now call).2.primary.lookup key = none := by
  rw [lostKeys, List.mem_filter, hx, h.mem_lru, hx]
  simp

theorem Coherent.evictable {c : MemCache β} (h : c.Coherent) {now : Int} {call : CacheCall β} {key : String}
    (hkey : key ∈ c.lostKeys now call) : c.Evictable now call key := by
  obtain ⟨x, hx⟩ := Option.isSome_iff_exists.1 ((h.mem_lru key).1 (List.mem_filter.1 hkey).1)
  rcases (h.mem_lostKeys hx).1 hkey with hexpired | ⟨hkept, hlost⟩
  · exact .inl ⟨x, hx, hexpired⟩
  · exact .inr (h.lost hx hkept hlost)

theorem Represents.step {t now : Int} {c : MemCache β} {plain : TriggerCache β} (h : Represents t c plain)
    (hc : c.Coherent) (ht : t ≤ now) (call : CacheCall β) :
    Represents now (c.step now call).2 (plainStep (plain.evict (c.lostKeys now call)) call).2 where
  sound e he := by
    rcases mem_plainStep.1 he with ⟨a, triggers, timeout, gen, rfl, heq⟩ | ⟨hmem, hkept⟩
    · refine ⟨c.stored now e.key a triggers.1 timeout gen, ?_, heq⟩
      exact (lookup_store c now e.key a triggers.1 timeout gen e.key).trans (if_pos rfl)
    · obtain ⟨hmem, hnot⟩ := TriggerCache.mem_evict.1 hmem
      obtain ⟨x, hx, heq⟩ := h.sound e hmem
      have htriggers : e.triggers = x.triggers := by
        rw [heq]
        rfl
      rw [hc.mem_lostKeys hx, not_or, not_and] at hnot
      rw [htriggers] at hkept
      obtain ⟨y, hy⟩ := Option.ne_none_iff_exists'.1 (hnot.2 hkept)
      refine ⟨x, ?_, heq⟩
      rcases hc.lookup_step hy with ⟨a, triggers, timeout, gen, rfl, -⟩ | ⟨hbefore, -⟩
      · exact absurd rfl hkept
      · rw [hy, ← hbefore, hx]
  complete key x hx hlive := by
    refine mem_plainStep.2 ?_
    rcases hc.lookup_step hx with ⟨a, triggers, timeout, gen, rfl, rfl⟩ | ⟨hbefore, hkept⟩
    · exact .inl ⟨a, triggers, timeout, gen, rfl, rfl⟩
    · refine .inr ⟨TriggerCache.mem_evict.2 ⟨h.complete key x hbefore (ht.trans hlive), ?_⟩, hkept⟩
      have hnot : key ∉ c.lostKeys now call := by
        rw [hc.mem_lostKeys hbefore, hx]
        rintro (hlt | ⟨-, hnone⟩)
        · omega
        · cases hnone
      exact hnot

theorem Represents.answer {t now : Int} {c : MemCache β} {plain : TriggerCache β} (h : Represents t c plain)
    (hc : c.Coherent) (ht : t ≤ now) (call : CacheCall β) :
    (c.step now call).1.map (fun hit => (hit.data, hit.triggers)) =
      (plainStep (plain.evict (c.lostKeys now call)) call).1.map (fun e => (e.value, e.triggers)) := by
  cases call with
  | fetch key =>
    have hplain := h.step hc ht (.fetch key)
    have hsame : (c.step now (.fetch key)).2.primary.lookup key = c.primary.lookup key := lookup_fetch c now key key
    rw [plainStep] at hplain ⊢
    rw [MemCache.step]
    cases hx : c.primary.lookup key with
    | none =>
      rw [hplain.fetch_eq_none (hsame.trans hx), MemCache.fetch, hx]
      rfl
    | some x =>
      rw [MemCache.fetch, hx]
      dsimp only
      split
      · rename_i hexpired
        have hnone : (plain.evict (c.lostKeys now (.fetch key))).fetch key = none := by
          cases he : (plain.evict (c.lostKeys now (.fetch key))).fetch key with
          | none => rfl
          | some e =>
            obtain ⟨hmem, rfl⟩ := TriggerCache.mem_of_fetch he
            exact absurd ((hc.mem_lostKeys hx).2 (.inl hexpired)) (TriggerCache.mem_evict.1 hmem).2
        rw [hnone]
        rfl
      · rename_i hlive
        have hmem := hplain.complete key x (hsame.trans hx) (not_lt.1 hlive)
        rw [hplain.fetch_eq_some (hsame.trans hx) hmem]
        rfl
  | _ => rfl

theorem Represents.simulated {t : Int} {c : MemCache β} {plain : TriggerCache β} (h : Represents t c plain)
    (hc : c.Coherent) {calls : List (Int × CacheCall β)} (hclock : (t :: calls.map Prod.fst).Pairwise (· ≤ ·)) :
    c.SimulatedBy plain calls := by
  induction calls generalizing t c plain with
  | nil => trivial
  | cons y calls ih =>
    obtain ⟨now, call⟩ := y
    obtain ⟨hbefore, hbehind⟩ := List.pairwise_cons.1 hclock
    have ht : t ≤ now := hbefore now List.mem_cons_self
    exact ⟨c.lostKeys now call, fun _ hkey => hc.evictable hkey, h.answer hc ht call,
      ih (h.step hc ht call) (hc.step now call) hbehind⟩

/-- **The cache answers as the cache of the handlers does**: in every run whose clock does not go back, every
    answer is that of a cache which drops an object only with its triggers, its key or a clear, and evicts
    others only when they are expired, or when an object is stored and there is no room. -/
theorem run_simulated (limit : Nat) (calls : List (Int × CacheCall β))
    (hclock : (calls.map Prod.fst).Pairwise (· ≤ ·)) : (fresh limit).SimulatedBy [] calls := by
  cases calls with
  | nil => trivial
  | cons y calls =>
    have hempty : Represents y.1 (fresh limit : MemCache β) [] :=
      ⟨fun _ he => absurd he List.not_mem_nil, fun key x hx => by simp [fresh] at hx⟩
    exact hempty.simulated (Coherent.fresh limit)
      (List.pairwise_cons.2 ⟨fun t ht => (List.mem_cons.1 ht).elim (fun heq => heq ▸ le_rfl)
        ((List.pairwise_cons.1 hclock).1 t), hclock⟩)

theorem run_simulated_one : (fresh 2).SimulatedBy [] sampleCalls := run_simulated 2 sampleCalls (by decide)

end MemCache

end Cppcms
