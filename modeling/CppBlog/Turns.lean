import CppBlog.Requests
import CppBlog.Effect.Every
import CppBlog.Effect.Threads

set_option autoImplicit false

/-! # One request among others

The workers of the server run their handlers at the same time: between two calls of one handler to the database,
the cache or the file system the others may do anything. The model `turns` is one handler's view of that: outside
of its transactions it finds any tables, and a transaction works on the copy it was given and puts it in place at
the commit. All the handler promises is how the tables it puts in place come from those it worked on, by steps of
`C`; a handler that does not keep to that is broken.

What is proved of every handler alone then holds of all together (`turns_covers`): without any lock for invariants
of `C`, and under the lock of the database, which lets nobody write while another request is in its transaction,
the tables themselves go through steps of `C`. -/

namespace CppBlog

open Effect Store App Relation

/-- What a request decides by itself: whether it is in a transaction, there with the tables it was given and those it
    has by now. `broken` is a request that has put tables in place which do not come from the ones it worked on. -/
inductive Stand where
  | outside
  | inside (start d : Db)
  | broken

namespace Stand

variable (C : Db → Db → Prop)

/-- The tables a statement may find. -/
def Finds : Stand → Db → Prop
  | outside, _ => True
  | inside _ c, d => d = c
  | broken, _ => False

open Classical in
/-- After the tables `d'` are put in place by a request that worked on `d`. -/
noncomputable def left (d d' : Db) : Stand := if ReflTransGen C d d' then outside else broken

/-- After a statement that makes `d'` of the tables `d`. -/
noncomputable def wrote : Stand → Db → Db → Stand
  | outside, d, d' => left C d d'
  | inside start _, _, d' => inside start d'
  | broken, _, _ => broken

/-- In a transaction on the tables `d`. -/
def begun : Stand → Db → Stand
  | broken, _ => broken
  | _, d => inside d d

/-- After a commit. -/
noncomputable def committed : Stand → Stand
  | inside start d => left C start d
  | t => t

/-- After the end of a transaction. -/
def closed : Stand → Stand
  | broken => broken
  | _ => outside

/-- The answers and next states of an operation. -/
def Outcome : {β : Type} → Sig β → Stand → Except Error β → Stand → Prop
  | _, .query f, t, r, t' => t' = t ∧ (r = .error (.sql .failed) ∨ ∃ d, t.Finds d ∧ r = .ok (f d))
  | _, .exec f, t, r, t' =>
      (t' = t ∧ (r = .error (.sql .failed) ∨ ∃ d err, t.Finds d ∧ f d = .error err ∧ r = .error (.sql err))) ∨
        ∃ d d', t.Finds d ∧ f d = .ok d' ∧ r = .ok () ∧ t' = t.wrote C d d'
  | _, .begin, t, r, t' => (t' = t ∧ r = .error (.sql .failed)) ∨ ∃ d, r = .ok () ∧ t' = t.begun d
  | _, .commit, t, r, t' => (t' = t ∧ r = .error (.sql .failed)) ∨ (r = .ok () ∧ t' = t.committed C)
  | _, .rollback, t, r, t' => r = .ok () ∧ t' = t.closed
  | _, .cache f, t, r, t' => t' = t ∧ ∃ c, r = .ok (f c).1
  | _, .files f, t, r, t' => t' = t ∧ ∃ fs, r = .ok (f fs).1
  | _, .own f, t, r, t' => t' = t ∧ ∃ o, r = .ok (f o).1

/-- A request that leaves no transaction open. -/
def Steady (t t' : Stand) : Prop := t = outside → t' = outside

instance : IsPreorder Stand Steady where
  refl _ h := h
  trans _ _ _ h h' ht := h' (h ht)

/-- Not broken. -/
def Sound (t : Stand) : Prop := t ≠ broken

end Stand

/-- The model of a request that promises `C`. -/
def turns (C : Db → Db → Prop) : Model Sig Error Stand := ⟨Stand.Outcome C⟩

variable {C : Db → Db → Prop} {α β : Type}

theorem turns_strict : (turns C).Strict Stand.Sound := by
  intro β o t ht
  obtain rfl : t = .broken := not_not.1 ht
  cases o with
  | query f => exact ⟨_, .broken, ⟨rfl, .inl rfl⟩, ht⟩
  | exec f => exact ⟨_, .broken, .inl ⟨rfl, .inl rfl⟩, ht⟩
  | begin => exact ⟨_, .broken, .inl ⟨rfl, rfl⟩, ht⟩
  | commit => exact ⟨_, .broken, .inl ⟨rfl, rfl⟩, ht⟩
  | rollback => exact ⟨_, .broken, ⟨rfl, rfl⟩, ht⟩
  | cache f => exact ⟨_, .broken, ⟨rfl, [], rfl⟩, ht⟩
  | files f => exact ⟨_, .broken, ⟨rfl, {}, rfl⟩, ht⟩
  | own f => exact ⟨_, .broken, ⟨rfl, {}, rfl⟩, ht⟩

section
variable {R : Stand → Stand → Prop} [IsPreorder Stand R]

/-- An operation that leaves a request where it is. -/
theorem within_of_same {o : Sig β} (ho : ∀ t r t', Stand.Outcome C o t r t' → t' = t) :
    (Prog.perform o : App β).Within (turns C) R := by
  refine .perform fun t r t' h => ?_
  obtain rfl := ho t r t' h
  exact refl (r := R) _

theorem turns_cache (f : Cache → β × Cache) : (App.cache f).Within (turns C) R :=
  within_of_same fun _ _ _ h => h.1

theorem turns_rise (t : String) : (App.rise t).Within (turns C) R := turns_cache _

instance : Undisturbed (turns C) R where
  query _ := within_of_same fun _ _ _ h => h.1
  own _ := within_of_same fun _ _ _ h => h.1
  peek _ := turns_cache _
  put _ _ _ := turns_cache _
  lookUp _ := within_of_same fun _ _ _ h => h.1

theorem OnFiles.turned {p : App α} (hp : OnFiles p) : p.Within (turns C) R := by
  induction hp with
  | ret a => exact .ret a
  | throw err h => exact .throw err
  | op f k _ ih =>
    intro t
    rw [Prog.wp_op]
    rintro r t' ⟨rfl, fs, rfl⟩
    exact ih _ t'

end

/-! ## Inside a transaction -/

/-- The operations of a part of a transaction: they work on its copy of the tables, or touch the cache only. -/
def OnCopy (γ : Type) (o : Sig γ) : Prop :=
  match o with
  | .query _ => True
  | .exec _ => True
  | .cache f => ∃ b, ∀ c, (f c).1 = b
  | _ => False

/-- What a part of a transaction does to its copy when the request is alone it does among others. -/
theorem wp_turns_of_calls {p : App α} (hp : p.Every OnCopy) {Q : α → Db → Prop} {start : Db} {s : St} {d : Db}
    (hs : s.tx = some d) (h : p.wp calls (fun a s' => ∃ d', s'.tx = some d' ∧ Q a d') (fun _ _ => True) s) :
    p.wp (turns C) (fun a t => ∃ d', t = .inside start d' ∧ Q a d') (fun _ => Stand.Sound) (.inside start d) := by
  induction p generalizing s d with
  | ret a =>
      obtain ⟨d', hd', hQ⟩ := h
      obtain rfl : d = d' := Option.some.inj (hs.symm.trans hd')
      exact ⟨d, rfl, hQ⟩
  | throw e => exact Stand.noConfusion
  | op o k ih =>
      have hcurrent : s.current = d := by simp [St.current, hs]
      intro r t' ho
      cases o with
      | query f =>
          obtain ⟨rfl, rfl | ⟨_, rfl, rfl⟩⟩ := ho
          · exact ih _ (hp.2 _) hs (h _ s ⟨rfl, .inl rfl⟩)
          · exact ih _ (hp.2 _) hs (h _ s ⟨rfl, .inr (hcurrent ▸ rfl)⟩)
      | exec f =>
          obtain ⟨rfl, rfl | ⟨_, err, rfl, hf, rfl⟩⟩ | ⟨_, d', rfl, hf, rfl, rfl⟩ := ho
          · exact ih _ (hp.2 _) hs (h _ s (.inl ⟨rfl, rfl⟩))
          · exact ih _ (hp.2 _) hs (h _ s (.inr (.inl ⟨err, hcurrent ▸ hf, rfl, rfl⟩)))
          · refine ih _ (hp.2 _) ?_ (h _ (s.put d') (.inr (.inr ⟨d', hcurrent ▸ hf, rfl, rfl⟩)))
            simp [St.put, hs]
      | cache f =>
          obtain ⟨b, hb⟩ := hp.1
          obtain ⟨rfl, c, rfl⟩ := ho
          refine ih _ (hp.2 _) ?_ (h _ (s.setCache (f s.cache).2) ⟨?_, rfl⟩)
          · exact hs
          · rw [hb, hb]
      | begin => exact hp.1.elim
      | commit => exact hp.1.elim
      | rollback => exact hp.1.elim
      | files f => exact hp.1.elim
      | own f => exact hp.1.elim

/-- A transaction given the tables `start` that by now has `d` puts in place nothing but tables that come from
    `start`. -/
def Fulfils (C : Db → Db → Prop) (p : App α) (start d : Db) : Prop :=
  p.wp (turns C) (fun _ => Stand.Sound) (fun _ => Stand.Sound) (.inside start d)

namespace Fulfils

variable {start d : Db}

/-- A part of the block that is known from the request alone. -/
theorem seq {R : Db → α → Db → Prop} {p : App α} {k : α → App β} (hp : InTx R p) (hops : p.Every OnCopy)
    (hk : ∀ a d', R d a d' → Fulfils C (k a) start d') : Fulfils C (p.bind k) start d := by
  have hone := hp { db := start, tx := some d, cache := [], files := {}, own := {} } d rfl
  refine Prog.wp_seq (wp_turns_of_calls hops rfl (Prog.wp_mono (fun _ _ h => h.2) (fun _ _ _ => trivial) hone))
    ?_ (fun _ _ h => h)
  rintro a _ ⟨d', rfl, hR⟩
  exact hk a d' hR

theorem exec {f : Db → Except SqlError Db} {k : Unit → App β}
    (hk : ∀ d', f d = .ok d' → Fulfils C (k ()) start d') : Fulfils C ((App.exec f).bind k) start d :=
  seq (.exec f) (.perform trivial) fun _ => hk

theorem execTotal {f : Db → Db} {k : Unit → App β} (hk : Fulfils C (k ()) start (f d)) :
    Fulfils C ((App.execTotal f).bind k) start d := seq (.execTotal f) (.perform trivial) fun _ _ h => h ▸ hk

theorem query {f : Db → α} {k : α → App β} (hk : Fulfils C (k (f d)) start d) :
    Fulfils C ((App.query f).bind k) start d := seq (.query f) (.perform trivial) fun _ _ h => h.1 ▸ h.2 ▸ hk

theorem skip {p : App α} {k : α → App β} (hp : p.Within (turns C) Eq) (hk : ∀ a, Fulfils C (k a) start d) :
    Fulfils C (p.bind k) start d :=
  Prog.wp_seq (hp _) (fun a _ h => h ▸ hk a) (fun _ _ h => h ▸ Stand.noConfusion)

/-- A block that ends without a commit. -/
theorem stop {p : App α} (hp : p.Within (turns C) Eq) : Fulfils C p start d :=
  hp.wp (fun _ _ h => h ▸ Stand.noConfusion) (fun _ _ h => h ▸ Stand.noConfusion)

theorem commit {k : Unit → App β} (hd : ReflTransGen C start d) (hk : (k ()).Within (turns C) Eq) :
    Fulfils C (App.commit.bind k) start d := by
  refine (Prog.wp_bind _ _ _ _ _).2 ((Prog.wp_perform _ _ _ _).2 ⟨fun _ t' ho => ?_, fun _ t' ho => ?_⟩)
  · obtain ⟨-, he⟩ | ⟨-, rfl⟩ := ho
    · cases he
    · have hleft : (Stand.inside start d).committed C = .outside := if_pos hd
      rw [hleft]
      exact hk.wp (fun _ _ h => h ▸ Stand.noConfusion) (fun _ _ h => h ▸ Stand.noConfusion)
  · obtain ⟨rfl, -⟩ | ⟨he, -⟩ := ho
    · exact Stand.noConfusion
    · cases he

theorem commitLast (hd : ReflTransGen C start d) : Fulfils C App.commit start d := by
  rw [← Prog.bind_ret App.commit]
  exact commit hd (.ret ())

end Fulfils

/-! ## Handlers among others -/

/-- A handler that keeps its promise and leaves no transaction open, whatever the others do. -/
abbrev Steadfast (C : Db → Db → Prop) (p : App α) : Prop := p.Within (turns C) Stand.Steady

/-- A statement outside of any transaction. -/
theorem Steadfast.exec {f : Db → Except SqlError Db} (h : ∀ d d', f d = .ok d' → C d d') :
    Steadfast C (App.exec f) := by
  refine .perform fun t r t' ho ht => ?_
  subst ht
  obtain ⟨rfl, -⟩ | ⟨d, d', -, hf, -, rfl⟩ := ho
  · rfl
  · exact if_pos (.single (h d d' hf))

theorem Steadfast.execTotal {f : Db → Db} (h : ∀ d, C d (f d)) : Steadfast C (App.execTotal f) :=
  .exec fun d _ hf => by cases hf; exact h d

theorem Steadfast.transaction {body : App α} (h : ∀ d, Fulfils C body d d) : Steadfast C (App.transaction body) := by
  intro t
  by_cases ht : t = .outside
  swap
  · exact Prog.wp_of_forall (fun _ _ h => absurd h ht) (fun _ _ h => absurd h ht) t
  subst ht
  have hend {t : Stand} (hsound : t.Sound) : (Prog.perform .rollback : App Unit).wp (turns C)
      (fun _ t' => Stand.Steady .outside t') (fun _ t' => Stand.Steady .outside t') t := by
    refine (Prog.wp_perform _ _ _ _).2 ⟨fun _ t' ho => ?_, fun _ t' ho => ?_⟩
    · obtain ⟨-, rfl⟩ := ho
      cases t with
      | broken => exact absurd rfl hsound
      | outside => exact fun _ => rfl
      | inside start d => exact fun _ => rfl
    · cases ho.1
  refine (Prog.wp_bind _ _ _ _ _).2 ((Prog.wp_perform _ _ _ _).2 ⟨fun _ t' ho => ?_, fun _ t' ho => ?_⟩)
  · obtain ⟨-, he⟩ | ⟨d, -, rfl⟩ := ho
    · cases he
    · exact (Prog.wp_ensure _ _ _ _ _).2 (Prog.wp_mono (fun _ _ => hend) (fun _ _ => hend) (h d))
  · obtain ⟨rfl, -⟩ | ⟨_, he, -⟩ := ho
    · exact fun _ => rfl
    · cases he

/-! ## The server runs what the model covers -/

/-- The operations that ask for the lock of the database. -/
def Sig.locks {β : Type} : Sig β → Bool
  | .exec _ => true
  | .begin => true
  | .commit => true
  | _ => false

/-- Nobody writes, nor begins or ends a transaction, while another request is in its own. -/
def Sig.awaits {β : Type} (o : Sig β) (others : List Local) : Bool := o.locks && others.any (fun l => l.tx.isSome)

theorem tx_eq_none_of_awaits {β : Type} {o : Sig β} {others : List Local} (h : o.awaits others = false)
    (ho : o.locks = true) {l : Local} (hl : l ∈ others) : l.tx = none := by
  rw [Sig.awaits, ho, Bool.true_and] at h
  simpa using List.any_eq_false.1 h l hl

/-- A request is at a turn; `K d start` says which tables a transaction may have been given when those of the
    server are `d`. -/
def Local.At (K : Db → Db → Prop) (s : Shared) (l : Local) (t : Stand) : Prop :=
  match l.tx with
  | none => t = .outside
  | some d => ∃ start, t = .inside start d ∧ K s.db start

namespace Local.At

variable {K : Db → Db → Prop} {s s' : Shared} {l l' : Local} {t : Stand}

theorem of_none (h : l.At K s t) (hl : l.tx = none) : t = .outside := by
  unfold Local.At at h
  rwa [hl] at h

theorem of_some {d : Db} (h : l.At K s t) (hl : l.tx = some d) : ∃ start, t = .inside start d ∧ K s.db start := by
  unfold Local.At at h
  rwa [hl] at h

theorem outside (hl : l.tx = none) : l.At K s .outside := by
  unfold Local.At
  rw [hl]

theorem inside {start d : Db} (hl : l.tx = some d) (hK : K s.db start) : l.At K s (.inside start d) := by
  unfold Local.At
  rw [hl]
  exact ⟨start, rfl, hK⟩

theorem tx_eq_none (h : l.At K s .outside) : l.tx = none := by
  cases hl : l.tx with
  | none => rfl
  | some d =>
      obtain ⟨start, ht, -⟩ := h.of_some hl
      cases ht

theorem finds (h : l.At K s t) : t.Finds (l.current s) := by
  cases hl : l.tx with
  | none =>
      obtain rfl := h.of_none hl
      trivial
  | some d =>
      obtain ⟨start, rfl, -⟩ := h.of_some hl
      simp [Local.current, hl, Stand.Finds]

/-- A request stays where it is when the tables of the server do, or when its transaction was given tables that are
    still possible. -/
theorem congr (h : l.At K s t) (htx : l'.tx = l.tx)
    (hK : l.tx ≠ none → ∀ start, K s.db start → K s'.db start) : l'.At K s' t := by
  cases hl : l.tx with
  | none =>
      obtain rfl := h.of_none hl
      exact outside (htx.trans hl)
  | some d =>
      obtain ⟨start, rfl, hstart⟩ := h.of_some hl
      exact inside (htx.trans hl) (hK (by simp [hl]) start hstart)

end Local.At

/-- What steps of `C` keep, while requests wait as `waits` says: `I` of the tables, and `K` between the tables and
    those a transaction was given. -/
structure Tolerates (C : Db → Db → Prop) (waits : ∀ {β : Type}, Sig β → List Local → Bool) (I : Db → Prop)
    (K : Db → Db → Prop) : Prop where
  begins : ∀ d, I d → K d d
  writes : ∀ {β : Type} (o : Sig β) (others : List Local), waits o others = false → o.locks = true →
    ∀ d start d', I d → K d start → ReflTransGen C start d' →
      I d' ∧ ∀ x ∈ others, x.tx ≠ none → ∀ start', K d start' → K d' start'

/-- What `handle` does in one request is what the model allows of it, and the other requests are not disturbed. -/
theorem turns_covers {waits : ∀ {β : Type}, Sig β → List Local → Bool} {I : Db → Prop} {K : Db → Db → Prop}
    (h : Tolerates C waits I K) :
    (turns C).Covers Stand.Sound (fun s : Shared => I s.db) (Local.At K) handle waits := by
  intro β o s l t others hwaits hs hat _
  have hfault : l.fault.2.At K s t := hat.congr rfl fun _ _ h => h
  have hsame : ∀ x ∈ others, ∀ u, Local.At K s x u → Local.At K s x u := fun _ _ _ h => h
  -- the tables `d'`, made of tables `start` this request could rely on, are put in place
  have hput {start d' : Db} (hlocks : o.locks = true) (hK : K s.db start) (hC : ReflTransGen C start d') :
      I d' ∧ ∀ x ∈ others, ∀ u, x.At K s u → x.At K { s with db := d' } u := by
    obtain ⟨hd', hothers⟩ := h.writes o others hwaits hlocks s.db start d' hs hK hC
    exact ⟨hd', fun x hx u hu => hu.congr rfl (hothers x hx)⟩
  cases o with
  | query f =>
      refine .inl ?_
      by_cases hf : l.fault.1 = true
      · simp only [handle, hf, if_true]
        exact ⟨⟨t, ⟨rfl, .inl rfl⟩, hfault⟩, hs, hsame⟩
      · simp only [handle, hf]
        exact ⟨⟨t, ⟨rfl, .inr ⟨_, hat.finds, rfl⟩⟩, hfault⟩, hs, hsame⟩
  | exec f =>
      by_cases hf : l.fault.1 = true
      · simp only [handle, hf, if_true]
        exact .inl ⟨⟨t, .inl ⟨rfl, .inl rfl⟩, hfault⟩, hs, hsame⟩
      · cases hres : f (l.current s) with
        | error err =>
            simp only [handle, hf, hres]
            exact .inl ⟨⟨t, .inl ⟨rfl, .inr ⟨_, err, hat.finds, hres, rfl⟩⟩, hfault⟩, hs, hsame⟩
        | ok d' =>
            have hfinds := hat.finds
            simp only [handle, hf, hres]
            cases hl : l.tx with
            | none =>
                obtain rfl := hat.of_none hl
                have hcurrent : l.current s = s.db := by simp [Local.current, hl]
                have hstored : put s l.fault.2 d' = ({ s with db := d' }, l.fault.2) := by
                  simp [put, Local.fault, hl]
                rw [hstored]
                rw [hcurrent] at hres
                by_cases hC : ReflTransGen C s.db d'
                · obtain ⟨hd', hothers⟩ := hput rfl (h.begins _ hs) hC
                  have ho : Stand.Outcome C (.exec f) .outside (.ok ()) .outside :=
                    .inr ⟨_, d', trivial, hres, rfl, (if_pos hC).symm⟩
                  exact .inl ⟨⟨.outside, ho, .outside hl⟩, hd', hothers⟩
                · exact .inr ⟨.broken, .inr ⟨_, d', trivial, hres, rfl, (if_neg hC).symm⟩, fun h => h rfl⟩
            | some d =>
                obtain ⟨start, rfl, hK⟩ := hat.of_some hl
                have hstored : put s l.fault.2 d' = (s, { l.fault.2 with tx := some d' }) := by
                  simp [put, Local.fault, hl]
                rw [hstored]
                exact .inl ⟨⟨.inside start d', .inr ⟨_, d', hfinds, hres, rfl, rfl⟩, .inside rfl hK⟩, hs, hsame⟩
  | begin =>
      refine .inl ?_
      by_cases hf : l.fault.1 = true
      · simp only [handle, hf, if_true]
        exact ⟨⟨t, .inl ⟨rfl, rfl⟩, hfault⟩, hs, hsame⟩
      · simp only [handle, hf]
        have hbegun : t.begun s.db = .inside s.db s.db := by
          cases t with
          | broken => exact hat.finds.elim
          | outside => rfl
          | inside start d => rfl
        exact ⟨⟨_, .inr ⟨s.db, rfl, rfl⟩, hbegun ▸ .inside rfl (h.begins _ hs)⟩, hs, hsame⟩
  | commit =>
      by_cases hf : l.fault.1 = true
      · simp only [handle, hf, if_true]
        exact .inl ⟨⟨t, .inl ⟨rfl, rfl⟩, hfault⟩, hs, hsame⟩
      · simp only [handle, hf]
        cases hl : l.tx with
        | none =>
            obtain rfl := hat.of_none hl
            have hcurrent : l.current s = s.db := by simp [Local.current, hl]
            rw [hcurrent]
            exact .inl ⟨⟨.outside, .inr ⟨rfl, rfl⟩, .outside rfl⟩, hs, hsame⟩
        | some d =>
            obtain ⟨start, rfl, hK⟩ := hat.of_some hl
            have hcurrent : l.current s = d := by simp [Local.current, hl]
            rw [hcurrent]
            by_cases hC : ReflTransGen C start d
            · obtain ⟨hd, hothers⟩ := hput rfl hK hC
              exact .inl ⟨⟨.outside, .inr ⟨rfl, (if_pos hC).symm⟩, .outside rfl⟩, hd, hothers⟩
            · exact .inr ⟨.broken, .inr ⟨rfl, (if_neg hC).symm⟩, fun h => h rfl⟩
  | rollback =>
      refine .inl ⟨⟨.outside, ⟨rfl, ?_⟩, .outside rfl⟩, hs, hsame⟩
      cases t with
      | broken => exact hat.finds.elim
      | outside => rfl
      | inside start d => rfl
  | cache f =>
      refine .inl ⟨⟨t, ⟨rfl, _, rfl⟩, hat.congr rfl fun _ _ h => h⟩, hs, ?_⟩
      exact fun x _ u hu => hu.congr rfl fun _ _ h => h
  | files f =>
      refine .inl ⟨⟨t, ⟨rfl, _, rfl⟩, hat.congr rfl fun _ _ h => h⟩, hs, ?_⟩
      exact fun x _ u hu => hu.congr rfl fun _ _ h => h
  | own f => exact .inl ⟨⟨t, ⟨rfl, _, rfl⟩, hat.congr rfl fun _ _ h => h⟩, hs, hsame⟩

end CppBlog
