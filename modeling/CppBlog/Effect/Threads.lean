import CppBlog.Effect.Logic

set_option autoImplicit false

/-! # Programs stepped in turn

A pool of programs that share a state of type `S`, each with a state of type `L` of its own; a schedule names
the program that performs its next operation. An operation may have to wait for the other programs.

A model of one program says what it may rely on while the others come in between: `rel s l t` relates the shared
state `s` and the program's own state `l` to the state `t` of the model. A program that does what the others do not
expect of it is in a state of the model that is not `good`, and stays there. Where every program of the pool ends
well under such a model, every schedule keeps the invariant of the shared state. -/

namespace Effect

variable {Sig : Type → Type 1} {ε α β S L T : Type}

/-- Programs with the state they share. -/
structure Pool (Sig : Type → Type 1) (ε α S L : Type) where
  shared : S
  threads : List (L × Prog Sig ε α)

namespace Pool

variable (handle : ∀ {β : Type}, Sig β → S × L → Except ε β × (S × L))
  (waits : ∀ {β : Type}, Sig β → List L → Bool)

/-- The states of the programs other than one. -/
def others (p : Pool Sig ε α S L) (i : Nat) : List L := (p.threads.eraseIdx i).map Prod.fst

/-- The next operation of one program, unless it is at its end or has to wait for the others. -/
def step (p : Pool Sig ε α S L) (i : Nat) : Pool Sig ε α S L :=
  match p.threads[i]? with
  | some (l, .op o k) =>
      if waits o (p.others i) then p
      else
        let r := handle o (p.shared, l)
        { shared := r.2.1, threads := p.threads.set i (r.2.2, k r.1) }
  | _ => p

/-- The operations a schedule asks for, one after the other. -/
def run (p : Pool Sig ε α S L) (schedule : List Nat) : Pool Sig ε α S L := schedule.foldl (step handle waits) p

end Pool

/-- A model that stays out of the good states once it has left them. -/
def Model.Strict (M : Model Sig ε T) (good : T → Prop) : Prop :=
  ∀ {β : Type} (o : Sig β) (t : T), ¬good t → ∃ r t', M.outcome o t r t' ∧ ¬good t'

/-- A program that ends in good states started in one. -/
theorem Prog.good_of_wp {M : Model Sig ε T} {good : T → Prop} (hM : M.Strict good) {Q : α → T → Prop}
    {E : ε → T → Prop} (hQ : ∀ a t, Q a t → good t) (hE : ∀ e t, E e t → good t) {p : Prog Sig ε α} {t : T}
    (h : p.wp M Q E t) : good t := by
  induction p generalizing t with
  | ret a => exact hQ a t h
  | throw e => exact hE e t h
  | op o k ih =>
    by_contra hbad
    obtain ⟨r, t', ho, hbad'⟩ := hM o t hbad
    exact hbad' (ih r (h r t' ho))

/-- The model covers an operation of one program among others: it allows the answer and the state the program is in
    behind it, and the others stay where they are; or it allows the answer with a state that is not good. -/
def Model.Covers (M : Model Sig ε T) (good : T → Prop) (I : S → Prop) (rel : S → L → T → Prop)
    (handle : ∀ {β : Type}, Sig β → S × L → Except ε β × (S × L))
    (waits : ∀ {β : Type}, Sig β → List L → Bool) : Prop :=
  ∀ {β : Type} (o : Sig β) (s : S) (l : L) (t : T) (others : List L),
    waits o others = false → I s → rel s l t → good t →
      ((∃ t', M.outcome o t (handle o (s, l)).1 t' ∧ rel (handle o (s, l)).2.1 (handle o (s, l)).2.2 t') ∧
        I (handle o (s, l)).2.1 ∧ ∀ x ∈ others, ∀ u, rel s x u → rel (handle o (s, l)).2.1 x u) ∨
      ∃ t', M.outcome o t (handle o (s, l)).1 t' ∧ ¬good t'

namespace Pool

variable {handle : ∀ {β : Type}, Sig β → S × L → Except ε β × (S × L)}
  {waits : ∀ {β : Type}, Sig β → List L → Bool} {M : Model Sig ε T} {good last : T → Prop} {I : S → Prop}
  {rel : S → L → T → Prop}

/-- The invariant holds, and every program will end in one of the states `last`. -/
structure Safe (M : Model Sig ε T) (last : T → Prop) (I : S → Prop) (rel : S → L → T → Prop)
    (p : Pool Sig ε α S L) : Prop where
  shared : I p.shared
  threads : ∀ x ∈ p.threads, ∃ t, rel p.shared x.1 t ∧ x.2.wp M (fun _ => last) (fun _ => last) t

/-- After one program is replaced each is the new one or among the others. -/
theorem mem_set_or {γ : Type*} {l : List γ} {i : Nat} {a b : γ} (h : a ∈ l.set i b) :
    a = b ∨ a ∈ l.eraseIdx i := by
  obtain ⟨j, hj, rfl⟩ := List.mem_iff_getElem.1 h
  rw [List.length_set] at hj
  by_cases hij : i = j
  · subst hij
    exact .inl (List.getElem_set_self _)
  · refine .inr (List.mem_eraseIdx_iff_getElem.2 ⟨j, hj, Ne.symm hij, ?_⟩)
    exact (List.getElem_set_ne hij _).symm

theorem Safe.step (hM : M.Strict good) (hcovers : M.Covers good I rel handle waits)
    (hlast : ∀ t, last t → good t) {p : Pool Sig ε α S L} (h : p.Safe M last I rel) (i : Nat) :
    (p.step handle waits i).Safe M last I rel := by
  have hgood {t : T} {q : Prog Sig ε α} (hq : q.wp M (fun _ => last) (fun _ => last) t) : good t :=
    Prog.good_of_wp hM (fun _ => hlast) (fun _ => hlast) hq
  unfold Pool.step
  split
  · rename_i l β o k hi
    split
    · exact h
    · rename_i hwaits
      obtain ⟨t, hrel, hwp⟩ := h.threads _ (List.mem_of_getElem? hi)
      have hwaits : waits o (p.others i) = false := Bool.eq_false_iff.2 hwaits
      rcases hcovers o p.shared l t _ hwaits h.shared hrel (hgood hwp) with
        ⟨⟨t', ho, hrel'⟩, hshared, hothers⟩ | ⟨t', ho, hbad⟩
      · refine ⟨hshared, fun x hx => ?_⟩
        rcases mem_set_or hx with rfl | hx
        · exact ⟨t', hrel', hwp _ _ ho⟩
        · obtain ⟨u, hu, hxwp⟩ := h.threads x (List.mem_of_mem_eraseIdx hx)
          exact ⟨u, hothers _ (List.mem_map_of_mem hx) u hu, hxwp⟩
      · exact absurd (hgood (hwp _ t' ho)) hbad
  · exact h

/-- **Every schedule keeps the invariant** of programs that end well under a model that covers them. -/
theorem Safe.run (hM : M.Strict good) (hcovers : M.Covers good I rel handle waits)
    (hlast : ∀ t, last t → good t) {p : Pool Sig ε α S L} (h : p.Safe M last I rel) (schedule : List Nat) :
    (p.run handle waits schedule).Safe M last I rel := by
  induction schedule generalizing p with
  | nil => exact h
  | cons i schedule ih => exact ih (h.step hM hcovers hlast i)

end Pool

end Effect
