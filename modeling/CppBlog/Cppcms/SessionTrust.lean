import CppBlog.Cppcms.SessionRuns

set_option autoImplicit false

/-! # Sessions among strangers

Requests may bring along any cookie: one of another client, an old one, or one nobody sent. As long as no cookie holds
a signature the server has not sent, what a request opens is what an earlier request saved; and an identifier whose
session was reset or emptied opens nothing any more. -/

namespace Cppcms

section
variable {c : SessionSettings} {S : SessionStorage}

/-- A server among strangers: its storage and its time, and for the record what its requests saved and the cookies
    they sent. -/
structure Exposed (S : SessionStorage) where
  store : S.State
  time : Int
  past : List (SessionData × Int)
  sent : List Bytes

variable (c) in
/-- A request that comes with any cookie. -/
def Exposed.request (w : Exposed S) (cookie : Bytes) (v : Visit) : Exposed S :=
  let r := serveVisit c v cookie w.store
  let s' := r.1.handled v
  let saving := saved c v r.1.opened s'
  { store := r.2.store
    time := v.now
    past := if saves c v r.1.opened s' && (saveData saving.1).toOption.isSome then saving :: w.past else w.past
    sent := r.2.sent ++ w.sent }

/-- A cookie holds no signature that was not sent in one. -/
def Unforged (h : Mac) (sent : List Bytes) (cookie : Bytes) : Prop :=
  cookie.head? = some 67 → ∀ m, B64url.decode cookie.tail = some (h.encrypt m) →
    ∃ y ∈ sent, y.head? = some 67 ∧ B64url.decode y.tail = some (h.encrypt m)

variable (c) in
/-- What requests can lead to. -/
inductive Exposed.Reached : Exposed S → Prop where
  | start (time : Int) : Reached ⟨S.empty, time, [], []⟩
  | request {w : Exposed S} {cookie : Bytes} {v : Visit} (h : Reached w) (hnow : w.time ≤ v.now)
      (hcookie : Unforged c.mac w.sent cookie) : Reached (w.request c cookie v)

/-- Storage and cookies hold what was saved. -/
structure Exposed.Honest (c : SessionSettings) (w : Exposed S) : Prop where
  stored : ∀ {id later u ar}, w.time ≤ later → S.load w.store later id = some (u, ar) →
    ∃ d, (d, u) ∈ w.past ∧ saveData d = .ok ar
  sent : ∀ y ∈ w.sent, y.head? = some 67 →
    ∃ d u ar, (d, u) ∈ w.past ∧ saveData d = .ok ar ∧ y = SessionCookies.save c.mac ar u
  times : ∀ x ∈ w.past, IsTime x.2

theorem Mac.encrypt_injective (h : Mac) : Function.Injective h.encrypt := fun _ _ heq =>
  Option.some.inj ((h.decrypt_eq_some.2 rfl).symm.trans (h.decrypt_eq_some.2 heq))

/-! ## What is opened -/

/-- What is loaded was saved, and is still good. -/
theorem Exposed.Honest.dualLoad {w : Exposed S} (h : w.Honest c) {cookie ar : Bytes} {now u : Int}
    (hnow : w.time ≤ now) (hcookie : Unforged c.mac w.sent cookie) {x : Exchange S}
    (hload : dualLoad c now ⟨cookie, [], w.store⟩ = (some (ar, u), x)) :
    ∃ d, (d, u) ∈ w.past ∧ saveData d = .ok ar ∧ now ≤ u := by
  unfold Cppcms.dualLoad at hload
  split_ifs at hload with hhead
  · unfold SessionCookies.load at hload
    cases hread : SessionCookies.read c.mac now cookie with
    | none => simp [hread] at hload
    | some y =>
        simp only [hread, Prod.mk.injEq, Option.some.injEq] at hload
        obtain ⟨rfl, -⟩ := hload
        obtain ⟨hgood, time, htime, rfl, hdecode⟩ := SessionCookies.read_eq_some hread
        obtain ⟨y, hy, hyhead, hydecode⟩ := hcookie hhead _ hdecode
        obtain ⟨d, u, ar', hpast, har, rfl⟩ := h.sent y hy hyhead
        rw [SessionCookies.save, List.tail_cons, B64url.decode_encode, Option.some.injEq] at hydecode
        obtain ⟨rfl, rfl⟩ :=
          List.append_inj (c.mac.encrypt_injective hydecode) ((length_timeBytes u).trans htime.symm)
        obtain ⟨hlo, hhi⟩ := h.times _ hpast
        rw [readTime_timeBytes hlo hhi] at hgood ⊢
        exact ⟨d, hpast, har, hgood⟩
  · unfold SessionSid.load at hload
    cases hid : SessionSid.validSid cookie with
    | none => simp [hid] at hload
    | some id =>
        simp only [hid] at hload
        cases hstore : S.load w.store now id with
        | none => simp [hstore] at hload
        | some y =>
            simp only [hstore] at hload
            split_ifs at hload with hlate
            · cases hload
            · obtain ⟨rfl, rfl⟩ := Prod.mk.inj (Option.some.inj (Prod.mk.inj hload).1)
              obtain ⟨d, hpast, har⟩ := h.stored hnow hstore
              exact ⟨d, hpast, har, not_lt.1 hlate⟩

/-- A request opens nothing, or what was saved and is still good. -/
theorem Exposed.Honest.opens {w : Exposed S} (h : w.Honest c) {cookie : Bytes} {v : Visit} (hnow : w.time ≤ v.now)
    (hcookie : Unforged c.mac w.sent cookie) {l : Loading} (hl : (serveVisit c v cookie w.store).1 = l) :
    (l.data = .empty ∧ l.opened.timeoutIn = v.stale.toInt) ∨
      ((l.data, l.opened.timeoutIn) ∈ w.past ∧ v.now ≤ l.opened.timeoutIn) := by
  rw [serveVisit] at hl
  dsimp only at hl
  rcases hload : Cppcms.dualLoad c v.now ⟨cookie, [], w.store⟩ with ⟨_ | ⟨ar, u⟩, x⟩
  · rw [interfaceLoad_none hload] at hl
    subst hl
    exact .inl ⟨rfl, rfl⟩
  · obtain ⟨d, hpast, har, hgood⟩ := h.dualLoad hnow hcookie hload
    rw [interfaceLoad_some hload har] at hl
    subst hl
    exact .inr ⟨hpast, hgood⟩

/-! ## What is sent -/

/-- The cookies of sessions among those a response sets. -/
def Exchange.Sends (P : Bytes → Prop) (x : Exchange S) : Prop := ∀ y ∈ x.sent, y.head? = some 67 → P y

namespace Exchange.Sends

variable {P : Bytes → Prop} {x : Exchange S}

theorem set (h : x.Sends P) (age : Int) {data : Bytes}
    (hdata : (urlencode data).head? = some 67 → P (urlencode data)) : (x.setSessionCookie age data).Sends P := by
  intro y hy hhead
  rcases List.mem_append.1 hy with hy | hy
  · exact h y hy hhead
  · obtain rfl := List.mem_singleton.1 hy
    split_ifs at hhead ⊢ with hage
    · cases hhead
    · exact hdata hhead

theorem clear (h : x.Sends P) : x.clearSessionCookie.Sends P := by
  unfold clearSessionCookie
  split_ifs
  · exact h
  · exact h.set _ nofun

theorem sidClear (h : x.Sends P) (now : Int) : (SessionSid.clear now x).Sends P := by
  unfold SessionSid.clear
  split
  · rename_i id _
    exact Sends.clear (x := { x with store := S.remove x.store now id }) h
  · exact h.clear

theorem dualLoad (h : x.Sends P) (now : Int) : (dualLoad c now x).2.Sends P := by
  unfold Cppcms.dualLoad
  split_ifs
  · unfold SessionCookies.load
    split
    · exact h
    · exact h.clear
  · exact h

theorem dualClear (h : x.Sends P) (now : Int) : (dualClear now x).Sends P := by
  unfold Cppcms.dualClear
  split_ifs
  · exact h.clear
  · exact h.sidClear now

theorem dualSave (h : x.Sends P) (v : Visit) {ar : Bytes} {u : Int} (hsaved : P (SessionCookies.save c.mac ar u))
    (new onServer : Bool) (age : Int) :
    ((dualSave c v ar u new onServer x).2.setSessionCookie age (dualSave c v ar u new onServer x).1).Sends P := by
  unfold Cppcms.dualSave
  split_ifs
  · obtain ⟨id, -, hcookie, hvalid, -⟩ := SessionSid.save_spec v ar u new x.cookie x.store
    dsimp only
    rw [hcookie]
    refine Sends.set (x := { x with store := _ }) h age ?_
    rw [urlencode_sid hvalid]
    exact nofun
  · exact (h.sidClear v.now).set age fun _ => (urlencode_save c.mac ar u).symm ▸ hsaved
  · exact h.set age fun _ => (urlencode_save c.mac ar u).symm ▸ hsaved

theorem interfaceSave (h : x.Sends P) (v : Visit) (s s' : Opened)
    (hsaved : ∀ y, Saved c v s s' y → P (SessionCookies.save c.mac y.2 y.1)) :
    (x.answered (interfaceSave c v s s' x)).Sends P := by
  unfold Cppcms.interfaceSave
  dsimp only
  split_ifs with hempty hcookie hspared
  · exact h
  · exact h.dualClear v.now
  · exact h
  · cases har : saveData (withToken c v.csrfToken (isNew s s') s'.data) with
    | error e => exact fun y hy => absurd hy List.not_mem_nil
    | ok ar => exact h.dualSave v (hsaved (_, ar) ⟨by simp [saves, hempty, hspared], rfl, har⟩) _ _ _

end Exchange.Sends

/-- The session cookies of a response hold what its request saved. -/
theorem sends_serveVisit (v : Visit) (cookie : Bytes) (store : S.State) :
    (serveVisit c v cookie store).2.Sends fun y => ∃ z, y = SessionCookies.save c.mac z.2 z.1 ∧
      Saved c v (serveVisit c v cookie store).1.opened ((serveVisit c v cookie store).1.handled v) z := by
  refine Exchange.Sends.interfaceSave ?_ v _ _ fun z hz => ⟨z, rfl, hz⟩
  rw [interfaceLoad_exchange]
  exact Exchange.Sends.dualLoad (x := ⟨cookie, [], store⟩) (fun y hy => absurd hy List.not_mem_nil) v.now

/-! ## Runs -/

theorem Exposed.past_subset (w : Exposed S) (cookie : Bytes) (v : Visit) : w.past ⊆ (w.request c cookie v).past := by
  unfold Exposed.request
  dsimp only
  split_ifs
  · exact List.subset_cons_self _ _
  · exact List.Subset.refl _

/-- What was saved is on record. -/
theorem Exposed.mem_past_of_saved {w : Exposed S} {cookie : Bytes} {v : Visit} {z : Int × Bytes}
    (hz : Saved c v (serveVisit c v cookie w.store).1.opened ((serveVisit c v cookie w.store).1.handled v) z) :
    ∃ d, (d, z.1) ∈ (w.request c cookie v).past ∧ saveData d = .ok z.2 := by
  obtain ⟨hsaves, htime, hdata⟩ := hz
  refine ⟨_, ?_, hdata⟩
  unfold Exposed.request
  dsimp only
  rw [hsaves, hdata, ← htime]
  exact List.mem_cons_self

/-- One request keeps the storage and the cookies honest. -/
theorem Exposed.Honest.request {w : Exposed S} (h : w.Honest c) {cookie : Bytes} {v : Visit} (hnow : w.time ≤ v.now)
    (hcookie : Unforged c.mac w.sent cookie) : (w.request c cookie v).Honest c := by
  constructor
  · intro id later u ar hlater hload
    rcases serveVisit_alters v cookie w.store id later hlater with hsame | ⟨-, hnew⟩
    · obtain ⟨d, hpast, har⟩ := h.stored (hnow.trans hlater) (hsame.symm.trans hload)
      exact ⟨d, w.past_subset cookie v hpast, har⟩
    · exact Exposed.mem_past_of_saved (hnew (u, ar) hload)
  · intro y hy hhead
    rcases List.mem_append.1 hy with hy | hy
    · obtain ⟨z, rfl, hz⟩ := sends_serveVisit v cookie w.store y hy hhead
      obtain ⟨d, hpast, har⟩ := Exposed.mem_past_of_saved hz
      exact ⟨d, z.1, z.2, hpast, har, rfl⟩
    · obtain ⟨d, u, ar, hpast, har, rfl⟩ := h.sent y hy hhead
      exact ⟨d, u, ar, w.past_subset cookie v hpast, har, rfl⟩
  · have hopened : IsTime (serveVisit c v cookie w.store).1.opened.timeoutIn := by
      rcases h.opens hnow hcookie rfl with ⟨-, htime⟩ | ⟨hpast, -⟩
      · rw [htime]
        exact ⟨v.stale.le_toInt, v.stale.toInt_lt⟩
      · exact h.times _ hpast
    intro x hx
    unfold Exposed.request at hx
    dsimp only at hx
    split_ifs at hx
    · rcases List.mem_cons.1 hx with rfl | hx
      · exact isTime_sessionAge v _ hopened _
      · exact h.times x hx
    · exact h.times x hx

theorem Exposed.Reached.honest {w : Exposed S} (h : Exposed.Reached c w) : w.Honest c := by
  induction h with
  | start time =>
      refine ⟨fun _ hload => ?_, fun y hy => absurd hy List.not_mem_nil, fun x hx => absurd hx List.not_mem_nil⟩
      rw [S.load_empty] at hload
      cases hload
  | request h hnow hcookie ih => exact ih.request hnow hcookie

/-- **Nobody makes up a session**: whatever cookies come in, what a request finds was saved by an earlier request, as
    it is, and its time is not over. -/
theorem session_genuine {w : Exposed S} (h : Exposed.Reached c w) {cookie : Bytes} {v : Visit} (hnow : w.time ≤ v.now)
    (hcookie : Unforged c.mac w.sent cookie) {l : Loading} (hl : (serveVisit c v cookie w.store).1 = l)
    (hdata : l.data ≠ .empty) : (l.data, l.opened.timeoutIn) ∈ w.past ∧ v.now ≤ l.opened.timeoutIn :=
  (h.honest.opens hnow hcookie hl).resolve_left fun hnone => hdata hnone.1

/-- A cookie that was sent may come back from anybody. -/
theorem Unforged.of_mem {h : Mac} {sent : List Bytes} {cookie : Bytes} (hmem : cookie ∈ sent) :
    Unforged h sent cookie := fun hhead _ hdecode => ⟨cookie, hmem, hhead, hdecode⟩

/-- A server that has given a session to its first client. -/
def sampleExposed : Exposed .memory :=
  Exposed.request sampleSettings ⟨SessionStorage.memory.empty, 0, [], []⟩ [] (sampleVisit 1000 1 [65])

def sampleData : SessionData := SessionData.empty.put [117] ⟨[65], false⟩

/-- Somebody comes with the cookie of the first client. -/
theorem session_genuine_one : (sampleData, 4600) ∈ sampleExposed.past ∧ (sampleVisit 2000 2 [66]).now ≤ 4600 := by
  have hstands : Stands sampleSettings sampleExposed.store 1000
      (SessionCookies.save sampleSettings.mac [1, 8, 0, 0, 117, 65] 4600) (some (sampleData, 4600)) :=
    ⟨⟨by decide, by decide⟩, _, rfl, .inl rfl⟩
  exact session_genuine (l := ⟨⟨sampleData, 4600, ⟨3600, Expire.renew, false⟩, false⟩, sampleData, none⟩)
    (.request (.start 0) (by decide) fun hhead => by cases hhead) (by decide) (.of_mem (by decide))
    ((serveVisit_stands (sampleVisit 2000 2 [66]) hstands (by decide)).1.trans rfl) (by decide)

/-! ## Identifiers that were given up -/

variable (S) in
/-- Nothing can be loaded under an identifier any more. -/
def Dead (store : S.State) (time : Int) (id : Bytes) : Prop := ∀ later, time ≤ later → S.load store later id = none

variable (c) in
/-- Requests that come with any cookies -/
def Exposed.run (w : Exposed S) (l : List (Bytes × Visit)) : Exposed S := l.foldl (fun w x => w.request c x.1 x.2) w

/-- A request that empties or renews its session gives up its identifier, unless it throws. -/
theorem interfaceSave_retires (v : Visit) {s s' : Opened} {x : Exchange S} {id : Bytes}
    (hid : SessionSid.validSid x.cookie = some id) (hfresh : SessionSid.toHex v.rnd ≠ id)
    (hends : s'.data.isEmpty = true ∨ isNew s s' = true) {later : Int} (hlater : v.now ≤ later) :
    S.load (x.answered (interfaceSave c v s s' x)).store later id = none ∨
      (s'.data.isEmpty = false ∧ (saveData (saved c v s s').1).toOption.isSome = false ∧
        (x.answered (interfaceSave c v s s' x)).store = x.store) := by
  have hhead := head_of_validSid hid
  have hclear : S.load (SessionSid.clear v.now x).store later id = none := by
    unfold SessionSid.clear
    rw [hid]
    dsimp only
    rw [Exchange.store_clearSessionCookie]
    exact S.load_remove x.store id hlater
  unfold interfaceSave
  dsimp only
  split_ifs with hempty hcookie hspared
  · rw [hcookie] at hid
    exact absurd hid (validSid_nil id)
  · refine .inl ?_
    rw [dualClear, if_neg (by rw [hhead]; decide)]
    exact hclear
  · rw [unchanged, hends.resolve_left hempty] at hspared
    simp at hspared
  · have hnew := hends.resolve_left hempty
    cases har : saveData (withToken c v.csrfToken (isNew s s') s'.data) with
    | error e => exact .inr ⟨Bool.eq_false_iff.2 hempty, by rw [saved, har]; rfl, rfl⟩
    | ok ar =>
        refine .inl ?_
        dsimp only [Exchange.answered]
        rw [Exchange.store_setSessionCookie, hnew]
        unfold dualSave
        split_ifs
        · simp only [SessionSid.save, hid, if_true]
          rw [S.load_save_ne _ _ _ hlater hfresh.symm, S.load_remove _ _ hlater]
        · exact hclear

theorem interfaceLoad_dead {store : S.State} {time : Int} {cookie id : Bytes} (h : Dead S store time id)
    (hid : SessionSid.validSid cookie = some id) {v : Visit} (hnow : time ≤ v.now) :
    interfaceLoad c v ⟨cookie, [], store⟩ = (Kept.load c none v, ⟨cookie, [], store⟩) := by
  refine interfaceLoad_none ?_
  rw [dualLoad_sid hid (by simp [h v.now hnow]), h v.now hnow]
  rfl

/-- No request brings it back, not even one that comes with it. -/
theorem Dead.serveVisit {store : S.State} {time : Int} {id : Bytes} (h : Dead S store time id) (cookie : Bytes)
    {v : Visit} (hnow : time ≤ v.now) (hfresh : SessionSid.toHex v.rnd ≠ id) :
    Dead S (serveVisit c v cookie store).2.store v.now id := by
  intro later hlater
  by_cases hid : SessionSid.validSid cookie = some id
  · rw [Cppcms.serveVisit, interfaceLoad_dead h hid hnow]
    dsimp only
    generalize hs' : (Kept.load c none v).handled v = s'
    have hends : s'.data.isEmpty = true ∨ isNew (Kept.load c none v).opened s' = true := by
      cases hdata : s'.data.isEmpty
      · exact .inr (by rw [isNew, hdata]; rfl)
      · exact .inl rfl
    rcases interfaceSave_retires v (x := ⟨cookie, [], store⟩) hid hfresh hends hlater with hnone | ⟨-, -, hsame⟩
    · exact hnone
    · rw [hsame]
      exact h later (hnow.trans hlater)
  · rcases serveVisit_alters v cookie store id later hlater with hsame | ⟨hown | hown, -⟩
    · exact hsame.trans (h later (hnow.trans hlater))
    · exact absurd hown hid
    · exact absurd hown.symm hfresh

theorem Exposed.dead_run {w : Exposed S} {id : Bytes} (h : Dead S w.store w.time id) {l : List (Bytes × Visit)}
    (hclock : (w.time :: l.map fun x => x.2.now).Pairwise (· ≤ ·)) (hfresh : ∀ x ∈ l, SessionSid.toHex x.2.rnd ≠ id) :
    Dead S (w.run c l).store (w.run c l).time id ∧
      ∀ t, w.time ≤ t → (∀ x ∈ l, x.2.now ≤ t) → (w.run c l).time ≤ t := by
  induction l generalizing w with
  | nil => exact ⟨h, fun t ht _ => ht⟩
  | cons x rest ih =>
    obtain ⟨hle, hclock⟩ := List.pairwise_cons.1 hclock
    have hdead : Dead S (w.request c x.1 x.2).store (w.request c x.1 x.2).time id :=
      h.serveVisit x.1 (hle _ List.mem_cons_self) (hfresh x List.mem_cons_self)
    obtain ⟨hrun, htime⟩ := ih hdead hclock fun y hy => hfresh y (List.mem_cons_of_mem _ hy)
    exact ⟨hrun, fun t _ hall => htime t (hall x List.mem_cons_self) fun y hy => hall y (List.mem_cons_of_mem _ hy)⟩

/-- **What was given up stays so**: once a request has emptied or renewed the session under an identifier, that
    identifier opens nothing, whatever requests come in between. -/
theorem identifier_retired {w : Exposed S} {v v' : Visit} {id : Bytes} {s' : Opened} {l : List (Bytes × Visit)}
    (hid : SessionSid.validSid (73 :: id) = some id) (hs' : (serveVisit c v (73 :: id) w.store).1.handled v = s')
    (hends : s'.data.isEmpty = true ∨ (s'.reset = true ∧
      (saveData (saved c v (serveVisit c v (73 :: id) w.store).1.opened s').1).toOption.isSome = true))
    (hclock : (v.now :: l.map (fun x => x.2.now) ++ [v'.now]).Pairwise (· ≤ ·))
    (hfresh : ∀ x ∈ (73 :: id, v) :: l, SessionSid.toHex x.2.rnd ≠ id) :
    (serveVisit c v' (73 :: id) ((w.request c (73 :: id) v).run c l).store).1 = Kept.load c none v' := by
  have hretired : Dead S (w.request c (73 :: id) v).store v.now id := by
    intro later hlater
    have hid' : SessionSid.validSid (interfaceLoad c v ⟨73 :: id, [], w.store⟩).2.cookie = some id := by
      rwa [cookie_interfaceLoad]
    subst hs'
    refine (interfaceSave_retires v hid' (hfresh _ List.mem_cons_self) (hends.imp_right fun hreset => ?_)
      hlater).resolve_right ?_
    · exact Bool.or_eq_true_iff.2 (.inr hreset.1)
    · rintro ⟨hfull, herror, -⟩
      have hreset := hends.resolve_left (Bool.eq_false_iff.1 hfull)
      exact Bool.eq_false_iff.1 herror hreset.2
  obtain ⟨hbefore, -, hlast⟩ := List.pairwise_append.1 hclock
  have hle : ∀ t ∈ v.now :: l.map (fun x => x.2.now), t ≤ v'.now := fun t ht =>
    hlast t ht _ (List.mem_singleton.2 rfl)
  obtain ⟨hdead, htime⟩ := Exposed.dead_run (c := c) (w := w.request c (73 :: id) v) hretired hbefore
    fun x hx => hfresh x (List.mem_cons_of_mem _ hx)
  have hload := interfaceLoad_dead (c := c) hdead hid (htime v'.now (hle _ List.mem_cons_self)
    fun x hx => hle _ (List.mem_cons_of_mem _ (List.mem_map_of_mem hx)))
  rw [serveVisit, hload]

/-- A request that ends its session, as a logout does. -/
def sampleLogout (now : UInt16) (b : UInt8) : Visit :=
  { sampleVisit now b [] with handler := fun s => { s with data := .empty, reset := true } }

/-- A server that keeps the session of its first client. -/
def sampleKeeping : Exposed .memory :=
  Exposed.request sampleSettings ⟨SessionStorage.memory.empty, 0, [], []⟩ []
    (sampleVisit 1000 1 (List.replicate 9 65))

/-- The first client logs out, somebody comes with its identifier, and it comes back. -/
theorem identifier_retired_one :
    (serveVisit sampleSettings (sampleVisit 1300 4 [66]) (73 :: SessionSid.toHex (List.replicate 16 1))
      ((sampleKeeping.request sampleSettings (73 :: SessionSid.toHex (List.replicate 16 1)) (sampleLogout 1100 2)).run
        sampleSettings [(73 :: SessionSid.toHex (List.replicate 16 1), sampleVisit 1200 3 [67])]).store).1 =
      Kept.load sampleSettings none (sampleVisit 1300 4 [66]) := by
  have hstands : Stands sampleSettings sampleKeeping.store 1000 (73 :: SessionSid.toHex (List.replicate 16 1))
      (some (SessionData.empty.put [117] ⟨List.replicate 9 65, false⟩, 4600)) :=
    ⟨⟨by decide, by decide⟩, _, rfl, .inr ⟨_, by decide, fun later hlater =>
      SessionStorage.memory.load_save _ _ _ _ hlater⟩⟩
  have hopened := (serveVisit_stands (sampleLogout 1100 2) hstands (by decide)).1
  exact identifier_retired (by decide) (congrArg (Loading.handled · (sampleLogout 1100 2)) hopened) (.inl rfl)
    (by decide) (by decide)

end

end Cppcms
