import CppBlog.Cppcms.SessionInterface
import CppBlog.Effect.Machine
import Mathlib

set_option autoImplicit false

/-! # Sessions that are kept

A server whose clients come back with the cookie they were given opens for each of them what `Kept` says, however the
requests of the clients follow each other: cookies and storage refine one table of sessions by client. Identifiers are
new as long as the random bytes are. -/

namespace Cppcms

section
variable {c : SessionSettings} {S : SessionStorage}

/-! ## How it is kept -/

/-- A `time_t` -/
def IsTime (t : Int) : Prop := -2 ^ 63 ≤ t ∧ t < 2 ^ 63

variable (c) in
/-- From `time` on a cookie and the storage stand for what is to be kept of a client. -/
def Stands (store : S.State) (time : Int) (cookie : Bytes) : Kept → Prop
  | none => cookie = [] ∨
      (∃ ar u, cookie = SessionCookies.save c.mac ar u ∧ IsTime u ∧ u < time) ∨
      ∃ id, SessionSid.validSid cookie = some id ∧ ∀ later, time ≤ later → S.load store later id = none
  | some (d, u) => IsTime u ∧ ∃ ar, saveData d = .ok ar ∧
      (cookie = SessionCookies.save c.mac ar u ∨
        ∃ id, SessionSid.validSid cookie = some id ∧
          ∀ later, time ≤ later → S.load store later id = if later ≤ u then some (u, ar) else none)

theorem head_of_validSid {cookie id : Bytes} (h : SessionSid.validSid cookie = some id) : cookie.head? = some 73 := by
  rw [SessionSid.validSid_cons h]
  rfl

theorem validSid_of_head {cookie : Bytes} (h : cookie.head? ≠ some 73) : SessionSid.validSid cookie = none :=
  if_neg fun hvalid => h hvalid.2.1

theorem validSid_save (h : Mac) (ar : Bytes) (t : Int) : SessionSid.validSid (SessionCookies.save h ar t) = none :=
  validSid_of_head (by simp [SessionCookies.save])

/-- Only the session of the cookie has to be as it was. -/
theorem Stands.frame {store store' : S.State} {time now : Int} {cookie : Bytes} {k : Kept}
    (h : Stands c store time cookie k) (hnow : time ≤ now)
    (hsame : ∀ id, SessionSid.validSid cookie = some id → ∀ later, now ≤ later →
      S.load store' later id = S.load store later id) : Stands c store' now cookie k := by
  cases k with
  | none =>
      refine h.imp_right (Or.imp ?_ ?_)
      · rintro ⟨ar, u, hcookie, hu, hlate⟩
        exact ⟨ar, u, hcookie, hu, hlate.trans_le hnow⟩
      rintro ⟨id, hid, hload⟩
      exact ⟨id, hid, fun later hlater => (hsame id hid later hlater).trans (hload later (hnow.trans hlater))⟩
  | some x =>
      obtain ⟨d, u⟩ := x
      obtain ⟨hfits, ar, har, hcookie⟩ := h
      refine ⟨hfits, ar, har, hcookie.imp_right ?_⟩
      rintro ⟨id, hid, hload⟩
      exact ⟨id, hid, fun later hlater => (hsame id hid later hlater).trans (hload later (hnow.trans hlater))⟩

@[simp] theorem Exchange.kept_setSessionCookie (x : Exchange S) (age : Int) (data : Bytes) :
    (x.setSessionCookie age data).kept = if age < 0 then [] else urlencode data := by
  simp [Exchange.setSessionCookie, Exchange.kept]

theorem Kept.still_still (k : Kept) (now : Int) : (k.still now).still now = k.still now := by
  cases k <;> simp [Kept.still]

theorem interfaceLoad_none {v : Visit} {x x' : Exchange S} (h : dualLoad c v.now x = (none, x')) :
    interfaceLoad c v x = (Kept.load c none v, x') := by
  simp only [interfaceLoad, h]
  rfl

theorem interfaceLoad_some {v : Visit} {u : Int} {x x' : Exchange S} {d : SessionData} {ar : Bytes}
    (h : dualLoad c v.now x = (some (ar, u), x')) (har : saveData d = .ok ar) :
    interfaceLoad c v x = (Kept.load c (some (d, u)) v, x') := by
  simp only [interfaceLoad, h, loadData_saveData har]
  rfl

/-- A session under an identifier is what the storage has of it. -/
theorem dualLoad_sid {now : Int} {cookie id : Bytes} {store : S.State} (hid : SessionSid.validSid cookie = some id)
    (hload : ∀ x, S.load store now id = some x → now ≤ x.1) : dualLoad c now ⟨cookie, [], store⟩ =
      ((S.load store now id).map fun x => (x.2, x.1), ⟨cookie, [], store⟩) := by
  have hhead : cookie.head? ≠ some 67 := by
    rw [head_of_validSid hid]
    decide
  rw [dualLoad, if_neg hhead]
  simp only [SessionSid.load, hid]
  cases hx : S.load store now id with
  | none => rfl
  | some x =>
      dsimp only
      rw [if_neg (not_lt.2 (hload x hx))]
      rfl

/-- A cookie of the server is read until its time is over, and then taken back. -/
theorem dualLoad_save {now u : Int} (ar : Bytes) (store : S.State) (hu : IsTime u) :
    dualLoad c now ⟨SessionCookies.save c.mac ar u, [], store⟩ =
      if u < now then (none, ⟨SessionCookies.save c.mac ar u, [[]], store⟩)
      else (some (ar, u), ⟨SessionCookies.save c.mac ar u, [], store⟩) := by
  rw [dualLoad, if_pos (by simp [SessionCookies.save]), SessionCookies.load,
    SessionCookies.read_save c.mac now ar hu.1 hu.2]
  split_ifs with hlate
  · simp [Exchange.clearSessionCookie, SessionCookies.save, Exchange.setSessionCookie]
  · rfl

/-- What is over by now stands for nothing. -/
theorem Stands.still {store : S.State} {time now : Int} {cookie : Bytes} {k : Kept} (h : Stands c store time cookie k)
    (hnow : time ≤ now) : Stands c store now cookie (k.still now) := by
  have hframe : Stands c store now cookie k := h.frame hnow fun _ _ _ _ => rfl
  cases k with
  | none => exact hframe
  | some x =>
      obtain ⟨d, u⟩ := x
      by_cases hu : now ≤ u
      · have hstill : Kept.still (some (d, u)) now = some (d, u) := by simp [Kept.still, hu]
        rwa [hstill]
      · have hstill : Kept.still (some (d, u)) now = none := by simp [Kept.still, not_le.1 hu]
        rw [hstill]
        obtain ⟨hfits, ar, -, hcookie⟩ := hframe
        rcases hcookie with hcookie | ⟨id, hid, hload⟩
        · exact .inr (.inl ⟨ar, u, hcookie, hfits, not_le.1 hu⟩)
        · exact .inr (.inr ⟨id, hid, fun later hlater =>
            (hload later hlater).trans (if_neg fun hgood => hu (hlater.trans hgood))⟩)

/-- At most a cookie was taken back that stands for nothing. -/
def Exchange.Before (x : Exchange S) (k : Kept) : Prop := x.sent = [] ∨ (x.sent = [[]] ∧ k = none)

/-- A session is opened as it was kept. -/
theorem interfaceLoad_stands {store : S.State} {v : Visit} {cookie : Bytes} {k : Kept}
    (h : Stands c store v.now cookie k) (hk : k.still v.now = k) :
    ∃ sent, interfaceLoad c v ⟨cookie, [], store⟩ = (k.load c v, ⟨cookie, sent, store⟩) ∧
      (Exchange.mk cookie sent store).Before k := by
  cases k with
  | none =>
      rcases h with rfl | ⟨ar, u, rfl, hu, hlate⟩ | ⟨id, hid, hload⟩
      · exact ⟨[], interfaceLoad_none rfl, .inl rfl⟩
      · refine ⟨[[]], interfaceLoad_none ?_, .inr ⟨rfl, rfl⟩⟩
        rw [dualLoad_save ar store hu, if_pos hlate]
      · refine ⟨[], interfaceLoad_none ?_, .inl rfl⟩
        rw [dualLoad_sid hid (by simp [hload v.now le_rfl]), hload v.now le_rfl]
        rfl
  | some x =>
      obtain ⟨d, u⟩ := x
      obtain ⟨hfits, ar, har, hcookie⟩ := h
      have hu : v.now ≤ u := of_decide_eq_true (Option.filter_eq_some_iff.1 hk).2
      refine ⟨[], interfaceLoad_some ?_ har, .inl rfl⟩
      rcases hcookie with rfl | ⟨id, hid, hload⟩
      · rw [dualLoad_save ar store hfits, if_neg (not_lt.2 hu)]
      · have hread : S.load store v.now id = some (u, ar) := (hload v.now le_rfl).trans (if_pos hu)
        rw [dualLoad_sid hid (fun x hx => by cases hread.symm.trans hx; exact hu), hread]
        rfl

/-! ## What a request leaves -/

/-- What `session_sid::save` puts into the storage is under the identifier it sends. -/
theorem SessionSid.save_spec (v : Visit) (data : Bytes) (u : Int) (new : Bool) (cookie : Bytes) (store : S.State) :
    ∃ id, Own v cookie id ∧ (SessionSid.save v.rnd v.now data u new cookie store).1 = 73 :: id ∧
      SessionSid.validSid (73 :: id) = some id ∧
      ∀ later, v.now ≤ later → S.load (SessionSid.save v.rnd v.now data u new cookie store).2 later id =
        if later ≤ u then some (u, data) else none := by
  have hfresh := SessionSid.validSid_toHex v.length_rnd
  unfold SessionSid.save
  cases hcookie : SessionSid.validSid cookie with
  | none => exact ⟨_, .inr rfl, rfl, hfresh, fun _ hlater => S.load_save _ _ _ _ hlater⟩
  | some id =>
      cases new
      · refine ⟨id, .inl hcookie, rfl, ?_, fun _ hlater => S.load_save _ _ _ _ hlater⟩
        rw [← SessionSid.validSid_cons hcookie, hcookie]
      · exact ⟨_, .inr rfl, rfl, hfresh, fun _ hlater => S.load_save _ _ _ _ hlater⟩

theorem unreserved_of_lowXDigit {b : UInt8} (h : SessionSid.lowXDigit b = true) : unreserved b = true := by
  have hall : ∀ n : Fin 256, SessionSid.lowXDigit (UInt8.ofNat n.1) = true → unreserved (UInt8.ofNat n.1) = true := by
    decide +kernel
  exact by simpa using hall ⟨b.toNat, b.toNat_lt⟩ (by simpa using h)

/-- The cookies of the server are sent as they are. -/
theorem urlencode_sid {cookie id : Bytes} (h : SessionSid.validSid cookie = some id) : urlencode cookie = cookie := by
  refine urlencode_of_unreserved ?_
  obtain rfl := SessionSid.validSid_cons h
  unfold SessionSid.validSid at h
  split_ifs at h with hvalid
  exact List.forall_mem_cons.2 ⟨by decide, fun b hb => unreserved_of_lowXDigit (List.all_eq_true.1 hvalid.2.2 b hb)⟩

theorem urlencode_save (h : Mac) (ar : Bytes) (u : Int) :
    urlencode (SessionCookies.save h ar u) = SessionCookies.save h ar u :=
  urlencode_of_unreserved (List.forall_mem_cons.2 ⟨by decide, unreserved_encode _⟩)

theorem Exchange.Before.kept {x : Exchange S} {k : Kept} (h : x.Before k) :
    x.kept = x.cookie ∨ (x.kept = [] ∧ k = none) := by
  rcases h with hsent | ⟨hsent, hk⟩
  · exact .inl (by rw [Exchange.kept, hsent]; rfl)
  · exact .inr ⟨by rw [Exchange.kept, hsent]; rfl, hk⟩

theorem Exchange.Before.kept_clearSessionCookie {x : Exchange S} {k : Kept} (h : x.Before k) :
    x.clearSessionCookie.kept = [] := by
  unfold Exchange.clearSessionCookie
  split_ifs with hcookie
  · exact h.kept.elim (fun hkept => hkept.trans hcookie) And.left
  · simp

/-- Clearing a session leaves the client without a cookie. -/
theorem kept_dualClear (now : Int) {x : Exchange S} {k : Kept} (h : x.Before k) : (dualClear now x).kept = [] := by
  unfold dualClear SessionSid.clear
  split_ifs
  · exact h.kept_clearSessionCookie
  · cases SessionSid.validSid x.cookie with
    | none => exact h.kept_clearSessionCookie
    | some id =>
        exact Exchange.Before.kept_clearSessionCookie (x := { x with store := S.remove x.store now id }) (k := k) h

/-- What a request leaves behind of its session. -/
structure Settled (c : SessionSettings) (v : Visit) (x x' : Exchange S) (k : Kept) : Prop where
  stands : Stands c x'.store v.now x'.kept k
  own : ∀ id, SessionSid.validSid x'.kept = some id → Own v x.cookie id

/-- The cookie of a saved session and the storage stand for what was saved. -/
theorem dualSave_spec (v : Visit) {d : SessionData} {ar : Bytes} (har : saveData d = .ok ar) {u : Int} (hu : IsTime u)
    (new onServer : Bool) (x : Exchange S) {cookie : Bytes} {x' : Exchange S}
    (h : dualSave c v ar u new onServer x = (cookie, x')) : Stands c x'.store v.now cookie (some (d, u)) ∧
      urlencode cookie = cookie ∧ ∀ id, SessionSid.validSid cookie = some id → Own v x.cookie id := by
  unfold dualSave at h
  split_ifs at h with hlarge hsid
  · obtain ⟨id, hown, hcookie, hvalid, hload⟩ := SessionSid.save_spec v ar u new x.cookie x.store
    obtain ⟨rfl, rfl⟩ := Prod.mk.inj h
    rw [hcookie]
    exact ⟨⟨hu, ar, har, .inr ⟨id, hvalid, hload⟩⟩, urlencode_sid hvalid,
      fun id' hid' => Option.some.inj (hvalid.symm.trans hid') ▸ hown⟩
  · obtain ⟨rfl, rfl⟩ := Prod.mk.inj h
    exact ⟨⟨hu, ar, har, .inl rfl⟩, urlencode_save c.mac ar u,
      fun id hid => by rw [validSid_save] at hid; cases hid⟩
  · obtain ⟨rfl, rfl⟩ := Prod.mk.inj h
    exact ⟨⟨hu, ar, har, .inl rfl⟩, urlencode_save c.mac ar u,
      fun id hid => by rw [validSid_save] at hid; cases hid⟩

theorem validSid_nil (id : Bytes) : SessionSid.validSid [] ≠ some id := by
  rw [validSid_of_head (by simp)]
  exact nofun

/-- Without a cookie nothing is kept. -/
theorem Settled.of_gone {v : Visit} {x x' : Exchange S} (hkept : x'.kept = []) : Settled c v x x' none where
  stands := .inl hkept
  own id hid := absurd (hkept ▸ hid) (validSid_nil id)

/-- Nothing was done. -/
theorem Settled.refl {v : Visit} {x x' : Exchange S} {k : Kept} (h : Stands c x.store v.now x.cookie k)
    (hstore : x'.store = x.store) (hkept : x'.kept = x.cookie ∨ (x'.kept = [] ∧ k = none)) : Settled c v x x' k := by
  rcases hkept with hkept | ⟨hkept, rfl⟩
  · exact ⟨by rwa [hstore, hkept], fun id hid => .inl (hkept ▸ hid)⟩
  · exact .of_gone hkept

theorem isTime_load {store : S.State} {time : Int} {cookie : Bytes} {k : Kept} (h : Stands c store time cookie k)
    (v : Visit) : IsTime (k.load c v).opened.timeoutIn := by
  cases k with
  | none => exact ⟨v.stale.le_toInt, v.stale.toInt_lt⟩
  | some x => exact h.1

theorem isTime_sessionAge (v : Visit) (o : SessionOptions) {timeoutIn : Int} (h : IsTime timeoutIn) (new : Bool) :
    IsTime (sessionAge o v.now timeoutIn new) := by
  unfold sessionAge
  split_ifs
  · have hlo := o.timeoutVal.le_toInt
    have hhi := o.timeoutVal.toInt_lt
    have hnow := v.now_nonneg
    have hlt := v.now_lt
    constructor <;> omega
  · exact h

/-- Whatever the age of the cookie, what is sent stands for what was saved. -/
theorem sent_settled (v : Visit) {d : SessionData} {ar : Bytes} (har : saveData d = .ok ar) {u : Int} (hu : IsTime u)
    (new onServer : Bool) (x : Exchange S) (age : Int) :
    Settled c v x ((dualSave c v ar u new onServer x).2.setSessionCookie age (dualSave c v ar u new onServer x).1)
      (if age < 0 then none else some (d, u)) := by
  rcases hsave : dualSave c v ar u new onServer x with ⟨cookie, x'⟩
  obtain ⟨hstands, hsent, hown⟩ := dualSave_spec v har hu new onServer x hsave
  split_ifs with hnegative
  · refine .of_gone ?_
    rw [Exchange.kept_setSessionCookie, if_pos hnegative]
  · refine ⟨?_, ?_⟩ <;> rw [Exchange.kept_setSessionCookie, if_neg hnegative, hsent]
    · exact hstands
    · exact hown

/-- **What `save` leaves stands for what is to be kept.** -/
theorem interfaceSave_settled (v : Visit) (s s' : Opened) {x : Exchange S} {k : Kept} (hx : x.Before k)
    (h : Stands c x.store v.now x.cookie k) (hs : IsTime s.timeoutIn) :
    Settled c v x (x.answered (interfaceSave c v s s' x)) (k.save c v s s') := by
  by_cases hempty : s'.data.isEmpty = true
  · simp only [interfaceSave, Kept.save, if_pos hempty]
    refine .of_gone ?_
    change (if x.cookie = [] then x else dualClear v.now x).kept = []
    split_ifs with hcookie
    · exact hx.kept.elim (fun hkept => hkept.trans hcookie) And.left
    · exact kept_dualClear v.now hx
  by_cases hsame : unchanged c v s s' = true
  · simp only [interfaceSave, Kept.save, if_neg hempty, if_pos hsame]
    exact .refl h rfl hx.kept
  · simp only [interfaceSave, Kept.save, if_neg hempty, if_neg hsame, saved]
    cases har : saveData (withToken c v.csrfToken (isNew s s') s'.data) with
    | error e => exact .refl h rfl (.inl rfl)
    | ok ar => exact sent_settled v har (isTime_sessionAge v _ hs _) _ _ x _

/-- **One request of a client**: it opens the session that was kept, and what it leaves stands for what is to be
    kept. -/
theorem serveVisit_stands {store : S.State} {time : Int} (v : Visit) {cookie : Bytes} {k : Kept}
    (h : Stands c store time cookie k) (hnow : time ≤ v.now) :
    (serveVisit c v cookie store).1 = (k.visit c v).1 ∧
      Stands c (serveVisit c v cookie store).2.store v.now (serveVisit c v cookie store).2.kept (k.visit c v).2 ∧
      ∀ id, SessionSid.validSid (serveVisit c v cookie store).2.kept = some id → Own v cookie id := by
  have hstill := h.still hnow
  obtain ⟨sent, hload, hbefore⟩ := interfaceLoad_stands hstill (k.still_still v.now)
  unfold serveVisit Kept.visit
  rw [hload]
  obtain ⟨hstands, hown⟩ := interfaceSave_settled v ((k.still v.now).load c v).opened
    (((k.still v.now).load c v).handled v) hbefore hstill (isTime_load hstill v)
  exact ⟨rfl, hstands, hown⟩

/-! ## Runs of requests -/

theorem eq_of_hexDigit {m n : UInt8} (hm : m.toNat < 16) (hn : n.toNat < 16) (h : hexDigit m = hexDigit n) :
    m = n := by
  have hall : ∀ i j : Fin 16, hexDigit (UInt8.ofNat i.1) = hexDigit (UInt8.ofNat j.1) → i = j := by decide +kernel
  have hmn := congrArg Fin.val (hall ⟨m.toNat, hm⟩ ⟨n.toNat, hn⟩ (by simpa using h))
  exact UInt8.toNat_inj.1 hmn

theorem eq_of_halves {m n : UInt8} (hhigh : m >>> 4 = n >>> 4) (hlow : m &&& 0x0f = n &&& 0x0f) : m = n := by
  have hall : ∀ i : Fin 256, ((UInt8.ofNat i.1 >>> 4) <<< 4) ||| (UInt8.ofNat i.1 &&& 0x0f) = UInt8.ofNat i.1 := by
    decide +kernel
  have hjoin (b : UInt8) : ((b >>> 4) <<< 4) ||| (b &&& 0x0f) = b := by simpa using hall ⟨b.toNat, b.toNat_lt⟩
  rw [← hjoin m, ← hjoin n, hhigh, hlow]

/-- Different bytes are different identifiers. -/
theorem toHex_injective : Function.Injective SessionSid.toHex := by
  intro l
  induction l with
  | nil =>
    intro l' h
    cases l' with
    | nil => rfl
    | cons b rest => cases h
  | cons a l ih =>
    intro l' h
    cases l' with
    | nil => cases h
    | cons b rest =>
      obtain ⟨hhigh, h⟩ := List.cons.inj (show hexDigit (a >>> 4) :: hexDigit (a &&& 0x0f) :: SessionSid.toHex l =
        hexDigit (b >>> 4) :: hexDigit (b &&& 0x0f) :: SessionSid.toHex rest from h)
      obtain ⟨hlow, hrest⟩ := List.cons.inj h
      rw [eq_of_halves (eq_of_hexDigit (SessionSid.halves_lt a).1 (SessionSid.halves_lt b).1 hhigh)
        (eq_of_hexDigit (SessionSid.halves_lt a).2 (SessionSid.halves_lt b).2 hlow), ih hrest]

variable {ι : Type*} [DecidableEq ι]

/-- The clients of a server with the cookies they have, and its storage. -/
structure Served (ι : Type*) (S : SessionStorage) where
  jars : ι → Bytes
  store : S.State

variable (c) in
/-- A request of one client, which keeps the cookie it is given. -/
def Served.serve (w : Served ι S) (x : ι × Visit) : Loading × Served ι S :=
  let r := serveVisit c x.2 (w.jars x.1) w.store
  (r.1, ⟨Function.update w.jars x.1 r.2.kept, r.2.store⟩)

variable (c) in
/-- What is to be opened and to be kept in turn. -/
def keepVisit (k : ι → Kept) (x : ι × Visit) : Loading × (ι → Kept) :=
  let r := (k x.1).visit c x.2
  (r.1, Function.update k x.1 r.2)

/-- The server is right about each of its clients, no two have the same identifier, and those to come are new. -/
structure Served.Right (c : SessionSettings) (rest : List (ι × Visit)) (w : Served ι S) (k : ι → Kept) : Prop where
  clock : (rest.map fun x => x.2.now).Pairwise (· ≤ ·)
  fresh : (rest.map fun x => x.2.rnd).Nodup
  stands : ∃ time, (∀ x ∈ rest, time ≤ x.2.now) ∧ ∀ i, Stands c w.store time (w.jars i) (k i)
  apart : ∀ {i j id}, SessionSid.validSid (w.jars i) = some id → SessionSid.validSid (w.jars j) = some id → i = j
  unused : ∀ {i id}, SessionSid.validSid (w.jars i) = some id → ∀ x ∈ rest, id ≠ SessionSid.toHex x.2.rnd

/-- **One step keeps the server right**, and what it opens is what is kept. -/
theorem Served.Right.step {x : ι × Visit} {rest : List (ι × Visit)} {w : Served ι S} {k : ι → Kept}
    (h : w.Right c (x :: rest) k) :
    (w.serve c x).1 = (keepVisit c k x).1 ∧ (w.serve c x).2.Right c rest (keepVisit c k x).2 := by
  obtain ⟨i, v⟩ := x
  obtain ⟨time, htime, hstands⟩ := h.stands
  have hnow : time ≤ v.now := htime _ List.mem_cons_self
  obtain ⟨hopened, hkept, hown⟩ := serveVisit_stands v (hstands i) hnow
  have hclock := List.pairwise_cons.1 h.clock
  have hfresh := List.nodup_cons.1 h.fresh
  have hlater : ∀ x ∈ rest, v.now ≤ x.2.now := fun x hx => hclock.1 _ (List.mem_map_of_mem hx)
  -- what another client has is not touched
  have hother {j : ι} (hj : j ≠ i) {id : Bytes} (hid : SessionSid.validSid (w.jars j) = some id) :
      ¬Own v (w.jars i) id := by
    rintro (hmine | hnew)
    · exact hj (h.apart hid hmine)
    · exact h.unused hid (i, v) List.mem_cons_self hnew
  have hclash {j : ι} (hj : j ≠ i) {id : Bytes} (hid : SessionSid.validSid (w.jars j) = some id)
      (hmine : SessionSid.validSid (serveVisit c v (w.jars i) w.store).2.kept = some id) : False :=
    hother hj hid (hown id hmine)
  refine ⟨hopened, hclock.2, hfresh.2, ⟨v.now, hlater, fun j => ?_⟩, ?_, ?_⟩
  · by_cases hj : j = i
    · subst hj
      simpa [Served.serve, keepVisit] using hkept
    · simp only [Served.serve, keepVisit, Function.update_of_ne hj]
      exact (hstands j).frame hnow fun id hid later hlater =>
        (serveVisit_alters v (w.jars i) w.store id later hlater).resolve_right fun hmine => hother hj hid hmine.1
  · intro j j' id hid hid'
    by_cases hj : j = i <;> by_cases hj' : j' = i
    · rw [hj, hj']
    · subst hj
      simp only [Served.serve, Function.update_self, Function.update_of_ne hj'] at hid hid'
      exact (hclash hj' hid' hid).elim
    · subst hj'
      simp only [Served.serve, Function.update_self, Function.update_of_ne hj] at hid hid'
      exact (hclash hj hid hid').elim
    · simp only [Served.serve, Function.update_of_ne hj, Function.update_of_ne hj'] at hid hid'
      exact h.apart hid hid'
  · intro j id hid x hx
    by_cases hj : j = i
    · subst hj
      simp only [Served.serve, Function.update_self] at hid
      rcases hown id hid with hmine | rfl
      · exact h.unused hmine x (List.mem_cons_of_mem _ hx)
      · exact fun heq => hfresh.1 (List.mem_map.2 ⟨x, hx, (toHex_injective heq).symm⟩)
    · simp only [Served.serve, Function.update_of_ne hj] at hid
      exact h.unused hid x (List.mem_cons_of_mem _ hx)

/-- **Clients find their sessions again**: in every run of requests by any clients, each opens the session the client
    itself left, until its time is over. -/
theorem sessions_kept (visits : List (ι × Visit)) (hclock : (visits.map fun x => x.2.now).Pairwise (· ≤ ·))
    (hfresh : (visits.map fun x => x.2.rnd).Nodup) :
    Effect.answers (Served.serve c) ⟨fun _ => [], S.empty⟩ visits =
      Effect.answers (keepVisit c) (fun _ => none) visits := by
  have hstart : (⟨fun _ => [], S.empty⟩ : Served ι S).Right c visits fun _ => none := by
    refine ⟨hclock, hfresh, ?_, fun h => absurd h (validSid_nil _), fun h => absurd h (validSid_nil _)⟩
    cases visits with
    | nil => exact ⟨0, fun x hx => absurd hx List.not_mem_nil, fun _ => .inl rfl⟩
    | cons x rest =>
        refine ⟨x.2.now, fun y hy => ?_, fun _ => .inl rfl⟩
        rcases List.mem_cons.1 hy with rfl | hy
        · exact le_rfl
        · exact (List.pairwise_cons.1 hclock).1 _ (List.mem_map_of_mem hy)
  exact Effect.answers_eq Served.Right.step hstart

/-- Small sessions in cookies under a code of one byte. -/
def sampleSettings : SessionSettings where
  timeoutValDef := 3600
  howDef := Expire.renew
  dataSizeLimit := 8
  csrf := false
  csrfExposed := false
  mac := ⟨1, fun m => [m.sum], fun _ => rfl⟩
  little := fun delta timeout => 10 * delta < timeout.toInt

/-- A request at a time that puts a value under the key `u`. -/
def sampleVisit (now : UInt16) (b : UInt8) (value : Bytes) : Visit where
  now := now.toNat
  rnd := List.replicate 16 b
  csrfToken := []
  stale := 0
  handler s := { s with data := s.data.put [117] ⟨value, false⟩ }
  now_nonneg := by omega
  now_lt := by
    have := now.toNat_lt
    omega
  length_rnd := List.length_replicate

/-- Two clients, the first of which comes back twice. -/
def sampleVisits : List (Bool × Visit) :=
  [(false, sampleVisit 1000 1 [65]), (true, sampleVisit 1001 2 [66]), (false, sampleVisit 2000 3 [67, 68, 69, 70]),
    (false, sampleVisit 9000 4 [71])]

theorem sessions_kept_two :
    Effect.answers (Served.serve (S := .memory) sampleSettings) ⟨fun _ => [], SessionStorage.memory.empty⟩
        sampleVisits =
      Effect.answers (keepVisit sampleSettings) (fun _ => none) sampleVisits :=
  sessions_kept sampleVisits (by decide) (by decide)

example : (Effect.answers (keepVisit sampleSettings) (fun _ => none) sampleVisits).map
    (fun l => (l.data.find [117]).map Entry.value) = [none, none, some [65], none] := by decide

end

end Cppcms
