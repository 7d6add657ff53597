import CppBlog.Cppcms.SessionCookies
import CppBlog.Text.CNumber

set_option autoImplicit false

/-! # What a client finds again

`session_interface::load` and `save` over `session_dual`. The handler of a request is any function of the session it
opens. What is to be kept for a client is its data and the time they are good until; cookie and storage are one way to
keep it. `_t`, `_h` and `_s` are the keys under which a session has its own age, expiration and place. -/

namespace Cppcms

namespace Expire

def fixed : Int32 := 0
def renew : Int32 := 1
def browser : Int32 := 2

end Expire

/-- How long a session lives, by which policy, and whether it has to stay on the server. -/
structure SessionOptions where
  timeoutVal : Int32
  how : Int32
  onServer : Bool := false
deriving DecidableEq

/-- The settings of the sessions. `little` is the comparison `delta < timeout_val_ * 0.1` of doubles. -/
structure SessionSettings where
  timeoutValDef : Int32
  howDef : Int32
  dataSizeLimit : Nat
  csrf : Bool
  csrfExposed : Bool
  mac : Mac
  little : Int → Int32 → Bool

/-- A session as a request has it; `timeoutIn` is the time it was good until. -/
structure Opened where
  data : SessionData
  timeoutIn : Int
  options : SessionOptions
  reset : Bool := false
deriving DecidableEq

/-- What a request brings along: when it comes, the random bytes of a new identifier, the token of a new session,
    what `timeout_in_` holds before it is set, and what its handler does to the session. -/
structure Visit where
  now : Int
  rnd : Bytes
  csrfToken : Bytes
  stale : Int64
  handler : Opened → Opened
  now_nonneg : 0 ≤ now
  now_lt : now < 2 ^ 63 - 2 ^ 31
  length_rnd : rnd.length = 16

/-- What `load` leaves: the session as it was kept, with `data_copy_` for its data, the data in `data_`, and what it
    threw. -/
structure Loading where
  opened : Opened
  data : SessionData
  error : Option SessionError
deriving DecidableEq

/-- The session a request ends with, or what `load` left of it. -/
def Loading.handled (l : Loading) (v : Visit) : Opened :=
  if l.error = none then v.handler l.opened else { l.opened with data := l.data }

/-- What `get<int>` reads -/
def readInt (s : Bytes) : Option Int32 :=
  (Text.readInt? (String.ofList (s.map fun b => Char.ofNat b.toNat))).map Int32.ofInt

/-- `"_t"` -/
def ageKey : Bytes := [95, 116]

/-- `"_h"` -/
def expirationKey : Bytes := [95, 104]

/-- `"_s"` -/
def onServerKey : Bytes := [95, 115]

/-- `"_csrf"` -/
def csrfKey : Bytes := [95, 99, 115, 114, 102]

/-- `if(is_set(key)) value = get<int>(key)`, unless something was thrown before -/
def readOption (data : SessionData) (key : Bytes) (set : SessionOptions → Int32 → SessionOptions)
    (r : SessionOptions × Option SessionError) : SessionOptions × Option SessionError :=
  match r.2, data.find key with
  | none, some e => (readInt e.value).elim (r.1, some .badValue) fun n => (set r.1 n, none)
  | _, _ => r

section
variable (c : SessionSettings)

/-- The options a session has of its own. `on_server_` is a single bit. -/
def optionsOf (data : SessionData) : SessionOptions × Option SessionError :=
  readOption data onServerKey (fun o n => { o with onServer := n.toInt % 2 = 1 })
    (readOption data expirationKey (fun o n => { o with how := n })
      (readOption data ageKey (fun o n => { o with timeoutVal := n }) (⟨c.timeoutValDef, c.howDef, false⟩, none)))

/-- `new_session_` -/
def isNew (s s' : Opened) : Bool := (s.data.isEmpty && !s'.data.isEmpty) || s'.reset

/-- The data with the token of a new session. -/
def withToken (token : Bytes) (new : Bool) (data : SessionData) : SessionData :=
  if new && c.csrf then
    data.put csrfKey ⟨token, c.csrfExposed || ((data.find csrfKey).map Entry.exposed).getD false⟩
  else data

/-- Whether an unchanged session is left as it is. -/
def spared (o : SessionOptions) (now timeoutIn : Int) : Bool :=
  o.how = Expire.fixed ||
    (o.how = Expire.renew || o.how = Expire.browser) && c.little (now + o.timeoutVal.toInt - timeoutIn) o.timeoutVal

/-- `session_age` -/
def sessionAge (o : SessionOptions) (now timeoutIn : Int) (new : Bool) : Int :=
  if o.how = Expire.browser ∨ o.how = Expire.renew ∨ (o.how = Expire.fixed ∧ new = true) then o.timeoutVal.toInt + now
  else timeoutIn

/-- `cookie_age` -/
def cookieAge (o : SessionOptions) (now timeoutIn : Int) (new : Bool) : Int :=
  if o.how = Expire.browser then 0
  else if o.how = Expire.renew ∨ (o.how = Expire.fixed ∧ new = true) then o.timeoutVal.toInt
  else Text.toInt32 (timeoutIn - now)

/-! ## What is to be kept -/

/-- What a request has to save that opened the session `s` and ends with `s'`: the data, and the time they are good
    until. -/
def saved (v : Visit) (s s' : Opened) : SessionData × Int :=
  (withToken c v.csrfToken (isNew s s') s'.data, sessionAge s'.options v.now s.timeoutIn (isNew s s'))

/-- Whether there is nothing to save. -/
def unchanged (v : Visit) (s s' : Opened) : Bool :=
  withToken c v.csrfToken (isNew s s') s'.data = s.data && !isNew s s' && spared c s'.options v.now s.timeoutIn

/-- Whether it saves at all. -/
def saves (v : Visit) (s s' : Opened) : Bool := !s'.data.isEmpty && !unchanged c v s s'

/-- The data a client has, and the time they are good until. -/
abbrev Kept := Option (SessionData × Int)

namespace Kept

/-- What is left of it at a time. -/
def still (k : Kept) (now : Int) : Kept := k.filter fun x => now ≤ x.2

/-- The session a request opens. -/
def load (k : Kept) (v : Visit) : Loading :=
  let data := k.elim .empty Prod.fst
  let o := optionsOf c data
  ⟨⟨data, k.elim v.stale.toInt Prod.snd, o.1, false⟩, data, o.2⟩

/-- What a request leaves that opened the session `s` and ends with `s'`. -/
def save (k : Kept) (v : Visit) (s s' : Opened) : Kept :=
  if s'.data.isEmpty then none
  else if unchanged c v s s' then k
  else
    match saveData (saved c v s s').1 with
    | .error _ => k
    | .ok _ => if cookieAge s'.options v.now s.timeoutIn (isNew s s') < 0 then none else some (saved c v s s')

/-- A request of the client: the session it opens, and what is kept from then on. -/
def visit (k : Kept) (v : Visit) : Loading × Kept :=
  let l := (k.still v.now).load c v
  (l, (k.still v.now).save c v l.opened (l.handled v))

end Kept

/-! ## `session_dual` -/

variable {S : SessionStorage}

/-- `session_dual::load` -/
def dualLoad (now : Int) (x : Exchange S) : Option (Bytes × Int) × Exchange S :=
  if x.cookie.head? = some 67 then SessionCookies.load c.mac now x
  else
    let r := SessionSid.load now x.cookie x.store
    (r.1, { x with store := r.2 })

/-- `session_dual::save`: the cookie to set -/
def dualSave (v : Visit) (data : Bytes) (timeout : Int) (new onServer : Bool) (x : Exchange S) : Bytes × Exchange S :=
  if onServer = true ∨ c.dataSizeLimit < data.length then
    let r := SessionSid.save v.rnd v.now data timeout new x.cookie x.store
    (r.1, { x with store := r.2 })
  else (SessionCookies.save c.mac data timeout, if x.cookie.head? = some 73 then SessionSid.clear v.now x else x)

/-- `session_dual::clear` -/
def dualClear (now : Int) (x : Exchange S) : Exchange S :=
  if x.cookie.head? = some 67 then x.clearSessionCookie else SessionSid.clear now x

/-! ## `session_interface` -/

/-- `session_interface::load` -/
def interfaceLoad (v : Visit) (x : Exchange S) : Loading × Exchange S :=
  let r := dualLoad c v.now x
  let unset : SessionOptions := ⟨c.timeoutValDef, c.howDef, false⟩
  match r.1 with
  | none => (⟨⟨.empty, v.stale.toInt, unset, false⟩, .empty, none⟩, r.2)
  | some (ar, timeout) =>
      match loadData ar with
      | (data, some e) => (⟨⟨.empty, timeout, unset, false⟩, data, some e⟩, r.2)
      | (data, none) =>
          let o := optionsOf c data
          (⟨⟨data, timeout, o.1, false⟩, data, o.2⟩, r.2)

/-- `session_interface::save` of a session that was opened as `s` and ends as `s'` -/
def interfaceSave (v : Visit) (s s' : Opened) (x : Exchange S) : Except SessionError (Exchange S) :=
  let new := isNew s s'
  if s'.data.isEmpty then .ok (if x.cookie = [] then x else dualClear v.now x)
  else if unchanged c v s s' then .ok x
  else
    match saveData (withToken c v.csrfToken new s'.data) with
    | .error e => .error e
    | .ok ar =>
        let r := dualSave c v ar (sessionAge s'.options v.now s.timeoutIn new) new s'.options.onServer x
        .ok (r.2.setSessionCookie (cookieAge s'.options v.now s.timeoutIn new) r.1)

/-- The response to a request whose session could be saved or not: without headers it sets no cookies. -/
def Exchange.answered (x : Exchange S) : Except SessionError (Exchange S) → Exchange S
  | .ok x' => x'
  | .error _ => { x with sent := [] }

/-- One request of a client: the session it opens, and what it leaves. -/
def serveVisit (v : Visit) (cookie : Bytes) (store : S.State) : Loading × Exchange S :=
  let r := interfaceLoad c v ⟨cookie, [], store⟩
  (r.1, r.2.answered (interfaceSave c v r.1.opened (r.1.handled v) r.2))

/-! ## What a request does to the storage -/

/-- The identifiers a request with this cookie has to do with: the one in the cookie, and a new one. -/
def Own (v : Visit) (cookie id : Bytes) : Prop := SessionSid.validSid cookie = some id ∨ id = SessionSid.toHex v.rnd

/-- The time and the bytes of a session that a request saves. -/
def Saved (v : Visit) (s s' : Opened) (x : Int × Bytes) : Prop :=
  saves c v s s' = true ∧ (saved c v s s').2 = x.1 ∧ saveData (saved c v s s').1 = .ok x.2

variable {c} {new : Int × Bytes → Prop}

@[simp] theorem Exchange.store_clearSessionCookie (x : Exchange S) : x.clearSessionCookie.store = x.store := by
  unfold Exchange.clearSessionCookie
  split_ifs <;> rfl

@[simp] theorem Exchange.cookie_clearSessionCookie (x : Exchange S) : x.clearSessionCookie.cookie = x.cookie := by
  unfold Exchange.clearSessionCookie
  split_ifs <;> rfl

@[simp] theorem Exchange.store_setSessionCookie (x : Exchange S) (age : Int) (data : Bytes) :
    (x.setSessionCookie age data).store = x.store := rfl

theorem SessionSid.alters_load (v : Visit) (cookie : Bytes) (store : S.State) :
    S.Alters v.now (Own v cookie) new store (SessionSid.load v.now cookie store).2 := by
  unfold SessionSid.load
  split
  · exact .refl _
  · rename_i id hid
    split
    · exact .refl _
    · split_ifs
      · exact .remove (.inl hid) _
      · exact .refl _

theorem SessionSid.alters_save (v : Visit) {data : Bytes} {u : Int} (hnew : new (u, data)) (isNew : Bool)
    (cookie : Bytes) (store : S.State) :
    S.Alters v.now (Own v cookie) new store (SessionSid.save v.rnd v.now data u isNew cookie store).2 := by
  unfold SessionSid.save
  split
  · rename_i id hid
    split_ifs
    · exact .trans (.remove (.inl hid) _) (.save (.inr rfl) hnew _)
    · exact .save (.inl hid) hnew _
  · exact .save (.inr rfl) hnew _

theorem SessionSid.alters_clear (v : Visit) (x : Exchange S) :
    S.Alters v.now (Own v x.cookie) new x.store (SessionSid.clear v.now x).store := by
  unfold SessionSid.clear
  split
  · rename_i id hid
    rw [Exchange.store_clearSessionCookie]
    exact .remove (.inl hid) _
  · rw [Exchange.store_clearSessionCookie]
    exact .refl _

theorem dualLoad_alters (v : Visit) (x : Exchange S) :
    S.Alters v.now (Own v x.cookie) new x.store (dualLoad c v.now x).2.store := by
  unfold dualLoad
  split_ifs
  · unfold SessionCookies.load
    split
    · exact .refl _
    · rw [Exchange.store_clearSessionCookie]
      exact .refl _
  · exact SessionSid.alters_load v x.cookie x.store

theorem cookie_dualLoad (now : Int) (x : Exchange S) : (dualLoad c now x).2.cookie = x.cookie := by
  unfold dualLoad
  split_ifs
  · unfold SessionCookies.load
    split
    · rfl
    · exact x.cookie_clearSessionCookie
  · rfl

theorem dualSave_alters (v : Visit) {data : Bytes} {u : Int} (hnew : new (u, data)) (isNew onServer : Bool)
    (x : Exchange S) :
    S.Alters v.now (Own v x.cookie) new x.store (dualSave c v data u isNew onServer x).2.store := by
  unfold dualSave
  split_ifs
  · exact SessionSid.alters_save v hnew isNew x.cookie x.store
  · exact SessionSid.alters_clear v x
  · exact .refl _

theorem dualClear_alters (v : Visit) (x : Exchange S) :
    S.Alters v.now (Own v x.cookie) new x.store (dualClear v.now x).store := by
  unfold dualClear
  split_ifs
  · rw [Exchange.store_clearSessionCookie]
    exact .refl _
  · exact SessionSid.alters_clear v x

theorem interfaceSave_alters (v : Visit) (s s' : Opened) (x : Exchange S) :
    S.Alters v.now (Own v x.cookie) (Saved c v s s') x.store (x.answered (interfaceSave c v s s' x)).store := by
  unfold interfaceSave
  dsimp only
  split_ifs with hempty hcookie hspared
  · exact .refl _
  · exact dualClear_alters v x
  · exact .refl _
  · cases har : saveData (withToken c v.csrfToken (isNew s s') s'.data) with
    | error e => exact .refl _
    | ok ar => exact dualSave_alters v ⟨by simp [saves, hempty, hspared], rfl, har⟩ _ _ x

theorem interfaceLoad_exchange (v : Visit) (x : Exchange S) : (interfaceLoad c v x).2 = (dualLoad c v.now x).2 := by
  unfold interfaceLoad
  dsimp only
  split
  · rfl
  · split <;> rfl

theorem cookie_interfaceLoad (v : Visit) (x : Exchange S) : (interfaceLoad c v x).2.cookie = x.cookie := by
  rw [interfaceLoad_exchange]
  exact cookie_dualLoad v.now x

/-- **A request changes only what is its own**, and only to what it saves. -/
theorem serveVisit_alters (v : Visit) (cookie : Bytes) (store : S.State) :
    S.Alters v.now (Own v cookie)
      (Saved c v (serveVisit c v cookie store).1.opened ((serveVisit c v cookie store).1.handled v)) store
      (serveVisit c v cookie store).2.store := by
  have hsave := interfaceSave_alters (c := c) v (interfaceLoad c v ⟨cookie, [], store⟩).1.opened
    ((interfaceLoad c v ⟨cookie, [], store⟩).1.handled v) (interfaceLoad c v ⟨cookie, [], store⟩).2
  rw [cookie_interfaceLoad] at hsave
  refine .trans ?_ hsave
  rw [interfaceLoad_exchange]
  exact dualLoad_alters v ⟨cookie, [], store⟩

end

end Cppcms
