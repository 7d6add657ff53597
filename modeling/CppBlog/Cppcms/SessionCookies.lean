import CppBlog.Cppcms.SessionStorage

set_option autoImplicit false

/-! # The cookies of sessions

Small sessions travel in the cookie of the client, under a code only the server can compute; others stay in the
storage under a random identifier, and the cookie has the identifier. A cookie begins with `C` or with `I`. -/

namespace Cppcms

/-! ## What the server signs -/

/-- `crypto::hmac` under the key of the server. -/
structure Mac where
  digestSize : Nat
  readout : Bytes → Bytes
  length_readout : ∀ m, (readout m).length = digestSize

namespace Mac

variable (h : Mac)

/-- `hmac_cipher::encrypt` -/
def encrypt (plain : Bytes) : Bytes := plain ++ h.readout plain

/-- `hmac_cipher::decrypt` -/
def decrypt (cipher : Bytes) : Option Bytes :=
  if cipher.length < h.digestSize then none
  else
    let message := cipher.take (cipher.length - h.digestSize)
    if h.readout message = cipher.drop (cipher.length - h.digestSize) then some message else none

/-- **What is accepted is what was signed.** -/
theorem decrypt_eq_some {cipher message : Bytes} : h.decrypt cipher = some message ↔ cipher = h.encrypt message := by
  constructor
  · intro hc
    unfold decrypt at hc
    dsimp only at hc
    split_ifs at hc with hlen hcode
    obtain rfl := Option.some.inj hc
    rw [encrypt, hcode, List.take_append_drop]
  · rintro rfl
    have hlen : (h.encrypt message).length = message.length + h.digestSize := by
      rw [encrypt, List.length_append, h.length_readout]
    have hsub : message.length + h.digestSize - h.digestSize = message.length := Nat.add_sub_cancel _ _
    rw [decrypt, hlen, if_neg (by omega), hsub]
    simp only [encrypt, List.take_left, List.drop_left, if_true]

end Mac

/-! ## Times -/

/-- A `time_t` as its eight bytes -/
def timeBytes (t : Int) : Bytes := toLE 8 (t % 2 ^ 64).toNat

/-- Eight bytes as a `time_t` -/
def readTime (l : Bytes) : Int := if ofLE l < 2 ^ 63 then ofLE l else (ofLE l : Int) - 2 ^ 64

@[simp] theorem length_timeBytes (t : Int) : (timeBytes t).length = 8 := length_toLE 8 _

theorem readTime_timeBytes {t : Int} (h : -2 ^ 63 ≤ t) (ht : t < 2 ^ 63) : readTime (timeBytes t) = t := by
  have hn : (t % 2 ^ 64).toNat < 256 ^ 8 := by omega
  rw [readTime, timeBytes, ofLE_toLE hn]
  split_ifs <;> omega

/-! ## Cookies -/

/-- The letters `urlencode` leaves as they are. -/
def unreserved (c : UInt8) : Bool := B64url.alphabet.contains c || c = 46 || c = 126

def hexDigit (n : UInt8) : UInt8 := if n.toNat < 10 then 48 + n else 87 + n

/-- `util::urlencode` -/
def urlencode (l : Bytes) : Bytes :=
  l.flatMap fun c => if unreserved c then [c] else [37, hexDigit (c >>> 4), hexDigit (c &&& 0x0f)]

theorem urlencode_of_unreserved {l : Bytes} (h : ∀ c ∈ l, unreserved c = true) : urlencode l = l := by
  induction l with
  | nil => rfl
  | cons c rest ih =>
    rw [urlencode, List.flatMap_cons, if_pos (h c List.mem_cons_self)]
    change [c] ++ urlencode rest = c :: rest
    rw [ih fun x hx => h x (List.mem_cons_of_mem _ hx)]
    rfl

theorem unreserved_encode6to8 {i : UInt8} (hi : i.toNat < 64) : unreserved (B64url.encode6to8 i) = true := by
  have hall : ∀ j : Fin 64, unreserved (B64url.encode6to8 (UInt8.ofNat j.1)) = true := by decide +kernel
  simpa using hall ⟨i.toNat, hi⟩

theorem unreserved_hexDigit {n : UInt8} (hn : n.toNat < 16) : unreserved (hexDigit n) = true := by
  have hall : ∀ j : Fin 16, unreserved (hexDigit (UInt8.ofNat j.1)) = true := by decide +kernel
  simpa using hall ⟨n.toNat, hn⟩

open B64url in
theorem unreserved_encode (l : Bytes) : ∀ c ∈ encode l, unreserved c = true := by
  induction l using encode.induct with
  | case1 => exact fun _ h => absurd h List.not_mem_nil
  | case2 a =>
    have hlast : (a &&& 0x03) <<< 4 = ((a &&& 0x03) <<< 4) ||| (((0 : UInt8) &&& 0xf0) >>> 4) := by simp
    rw [encode, hlast]
    simp only [List.forall_mem_cons, List.not_mem_nil, false_implies, implies_true, and_true]
    exact ⟨unreserved_encode6to8 (index₀_lt a), unreserved_encode6to8 (index₁_lt a 0)⟩
  | case3 a b =>
    have hlast : (b &&& 0x0f) <<< 2 = ((b &&& 0x0f) <<< 2) ||| (((0 : UInt8) &&& 0xc0) >>> 6) := by simp
    rw [encode, hlast]
    simp only [List.forall_mem_cons, List.not_mem_nil, false_implies, implies_true, and_true]
    exact ⟨unreserved_encode6to8 (index₀_lt a), unreserved_encode6to8 (index₁_lt a b),
      unreserved_encode6to8 (index₂_lt b 0)⟩
  | case4 a b c rest ih =>
    rw [encode]
    refine List.forall_mem_append.2 ⟨?_, ih⟩
    simp only [List.forall_mem_cons, List.not_mem_nil, false_implies, implies_true, and_true]
    exact ⟨unreserved_encode6to8 (index₀_lt a), unreserved_encode6to8 (index₁_lt a b),
      unreserved_encode6to8 (index₂_lt b c), unreserved_encode6to8 (index₃_lt c)⟩

/-- What `session_interface` sees of a request: the session cookie that came with it, the values the response sets it
    to, empty where it takes it back, and the storage of the server. -/
structure Exchange (S : SessionStorage) where
  cookie : Bytes
  sent : List Bytes
  store : S.State

variable {S : SessionStorage}

namespace Exchange

/-- `session_interface::set_session_cookie(age,data)`: no value takes the cookie back, and so does a negative age. -/
def setSessionCookie (x : Exchange S) (age : Int) (data : Bytes) : Exchange S :=
  { x with sent := x.sent ++ [if age < 0 then [] else urlencode data] }

/-- `session_interface::clear_session_cookie` -/
def clearSessionCookie (x : Exchange S) : Exchange S := if x.cookie = [] then x else x.setSessionCookie (-1) []

/-- The cookie the client has in the end: the last one set. -/
def kept (x : Exchange S) : Bytes := x.sent.getLastD x.cookie

end Exchange

/-! ## `session_cookies` -/

namespace SessionCookies

/-- The cookie `session_cookies::save` sets. -/
def save (h : Mac) (data : Bytes) (timeout : Int) : Bytes :=
  67 :: B64url.encode (h.encrypt (timeBytes timeout ++ data))

/-- What `session_cookies::load` reads from a cookie, or nothing and the cookie is taken back. -/
def read (h : Mac) (now : Int) (cookie : Bytes) : Option (Bytes × Int) :=
  if cookie.head? ≠ some 67 then none
  else (B64url.decode cookie.tail).bind fun cipher => (h.decrypt cipher).bind fun tmp =>
    if tmp.length < 8 then none
    else if readTime (tmp.take 8) < now then none
    else some (tmp.drop 8, readTime (tmp.take 8))

/-- `session_cookies::load` -/
def load (h : Mac) (now : Int) (x : Exchange S) : Option (Bytes × Int) × Exchange S :=
  match read h now x.cookie with
  | some r => (some r, x)
  | none => (none, x.clearSessionCookie)

/-- A cookie of the server is read until its time is over. -/
theorem read_save (h : Mac) (now : Int) {timeout : Int} (data : Bytes) (hpos : -2 ^ 63 ≤ timeout)
    (hfits : timeout < 2 ^ 63) :
    read h now (save h data timeout) = if timeout < now then none else some (data, timeout) := by
  have hdecrypt : h.decrypt (h.encrypt (timeBytes timeout ++ data)) = some (timeBytes timeout ++ data) :=
    h.decrypt_eq_some.2 rfl
  have hlen : ¬(timeBytes timeout ++ data).length < 8 := by
    rw [List.length_append, length_timeBytes]
    omega
  have htake : (timeBytes timeout ++ data).take 8 = timeBytes timeout := List.take_left' (length_timeBytes timeout)
  have hdrop : (timeBytes timeout ++ data).drop 8 = data := List.drop_left' (length_timeBytes timeout)
  rw [read, save, List.head?_cons, if_neg (not_not.2 rfl), List.tail_cons, B64url.decode_encode, Option.bind_some,
    hdecrypt, Option.bind_some, if_neg hlen, htake, hdrop, readTime_timeBytes hpos hfits]

/-- **A cookie is read only if it holds what the server signed**, the time it is good until among it. -/
theorem read_eq_some {h : Mac} {now timeout : Int} {cookie data : Bytes}
    (hread : read h now cookie = some (data, timeout)) :
    now ≤ timeout ∧ ∃ time, time.length = 8 ∧ timeout = readTime time ∧
      B64url.decode cookie.tail = some (h.encrypt (time ++ data)) := by
  unfold read at hread
  split_ifs at hread
  obtain ⟨cipher, hcipher, hread⟩ := Option.bind_eq_some_iff.1 hread
  obtain ⟨tmp, htmp, hread⟩ := Option.bind_eq_some_iff.1 hread
  split_ifs at hread with hlen htime
  cases hread
  refine ⟨not_lt.1 htime, tmp.take 8, ?_, rfl, ?_⟩
  · rw [List.length_take]
    omega
  · rw [List.take_append_drop, hcipher, h.decrypt_eq_some.1 htmp]

end SessionCookies

/-! ## `session_sid` -/

namespace SessionSid

/-- `tohex` -/
def toHex (l : Bytes) : Bytes := l.flatMap fun (c : UInt8) => [hexDigit (c >>> 4), hexDigit (c &&& 0x0f)]

/-- A digit of an identifier. -/
def lowXDigit (c : UInt8) : Bool := (48 ≤ c.toNat && c.toNat ≤ 57) || (97 ≤ c.toNat && c.toNat ≤ 102)

/-- `session_sid::valid_sid` -/
def validSid (cookie : Bytes) : Option Bytes :=
  if cookie.length = 33 ∧ cookie.head? = some 73 ∧ cookie.tail.all lowXDigit = true then some cookie.tail else none

/-- `session_sid::save`: the cookie it sets, and the storage. `rnd` is what `urandom_device` gave. -/
def save (rnd : Bytes) (now : Int) (data : Bytes) (timeout : Int) (isNew : Bool) (cookie : Bytes) (store : S.State) :
    Bytes × S.State :=
  match validSid cookie with
  | some id =>
      if isNew then (73 :: toHex rnd, S.save (S.remove store now id) now (toHex rnd) timeout data)
      else (73 :: id, S.save store now id timeout data)
  | none => (73 :: toHex rnd, S.save store now (toHex rnd) timeout data)

/-- `session_sid::load` -/
def load (now : Int) (cookie : Bytes) (store : S.State) : Option (Bytes × Int) × S.State :=
  match validSid cookie with
  | none => (none, store)
  | some id =>
      match S.load store now id with
      | none => (none, store)
      | some x => if x.1 < now then (none, S.remove store now id) else (some (x.2, x.1), store)

/-- `session_sid::clear` -/
def clear (now : Int) (x : Exchange S) : Exchange S :=
  match validSid x.cookie with
  | some id => { x with store := S.remove x.store now id }.clearSessionCookie
  | none => x.clearSessionCookie

theorem lowXDigit_hexDigit {n : UInt8} (hn : n.toNat < 16) : lowXDigit (hexDigit n) = true := by
  have hall : ∀ j : Fin 16, lowXDigit (hexDigit (UInt8.ofNat j.1)) = true := by decide +kernel
  simpa using hall ⟨n.toNat, hn⟩

theorem halves_lt (c : UInt8) : (c >>> 4).toNat < 16 ∧ (c &&& 0x0f).toNat < 16 := by
  have hall : ∀ n : Fin 256, (UInt8.ofNat n.1 >>> 4).toNat < 16 ∧ (UInt8.ofNat n.1 &&& 0x0f).toNat < 16 := by
    decide +kernel
  simpa using hall ⟨c.toNat, c.toNat_lt⟩

theorem length_toHex (l : Bytes) : (toHex l).length = 2 * l.length := by
  induction l with
  | nil => rfl
  | cons c rest ih =>
    change (toHex rest).length + 2 = 2 * (rest.length + 1)
    omega

theorem all_toHex (l : Bytes) : (toHex l).all lowXDigit = true := by
  rw [List.all_eq_true]
  intro c hc
  obtain ⟨b, -, hb⟩ := List.mem_flatMap.1 hc
  rcases List.mem_pair.1 hb with rfl | rfl
  · exact lowXDigit_hexDigit (halves_lt b).1
  · exact lowXDigit_hexDigit (halves_lt b).2

/-- An identifier of its own making is valid. -/
theorem validSid_toHex {rnd : Bytes} (h : rnd.length = 16) : validSid (73 :: toHex rnd) = some (toHex rnd) := by
  refine if_pos ⟨?_, rfl, all_toHex rnd⟩
  rw [List.length_cons, length_toHex, h]

theorem validSid_cons {cookie id : Bytes} (h : validSid cookie = some id) : cookie = 73 :: id := by
  unfold validSid at h
  split_ifs at h with hvalid
  obtain rfl := Option.some.inj h
  cases cookie with
  | nil => cases hvalid.2.1
  | cons c rest =>
      obtain rfl := Option.some.inj hvalid.2.1
      rfl

end SessionSid

end Cppcms
