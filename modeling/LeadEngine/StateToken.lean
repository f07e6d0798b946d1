import LeadEngine.ByteText
import LeadEngine.OAuthState

/-! The state token byte by byte: what signing writes, that verifying reads it back, and the
exceptions that verifying raises. -/
namespace LeadEngine
namespace StateToken

open Interpreter ByteText OAuth

/-- `json.dumps(.., sort_keys=True)`, `json.loads` with the text of its exception, the digest of
HMAC-SHA256, and the texts of the other two decoding exceptions. -/
structure TokenLib where
  dumps : List (String × Json) → String
  loads : String → Except String Json
  hmacSha256 : List UInt8 → List UInt8 → List UInt8
  base64Error : String → String
  unicodeError : List UInt8 → String

inductive VerifyError
  | oauthStateError (message : String)
  | typeError
  deriving DecidableEq

def sign (lib : TokenLib) (b64Payload secret : String) : String :=
  hexlify (lib.hmacSha256 (utf8Encode secret) (utf8Encode b64Payload))

def b64Payload (lib : TokenLib) (payload : List (String × Json)) : String :=
  rstrip (String.ofList (base64Encode (utf8Encode (lib.dumps payload))))

def signState (lib : TokenLib) (payload : List (String × Json)) (secret : String) : String :=
  b64Payload lib payload ++ "." ++ sign lib (b64Payload lib payload) secret

/-- `hmac.compare_digest` of two texts; it raises a `TypeError` unless both are ASCII. -/
def compareDigest (a b : String) : Except VerifyError Bool :=
  if isAscii a = true ∧ isAscii b = true then .ok (a = b) else .error .typeError

/-- The decoding in the `try` block: padding, base64, UTF-8 and JSON. -/
def decodePayload (lib : TokenLib) (b64Payload : String) : Except String Json :=
  match base64Decode (pad b64Payload) with
  | none => .error (lib.base64Error (pad b64Payload))
  | some payloadBytes =>
    match utf8Decode payloadBytes with
    | none => .error (lib.unicodeError payloadBytes)
    | some text => lib.loads text

def verifyState (lib : TokenLib) (token secret : String) : Except VerifyError Json :=
  match splitDot token with
  | none =>
    .error (.oauthStateError "OAuth state token is malformed: missing '.' separator")
  | some (b64Payload,receivedSig) =>
    match compareDigest (sign lib b64Payload secret) receivedSig with
    | .error err => .error err
    | .ok false => .error (.oauthStateError "OAuth state HMAC verification failed")
    | .ok true =>
      match decodePayload lib b64Payload with
      | .error exc =>
        .error (.oauthStateError ("OAuth state payload could not be decoded: " ++ exc))
      | .ok result => .ok result

/-- The status of a callback by how its state was verified; `connects` tells whether the rest of
the exchange goes through with the data. -/
def exchangeStatus (connects : Json → Bool) : Except VerifyError Json → ℕ
  | .error (.oauthStateError _) => 403
  | .error .typeError => 502
  | .ok stateData => if connects stateData then 200 else 502

def callbackStatus (lib : TokenLib) (settings : Settings) (channel : OAuthChannel)
    (code state error : Option String) (connects : Json → Bool) : ℕ :=
  match truthy error,truthy code,truthy state with
  | none,some _,some state =>
    exchangeStatus connects (verifyState lib state (settings.secret channel))
  | _,_,_ => 400

section Signed

variable {lib : TokenLib} {payload : List (String × Json)} {secret : String}

theorem isAscii_sign (b64Payload : String) : isAscii (sign lib b64Payload secret) = true :=
  isAscii_hexlify _

theorem dot_not_mem_sign (b64Payload : String) : '.' ∉ (sign lib b64Payload secret).toList := by
  intro hdot
  obtain ⟨v,hv,heq⟩ := mem_hexlify hdot
  exact (hexDigit_safe hv).1 heq.symm

theorem b64Payload_digits (lib : TokenLib) (payload : List (String × Json)) :
    ∀ c ∈ (b64Payload lib payload).toList, ∃ v < 64, c = base64Digit v := by
  obtain ⟨core,n,_,_,htext,hcore⟩ := base64Encode_shape (utf8Encode (lib.dumps payload))
  have hstrip : (b64Payload lib payload).toList = core :=
    rstrip_toList (by rw [String.toList_ofList,htext]) (padding_not_mem hcore)
  rw [hstrip]
  exact hcore

theorem dot_not_mem_b64Payload : '.' ∉ (b64Payload lib payload).toList := by
  intro hdot
  obtain ⟨v,hv,heq⟩ := b64Payload_digits lib payload _ hdot
  exact (base64Digit_safe hv).2.1 heq.symm

theorem pad_b64Payload (lib : TokenLib) (payload : List (String × Json)) :
    pad (b64Payload lib payload) =
      String.ofList (base64Encode (utf8Encode (lib.dumps payload))) := by
  obtain ⟨core,n,hn,hlength,htext,hcore⟩ := base64Encode_shape (utf8Encode (lib.dumps payload))
  exact pad_rstrip hn hlength (by rw [String.toList_ofList,htext]) (padding_not_mem hcore)

theorem decodePayload_b64Payload (lib : TokenLib) (payload : List (String × Json)) :
    decodePayload lib (b64Payload lib payload) = lib.loads (lib.dumps payload) := by
  rw [decodePayload,pad_b64Payload,base64Decode_encode]
  simp only [utf8Decode_encode]

theorem compareDigest_sign (b64Payload : String) :
    compareDigest (sign lib b64Payload secret) (sign lib b64Payload secret) = .ok true := by
  rw [compareDigest,if_pos ⟨isAscii_sign _,isAscii_sign _⟩,decide_eq_true rfl]

end Signed

section RoundTrip

/-- The value read back is the payload, as Python compares them: dicts without their order. -/
def SamePayload (value : Json) (payload : List (String × Json)) : Prop :=
  value.sortKeys = (Json.obj payload).sortKeys

/-- A token is text that a URL carries as it is, and splits at its one dot into the signed part
and the signature. -/
structure SignedToken (lib : TokenLib) (payload : List (String × Json)) (secret token : String) :
    Prop where
  urlSafe : ∀ c ∈ token.toList, unreserved c = true
  oneDot : token.toList.count '.' = 1
  split : splitDot token =
    some (b64Payload lib payload,sign lib (b64Payload lib payload) secret)

variable (lib : TokenLib) (payload : List (String × Json)) (secret : String)

theorem signState_toList : (signState lib payload secret).toList =
    (b64Payload lib payload).toList ++
      '.' :: (sign lib (b64Payload lib payload) secret).toList := by
  simp [signState]

theorem signedToken_signState : SignedToken lib payload secret (signState lib payload secret) := by
  refine ⟨?_,?_,splitDot_append dot_not_mem_b64Payload⟩
  · intro c hc
    rw [signState_toList,List.mem_append,List.mem_cons] at hc
    obtain hc | rfl | hc := hc
    · obtain ⟨v,hv,rfl⟩ := b64Payload_digits lib payload c hc
      exact (base64Digit_safe hv).2.2.2
    · rfl
    · obtain ⟨v,hv,rfl⟩ := mem_hexlify hc
      exact (hexDigit_safe hv).2.2
  · rw [signState_toList,List.count_append,List.count_cons_self,
      List.count_eq_zero_of_not_mem dot_not_mem_b64Payload,
      List.count_eq_zero_of_not_mem (dot_not_mem_sign _)]

theorem verifyState_signed {value : Json} (h : lib.loads (lib.dumps payload) = .ok value) :
    verifyState lib (signState lib payload secret) secret = .ok value := by
  simp only [verifyState,(signedToken_signState lib payload secret).split,compareDigest_sign,
    decodePayload_b64Payload,h]

/-- A payload that JSON takes there and back comes back from its token, whatever its length. -/
theorem verifyState_signState
    (hjson : ∃ value, lib.loads (lib.dumps payload) = .ok value ∧ SamePayload value payload) :
    SignedToken lib payload secret (signState lib payload secret) ∧
      ∃ value, verifyState lib (signState lib payload secret) secret = .ok value ∧
        SamePayload value payload := by
  obtain ⟨value,hloads,hsame⟩ := hjson
  exact ⟨signedToken_signState lib payload secret,value,
    verifyState_signed lib payload secret hloads,hsame⟩

end RoundTrip

def oneFieldLib : TokenLib where
  dumps _ := "\x7b\"a\": 1\x7d"
  loads text :=
    if text = "\x7b\"a\": 1\x7d" then .ok (.obj [("a",.int 1)]) else .error "Expecting value"
  hmacSha256 key message :=
    if key = utf8Encode "secret" ∧ message = utf8Encode "eyJhIjogMX0" then
      [128,41,70,68,156,120,8,201,53,200,12,173,255,186,56,208,77,88,174,32,91,156,208,109,5,92,80,
        125,245,105,192,19]
    else []
  base64Error _ := "Incorrect padding"
  unicodeError _ := "invalid start byte"

theorem oneField_verifyState :
    SignedToken oneFieldLib [("a",.int 1)] "secret"
      "eyJhIjogMX0.802946449c7808c935c80cadffba38d04d58ae205b9cd06d055c507df569c013" ∧
    ∃ value, verifyState oneFieldLib
        "eyJhIjogMX0.802946449c7808c935c80cadffba38d04d58ae205b9cd06d055c507df569c013" "secret" =
          .ok value ∧ SamePayload value [("a",.int 1)] := by
  have htoken : signState oneFieldLib [("a",.int 1)] "secret" =
      "eyJhIjogMX0.802946449c7808c935c80cadffba38d04d58ae205b9cd06d055c507df569c013" := by
    decide +kernel
  have hjson : ∃ value, oneFieldLib.loads (oneFieldLib.dumps [("a",.int 1)]) = .ok value ∧
      SamePayload value [("a",.int 1)] := ⟨.obj [("a",.int 1)],by simp [oneFieldLib],rfl⟩
  have h := verifyState_signState oneFieldLib [("a",.int 1)] "secret" hjson
  rwa [htoken] at h

section Failures

variable {lib : TokenLib} {token secret : String}

/-- The decoded payload of a token with the right signature, or an `OAuthStateError`. -/
def Outcome (lib : TokenLib) (token secret : String) : Prop :=
  (∃ result b64Payload, verifyState lib token secret = .ok result ∧
      splitDot token = some (b64Payload,sign lib b64Payload secret) ∧
      decodePayload lib b64Payload = .ok result) ∨
    ∃ message, verifyState lib token secret = .error (.oauthStateError message)

/-- Verifying fails in its declared way only, and a callback answers 403 to every state refused. -/
structure Declared (lib : TokenLib) (token secret : String) : Prop where
  outcome : Outcome lib token secret
  forbidden : ∀ (settings : Settings) channel code error connects,
    settings.secret channel = secret → truthy error = none → truthy code ≠ none → token ≠ "" →
      (∀ result, verifyState lib token secret ≠ .ok result) →
        callbackStatus lib settings channel code (some token) error connects = 403

/-- What stands after the first dot is ASCII. -/
def AsciiSignature (token : String) : Prop :=
  ∀ b64Payload receivedSig, splitDot token = some (b64Payload,receivedSig) →
    isAscii receivedSig = true

inductive Verifies (lib : TokenLib) (token secret : String) : Except VerifyError Json → Prop
  | malformed (hsplit : splitDot token = none) : Verifies lib token secret
      (.error (.oauthStateError "OAuth state token is malformed: missing '.' separator"))
  | escapes {b64Payload receivedSig : String}
      (hsplit : splitDot token = some (b64Payload,receivedSig))
      (hascii : isAscii receivedSig = false) : Verifies lib token secret (.error .typeError)
  | mismatch {b64Payload receivedSig : String}
      (hsplit : splitDot token = some (b64Payload,receivedSig))
      (hascii : isAscii receivedSig = true) (hsig : sign lib b64Payload secret ≠ receivedSig) :
      Verifies lib token secret (.error (.oauthStateError "OAuth state HMAC verification failed"))
  | undecodable {b64Payload exc : String}
      (hsplit : splitDot token = some (b64Payload,sign lib b64Payload secret))
      (hdecode : decodePayload lib b64Payload = .error exc) : Verifies lib token secret
      (.error (.oauthStateError ("OAuth state payload could not be decoded: " ++ exc)))
  | decoded {b64Payload : String} {result : Json}
      (hsplit : splitDot token = some (b64Payload,sign lib b64Payload secret))
      (hdecode : decodePayload lib b64Payload = .ok result) :
      Verifies lib token secret (.ok result)

theorem verifies (lib : TokenLib) (token secret : String) :
    Verifies lib token secret (verifyState lib token secret) := by
  unfold verifyState
  split
  · rename_i hsplit
    exact .malformed hsplit
  · rename_i b64Payload receivedSig hsplit
    cases hascii : isAscii receivedSig with
    | false =>
      have hcompare : compareDigest (sign lib b64Payload secret) receivedSig =
          .error .typeError := by simp [compareDigest,hascii]
      rw [hcompare]
      exact .escapes hsplit hascii
    | true =>
      by_cases hsig : sign lib b64Payload secret = receivedSig
      · subst hsig
        rw [compareDigest_sign]
        cases hdecode : decodePayload lib b64Payload with
        | error exc => exact .undecodable hsplit hdecode
        | ok result => exact .decoded hsplit hdecode
      · have hcompare : compareDigest (sign lib b64Payload secret) receivedSig = .ok false := by
          rw [compareDigest,if_pos ⟨isAscii_sign _,hascii⟩,decide_eq_false hsig]
        rw [hcompare]
        exact .mismatch hsplit hascii hsig

theorem verifyState_typeError_iff (lib : TokenLib) (token secret : String) :
    verifyState lib token secret = .error .typeError ↔ ¬ AsciiSignature token := by
  have h := verifies lib token secret
  generalize verifyState lib token secret = r at h ⊢
  cases h with
  | malformed hsplit => simp [AsciiSignature,hsplit]
  | escapes hsplit hascii => simp [AsciiSignature,hsplit,hascii]
  | mismatch hsplit hascii => simp [AsciiSignature,hsplit,hascii]
  | undecodable hsplit => simp [AsciiSignature,hsplit,isAscii_sign]
  | decoded hsplit => simp [AsciiSignature,hsplit,isAscii_sign]

theorem outcome_of_not_typeError (h : verifyState lib token secret ≠ .error .typeError) :
    Outcome lib token secret := by
  have hends := verifies lib token secret
  unfold Outcome
  generalize verifyState lib token secret = r at h hends ⊢
  cases hends with
  | malformed | mismatch | undecodable => exact Or.inr ⟨_,rfl⟩
  | escapes => exact absurd rfl h
  | decoded hsplit hdecode => exact Or.inl ⟨_,_,rfl,hsplit,hdecode⟩

theorem Outcome.not_typeError (h : Outcome lib token secret) :
    verifyState lib token secret ≠ .error .typeError := by
  intro herror
  obtain ⟨result,_,hok,_⟩ | ⟨message,hmessage⟩ := h
  · rw [herror] at hok
    cases hok
  · rw [herror] at hmessage
    cases hmessage

theorem callbackStatus_present (lib : TokenLib) (settings : Settings) (channel : OAuthChannel)
    {code error : Option String} (connects : Json → Bool) (herror : truthy error = none)
    (hcode : truthy code ≠ none) (htoken : token ≠ "") :
    callbackStatus lib settings channel code (some token) error connects =
      exchangeStatus connects (verifyState lib token (settings.secret channel)) := by
  obtain ⟨code',hcode'⟩ := Option.ne_none_iff_exists'.mp hcode
  have htoken' : truthy (some token) = some token := truthy_eq_some.mpr ⟨rfl,htoken⟩
  simp only [callbackStatus,herror,hcode',htoken']

/-- Verifying fails only in its declared way exactly for the tokens without a dot and those with
an ASCII signature. -/
theorem declared_iff (lib : TokenLib) (token secret : String) :
    Declared lib token secret ↔ AsciiSignature token := by
  constructor
  · intro h
    have hno := h.outcome.not_typeError
    rwa [Ne,verifyState_typeError_iff,not_not] at hno
  · intro hascii
    have houtcome : Outcome lib token secret := outcome_of_not_typeError (by
      rwa [Ne,verifyState_typeError_iff,not_not])
    refine ⟨houtcome,?_⟩
    rintro settings channel code error connects rfl herror hcode htoken hrefused
    obtain ⟨result,_,hok,_⟩ | ⟨message,hmessage⟩ := houtcome
    · exact absurd hok (hrefused result)
    · rw [callbackStatus_present lib settings channel connects herror hcode htoken,hmessage]
      rfl

/-- One accented letter after the dot: the `TypeError` escapes, and the callback answers 502. -/
theorem accented_signature_escapes :
    ¬ Declared oneFieldLib "eyJhIjogMX0.é" "secret" ∧
      callbackStatus oneFieldLib { metaAppSecret := "secret" } .facebook (some "code")
        (some "eyJhIjogMX0.é") none (fun _ => true) = 502 := by
  have hsplit : splitDot "eyJhIjogMX0.é" = some ("eyJhIjogMX0","é") := by decide +kernel
  have herror : verifyState oneFieldLib "eyJhIjogMX0.é" "secret" = .error .typeError := by
    rw [verifyState_typeError_iff]
    intro hascii
    exact absurd (hascii _ _ hsplit) (by decide +kernel)
  refine ⟨fun h => h.outcome.not_typeError herror,?_⟩
  have hcode : truthy (some "code") ≠ none := by decide
  rw [callbackStatus_present _ _ _ _ rfl hcode (by decide),Settings.secret,herror]
  rfl

end Failures

section Exchanges

def TokenLib.stateLib (lib : TokenLib) (str : UUID → String) (parseUuid : String → Option UUID) :
    StateLib where
  dumps := lib.dumps
  loads text :=
    match lib.loads text with
    | .ok (.obj kvs) => .ok kvs
    | _ => .error ()
  urlsafeB64encode text := String.ofList (base64Encode (utf8Encode text))
  urlsafeB64decode text :=
    match (base64Decode text).bind utf8Decode with
    | some decoded => .ok decoded
    | none => .error ()
  hmac secret text := sign lib text secret
  str := str
  parseUuid := parseUuid

variable (lib : TokenLib) (str : UUID → String) (parseUuid : String → Option UUID)

theorem decodePayload_stateLib (b64Payload : String) (data : List (String × Json)) :
    ((lib.stateLib str parseUuid).urlsafeB64decode (pad b64Payload)).bind
        (lib.stateLib str parseUuid).loads = .ok data ↔
      decodePayload lib b64Payload = .ok (.obj data) := by
  simp only [TokenLib.stateLib,decodePayload]
  cases base64Decode (pad b64Payload) with
  | none => simp [Except.bind]
  | some payloadBytes =>
    cases hutf : utf8Decode payloadBytes with
    | none => simp [Except.bind,hutf]
    | some text =>
      cases hloads : lib.loads text with
      | error exc => simp [Except.bind,hutf,hloads]
      | ok result => cases result <;> simp [Except.bind,hutf,hloads]

/-- The exchanges take a token for verified exactly when `verify_state` returns its object. -/
theorem verifyState_stateLib (token secret : String) (data : List (String × Json)) :
    OAuth.verifyState (lib.stateLib str parseUuid) token secret = .ok data ↔
      verifyState lib token secret = .ok (.obj data) := by
  have hsame : ∀ text, ¬ ((lib.stateLib str parseUuid).hmac secret text ≠ sign lib text secret) :=
    fun _ => not_not.mpr rfl
  unfold OAuth.verifyState
  have hends := verifies lib token secret
  generalize verifyState lib token secret = r at hends ⊢
  cases hends with
  | malformed hsplit => simp [hsplit]
  | @escapes b64Payload receivedSig hsplit hascii =>
    have hne : sign lib b64Payload secret ≠ receivedSig := by
      rintro rfl
      rw [isAscii_sign] at hascii
      cases hascii
    simp [hsplit,TokenLib.stateLib,hne]
  | mismatch hsplit _ hsig => simp [hsplit,TokenLib.stateLib,hsig]
  | undecodable hsplit hdecode =>
    simp only [hsplit]
    rw [if_neg (hsame _),Fallible.mapError_eq_ok,decodePayload_stateLib,hdecode]
    simp
  | decoded hsplit hdecode =>
    simp only [hsplit]
    rw [if_neg (hsame _),Fallible.mapError_eq_ok,decodePayload_stateLib,hdecode]
    simp

theorem roundTrips_stateLib {tenantId : UUID} {channel : OAuthChannel}
    (hjson : lib.loads (lib.dumps (statePayload (lib.stateLib str parseUuid) tenantId channel)) =
      .ok (.obj (statePayload (lib.stateLib str parseUuid) tenantId channel)))
    (huuid : parseUuid (str tenantId) = some tenantId) :
    RoundTrips (lib.stateLib str parseUuid) tenantId channel := by
  constructor
  · obtain ⟨core,n,hn,hlength,htext,hcore⟩ := base64Encode_shape
      (utf8Encode (lib.dumps (statePayload (lib.stateLib str parseUuid) tenantId channel)))
    refine ⟨core,n,hn,hlength,?_,padding_not_mem hcore,?_⟩
    · rw [← htext]
      exact String.toList_ofList
    · intro hdot
      obtain ⟨v,hv,heq⟩ := hcore _ hdot
      exact (base64Digit_safe hv).2.1 heq.symm
  · simp only [TokenLib.stateLib,base64Decode_encode,Option.bind_some,utf8Decode_encode]
  · simp only [TokenLib.stateLib] at hjson ⊢
    rw [hjson]
  · exact huuid

end Exchanges

end StateToken
end LeadEngine
