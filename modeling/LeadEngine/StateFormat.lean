import LeadEngine.JsonText
import LeadEngine.StateToken
import LeadEngine.UuidText

/-! State tokens down to their characters: sorted JSON, UTF-8, base64 and UUID texts under any
digest function, so that nothing about these formats is left to assume. -/
namespace LeadEngine
namespace StateToken

open ByteText JsonText OAuth

section Formats

variable [Floats]

/-- The digest of HMAC-SHA256, the texts of the three decoding exceptions, and what `int` makes of
digits beyond ASCII. -/
structure Runtime where
  hmacSha256 : List UInt8 → List UInt8 → List UInt8
  jsonError : String → String
  base64Error : String → String
  unicodeError : List UInt8 → String
  intBeyondAscii : List Char → Option ℕ

variable (runtime : Runtime)

def Runtime.tokenLib : TokenLib where
  dumps payload := String.ofList (dumps (Json.obj payload).sortKeys)
  loads text :=
    match loads text.toList with
    | some value => .ok value
    | none => .error (runtime.jsonError text)
  hmacSha256 := runtime.hmacSha256
  base64Error := runtime.base64Error
  unicodeError := runtime.unicodeError

def Runtime.stateLib : StateLib :=
  runtime.tokenLib.stateLib (fun u => String.ofList (Normaliser.uuidText u))
    (UuidText.parse runtime.intBeyondAscii)

variable {runtime} {payload payload' : List (String × Json)} {secret secret' : String}

theorem loads_tokenLib (h : Plain (.obj payload)) :
    runtime.tokenLib.loads (runtime.tokenLib.dumps payload) = .ok (Json.obj payload).sortKeys := by
  simp only [Runtime.tokenLib,String.toList_ofList,loads_dumps (plain_sortKeys _ h)]

section Issued

variable {t t' : UUID} {channel channel' : OAuthChannel} {settings settings' : Settings}

omit [Floats] in
theorem plain_statePayload (lib : StateLib) (t : UUID) (channel : OAuthChannel) :
    Plain (.obj (statePayload lib t channel)) := by
  refine ⟨?_,trivial,trivial,trivial⟩
  simp [statePayload]

omit [Floats] in
theorem sortKeys_statePayload (lib : StateLib) (t : UUID) (channel : OAuthChannel) :
    (Json.obj (statePayload lib t channel)).sortKeys = .obj (statePayload lib t channel) := by
  have hlater : ¬ ("tenant_id" : String) < "channel" := by decide
  simp only [statePayload,Json.sortKeys,Json.sortFields,Json.insertField,if_neg hlater]

theorem roundTrips_stateLib_runtime (ht : t < 2^128) :
    RoundTrips runtime.stateLib t channel := by
  refine roundTrips_stateLib _ _ _ ?_ (UuidText.parse_uuidText _ ht)
  rw [loads_tokenLib (plain_statePayload _ t channel),sortKeys_statePayload]

/-- The state of an initiation verifies under the secret that signed it and gives back its tenant
and its channel; under no secret does it give anything else, and no initiation of another tenant or
channel has the same state, whatever the digest function is. -/
theorem issued_states_apart (ht : t < 2^128) (ht' : t' < 2^128) :
    (∃ data, OAuth.verifyState runtime.stateLib (stateToken runtime.stateLib settings t channel)
        (settings.secret channel) = .ok data ∧
      (Json.obj data).get? "channel" = some (.str channel.value) ∧
      ((Json.obj data).get? "tenant_id").bind Json.text? = some (runtime.stateLib.str t) ∧
      runtime.stateLib.parseUuid (runtime.stateLib.str t) = some t ∧
      ∀ secret other, OAuth.verifyState runtime.stateLib
        (stateToken runtime.stateLib settings t channel) secret = .ok other → other = data) ∧
      (stateToken runtime.stateLib settings t channel =
        stateToken runtime.stateLib settings' t' channel' → t = t' ∧ channel = channel') := by
  have hround : RoundTrips runtime.stateLib t channel := roundTrips_stateLib_runtime ht
  have hround' : RoundTrips runtime.stateLib t' channel' := roundTrips_stateLib_runtime ht'
  exact ⟨⟨statePayload runtime.stateLib t channel,verifyState_issued hround,rfl,rfl,hround.parse,
    fun _ _ hok => verifyState_stateToken hround hok⟩,stateToken_inj hround hround'⟩

end Issued

end Formats

def twoStates : Runtime where
  hmacSha256 key message :=
    if key ≠ utf8Encode "secret" then []
    else if message = utf8Encode
        ("eyJjaGFubmVsIjogImZhY2Vib29rIiwgInRlbmFudF9pZCI6ICIwMDAwMDAwMC0wMDA" ++
          "wLTAwMDAtMDAwMC0wMDAwMDAwMDAwMDEifQ") then
      [0,206,253,82,252,115,1,21,64,225,238,144,255,232,235,189,25,1,104,55,227,243,52,121,197,225,
        27,236,95,53,136,36]
    else
      [172,161,70,31,93,115,171,15,53,108,244,173,35,201,189,62,210,70,54,244,158,22,203,93,126,82,
        7,189,33,241,165,17]
  jsonError _ := "Expecting value"
  base64Error _ := "Incorrect padding"
  unicodeError _ := "invalid start byte"
  intBeyondAscii _ := none

/-- Tenant 1 connects Facebook and tenant 2 connects Instagram. -/
theorem two_states_apart :
    letI := noFloats
    let lib := twoStates.stateLib
    let settings : Settings := { metaAppSecret := "secret", metaIgAppSecret := "secret" }
    stateToken lib settings 1 .facebook =
        "eyJjaGFubmVsIjogImZhY2Vib29rIiwgInRlbmFudF9pZCI6ICIwMDAwMDAwM" ++
        "C0wMDAwLTAwMDAtMDAwMC0wMDAwMDAwMDAwMDEifQ." ++
        "00cefd52fc73011540e1ee90ffe8ebbd19016837e3f33479c5e11bec5f358824" ∧
      (∃ data, OAuth.verifyState lib (stateToken lib settings 1 .facebook) "secret" = .ok data ∧
        (Json.obj data).get? "channel" = some (.str "facebook")) ∧
      stateToken lib settings 1 .facebook ≠ stateToken lib settings 2 .instagram := by
  let := noFloats
  intro lib settings
  obtain ⟨⟨data,hok,hchannel,_⟩,hapart⟩ := @issued_states_apart noFloats twoStates 1 2 .facebook
    .instagram settings settings (by decide) (by decide)
  exact ⟨by decide +kernel,⟨data,hok,hchannel⟩,fun hsame => absurd (hapart hsame).1 (by decide)⟩

end StateToken
end LeadEngine
