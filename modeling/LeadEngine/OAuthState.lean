import Mathlib.Data.List.TakeWhile
import LeadEngine.OAuth

/-! The state parameter of an OAuth redirect: the settings behind its secrets, the signed
token and its verification. -/
namespace LeadEngine
namespace OAuth

open Interpreter Channels

inductive OAuthChannel
  | facebook | instagram
  deriving DecidableEq

def OAuthChannel.value : OAuthChannel → String
  | .facebook => "facebook"
  | .instagram => "instagram"

theorem OAuthChannel.value_inj {c c' : OAuthChannel} (h : c.value = c'.value) : c = c' := by
  cases c <;> cases c' <;> first | rfl | simp [value] at h

structure Settings where
  env : String := "development"
  groqApiKey : String := ""
  channelCredentialsEncryptionKey : String := ""
  metaAppId : String := ""
  metaAppSecret : String := ""
  metaIgAppId : String := ""
  metaIgAppSecret : String := ""
  metaWebhookVerifyToken : String := ""
  baseUrl : String := "http://localhost:8000"
  auth0Domain : String := ""
  auth0Audience : String := ""
  auth0MgmtClientId : String := ""
  auth0MgmtClientSecret : String := ""

def requiredInProduction : List (String × (Settings → String)) :=
  [("groq_api_key",Settings.groqApiKey),
    ("channel_credentials_encryption_key",Settings.channelCredentialsEncryptionKey),
    ("meta_app_secret",Settings.metaAppSecret),("auth0_domain",Settings.auth0Domain),
    ("auth0_audience",Settings.auth0Audience),
    ("meta_webhook_verify_token",Settings.metaWebhookVerifyToken),
    ("auth0_mgmt_client_id",Settings.auth0MgmtClientId),
    ("auth0_mgmt_client_secret",Settings.auth0MgmtClientSecret)]

namespace Settings

def validateProductionSecrets (settings : Settings) : Except String Settings :=
  if settings.env ≠ "production" ∧ settings.env ≠ "staging" then .ok settings
  else
    let missing := (requiredInProduction.filter fun f => f.2 settings = "").map Prod.fst
    if missing ≠ [] then
      .error ("Required secrets not set for env='" ++ settings.env ++ "': " ++
        ", ".intercalate missing)
    else .ok settings

/-- The secret that signs the states of a channel. -/
def secret (settings : Settings) : OAuthChannel → String
  | .facebook => settings.metaAppSecret
  | .instagram => settings.metaIgAppSecret

end Settings

/-- The library functions under the state token: sorted JSON, URL-safe base64, the hex
HMAC-SHA256 and UUID texts. -/
structure StateLib where
  dumps : List (String × Json) → String
  loads : String → Except Unit (List (String × Json))
  urlsafeB64encode : String → String
  urlsafeB64decode : String → Except Unit String
  hmac : String → String → String
  str : UUID → String
  parseUuid : String → Option UUID

def rstrip (text : String) : String :=
  String.ofList (text.toList.reverse.dropWhile (· = '=')).reverse

def splitDot (token : String) : Option (String × String) :=
  match token.toList.dropWhile (· ≠ '.') with
  | [] => none
  | _ :: sig => some (String.ofList (token.toList.takeWhile (· ≠ '.')),String.ofList sig)

def pad (b64Payload : String) : String :=
  b64Payload ++ String.ofList (List.replicate ((4 - b64Payload.length % 4) % 4) '=')

inductive StateError
  | malformed | mismatch | undecodable
  deriving DecidableEq

def signState (lib : StateLib) (payload : List (String × Json)) (secret : String) : String :=
  let b64Payload := rstrip (lib.urlsafeB64encode (lib.dumps payload))
  b64Payload ++ "." ++ lib.hmac secret b64Payload

def verifyState (lib : StateLib) (token secret : String) :
    Except StateError (List (String × Json)) :=
  match splitDot token with
  | none => .error .malformed
  | some (b64Payload,receivedSig) =>
    if lib.hmac secret b64Payload ≠ receivedSig then .error .mismatch
    else ((lib.urlsafeB64decode (pad b64Payload)).bind lib.loads).mapError fun _ => .undecodable

/-- The payload of an initiation, in the order of its sorted keys. -/
def statePayload (lib : StateLib) (tenantId : UUID) (channel : OAuthChannel) :
    List (String × Json) :=
  [("channel",.str channel.value),("tenant_id",.str (lib.str tenantId))]

def stateToken (lib : StateLib) (settings : Settings) (tenantId : UUID) (channel : OAuthChannel) :
    String :=
  signState lib (statePayload lib tenantId channel) (settings.secret channel)

structure AuthUrl where
  base : String
  params : List (String × String)

def facebookScopes : List String :=
  ["pages_show_list","pages_manage_metadata","pages_messaging","pages_read_engagement",
    "pages_manage_ads","leads_retrieval","instagram_manage_messages","instagram_basic"]

def instagramScopes : List String :=
  ["instagram_business_basic","instagram_business_manage_messages"]

def buildFacebookAuthUrl (lib : StateLib) (settings : Settings) (tenantId : UUID) : AuthUrl where
  base := "https://www.facebook.com/dialog/oauth"
  params := [("client_id",settings.metaAppId),
    ("redirect_uri",settings.baseUrl ++ "/channels/oauth/facebook/callback"),
    ("scope",",".intercalate facebookScopes),("state",stateToken lib settings tenantId .facebook)]

def buildInstagramAuthUrl (lib : StateLib) (settings : Settings) (tenantId : UUID) : AuthUrl where
  base := "https://api.instagram.com/oauth/authorize"
  params := [("client_id",settings.metaIgAppId),
    ("redirect_uri",settings.baseUrl ++ "/channels/oauth/instagram/callback"),
    ("scope",",".intercalate instagramScopes),("response_type","code"),
    ("state",stateToken lib settings tenantId .instagram)]

def buildAuthUrl (lib : StateLib) (settings : Settings) :
    OAuthChannel → UUID → AuthUrl
  | .facebook => buildFacebookAuthUrl lib settings
  | .instagram => buildInstagramAuthUrl lib settings

def AuthUrl.state (url : AuthUrl) : String :=
  ((url.params.find? fun p => p.1 = "state").map Prod.snd).getD ""

@[simp] theorem state_buildAuthUrl (lib : StateLib) (settings : Settings) (channel : OAuthChannel)
    (tenantId : UUID) : (buildAuthUrl lib settings channel tenantId).state =
      stateToken lib settings tenantId channel := by
  cases channel <;> rfl

/-- What the libraries document about the payload of one initiation. -/
structure RoundTrips (lib : StateLib) (tenantId : UUID) (channel : OAuthChannel) : Prop where
  alphabet : ∃ core : List Char, ∃ n ≤ 2, (core.length + n) % 4 = 0 ∧
    (lib.urlsafeB64encode (lib.dumps (statePayload lib tenantId channel))).toList =
      core ++ List.replicate n '=' ∧ '=' ∉ core ∧ '.' ∉ core
  decode : lib.urlsafeB64decode
    (lib.urlsafeB64encode (lib.dumps (statePayload lib tenantId channel))) =
      .ok (lib.dumps (statePayload lib tenantId channel))
  loads : lib.loads (lib.dumps (statePayload lib tenantId channel)) =
    .ok (statePayload lib tenantId channel)
  parse : lib.parseUuid (lib.str tenantId) = some tenantId

theorem rstrip_toList {text : String} {core : List Char} {n : ℕ}
    (h : text.toList = core ++ List.replicate n '=') (hcore : '=' ∉ core) :
    (rstrip text).toList = core := by
  have hkeep : core.reverse.dropWhile (· = '=') = core.reverse := by
    apply List.dropWhile_eq_self_iff.mpr
    intro hpos heq
    have hmem : core.reverse[0] ∈ core := List.mem_reverse.mp (List.getElem_mem hpos)
    exact hcore (of_decide_eq_true heq ▸ hmem)
  have hpads : ∀ c ∈ List.replicate n '=', decide (c = '=') = true := by
    intro c hc
    simp [List.eq_of_mem_replicate hc]
  rw [rstrip,h,List.reverse_append,List.reverse_replicate,List.dropWhile_append_of_pos hpads,hkeep,
    List.reverse_reverse,String.toList_ofList]

theorem pad_rstrip {text : String} {core : List Char} {n : ℕ} (hn : n ≤ 2)
    (hlen : (core.length + n) % 4 = 0) (h : text.toList = core ++ List.replicate n '=')
    (hcore : '=' ∉ core) : pad (rstrip text) = text := by
  have hstrip := rstrip_toList h hcore
  have hlength : (rstrip text).length = core.length := by
    rw [← String.length_toList,hstrip]
  have hpad : (4 - core.length % 4) % 4 = n := by omega
  apply String.toList_injective
  rw [pad,String.toList_append,hstrip,String.toList_ofList,hlength,hpad,h]

theorem splitDot_append {b64Payload sig : String} (h : '.' ∉ b64Payload.toList) :
    splitDot (b64Payload ++ "." ++ sig) = some (b64Payload,sig) := by
  have hall : ∀ c ∈ b64Payload.toList, decide (c ≠ '.') = true := by
    intro c hc
    rw [decide_eq_true_eq]
    rintro rfl
    exact h hc
  have htoken : (b64Payload ++ "." ++ sig).toList = b64Payload.toList ++ '.' :: sig.toList := by
    simp
  simp only [splitDot,htoken,List.dropWhile_append_of_pos hall,List.takeWhile_append_of_pos hall]
  simp

theorem eq_of_splitDot {token b64Payload sig : String}
    (h : splitDot token = some (b64Payload,sig)) : token = b64Payload ++ "." ++ sig := by
  unfold splitDot at h
  split at h
  · cases h
  · rename_i c rest hdrop
    obtain ⟨rfl,rfl⟩ := Prod.mk.inj (Option.some.inj h)
    have hdot : c = '.' := by
      have hhead := List.head?_dropWhile_not (fun c => decide (c ≠ '.')) token.toList
      rw [hdrop] at hhead
      simpa using hhead
    apply String.toList_injective
    rw [String.toList_append,String.toList_append,String.toList_ofList,String.toList_ofList]
    have hparts := List.takeWhile_append_dropWhile (p := fun c => decide (c ≠ '.'))
      (l := token.toList)
    rw [hdrop,hdot] at hparts
    simpa using hparts.symm

section Tokens

variable {lib : StateLib} {settings : Settings} {tenantId : UUID} {channel : OAuthChannel}

def encodedPayload (lib : StateLib) (tenantId : UUID) (channel : OAuthChannel) : String :=
  rstrip (lib.urlsafeB64encode (lib.dumps (statePayload lib tenantId channel)))

theorem splitDot_stateToken (h : RoundTrips lib tenantId channel) :
    splitDot (stateToken lib settings tenantId channel) =
      some (encodedPayload lib tenantId channel,
        lib.hmac (settings.secret channel) (encodedPayload lib tenantId channel)) := by
  obtain ⟨core,n,_,_,htext,heq,hdot⟩ := h.alphabet
  have hstrip : (encodedPayload lib tenantId channel).toList = core := rstrip_toList htext heq
  apply splitDot_append
  show '.' ∉ (encodedPayload lib tenantId channel).toList
  rw [hstrip]
  exact hdot

theorem decode_encodedPayload (h : RoundTrips lib tenantId channel) :
    (lib.urlsafeB64decode (pad (encodedPayload lib tenantId channel))).bind lib.loads =
      .ok (statePayload lib tenantId channel) := by
  obtain ⟨core,n,hn,hlen,htext,heq,_⟩ := h.alphabet
  rw [encodedPayload,pad_rstrip hn hlen htext heq,h.decode]
  exact h.loads

theorem verifyState_stateToken (h : RoundTrips lib tenantId channel) {secret : String}
    {data : List (String × Json)}
    (hok : verifyState lib (stateToken lib settings tenantId channel) secret = .ok data) :
    data = statePayload lib tenantId channel := by
  simp only [verifyState,splitDot_stateToken h,decode_encodedPayload h] at hok
  split_ifs at hok
  exact (Except.ok.inj hok).symm

theorem verifyState_issued (h : RoundTrips lib tenantId channel) :
    verifyState lib (stateToken lib settings tenantId channel) (settings.secret channel) =
      .ok (statePayload lib tenantId channel) := by
  simp only [verifyState,splitDot_stateToken h,decode_encodedPayload h,ne_eq,not_true_eq_false,
    if_false]
  rfl

theorem stateToken_ne_empty (h : RoundTrips lib tenantId channel) :
    stateToken lib settings tenantId channel ≠ "" := by
  intro hempty
  have hnone : splitDot (stateToken lib settings tenantId channel) = none := by
    rw [hempty]
    rfl
  rw [splitDot_stateToken h] at hnone
  cases hnone

/-- Tokens of different tenants or channels are different, whatever secrets sign them. -/
theorem stateToken_inj {settings' : Settings} {tenantId' : UUID} {channel' : OAuthChannel}
    (h : RoundTrips lib tenantId channel) (h' : RoundTrips lib tenantId' channel')
    (hsame : stateToken lib settings tenantId channel =
      stateToken lib settings' tenantId' channel') :
    tenantId = tenantId' ∧ channel = channel' := by
  have hok : verifyState lib (stateToken lib settings' tenantId' channel')
      (settings.secret channel) = .ok (statePayload lib tenantId channel) := by
    rw [← hsame]
    exact verifyState_issued h
  have hfields := verifyState_stateToken h' hok
  simp only [statePayload,List.cons.injEq,Prod.mk.injEq,Json.str.injEq,true_and,and_true] at hfields
  have htenant := h'.parse
  rw [← hfields.2,h.parse] at htenant
  exact ⟨Option.some.inj htenant,OAuthChannel.value_inj hfields.1⟩

theorem splitDot_of_verifyState {token secret : String} {data : List (String × Json)}
    (hok : verifyState lib token secret = .ok data) :
    ∃ b64Payload, splitDot token = some (b64Payload,lib.hmac secret b64Payload) := by
  unfold verifyState at hok
  split at hok
  · cases hok
  · rename_i b64Payload sig hsplit
    split_ifs at hok with hsig
    rw [not_not] at hsig
    exact ⟨b64Payload,by rw [hsplit,hsig]⟩

end Tokens

end OAuth
end LeadEngine
