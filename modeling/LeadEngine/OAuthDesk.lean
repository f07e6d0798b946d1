import LeadEngine.Accounts
import LeadEngine.Agreement
import LeadEngine.OAuthState
import LeadEngine.Routing

/-! The Facebook and Instagram endpoints and the history of their requests: initiations by tenant
users, and callbacks whose state strings are chosen by whoever calls. -/
namespace LeadEngine
namespace OAuth

open Fallible Interpreter Channels Accounts Agreement TransitionSystem

/-- The environment of the exchanges, with the states verified by `verify_state`. -/
def Settings.oauthEnv (settings : Settings) (lib : StateLib) (aes : AesGcm) : OAuthEnv where
  verifyState state secret := (verifyState lib state secret).mapError fun _ => ()
  parseUuid := lib.parseUuid
  metaAppSecret := settings.metaAppSecret
  metaIgAppSecret := settings.metaIgAppSecret
  aes := aes
  encryptionKey := settings.channelCredentialsEncryptionKey

/-- What the Graph API answers to a callback, which endpoint it reached, and its draws. -/
inductive CallbackAnswers
  | facebook (draws : ℕ → Draw) (answers : FacebookAnswers)
  | instagram (draw : Draw) (now : Time) (answers : InstagramAnswers)

def CallbackAnswers.channel : CallbackAnswers → OAuthChannel
  | .facebook .. => .facebook
  | .instagram .. => .instagram

inductive CallbackError
  | badRequest (detail : String)
  | forbidden (detail : String)
  | badGateway (err : ExchangeError)

structure Issue where
  tenantId : UUID
  channel : OAuthChannel
  state : String
  deriving DecidableEq

def Issue.key (i : Issue) : UUID × OAuthChannel := (i.tenantId,i.channel)

structure Desk where
  connections : List ChannelConnection
  issued : List Issue
  accepted : List Issue

def Desk.empty : Desk := ⟨[],[],[]⟩

inductive Request
  | initiate (channel : OAuthChannel) (user : User)
  | callback (code state error : Option String) (answers : CallbackAnswers)

def initiator (user : User) : Option UUID :=
  match requireTenantUser user with
  | .error _ => none
  | .ok user => user.tenantId

section Endpoints

variable [Interpreter]

def exchangeCode (env : OAuthEnv) (table : List ChannelConnection) (state : String) :
    CallbackAnswers → Except ExchangeError (List ChannelConnection × List ChannelConnection)
  | .facebook draws answers => exchangeFacebookCode env table draws state answers
  | .instagram draw now answers =>
    (exchangeInstagramCode env table draw now state answers).map fun r => (r.1,[r.2])

def callbackError : ExchangeError → CallbackError
  | .oauthState => .forbidden "invalid_oauth_state"
  | err => .badGateway err

def oauthCallback (env : OAuthEnv) (table : List ChannelConnection)
    (code state error : Option String) (answers : CallbackAnswers) :
    Except CallbackError (List ChannelConnection × List ChannelConnection) :=
  match truthy error,truthy code,truthy state with
  | none,some _,some state => (exchangeCode env table state answers).mapError callbackError
  | error,_,_ =>
    let channel := match answers.channel with | .facebook => "Facebook" | .instagram => "Instagram"
    .error (.badRequest (channel ++ " OAuth error: " ++ error.getD "missing code or state"))

variable (lib : StateLib) (settings : Settings) (aes : AesGcm)

/-- The connections that a request creates. -/
def created (desk : Desk) : Request → List ChannelConnection
  | .initiate .. => []
  | .callback code state error answers =>
    match oauthCallback (settings.oauthEnv lib aes) desk.connections code state error answers with
    | .error _ => []
    | .ok (_,connections) => connections

/-- What a request adds to the history. -/
def accepted (desk : Desk) : Request → List Issue
  | .initiate .. => []
  | .callback code state error answers =>
    ((created lib settings aes desk (.callback code state error answers)).head?.map
      fun c => ⟨c.tenantId,answers.channel,state.getD ""⟩).toList

def issued : Request → List Issue
  | .initiate channel user =>
    ((initiator user).map fun t =>
      ⟨t,channel,(buildAuthUrl lib settings channel t).state⟩).toList
  | .callback .. => []

def receive (desk : Desk) (request : Request) : Desk where
  connections := desk.connections ++ created lib settings aes desk request
  issued := desk.issued ++ issued lib settings request
  accepted := desk.accepted ++ accepted lib settings aes desk request

/-- A state that an attacker can present: a signature under a secret that is not empty is
known only from a state issued under it. -/
def Presentable (issued : List Issue) (channel : OAuthChannel) (state : String) : Prop :=
  settings.secret channel = "" ∨ ∀ b64Payload sig, splitDot state = some (b64Payload,sig) →
    sig = lib.hmac (settings.secret channel) b64Payload →
      ∃ i ∈ issued, settings.secret i.channel = settings.secret channel ∧
        (splitDot i.state).map Prod.fst = some b64Payload

/-- One request; the state of a callback is any string the attacker can present. -/
def DeskStep (desk : Desk) (request : Request) (desk' : Desk) : Prop :=
  (∀ code state error answers, request = .callback code (some state) error answers →
    Presentable lib settings desk.issued answers.channel state) ∧
  receive lib settings aes desk request = desk'

/-- A request starts a session of its tenant and channel, or finishes one. -/
def event (x : Transition Desk Request) : Event (UUID × OAuthChannel) :=
  match issued lib settings x.2.1,accepted lib settings aes x.1 x.2.1 with
  | i :: _,_ => .start i.key
  | [],i :: _ => .finish i.key
  | [],[] => .silent

/-- A callback that goes through presents a state of its own channel, and under an empty
secret one that was issued. -/
def Honest (desk : Desk) (request : Request) : Prop :=
  ∀ i ∈ accepted lib settings aes desk request,
    (settings.secret i.channel = "" → ∃ j ∈ desk.issued, j.state = i.state) ∧
    ∀ data, verifyState lib i.state (settings.secret i.channel) = .ok data →
      (Json.obj data).get? "channel" = some (.str i.channel.value)

/-- A callback that goes through presents a state that was issued more often than it was
accepted so far. -/
def Unspent (desk : Desk) (request : Request) : Prop :=
  ∀ i ∈ accepted lib settings aes desk request,
    (desk.accepted.map Issue.state).count i.state < (desk.issued.map Issue.state).count i.state

end Endpoints

section Tenants

theorem pageConnections_tenant {env : OAuthEnv} {t : UUID} {draws : ℕ → Draw} {n : ℕ}
    {page : PageVisit} {rows : List ChannelConnection}
    (h : pageConnections env t draws n page = .ok rows) : ∀ r ∈ rows, r.tenantId = t := by
  obtain ⟨pageId,blob,linked,_,_,⟨_,rfl⟩ | ⟨ig,igBlob,_,rfl⟩⟩ := pageConnections_ok h
  · simp [facebookConnection]
  · simp [facebookConnection,pageInstagramConnection]

theorem connectPages_tenant {env : OAuthEnv} {t : UUID} {draws : ℕ → Draw}
    (pages : List PageVisit) {n : ℕ} {rows : List ChannelConnection}
    (h : connectPages env t draws n pages = .ok rows) : ∀ r ∈ rows, r.tenantId = t := by
  induction pages generalizing n rows with
  | nil =>
    obtain rfl := Except.ok.inj h
    simp
  | cons page rest ih =>
    obtain ⟨first,more,hfirst,hmore,rfl⟩ := connectPages_cons h
    intro r hr
    rcases List.mem_append.mp hr with hr | hr
    · exact pageConnections_tenant hfirst r hr
    · exact ih hmore r hr

variable [Interpreter]

theorem exchangeCode_tenant {lib : StateLib} {settings : Settings} {aes : AesGcm}
    {table table' rows : List ChannelConnection} {state : String} {answers : CallbackAnswers}
    (h : exchangeCode (settings.oauthEnv lib aes) table state answers = .ok (table',rows)) :
    ∃ t, stateTenant (settings.oauthEnv lib aes) (settings.secret answers.channel) state = .ok t ∧
      ∀ r ∈ rows, r.tenantId = t := by
  cases answers with
  | facebook draws answers =>
    obtain ⟨t,accounts,ht,_,hpages,_⟩ := exchangeFacebookCode_ok h
    exact ⟨t,ht,connectPages_tenant accounts hpages⟩
  | instagram draw now answers =>
    obtain ⟨⟨_,conn⟩,hexchange,hpair⟩ := map_eq_ok.mp h
    obtain ⟨_,rfl⟩ := Prod.mk.inj hpair
    obtain ⟨t,_,_,_,_,ht,_,rfl,_⟩ := exchangeInstagramCode_ok hexchange
    exact ⟨t,ht,by simp [instagramConnection]⟩

variable {lib : StateLib} {settings : Settings} {aes : AesGcm} {desk desk' : Desk}
  {request : Request}

/-- An accepted callback verified its state, and created rows for the tenant of the state. -/
theorem accepted_inv {i : Issue} (h : i ∈ accepted lib settings aes desk request) :
    ∃ code error answers, request = .callback code (some i.state) error answers ∧
      answers.channel = i.channel ∧
      stateTenant (settings.oauthEnv lib aes) (settings.secret i.channel) i.state =
        .ok i.tenantId ∧
      ∀ c ∈ created lib settings aes desk request, c.tenantId = i.tenantId := by
  cases request with
  | initiate channel user => simp [accepted] at h
  | callback code state error answers =>
    simp only [accepted,Option.mem_toList,Option.map_eq_some_iff] at h
    obtain ⟨c,hhead,rfl⟩ := h
    cases hback : oauthCallback (settings.oauthEnv lib aes) desk.connections code state error
        answers with
    | error err => simp [created,hback] at hhead
    | ok result =>
      obtain ⟨table,connections⟩ := result
      simp only [created,hback] at hhead ⊢
      unfold oauthCallback at hback
      split at hback
      · rename_i st _ _ hstate
        obtain ⟨rfl,_⟩ := truthy_eq_some.mp hstate
        cases hexchange : exchangeCode (settings.oauthEnv lib aes) desk.connections st answers with
        | error err => simp [hexchange,Except.mapError] at hback
        | ok result =>
          obtain rfl : result = (table,connections) := by
            simpa [hexchange,Except.mapError] using hback
          obtain ⟨t,htenant,hrows⟩ := exchangeCode_tenant hexchange
          obtain rfl := hrows c (List.mem_of_head? hhead)
          exact ⟨code,error,answers,rfl,rfl,htenant,hrows⟩
      · cases hback

theorem stateTenant_issued {t : UUID} {channel : OAuthChannel}
    (h : RoundTrips lib t channel) :
    stateTenant (settings.oauthEnv lib aes) (settings.secret channel)
      (stateToken lib settings t channel) = .ok t := by
  have hverify : (settings.oauthEnv lib aes).verifyState (stateToken lib settings t channel)
      (settings.secret channel) = .ok (statePayload lib t channel) := by
    simp only [Settings.oauthEnv,verifyState_issued h]
    rfl
  have hget : (Json.obj (statePayload lib t channel)).get? "tenant_id" =
      some (.str (lib.str t)) := by
    simp [statePayload,Json.get?]
  have hparse : (settings.oauthEnv lib aes).parseUuid (Interpreter.str (.str (lib.str t))) =
      some t := by
    rw [str_str]
    exact h.parse
  simp only [stateTenant,hverify,hget,hparse]

/-- A state that was issued for the endpoint is accepted once the Graph API grants a page. -/
theorem accepted_facebook {t : UUID} (h : RoundTrips lib t .facebook) {code short long : String}
    (hcode : code ≠ "") {draws : ℕ → Draw} {accounts : List PageVisit} {c : ChannelConnection}
    {rest : List ChannelConnection} (hne : accounts ≠ [])
    (hpages : connectPages (settings.oauthEnv lib aes) t draws 0 accounts = .ok (c :: rest)) :
    accepted lib settings aes desk (.callback (some code)
        (some (stateToken lib settings t .facebook)) none
        (.facebook draws ⟨.ok short,.ok long,.ok accounts⟩)) =
      [⟨t,.facebook,stateToken lib settings t .facebook⟩] := by
  have htenant : stateTenant (settings.oauthEnv lib aes) (settings.secret .facebook)
      (stateToken lib settings t .facebook) = .ok t := stateTenant_issued h
  have hsecret : (settings.oauthEnv lib aes).metaAppSecret = settings.secret .facebook := rfl
  have hstate : truthy (some (stateToken lib settings t .facebook)) = _ :=
    truthy_eq_some.mpr ⟨rfl,stateToken_ne_empty h⟩
  have hcode' : truthy (some code) = _ := truthy_eq_some.mpr ⟨rfl,hcode⟩
  have hc : c.tenantId = t := connectPages_tenant accounts hpages c List.mem_cons_self
  simp [accepted,created,oauthCallback,hcode',hstate,exchangeCode,exchangeFacebookCode,hsecret,
    htenant,graph,Except.mapError,hne,hpages,hc,CallbackAnswers.channel]

theorem accepted_instagram {t : UUID} (h : RoundTrips lib t .instagram) {code short long : String}
    (hcode : code ≠ "") {draw : Draw} {now expiresAt : Time} {expiresIn : ℤ}
    {igAccountId username : String} {blob : Bytes}
    (hexpiry : expiryAfter now expiresIn = .ok expiresAt) (hseal : sealCredentials (settings.oauthEnv lib aes) draw
      [("access_token",.str long),("ig_user_id",.str igAccountId),("username",.str username)] =
        .ok blob) :
    accepted lib settings aes desk (.callback (some code)
        (some (stateToken lib settings t .instagram)) none
        (.instagram draw now ⟨.ok short,.ok (long,expiresIn),.ok (igAccountId,username),.ok ()⟩)) =
      [⟨t,.instagram,stateToken lib settings t .instagram⟩] := by
  have htenant : stateTenant (settings.oauthEnv lib aes) (settings.secret .instagram)
      (stateToken lib settings t .instagram) = .ok t := stateTenant_issued h
  have hsecret : (settings.oauthEnv lib aes).metaIgAppSecret = settings.secret .instagram := rfl
  have hstate : truthy (some (stateToken lib settings t .instagram)) = _ :=
    truthy_eq_some.mpr ⟨rfl,stateToken_ne_empty h⟩
  have hcode' : truthy (some code) = _ := truthy_eq_some.mpr ⟨rfl,hcode⟩
  simp [accepted,created,oauthCallback,hcode',hstate,exchangeCode,exchangeInstagramCode,hsecret,
    htenant,graph,Except.mapError,Except.map,hexpiry,hseal,instagramConnection,CallbackAnswers.channel]

theorem verifyState_of_stateTenant {secret state : String} {t : UUID}
    (h : stateTenant (settings.oauthEnv lib aes) secret state = .ok t) :
    ∃ data v, verifyState lib state secret = .ok data ∧
      (Json.obj data).get? "tenant_id" = some v ∧ lib.parseUuid (Interpreter.str v) = some t := by
  simp only [stateTenant,Settings.oauthEnv] at h
  cases hverify : verifyState lib state secret with
  | error err => simp [hverify,Except.mapError] at h
  | ok data =>
    simp only [hverify,Except.mapError] at h
    split at h
    · cases h
    · rename_i v hget
      split at h
      · cases h
      · rename_i u hparse
        obtain rfl := Except.ok.inj h
        exact ⟨data,v,rfl,hget,hparse⟩

end Tenants

end OAuth
end LeadEngine
