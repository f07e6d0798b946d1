import Mathlib.Data.List.Infix
import LeadEngine.Channels

/-! Connecting Meta accounts: the code exchanges of Facebook, Instagram and WhatsApp. The
answers of the Graph API are inputs; each exchange adds its rows in one commit. -/
namespace LeadEngine
namespace OAuth

open Fallible Interpreter Channels

/-- The settings and library functions behind an exchange. -/
structure OAuthEnv where
  verifyState : String → String → Except Unit (List (String × Json))
  parseUuid : String → Option UUID
  metaAppSecret : String
  metaIgAppSecret : String
  aes : AesGcm
  encryptionKey : String

inductive ExchangeError
  | oauthState | channelApi | keyError | valueError | encryption | overflow
  deriving DecidableEq

structure Draw where
  id : UUID
  nonce : Bytes

def sealCredentials (env : OAuthEnv) (draw : Draw) (credentials : Credentials) :
    Except ExchangeError Bytes :=
  (encryptCredentials env.aes draw.nonce credentials env.encryptionKey).mapError
    fun _ => .encryption

/-- `uuid.UUID(str(state_data["tenant_id"]))` of the verified state. -/
def stateTenant [Interpreter] (env : OAuthEnv) (secret state : String) :
    Except ExchangeError UUID :=
  match env.verifyState state secret with
  | .error _ => .error .oauthState
  | .ok data =>
    match (Json.obj data).get? "tenant_id" with
    | none => .error .keyError
    | some tenantId =>
      match env.parseUuid (str tenantId) with
      | none => .error .valueError
      | some u => .ok u

def graph {α : Type} (answer : Except Unit α) : Except ExchangeError α :=
  answer.mapError fun _ => .channelApi

theorem graph_eq_ok {α : Type} {answer : Except Unit α} {a : α} :
    graph answer = .ok a ↔ answer = .ok a := mapError_eq_ok

section Facebook

/-- One page of the account list, a missing key being `none`, and what the Graph API answers
while the page is connected. -/
structure PageVisit where
  id : Option String
  name : Option String
  accessToken : Option String
  subscribePageWebhooks : Except Unit Unit
  fetchConnectedIgAccount : Except Unit (Option String)
  subscribeIgViaPageToken : Except Unit Unit

structure FacebookAnswers where
  shortLived : Except Unit String
  longLived : Except Unit String
  pageAccounts : Except Unit (List PageVisit)

def facebookConnection (tenantId : UUID) (draw : Draw) (pageId pageName : String) (blob : Bytes) :
    ChannelConnection where
  id := draw.id
  tenantId := tenantId
  channelType := .facebook
  status := .active
  credentialsEncrypted := some blob
  expiresAt := none
  connectionMetadata := [("page_id",pageId),("page_name",pageName)]

def pageInstagramConnection (tenantId : UUID) (draw : Draw) (igAccountId : String)
    (blob : Bytes) : ChannelConnection where
  id := draw.id
  tenantId := tenantId
  channelType := .instagram
  status := .active
  credentialsEncrypted := some blob
  expiresAt := none
  connectionMetadata := [("ig_account_id",igAccountId)]

/-- The rows of one page: its own, and one of its linked Instagram account. -/
def pageConnections (env : OAuthEnv) (tenantId : UUID) (draws : ℕ → Draw) (n : ℕ)
    (page : PageVisit) : Except ExchangeError (List ChannelConnection) :=
  match page.id,page.accessToken with
  | some pageId,some token =>
    match graph page.subscribePageWebhooks with
    | .error err => .error err
    | .ok _ =>
      match sealCredentials env (draws n)
        [("page_access_token",.str token),("page_id",.str pageId)] with
      | .error err => .error err
      | .ok blob =>
        let facebook := facebookConnection tenantId (draws n) pageId (page.name.getD "") blob
        match graph page.fetchConnectedIgAccount with
        | .error err => .error err
        | .ok linked =>
          match truthy linked with
          | none => .ok [facebook]
          | some igAccountId =>
            match graph page.subscribeIgViaPageToken with
            | .error err => .error err
            | .ok _ =>
              match sealCredentials env (draws (n+1))
                [("page_access_token",.str token),("ig_account_id",.str igAccountId)] with
              | .error err => .error err
              | .ok igBlob =>
                .ok [facebook,pageInstagramConnection tenantId (draws (n+1)) igAccountId igBlob]
  | _,_ => .error .keyError

theorem pageConnections_ok {env : OAuthEnv} {t : UUID} {draws : ℕ → Draw} {n : ℕ}
    {page : PageVisit} {rows : List ChannelConnection}
    (h : pageConnections env t draws n page = .ok rows) :
    ∃ pageId blob linked, page.id = some pageId ∧ page.fetchConnectedIgAccount = .ok linked ∧
      (truthy linked = none ∧
          rows = [facebookConnection t (draws n) pageId (page.name.getD "") blob] ∨
        ∃ ig igBlob, truthy linked = some ig ∧
          rows = [facebookConnection t (draws n) pageId (page.name.getD "") blob,
            pageInstagramConnection t (draws (n+1)) ig igBlob]) := by
  unfold pageConnections at h
  split at h
  · rename_i pageId token hid _
    split at h
    · cases h
    · split at h
      · cases h
      · rename_i blob _
        dsimp only at h
        split at h
        · cases h
        · rename_i linked hlinked
          refine ⟨pageId,blob,linked,hid,graph_eq_ok.mp hlinked,?_⟩
          split at h
          · rename_i hnone
            exact .inl ⟨hnone,(Except.ok.inj h).symm⟩
          · rename_i ig hsome
            split at h
            · cases h
            · split at h
              · cases h
              · rename_i igBlob _
                exact .inr ⟨ig,igBlob,hsome,(Except.ok.inj h).symm⟩
  · cases h

/-- The loop over the pages; `n` counts the connections made so far. -/
def connectPages (env : OAuthEnv) (tenantId : UUID) (draws : ℕ → Draw) :
    ℕ → List PageVisit → Except ExchangeError (List ChannelConnection)
  | _,[] => .ok []
  | n,page :: rest =>
    match pageConnections env tenantId draws n page with
    | .error err => .error err
    | .ok rows =>
      match connectPages env tenantId draws (n + rows.length) rest with
      | .error err => .error err
      | .ok more => .ok (rows ++ more)

theorem connectPages_cons {env : OAuthEnv} {t : UUID} {draws : ℕ → Draw} {n : ℕ}
    {page : PageVisit} {rest : List PageVisit} {rows : List ChannelConnection}
    (h : connectPages env t draws n (page :: rest) = .ok rows) :
    ∃ first more, pageConnections env t draws n page = .ok first ∧
      connectPages env t draws (n + first.length) rest = .ok more ∧ rows = first ++ more := by
  rw [connectPages] at h
  split at h
  · cases h
  · rename_i first hfirst
    split at h
    · cases h
    · rename_i more hmore
      exact ⟨first,more,hfirst,hmore,(Except.ok.inj h).symm⟩

def exchangeFacebookCode [Interpreter] (env : OAuthEnv) (table : List ChannelConnection)
    (draws : ℕ → Draw) (state : String) (answers : FacebookAnswers) :
    Except ExchangeError (List ChannelConnection × List ChannelConnection) :=
  match stateTenant env env.metaAppSecret state with
  | .error err => .error err
  | .ok tenantId =>
    match graph answers.shortLived,graph answers.longLived,graph answers.pageAccounts with
    | .ok _,.ok _,.ok accounts =>
      if accounts = [] then .error .channelApi
      else
        match connectPages env tenantId draws 0 accounts with
        | .error err => .error err
        | .ok connections => .ok (table ++ connections,connections)
    | _,_,_ => .error .channelApi

theorem exchangeFacebookCode_ok [Interpreter] {env : OAuthEnv}
    {table table' rows : List ChannelConnection} {draws : ℕ → Draw} {state : String}
    {answers : FacebookAnswers}
    (h : exchangeFacebookCode env table draws state answers = .ok (table',rows)) :
    ∃ t accounts, stateTenant env env.metaAppSecret state = .ok t ∧
      answers.pageAccounts = .ok accounts ∧ connectPages env t draws 0 accounts = .ok rows ∧
      table' = table ++ rows := by
  unfold exchangeFacebookCode at h
  split at h
  · cases h
  · rename_i t ht
    split at h
    · rename_i accounts _ _ haccounts
      split_ifs at h
      split at h
      · cases h
      · rename_i connections hpages
        obtain ⟨rfl,rfl⟩ := Prod.mk.inj (Except.ok.inj h)
        exact ⟨t,accounts,ht,graph_eq_ok.mp haccounts,hpages,rfl⟩
    · cases h

end Facebook

section Instagram

structure InstagramAnswers where
  shortLived : Except Unit String
  longLived : Except Unit (String × ℤ)
  account : Except Unit (String × String)
  subscribe : Except Unit Unit

def instagramConnection (tenantId : UUID) (draw : Draw) (igAccountId username : String)
    (expiresAt : Time) (blob : Bytes) : ChannelConnection where
  id := draw.id
  tenantId := tenantId
  channelType := .instagram
  status := .active
  credentialsEncrypted := some blob
  expiresAt := some expiresAt
  connectionMetadata := [("ig_account_id",igAccountId),("username",username)]

/-- `datetime.now(UTC) + timedelta(seconds=expires_in)`. -/
def expiryAfter (now : Time) (expiresIn : ℤ) : Except ExchangeError Time :=
  match addSeconds now expiresIn with
  | none => .error .overflow
  | some expiresAt => .ok expiresAt

theorem expiryAfter_eq_ok {now expiresAt : Time} {n : ℤ} (h : expiryAfter now n = .ok expiresAt) :
    expiresAt = now + n := by
  unfold expiryAfter at h
  split at h
  · cases h
  · rename_i hsum
    rw [← Except.ok.inj h]
    exact (addSeconds_eq_some.mp hsum).1

def exchangeInstagramCode [Interpreter] (env : OAuthEnv) (table : List ChannelConnection)
    (draw : Draw) (now : Time) (state : String) (answers : InstagramAnswers) :
    Except ExchangeError (List ChannelConnection × ChannelConnection) :=
  match stateTenant env env.metaIgAppSecret state with
  | .error err => .error err
  | .ok tenantId =>
    match graph answers.shortLived,graph answers.longLived,graph answers.account,
      graph answers.subscribe with
    | .ok _,.ok (longLived,expiresIn),.ok (igAccountId,username),.ok _ =>
      match expiryAfter now expiresIn with
      | .error err => .error err
      | .ok expiresAt =>
        match sealCredentials env draw [("access_token",.str longLived),
          ("ig_user_id",.str igAccountId),("username",.str username)] with
        | .error err => .error err
        | .ok blob =>
          let conn := instagramConnection tenantId draw igAccountId username expiresAt blob
          .ok (table ++ [conn],conn)
    | _,_,_,_ => .error .channelApi

theorem exchangeInstagramCode_ok [Interpreter] {env : OAuthEnv}
    {table table' : List ChannelConnection} {draw : Draw} {now : Time} {state : String}
    {answers : InstagramAnswers} {conn : ChannelConnection}
    (h : exchangeInstagramCode env table draw now state answers = .ok (table',conn)) :
    ∃ t igAccountId username expiresAt blob, stateTenant env env.metaIgAppSecret state = .ok t ∧
      answers.account = .ok (igAccountId,username) ∧
      conn = instagramConnection t draw igAccountId username expiresAt blob ∧
      table' = table ++ [conn] := by
  unfold exchangeInstagramCode at h
  split at h
  · cases h
  · rename_i t ht
    split at h
    · rename_i haccount _
      split at h
      · cases h
      · split at h
        · cases h
        · obtain ⟨rfl,rfl⟩ := Prod.mk.inj (Except.ok.inj h)
          exact ⟨t,_,_,_,_,ht,graph_eq_ok.mp haccount,rfl,rfl⟩
    · cases h

end Instagram

section Whatsapp

/-- A phone number of a business account; a missing key is `none`. -/
structure PhoneEntry where
  id : Option String
  displayPhoneNumber : Option String

structure WabaVisit where
  subscribeWaba : Except Unit Unit
  phoneNumbers : Except Unit (List PhoneEntry)

structure GranularScope where
  scope : String
  targetIds : List String

structure WhatsappAnswers where
  token : Except Unit String
  granularScopes : Except Unit (List GranularScope)
  visit : String → WabaVisit

/-- The business accounts of the WhatsApp scopes, each once, in order of appearance. -/
def wabaIds (granularScopes : List GranularScope) : List String :=
  ((granularScopes.filter fun g => "whatsapp".toList <:+: g.scope.toList).flatMap
    GranularScope.targetIds).eraseDups

def whatsappConnection (tenantId : UUID) (draw : Draw) (wabaId phoneNumberId display : String)
    (blob : Bytes) : ChannelConnection where
  id := draw.id
  tenantId := tenantId
  channelType := .whatsapp
  status := .active
  credentialsEncrypted := some blob
  expiresAt := none
  connectionMetadata := [("phone_number_id",phoneNumberId),("display_phone_number",display),
    ("waba_id",wabaId)]

def connectPhones (env : OAuthEnv) (tenantId : UUID) (draws : ℕ → Draw) (token wabaId : String) :
    ℕ → List PhoneEntry → Except ExchangeError (List ChannelConnection)
  | _,[] => .ok []
  | n,phone :: rest =>
    match phone.id with
    | none => .error .keyError
    | some phoneNumberId =>
      match sealCredentials env (draws n) [("access_token",.str token),
        ("phone_number_id",.str phoneNumberId),("waba_id",.str wabaId)] with
      | .error err => .error err
      | .ok blob =>
        match connectPhones env tenantId draws token wabaId (n+1) rest with
        | .error err => .error err
        | .ok more => .ok (whatsappConnection tenantId (draws n) wabaId phoneNumberId
            (phone.displayPhoneNumber.getD "") blob :: more)

/-- The loop over the business accounts; `n` counts the connections made so far. -/
def connectWabas (env : OAuthEnv) (tenantId : UUID) (draws : ℕ → Draw) (token : String)
    (visit : String → WabaVisit) :
    ℕ → List String → Except ExchangeError (List ChannelConnection)
  | _,[] => .ok []
  | n,wabaId :: rest =>
    match graph (visit wabaId).subscribeWaba,graph (visit wabaId).phoneNumbers with
    | .ok _,.ok phones =>
      match connectPhones env tenantId draws token wabaId n phones with
      | .error err => .error err
      | .ok rows =>
        match connectWabas env tenantId draws token visit (n + rows.length) rest with
        | .error err => .error err
        | .ok more => .ok (rows ++ more)
    | _,_ => .error .channelApi

/-- Without a connection nothing is committed. -/
def exchangeWhatsappSignupCode (env : OAuthEnv) (table : List ChannelConnection)
    (draws : ℕ → Draw) (tenantId : UUID) (answers : WhatsappAnswers) :
    Except ExchangeError (List ChannelConnection × List ChannelConnection) :=
  match graph answers.token,graph answers.granularScopes with
  | .ok token,.ok scopes =>
    match connectWabas env tenantId draws token answers.visit 0 (wabaIds scopes) with
    | .error err => .error err
    | .ok connections => .ok (table ++ connections,connections)
  | _,_ => .error .channelApi

theorem exchangeWhatsappSignupCode_ok {env : OAuthEnv}
    {table table' rows : List ChannelConnection} {draws : ℕ → Draw} {t : UUID}
    {answers : WhatsappAnswers}
    (h : exchangeWhatsappSignupCode env table draws t answers = .ok (table',rows)) :
    ∃ token scopes, answers.granularScopes = .ok scopes ∧
      connectWabas env t draws token answers.visit 0 (wabaIds scopes) = .ok rows ∧
      table' = table ++ rows := by
  unfold exchangeWhatsappSignupCode at h
  split at h
  · rename_i token scopes _ hscopes
    split at h
    · cases h
    · rename_i connections hwabas
      obtain ⟨rfl,rfl⟩ := Prod.mk.inj (Except.ok.inj h)
      exact ⟨token,scopes,graph_eq_ok.mp hscopes,hwabas,rfl⟩
  · cases h

end Whatsapp

end OAuth
end LeadEngine
