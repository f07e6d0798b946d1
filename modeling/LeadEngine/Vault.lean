import LeadEngine.JsonText
import LeadEngine.LeadAds
import LeadEngine.Lockstep
import LeadEngine.Routing
import LeadEngine.TokenExpiry

/-! Credentials at rest. Over every run of the exchanges and the refresh job, what is sealed opens
again, and nothing that the program does depends on the cipher, its key or its nonces. -/
namespace LeadEngine
namespace Vault

open Fallible Channels OAuth Routing TokenRefresh TransitionSystem Lockstep JsonText
  ByteText

structure Aead where
  encrypt : Bytes → Bytes → Bytes → Bytes
  decrypt : Bytes → Bytes → Bytes → Except Unit Bytes

section Sealing

variable [Floats]

/-- `json.loads(plaintext.decode())`, where the value is an object. -/
def loadCredentials (plaintext : Bytes) : Except Unit Credentials :=
  match utf8Decode plaintext with
  | none => .error ()
  | some text =>
    match loads text.toList with
    | some (.obj payload) => .ok payload
    | _ => .error ()

def Aead.aesGcm (aead : Aead) : AesGcm where
  urlsafeB64decode text :=
    match base64Decode text with
    | none => .error ()
    | some raw => .ok raw
  encrypt := aead.encrypt
  decrypt := aead.decrypt
  dumps payload := utf8Encode (String.ofList (dumps (.obj (Json.sortFields payload))))
  loads := loadCredentials

/-- An AEAD that opens what it sealed, and a key it takes. -/
structure Cipher where
  aead : Aead
  key : String
  valid : ∃ rawKey, decodeKey aead.aesGcm key = .ok rawKey
  opens : ∀ rawKey nonce plaintext, rawKey.length = keySize → nonce.length = nonceSize →
    aead.decrypt rawKey nonce (aead.encrypt rawKey nonce plaintext) = .ok plaintext

variable (cipher cipher' : Cipher) {payload credentials : Credentials}

structure Unseals (blob : Bytes) (credentials : Credentials) : Prop where
  nonempty : blob ≠ []
  opens : decryptCredentials cipher.aead.aesGcm blob cipher.key = .ok credentials

omit [Floats] in
theorem length_decodeKey {aes : AesGcm} {key : String} {rawKey : Bytes}
    (h : decodeKey aes key = .ok rawKey) : rawKey.length = keySize := by
  unfold decodeKey at h
  split at h
  · cases h
  · split_ifs at h with hsize
    obtain rfl := Except.ok.inj h
    exact hsize

theorem opens_of_plain {nonce : Bytes} (hnonce : nonce.length = nonceSize)
    (hplain : Plain (.obj payload)) : Opens cipher.aead.aesGcm cipher.key nonce payload where
  size := hnonce
  cipher rawKey hkey := cipher.opens rawKey nonce _ (length_decodeKey hkey) hnonce
  json := by
    have hsorted : Plain (.obj (Json.sortFields payload)) := plain_sortKeys _ hplain
    simp only [Aead.aesGcm,loadCredentials,utf8Decode_encode,String.toList_ofList,
      loads_dumps hsorted]

theorem sealed {nonce : Bytes} (hnonce : nonce.length = nonceSize)
    (hplain : Plain (.obj payload)) : ∃ blob,
      encryptCredentials cipher.aead.aesGcm nonce payload cipher.key = .ok blob ∧
      Unseals cipher blob (Json.sortFields payload) := by
  obtain ⟨rawKey,hkey⟩ := cipher.valid
  have hseal : encryptCredentials cipher.aead.aesGcm nonce payload cipher.key =
      .ok (nonce ++ cipher.aead.aesGcm.encrypt rawKey nonce (cipher.aead.aesGcm.dumps payload)) :=
    by
    rw [encryptCredentials,hkey]
  refine ⟨_,hseal,fun hnil => ?_,(opens_of_plain cipher hnonce hplain).decrypt hseal⟩
  have hempty := (List.append_eq_nil_iff.mp hnil).1
  simp [hempty,nonceSize] at hnonce

theorem key_ne_empty : cipher.key ≠ "" := by
  intro hkey
  obtain ⟨rawKey,hdecode⟩ := cipher.valid
  have hread : base64Decode "==" = some [] := by decide +kernel
  simp [hkey,decodeKey,Aead.aesGcm,hread,keySize] at hdecode

end Sealing

section Payloads

theorem plain_page (token pageId : String) :
    Plain (.obj [("page_access_token",.str token),("page_id",.str pageId)]) :=
  plain_texts [("page_access_token",token),("page_id",pageId)] (by simp)

theorem plain_account (token igAccountId : String) :
    Plain (.obj [("page_access_token",.str token),("ig_account_id",.str igAccountId)]) :=
  plain_texts [("page_access_token",token),("ig_account_id",igAccountId)] (by simp)

theorem plain_login (token igAccountId username : String) :
    Plain (.obj [("access_token",.str token),("ig_user_id",.str igAccountId),
      ("username",.str username)]) :=
  plain_texts [("access_token",token),("ig_user_id",igAccountId),("username",username)] (by simp)

theorem plain_phone (token phoneNumberId wabaId : String) :
    Plain (.obj [("access_token",.str token),("phone_number_id",.str phoneNumberId),
      ("waba_id",.str wabaId)]) :=
  plain_texts [("access_token",token),("phone_number_id",phoneNumberId),("waba_id",wabaId)]
    (by simp)

theorem keys_setAccessToken (token : Json) (payload : Credentials) :
    (setAccessToken token payload).map Prod.fst = payload.map Prod.fst ∨
      "access_token" ∉ payload.map Prod.fst ∧
        (setAccessToken token payload).map Prod.fst = payload.map Prod.fst ++ ["access_token"] := by
  induction payload with
  | nil => exact .inr ⟨by simp,rfl⟩
  | cons e rest ih =>
    rw [setAccessToken]
    split_ifs with hkey
    · exact .inl rfl
    · simp only [List.map_cons,List.cons.injEq,true_and,List.mem_cons,not_or,List.cons_append]
      exact ih.imp id fun h => ⟨⟨Ne.symm hkey,h.1⟩,h.2⟩

theorem mem_setAccessToken {token : Json} {payload : Credentials} {e : String × Json}
    (h : e ∈ setAccessToken token payload) : e.2 = token ∨ e ∈ payload := by
  induction payload with
  | nil => exact .inl (congrArg Prod.snd (List.mem_singleton.mp h))
  | cons f rest ih =>
    rw [setAccessToken] at h
    split_ifs at h
    · exact (List.mem_cons.mp h).imp (congrArg Prod.snd) (List.mem_cons_of_mem _)
    · rcases List.mem_cons.mp h with rfl | h
      · exact .inr (.head _)
      · exact (ih h).imp id (List.mem_cons_of_mem _)

theorem plain_setAccessToken {token : Json} {payload : Credentials} (htoken : Plain token)
    (h : Plain (.obj payload)) : Plain (.obj (setAccessToken token payload)) := by
  refine ⟨?_,plainFields_iff.mpr fun e he => ?_⟩
  · rcases keys_setAccessToken token payload with hkeys | ⟨hnew,hkeys⟩
    · exact hkeys ▸ h.1
    · rw [hkeys]
      exact h.1.append (List.nodup_singleton _) (by simpa using hnew)
  · rcases mem_setAccessToken he with rfl | hmem
    · exact htoken
    · exact plainFields_iff.mp h.2 e hmem

end Payloads

section Exchanges

variable [Floats] {cipher cipher' : Cipher} {env : OAuthEnv} {t : UUID} {payload : Credentials}

def Cipher.oauthEnv (cipher : Cipher) (env : OAuthEnv) : OAuthEnv :=
  { env with aes := cipher.aead.aesGcm, encryptionKey := cipher.key }

/-- Rows that differ in their blobs only, and blobs that open to the same credentials. -/
structure Twin (cipher cipher' : Cipher) (c c' : ChannelConnection) : Prop where
  row : c' = { c with credentialsEncrypted := c'.credentialsEncrypted }
  blobs : ∃ blob blob' credentials, c.credentialsEncrypted = some blob ∧
    c'.credentialsEncrypted = some blob' ∧ Plain (.obj credentials) ∧
    Unseals cipher blob credentials ∧ Unseals cipher' blob' credentials

/-- One drawn id, and a nonce of the right size in each deployment. -/
structure SameDraw (draw draw' : Draw) : Prop where
  id : draw'.id = draw.id
  nonce : draw.nonce.length = nonceSize
  nonce' : draw'.nonce.length = nonceSize

structure SameBlob (cipher cipher' : Cipher) (payload : Credentials) (blob blob' : Bytes) :
    Prop where
  plain : Plain (.obj payload)
  opens : Unseals cipher blob (Json.sortFields payload)
  opens' : Unseals cipher' blob' (Json.sortFields payload)

variable (cipher cipher' env) in
theorem sealed_alike {draw draw' : Draw} (hdraw : SameDraw draw draw')
    (hplain : Plain (.obj payload)) : ∃ blob blob',
      sealCredentials (cipher.oauthEnv env) draw payload = .ok blob ∧
      sealCredentials (cipher'.oauthEnv env) draw' payload = .ok blob' ∧
      SameBlob cipher cipher' payload blob blob' := by
  obtain ⟨blob,hseal,hopens⟩ := sealed cipher hdraw.nonce hplain
  obtain ⟨blob',hseal',hopens'⟩ := sealed cipher' hdraw.nonce' hplain
  exact ⟨blob,blob',mapError_eq_ok.mpr hseal,mapError_eq_ok.mpr hseal',hplain,hopens,hopens'⟩

theorem SameBlob.twin {c c' : ChannelConnection} {blob blob' : Bytes}
    (h : SameBlob cipher cipher' payload blob blob')
    (hrow : c' = { c with credentialsEncrypted := c'.credentialsEncrypted })
    (hblob : c.credentialsEncrypted = some blob) (hblob' : c'.credentialsEncrypted = some blob') :
    Twin cipher cipher' c c' :=
  ⟨hrow,blob,blob',_,hblob,hblob',plain_sortKeys _ h.plain,h.opens,h.opens'⟩

variable (cipher cipher' env t) in
/-- A page is connected alike in both deployments. -/
theorem page_alike {draws draws' : ℕ → Draw} (hdraws : ∀ n, SameDraw (draws n) (draws' n)) (n : ℕ)
    (page : PageVisit) : Alike (List.Forall₂ (Twin cipher cipher'))
      (pageConnections (cipher.oauthEnv env) t draws n page)
      (pageConnections (cipher'.oauthEnv env) t draws' n page) := by
  unfold pageConnections
  cases page.id with
  | none => exact .raised _
  | some pageId =>
    cases page.accessToken with
    | none => exact .raised _
    | some token =>
      dsimp only
      cases graph page.subscribePageWebhooks with
      | error err => exact .raised err
      | ok _ =>
        obtain ⟨blob,blob',hseal,hseal',hblob⟩ := sealed_alike cipher cipher' env
          (hdraws n) (plain_page token pageId)
        rw [hseal,hseal']
        dsimp only
        have hpage : Twin cipher cipher'
            (facebookConnection t (draws n) pageId (page.name.getD "") blob)
            (facebookConnection t (draws' n) pageId (page.name.getD "") blob') :=
          hblob.twin (by simp [facebookConnection,(hdraws n).id]) rfl rfl
        cases graph page.fetchConnectedIgAccount with
        | error err => exact .raised err
        | ok linked =>
          dsimp only
          cases Interpreter.truthy linked with
          | none => exact .returned (.cons hpage .nil)
          | some igAccountId =>
            dsimp only
            cases graph page.subscribeIgViaPageToken with
            | error err => exact .raised err
            | ok _ =>
              obtain ⟨igBlob,igBlob',higSeal,higSeal',higBlob⟩ := sealed_alike cipher
                cipher' env (hdraws (n+1))
                (plain_account token igAccountId)
              rw [higSeal,higSeal']
              refine .returned (.cons hpage (.cons ?_ .nil))
              exact higBlob.twin (by simp [pageInstagramConnection,(hdraws (n+1)).id]) rfl rfl

variable (cipher cipher' env t) in
theorem pages_alike {draws draws' : ℕ → Draw} (hdraws : ∀ n, SameDraw (draws n) (draws' n))
    (pages : List PageVisit) (n : ℕ) : Alike (List.Forall₂ (Twin cipher cipher'))
      (connectPages (cipher.oauthEnv env) t draws n pages)
      (connectPages (cipher'.oauthEnv env) t draws' n pages) := by
  induction pages generalizing n with
  | nil => exact .returned .nil
  | cons page rest ih =>
    have hpage := page_alike cipher cipher' env t hdraws n page
    rw [connectPages,connectPages]
    generalize pageConnections (cipher.oauthEnv env) t draws n page = rows at hpage
    generalize pageConnections (cipher'.oauthEnv env) t draws' n page = rows' at hpage
    cases hpage with
    | raised err => exact .raised err
    | @returned rows rows' hrows =>
      have hrest := ih (n+rows.length)
      dsimp only
      rw [← hrows.length_eq]
      generalize connectPages (cipher.oauthEnv env) t draws (n+rows.length) rest = more at hrest
      generalize connectPages (cipher'.oauthEnv env) t draws' (n+rows.length) rest = more' at hrest
      cases hrest with
      | raised err => exact .raised err
      | returned hmore => exact .returned (List.rel_append hrows hmore)

variable (cipher cipher' env t) in
theorem phones_alike {draws draws' : ℕ → Draw} (hdraws : ∀ n, SameDraw (draws n) (draws' n))
    (token wabaId : String) (phones : List PhoneEntry) (n : ℕ) :
    Alike (List.Forall₂ (Twin cipher cipher'))
      (connectPhones (cipher.oauthEnv env) t draws token wabaId n phones)
      (connectPhones (cipher'.oauthEnv env) t draws' token wabaId n phones) := by
  induction phones generalizing n with
  | nil => exact .returned .nil
  | cons phone rest ih =>
    rw [connectPhones,connectPhones]
    cases phone.id with
    | none => exact .raised _
    | some phoneNumberId =>
      obtain ⟨blob,blob',hseal,hseal',hblob⟩ := sealed_alike cipher cipher' env
        (hdraws n) (plain_phone token phoneNumberId wabaId)
      dsimp only
      rw [hseal,hseal']
      dsimp only
      have hrest := ih (n+1)
      generalize connectPhones (cipher.oauthEnv env) t draws token wabaId (n+1) rest = more at hrest
      generalize connectPhones (cipher'.oauthEnv env) t draws' token wabaId (n+1) rest = more'
        at hrest
      cases hrest with
      | raised err => exact .raised err
      | returned hmore =>
        refine .returned (.cons ?_ hmore)
        exact hblob.twin (by simp [whatsappConnection,(hdraws n).id]) rfl rfl

variable (cipher cipher' env t) in
theorem wabas_alike {draws draws' : ℕ → Draw} (hdraws : ∀ n, SameDraw (draws n) (draws' n))
    (token : String) (visit : String → WabaVisit) (ids : List String) (n : ℕ) :
    Alike (List.Forall₂ (Twin cipher cipher'))
      (connectWabas (cipher.oauthEnv env) t draws token visit n ids)
      (connectWabas (cipher'.oauthEnv env) t draws' token visit n ids) := by
  induction ids generalizing n with
  | nil => exact .returned .nil
  | cons wabaId rest ih =>
    rw [connectWabas,connectWabas]
    cases graph (visit wabaId).subscribeWaba with
    | error err => exact .raised _
    | ok _ =>
      cases graph (visit wabaId).phoneNumbers with
      | error err => exact .raised _
      | ok phones =>
        have hphones := phones_alike cipher cipher' env t hdraws
          token wabaId phones n
        dsimp only
        generalize connectPhones (cipher.oauthEnv env) t draws token wabaId n phones = rows
          at hphones
        generalize connectPhones (cipher'.oauthEnv env) t draws' token wabaId n phones = rows'
          at hphones
        cases hphones with
        | raised err => exact .raised err
        | @returned rows rows' hrows =>
          have hrest := ih (n+rows.length)
          dsimp only
          rw [← hrows.length_eq]
          generalize connectWabas (cipher.oauthEnv env) t draws token visit (n+rows.length) rest =
            more at hrest
          generalize connectWabas (cipher'.oauthEnv env) t draws' token visit (n+rows.length) rest =
            more' at hrest
          cases hrest with
          | raised err => exact .raised err
          | returned hmore => exact .returned (List.rel_append hrows hmore)

theorem facebook_alike [Interpreter] {table table' : List ChannelConnection}
    (htables : List.Forall₂ (Twin cipher cipher') table table') {draws draws' : ℕ → Draw}
    (hdraws : ∀ n, SameDraw (draws n) (draws' n)) (state : String) (answers : FacebookAnswers) :
    Alike (List.Forall₂ (Twin cipher cipher'))
      ((exchangeFacebookCode (cipher.oauthEnv env) table draws state answers).map Prod.fst)
      ((exchangeFacebookCode (cipher'.oauthEnv env) table' draws' state answers).map Prod.fst) := by
  unfold exchangeFacebookCode
  have hstate : ∀ k : Cipher,
      stateTenant (k.oauthEnv env) (k.oauthEnv env).metaAppSecret state =
        stateTenant env env.metaAppSecret state := fun _ => rfl
  rw [hstate,hstate]
  cases stateTenant env env.metaAppSecret state with
  | error err => exact .raised err
  | ok tenantId =>
    cases graph answers.shortLived with
    | error err => exact .raised _
    | ok _ =>
      cases graph answers.longLived with
      | error err => exact .raised _
      | ok _ =>
        cases graph answers.pageAccounts with
        | error err => exact .raised _
        | ok accounts =>
          dsimp only
          split_ifs
          · exact .raised _
          · have hpages := pages_alike cipher cipher' env tenantId
              hdraws accounts 0
            generalize connectPages (cipher.oauthEnv env) tenantId draws 0 accounts = rows at hpages
            generalize connectPages (cipher'.oauthEnv env) tenantId draws' 0 accounts = rows'
              at hpages
            cases hpages with
            | raised err => exact .raised err
            | returned hrows => exact .returned (List.rel_append htables hrows)

theorem instagram_alike [Interpreter] {table table' : List ChannelConnection}
    (htables : List.Forall₂ (Twin cipher cipher') table table') {draw draw' : Draw}
    (hdraw : SameDraw draw draw') (now : Time) (state : String) (answers : InstagramAnswers) :
    Alike (List.Forall₂ (Twin cipher cipher'))
      ((exchangeInstagramCode (cipher.oauthEnv env) table draw now state answers).map Prod.fst)
      ((exchangeInstagramCode (cipher'.oauthEnv env) table' draw' now state answers).map
        Prod.fst) := by
  unfold exchangeInstagramCode
  have hstate : ∀ k : Cipher,
      stateTenant (k.oauthEnv env) (k.oauthEnv env).metaIgAppSecret state =
        stateTenant env env.metaIgAppSecret state := fun _ => rfl
  rw [hstate,hstate]
  cases stateTenant env env.metaIgAppSecret state with
  | error err => exact .raised err
  | ok tenantId =>
    cases graph answers.shortLived with
    | error err => exact .raised _
    | ok _ =>
      cases graph answers.longLived with
      | error err => exact .raised _
      | ok longLived =>
        cases graph answers.account with
        | error err => exact .raised _
        | ok account =>
          cases graph answers.subscribe with
          | error err => exact .raised _
          | ok _ =>
            dsimp only
            cases expiryAfter now longLived.2 with
            | error err => exact .raised _
            | ok expiresAt =>
              obtain ⟨blob,blob',hseal,hseal',hblob⟩ := sealed_alike cipher cipher' env
                hdraw (plain_login longLived.1 account.1 account.2)
              dsimp only
              rw [hseal,hseal']
              refine .returned (List.rel_append htables (.cons ?_ .nil))
              exact hblob.twin (by simp [OAuth.instagramConnection,hdraw.id]) rfl rfl

theorem whatsapp_alike {table table' : List ChannelConnection}
    (htables : List.Forall₂ (Twin cipher cipher') table table') {draws draws' : ℕ → Draw}
    (hdraws : ∀ n, SameDraw (draws n) (draws' n)) (answers : WhatsappAnswers) :
    Alike (List.Forall₂ (Twin cipher cipher'))
      ((exchangeWhatsappSignupCode (cipher.oauthEnv env) table draws t answers).map Prod.fst)
      ((exchangeWhatsappSignupCode (cipher'.oauthEnv env) table' draws' t answers).map Prod.fst) := by
  unfold exchangeWhatsappSignupCode
  cases graph answers.token with
  | error err => exact .raised _
  | ok token =>
    cases graph answers.granularScopes with
    | error err => exact .raised _
    | ok scopes =>
      have hwabas := wabas_alike cipher cipher' env t hdraws token
        answers.visit (wabaIds scopes) 0
      dsimp only
      generalize connectWabas (cipher.oauthEnv env) t draws token answers.visit 0 (wabaIds scopes) =
        rows at hwabas
      generalize connectWabas (cipher'.oauthEnv env) t draws' token answers.visit 0
        (wabaIds scopes) = rows' at hwabas
      cases hwabas with
      | raised err => exact .raised err
      | returned hrows => exact .returned (List.rel_append htables hrows)

end Exchanges

section Refresh

variable [Floats] {cipher cipher' : Cipher} {renv : RefreshEnv} {nonce nonce' : UUID → Bytes}
  {c c' : ChannelConnection}

def Cipher.refreshEnv (cipher : Cipher) (renv : RefreshEnv) (nonce : UUID → Bytes) : RefreshEnv :=
  { renv with key := cipher.key, aes := cipher.aead.aesGcm, nonce := nonce }

/-- Every nonce has the right size, and a new token has no floats in it. -/
structure Orderly (renv : RefreshEnv) (nonce : UUID → Bytes) : Prop where
  size : ∀ id, (nonce id).length = nonceSize
  plain : ∀ id token newData token', renv.callRefreshApi id token = .ok newData →
    (Json.obj newData).get? "access_token" = some token' → Plain token'

@[simp] theorem refreshEnv_now : (cipher.refreshEnv renv nonce).now = renv.now := rfl

@[simp] theorem refreshEnv_int : (cipher.refreshEnv renv nonce).int = renv.int := rfl

@[simp] theorem refreshEnv_callRefreshApi :
    (cipher.refreshEnv renv nonce).callRefreshApi = renv.callRefreshApi := rfl

variable (renv nonce) in
theorem existing_of_unseals {blob : Bytes} {credentials : Credentials}
    (hblob : c.credentialsEncrypted = some blob) (hopens : Unseals cipher blob credentials) :
    existingCredentials (cipher.refreshEnv renv nonce) c = some credentials :=
  (existingCredentials_eq_some (key_ne_empty cipher) hblob hopens.nonempty credentials).mpr
    ⟨blob,hblob,hopens.opens⟩

variable (cipher renv) (c) in
theorem resealed_of_plain {payload : Credentials} (hsize : (nonce c.id).length = nonceSize)
    (hplain : Plain (.obj payload)) : ∃ blob,
      resealed (cipher.refreshEnv renv nonce) c payload = .ok (some blob) ∧
      Unseals cipher blob (Json.sortFields payload) := by
  obtain ⟨blob,hseal,hopens⟩ := sealed cipher hsize hplain
  refine ⟨blob,?_,hopens⟩
  have hkey : ¬ (cipher.refreshEnv renv nonce).key = "" := key_ne_empty cipher
  have hseal' : encryptCredentials (cipher.refreshEnv renv nonce).aes
      ((cipher.refreshEnv renv nonce).nonce c.id) payload (cipher.refreshEnv renv nonce).key =
      .ok blob := hseal
  rw [resealed,if_neg hkey,hseal']

/-- A connection is refreshed alike in both deployments. -/
theorem refresh_alike (h : Orderly renv nonce) (h' : Orderly renv nonce')
    (htwin : Twin cipher cipher' c c') : Alike (Twin cipher cipher')
      (refreshConnection (cipher.refreshEnv renv nonce) c)
      (refreshConnection (cipher'.refreshEnv renv nonce') c') := by
  obtain ⟨hrow,blob,blob',credentials,hblob,hblob',hplain,hopens,hopens'⟩ := htwin
  have hexisting := existing_of_unseals renv nonce hblob hopens
  have hexisting' := existing_of_unseals renv nonce' hblob' hopens'
  unfold refreshConnection
  rw [hexisting,hexisting']
  obtain ⟨id,tenantId,channelType,status,_,expiresAt,metadata⟩ := c
  rw [hblob'] at hrow
  subst hrow hblob
  dsimp only
  cases expiresAt with
  | none => exact .returned ⟨rfl,blob,blob',credentials,rfl,rfl,hplain,hopens,hopens'⟩
  | some expiresAt =>
    dsimp only
    by_cases hlapsed : expiresAt ≤ renv.now
    · rw [if_pos (show expiresAt ≤ (cipher.refreshEnv renv nonce).now from hlapsed),
        if_pos (show expiresAt ≤ (cipher'.refreshEnv renv nonce').now from hlapsed)]
      exact .returned ⟨rfl,blob,blob',credentials,rfl,rfl,hplain,hopens,hopens'⟩
    rw [if_neg (show ¬ expiresAt ≤ (cipher.refreshEnv renv nonce).now from hlapsed),
      if_neg (show ¬ expiresAt ≤ (cipher'.refreshEnv renv nonce').now from hlapsed)]
    by_cases hsoon : expiresAt-renv.now < refreshWindow
    · rw [if_pos (show expiresAt-(cipher.refreshEnv renv nonce).now < _ from hsoon),
        if_pos (show expiresAt-(cipher'.refreshEnv renv nonce').now < _ from hsoon)]
      simp only [refreshEnv_now,refreshEnv_int,refreshEnv_callRefreshApi]
      cases hcall : renv.callRefreshApi id
          (((Json.obj credentials).get? "access_token").getD (.str "")) with
      | error err => exact .raised _
      | ok newData =>
        dsimp only
        cases htoken : (Json.obj newData).get? "access_token" with
        | none => exact .raised _
        | some token =>
          have hnew := plain_setAccessToken (h.plain _ _ _ _ hcall htoken) hplain
          obtain ⟨new,hsealed,hnewOpens⟩ := resealed_of_plain cipher renv
            ⟨id,tenantId,channelType,status,some blob,some expiresAt,metadata⟩ (h.size id) hnew
          obtain ⟨new',hsealed',hnewOpens'⟩ := resealed_of_plain cipher' renv
            ⟨id,tenantId,channelType,status,some blob',some expiresAt,metadata⟩ (h'.size id) hnew
          simp only [hsealed,hsealed']
          cases renv.int (((Json.obj newData).get? "expires_in").getD (.int 5183944)) with
          | none => exact .raised _
          | some expiresIn =>
            dsimp only
            cases addSeconds renv.now expiresIn with
            | none => exact .raised _
            | some expiresAt =>
              exact .returned ⟨rfl,new,new',_,rfl,rfl,plain_sortKeys _ hnew,hnewOpens,hnewOpens'⟩
    · rw [if_neg (show ¬ expiresAt-(cipher.refreshEnv renv nonce).now < _ from hsoon),
        if_neg (show ¬ expiresAt-(cipher'.refreshEnv renv nonce').now < _ from hsoon)]
      exact .returned ⟨rfl,blob,blob',credentials,rfl,rfl,hplain,hopens,hopens'⟩

/-- The job goes through the connections alike, and stops at the same one. -/
theorem job_alike (h : Orderly renv nonce) (h' : Orderly renv nonce')
    {table table' : List ChannelConnection}
    (htables : List.Forall₂ (Twin cipher cipher') table table') :
    List.Forall₂ (Twin cipher cipher')
      (refreshInstagramTokens (cipher.refreshEnv renv nonce) table).1
      (refreshInstagramTokens (cipher'.refreshEnv renv nonce') table').1 ∧
    (refreshInstagramTokens (cipher.refreshEnv renv nonce) table).2 =
      (refreshInstagramTokens (cipher'.refreshEnv renv nonce') table').2 := by
  induction htables with
  | nil => exact ⟨.nil,rfl⟩
  | @cons c c' rest rest' htwin hrest ih =>
    obtain ⟨hkept,hresult⟩ := ih
    have hselected : Selected c' ↔ Selected c := by
      rw [Selected,Selected,htwin.row]
    rw [refreshInstagramTokens,refreshInstagramTokens]
    by_cases hs : Selected c
    · rw [if_pos hs,if_pos (hselected.mpr hs)]
      have hpass := refresh_alike h h' htwin
      generalize refreshConnection (cipher.refreshEnv renv nonce) c = x at hpass
      generalize refreshConnection (cipher'.refreshEnv renv nonce') c' = y at hpass
      cases hpass with
      | raised err => exact ⟨.cons htwin hrest,rfl⟩
      | returned hrow => exact ⟨.cons hrow hkept,hresult⟩
    · rw [if_neg hs,if_neg (mt hselected.mp hs)]
      exact ⟨.cons htwin hkept,hresult⟩

end Refresh

section Lookups

variable [Floats] {cipher cipher' : Cipher} {table table' : List ChannelConnection}

theorem lookup_alike {ε : Type} (err : ε) {p : ChannelConnection → Bool}
    (hp : ∀ c blob, p { c with credentialsEncrypted := blob } = p c)
    (h : List.Forall₂ (Twin cipher cipher') table table') :
    Alike (Option.Rel (Twin cipher cipher')) (Table.scalarOneOrNone err (table.filter p))
      (Table.scalarOneOrNone err (table'.filter p)) := by
  have hfiltered := forall₂_filter (p:=p) (q:=p) h fun c c' htwin => by
    rw [htwin.row]
    exact (hp c _).symm
  generalize table.filter p = found at hfiltered
  generalize table'.filter p = found' at hfiltered
  cases hfiltered with
  | nil => exact .returned .none
  | cons htwin hrest =>
    cases hrest with
    | nil => exact .returned (.some htwin)
    | cons _ _ => exact .raised err

def Cipher.leadAdEnv (cipher : Cipher) (lenv : LeadAds.LeadAdEnv)
    (table : List ChannelConnection) : LeadAds.LeadAdEnv :=
  { lenv with connections := table, aes := cipher.aead.aesGcm, encryptionKey := cipher.key }

theorem fetch_alike (h : List.Forall₂ (Twin cipher cipher') table table')
    (lenv : LeadAds.LeadAdEnv) (job : LeadAds.LeadAdPayload) :
    LeadAds.fetchFields (cipher.leadAdEnv lenv table) job =
      LeadAds.fetchFields (cipher'.leadAdEnv lenv table') job := by
  have hlookup := lookup_alike (.multipleResultsFound : LookupError)
    (p:=fun c => c.id = job.channelConnectionId) (fun _ _ => rfl) h
  unfold LeadAds.fetchFields
  simp only [getChannelConnection,Cipher.leadAdEnv]
  generalize Table.scalarOneOrNone _ (table.filter _) = found at hlookup ⊢
  generalize Table.scalarOneOrNone _ (table'.filter _) = found' at hlookup ⊢
  cases hlookup with
  | raised err => rfl
  | returned hrel =>
    cases hrel with
    | none => rfl
    | @some c c' htwin =>
      obtain ⟨_,blob,blob',credentials,hblob,hblob',_,hopens,hopens'⟩ := htwin
      dsimp only
      rw [hblob,hblob']
      cases blob with
      | nil => exact absurd rfl hopens.nonempty
      | cons b bs =>
        cases blob' with
        | nil => exact absurd rfl hopens'.nonempty
        | cons b' bs' =>
          dsimp only
          rw [hopens.opens,hopens'.opens]

end Lookups

section Runs

variable [Floats] [Interpreter] {cipher cipher' : Cipher} {env : OAuthEnv}

/-- A call as two deployments make it: the states, the answers of Meta, the drawn ids and the clock
are the same, the nonces are each deployment's own. -/
inductive SameOp (cipher cipher' : Cipher) : ConnectOp → ConnectOp → Prop
  | facebook (state : String) (answers : FacebookAnswers) (draws draws' : ℕ → Draw)
      (h : ∀ n, SameDraw (draws n) (draws' n)) :
      SameOp cipher cipher' (.exchangeFacebookCode state answers draws)
        (.exchangeFacebookCode state answers draws')
  | instagram (state : String) (answers : InstagramAnswers) (draw draw' : Draw) (now : Time)
      (h : SameDraw draw draw') :
      SameOp cipher cipher' (.exchangeInstagramCode state answers draw now)
        (.exchangeInstagramCode state answers draw' now)
  | whatsapp (tenantId : UUID) (answers : WhatsappAnswers) (draws draws' : ℕ → Draw)
      (h : ∀ n, SameDraw (draws n) (draws' n)) :
      SameOp cipher cipher' (.exchangeWhatsappSignupCode tenantId answers draws)
        (.exchangeWhatsappSignupCode tenantId answers draws')
  | refresh (renv : RefreshEnv) (nonce nonce' : UUID → Bytes) (h : Orderly renv nonce)
      (h' : Orderly renv nonce') :
      SameOp cipher cipher' (.refreshInstagramTokens (cipher.refreshEnv renv nonce))
        (.refreshInstagramTokens (cipher'.refreshEnv renv nonce'))

/-- The call is the same one, and it commits in both deployments or in none. -/
def SameCall (cipher cipher' : Cipher) (a a' : ConnectOp × Bool) : Prop :=
  SameOp cipher cipher' a.1 a'.1 ∧ a'.2 = a.2

theorem exec_alike {table table' : List ChannelConnection} {op op' : ConnectOp}
    (htables : List.Forall₂ (Twin cipher cipher') table table') (hop : SameOp cipher cipher' op op') :
    Alike (List.Forall₂ (Twin cipher cipher')) (op.exec (cipher.oauthEnv env) table)
      (op'.exec (cipher'.oauthEnv env) table') := by
  cases hop with
  | facebook state answers draws draws' hdraws => exact facebook_alike htables hdraws state answers
  | instagram state answers draw draw' now hdraw =>
    exact instagram_alike htables hdraw now state answers
  | whatsapp tenantId answers draws draws' hdraws => exact whatsapp_alike htables hdraws answers
  | refresh renv nonce nonce' h h' => exact .returned (job_alike h h' htables).1

theorem step_alike {table table₁ table' : List ChannelConnection} {a a' : ConnectOp × Bool}
    (htables : List.Forall₂ (Twin cipher cipher') table table') (hcall : SameCall cipher cipher' a a')
    (h : ConnectStep (cipher.oauthEnv env) table a table₁) :
    ∃ table₁', ConnectStep (cipher'.oauthEnv env) table' a' table₁' ∧
      List.Forall₂ (Twin cipher cipher') table₁ table₁' := by
  obtain ⟨op',commits⟩ := a'
  obtain ⟨hop,hcommits⟩ := hcall
  dsimp only at hop hcommits
  subst hcommits
  cases h with
  | commit hexec =>
    obtain ⟨table₁',hexec',hrows⟩ := (exec_alike htables hop).ok hexec
    exact ⟨table₁',.commit hexec',hrows⟩
  | raised op => exact ⟨table',.raised table' op',htables⟩

/-- A run is the same under every cipher, key and nonces: the same calls commit, the tables differ
in their blobs only, what is sealed opens to the same credentials, and every lead ads job does the
same. -/
theorem cipher_transparent {table : List ChannelConnection}
    {tr : List (Transition (List ChannelConnection) (ConnectOp × Bool))}
    (h : Path (ConnectStep (cipher.oauthEnv env)) [] tr table) {calls : List (ConnectOp × Bool)}
    (hcalls : List.Forall₂ (SameCall cipher cipher') (tr.map fun t => t.2.1) calls) :
    ∃ tr' table', Path (ConnectStep (cipher'.oauthEnv env)) [] tr' table' ∧
      tr'.map (fun t => t.2.1) = calls ∧ List.Forall₂ (Twin cipher cipher') table table' ∧
      ∀ lenv job s f, LeadAds.runLeadAdCapture s f (cipher.leadAdEnv lenv table) job =
        LeadAds.runLeadAdCapture s f (cipher'.leadAdEnv lenv table') job := by
  obtain ⟨tr',table',hpath,hmap,hrows⟩ := follows (ConnectStep (cipher'.oauthEnv env))
    (R:=List.Forall₂ (Twin cipher cipher')) h .nil
    (fun _ _ _ _ _ htables hcall hstep => step_alike htables hcall hstep) hcalls
  refine ⟨tr',table',hpath,hmap,hrows,fun lenv job s f => ?_⟩
  unfold LeadAds.runLeadAdCapture
  rw [fetch_alike hrows]
  rfl

end Runs

section Demo

/-- An AEAD that seals one text as AES-256-GCM does, and puts sixteen zeros after any other. -/
def knownAead (rawKey nonce plaintext ciphertext : Bytes) : Aead where
  encrypt key n text :=
    if key = rawKey ∧ n = nonce ∧ text = plaintext then ciphertext
    else text ++ List.replicate 16 0
  decrypt key n blob :=
    if key = rawKey ∧ n = nonce ∧ blob = ciphertext then .ok plaintext
    else .ok (blob.take (blob.length-16))

theorem knownAead_opens {rawKey nonce plaintext ciphertext : Bytes}
    (hends : ciphertext.drop (ciphertext.length-16) ≠ List.replicate 16 0) (key n text : Bytes) :
    (knownAead rawKey nonce plaintext ciphertext).decrypt key n
      ((knownAead rawKey nonce plaintext ciphertext).encrypt key n text) = .ok text := by
  by_cases hknown : key = rawKey ∧ n = nonce ∧ text = plaintext
  · obtain ⟨rfl,rfl,rfl⟩ := hknown
    simp [knownAead]
  · have hother : text ++ List.replicate 16 0 ≠ ciphertext := by
      rintro rfl
      simp at hends
    dsimp only [knownAead]
    rw [if_neg hknown,if_neg fun h => hother h.2.2]
    simp

def pageText : Bytes := utf8Encode "\x7b\"page_access_token\": \"EAAB\", \"page_id\": \"p1\"\x7d"

/-- The AES-256-GCM ciphertexts of that text, under the keys of bytes 0 to 31 and 32 to 63 and the
nonces of bytes 0 to 11 and 12 to 23. -/
def firstSealed : Bytes := [60,32,166,122,162,128,157,122,238,34,242,248,194,182,12,2,232,179,233,
  22,202,91,125,57,121,38,167,167,49,73,34,194,96,119,203,163,198,165,48,162,84,134,15,220,170,250,
  140,184,209,17,253,125,8,254,19,173,167,159,56,136,117,96]

def secondSealed : Bytes := [153,24,62,84,83,88,95,222,189,54,129,135,129,138,151,168,197,243,69,
  149,241,140,187,1,230,153,253,62,7,46,170,55,142,105,101,28,22,116,52,56,193,111,88,63,177,30,242,
  255,89,115,76,131,153,241,254,77,198,104,233,171,111,185]

def firstCipher : @Cipher noFloats :=
  letI := noFloats
  { aead := knownAead (byteRange 0 32) (byteRange 0 12) pageText firstSealed
    key := "AAECAwQFBgcICQoLDA0ODxAREhMUFRYXGBkaGxwdHh8="
    valid := ⟨byteRange 0 32,rfl⟩
    opens := fun key nonce text _ _ => knownAead_opens (by decide +kernel) key nonce text }

def secondCipher : @Cipher noFloats :=
  letI := noFloats
  { aead := knownAead (byteRange 32 32) (byteRange 12 12) pageText secondSealed
    key := "ICEiIyQlJicoKSorLC0uLzAxMjM0NTY3ODk6Ozw9Pj8="
    valid := ⟨byteRange 32 32,rfl⟩
    opens := fun key nonce text _ _ => knownAead_opens (by decide +kernel) key nonce text }

def tenantEnv : OAuthEnv where
  verifyState _ _ := .ok [("tenant_id",.str "00000000-0000-0000-0000-000000000001")]
  parseUuid _ := some 1
  metaAppSecret := "app"
  metaIgAppSecret := "instagram"
  aes := TokenRefresh.demoAes
  encryptionKey := ""

def onePage : FacebookAnswers where
  shortLived := .ok "short"
  longLived := .ok "long"
  pageAccounts := .ok [⟨some "p1",some "Clinic",some "EAAB",.ok (),.ok none,.ok ()⟩]

def pageExchange (first : ℕ) : ConnectOp :=
  .exchangeFacebookCode "state" onePage fun n => ⟨n+1,byteRange first 12⟩

/-- The exchange of a page under two ciphers. -/
theorem page_exchange_transparent :
    letI := noFloats
    letI := Interpreter.ascii id
    ∃ table tr' table', ConnectStep (firstCipher.oauthEnv tenantEnv) [] (pageExchange 0,true) table ∧
      Path (ConnectStep (secondCipher.oauthEnv tenantEnv)) [] tr' table' ∧
      tr'.map (fun t => t.2.1) = [(pageExchange 12,true)] ∧
      List.Forall₂ (Twin firstCipher secondCipher) table table' ∧
      ∀ lenv job s f, LeadAds.runLeadAdCapture s f (firstCipher.leadAdEnv lenv table) job =
        LeadAds.runLeadAdCapture s f (secondCipher.leadAdEnv lenv table') job := by
  let := noFloats
  let := Interpreter.ascii id
  have hok : ((pageExchange 0).exec (firstCipher.oauthEnv tenantEnv) []).isOk = true := by
    decide +kernel
  obtain ⟨table,hexec⟩ := isOk_iff.mp hok
  have hstep := ConnectStep.commit hexec
  have hcall : SameCall firstCipher secondCipher (pageExchange 0,true) (pageExchange 12,true) :=
    ⟨.facebook _ _ _ _ fun n => ⟨rfl,rfl,rfl⟩,rfl⟩
  obtain ⟨tr',table',hpath,hcalls,hrows,hjobs⟩ :=
    cipher_transparent (Path.nil.snoc hstep) (.cons hcall .nil)
  exact ⟨table,tr',table',hstep,hpath,hcalls,hrows,hjobs⟩

end Demo

end Vault
end LeadEngine
