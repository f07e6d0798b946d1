import LeadEngine.Channels

/-! The daily refresh of Instagram tokens: each active Instagram connection is marked
expired, refreshed or left alone, and committed before the next one is looked at. -/
namespace LeadEngine
namespace TokenRefresh

open Channels

def refreshWindow : ℤ := 7 * 86400

/-- What a refresh run works with: the key, the cipher, the clock, the nonces, the conversion
`int(value)`, and the answer of the refresh endpoint for each connection and token, an error also
for a body that is no object. -/
structure RefreshEnv where
  key : String
  aes : AesGcm
  now : Time
  nonce : UUID → Bytes
  int : Json → Option ℤ
  callRefreshApi : UUID → Json → Except Unit Credentials

inductive RefreshError
  | refreshApi | keyError | valueError | encryption | overflow
  deriving DecidableEq

def setAccessToken (token : Json) : Credentials → Credentials
  | [] => [("access_token",token)]
  | (k,v) :: rest =>
    if k = "access_token" then (k,token) :: rest else (k,v) :: setAccessToken token rest

/-- The stored credentials; `{}` without a blob or a key, `none` when decryption raises. -/
def existingCredentials (env : RefreshEnv) (c : ChannelConnection) : Option Credentials :=
  match c.credentialsEncrypted with
  | none | some [] => some []
  | some blob =>
    if env.key = "" then some []
    else (decryptCredentials env.aes blob env.key).toOption

/-- The new blob; without a key the old one stays. -/
def resealed (env : RefreshEnv) (c : ChannelConnection) (credentials : Credentials) :
    Except RefreshError (Option Bytes) :=
  if env.key = "" then .ok c.credentialsEncrypted
  else
    match encryptCredentials env.aes (env.nonce c.id) credentials env.key with
    | .error _ => .error .encryption
    | .ok blob => .ok (some blob)

/-- One pass of the loop: the row as it is committed, or what the pass raises. -/
def refreshConnection (env : RefreshEnv) (c : ChannelConnection) :
    Except RefreshError ChannelConnection :=
  match c.expiresAt with
  | none => .ok c
  | some expiresAt =>
    if expiresAt ≤ env.now then .ok { c with status := .expired }
    else if expiresAt - env.now < refreshWindow then
      match existingCredentials env c with
      | none => .ok { c with status := .expired }
      | some credentials =>
        match env.callRefreshApi c.id
          (((Json.obj credentials).get? "access_token").getD (.str "")) with
        | .error _ => .error .refreshApi
        | .ok newData =>
          match (Json.obj newData).get? "access_token" with
          | none => .error .keyError
          | some token =>
            match resealed env c (setAccessToken token credentials) with
            | .error err => .error err
            | .ok blob =>
              match env.int (((Json.obj newData).get? "expires_in").getD (.int 5183944)) with
              | none => .error .valueError
              | some expiresIn =>
                match addSeconds env.now expiresIn with
                | none => .error .overflow
                | some expiresAt => .ok { c with
                    credentialsEncrypted := blob
                    expiresAt := some expiresAt }
    else .ok c

/-- The connections the job selects. -/
def Selected (c : ChannelConnection) : Prop := c.channelType = .instagram ∧ c.status = .active

instance : DecidablePred Selected := fun c => by unfold Selected; infer_instance

/-- The table after the job. A pass that raises ends it; the rows before it stay committed. -/
def refreshInstagramTokens (env : RefreshEnv) :
    List ChannelConnection → List ChannelConnection × Except RefreshError Unit
  | [] => ([],.ok ())
  | c :: rest =>
    if Selected c then
      match refreshConnection env c with
      | .error err => (c :: rest,.error err)
      | .ok c' =>
        let (rest',result) := refreshInstagramTokens env rest
        (c' :: rest',result)
    else
      let (rest',result) := refreshInstagramTokens env rest
      (c :: rest',result)

/-- The same connection for routing: only its status may have gone to expired. -/
structure SameAccount (c c' : ChannelConnection) : Prop where
  id : c'.id = c.id
  tenantId : c'.tenantId = c.tenantId
  channelType : c'.channelType = c.channelType
  metadata : c'.connectionMetadata = c.connectionMetadata
  status : c'.status = c.status ∨ c'.status = .expired

theorem SameAccount.refl (c : ChannelConnection) : SameAccount c c :=
  ⟨rfl,rfl,rfl,rfl,Or.inl rfl⟩

theorem refreshConnection_same {env : RefreshEnv} {c c' : ChannelConnection}
    (h : refreshConnection env c = .ok c') : SameAccount c c' := by
  have hexpired : SameAccount c { c with status := .expired } :=
    ⟨rfl,rfl,rfl,rfl,Or.inr rfl⟩
  unfold refreshConnection at h
  split at h
  · obtain rfl := Except.ok.inj h
    exact .refl c
  · split_ifs at h
    · obtain rfl := Except.ok.inj h
      exact hexpired
    · split at h
      · obtain rfl := Except.ok.inj h
        exact hexpired
      · split at h
        · simp at h
        · split at h
          · simp at h
          · split at h
            · simp at h
            · split at h
              · simp at h
              · split at h
                · simp at h
                · obtain rfl := Except.ok.inj h
                  exact ⟨rfl,rfl,rfl,rfl,Or.inl rfl⟩
    · obtain rfl := Except.ok.inj h
      exact .refl c

/-- The job keeps every connection, in place. -/
theorem refreshInstagramTokens_same (env : RefreshEnv) (table : List ChannelConnection) :
    List.Forall₂ SameAccount table (refreshInstagramTokens env table).1 := by
  have hrefl : ∀ rest : List ChannelConnection, List.Forall₂ SameAccount rest rest :=
    fun rest => List.forall₂_same.mpr fun c _ => .refl c
  induction table with
  | nil => exact .nil
  | cons c rest ih =>
    rw [refreshInstagramTokens]
    split_ifs
    · split
      · exact hrefl _
      · rename_i c' hc
        exact .cons (refreshConnection_same hc) ih
    · exact .cons (.refl c) ih

end TokenRefresh
end LeadEngine
