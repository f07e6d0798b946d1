import LeadEngine.RefreshRuns

/-! Expiry and stored token: when the refresh job changes the status, the expiry and the sealed
credentials of a connection together. -/
namespace LeadEngine
namespace TokenRefresh

open Channels

variable {env : RefreshEnv} {c : ChannelConnection}

section Together

variable (env) (c)

def Decrypts (credentials : Credentials) : Prop :=
  ∃ blob, c.credentialsEncrypted = some blob ∧
    decryptCredentials env.aes blob env.key = .ok credentials

def Advances (c c' : ChannelConnection) : Prop :=
  ∃ t t', c.expiresAt = some t ∧ c'.expiresAt = some t' ∧ t < t'

/-- The expiry, the status and the stored token of a connection change together. -/
structure MovedTogether (c' : ChannelConnection) : Prop where
  expired : c.status ≠ .expired ∧ c'.status = .expired ↔ Selected c ∧
    (Lapsed env c ∨ InWindow env c ∧ ∀ credentials, ¬ Decrypts env c credentials)
  advanced : Advances c c' ↔ Selected c ∧ InWindow env c ∧ ∃ credentials, Decrypts env c credentials
  token : Advances c c' → ∃ credentials token expiresIn blob,
    Decrypts env c credentials ∧ Answered env c credentials token expiresIn ∧
    c'.credentialsEncrypted = some blob ∧ decryptCredentials env.aes blob env.key =
      .ok (Json.sortFields (setAccessToken token credentials))
  others : ¬ Selected c ∨ ¬ Lapsed env c ∧ ¬ InWindow env c → c' = c

/-- In the window there are a key and a blob, and if the blob opens, the answer moves the expiry
forward, to a time that a date can hold. -/
def Renewable : Prop :=
  Selected c → InWindow env c → env.key ≠ "" ∧
    (∃ blob, c.credentialsEncrypted = some blob ∧ blob ≠ []) ∧
    ∀ credentials token expiresIn t, Decrypts env c credentials →
      Answered env c credentials token expiresIn → c.expiresAt = some t →
      t < env.now + expiresIn ∧ (addSeconds env.now expiresIn).isSome

/-- AES-GCM decrypts what it encrypted, and `json.loads` reads what `json.dumps` wrote. -/
structure Opens (aes : AesGcm) (key : String) (nonce : Bytes) (payload : Credentials) : Prop where
  size : nonce.length = nonceSize
  cipher : ∀ rawKey, decodeKey aes key = .ok rawKey →
    aes.decrypt rawKey nonce (aes.encrypt rawKey nonce (aes.dumps payload)) =
      .ok (aes.dumps payload)
  json : aes.loads (aes.dumps payload) = .ok (Json.sortFields payload)

end Together

theorem Opens.decrypt {aes : AesGcm} {nonce blob : Bytes} {payload : Credentials} {key : String}
    (h : Opens aes key nonce payload) (hseal : encryptCredentials aes nonce payload key = .ok blob) :
    decryptCredentials aes blob key = .ok (Json.sortFields payload) := by
  unfold encryptCredentials at hseal
  cases hkey : decodeKey aes key with
  | error err => simp [hkey] at hseal
  | ok rawKey =>
    simp only [hkey,Except.ok.injEq] at hseal
    rw [← hseal]
    simp only [decryptCredentials,hkey,← h.size,List.take_left,List.drop_left,
      h.cipher rawKey hkey,h.json]

theorem Answered.unique {credentials : Credentials} {token token' : Json} {n n' : ℤ}
    (h : Answered env c credentials token n) (h' : Answered env c credentials token' n') :
    token = token' ∧ n = n' := by
  obtain ⟨newData,hcall,htoken,hint⟩ := h
  obtain ⟨newData',hcall',htoken',hint'⟩ := h'
  obtain rfl := Except.ok.inj (hcall.symm.trans hcall')
  exact ⟨Option.some.inj (htoken.symm.trans htoken'),Option.some.inj (hint.symm.trans hint')⟩

theorem existingCredentials_eq_some {blob : Bytes} (hkey : env.key ≠ "")
    (hblob : c.credentialsEncrypted = some blob) (hne : blob ≠ []) (credentials : Credentials) :
    existingCredentials env c = some credentials ↔ Decrypts env c credentials := by
  have hread : existingCredentials env c =
      (decryptCredentials env.aes blob env.key).toOption := by
    unfold existingCredentials
    rw [hblob]
    cases blob with
    | nil => exact absurd rfl hne
    | cons b bs => simp [hkey]
  rw [hread,Decrypts,hblob]
  cases hopen : decryptCredentials env.aes blob env.key <;> simp [Except.toOption,hopen]

theorem blob_of_unreadable (h : existingCredentials env c = none) :
    env.key ≠ "" ∧ ∃ blob, c.credentialsEncrypted = some blob ∧ blob ≠ [] := by
  unfold existingCredentials at h
  split at h
  · simp at h
  · simp at h
  · rename_i blob hne hblob
    split_ifs at h with hkey
    exact ⟨hkey,blob,hblob,hne⟩

section Hypotheses

variable (hanswer : ∀ credentials, existingCredentials env c = some credentials →
    ∃ token expiresIn, Answered env c credentials token expiresIn)
  (hkey : decodeKey env.aes "" = .error ())
  (hempty : ∀ rawKey nonce, env.aes.decrypt rawKey nonce [] = .error ())
  (hopens : ∀ credentials token expiresIn, existingCredentials env c = some credentials →
    Answered env c credentials token expiresIn →
    Opens env.aes env.key (env.nonce c.id) (setAccessToken token credentials))

include hkey hempty in
theorem Decrypts.usable {credentials : Credentials} (h : Decrypts env c credentials) :
    env.key ≠ "" ∧ ∃ blob, c.credentialsEncrypted = some blob ∧ blob ≠ [] ∧
      (decodeKey env.aes env.key).isOk = true := by
  obtain ⟨blob,hblob,hopen⟩ := h
  have hkeyOk : ∃ rawKey, decodeKey env.aes env.key = .ok rawKey := by
    unfold decryptCredentials at hopen
    cases hdecode : decodeKey env.aes env.key with
    | error err => simp [hdecode] at hopen
    | ok rawKey => exact ⟨rawKey,rfl⟩
  obtain ⟨rawKey,hrawKey⟩ := hkeyOk
  refine ⟨?_,blob,hblob,?_,by rw [hrawKey]; rfl⟩
  · intro hno
    rw [hno,hkey] at hrawKey
    simp at hrawKey
  · rintro rfl
    simp [decryptCredentials,hrawKey,hempty] at hopen

include hkey hempty in
theorem Decrypts.existing {credentials : Credentials} (h : Decrypts env c credentials) :
    existingCredentials env c = some credentials := by
  obtain ⟨hne,blob,hblob,hsome,_⟩ := h.usable hkey hempty
  exact (existingCredentials_eq_some hne hblob hsome credentials).mpr h

theorem resealed_ok (hne : env.key ≠ "") (hok : (decodeKey env.aes env.key).isOk = true)
    (credentials : Credentials) : ∃ blob,
      encryptCredentials env.aes (env.nonce c.id) credentials env.key = .ok blob ∧
      resealed env c credentials = .ok (some blob) := by
  obtain ⟨rawKey,hrawKey⟩ := Fallible.isOk_iff.mp hok
  refine ⟨_,by rw [encryptCredentials,hrawKey],?_⟩
  simp [resealed,hne,encryptCredentials,hrawKey]

omit env in
theorem not_advances_of_same {c c' : ChannelConnection} (h : c'.expiresAt = c.expiresAt) :
    ¬ Advances c c' := by
  rintro ⟨t,t',ht,ht',hlt⟩
  rw [h,ht] at ht'
  obtain rfl := Option.some.inj ht'
  exact Int.lt_irrefl _ hlt

theorem movedTogether_self (h : ¬ Selected c ∨ ¬ Lapsed env c ∧ ¬ InWindow env c) :
    MovedTogether env c c := by
  have hno : ¬ Advances c c := not_advances_of_same rfl
  refine ⟨iff_of_false (fun hs => hs.1 hs.2) ?_,iff_of_false hno ?_,fun ha => absurd ha hno,
    fun _ => rfl⟩
  · rintro ⟨hsel,hdue⟩
    obtain hsel' | ⟨hlapsed,hwindow⟩ := h
    · exact hsel' hsel
    · exact hdue.elim hlapsed fun hw => hwindow hw.1
  · rintro ⟨hsel,hwindow,_⟩
    obtain hsel' | ⟨_,hwindow'⟩ := h
    · exact hsel' hsel
    · exact hwindow' hwindow

include hkey hempty in
theorem movedTogether_expired (hsel : Selected c)
    (h : Lapsed env c ∨ InWindow env c ∧ existingCredentials env c = none) :
    MovedTogether env c { c with status := .expired } := by
  have hno : ¬ Advances c { c with status := .expired } := not_advances_of_same rfl
  have hclosed : existingCredentials env c = none → ∀ credentials, ¬ Decrypts env c credentials :=
    fun hnone credentials hopen => by simp [hopen.existing hkey hempty] at hnone
  have hactive : c.status ≠ .expired := by simp [hsel.2]
  refine ⟨iff_of_true ⟨hactive,rfl⟩ ⟨hsel,h.imp_right fun hw => ⟨hw.1,hclosed hw.2⟩⟩,
    iff_of_false hno ?_,fun ha => absurd ha hno,?_⟩
  · rintro ⟨_,hwindow,credentials,hopen⟩
    obtain hlapsed | ⟨_,hnone⟩ := h
    · exact not_lapsed_of_inWindow hwindow hlapsed
    · exact hclosed hnone credentials hopen
  · rintro (hsel' | ⟨hlapsed,hwindow⟩)
    · exact absurd hsel hsel'
    · exact (h.elim hlapsed fun hw => hwindow hw.1).elim

/-- A connection in the window whose row is not marked expired moved together only if its
credentials open. -/
theorem MovedTogether.opens {c' : ChannelConnection} (h : MovedTogether env c c')
    (hsel : Selected c) (hwindow : InWindow env c) (hstatus : c'.status = c.status) :
    ∃ credentials, Decrypts env c credentials := by
  by_contra hno
  have hset := h.expired.mpr ⟨hsel,Or.inr ⟨hwindow,not_exists.mp hno⟩⟩
  exact hset.1 (hstatus.symm.trans hset.2)

include hkey hempty hopens in
/-- A renewed connection moved together exactly when its credentials opened and it now expires
later. -/
theorem movedTogether_renewed_iff {blob : Option Bytes} {expiresAt : Time} (hsel : Selected c)
    (hwindow : InWindow env c) (hrenewal : Renewal env c blob expiresAt) :
    MovedTogether env c { c with
      credentialsEncrypted := blob
      expiresAt := some expiresAt } ↔ Renewable env c := by
  obtain ⟨credentials,token,n,hread,hanswer,hsealed,hsum⟩ := hrenewal
  obtain rfl := (addSeconds_eq_some.mp hsum).1
  have hsame : ∀ {credentials' token' n'}, Decrypts env c credentials' →
      Answered env c credentials' token' n' → n' = n := by
    intro credentials' token' n' hopen hanswer'
    obtain rfl : credentials' = credentials :=
      Option.some.inj ((hopen.existing hkey hempty).symm.trans hread)
    exact (hanswer'.unique hanswer).2
  constructor
  · intro h _ _
    obtain ⟨credentials',hopen⟩ := h.opens hsel hwindow rfl
    obtain ⟨hne,blob',hblob,hsome,_⟩ := hopen.usable hkey hempty
    obtain ⟨t₁,t₁',ht₁,ht₁',hlt⟩ := h.advanced.mpr ⟨hsel,hwindow,credentials',hopen⟩
    refine ⟨hne,⟨blob',hblob,hsome⟩,fun credentials'' token' n' t hopen' hanswer' ht => ?_⟩
    rw [hsame hopen' hanswer',Option.some.inj (ht.symm.trans ht₁),
      Option.some.inj (ht₁' : some (env.now + n) = some t₁'),hsum]
    exact ⟨hlt,rfl⟩
  · intro h
    obtain ⟨hne,⟨blob',hblob,hsome⟩,hlater⟩ := h hsel hwindow
    have hopen := (existingCredentials_eq_some hne hblob hsome credentials).mp hread
    have hadvances : Advances c { c with
        credentialsEncrypted := blob
        expiresAt := some (env.now + n) } := by
      obtain ⟨t,ht,_⟩ := hwindow
      exact ⟨t,_,ht,rfl,(hlater credentials token n t hopen hanswer ht).1⟩
    have hactive : c.status ≠ .expired := by simp [hsel.2]
    refine ⟨iff_of_false (fun hs => hs.1 hs.2) ?_,
      iff_of_true hadvances ⟨hsel,hwindow,credentials,hopen⟩,fun _ => ?_,?_⟩
    · rintro ⟨_,hlapsed | ⟨_,hclosed⟩⟩
      · exact not_lapsed_of_inWindow hwindow hlapsed
      · exact hclosed credentials hopen
    · obtain ⟨_,_,_,_,hok⟩ := hopen.usable hkey hempty
      obtain ⟨sealed,hseal,hresealed⟩ :=
        resealed_ok (c:=c) hne hok (setAccessToken token credentials)
      have hblob' : blob = some sealed := Except.ok.inj (hsealed.symm.trans hresealed)
      exact ⟨credentials,token,n,sealed,hopen,hanswer,hblob',
        (hopens credentials token n hread hanswer).decrypt hseal⟩
    · rintro (hsel' | ⟨_,hwindow'⟩)
      · exact absurd hsel hsel'
      · exact absurd hwindow hwindow'

include hanswer hkey hempty hopens in
/-- Status, expiry and token of a connection move together exactly when, inside the window, there
is a key, there is a blob, and if the blob opens the answer moves the expiry forward, to a date. -/
theorem moved_together_iff : MovedTogether env c (rowAlone env c) ↔ Renewable env c := by
  by_cases hsel : Selected c
  swap
  · rw [rowAlone_of_not_selected hsel]
    exact iff_of_true (movedTogether_self (Or.inl hsel)) fun h => absurd h hsel
  have hpass := refreshConnection_pass env c
  cases hok : refreshConnection env c with
  | ok c' =>
    rw [rowAlone_of_selected hsel hok]
    rw [hok] at hpass
    cases hpass with
    | idle hlapsed hwindow =>
      exact iff_of_true (movedTogether_self (Or.inr ⟨hlapsed,hwindow⟩))
        fun _ h => absurd h hwindow
    | expired h =>
      refine iff_of_true (movedTogether_expired hkey hempty hsel h) fun _ hwindow => ?_
      have hnone : existingCredentials env c = none :=
        h.elim (fun hlapsed => absurd hlapsed (not_lapsed_of_inWindow hwindow)) And.right
      have hclosed : ∀ credentials, ¬ Decrypts env c credentials :=
        fun credentials hopen => by simp [hopen.existing hkey hempty] at hnone
      obtain ⟨hne,hblob⟩ := blob_of_unreadable hnone
      exact ⟨hne,hblob,fun credentials _ _ _ hopen => absurd hopen (hclosed credentials)⟩
    | renewed blob t hwindow hrenewal =>
      exact movedTogether_renewed_iff hkey hempty hopens hsel hwindow hrenewal
  | error err =>
    obtain ⟨_,hwindow,hread,hno⟩ : Raises env c := raises_iff.mpr ⟨hsel,err,hok⟩
    rw [rowAlone_of_raises (raises_iff.mpr ⟨hsel,err,hok⟩)]
    obtain ⟨credentials,hsome⟩ := Option.ne_none_iff_exists'.mp hread
    refine iff_of_false (fun h => ?_) fun h => ?_
    · obtain ⟨credentials',hopen⟩ := h.opens hsel hwindow rfl
      exact not_advances_of_same rfl (h.advanced.mpr ⟨hsel,hwindow,credentials',hopen⟩)
    · -- the blob opens, the answer came and brings a date, so that nothing is left to raise
      obtain ⟨hne,⟨blob,hblob,hne'⟩,hlater⟩ := h hsel hwindow
      have hopen := (existingCredentials_eq_some hne hblob hne' credentials).mp hsome
      obtain ⟨token,n,hanswered⟩ := hanswer credentials hsome
      obtain ⟨_,_,_,_,hkeyOk⟩ := hopen.usable hkey hempty
      obtain ⟨sealed,_,hresealed⟩ :=
        resealed_ok (c:=c) hne hkeyOk (setAccessToken token credentials)
      obtain ⟨t,ht,_⟩ := id hwindow
      obtain ⟨t',hsum⟩ :=
        Option.isSome_iff_exists.mp (hlater credentials token n t hopen hanswered ht).2
      exact hno (some sealed) t' ⟨credentials,token,n,hsome,hanswered,hresealed,hsum⟩

end Hypotheses

def oldText : Bytes := [123,34,97,99,99,101,115,115,95,116,111,107,101,110,34,58,32,34,111,108,100,
  34,125]

def newText : Bytes := [123,34,97,99,99,101,115,115,95,116,111,107,101,110,34,58,32,34,110,101,119,
  34,125]

/-- The AES-256-GCM ciphertexts of the two texts under the key of bytes 0 to 31, with the nonces
of bytes 0 to 11 and 12 to 23. -/
def oldSealed : Bytes := [60,32,183,120,166,128,177,104,210,53,248,224,212,135,90,87,163,244,232,88,
  148,89,34,229,23,37,193,53,163,71,68,13,32,247,11,148,62,254,135]

def newSealed : Bytes := [227,220,8,187,28,19,143,32,104,94,39,190,244,229,4,221,117,33,131,139,129,
  95,70,56,221,193,140,199,47,8,144,214,92,151,48,6,178,61,54]

def byteRange (first count : ℕ) : Bytes := (List.range' first count).map UInt8.ofNat

def demoAes : AesGcm where
  urlsafeB64decode text :=
    if text = "AAECAwQFBgcICQoLDA0ODxAREhMUFRYXGBkaGxwdHh8===" then .ok (byteRange 0 32) else .ok []
  encrypt rawKey nonce plain :=
    if rawKey = byteRange 0 32 ∧ nonce = byteRange 12 12 ∧ plain = newText then newSealed else []
  decrypt rawKey nonce sealed :=
    if rawKey = byteRange 0 32 ∧ nonce = byteRange 0 12 ∧ sealed = oldSealed then .ok oldText
    else if rawKey = byteRange 0 32 ∧ nonce = byteRange 12 12 ∧ sealed = newSealed then .ok newText
    else .error ()
  dumps
    | [("access_token",.str "new")] => newText
    | _ => oldText
  loads text :=
    if text = oldText then .ok [("access_token",.str "old")]
    else if text = newText then .ok [("access_token",.str "new")]
    else .error ()

def sealedEnv : RefreshEnv where
  key := "AAECAwQFBgcICQoLDA0ODxAREhMUFRYXGBkaGxwdHh8="
  aes := demoAes
  now := 100
  nonce _ := byteRange 12 12
  int := fun
    | .int n => some n
    | _ => none
  callRefreshApi _ _ := .ok [("access_token",.str "new"),("expires_in",.int 5184000)]

def sealedConnection : ChannelConnection :=
  { instagramConnection 1 1000 with credentialsEncrypted := some (byteRange 0 12 ++ oldSealed) }

/-- A sealed token is renewed together with its expiry. -/
theorem sealed_token_moves : MovedTogether sealedEnv sealedConnection
    (rowAlone sealedEnv sealedConnection) := by
  have hread : existingCredentials sealedEnv sealedConnection =
      some [("access_token",.str "old")] := rfl
  have hanswered : ∀ credentials, Answered sealedEnv sealedConnection credentials (.str "new")
      5184000 := fun credentials => ⟨_,rfl,rfl,rfl⟩
  refine (moved_together_iff (fun credentials _ => ⟨_,_,hanswered credentials⟩) rfl ?_ ?_).mpr ?_
  · intro rawKey nonce
    have hold : ([] : Bytes) ≠ oldSealed := by decide
    have hnew : ([] : Bytes) ≠ newSealed := by decide
    simp [sealedEnv,demoAes,hold,hnew]
  · intro credentials token n hread' hanswer'
    obtain rfl := Option.some.inj (hread.symm.trans hread')
    obtain ⟨rfl,_⟩ := hanswer'.unique (hanswered _)
    refine ⟨rfl,fun rawKey hkey => ?_,rfl⟩
    obtain rfl : byteRange 0 32 = rawKey := Except.ok.inj hkey
    rfl
  · intro _ _
    refine ⟨by decide,⟨_,rfl,by decide⟩,fun credentials token n t hopen hanswer' ht => ?_⟩
    obtain rfl : n = 5184000 := (hanswer'.unique (hanswered _)).2
    obtain rfl : 1000 = t := Option.some.inj ht
    decide

/-- Without a key the code asks for a token it cannot store and moves the expiry. -/
theorem expiry_moves_without_key :
    let env := { sealedEnv with key := "" }
    (rowAlone env sealedConnection).expiresAt = some 5184100 ∧
      (rowAlone env sealedConnection).status = .active ∧
      (rowAlone env sealedConnection).credentialsEncrypted =
        sealedConnection.credentialsEncrypted ∧
      ¬ MovedTogether env sealedConnection (rowAlone env sealedConnection) := by
  refine ⟨by decide,by decide,by decide,fun h => ?_⟩
  obtain ⟨credentials,blob,_,hopen⟩ := h.opens ⟨rfl,rfl⟩ ⟨1000,rfl,by decide,by decide⟩ rfl
  have hkey : decodeKey demoAes "" = .error () := rfl
  exact absurd hopen (by simp [decryptCredentials,sealedEnv,hkey])

end TokenRefresh
end LeadEngine
