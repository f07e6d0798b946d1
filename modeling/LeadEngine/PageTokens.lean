import LeadEngine.Vault

/-! Whose token fetches a lead form. In every run the credentials of a connection are those of its
own page, and the lead ads job calls the Graph API with the token that Meta gave for that page. -/
namespace LeadEngine
namespace Vault

open Fallible Channels OAuth Routing TokenRefresh TransitionSystem JsonText LeadAds

abbrev Run := List (Transition (List ChannelConnection) (ConnectOp × Bool))

/-- In a committed exchange Meta listed the page with the token. -/
def Listed (tr : Run) (page : PageVisit) (token : String) : Prop :=
  ∃ t ∈ tr, ∃ state answers draws accounts,
    t.2.1 = (.exchangeFacebookCode state answers draws,true) ∧
    answers.pageAccounts = .ok accounts ∧ page ∈ accounts ∧ page.accessToken = some token

inductive IsOf (c : ChannelConnection) (page : PageVisit) : Prop
  | page (pageId : String) (htype : c.channelType = .facebook) (hid : page.id = some pageId)
      (hmetadata : c.metadata? "page_id" = some pageId)
  | linked (igAccountId : String) (htype : c.channelType = .instagram) (hfree : c.expiresAt = none)
      (hid : page.fetchConnectedIgAccount = .ok (some igAccountId))
      (hmetadata : c.metadata? "ig_account_id" = some igAccountId)

/-- A connection that comes from no page: a phone number, or an account with a login of its own. -/
def Pageless (c : ChannelConnection) : Prop :=
  c.channelType = .whatsapp ∨ c.channelType = .instagram ∧ c.expiresAt ≠ none

inductive Holds (tr : Run) (c : ChannelConnection) (credentials : Credentials) : Prop
  | ofPage (page : PageVisit) (token : String) (hof : IsOf c page) (hlisted : Listed tr page token)
      (htoken : (Json.obj credentials).get? "page_access_token" = some (.str token))
  | ofNone (hpageless : Pageless c) (hnone : "page_access_token" ∉ credentials.map Prod.fst)

section Kept

variable [Floats]

def Kept (cipher : Cipher) (tr : Run) (c : ChannelConnection) : Prop :=
  ∃ blob credentials, c.credentialsEncrypted = some blob ∧ Plain (.obj credentials) ∧
    Unseals cipher blob credentials ∧ Holds tr c credentials

variable {cipher : Cipher} {env : OAuthEnv} {tr tr' : Run} {c c' : ChannelConnection} {t : UUID}

omit [Floats] in
theorem Listed.mono (hsub : tr ⊆ tr') {page : PageVisit} {token : String}
    (h : Listed tr page token) : Listed tr' page token := by
  obtain ⟨t,ht,hrest⟩ := h
  exact ⟨t,hsub ht,hrest⟩

theorem Kept.mono (hsub : tr ⊆ tr') (h : Kept cipher tr c) : Kept cipher tr' c := by
  obtain ⟨blob,credentials,hblob,hplain,hopens,hholds⟩ := h
  refine ⟨blob,credentials,hblob,hplain,hopens,?_⟩
  cases hholds with
  | ofPage page token hof hlisted htoken => exact .ofPage page token hof (hlisted.mono hsub) htoken
  | ofNone hpageless hnone => exact .ofNone hpageless hnone

theorem kept_of_sealed {payload : Credentials} {draw : Draw} {blob : Bytes}
    (hnonce : draw.nonce.length = nonceSize) (hplain : Plain (.obj payload))
    (hseal : sealCredentials (cipher.oauthEnv env) draw payload = .ok blob)
    (hblob : c.credentialsEncrypted = some blob)
    (hholds : Holds tr c (Json.sortFields payload)) : Kept cipher tr c := by
  obtain ⟨blob',hseal',hopens⟩ := sealed cipher hnonce hplain
  obtain rfl : blob' = blob := Except.ok.inj (hseal'.symm.trans (mapError_eq_ok.mp hseal))
  exact ⟨blob',_,hblob,plain_sortKeys _ hplain,hopens,hholds⟩

theorem kept_page {draws : ℕ → Draw} (hdraws : ∀ n, (draws n).nonce.length = nonceSize) {n : ℕ}
    {page : PageVisit} {rows : List ChannelConnection}
    (h : pageConnections (cipher.oauthEnv env) t draws n page = .ok rows)
    (hlisted : ∀ token, page.accessToken = some token → Listed tr page token) :
    ∀ c ∈ rows, Kept cipher tr c := by
  unfold pageConnections at h
  split at h
  · rename_i pageId token hid htoken
    split at h
    · cases h
    split at h
    · cases h
    rename_i blob hseal
    have hpage : Kept cipher tr
        (facebookConnection t (draws n) pageId (page.name.getD "") blob) := by
      refine kept_of_sealed (hdraws n) (plain_page token pageId) hseal rfl
        (.ofPage page token (.page pageId rfl hid rfl) (hlisted token htoken) ?_)
      rw [get?_sortFields (plain_page token pageId).1]
      rfl
    dsimp only at h
    split at h
    · cases h
    rename_i linked hlinked
    split at h
    · obtain rfl := Except.ok.inj h
      exact List.forall_mem_singleton.mpr hpage
    · rename_i igAccountId hig
      split at h
      · cases h
      split at h
      · cases h
      rename_i igBlob higSeal
      obtain rfl := Except.ok.inj h
      refine List.forall_mem_cons.mpr ⟨hpage,List.forall_mem_singleton.mpr ?_⟩
      obtain ⟨rfl,_⟩ := Interpreter.truthy_eq_some.mp hig
      refine kept_of_sealed (hdraws (n+1)) (plain_account token igAccountId) higSeal rfl
        (.ofPage page token (.linked igAccountId rfl rfl (graph_eq_ok.mp hlinked) rfl)
          (hlisted token htoken) ?_)
      rw [get?_sortFields (plain_account token igAccountId).1]
      rfl
  · cases h

theorem kept_pages {draws : ℕ → Draw} (hdraws : ∀ n, (draws n).nonce.length = nonceSize)
    {pages : List PageVisit} {n : ℕ} {rows : List ChannelConnection}
    (h : connectPages (cipher.oauthEnv env) t draws n pages = .ok rows)
    (hlisted : ∀ page ∈ pages, ∀ token, page.accessToken = some token → Listed tr page token) :
    ∀ c ∈ rows, Kept cipher tr c := by
  induction pages generalizing n rows with
  | nil =>
    obtain rfl := Except.ok.inj h
    simp
  | cons page rest ih =>
    obtain ⟨first,more,hfirst,hmore,rfl⟩ := connectPages_cons h
    obtain ⟨hpage,hrest⟩ := List.forall_mem_cons.mp hlisted
    exact List.forall_mem_append.mpr ⟨kept_page hdraws hfirst hpage,ih hmore hrest⟩

omit [Floats] in
theorem not_mem_sortFields {payload : Credentials}
    (h : "page_access_token" ∉ payload.map Prod.fst) :
    "page_access_token" ∉ (Json.sortFields payload).map Prod.fst :=
  mt (keys_sortFields payload).mem_iff.mp h

theorem kept_phones {draws : ℕ → Draw} (hdraws : ∀ n, (draws n).nonce.length = nonceSize)
    {token wabaId : String} {phones : List PhoneEntry} {n : ℕ} {rows : List ChannelConnection}
    (h : connectPhones (cipher.oauthEnv env) t draws token wabaId n phones = .ok rows) :
    ∀ c ∈ rows, Kept cipher tr c := by
  induction phones generalizing n rows with
  | nil =>
    obtain rfl := Except.ok.inj h
    simp
  | cons phone rest ih =>
    rw [connectPhones] at h
    split at h
    · cases h
    rename_i phoneNumberId _
    split at h
    · cases h
    rename_i blob hseal
    split at h
    · cases h
    rename_i more hmore
    obtain rfl := Except.ok.inj h
    refine List.forall_mem_cons.mpr ⟨?_,ih hmore⟩
    exact kept_of_sealed (hdraws n) (plain_phone token phoneNumberId wabaId) hseal rfl
      (.ofNone (.inl rfl) (not_mem_sortFields (by simp)))

theorem kept_wabas {draws : ℕ → Draw} (hdraws : ∀ n, (draws n).nonce.length = nonceSize)
    {token : String} {visit : String → WabaVisit} {ids : List String} {n : ℕ}
    {rows : List ChannelConnection}
    (h : connectWabas (cipher.oauthEnv env) t draws token visit n ids = .ok rows) :
    ∀ c ∈ rows, Kept cipher tr c := by
  induction ids generalizing n rows with
  | nil =>
    obtain rfl := Except.ok.inj h
    simp
  | cons wabaId rest ih =>
    rw [connectWabas] at h
    split at h
    · split at h
      · cases h
      rename_i first hfirst
      split at h
      · cases h
      rename_i more hmore
      obtain rfl := Except.ok.inj h
      exact List.forall_mem_append.mpr ⟨kept_phones hdraws hfirst,ih hmore⟩
    · cases h

theorem Kept.expired (h : Kept cipher tr c) : Kept cipher tr { c with status := .expired } := by
  obtain ⟨blob,credentials,hblob,hplain,hopens,hholds⟩ := h
  refine ⟨blob,credentials,hblob,hplain,hopens,?_⟩
  cases hholds with
  | ofPage page token hof hlisted htoken =>
    refine .ofPage page token ?_ hlisted htoken
    cases hof with
    | page pageId htype hid hmetadata => exact .page pageId htype hid hmetadata
    | linked ig htype hfree hid hmetadata => exact .linked ig htype hfree hid hmetadata
  | ofNone hpageless hnone => exact .ofNone hpageless hnone

/-- The job keeps the token of a page, which does not expire, and never puts one anywhere. -/
theorem Kept.refreshed {renv : RefreshEnv} {nonce : UUID → Bytes} (h : Kept cipher tr c)
    (horderly : Orderly renv nonce) (hselected : Selected c)
    (hpass : refreshConnection (cipher.refreshEnv renv nonce) c = .ok c') : Kept cipher tr c' := by
  have hcases := refreshConnection_pass (cipher.refreshEnv renv nonce) c
  rw [hpass] at hcases
  cases hcases with
  | idle => exact h
  | expired => exact h.expired
  | renewed blob expiresIn hwindow hrenewal =>
    obtain ⟨old,credentials,hold,hplain,hopens,hholds⟩ := h
    obtain ⟨credentials',token,_,hread,⟨newData,hcall,htoken,_⟩,hsealed,_⟩ := hrenewal
    obtain rfl := Option.some.inj ((existing_of_unseals renv nonce hold hopens).symm.trans hread)
    have hnew := plain_setAccessToken (horderly.plain _ _ _ _ hcall htoken) hplain
    obtain ⟨new,hresealed,hnewOpens⟩ := resealed_of_plain cipher renv c (horderly.size c.id) hnew
    obtain rfl := Except.ok.inj (hresealed.symm.trans hsealed)
    refine ⟨new,_,rfl,plain_sortKeys _ hnew,hnewOpens,?_⟩
    obtain ⟨expiresAt,hexpires,_⟩ := hwindow
    cases hholds with
    | ofPage page token hof =>
      cases hof with
      | page pageId htype => exact absurd (htype.symm.trans hselected.1) (by decide)
      | linked ig _ hfree => simp [hexpires] at hfree
    | ofNone hpageless hnone =>
      refine .ofNone (.inr ⟨hselected.1,by simp⟩) (not_mem_sortFields ?_)
      rcases keys_setAccessToken token credentials with hkeys | ⟨_,hkeys⟩
      · rwa [hkeys]
      · rw [hkeys]
        simpa using hnone

theorem kept_job {renv : RefreshEnv} {nonce : UUID → Bytes} (horderly : Orderly renv nonce)
    {table : List ChannelConnection} (h : ∀ c ∈ table, Kept cipher tr c) :
    ∀ c ∈ (refreshInstagramTokens (cipher.refreshEnv renv nonce) table).1, Kept cipher tr c := by
  induction table with
  | nil => simp [refreshInstagramTokens]
  | cons c rest ih =>
    obtain ⟨hc,hrest⟩ := List.forall_mem_cons.mp h
    rw [refreshInstagramTokens]
    by_cases hselected : Selected c
    · rw [if_pos hselected]
      cases hpass : refreshConnection (cipher.refreshEnv renv nonce) c with
      | error err => exact h
      | ok c' =>
        exact List.forall_mem_cons.mpr ⟨hc.refreshed horderly hselected hpass,ih hrest⟩
    · rw [if_neg hselected]
      exact List.forall_mem_cons.mpr ⟨hc,ih hrest⟩

end Kept

section Runs

variable [Floats] [Interpreter] {cipher : Cipher} {env : OAuthEnv} {tr : Run}
  {table table' : List ChannelConnection}

theorem kept_login {draw : Draw} (hdraw : draw.nonce.length = nonceSize) {now : Time}
    {state : String} {answers : InstagramAnswers} {conn : ChannelConnection}
    (h : exchangeInstagramCode (cipher.oauthEnv env) table draw now state answers =
      .ok (table',conn)) : table' = table ++ [conn] ∧ Kept cipher tr conn := by
  unfold exchangeInstagramCode at h
  split at h
  · cases h
  split at h
  · split at h
    · cases h
    split at h
    · cases h
    rename_i blob hseal
    obtain ⟨rfl,rfl⟩ := Prod.mk.inj (Except.ok.inj h)
    refine ⟨rfl,kept_of_sealed hdraw (plain_login _ _ _) hseal rfl
      (.ofNone (.inr ⟨rfl,Option.some_ne_none _⟩) (not_mem_sortFields ?_))⟩
    simp
  · cases h

/-- What one call does. The exchange that brings a page in is the last call of the run. -/
theorem kept_step {a : ConnectOp × Bool} (h : ∀ c ∈ table, Kept cipher tr c)
    (hcall : SameCall cipher cipher a a)
    (hstep : ConnectStep (cipher.oauthEnv env) table a table') :
    ∀ c ∈ table', Kept cipher (tr ++ [(table,a,table')]) c := by
  have hold : ∀ c ∈ table, Kept cipher (tr ++ [(table,a,table')]) c :=
    fun c hc => (h c hc).mono (List.subset_append_left _ _)
  cases hstep with
  | raised => exact hold
  | @commit _ op hexec =>
    obtain ⟨hop,_⟩ := hcall
    dsimp only at hop
    cases hop with
    | facebook state answers draws _ hdraws =>
      obtain ⟨⟨_,rows⟩,hexchange,rfl⟩ := map_eq_ok.mp hexec
      obtain ⟨t,accounts,_,haccounts,hpages,rfl⟩ := exchangeFacebookCode_ok hexchange
      refine List.forall_mem_append.mpr ⟨hold,kept_pages (fun n => (hdraws n).nonce) hpages ?_⟩
      exact fun page hpage token htoken => ⟨_,List.mem_append_right _ (List.mem_singleton_self _),
        state,answers,draws,accounts,rfl,haccounts,hpage,htoken⟩
    | instagram state answers draw _ now hdraw =>
      obtain ⟨⟨_,conn⟩,hexchange,rfl⟩ := map_eq_ok.mp hexec
      obtain ⟨rfl,hconn⟩ := kept_login hdraw.nonce hexchange
      exact List.forall_mem_append.mpr ⟨hold,List.forall_mem_singleton.mpr hconn⟩
    | whatsapp tenantId answers draws _ hdraws =>
      obtain ⟨⟨_,rows⟩,hexchange,rfl⟩ := map_eq_ok.mp hexec
      obtain ⟨token,scopes,_,hwabas,rfl⟩ := exchangeWhatsappSignupCode_ok hexchange
      exact List.forall_mem_append.mpr ⟨hold,kept_wabas (fun n => (hdraws n).nonce) hwabas⟩
    | refresh renv nonce _ horderly =>
      obtain rfl := Except.ok.inj hexec
      exact kept_job horderly hold

theorem kept_of_path (h : Path (ConnectStep (cipher.oauthEnv env)) [] tr table)
    (hcalls : ∀ t ∈ tr, SameCall cipher cipher t.2.1 t.2.1) : ∀ c ∈ table, Kept cipher tr c := by
  induction h with
  | nil => simp
  | snoc _ hstep ih =>
    have hlast := hcalls _ (List.mem_append_right _ (List.mem_singleton_self _))
    exact kept_step (ih fun t ht => hcalls t (List.mem_append_left _ ht)) hlast hstep

def graphOutcome : Except FetchError (List Normaliser.FieldItem) → FetchOutcome
  | .error .externalService => .failed
  | .error .other => .raised .fetch
  | .ok fieldData => .fetched fieldData

omit [Interpreter] in
theorem fetchFields_unsealed (lenv : LeadAdEnv) {job : LeadAdPayload} {c : ChannelConnection}
    {table : List ChannelConnection} {blob : Bytes} {credentials : Credentials}
    (hc : getChannelConnection table job.channelConnectionId = .ok (some c))
    (hblob : c.credentialsEncrypted = some blob) (hopens : Unseals cipher blob credentials) :
    fetchFields (cipher.leadAdEnv lenv table) job =
      ((Json.obj credentials).get? "page_access_token").elim (.raised .keyError) fun token =>
        graphOutcome (lenv.fetchLeadFields job.leadgenId token) := by
  unfold fetchFields
  simp only [Cipher.leadAdEnv,hc,hblob]
  cases blob with
  | nil => exact absurd rfl hopens.nonempty
  | cons b bs =>
    dsimp only
    rw [hopens.opens]
    dsimp only
    cases (Json.obj credentials).get? "page_access_token" with
    | none => rfl
    | some token =>
      dsimp only [Option.elim_some]
      cases lenv.fetchLeadFields job.leadgenId token with
      | error err => cases err <;> rfl
      | ok fieldData => rfl

/-- In every run the lead ads job of a page, or of the account that is linked to it, calls the Graph
API with the token that Meta listed for that page; for every other connection it raises a
`KeyError` before the call. -/
theorem lead_form_token (h : Path (ConnectStep (cipher.oauthEnv env)) [] tr table)
    (hcalls : ∀ t ∈ tr, SameCall cipher cipher t.2.1 t.2.1) {lenv : LeadAdEnv}
    {job : LeadAdPayload} {c : ChannelConnection}
    (hc : getChannelConnection table job.channelConnectionId = .ok (some c)) :
    (∃ page token, IsOf c page ∧ Listed tr page token ∧
        fetchFields (cipher.leadAdEnv lenv table) job =
          graphOutcome (lenv.fetchLeadFields job.leadgenId (.str token))) ∨
      Pageless c ∧ fetchFields (cipher.leadAdEnv lenv table) job = .raised .keyError := by
  have hmem : c ∈ table := List.mem_of_mem_filter ((Table.scalarOneOrNone_mem hc c).mp rfl)
  obtain ⟨blob,credentials,hblob,_,hopens,hholds⟩ := kept_of_path h hcalls c hmem
  have hfetch := fetchFields_unsealed lenv hc hblob hopens
  cases hholds with
  | ofPage page token hof hlisted htoken =>
    refine .inl ⟨page,token,hof,hlisted,?_⟩
    rw [hfetch,htoken,Option.elim_some]
  | ofNone hpageless hnone =>
    refine .inr ⟨hpageless,?_⟩
    have hget : (Json.obj credentials).get? "page_access_token" = none := by
      rw [Json.get?,Option.map_eq_none_iff,List.find?_eq_none]
      exact fun e he hkey => hnone (List.mem_map.mpr ⟨e,he,by simpa using hkey⟩)
    rw [hfetch,hget,Option.elim_none]

end Runs

def pageGraph : LeadAdEnv where
  connections := []
  aes := TokenRefresh.demoAes
  encryptionKey := ""
  fetchLeadFields
    | _,.str "EAAB" => .ok []
    | _,_ => .error .other
  locationOrder := []

/-- The lead form of a page that was just connected. -/
theorem page_form_fetched :
    letI := noFloats
    letI := Interpreter.ascii id
    ∃ table c, ConnectStep (firstCipher.oauthEnv tenantEnv) [] (pageExchange 0,true) table ∧
      getChannelConnection table 1 = .ok (some c) ∧
      ∃ page token, IsOf c page ∧ Listed [([],(pageExchange 0,true),table)] page token ∧
        fetchFields (firstCipher.leadAdEnv pageGraph table) ⟨1,1,"form",none⟩ =
          graphOutcome (pageGraph.fetchLeadFields "form" (.str token)) := by
  let := noFloats
  let := Interpreter.ascii id
  have hfound : (((pageExchange 0).exec (firstCipher.oauthEnv tenantEnv) []).toOption.bind
      fun table => (getChannelConnection table 1).toOption.join).map
        ChannelConnection.channelType = some .facebook := by
    decide +kernel
  obtain ⟨c,hc,htype⟩ := Option.map_eq_some_iff.mp hfound
  obtain ⟨table,htable,hlookup⟩ := Option.bind_eq_some_iff.mp hc
  have hexec : (pageExchange 0).exec (firstCipher.oauthEnv tenantEnv) [] = .ok table := by
    cases hexec : (pageExchange 0).exec (firstCipher.oauthEnv tenantEnv) [] with
    | error err => simp [hexec,Except.toOption] at htable
    | ok table' => simpa [hexec,Except.toOption] using htable
  have hc := toOption_join_eq_some.mp hlookup
  have hstep := ConnectStep.commit hexec
  have hcall : SameCall firstCipher firstCipher (pageExchange 0,true) (pageExchange 0,true) :=
    ⟨.facebook _ _ _ _ fun n => ⟨rfl,rfl,rfl⟩,rfl⟩
  refine ⟨table,c,hstep,hc,?_⟩
  have hpath := Path.nil.snoc hstep
  refine (lead_form_token hpath (List.forall_mem_singleton.mpr hcall) hc).resolve_right ?_
  rintro ⟨hpageless | ⟨hpageless,_⟩,_⟩
  · simp [htype] at hpageless
  · simp [htype] at hpageless

end Vault
end LeadEngine
