import LeadEngine.OAuth

/-! Why a code exchange raises. Each exchange raises exactly when a call fails, a key is missing, the
state or the expiry is refused, or the credentials cannot be sealed. -/
namespace LeadEngine
namespace OAuth

open Interpreter Channels

/-- The causes are those of the error that is raised; what returns has none. -/
inductive Verdict {α : Type} (Failure : ExchangeError → Prop) : Except ExchangeError α → Prop
  | raised (err : ExchangeError) (h : Failure err) : Verdict Failure (.error err)
  | returned (a : α) (h : ∀ err, ¬ Failure err) : Verdict Failure (.ok a)

theorem Verdict.cause {α : Type} {Failure : ExchangeError → Prop} {err : ExchangeError}
    (h : Verdict Failure (.error err : Except ExchangeError α)) : Failure err := by
  cases h with
  | raised _ h => exact h

theorem Verdict.spared {α : Type} {Failure : ExchangeError → Prop} {a : α}
    (h : Verdict Failure (.ok a)) (err : ExchangeError) : ¬ Failure err := by
  cases h with
  | returned _ h => exact h err

theorem Verdict.map {α β : Type} {Failure : ExchangeError → Prop} {x : Except ExchangeError α}
    (h : Verdict Failure x) (f : α → β) : Verdict Failure (x.map f) := by
  cases h with
  | raised err h => exact .raised err h
  | returned a h => exact .returned (f a) h

theorem Verdict.congr {α : Type} {Failure Failure' : ExchangeError → Prop}
    {x : Except ExchangeError α} (h : Verdict Failure x)
    (hiff : ∀ err, Failure' err ↔ Failure err) : Verdict Failure' x := by
  cases h with
  | raised err h => exact .raised err ((hiff err).mpr h)
  | returned a h => exact .returned a fun err h' => h err ((hiff err).mp h')

/-- One more pass of a loop in front of the others: the loop raises what the first pass raises, or
what the others do. -/
theorem Verdict.loop {ω α β γ : Type} {Failure : ω → ExchangeError → Prop} {o : ω} {rest : List ω}
    {x : Except ExchangeError α} {next : α → Except ExchangeError β} {join : α → β → γ}
    (hfirst : Verdict (Failure o) x)
    (hrest : ∀ a, Verdict (fun err => ∃ o' ∈ rest, Failure o' err) (next a)) :
    Verdict (fun err => ∃ o' ∈ o :: rest, Failure o' err)
      (x.bind fun a => (next a).map (join a)) := by
  cases hfirst with
  | raised err h => exact .raised err ⟨o,List.mem_cons_self,h⟩
  | returned a hno =>
    refine (hrest a).map (join a) |>.congr fun err => ?_
    constructor
    · rintro ⟨o',hmem,h⟩
      rcases List.mem_cons.mp hmem with rfl | hmem
      · exact absurd h (hno err)
      · exact ⟨o',hmem,h⟩
    · rintro ⟨o',hmem,h⟩
      exact ⟨o',List.mem_cons_of_mem _ hmem,h⟩

section Failures

variable (env : OAuthEnv)

/-- The configured key does not decode to 32 bytes. -/
def KeyUnusable : Prop := decodeKey env.aes env.encryptionKey = .error ()

inductive PageFailure (page : PageVisit) : ExchangeError → Prop
  | missingKey (h : page.id = none ∨ page.accessToken = none) : PageFailure page .keyError
  | subscribe (h : page.subscribePageWebhooks = .error ()) : PageFailure page .channelApi
  | fetch (h : page.fetchConnectedIgAccount = .error ()) : PageFailure page .channelApi
  | subscribeIg (linked : Option String) (hlinked : page.fetchConnectedIgAccount = .ok linked)
      (hsome : truthy linked ≠ none) (h : page.subscribeIgViaPageToken = .error ()) :
      PageFailure page .channelApi
  | encrypt (h : KeyUnusable env) : PageFailure page .encryption

inductive PhoneFailure (phone : PhoneEntry) : ExchangeError → Prop
  | missingKey (h : phone.id = none) : PhoneFailure phone .keyError
  | encrypt (h : KeyUnusable env) : PhoneFailure phone .encryption

inductive WabaFailure (visit : WabaVisit) : ExchangeError → Prop
  | subscribe (h : visit.subscribeWaba = .error ()) : WabaFailure visit .channelApi
  | phoneNumbers (h : visit.phoneNumbers = .error ()) : WabaFailure visit .channelApi
  | phone (phones : List PhoneEntry) (phone : PhoneEntry) (err : ExchangeError)
      (hphones : visit.phoneNumbers = .ok phones) (hmem : phone ∈ phones)
      (h : PhoneFailure env phone err) : WabaFailure visit err

inductive WhatsappFailure (answers : WhatsappAnswers) : ExchangeError → Prop
  | token (h : answers.token = .error ()) : WhatsappFailure answers .channelApi
  | granularScopes (h : answers.granularScopes = .error ()) : WhatsappFailure answers .channelApi
  | waba (scopes : List GranularScope) (wabaId : String) (err : ExchangeError)
      (hscopes : answers.granularScopes = .ok scopes) (hmem : wabaId ∈ wabaIds scopes)
      (h : WabaFailure env (answers.visit wabaId) err) : WhatsappFailure answers err

variable [Interpreter]

inductive FacebookFailure (state : String) (answers : FacebookAnswers) : ExchangeError → Prop
  | state (err : ExchangeError) (h : stateTenant env env.metaAppSecret state = .error err) :
      FacebookFailure state answers err
  | shortLived (h : answers.shortLived = .error ()) : FacebookFailure state answers .channelApi
  | longLived (h : answers.longLived = .error ()) : FacebookFailure state answers .channelApi
  | pageAccounts (h : answers.pageAccounts = .error ()) : FacebookFailure state answers .channelApi
  | noPages (h : answers.pageAccounts = .ok []) : FacebookFailure state answers .channelApi
  | page (pages : List PageVisit) (page : PageVisit) (err : ExchangeError)
      (hpages : answers.pageAccounts = .ok pages) (hmem : page ∈ pages)
      (h : PageFailure env page err) : FacebookFailure state answers err

inductive InstagramFailure (now : Time) (state : String) (answers : InstagramAnswers) :
    ExchangeError → Prop
  | state (err : ExchangeError) (h : stateTenant env env.metaIgAppSecret state = .error err) :
      InstagramFailure now state answers err
  | shortLived (h : answers.shortLived = .error ()) : InstagramFailure now state answers .channelApi
  | longLived (h : answers.longLived = .error ()) : InstagramFailure now state answers .channelApi
  | account (h : answers.account = .error ()) : InstagramFailure now state answers .channelApi
  | subscribe (h : answers.subscribe = .error ()) : InstagramFailure now state answers .channelApi
  | expiry (longLived : String) (expiresIn : ℤ) (hanswer : answers.longLived = .ok (longLived,expiresIn))
      (h : addSeconds now expiresIn = none) : InstagramFailure now state answers .overflow
  | encrypt (h : KeyUnusable env) : InstagramFailure now state answers .encryption

end Failures

variable {env : OAuthEnv} {t : UUID} {draws : ℕ → Draw}

theorem sealCredentials_verdict (draw : Draw) (credentials : Credentials) :
    Verdict (fun err => err = .encryption ∧ KeyUnusable env)
      (sealCredentials env draw credentials) := by
  unfold sealCredentials encryptCredentials
  cases hkey : decodeKey env.aes env.encryptionKey with
  | error _ => exact .raised _ ⟨rfl,hkey⟩
  | ok rawKey =>
    refine .returned _ fun err h => ?_
    rw [KeyUnusable,hkey] at h
    cases h.2

/-- Once the page is subscribed and its Instagram account is fetched, only the subscription of a
linked account can fail. -/
theorem pageFailure_iff {page : PageVisit} {pageId token : String} {linked : Option String}
    (hid : page.id = some pageId) (htoken : page.accessToken = some token)
    (hsubscribe : page.subscribePageWebhooks = .ok ()) (hkey : ¬ KeyUnusable env)
    (hfetch : page.fetchConnectedIgAccount = .ok linked) (err : ExchangeError) :
    PageFailure env page err ↔
      truthy linked ≠ none ∧ page.subscribeIgViaPageToken = .error () ∧ err = .channelApi := by
  constructor
  · intro h
    cases h with
    | missingKey h => simp [hid,htoken] at h
    | subscribe h => simp [hsubscribe] at h
    | fetch h => simp [hfetch] at h
    | subscribeIg linked' hlinked hsome h =>
      obtain rfl := Except.ok.inj (hfetch.symm.trans hlinked)
      exact ⟨hsome,h,rfl⟩
    | encrypt h => exact absurd h hkey
  · rintro ⟨hsome,h,rfl⟩
    exact .subscribeIg linked hfetch hsome h

theorem pageConnections_verdict (n : ℕ) (page : PageVisit) :
    Verdict (PageFailure env page) (pageConnections env t draws n page) := by
  cases hid : page.id with
  | none =>
    simp only [pageConnections,hid]
    exact .raised _ (.missingKey (.inl hid))
  | some pageId =>
  cases htoken : page.accessToken with
  | none =>
    simp only [pageConnections,hid,htoken]
    exact .raised _ (.missingKey (.inr htoken))
  | some token =>
  simp only [pageConnections,hid,htoken]
  cases hsubscribe : page.subscribePageWebhooks with
  | error _ => exact .raised _ (.subscribe hsubscribe)
  | ok _ =>
  have hfirst : Verdict _ (sealCredentials env (draws n)
      [("page_access_token",.str token),("page_id",.str pageId)]) :=
    sealCredentials_verdict (draws n) _
  dsimp only [graph,Except.mapError]
  generalize sealCredentials env (draws n) _ = x at hfirst
  cases hfirst with
  | raised err h =>
    obtain ⟨rfl,hkey⟩ := h
    exact .raised _ (.encrypt hkey)
  | returned blob hsealed =>
  have hkey : ¬ KeyUnusable env := fun hno => hsealed _ ⟨rfl,hno⟩
  cases hfetch : page.fetchConnectedIgAccount with
  | error _ => exact .raised _ (.fetch hfetch)
  | ok linked =>
  have hiff := pageFailure_iff hid htoken hsubscribe hkey hfetch
  dsimp only
  cases hlinked : truthy linked with
  | none => exact .returned _ fun err h => ((hiff err).mp h).1 hlinked
  | some ig =>
  dsimp only
  cases hig : page.subscribeIgViaPageToken with
  | error _ => exact .raised _ ((hiff _).mpr ⟨by simp [hlinked],hig,rfl⟩)
  | ok _ =>
  have hsecond : Verdict _ (sealCredentials env (draws (n+1))
      [("page_access_token",.str token),("ig_account_id",.str ig)]) :=
    sealCredentials_verdict (draws (n+1)) _
  dsimp only
  generalize sealCredentials env (draws (n+1)) _ = y at hsecond
  cases hsecond with
  | raised err h => exact absurd h.2 hkey
  | returned igBlob _ =>
    refine .returned _ fun err h => ?_
    rw [hiff,hig] at h
    cases h.2.1

theorem connectPages_verdict (n : ℕ) (pages : List PageVisit) :
    Verdict (fun err => ∃ page ∈ pages, PageFailure env page err)
      (connectPages env t draws n pages) := by
  induction pages generalizing n with
  | nil => exact .returned _ (by simp)
  | cons page rest ih =>
    have hloop : connectPages env t draws n (page :: rest) =
        (pageConnections env t draws n page).bind fun rows =>
          (connectPages env t draws (n + rows.length) rest).map (rows ++ ·) := by
      rw [connectPages]
      cases pageConnections env t draws n page with
      | error err => rfl
      | ok rows =>
        dsimp only [Except.bind]
        cases connectPages env t draws (n + rows.length) rest <;> rfl
    rw [hloop]
    exact .loop (pageConnections_verdict n page) fun rows => ih _

theorem phoneFailure_iff {phone : PhoneEntry} {phoneNumberId : String}
    (hid : phone.id = some phoneNumberId) (err : ExchangeError) :
    PhoneFailure env phone err ↔ err = .encryption ∧ KeyUnusable env := by
  constructor
  · intro h
    cases h with
    | missingKey h => simp [hid] at h
    | encrypt h => exact ⟨rfl,h⟩
  · rintro ⟨rfl,h⟩
    exact .encrypt h

theorem connectPhones_verdict (token wabaId : String) (n : ℕ) (phones : List PhoneEntry) :
    Verdict (fun err => ∃ phone ∈ phones, PhoneFailure env phone err)
      (connectPhones env t draws token wabaId n phones) := by
  induction phones generalizing n with
  | nil => exact .returned _ (by simp)
  | cons phone rest ih =>
    cases hid : phone.id with
    | none =>
      rw [connectPhones,hid]
      exact .raised _ ⟨phone,List.mem_cons_self,.missingKey hid⟩
    | some phoneNumberId =>
      have hloop : connectPhones env t draws token wabaId n (phone :: rest) =
          (sealCredentials env (draws n) [("access_token",.str token),
            ("phone_number_id",.str phoneNumberId),("waba_id",.str wabaId)]).bind fun blob =>
          (connectPhones env t draws token wabaId (n+1) rest).map
            (whatsappConnection t (draws n) wabaId phoneNumberId
              (phone.displayPhoneNumber.getD "") blob :: ·) := by
        rw [connectPhones,hid]
        dsimp only
        generalize sealCredentials env (draws n) _ = x
        cases x with
        | error err => rfl
        | ok blob => cases connectPhones env t draws token wabaId (n+1) rest <;> rfl
      rw [hloop]
      exact .loop ((sealCredentials_verdict (draws n) _).congr (phoneFailure_iff hid))
        fun blob => ih (n+1)

theorem wabaFailure_iff {visit : WabaVisit} {phones : List PhoneEntry}
    (hsubscribe : visit.subscribeWaba = .ok ()) (hnumbers : visit.phoneNumbers = .ok phones)
    (err : ExchangeError) :
    WabaFailure env visit err ↔ ∃ phone ∈ phones, PhoneFailure env phone err := by
  constructor
  · intro h
    cases h with
    | subscribe h => simp [hsubscribe] at h
    | phoneNumbers h => simp [hnumbers] at h
    | phone phones' phone err hphones hmem h =>
      obtain rfl := Except.ok.inj (hnumbers.symm.trans hphones)
      exact ⟨phone,hmem,h⟩
  · rintro ⟨phone,hmem,h⟩
    exact .phone phones phone err hnumbers hmem h

theorem connectWabas_verdict (token : String) (visit : String → WabaVisit) (n : ℕ)
    (ids : List String) :
    Verdict (fun err => ∃ wabaId ∈ ids, WabaFailure env (visit wabaId) err)
      (connectWabas env t draws token visit n ids) := by
  induction ids generalizing n with
  | nil => exact .returned _ (by simp)
  | cons wabaId rest ih =>
    rw [connectWabas]
    cases hsubscribe : (visit wabaId).subscribeWaba with
    | error _ => exact .raised _ ⟨wabaId,List.mem_cons_self,.subscribe hsubscribe⟩
    | ok _ =>
    cases hnumbers : (visit wabaId).phoneNumbers with
    | error _ => exact .raised _ ⟨wabaId,List.mem_cons_self,.phoneNumbers hnumbers⟩
    | ok phones =>
    have hfirst : Verdict (WabaFailure env (visit wabaId))
        (connectPhones env t draws token wabaId n phones) :=
      (connectPhones_verdict token wabaId n phones).congr (wabaFailure_iff hsubscribe hnumbers)
    have hloop : Verdict (fun err => ∃ id ∈ wabaId :: rest, WabaFailure env (visit id) err)
        ((connectPhones env t draws token wabaId n phones).bind fun rows =>
          (connectWabas env t draws token visit (n + rows.length) rest).map (rows ++ ·)) :=
      .loop hfirst fun rows => ih _
    dsimp only [graph,Except.mapError]
    generalize connectPhones env t draws token wabaId n phones = x at hloop
    cases x with
    | error err => exact hloop
    | ok rows =>
      dsimp only [Except.bind] at hloop ⊢
      generalize connectWabas env t draws token visit (n + rows.length) rest = y at hloop
      cases y <;> exact hloop

section Exchanges

variable {table : List ChannelConnection}

theorem exchangeWhatsappSignupCode_verdict (answers : WhatsappAnswers) :
    Verdict (WhatsappFailure env answers)
      (exchangeWhatsappSignupCode env table draws t answers) := by
  unfold exchangeWhatsappSignupCode
  cases htoken : answers.token with
  | error _ => exact .raised _ (.token htoken)
  | ok token =>
  cases hscopes : answers.granularScopes with
  | error _ => exact .raised _ (.granularScopes hscopes)
  | ok scopes =>
  have hwabas : Verdict _ (connectWabas env t draws token answers.visit 0 (wabaIds scopes)) :=
    connectWabas_verdict token answers.visit 0 (wabaIds scopes)
  dsimp only [graph,Except.mapError]
  generalize connectWabas env t draws token answers.visit 0 (wabaIds scopes) = x at hwabas
  cases hwabas with
  | raised err h =>
    obtain ⟨wabaId,hmem,h⟩ := h
    exact .raised err (.waba scopes wabaId err hscopes hmem h)
  | returned rows hno =>
    refine .returned _ fun err h => ?_
    cases h with
    | token h => simp [htoken] at h
    | granularScopes h => simp [hscopes] at h
    | waba scopes' wabaId err hscopes' hmem h =>
      obtain rfl := Except.ok.inj (hscopes.symm.trans hscopes')
      exact hno err ⟨wabaId,hmem,h⟩

variable [Interpreter]

theorem exchangeFacebookCode_verdict (state : String) (answers : FacebookAnswers) :
    Verdict (FacebookFailure env state answers)
      (exchangeFacebookCode env table draws state answers) := by
  unfold exchangeFacebookCode
  cases hstate : stateTenant env env.metaAppSecret state with
  | error err => exact .raised err (.state err hstate)
  | ok t =>
  cases hshort : answers.shortLived with
  | error _ => exact .raised _ (.shortLived hshort)
  | ok _ =>
  cases hlong : answers.longLived with
  | error _ => exact .raised _ (.longLived hlong)
  | ok _ =>
  cases haccounts : answers.pageAccounts with
  | error _ => exact .raised _ (.pageAccounts haccounts)
  | ok accounts =>
  dsimp only [graph,Except.mapError]
  split_ifs with hnil
  · exact .raised _ (.noPages (by rw [haccounts,hnil]))
  have hpages : Verdict _ (connectPages env t draws 0 accounts) :=
    connectPages_verdict 0 accounts
  generalize connectPages env t draws 0 accounts = x at hpages
  cases hpages with
  | raised err h =>
    obtain ⟨page,hmem,h⟩ := h
    exact .raised err (.page accounts page err haccounts hmem h)
  | returned rows hno =>
    refine .returned _ fun err h => ?_
    cases h with
    | state err h => simp [hstate] at h
    | shortLived h => simp [hshort] at h
    | longLived h => simp [hlong] at h
    | pageAccounts h => simp [haccounts] at h
    | noPages h => exact hnil (Except.ok.inj (haccounts.symm.trans h))
    | page pages page err hpages hmem h =>
      obtain rfl := Except.ok.inj (haccounts.symm.trans hpages)
      exact hno err ⟨page,hmem,h⟩

theorem exchangeInstagramCode_verdict (draw : Draw) (now : Time) (state : String)
    (answers : InstagramAnswers) : Verdict (InstagramFailure env now state answers)
      (exchangeInstagramCode env table draw now state answers) := by
  unfold exchangeInstagramCode
  cases hstate : stateTenant env env.metaIgAppSecret state with
  | error err => exact .raised err (.state err hstate)
  | ok t =>
  cases hshort : answers.shortLived with
  | error _ => exact .raised _ (.shortLived hshort)
  | ok _ =>
  cases hlong : answers.longLived with
  | error _ => exact .raised _ (.longLived hlong)
  | ok longLived =>
  cases haccount : answers.account with
  | error _ => exact .raised _ (.account haccount)
  | ok account =>
  cases hsubscribe : answers.subscribe with
  | error _ => exact .raised _ (.subscribe hsubscribe)
  | ok _ =>
  dsimp only [graph,Except.mapError]
  cases hsum : addSeconds now longLived.2 with
  | none =>
    simp only [expiryAfter,hsum]
    exact .raised _ (.expiry longLived.1 longLived.2 hlong hsum)
  | some expiresAt =>
  simp only [expiryAfter,hsum]
  have hseal : Verdict _ (sealCredentials env draw [("access_token",.str longLived.1),
      ("ig_user_id",.str account.1),("username",.str account.2)]) :=
    sealCredentials_verdict draw _
  generalize sealCredentials env draw _ = x at hseal
  cases hseal with
  | raised err h =>
    obtain ⟨rfl,hkey⟩ := h
    exact .raised _ (.encrypt hkey)
  | returned blob hkey =>
    refine .returned _ fun err h => ?_
    cases h with
    | state err h => simp [hstate] at h
    | shortLived h => simp [hshort] at h
    | longLived h => simp [hlong] at h
    | account h => simp [haccount] at h
    | subscribe h => simp [hsubscribe] at h
    | expiry text n hanswer h =>
      obtain rfl := Except.ok.inj (hlong.symm.trans hanswer)
      simp [hsum] at h
    | encrypt h => exact hkey _ ⟨rfl,h⟩

end Exchanges

end OAuth
end LeadEngine
