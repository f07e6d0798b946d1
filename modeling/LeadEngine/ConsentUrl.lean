import LeadEngine.FormText
import LeadEngine.OAuthRuns
import LeadEngine.StateFormat

/-! From the consent screen and back: the text of the redirect, what the screen reads from it, and
the callback that the browser is then sent to. -/
namespace LeadEngine
namespace OAuth

open FormText ByteText Interpreter Channels StateToken

def AuthUrl.text (url : AuthUrl) : String := writeUrl url.base url.params

def urlMarks : List Char := [':','/','?','&','=','+','%']

def redirectUri (settings : Settings) (channel : OAuthChannel) : String :=
  settings.baseUrl ++ "/channels/oauth/" ++ channel.value ++ "/callback"

def queryParam (params : List (String × String)) (name : String) : Option String :=
  ((params.filter fun p => p.1 = name).getLast?).map Prod.snd

/-- What a consent screen does that was shown one URL: it sends the browser to the redirect URI
with a code and the state of this URL, and with no error. -/
structure Consented (shown callback : String × List (String × String)) (code : String) :
    Prop where
  redirect : some callback.1 = queryParam shown.2 "redirect_uri"
  state : queryParam callback.2 "state" = queryParam shown.2 "state"
  code : queryParam callback.2 "code" = some code
  error : queryParam callback.2 "error" = none

section Text

variable {lib : StateLib} {settings settings' : Settings} {channel channel' : OAuthChannel}
  {t t' : UUID}

theorem readUrl_text (replaced : List Char → String) :
    readUrl replaced (buildAuthUrl lib settings channel t).text =
      ((buildAuthUrl lib settings channel t).base,
        (buildAuthUrl lib settings channel t).params) := by
  have hbase : '?' ∉ (buildAuthUrl lib settings channel t).base.toList ∧
      '#' ∉ (buildAuthUrl lib settings channel t).base.toList := by
    cases channel
    · exact ⟨by simp only [buildAuthUrl,buildFacebookAuthUrl]; decide,
        by simp only [buildAuthUrl,buildFacebookAuthUrl]; decide⟩
    · exact ⟨by simp only [buildAuthUrl,buildInstagramAuthUrl]; decide,
        by simp only [buildAuthUrl,buildInstagramAuthUrl]; decide⟩
  have hread : readUrl replaced (writeUrl (buildAuthUrl lib settings channel t).base
      (buildAuthUrl lib settings channel t).params ++ "") = _ :=
    readUrl_writeUrl replaced hbase.1 hbase.2 (.inl rfl)
  rwa [String.append_empty] at hread

theorem text_marks {c : Char} (h : c ∈ (buildAuthUrl lib settings channel t).text.toList) :
    unreserved c = true ∨ c ∈ urlMarks := by
  have hbase : ((buildAuthUrl lib settings channel t).base.toList.all fun c =>
      unreserved c || urlMarks.contains c) = true := by
    cases channel
    · simp only [buildAuthUrl,buildFacebookAuthUrl]
      decide
    · simp only [buildAuthUrl,buildInstagramAuthUrl]
      decide
  have hmarks : (['+','%','&','='].all fun c => urlMarks.contains c) = true := by decide
  simp only [AuthUrl.text,writeUrl,String.toList_append,String.toList_ofList,List.mem_append] at h
  rcases h with (h | h) | h
  · simpa using List.all_eq_true.mp hbase c h
  · exact .inr (by rw [List.mem_singleton.mp h]; decide)
  · exact (mem_urlencode h).imp_right fun hc => by simpa using List.all_eq_true.mp hmarks c hc

@[simp] theorem queryParam_state :
    queryParam (buildAuthUrl lib settings channel t).params "state" =
      some (stateToken lib settings t channel) := by
  cases channel <;> rfl

@[simp] theorem queryParam_redirectUri :
    queryParam (buildAuthUrl lib settings channel t).params "redirect_uri" =
      some (redirectUri settings channel) := by
  cases channel
  · simp [queryParam,buildAuthUrl,buildFacebookAuthUrl,redirectUri,OAuthChannel.value,
      String.append_assoc]
  · simp [queryParam,buildAuthUrl,buildInstagramAuthUrl,redirectUri,OAuthChannel.value,
      String.append_assoc]

/-- The documented answer of a consent screen: it appends a code and the state to the redirect URI,
with or without a fragment. -/
theorem consented_redirect {replaced : List Char → String} {code fragment : String}
    (hquery : '?' ∉ settings.baseUrl.toList) (hhash : '#' ∉ settings.baseUrl.toList)
    (hfragment : fragment.toList.head? = none ∨ fragment.toList.head? = some '#') :
    Consented (readUrl replaced (buildAuthUrl lib settings channel t).text)
      (readUrl replaced (writeUrl (redirectUri settings channel)
        [("code",code),("state",stateToken lib settings t channel)] ++ fragment)) code := by
  have hroute : '?' ∉ ("/channels/oauth/" ++ channel.value ++ "/callback").toList ∧
      '#' ∉ ("/channels/oauth/" ++ channel.value ++ "/callback").toList := by
    cases channel
    · exact ⟨by decide,by decide⟩
    · exact ⟨by decide,by decide⟩
  have huri : (redirectUri settings channel).toList = settings.baseUrl.toList ++
      ("/channels/oauth/" ++ channel.value ++ "/callback").toList := by
    simp [redirectUri]
  have hquery' : '?' ∉ (redirectUri settings channel).toList := by
    rw [huri,List.mem_append]
    rintro (h | h)
    · exact hquery h
    · exact hroute.1 h
  have hhash' : '#' ∉ (redirectUri settings channel).toList := by
    rw [huri,List.mem_append]
    rintro (h | h)
    · exact hhash h
    · exact hroute.2 h
  rw [readUrl_text,readUrl_writeUrl replaced hquery' hhash' hfragment]
  exact ⟨queryParam_redirectUri.symm,by rw [queryParam_state]; rfl,rfl,rfl⟩

end Text

section Refusals

variable {env : OAuthEnv} {t : UUID}

theorem graph_ne {α : Type} {answer : Except Unit α} {err : ExchangeError}
    (h : graph answer = .error err) : err ≠ .oauthState := by
  cases answer with
  | error _ => exact fun heq => nomatch (Except.error.inj h).trans heq
  | ok a => cases h

theorem expiryAfter_ne {now : Time} {n : ℤ} {err : ExchangeError}
    (h : expiryAfter now n = .error err) : err ≠ .oauthState := by
  unfold expiryAfter at h
  split at h
  · exact fun heq => nomatch (Except.error.inj h).trans heq
  · cases h

theorem sealCredentials_ne {draw : Draw} {credentials : Credentials} {err : ExchangeError}
    (h : sealCredentials env draw credentials = .error err) : err ≠ .oauthState := by
  rw [sealCredentials] at h
  cases hblob : encryptCredentials env.aes draw.nonce credentials env.encryptionKey with
  | error _ =>
    rw [hblob] at h
    exact fun heq => nomatch (Except.error.inj h).trans heq
  | ok blob =>
    rw [hblob] at h
    cases h

theorem pageConnections_ne {draws : ℕ → Draw} {n : ℕ} {page : PageVisit} {err : ExchangeError}
    (h : pageConnections env t draws n page = .error err) : err ≠ .oauthState := by
  unfold pageConnections at h
  split at h
  · split at h
    · rename_i hsubscribe
      exact Except.error.inj h ▸ graph_ne hsubscribe
    · split at h
      · rename_i hseal
        exact Except.error.inj h ▸ sealCredentials_ne hseal
      · dsimp only at h
        split at h
        · rename_i hlinked
          exact Except.error.inj h ▸ graph_ne hlinked
        · split at h
          · cases h
          · split at h
            · rename_i hsubscribe
              exact Except.error.inj h ▸ graph_ne hsubscribe
            · split at h
              · rename_i hseal
                exact Except.error.inj h ▸ sealCredentials_ne hseal
              · cases h
  · exact fun heq => nomatch (Except.error.inj h).trans heq

theorem connectPages_ne {draws : ℕ → Draw} {n : ℕ} {pages : List PageVisit} {err : ExchangeError}
    (h : connectPages env t draws n pages = .error err) : err ≠ .oauthState := by
  induction pages generalizing n err with
  | nil => cases h
  | cons page rest ih =>
    rw [connectPages] at h
    split at h
    · rename_i hpage
      exact Except.error.inj h ▸ pageConnections_ne hpage
    · split at h
      · rename_i hrest
        exact Except.error.inj h ▸ ih hrest
      · cases h

variable [Interpreter] {lib : StateLib} {settings : Settings} {aes : AesGcm}
  {table : List ChannelConnection} {state : String} {answers : CallbackAnswers}

/-- An exchange refuses the state only where it has no tenant. -/
theorem exchangeCode_ne (h : stateTenant (settings.oauthEnv lib aes)
    (settings.secret answers.channel) state = .ok t) :
    exchangeCode (settings.oauthEnv lib aes) table state answers ≠ .error .oauthState := by
  intro hrefused
  cases answers with
  | facebook draws answers =>
    have htenant : stateTenant (settings.oauthEnv lib aes)
        (settings.oauthEnv lib aes).metaAppSecret state = .ok t := h
    simp only [exchangeCode,exchangeFacebookCode,htenant] at hrefused
    split at hrefused
    · split_ifs at hrefused
      · cases hrefused
      · split at hrefused
        · rename_i hpages
          exact connectPages_ne hpages (Except.error.inj hrefused)
        · cases hrefused
    · cases hrefused
  | instagram draw now answers =>
    have htenant : stateTenant (settings.oauthEnv lib aes)
        (settings.oauthEnv lib aes).metaIgAppSecret state = .ok t := h
    have hexchange : exchangeInstagramCode (settings.oauthEnv lib aes) table draw now state
        answers = .error .oauthState := by
      rw [exchangeCode] at hrefused
      cases hx : exchangeInstagramCode (settings.oauthEnv lib aes) table draw now state answers with
      | error err =>
        rw [hx] at hrefused
        exact congrArg _ (Except.error.inj hrefused)
      | ok r =>
        rw [hx] at hrefused
        cases hrefused
    simp only [exchangeInstagramCode,htenant] at hexchange
    split at hexchange
    · split at hexchange
      · rename_i hexpiry
        exact expiryAfter_ne hexpiry (Except.error.inj hexchange)
      · split at hexchange
        · rename_i hseal
          exact sealCredentials_ne hseal (Except.error.inj hexchange)
        · cases hexchange
    · cases hexchange

end Refusals

section Return

variable [JsonText.Floats] [Interpreter]

def callbackOf (env : OAuthEnv) (table : List ChannelConnection)
    (callback : String × List (String × String)) (answers : CallbackAnswers) :
    Except CallbackError (List ChannelConnection × List ChannelConnection) :=
  oauthCallback env table (queryParam callback.2 "code") (queryParam callback.2 "state")
    (queryParam callback.2 "error") answers

omit [JsonText.Floats] in
theorem oauthCallback_eq {env : OAuthEnv} {table : List ChannelConnection} {code state : String}
    (hcode : code ≠ "") (hstate : state ≠ "") (answers : CallbackAnswers) :
    oauthCallback env table (some code) (some state) none answers =
      (exchangeCode env table state answers).mapError callbackError := by
  have hcode' : truthy (some code) = _ := truthy_eq_some.mpr ⟨rfl,hcode⟩
  have hstate' : truthy (some state) = _ := truthy_eq_some.mpr ⟨rfl,hstate⟩
  simp only [oauthCallback,hcode',hstate',truthy_none]

omit [JsonText.Floats] [Interpreter] in
theorem mapError_callbackError {α : Type} {x : Except ExchangeError α}
    (h : x ≠ .error .oauthState) : x.mapError callbackError = x.mapError .badGateway := by
  cases x with
  | ok a => rfl
  | error err =>
    cases err with
    | oauthState => exact absurd rfl h
    | _ => rfl

def consentUrl (runtime : Runtime) (settings : Settings) (channel : OAuthChannel) (t : UUID) :
    String :=
  (buildAuthUrl runtime.stateLib settings channel t).text

variable {runtime : Runtime} {settings settings' : Settings} {aes : AesGcm} {t t' : UUID}
  {table : List ChannelConnection} {channel channel' : OAuthChannel} {answers : CallbackAnswers}
  {replaced : List Char → String} {callback code : String}

omit [Interpreter] in
theorem consentUrl_inj (ht : t < 2^128) (ht' : t' < 2^128)
    (hsame : consentUrl runtime settings channel t = consentUrl runtime settings' channel' t') :
    t = t' ∧ channel = channel' := by
  have hread := congrArg (fun url => queryParam (readUrl (fun _ => "") url).2 "state") hsame
  simp only [consentUrl,readUrl_text,queryParam_state,Option.some.injEq] at hread
  exact stateToken_inj (roundTrips_stateLib_runtime ht) (roundTrips_stateLib_runtime ht') hread

omit [Interpreter] in
theorem state_verbatim : ∃ front, consentUrl runtime settings channel t =
    front ++ "&state=" ++ stateToken runtime.stateLib settings t channel := by
  have htoken : quotePlus (stateToken runtime.stateLib settings t channel) =
      (stateToken runtime.stateLib settings t channel).toList :=
    quotePlus_eq_self (signedToken_signState runtime.tokenLib
      (statePayload runtime.stateLib t channel) (settings.secret channel)).urlSafe
  have hname : quotePlus "state" = "state".toList := by decide +kernel
  obtain ⟨p,rest,hparams⟩ : ∃ p rest, (buildAuthUrl runtime.stateLib settings channel t).params =
      p :: rest ++ [("state",stateToken runtime.stateLib settings t channel)] := by
    cases channel
    · exact ⟨_,[_,_],rfl⟩
    · exact ⟨_,[_,_,_],rfl⟩
  refine ⟨writeUrl (buildAuthUrl runtime.stateLib settings channel t).base (p :: rest),?_⟩
  apply String.toList_injective
  rw [consentUrl,AuthUrl.text,writeUrl,writeUrl,hparams,urlencode_concat (List.cons_ne_nil p rest),
    htoken,hname]
  simp

/-- The callback that follows a consent goes on with the state of the initiation. -/
theorem callbackOf_consented (ht : t < 2^128) (hcode : code ≠ "")
    (hback : Consented (readUrl replaced (consentUrl runtime settings answers.channel t))
      (readUrl replaced callback) code) :
    callbackOf (settings.oauthEnv runtime.stateLib aes) table (readUrl replaced callback) answers =
      (exchangeCode (settings.oauthEnv runtime.stateLib aes) table
        (stateToken runtime.stateLib settings t answers.channel) answers).mapError
          .badGateway := by
  have hround : RoundTrips runtime.stateLib t answers.channel := roundTrips_stateLib_runtime ht
  have hstate := hback.state
  rw [consentUrl,readUrl_text,queryParam_state] at hstate
  rw [callbackOf,hback.code,hback.error,hstate,
    oauthCallback_eq hcode (stateToken_ne_empty hround)]
  exact mapError_callbackError (exchangeCode_ne (stateTenant_issued hround))

/-- The screen reads from the URL what the program put in, and no initiation of another tenant or
channel has the same URL. -/
structure ConsentUrl (runtime : Runtime) (settings : Settings) (channel : OAuthChannel) (t : UUID)
    (replaced : List Char → String) : Prop where
  read : readUrl replaced (consentUrl runtime settings channel t) =
    ((buildAuthUrl runtime.stateLib settings channel t).base,
      (buildAuthUrl runtime.stateLib settings channel t).params)
  marks : ∀ c ∈ (consentUrl runtime settings channel t).toList, unreserved c = true ∨ c ∈ urlMarks
  state : ∃ front, consentUrl runtime settings channel t =
    front ++ "&state=" ++ stateToken runtime.stateLib settings t channel
  own : ∀ settings' channel' t', t' < 2^128 →
    consentUrl runtime settings' channel' t' = consentUrl runtime settings channel t →
      t' = t ∧ channel' = channel

omit [Interpreter] in
theorem consentUrl_reads (ht : t < 2^128) : ConsentUrl runtime settings channel t replaced where
  read := readUrl_text replaced
  marks _ := text_marks
  state := state_verbatim
  own _ _ _ ht' hsame := consentUrl_inj ht' ht hsame

/-- A tenant that is sent to a consent screen comes back as itself: the screen reads from the URL
what the program put in, and whatever URL it answers with, the callback goes through with the state
of this tenant and connects accounts to this tenant only. -/
theorem consent_returns (ht : t < 2^128) :
    ConsentUrl runtime settings channel t replaced ∧
      ∀ callback code answers, answers.channel = channel → code ≠ "" →
        Consented (readUrl replaced (consentUrl runtime settings channel t))
          (readUrl replaced callback) code →
        (readUrl replaced callback).1 = redirectUri settings channel ∧
        callbackOf (settings.oauthEnv runtime.stateLib aes) table (readUrl replaced callback)
            answers = (exchangeCode (settings.oauthEnv runtime.stateLib aes) table
              (stateToken runtime.stateLib settings t channel) answers).mapError .badGateway ∧
        ∀ table' rows, callbackOf (settings.oauthEnv runtime.stateLib aes) table
            (readUrl replaced callback) answers = .ok (table',rows) →
          ∀ r ∈ rows, r.tenantId = t := by
  refine ⟨consentUrl_reads ht,?_⟩
  rintro callback code answers rfl hcode hback
  have hredirect := hback.redirect
  rw [consentUrl,readUrl_text,queryParam_redirectUri] at hredirect
  refine ⟨Option.some.inj hredirect,callbackOf_consented ht hcode hback,?_⟩
  intro table' rows hok
  rw [callbackOf_consented ht hcode hback,Fallible.mapError_eq_ok] at hok
  obtain ⟨u,hu,hrows⟩ := exchangeCode_tenant hok
  rw [stateTenant_issued (roundTrips_stateLib_runtime ht)] at hu
  rw [Except.ok.inj hu]
  exact hrows

end Return

def pageGranted : CallbackAnswers :=
  .facebook (fun _ => ⟨3,[]⟩) ⟨.ok "short",.ok "long",
    .ok [⟨some "p1",some "Shop",some "token",.ok (),.ok none,.ok ()⟩]⟩

theorem pageGranted_connected [Interpreter] {lib : StateLib} {settings : Settings}
    {table : List ChannelConnection} {state : String} {t : UUID}
    (h : stateTenant (settings.oauthEnv lib demoAes) (settings.secret .facebook) state = .ok t) :
    (exchangeCode (settings.oauthEnv lib demoAes) table state pageGranted).isOk = true := by
  have htenant : stateTenant (settings.oauthEnv lib demoAes)
      (settings.oauthEnv lib demoAes).metaAppSecret state = .ok t := h
  simp only [pageGranted,exchangeCode,exchangeFacebookCode,htenant]
  rfl

/-- Tenant 1 is sent to Facebook, which sends the browser back with a code and a fragment. -/
theorem facebook_returns :
    letI := JsonText.noFloats
    letI := Interpreter.ascii id
    let lib := twoStates.stateLib
    let settings : Settings := { metaAppId := "app 1", metaAppSecret := "secret" }
    let callback := writeUrl "http://localhost:8000/channels/oauth/facebook/callback"
      [("code","AQ/x"),("state",stateToken lib settings 1 .facebook)] ++ "#_=_"
    (callbackOf (settings.oauthEnv lib demoAes) [] (readUrl (fun _ => "") callback)
        pageGranted).isOk = true ∧
      ∀ table' rows, callbackOf (settings.oauthEnv lib demoAes) []
        (readUrl (fun _ => "") callback) pageGranted = .ok (table',rows) →
          ∀ r ∈ rows, r.tenantId = 1 := by
  let := JsonText.noFloats
  let := Interpreter.ascii id
  intro lib settings callback
  have hback : Consented (readUrl (fun _ => "") (consentUrl twoStates settings .facebook 1))
      (readUrl (fun _ => "") callback) "AQ/x" :=
    consented_redirect (by decide) (by decide) (.inr rfl)
  obtain ⟨_,hreturn⟩ := @consent_returns _ _ twoStates settings demoAes 1 [] .facebook
    (fun _ => "") (by decide)
  obtain ⟨_,hendpoint,hrows⟩ := hreturn callback "AQ/x" pageGranted rfl (by decide) hback
  have hround : RoundTrips lib 1 .facebook := roundTrips_stateLib_runtime (by decide)
  obtain ⟨r,hr⟩ := Fallible.isOk_iff.mp (pageGranted_connected (stateTenant_issued hround))
  exact ⟨Fallible.isOk_iff.mpr ⟨r,hendpoint.trans (Fallible.mapError_eq_ok.mpr hr)⟩,hrows⟩

end OAuth
end LeadEngine
