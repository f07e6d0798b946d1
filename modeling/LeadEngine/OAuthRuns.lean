import LeadEngine.OAuthDesk

/-! Runs of the Facebook and Instagram endpoints with an attacker who cannot sign under a
secret: which callbacks are matched by an initiation of their own. -/
namespace LeadEngine
namespace OAuth

open Interpreter Channels Accounts Agreement TransitionSystem

section Runs

variable [Interpreter] {lib : StateLib} {settings : Settings} {aes : AesGcm}

/-- The state is the token that the channel issues for the tenant. -/
structure Genuine (lib : StateLib) (settings : Settings) (i : Issue) : Prop where
  state : i.state = stateToken lib settings i.tenantId i.channel
  roundTrips : RoundTrips lib i.tenantId i.channel

omit [Interpreter] in
theorem Genuine.splitDot {i : Issue} (h : Genuine lib settings i) :
    splitDot i.state = some (encodedPayload lib i.tenantId i.channel,
      lib.hmac (settings.secret i.channel) (encodedPayload lib i.tenantId i.channel)) := by
  rw [h.state]
  exact splitDot_stateToken h.roundTrips

omit [Interpreter] in
theorem Genuine.key_of_state {i j : Issue} (hi : Genuine lib settings i)
    (hj : Genuine lib settings j) (h : i.state = j.state) : i.key = j.key := by
  have hsplit := hi.splitDot
  rw [h,hj.splitDot] at hsplit
  obtain ⟨hencoded,_⟩ := Prod.mk.inj (Option.some.inj hsplit)
  have hdecoded := decode_encodedPayload hi.roundTrips
  rw [← hencoded,decode_encodedPayload hj.roundTrips] at hdecoded
  have hpayload := Except.ok.inj hdecoded
  simp only [statePayload,List.cons.injEq,Prod.mk.injEq,Json.str.injEq,and_true,true_and]
    at hpayload
  have htenant := hi.roundTrips.parse
  rw [← hpayload.2,hj.roundTrips.parse] at htenant
  exact Prod.ext (Option.some.inj htenant).symm (OAuthChannel.value_inj hpayload.1).symm

omit [Interpreter] in
theorem count_state {issues : List Issue} (h : ∀ j ∈ issues, Genuine lib settings j) {i : Issue}
    (hi : Genuine lib settings i) :
    (issues.map Issue.state).count i.state = (issues.map Issue.key).count i.key := by
  rw [List.count_eq_countP,List.count_eq_countP,List.countP_map,List.countP_map]
  apply List.countP_congr
  intro j hj
  simp only [Function.comp,beq_iff_eq]
  constructor
  · exact (h j hj).key_of_state hi
  · intro hkey
    obtain ⟨ht,hc⟩ := Prod.mk.inj hkey
    rw [(h j hj).state,hi.state,ht,hc]

/-- An honest callback that goes through presents a state that was issued for its tenant. -/
theorem mem_issued_of_accepted {desk desk' : Desk} {request : Request}
    (hs : DeskStep lib settings aes desk request desk')
    (hissued : ∀ j ∈ desk.issued, Genuine lib settings j)
    (hhonest : Honest lib settings aes desk request) {i : Issue}
    (hi : i ∈ accepted lib settings aes desk request) : i ∈ desk.issued := by
  obtain ⟨code,error,answers,hrequest,hchannel,htenant,_⟩ := accepted_inv hi
  obtain ⟨data,v,hverify,hget,hparse⟩ := verifyState_of_stateTenant htenant
  obtain ⟨hempty,hown⟩ := hhonest i hi
  have hpresent := hs.1 code i.state error answers hrequest
  rw [hchannel] at hpresent
  have hfound : ∃ j ∈ desk.issued, j.state = i.state := by
    rcases hpresent with hnone | hsigned
    · exact hempty hnone
    · obtain ⟨b64Payload,hsplit⟩ := splitDot_of_verifyState hverify
      obtain ⟨j,hj,hsecret,hpart⟩ := hsigned _ _ hsplit rfl
      refine ⟨j,hj,?_⟩
      have htoken := (hissued j hj).splitDot
      rw [htoken,Option.map_some,Option.some_inj] at hpart
      rw [eq_of_splitDot htoken,eq_of_splitDot hsplit,hsecret]
      exact congrArg (fun b => b ++ "." ++ lib.hmac (settings.secret i.channel) b) hpart
  obtain ⟨j,hj,hstate⟩ := hfound
  have hgen := hissued j hj
  have hchannel := hown data hverify
  rw [← hstate,hgen.state] at hverify
  rw [verifyState_stateToken hgen.roundTrips hverify] at hget hchannel
  have hc : j.channel = i.channel := by
    apply OAuthChannel.value_inj
    simpa [statePayload,Json.get?] using hchannel
  have ht : j.tenantId = i.tenantId := by
    obtain rfl : .str (lib.str j.tenantId) = v := by simpa [statePayload,Json.get?] using hget
    rw [str_str,hgen.roundTrips.parse] at hparse
    exact Option.some.inj hparse
  obtain ⟨t,c,st⟩ := i
  obtain ⟨t',c',st'⟩ := j
  obtain rfl : t' = t := ht
  obtain rfl : c' = c := hc
  obtain rfl : st' = st := hstate
  exact hj

omit [Interpreter] in
theorem presentable_of_issued {issued : List Issue} {i : Issue} (hi : i ∈ issued) :
    Presentable lib settings issued i.channel i.state :=
  .inr fun _ _ hsplit _ => ⟨i,hi,rfl,by rw [hsplit]; rfl⟩

theorem DeskStep.history {desk desk' : Desk} {request : Request}
    (hs : DeskStep lib settings aes desk request desk') :
    desk'.issued = desk.issued ++ issued lib settings request ∧
      desk'.accepted = desk.accepted ++ accepted lib settings aes desk request := by
  rw [← hs.2]
  exact ⟨rfl,rfl⟩

/-- The history of a run: what was issued is genuine, and what was accepted was issued. -/
structure Recorded (lib : StateLib) (settings : Settings) (desk : Desk) : Prop where
  genuine : ∀ i ∈ desk.issued, Genuine lib settings i
  known : ∀ i ∈ desk.accepted, i ∈ desk.issued

omit [Interpreter] in
theorem state_of_issued {request : Request} {i : Issue} (h : i ∈ issued lib settings request) :
    i.state = stateToken lib settings i.tenantId i.channel := by
  cases request with
  | initiate channel user =>
    simp only [issued,Option.mem_toList,Option.map_eq_some_iff] at h
    obtain ⟨t,_,rfl⟩ := h
    exact state_buildAuthUrl lib settings channel t
  | callback => simp [issued] at h

theorem DeskStep.recorded {desk desk' : Desk} {request : Request}
    (hs : DeskStep lib settings aes desk request desk') (hd : Recorded lib settings desk)
    (hlib : ∀ i ∈ issued lib settings request, RoundTrips lib i.tenantId i.channel)
    (hhonest : Honest lib settings aes desk request) : Recorded lib settings desk' := by
  have hknown : ∀ i ∈ accepted lib settings aes desk request, i ∈ desk.issued :=
    fun i hi => mem_issued_of_accepted hs hd.genuine hhonest hi
  obtain ⟨hissued,haccepted⟩ := hs.history
  constructor
  · intro i hi
    rw [hissued] at hi
    rcases List.mem_append.mp hi with hi | hi
    · exact hd.genuine i hi
    · exact ⟨state_of_issued hi,hlib i hi⟩
  · intro i hi
    rw [hissued]
    rw [haccepted] at hi
    rcases List.mem_append.mp hi with hi | hi
    · exact List.mem_append_left _ (hd.known i hi)
    · exact List.mem_append_left _ (hknown i hi)

theorem event_cases (lib : StateLib) (settings : Settings) (aes : AesGcm) (desk desk' : Desk)
    (request : Request) :
    (∃ i, issued lib settings request = [i] ∧ accepted lib settings aes desk request = [] ∧
        event lib settings aes (desk,request,desk') = .start i.key) ∨
      (∃ i, issued lib settings request = [] ∧ accepted lib settings aes desk request = [i] ∧
        event lib settings aes (desk,request,desk') = .finish i.key) ∨
      (issued lib settings request = [] ∧ accepted lib settings aes desk request = [] ∧
        event lib settings aes (desk,request,desk') = .silent) := by
  cases request with
  | initiate channel user =>
    cases ht : initiator user with
    | none => exact .inr (.inr ⟨by simp [issued,ht],rfl,by simp [event,issued,accepted,ht]⟩)
    | some t => exact .inl ⟨_,by simp [issued,ht]; rfl,rfl,by simp [event,issued,ht]⟩
  | callback code state error answers =>
    cases hc : (created lib settings aes desk (.callback code state error answers)).head? with
    | none => exact .inr (.inr ⟨rfl,by simp [accepted,hc],by simp [event,issued,accepted,hc]⟩)
    | some c =>
      exact .inr (.inl ⟨_,rfl,by simp [accepted,hc]; rfl,by simp [event,issued,accepted,hc]⟩)

theorem event_of_accepted {desk desk' : Desk} {request : Request} {i : Issue}
    (h : accepted lib settings aes desk request = [i]) :
    event lib settings aes (desk,request,desk') = .finish i.key := by
  rcases event_cases lib settings aes desk desk' request with
    ⟨j,_,ha,_⟩ | ⟨j,_,ha,he⟩ | ⟨_,ha,_⟩
  · simp [h] at ha
  · rw [he,List.singleton_inj.mp (h.symm.trans ha)]
  · simp [h] at ha

theorem count_event {tr : List (Transition Desk Request)} {desk : Desk}
    (h : Path (DeskStep lib settings aes) .empty tr desk) (k : UUID × OAuthChannel) :
    (tr.map (event lib settings aes)).count (.start k) = (desk.issued.map Issue.key).count k ∧
      (tr.map (event lib settings aes)).count (.finish k) =
        (desk.accepted.map Issue.key).count k := by
  induction h with
  | nil => exact ⟨rfl,rfl⟩
  | @snoc tr desk desk' request _ hs ih =>
    obtain ⟨hissued,haccepted⟩ := hs.history
    rw [List.map_append,List.count_append,List.count_append,ih.1,ih.2,hissued,haccepted]
    simp only [List.map_append,List.count_append,Nat.add_left_cancel_iff]
    rcases event_cases lib settings aes desk desk' request with
      ⟨i,hi,ha,he⟩ | ⟨i,hi,ha,he⟩ | ⟨hi,ha,he⟩
    · simp [hi,ha,he,List.count_singleton]
    · simp [hi,ha,he,List.count_singleton]
    · simp [hi,ha,he]

theorem recorded_of_path {tr : List (Transition Desk Request)} {desk : Desk}
    (h : Path (DeskStep lib settings aes) .empty tr desk)
    (hlib : ∀ i ∈ desk.issued, RoundTrips lib i.tenantId i.channel)
    (hhonest : ∀ x ∈ tr, Honest lib settings aes x.1 x.2.1) : Recorded lib settings desk := by
  induction h with
  | nil => exact ⟨by simp [Desk.empty],by simp [Desk.empty]⟩
  | @snoc tr desk desk' request _ hs ih =>
    rw [hs.history.1] at hlib
    have hd := ih (fun i hi => hlib i (List.mem_append_left _ hi))
      (fun x hx => hhonest x (List.mem_append_left _ hx))
    exact hs.recorded hd (fun i hi => hlib i (List.mem_append_right _ hi))
      (hhonest _ (List.mem_append_right _ (List.mem_singleton.mpr rfl)))

/-- The last step of an honest run agrees with the initiations exactly when its state was
issued more often than accepted. -/
theorem unspent_iff {tr : List (Transition Desk Request)} {desk desk' : Desk} {request : Request}
    (h : Path (DeskStep lib settings aes) .empty tr desk)
    (hs : DeskStep lib settings aes desk request desk') (hd : Recorded lib settings desk)
    (hhonest : Honest lib settings aes desk request) :
    (∀ k, event lib settings aes (desk,request,desk') = .finish k →
        (tr.map (event lib settings aes)).count (.finish k) <
          (tr.map (event lib settings aes)).count (.start k)) ↔
      Unspent lib settings aes desk request := by
  have hiff : ∀ i ∈ accepted lib settings aes desk request,
      ((tr.map (event lib settings aes)).count (.finish i.key) <
        (tr.map (event lib settings aes)).count (.start i.key) ↔
      (desk.accepted.map Issue.state).count i.state <
        (desk.issued.map Issue.state).count i.state) := by
    intro i hi
    have hgen := hd.genuine i (mem_issued_of_accepted hs hd.genuine hhonest hi)
    rw [(count_event h i.key).1,(count_event h i.key).2,count_state hd.genuine hgen,
      count_state (fun j hj => hd.genuine j (hd.known j hj)) hgen]
  rcases event_cases lib settings aes desk desk' request with
    ⟨i,_,ha,he⟩ | ⟨i,_,ha,he⟩ | ⟨_,ha,he⟩
  · simp [he,Unspent,ha]
  · have hlast := hiff i (by simp [ha])
    simp only [he,Event.finish.injEq,forall_eq',Unspent,ha,List.mem_singleton,forall_eq]
    exact hlast
  · simp [he,Unspent,ha]

/-- In a run whose callbacks present states of their own channel, issued ones where the secret
is empty, each callback that creates connections has an initiation of its own before it, by
the same tenant on the same channel, exactly when no state is spent twice. -/
theorem agreement_iff_unspent {tr : List (Transition Desk Request)} {desk : Desk}
    (h : Path (DeskStep lib settings aes) .empty tr desk)
    (hlib : ∀ i ∈ desk.issued, RoundTrips lib i.tenantId i.channel)
    (hhonest : ∀ x ∈ tr, Honest lib settings aes x.1 x.2.1) :
    InjectiveAgreement (tr.map (event lib settings aes)) ↔
      ∀ x ∈ tr, Unspent lib settings aes x.1 x.2.1 := by
  induction h with
  | nil => exact iff_of_true injectiveAgreement_nil (by simp)
  | @snoc tr desk desk' request hp hs ih =>
    rw [hs.history.1] at hlib
    have hgrown : ∀ i ∈ desk.issued, RoundTrips lib i.tenantId i.channel :=
      fun i hi => hlib i (List.mem_append_left _ hi)
    have hearlier : ∀ x ∈ tr, Honest lib settings aes x.1 x.2.1 :=
      fun x hx => hhonest x (List.mem_append_left _ hx)
    have hlast : Honest lib settings aes desk request :=
      hhonest _ (List.mem_append_right _ (List.mem_singleton.mpr rfl))
    have hd := recorded_of_path hp hgrown hearlier
    have hiff := ih hgrown hearlier
    have hstep := unspent_iff hp hs hd hlast
    rw [List.map_append,List.map_singleton]
    constructor
    · intro hagree
      have hprev := hagree.of_append
      intro x hx
      rcases List.mem_append.mp hx with hx | hx
      · exact hiff.mp hprev x hx
      · obtain rfl := List.mem_singleton.mp hx
        exact hstep.mp ((injectiveAgreement_snoc hprev _).mp hagree)
    · intro hunspent
      have hprev := hiff.mpr fun x hx => hunspent x (List.mem_append_left _ hx)
      apply (injectiveAgreement_snoc hprev _).mpr
      exact hstep.mpr (hunspent _ (List.mem_append_right _ (List.mem_singleton.mpr rfl)))

end Runs

def tenantText : String := "00000000-0000-0000-0000-000000000001"

def facebookChars : List Char :=
  ['e','y','J','j','a','G','F','u','b','m','V','s','I','j','o','g','I','m','Z','h','Y','2','V','i',
    'b','2','9','r','I','i','w','g','I','n','R','l','b','m','F','u','d','F','9','p','Z','C','I','6',
    'I','C','I','w','M','D','A','w','M','D','A','w','M','C','0','w','M','D','A','w','L','T','A','w',
    'M','D','A','t','M','D','A','w','M','C','0','w','M','D','A','w','M','D','A','w','M','D','A','w',
    'M','D','E','i','f','Q']

def instagramChars : List Char :=
  ['e','y','J','j','a','G','F','u','b','m','V','s','I','j','o','g','I','m','l','u','c','3','R','h',
    'Z','3','J','h','b','S','I','s','I','C','J','0','Z','W','5','h','b','n','R','f','a','W','Q','i',
    'O','i','A','i','M','D','A','w','M','D','A','w','M','D','A','t','M','D','A','w','M','C','0','w',
    'M','D','A','w','L','T','A','w','M','D','A','t','M','D','A','w','M','D','A','w','M','D','A','w',
    'M','D','A','x','I','n','0']

def dumpsPair : List (String × Json) → String
  | [(k,.str v),(k',.str v')] =>
    "\x7b\"" ++ k ++ "\": \"" ++ v ++ "\", \"" ++ k' ++ "\": \"" ++ v' ++ "\"\x7d"
  | _ => ""

def demoPayload (channel : OAuthChannel) : List (String × Json) :=
  [("channel",.str channel.value),("tenant_id",.str tenantText)]

def demoText (channel : OAuthChannel) : String := dumpsPair (demoPayload channel)

def demoB64 : OAuthChannel → String
  | .facebook => String.ofList (facebookChars ++ ['=','='])
  | .instagram => String.ofList (instagramChars ++ ['='])

def demoLib : StateLib where
  dumps := dumpsPair
  loads text :=
    if text = demoText .facebook then .ok (demoPayload .facebook)
    else if text = demoText .instagram then .ok (demoPayload .instagram)
    else .error ()
  urlsafeB64encode text :=
    if text = demoText .facebook then demoB64 .facebook
    else if text = demoText .instagram then demoB64 .instagram
    else ""
  urlsafeB64decode text :=
    if text = demoB64 .facebook then .ok (demoText .facebook)
    else if text = demoB64 .instagram then .ok (demoText .instagram)
    else .error ()
  hmac secret text :=
    if secret = "fb-secret" ∧ text = String.ofList facebookChars then
      "86ea20a2b00d3f4a45823ebdf4085b3ecfc14249c3a4609ff4b2674b10f53b4d"
    else if secret = "" ∧ text = String.ofList instagramChars then
      "6161c987832c6c3da0c6b9ddbaab1b38d710bb5e371e8643424a60ff53ae3da9"
    else ""
  str t := if t = 1 then tenantText else ""
  parseUuid text := if text = tenantText then some 1 else none

def productionSettings : Settings where
  env := "production"
  groqApiKey := "g"
  channelCredentialsEncryptionKey := "k"
  metaAppSecret := "fb-secret"
  metaWebhookVerifyToken := "v"
  auth0Domain := "d"
  auth0Audience := "a"
  auth0MgmtClientId := "i"
  auth0MgmtClientSecret := "s"

def askFacebook : Request := .initiate .facebook ⟨5,"auth0|acme","a@x.com",.tenant,some 1⟩

def facebookCallback : Request :=
  .callback (some "code") (some (stateToken demoLib productionSettings 1 .facebook)) none
    (.facebook (fun _ => ⟨3,[]⟩) ⟨.ok "short",.ok "long",
      .ok [⟨some "p1",some "Shop",some "token",.ok (),.ok none,.ok ()⟩]⟩)

def instagramCallback : Request :=
  .callback (some "code") (some (stateToken demoLib productionSettings 1 .instagram)) none
    (.instagram ⟨3,[]⟩ 0 ⟨.ok "short",.ok ("long",60),.ok ("ig1","shop"),.ok ()⟩)

def demoAes : AesGcm :=
  ⟨fun _ => .ok (List.replicate 32 0),fun _ _ plain => plain,fun _ _ blob => .ok blob,
    fun _ => [1],fun _ => .ok []⟩

theorem demoText_ne : demoText .instagram ≠ demoText .facebook := by
  have hne : ("instagram" : String) ≠ "facebook" := by decide
  have hpair : ∀ v v' t : String, v ≠ v' → dumpsPair [("channel",.str v),("tenant_id",.str t)] ≠
      dumpsPair [("channel",.str v'),("tenant_id",.str t)] := by
    intro v v' t hv
    simpa [dumpsPair] using hv
  exact hpair _ _ _ hne

theorem demoB64_ne : demoB64 .instagram ≠ demoB64 .facebook := by
  intro h
  exact absurd (String.ofList_injective h) (by decide)

theorem roundTrips_facebook : RoundTrips demoLib 1 .facebook := by
  have htext : demoLib.dumps (statePayload demoLib 1 .facebook) = demoText .facebook := rfl
  have hencode : demoLib.urlsafeB64encode (demoText .facebook) = demoB64 .facebook := by
    simp [demoLib]
  constructor
  · refine ⟨facebookChars,2,by omega,by decide,?_,by decide,by decide⟩
    rw [htext,hencode]
    exact String.toList_ofList
  · rw [htext,hencode]
    simp [demoLib]
  · rw [htext]
    simp [demoLib]
    rfl
  · simp [demoLib]

theorem roundTrips_instagram : RoundTrips demoLib 1 .instagram := by
  have htext : demoLib.dumps (statePayload demoLib 1 .instagram) = demoText .instagram := rfl
  have hencode : demoLib.urlsafeB64encode (demoText .instagram) = demoB64 .instagram := by
    simp [demoLib,demoText_ne]
  constructor
  · refine ⟨instagramChars,1,by omega,by decide,?_,by decide,by decide⟩
    rw [htext,hencode]
    exact String.toList_ofList
  · rw [htext,hencode]
    simp [demoLib,demoB64_ne]
  · rw [htext]
    simp [demoLib,demoText_ne]
    rfl
  · simp [demoLib]

section Demo

variable [Interpreter]

def demoNext (desk : Desk) (request : Request) : Option Desk :=
  some (receive demoLib productionSettings demoAes desk request)

def demoTrace (requests : List Request) : List (Transition Desk Request) :=
  followed demoNext .empty requests

def demoDesk (requests : List Request) : Desk := follow demoNext .empty requests

def demoEvents (requests : List Request) : List (Event (UUID × OAuthChannel)) :=
  (demoTrace requests).map (event demoLib productionSettings demoAes)

def facebookIssue : Issue :=
  ⟨1,.facebook,stateToken demoLib productionSettings 1 .facebook⟩

theorem step_askFacebook : DeskStep demoLib productionSettings demoAes .empty askFacebook
    (demoDesk [askFacebook]) := by
  refine ⟨?_,rfl⟩
  intro code state error answers h
  cases h

theorem step_facebookCallback {desk : Desk} (h : facebookIssue ∈ desk.issued) :
    DeskStep demoLib productionSettings demoAes desk facebookCallback
      (receive demoLib productionSettings demoAes desk facebookCallback) := by
  refine ⟨?_,rfl⟩
  intro code state error answers hrequest
  obtain ⟨_,hstate,_,hanswers⟩ := Request.callback.inj hrequest
  rw [← Option.some.inj hstate,← hanswers]
  exact presentable_of_issued h

theorem step_instagramCallback (desk : Desk) :
    DeskStep demoLib productionSettings demoAes desk instagramCallback
      (receive demoLib productionSettings demoAes desk instagramCallback) := by
  refine ⟨?_,rfl⟩
  intro code state error answers hrequest
  obtain ⟨_,_,_,hanswers⟩ := Request.callback.inj hrequest
  rw [← hanswers]
  exact .inl rfl

theorem issued_askFacebook : facebookIssue ∈ (demoDesk [askFacebook]).issued := by
  simp [demoDesk,follow,demoNext,receive,issued,askFacebook,initiator,requireTenantUser,
    Desk.empty,facebookIssue]

theorem accepted_facebookCallback (desk : Desk) :
    accepted demoLib productionSettings demoAes desk facebookCallback = [facebookIssue] :=
  accepted_facebook roundTrips_facebook (by decide) (by simp) rfl

theorem accepted_instagramCallback (desk : Desk) :
    accepted demoLib productionSettings demoAes desk instagramCallback =
      [⟨1,.instagram,stateToken demoLib productionSettings 1 .instagram⟩] :=
  accepted_instagram roundTrips_instagram (by decide) rfl rfl

theorem event_askFacebook (desk desk' : Desk) :
    event demoLib productionSettings demoAes (desk,askFacebook,desk') = .start (1,.facebook) := by
  simp [event,issued,askFacebook,initiator,requireTenantUser,Issue.key]

theorem event_facebookCallback (desk desk' : Desk) :
    event demoLib productionSettings demoAes (desk,facebookCallback,desk') =
      .finish (1,.facebook) :=
  event_of_accepted (accepted_facebookCallback desk)

theorem event_instagramCallback (desk desk' : Desk) :
    event demoLib productionSettings demoAes (desk,instagramCallback,desk') =
      .finish (1,.instagram) :=
  event_of_accepted (accepted_instagramCallback desk)

end Demo

/-- One state is spent twice; and where the Instagram secret is empty a state that was never
issued connects an account. Both happen under settings that the validator accepts. -/
theorem states_replayed_and_forged :
    letI := Interpreter.ascii id
    productionSettings.validateProductionSecrets.isOk = true ∧
      (∃ desk, Path (DeskStep demoLib productionSettings demoAes) .empty
          (demoTrace [askFacebook,facebookCallback,facebookCallback]) desk ∧
        ¬ InjectiveAgreement (demoEvents [askFacebook,facebookCallback,facebookCallback])) ∧
      ∃ desk, Path (DeskStep demoLib productionSettings demoAes) .empty
          (demoTrace [instagramCallback]) desk ∧
        ¬ InjectiveAgreement (demoEvents [instagramCallback]) := by
  let := Interpreter.ascii id
  have hfirst := (Path.nil.snoc step_askFacebook).snoc (step_facebookCallback issued_askFacebook)
  have hkept : facebookIssue ∈ (demoDesk [askFacebook,facebookCallback]).issued :=
    List.mem_append_left _ issued_askFacebook
  refine ⟨by decide +kernel,⟨_,hfirst.snoc (step_facebookCallback hkept),?_⟩,
    ⟨_,Path.nil.snoc (step_instagramCallback .empty),?_⟩⟩
  · intro hagree
    have hle := hagree.count_le (1,.facebook)
    simp [demoEvents,demoTrace,followed,demoNext,event_askFacebook,event_facebookCallback] at hle
  · intro hagree
    have hle := hagree.count_le (1,.instagram)
    simp [demoEvents,demoTrace,followed,demoNext,event_instagramCallback] at hle

/-- One initiation and one callback with its state. -/
theorem facebook_handshake :
    letI := Interpreter.ascii id
    InjectiveAgreement (demoEvents [askFacebook,facebookCallback]) := by
  let := Interpreter.ascii id
  have hpath := (Path.nil.snoc step_askFacebook).snoc (step_facebookCallback issued_askFacebook)
  have hissued : (demoDesk [askFacebook]).issued = [facebookIssue] := by
    simp [demoDesk,follow,demoNext,receive,issued,askFacebook,initiator,requireTenantUser,
      Desk.empty,facebookIssue]
  have haccepted : (demoDesk [askFacebook]).accepted = [] := by
    simp [demoDesk,follow,demoNext,receive,accepted,askFacebook,Desk.empty]
  apply (agreement_iff_unspent hpath ?_ ?_).mpr
  · intro x hx i hi
    obtain rfl | rfl : x = _ ∨ x = _ := by simpa using hx
    · simp [accepted,askFacebook] at hi
    · obtain rfl : i = facebookIssue := by simpa [accepted_facebookCallback] using hi
      show List.count _ ((demoDesk [askFacebook]).accepted.map Issue.state) <
        List.count _ ((demoDesk [askFacebook]).issued.map Issue.state)
      simp [hissued,haccepted]
  · intro i hi
    have hkept : (receive demoLib productionSettings demoAes (demoDesk [askFacebook])
        facebookCallback).issued = [facebookIssue] := by
      simp [receive,hissued,issued,facebookCallback]
    rw [hkept] at hi
    obtain rfl := List.mem_singleton.mp hi
    exact roundTrips_facebook
  · intro x hx i hi
    obtain rfl | rfl : x = _ ∨ x = _ := by simpa using hx
    · simp [accepted,askFacebook] at hi
    · obtain rfl : i = facebookIssue := by simpa [accepted_facebookCallback] using hi
      have hsecret : productionSettings.secret .facebook ≠ "" := by decide
      refine ⟨fun hempty => absurd hempty hsecret,?_⟩
      intro data hverify
      rw [verifyState_stateToken roundTrips_facebook hverify]
      rfl

end OAuth
end LeadEngine
