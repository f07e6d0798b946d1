import LeadEngine.Routing
import LeadEngine.TokenExpiry

/-! The refresh job over the life of a deployment: connections come in by the code exchanges, the
job is run again and again, and some of its runs stop at a call that fails. -/
namespace LeadEngine
namespace TokenRefresh

open Fallible Channels OAuth Routing TransitionSystem

variable {key : String} {aes : AesGcm} {since : ℤ} {c c' : ChannelConnection}

def Readable (key : String) (aes : AesGcm) (c : ChannelConnection) : Prop :=
  ∀ env : RefreshEnv, env.key = key → env.aes = aes → existingCredentials env c ≠ none

/-- An Instagram connection that is in use: active, and with a token that was good for another
week at the given time. -/
structure InUse (key : String) (aes : AesGcm) (since : ℤ) (c : ChannelConnection) : Prop where
  active : c.channelType = .instagram → c.status = .active
  lasts : c.channelType = .instagram → ∀ t : ℤ, c.expiresAt = some t → since+refreshWindow ≤ t
  readable : c.channelType = .instagram → c.expiresAt ≠ none → Readable key aes c

theorem inUse_of_unlimited (hactive : c.status = .active) (hnone : c.expiresAt = none) :
    InUse key aes since c where
  active _ := hactive
  lasts _ t ht := by simp [hnone] at ht
  readable _ hsome := absurd hnone hsome

theorem inUse_of_other (h : c.channelType ≠ .instagram) : InUse key aes since c where
  active ht := absurd ht h
  lasts ht := absurd ht h
  readable ht := absurd ht h

theorem InUse.earlier {later : ℤ} (h : InUse key aes later c) (hle : since ≤ later) :
    InUse key aes since c where
  active := h.active
  lasts ht t hsome := by
    have hlasts := h.lasts ht t hsome
    omega
  readable := h.readable

theorem readable_of_sealed {nonce blob : Bytes} {credentials : Credentials}
    (hopens : Opens aes key nonce credentials)
    (hseal : encryptCredentials aes nonce credentials key = .ok blob)
    (hblob : c.credentialsEncrypted = some blob) : Readable key aes c := by
  rintro env rfl rfl
  have hopen := hopens.decrypt hseal
  unfold existingCredentials
  rw [hblob]
  cases blob with
  | nil => simp
  | cons b bs =>
    by_cases hkey : env.key = ""
    · simp [hkey]
    · simp [hkey,hopen,Except.toOption]

/-- What the job relies on at a run: its key and cipher are those of the deployment, what it seals
opens again, and a refreshed token is good for a week at least. -/
structure Works (key : String) (aes : AesGcm) (table : List ChannelConnection)
    (env : RefreshEnv) : Prop where
  sameKey : env.key = key
  sameAes : env.aes = aes
  opens : ∀ c ∈ table, ∀ credentials token n, existingCredentials env c = some credentials →
    Answered env c credentials token n →
    Opens aes key (env.nonce c.id) (setAccessToken token credentials)
  lifetime : ∀ c ∈ table, ∀ credentials token n, Answered env c credentials token n →
    refreshWindow ≤ n

/-- The pass over one connection keeps it in use, and from now on unless it raises. -/
theorem InUse.pass {table : List ChannelConnection} {env : RefreshEnv} (h : InUse key aes since c)
    (hworks : Works key aes table env) (hc : c ∈ table)
    (hsoon : env.now < since+refreshWindow) (hselected : Selected c)
    (hok : refreshConnection env c = .ok c') : InUse key aes env.now c' := by
  have hlapsed : ¬ Lapsed env c := by
    rintro ⟨t,ht,hle⟩
    have hlasts := h.lasts hselected.1 t ht
    exact absurd (hlasts.trans hle) (Int.not_le.mpr hsoon)
  have hpass := refreshConnection_pass env c
  rw [hok] at hpass
  cases hpass with
  | idle _ hwindow =>
    refine ⟨h.active,fun _ t ht => ?_,h.readable⟩
    have hrunning : env.now < t := Int.not_le.mp fun hle => hlapsed ⟨t,ht,hle⟩
    have hfar : refreshWindow ≤ t-env.now := Int.not_lt.mp fun hnear =>
      hwindow ⟨t,ht,hrunning,hnear⟩
    omega
  | expired hexpired =>
    rcases hexpired with hlapsed' | ⟨⟨t,ht,_⟩,hclosed⟩
    · exact absurd hlapsed' hlapsed
    · exact absurd hclosed (h.readable hselected.1 (by simp [ht]) env hworks.sameKey hworks.sameAes)
  | renewed blob expiresAt hwindow hrenewal =>
    obtain ⟨credentials,token,n,hread,hanswered,hsealed,hsum⟩ := hrenewal
    obtain rfl := (addSeconds_eq_some.mp hsum).1
    have hlife := hworks.lifetime c hc credentials token n hanswered
    refine ⟨h.active,fun _ t ht => ?_,fun _ _ => ?_⟩
    · obtain rfl := Option.some.inj ht
      omega
    · have hopens := hworks.opens c hc credentials token n hread hanswered
      unfold resealed at hsealed
      split_ifs at hsealed with hkey
      · obtain rfl := Except.ok.inj hsealed
        obtain ⟨t,ht,_⟩ := hwindow
        exact h.readable hselected.1 (by simp [ht])
      · split at hsealed
        · cases hsealed
        next sealed hseal =>
          obtain rfl := Except.ok.inj hsealed
          rw [hworks.sameAes,hworks.sameKey] at hseal
          exact readable_of_sealed hopens hseal rfl

/-- A run within a week keeps the connections in use, and from now on if it comes to its end. -/
theorem InUse.run {full table : List ChannelConnection} {env : RefreshEnv}
    (hall : ∀ c ∈ table, InUse key aes since c) (hworks : Works key aes full env)
    (hsub : ∀ c ∈ table, c ∈ full) (hlate : since ≤ env.now)
    (hsoon : env.now < since+refreshWindow) :
    (∀ c ∈ (refreshInstagramTokens env table).1, InUse key aes since c) ∧
      ((refreshInstagramTokens env table).2.isOk = true →
        ∀ c ∈ (refreshInstagramTokens env table).1, InUse key aes env.now c) := by
  induction table with
  | nil => simp [refreshInstagramTokens]
  | cons c rest ih =>
    obtain ⟨hc,hrest⟩ := List.forall_mem_cons.mp hall
    obtain ⟨hmem,hmems⟩ := List.forall_mem_cons.mp hsub
    obtain ⟨hkept,hdone⟩ := ih hrest hmems
    rw [refreshInstagramTokens]
    by_cases hselected : Selected c
    · rw [if_pos hselected]
      cases hpass : refreshConnection env c with
      | error err => exact ⟨hall,fun hok => by cases hok⟩
      | ok c' =>
        have hnow := hc.pass hworks hmem hsoon hselected hpass
        exact ⟨List.forall_mem_cons.mpr ⟨hnow.earlier hlate,hkept⟩,
          fun hok => List.forall_mem_cons.mpr ⟨hnow,hdone hok⟩⟩
    · have hother : c.channelType ≠ .instagram := fun ht => hselected ⟨ht,hc.active ht⟩
      rw [if_neg hselected]
      exact ⟨List.forall_mem_cons.mpr ⟨inUse_of_other hother,hkept⟩,
        fun hok => List.forall_mem_cons.mpr ⟨inUse_of_other hother,hdone hok⟩⟩

section Connecting

variable {env : OAuthEnv} {t : UUID} {draws : ℕ → Draw}

theorem inUse_pages {pages : List PageVisit} {n : ℕ} {rows : List ChannelConnection}
    (h : connectPages env t draws n pages = .ok rows) : ∀ c ∈ rows, InUse key aes since c := by
  induction pages generalizing n rows with
  | nil =>
    obtain rfl := Except.ok.inj h
    simp
  | cons page rest ih =>
    obtain ⟨first,more,hfirst,hmore,rfl⟩ := connectPages_cons h
    have hrows : ∀ c ∈ first, InUse key aes since c := by
      obtain ⟨pageId,blob,linked,_,_,⟨_,rfl⟩ | ⟨ig,igBlob,_,rfl⟩⟩ := pageConnections_ok hfirst
      · simpa using inUse_of_unlimited rfl rfl
      · simpa using ⟨inUse_of_unlimited rfl rfl,inUse_of_unlimited rfl rfl⟩
    exact List.forall_mem_append.mpr ⟨hrows,ih hmore⟩

theorem whatsapp_of_phones {token wabaId : String} {phones : List PhoneEntry} {n : ℕ}
    {rows : List ChannelConnection}
    (h : connectPhones env t draws token wabaId n phones = .ok rows) :
    ∀ c ∈ rows, c.channelType = .whatsapp := by
  induction phones generalizing n rows with
  | nil =>
    obtain rfl := Except.ok.inj h
    simp
  | cons phone rest ih =>
    rw [connectPhones] at h
    split at h
    · cases h
    split at h
    · cases h
    split at h
    · cases h
    next more hmore =>
      obtain rfl := Except.ok.inj h
      exact List.forall_mem_cons.mpr ⟨rfl,ih hmore⟩

theorem whatsapp_of_wabas {token : String} {visit : String → WabaVisit} {ids : List String} {n : ℕ}
    {rows : List ChannelConnection} (h : connectWabas env t draws token visit n ids = .ok rows) :
    ∀ c ∈ rows, c.channelType = .whatsapp := by
  induction ids generalizing n rows with
  | nil =>
    obtain rfl := Except.ok.inj h
    simp
  | cons wabaId rest ih =>
    rw [connectWabas] at h
    split at h
    · split at h
      · cases h
      next first hfirst =>
        split at h
        · cases h
        next more hmore =>
          obtain rfl := Except.ok.inj h
          exact List.forall_mem_append.mpr ⟨whatsapp_of_phones hfirst,ih hmore⟩
    · cases h

def loginCredentials (longLived igAccountId username : String) : Credentials :=
  [("access_token",.str longLived),("ig_user_id",.str igAccountId),("username",.str username)]

/-- An Instagram login adds a connection in use, if its token is good for long enough. -/
theorem inUse_login [Interpreter] {table table' : List ChannelConnection} {draw : Draw}
    {now : ℤ} {state : String} {answers : InstagramAnswers} {conn : ChannelConnection}
    (h : exchangeInstagramCode env table draw now state answers = .ok (table',conn))
    (hlasts : ∀ longLived n, answers.longLived = .ok (longLived,n) → since+refreshWindow ≤ now+n)
    (hopens : ∀ longLived igAccountId username, Opens env.aes env.encryptionKey draw.nonce
      (loginCredentials longLived igAccountId username)) :
    table' = table ++ [conn] ∧ InUse env.encryptionKey env.aes since conn := by
  unfold exchangeInstagramCode at h
  split at h
  · cases h
  split at h
  · next longLived _ igAccountId username _ _ hlong _ _ =>
    split at h
    · cases h
    next expiresAt hexpiry =>
    split at h
    · cases h
    next blob hseal =>
      obtain ⟨rfl,rfl⟩ := Prod.mk.inj (Except.ok.inj h)
      refine ⟨rfl,fun _ => rfl,fun _ t ht => ?_,fun _ _ => ?_⟩
      · obtain rfl := Option.some.inj ht
        rw [expiryAfter_eq_ok hexpiry]
        exact hlasts _ _ (graph_eq_ok.mp hlong)
      · exact readable_of_sealed (hopens longLived igAccountId username)
          (mapError_eq_ok.mp hseal) rfl
  · cases h

end Connecting

/-- The connections, and the time of the last run of the job that came to its end. -/
structure JobState where
  table : List ChannelConnection
  completed : ℤ

section Runs

variable [Interpreter] {env : OAuthEnv}

def completedAfter (job : JobState) : ConnectOp × Bool → ℤ
  | (.refreshInstagramTokens refresh,true) =>
    if (refreshInstagramTokens refresh job.table).2.isOk then refresh.now else job.completed
  | _ => job.completed

def JobStep (env : OAuthEnv) (job : JobState) (a : ConnectOp × Bool) (job' : JobState) : Prop :=
  ConnectStep env job.table a job'.table ∧ job'.completed = completedAfter job a

/-- The job works and runs within a week of the last run that came to its end; a login brings a
token that is good for longer, and its credentials can be opened. -/
def Tended (env : OAuthEnv) (job : JobState) : ConnectOp × Bool → Prop
  | (.refreshInstagramTokens refresh,true) =>
    Works env.encryptionKey env.aes job.table refresh ∧ job.completed ≤ refresh.now ∧
      refresh.now < job.completed+refreshWindow
  | (.exchangeInstagramCode _ answers draw now,true) =>
    (∀ longLived n, answers.longLived = .ok (longLived,n) →
        job.completed+refreshWindow ≤ (now : ℤ)+n) ∧
      ∀ longLived igAccountId username, Opens env.aes env.encryptionKey draw.nonce
        (loginCredentials longLived igAccountId username)
  | _ => True

theorem JobStep.inUse {job job' : JobState} {a : ConnectOp × Bool}
    (hall : ∀ c ∈ job.table, InUse env.encryptionKey env.aes job.completed c)
    (htended : Tended env job a) (h : JobStep env job a job') :
    ∀ c ∈ job'.table, InUse env.encryptionKey env.aes job'.completed c := by
  obtain ⟨table',completed'⟩ := job'
  obtain ⟨hstep,hcompleted⟩ := h
  dsimp only at hstep hcompleted ⊢
  subst hcompleted
  cases hstep with
  | raised op => cases op <;> exact hall
  | @commit _ op h =>
    cases op with
    | exchangeFacebookCode state answers draws =>
      obtain ⟨⟨_,rows⟩,hexchange,rfl⟩ := map_eq_ok.mp h
      obtain ⟨t,accounts,_,_,hpages,rfl⟩ := exchangeFacebookCode_ok hexchange
      exact List.forall_mem_append.mpr ⟨hall,inUse_pages hpages⟩
    | exchangeInstagramCode state answers draw now =>
      obtain ⟨⟨_,conn⟩,hexchange,rfl⟩ := map_eq_ok.mp h
      obtain ⟨rfl,hconn⟩ := inUse_login hexchange htended.1 htended.2
      exact List.forall_mem_append.mpr ⟨hall,List.forall_mem_singleton.mpr hconn⟩
    | exchangeWhatsappSignupCode t answers draws =>
      obtain ⟨⟨_,rows⟩,hexchange,rfl⟩ := map_eq_ok.mp h
      obtain ⟨token,scopes,_,hwabas,rfl⟩ := exchangeWhatsappSignupCode_ok hexchange
      refine List.forall_mem_append.mpr ⟨hall,fun c hc => inUse_of_other ?_⟩
      simp [whatsapp_of_wabas hwabas c hc]
    | refreshInstagramTokens refresh =>
      obtain rfl := Except.ok.inj h
      obtain ⟨hworks,hlate,hsoon⟩ := htended
      obtain ⟨hkept,hdone⟩ := InUse.run hall hworks (fun c hc => hc) hlate hsoon
      rw [completedAfter]
      split_ifs with hok
      · exact hdone hok
      · exact hkept

/-- As long as one run of the job in every week comes to its end, no Instagram connection is
marked expired, and none has a token that runs out before the next run. -/
theorem connections_stay_in_use {table : List ChannelConnection} {t₀ : ℤ} {job : JobState}
    {tr : List (Transition JobState (ConnectOp × Bool))} (h : Path (JobStep env) ⟨table,t₀⟩ tr job)
    (hinit : ∀ c ∈ table, InUse env.encryptionKey env.aes t₀ c)
    (htended : ∀ t ∈ tr, Tended env t.1 t.2.1) :
    ∀ c ∈ job.table, c.channelType = .instagram →
      c.status = .active ∧ ∀ t : ℤ, c.expiresAt = some t → job.completed+refreshWindow ≤ t := by
  have hall : ∀ c ∈ job.table, InUse env.encryptionKey env.aes job.completed c :=
    h.invariant_of_guard (I := fun job : JobState =>
      ∀ c ∈ job.table, InUse env.encryptionKey env.aes job.completed c) hinit
      (fun _ _ _ hprev hguard hstep => hstep.inUse hprev hguard) htended
  intro c hc ht
  exact ⟨(hall c hc).active ht,(hall c hc).lasts ht⟩

end Runs

def dueEnv : RefreshEnv := { sealedEnv with now := 600000 }

def dueConnection : ChannelConnection := { sealedConnection with expiresAt := some 604800 }

def dueDeployment : OAuthEnv :=
  ⟨fun _ _ => .error (),fun _ => none,"","",demoAes,sealedEnv.key⟩

theorem works_dueEnv : Works sealedEnv.key demoAes [dueConnection] dueEnv := by
  have hread : existingCredentials dueEnv dueConnection = some [("access_token",.str "old")] := rfl
  have hanswered : ∀ c credentials, Answered dueEnv c credentials (.str "new") 5184000 :=
    fun c credentials => ⟨_,rfl,rfl,rfl⟩
  refine ⟨rfl,rfl,fun c hc credentials token n hread' hanswer => ?_,
    fun c _ credentials token n hanswer => ?_⟩
  · obtain rfl := List.mem_singleton.mp hc
    obtain rfl := Option.some.inj (hread.symm.trans hread')
    obtain ⟨rfl,_⟩ := hanswer.unique (hanswered _ _)
    refine ⟨rfl,fun rawKey hkey => ?_,rfl⟩
    obtain rfl : byteRange 0 32 = rawKey := Except.ok.inj hkey
    rfl
  · obtain rfl : n = 5184000 := (hanswer.unique (hanswered _ _)).2
    decide

theorem due_connection_stays :
    letI := Interpreter.ascii id
    (refreshInstagramTokens dueEnv [dueConnection]).1.length = 1 ∧
      ∀ c ∈ (refreshInstagramTokens dueEnv [dueConnection]).1, c.channelType = .instagram →
        c.status = .active ∧ ∀ t : ℤ, c.expiresAt = some t → 600000+refreshWindow ≤ t := by
  let := Interpreter.ascii id
  have hstep : JobStep dueDeployment ⟨[dueConnection],0⟩ (.refreshInstagramTokens dueEnv,true)
      ⟨(refreshInstagramTokens dueEnv [dueConnection]).1,600000⟩ := ⟨.commit rfl,rfl⟩
  refine ⟨rfl,connections_stay_in_use (Path.nil.snoc hstep) (fun c hc => ?_) fun t ht => ?_⟩
  · obtain rfl := List.mem_singleton.mp hc
    refine ⟨fun _ => rfl,fun _ t ht => ?_,fun _ _ env hkey haes => ?_⟩
    · obtain rfl := Option.some.inj ht
      decide
    · have hread : existingCredentials env dueConnection =
          existingCredentials dueEnv dueConnection := by
        obtain ⟨key,aes,now,nonce,int,call⟩ := env
        dsimp only at hkey haes
        subst hkey haes
        rfl
      rw [hread]
      exact Option.some_ne_none _
  · obtain rfl := List.mem_singleton.mp ht
    exact ⟨works_dueEnv,by decide,by decide⟩

end TokenRefresh
end LeadEngine
