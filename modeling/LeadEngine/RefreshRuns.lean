import LeadEngine.TokenRefresh

/-! The refresh job over a table: how one pass of the loop ends, and when the connections are
refreshed independently of one another. -/
namespace LeadEngine
namespace TokenRefresh

open Channels

variable (env : RefreshEnv) (c : ChannelConnection)

def Lapsed : Prop := ∃ t, c.expiresAt = some t ∧ t ≤ env.now

def InWindow : Prop := ∃ t, c.expiresAt = some t ∧ env.now < t ∧ t - env.now < refreshWindow

/-- The token that the refresh sends, empty where none is stored. -/
def currentToken (credentials : Credentials) : Json :=
  ((Json.obj credentials).get? "access_token").getD (.str "")

/-- The endpoint's answer for the connection: the new token and the seconds it lives. -/
def Answered (credentials : Credentials) (token : Json) (expiresIn : ℤ) : Prop :=
  ∃ newData, env.callRefreshApi c.id (currentToken credentials) = .ok newData ∧
    (Json.obj newData).get? "access_token" = some token ∧
    env.int (((Json.obj newData).get? "expires_in").getD (.int 5183944)) = some expiresIn

/-- The credentials can be read, the endpoint answers, the new blob can be made and the new expiry
is a date. -/
def Renewal (blob : Option Bytes) (expiresAt : Time) : Prop :=
  ∃ credentials token expiresIn, existingCredentials env c = some credentials ∧
    Answered env c credentials token expiresIn ∧
    resealed env c (setAccessToken token credentials) = .ok blob ∧
    addSeconds env.now expiresIn = some expiresAt

inductive Pass : Except RefreshError ChannelConnection → Prop
  | idle (hlapsed : ¬ Lapsed env c) (hwindow : ¬ InWindow env c) : Pass (.ok c)
  | expired (h : Lapsed env c ∨ InWindow env c ∧ existingCredentials env c = none) :
      Pass (.ok { c with status := .expired })
  | renewed (blob : Option Bytes) (expiresAt : Time) (hwindow : InWindow env c)
      (h : Renewal env c blob expiresAt) :
      Pass (.ok { c with
        credentialsEncrypted := blob
        expiresAt := some expiresAt })
  | raised (err : RefreshError) (hwindow : InWindow env c)
      (hread : existingCredentials env c ≠ none)
      (h : ∀ blob expiresAt, ¬ Renewal env c blob expiresAt) : Pass (.error err)

variable {env} {c}

theorem not_lapsed_of_inWindow (h : InWindow env c) : ¬ Lapsed env c := by
  obtain ⟨t,ht,hlt,_⟩ := h
  rintro ⟨t',ht',hle⟩
  obtain rfl : t = t' := Option.some.inj (ht.symm.trans ht')
  exact absurd hlt (Int.not_lt.mpr hle)

theorem refreshConnection_of_renewal (hwindow : InWindow env c) {blob : Option Bytes}
    {expiresAt : Time} (h : Renewal env c blob expiresAt) :
    refreshConnection env c = .ok { c with
      credentialsEncrypted := blob
      expiresAt := some expiresAt } := by
  obtain ⟨t,ht,hlt,hnear⟩ := hwindow
  obtain ⟨credentials,token,n,hread,⟨newData,hcall,htoken,hint⟩,hblob,hsum⟩ := h
  have hrunning : ¬ t ≤ env.now := Int.not_le.mpr hlt
  unfold currentToken at hcall
  simp only [refreshConnection,ht,hrunning,hnear,if_true,if_false,hread,hcall,htoken,hblob,hint,
    hsum]

/-- A pass that returns for credentials that were read has renewed them. -/
theorem renewal_of_ok (hwindow : InWindow env c) {credentials : Credentials}
    (hread : existingCredentials env c = some credentials) {c' : ChannelConnection}
    (h : refreshConnection env c = .ok c') : ∃ blob expiresAt, Renewal env c blob expiresAt ∧
      c' = { c with
        credentialsEncrypted := blob
        expiresAt := some expiresAt } := by
  obtain ⟨t,ht,hlt,hnear⟩ := hwindow
  have hrunning : ¬ t ≤ env.now := Int.not_le.mpr hlt
  simp only [refreshConnection,ht,hrunning,hnear,if_true,if_false,hread] at h
  split at h
  · cases h
  rename_i newData hcall
  split at h
  · cases h
  rename_i token htoken
  split at h
  · cases h
  rename_i blob hblob
  split at h
  · cases h
  rename_i n hint
  split at h
  · cases h
  rename_i expiresAt hsum
  exact ⟨blob,expiresAt,⟨credentials,token,n,hread,⟨newData,hcall,htoken,hint⟩,hblob,hsum⟩,
    (Except.ok.inj h).symm⟩

theorem refreshConnection_pass (env : RefreshEnv) (c : ChannelConnection) :
    Pass env c (refreshConnection env c) := by
  by_cases hwindow : InWindow env c
  · cases hread : existingCredentials env c with
    | none =>
      obtain ⟨t,ht,hlt,hnear⟩ := id hwindow
      have hrunning : ¬ t ≤ env.now := Int.not_le.mpr hlt
      have hexpired : refreshConnection env c = .ok { c with status := .expired } := by
        simp only [refreshConnection,ht,hrunning,hnear,if_true,if_false,hread]
      rw [hexpired]
      exact .expired (Or.inr ⟨hwindow,hread⟩)
    | some credentials =>
      have hsome : existingCredentials env c ≠ none := by simp [hread]
      cases hresult : refreshConnection env c with
      | error err =>
        refine .raised err hwindow hsome fun blob expiresAt hrenewal => ?_
        rw [refreshConnection_of_renewal hwindow hrenewal] at hresult
        cases hresult
      | ok c' =>
        obtain ⟨blob,expiresAt,hrenewal,rfl⟩ := renewal_of_ok hwindow hread hresult
        exact .renewed blob expiresAt hwindow hrenewal
  · unfold refreshConnection
    split
    · rename_i hnone
      exact .idle (by rintro ⟨t,ht,_⟩; simp [hnone] at ht) hwindow
    · rename_i t ht
      split_ifs with hlapsed hnear
      · exact .expired (Or.inl ⟨t,ht,hlapsed⟩)
      · exact absurd ⟨t,ht,Int.not_le.mp hlapsed,hnear⟩ hwindow
      · refine .idle ?_ hwindow
        rintro ⟨t',ht',hle⟩
        obtain rfl : t' = t := Option.some.inj (ht'.symm.trans ht)
        exact hlapsed hle

variable (env) (c)

/-- The stored row after the job on a table that holds this connection alone. -/
def rowAlone : ChannelConnection := (refreshInstagramTokens env [c]).1.headD c

/-- The refresh of the connection raises: it is due, its credentials can be read, and the call,
its answer or the key admits no renewal. -/
def Raises : Prop :=
  Selected c ∧ InWindow env c ∧ existingCredentials env c ≠ none ∧
    ∀ blob expiresAt, ¬ Renewal env c blob expiresAt

/-- The refresh of the connection writes its row: the token has run out, or it runs out soon
and the credentials cannot be read, or a renewal brings a new blob or a new expiry. -/
def Rewritten : Prop :=
  Selected c ∧ (Lapsed env c ∨ InWindow env c ∧ (existingCredentials env c = none ∨
    ∃ blob expiresAt, Renewal env c blob expiresAt ∧
      (blob ≠ c.credentialsEncrypted ∨ c.expiresAt ≠ some expiresAt)))

variable {env} {c}

theorem Renewal.unique {blob blob' : Option Bytes} {t t' : Time} (h : Renewal env c blob t)
    (h' : Renewal env c blob' t') : blob = blob' ∧ t = t' := by
  obtain ⟨credentials,token,n,hread,⟨newData,hcall,htoken,hint⟩,hblob,hsum⟩ := h
  obtain ⟨credentials',token',n',hread',⟨newData',hcall',htoken',hint'⟩,hblob',hsum'⟩ := h'
  obtain rfl := Option.some.inj (hread.symm.trans hread')
  obtain rfl := Except.ok.inj (hcall.symm.trans hcall')
  obtain rfl := Option.some.inj (htoken.symm.trans htoken')
  obtain rfl := Option.some.inj (hint.symm.trans hint')
  exact ⟨Except.ok.inj (hblob.symm.trans hblob'),Option.some.inj (hsum.symm.trans hsum')⟩

theorem raises_iff : Raises env c ↔ Selected c ∧ ∃ err, refreshConnection env c = .error err := by
  have hpass := refreshConnection_pass env c
  refine and_congr_right fun _ => ⟨?_,?_⟩
  · rintro ⟨hwindow,hread,hno⟩
    generalize refreshConnection env c = result at hpass ⊢
    cases hpass with
    | idle _ h => exact absurd hwindow h
    | expired h =>
      obtain h | h := h
      · exact absurd h (not_lapsed_of_inWindow hwindow)
      · exact absurd h.2 hread
    | renewed blob n _ h => exact absurd h (hno blob n)
    | raised err => exact ⟨err,rfl⟩
  · rintro ⟨err,herr⟩
    rw [herr] at hpass
    cases hpass with
    | raised _ hwindow hread hno => exact ⟨hwindow,hread,hno⟩

theorem refreshInstagramTokens_cons (env : RefreshEnv) (c : ChannelConnection)
    (rest : List ChannelConnection) :
    (Raises env c → (refreshInstagramTokens env (c :: rest)).1 = c :: rest) ∧
      (¬ Raises env c → (refreshInstagramTokens env (c :: rest)).1 =
        rowAlone env c :: (refreshInstagramTokens env rest).1) := by
  rw [raises_iff]
  by_cases hsel : Selected c
  · cases hpass : refreshConnection env c with
    | error err => simp [refreshInstagramTokens,hsel,hpass]
    | ok c' => simp [refreshInstagramTokens,rowAlone,hsel,hpass]
  · simp [refreshInstagramTokens,rowAlone,hsel]

theorem rowAlone_of_raises (h : Raises env c) : rowAlone env c = c := by
  rw [rowAlone,(refreshInstagramTokens_cons env c []).1 h]
  rfl

theorem rowAlone_of_selected {c' : ChannelConnection} (hsel : Selected c)
    (h : refreshConnection env c = .ok c') : rowAlone env c = c' := by
  simp [rowAlone,refreshInstagramTokens,hsel,h]

theorem rowAlone_of_not_selected (h : ¬ Selected c) : rowAlone env c = c := by
  simp [rowAlone,refreshInstagramTokens,h]

/-- A connection's own run leaves its row as it was exactly when nothing is written for it. -/
theorem rowAlone_eq_iff : rowAlone env c = c ↔ ¬ Rewritten env c := by
  by_cases hsel : Selected c
  swap
  · simp [rowAlone_of_not_selected hsel,Rewritten,hsel]
  have hexpired : ({ c with status := .expired } : ChannelConnection) ≠ c := fun h => by
    have hstatus := congrArg ChannelConnection.status h
    rw [hsel.2] at hstatus
    simp at hstatus
  have hpass := refreshConnection_pass env c
  cases hok : refreshConnection env c with
  | error err =>
    have hraises : Raises env c := raises_iff.mpr ⟨hsel,err,hok⟩
    refine iff_of_true (rowAlone_of_raises hraises) ?_
    rintro ⟨_,hlapsed | ⟨_,hread | ⟨blob,n,hrenewal,_⟩⟩⟩
    · exact not_lapsed_of_inWindow hraises.2.1 hlapsed
    · exact hraises.2.2.1 hread
    · exact hraises.2.2.2 blob n hrenewal
  | ok c' =>
    rw [rowAlone_of_selected hsel hok]
    rw [hok] at hpass
    cases hpass with
    | idle hlapsed hwindow => simp [Rewritten,hlapsed,hwindow]
    | expired h =>
      refine iff_of_false hexpired (not_not.mpr ⟨hsel,?_⟩)
      exact h.imp id fun h => ⟨h.1,Or.inl h.2⟩
    | renewed blob t hwindow h =>
      have hread : existingCredentials env c ≠ none := by
        obtain ⟨credentials,_,_,hread,_⟩ := h
        simp [hread]
      have hsame : ({ c with
          credentialsEncrypted := blob
          expiresAt := some t } : ChannelConnection) = c ↔
          blob = c.credentialsEncrypted ∧ c.expiresAt = some t := by
        constructor
        · intro heq
          exact ⟨congrArg ChannelConnection.credentialsEncrypted heq,
            (congrArg ChannelConnection.expiresAt heq).symm⟩
        · rintro ⟨hblob,hexpires⟩
          rw [hblob,← hexpires]
      rw [hsame]
      constructor
      · rintro ⟨hblob,hexpires⟩ ⟨_,hlapsed | ⟨_,hnone | ⟨blob',t',h',hnew⟩⟩⟩
        · exact not_lapsed_of_inWindow hwindow hlapsed
        · exact hread hnone
        · obtain ⟨rfl,rfl⟩ := h.unique h'
          exact hnew.elim (fun hne => hne hblob) fun hne => hne hexpires
      · intro hno
        have hkept : ¬ (blob ≠ c.credentialsEncrypted ∨ c.expiresAt ≠ some t) :=
          fun hnew => hno ⟨hsel,Or.inr ⟨hwindow,Or.inr ⟨blob,t,h,hnew⟩⟩⟩
        simpa only [not_or,not_not] using hkept

/-- The job leaves each connection as its own run would, exactly when no refresh that raises
comes before a connection whose row would be written. -/
theorem refreshed_independently_iff (env : RefreshEnv) (table : List ChannelConnection) :
    (refreshInstagramTokens env table).1 = table.map (rowAlone env) ↔
      table.Pairwise fun c c' => Raises env c → ¬ Rewritten env c' := by
  induction table with
  | nil => simp [refreshInstagramTokens]
  | cons c rest ih =>
    rw [List.pairwise_cons,List.map_cons]
    by_cases hraises : Raises env c
    · rw [(refreshInstagramTokens_cons env c rest).1 hraises,rowAlone_of_raises hraises]
      have hkept : rest = rest.map (rowAlone env) ↔ ∀ c' ∈ rest, ¬ Rewritten env c' := by
        simp only [← rowAlone_eq_iff]
        have hmap : rest.map (rowAlone env) = rest.map id ↔ ∀ c' ∈ rest, rowAlone env c' = id c' :=
          List.map_inj_left
        rwa [List.map_id,eq_comm] at hmap
      rw [List.cons.injEq,and_iff_right rfl,hkept]
      constructor
      · intro hall
        exact ⟨fun c' hc' _ => hall c' hc',List.pairwise_of_forall_mem_list
          fun _ _ c' hc' _ => hall c' hc'⟩
      · exact fun h c' hc' => h.1 c' hc' hraises
    · rw [(refreshInstagramTokens_cons env c rest).2 hraises,List.cons.injEq,and_iff_right rfl,ih]
      exact ⟨fun h => ⟨fun c' _ hc => absurd hc hraises,h⟩,fun h => h.2⟩

/-- A revoked token: the endpoint refuses it, and answers any other with a token for 60 days. -/
def revokedFirst : RefreshEnv where
  key := ""
  aes := ⟨fun _ => .ok [],fun _ _ plain => plain,fun _ _ _ => .error (),fun _ => [],fun _ => .ok []⟩
  now := 100
  nonce _ := []
  int := fun
    | .int n => some n
    | _ => none
  callRefreshApi id _ := if id = 1 then .error () else
    .ok [("access_token",.str "new"),("expires_in",.int 5184000)]

def instagramConnection (id : UUID) (expiresAt : Time) : ChannelConnection :=
  ⟨id,1,.instagram,.active,none,some expiresAt,[]⟩

/-- The connection after the revoked token stays active though its token has run out, and the
one after it is not refreshed. -/
theorem revoked_token_stops_job :
    let table := [instagramConnection 1 1000,instagramConnection 2 50,instagramConnection 3 1000]
    (refreshInstagramTokens revokedFirst table).1 = table ∧
      table.map (fun c => (rowAlone revokedFirst c).status) = [.active,.expired,.active] ∧
      table.map (fun c => (rowAlone revokedFirst c).expiresAt) =
        [some 1000,some 50,some 5184100] ∧
      (refreshInstagramTokens revokedFirst table).1 ≠ table.map (rowAlone revokedFirst) := by
  decide

end TokenRefresh
end LeadEngine
