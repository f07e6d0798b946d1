import Mathlib.Algebra.GroupWithZero.Nat
import LeadEngine.Schema
import LeadEngine.TransitionSystem
import LeadEngine.TtlCache

/-! The verification of bearer tokens: the key set that is fetched, kept for an hour and fetched
again when a token names a key that is not in it. -/
namespace LeadEngine
namespace AccessToken

open TtlCache TransitionSystem

/-- What the key endpoint answers: a key set, an HTTP error, or a body that is not JSON. -/
inductive Answer (κ : Type)
  | keys (jwks : List κ)
  | httpError
  | notJson

/-- What a call raises. Only the first is answered with status 401. -/
inductive TokenError
  | authentication (detail : String)
  | notJson
  | keyError
  | decoder
  deriving DecidableEq

inductive DecodeError
  | jwtError
  | other

/-- The token library: tokens `τ`, keys `κ` and claims `γ`. -/
structure Jose (τ κ γ : Type) where
  unverifiedKid : τ → Except DecodeError (Option String)
  kid : κ → Option String
  decode : τ → List κ → ℤ → Except DecodeError γ

def jwksTtl : ℤ := 3600

/-- The clock readings of one `_get_jwks` and what the endpoint answers, when it is asked. -/
structure Lookup (κ : Type) where
  looked : ℤ
  read : ℤ
  answered : ℤ
  stored : ℤ
  answer : Answer κ

variable {τ κ γ : Type}

/-- `_get_jwks`. An entry that expires after the cache was asked for it is a `KeyError`. -/
def getJwks (slot : Slot (List κ)) (forceRefresh : Bool) (l : Lookup κ) :
    Slot (List κ) × Except TokenError (List κ) :=
  if forceRefresh = false ∧ (get? slot l.looked).isSome then
    match get? slot l.read with
    | some jwks => (slot,.ok jwks)
    | none => (slot,.error .keyError)
  else
    match l.answer with
    | .httpError => (slot,.error (.authentication "Unable to fetch signing keys"))
    | .notJson => (slot,.error .notJson)
    | .keys jwks => (put jwksTtl l.stored jwks,.ok jwks)

def hasKid (jose : Jose τ κ γ) (jwks : List κ) (kid : Option String) : Bool :=
  jwks.any fun key => jose.kid key = kid

def decodeWith (jose : Jose τ κ γ) (token : τ) (jwks : List κ) (now : ℤ) :
    Except TokenError γ :=
  match jose.decode token jwks now with
  | .ok claims => .ok claims
  | .error .jwtError => .error (.authentication "Token verification failed")
  | .error .other => .error .decoder

/-- One call of `verify_token`: its token, what its lookups meet and when it decodes. -/
structure Visit (τ κ : Type) where
  token : τ
  first : Lookup κ
  second : Lookup κ
  decoded : ℤ

def verifyToken (jose : Jose τ κ γ) (slot : Slot (List κ)) (v : Visit τ κ) :
    Slot (List κ) × Except TokenError γ :=
  match jose.unverifiedKid v.token with
  | .error .jwtError => (slot,.error (.authentication "Malformed token"))
  | .error .other => (slot,.error .decoder)
  | .ok kid =>
    match getJwks slot false v.first with
    | (slot,.error err) => (slot,.error err)
    | (slot,.ok jwks) =>
      if hasKid jose jwks kid then (slot,decodeWith jose v.token jwks v.decoded)
      else
        match getJwks slot true v.second with
        | (slot,.error err) => (slot,.error err)
        | (slot,.ok jwks) => (slot,decodeWith jose v.token jwks v.decoded)

/-- A lookup in the order of the clock. The endpoint answers with what it publishes at that
instant, and its answer is stored not later than `delay` after it. -/
structure Lookup.Timely (published : ℤ → Answer κ) (delay start : ℤ) (l : Lookup κ) : Prop where
  looked : start ≤ l.looked
  read : l.looked ≤ l.read
  answered : l.looked ≤ l.answered
  stored : l.answered ≤ l.stored
  delayed : l.stored ≤ l.answered+delay
  answer : l.answer = published l.answered

structure Visit.Timely (published : ℤ → Answer κ) (delay start finish : ℤ)
    (v : Visit τ κ) : Prop where
  first : v.first.Timely published delay start
  second : v.second.Timely published delay (max v.first.read v.first.stored)
  finish : max v.second.read v.second.stored ≤ finish

/-- A process: its cache, and the clock after its last call. -/
structure Server (κ : Type) where
  slot : Slot (List κ)
  clock : ℤ

def Step (jose : Jose τ κ γ) (published : ℤ → Answer κ) (delay : ℤ) (s : Server κ)
    (v : Visit τ κ) (s' : Server κ) : Prop :=
  v.Timely published delay s.clock s'.clock ∧ s'.slot = (verifyToken jose s.slot v).1

def lookupAt (published : ℤ → Answer κ) (now : ℤ) : Lookup κ := ⟨now,now,now,now,published now⟩

def visitAt (published : ℤ → Answer κ) (token : τ) (now : ℤ) : Visit τ κ :=
  ⟨token,lookupAt published now,lookupAt published now,now⟩

theorem step_visitAt {jose : Jose τ κ γ} {published : ℤ → Answer κ} {s : Server κ} {token : τ}
    {now : ℤ} (h : s.clock ≤ now) :
    Step jose published 0 s (visitAt published token now)
      ⟨(verifyToken jose s.slot (visitAt published token now)).1,now⟩ := by
  refine ⟨⟨⟨h,le_rfl,le_rfl,le_rfl,?_,rfl⟩,⟨?_,le_rfl,le_rfl,le_rfl,?_,rfl⟩,?_⟩,rfl⟩ <;>
    simp [visitAt,lookupAt]

def numbered : Jose ℕ ℕ ℕ where
  unverifiedKid token := .ok (some (toString token))
  kid key := some (toString key)
  decode token jwks _ := if token ∈ jwks then .ok token else .error .jwtError

def rotated (now : ℤ) : Answer ℕ := if now < 100 then .keys [7] else .keys [8]

theorem path_rotated (token : ℕ) {now : ℤ} (h : 10 ≤ now) :
    ∃ s, Path (Step numbered rotated 0) ⟨none,0⟩
      [(⟨none,0⟩,visitAt rotated 7 10,⟨some ⟨[7],3610⟩,10⟩),
        (⟨some ⟨[7],3610⟩,10⟩,visitAt rotated token now,s)] s :=
  ⟨_,(Path.nil.snoc (step_visitAt (by decide))).snoc (step_visitAt h)⟩

/-- The key set was published at most `delay` before it was stored. -/
def Published (published : ℤ → Answer κ) (delay : ℤ) (jwks : List κ) (stored : ℤ) : Prop :=
  ∃ a, published a = .keys jwks ∧ stored ≤ a+delay

section Freshness

variable {jose : Jose τ κ γ} {published : ℤ → Answer κ} {delay start : ℤ}
  {slot : Slot (List κ)} {l : Lookup κ} {v : Visit τ κ}

/-- Whatever a lookup does, the cache holds published sets only; what it returns is one that
could be read when it began. -/
theorem getJwks_spec (hl : l.Timely published delay start)
    (hslot : Stored jwksTtl (Published published delay) slot) (forceRefresh : Bool) :
    Stored jwksTtl (Published published delay) (getJwks slot forceRefresh l).1 ∧
      ∀ jwks, (getJwks slot forceRefresh l).2 = .ok jwks →
        ∃ a, published a = .keys jwks ∧ l.looked < a+delay+jwksTtl := by
  rw [getJwks]
  split_ifs with hcached
  · cases hread : get? slot l.read with
    | none => exact ⟨hslot,fun jwks hok => by cases hok⟩
    | some jwks =>
      refine ⟨hslot,fun jwks' hok => ?_⟩
      obtain rfl := Except.ok.inj hok
      obtain ⟨since,hlive,a,ha,hsince⟩ := hslot.of_get? hread
      have hread := hl.read
      exact ⟨a,ha,by omega⟩
  · cases hanswer : l.answer with
    | httpError => exact ⟨hslot,fun jwks hok => by cases hok⟩
    | notJson => exact ⟨hslot,fun jwks hok => by cases hok⟩
    | keys jwks =>
      have hpublished : published l.answered = .keys jwks := hl.answer ▸ hanswer
      refine ⟨stored_put ⟨l.answered,hpublished,hl.delayed⟩,fun jwks' hok => ?_⟩
      obtain rfl := Except.ok.inj hok
      have hanswered := hl.answered
      have hstored := hl.stored
      have hdelayed := hl.delayed
      exact ⟨l.answered,hpublished,by rw [jwksTtl]; omega⟩

theorem decodeWith_ok {token : τ} {jwks : List κ} {now : ℤ} {claims : γ}
    (h : decodeWith jose token jwks now = .ok claims) :
    jose.decode token jwks now = .ok claims := by
  rw [decodeWith] at h
  split at h
  next hdecode => rw [hdecode,Except.ok.inj h]
  all_goals cases h

/-- Accepted tokens are verified with a key set that was published not long ago. -/
theorem verifyToken_spec {finish : ℤ} (hv : v.Timely published delay start finish)
    (hslot : Stored jwksTtl (Published published delay) slot) :
    Stored jwksTtl (Published published delay) (verifyToken jose slot v).1 ∧
      ∀ claims, (verifyToken jose slot v).2 = .ok claims →
        ∃ a jwks, published a = .keys jwks ∧ v.first.looked < a+delay+jwksTtl ∧
          jose.decode v.token jwks v.decoded = .ok claims := by
  rw [verifyToken]
  cases jose.unverifiedKid v.token with
  | error err => cases err <;> exact ⟨hslot,fun claims hok => by cases hok⟩
  | ok kid =>
    obtain ⟨hfirst,hread⟩ := getJwks_spec hv.first hslot false
    rcases hget : getJwks slot false v.first with ⟨slot₁,result⟩
    rw [hget] at hfirst hread
    cases result with
    | error err => exact ⟨hfirst,fun claims hok => by cases hok⟩
    | ok jwks =>
      dsimp only
      split_ifs with hkid
      · refine ⟨hfirst,fun claims hok => ?_⟩
        obtain ⟨a,ha,hbound⟩ := hread jwks rfl
        exact ⟨a,jwks,ha,hbound,decodeWith_ok hok⟩
      · obtain ⟨hsecond,hforced⟩ := getJwks_spec hv.second hfirst true
        rcases hget : getJwks slot₁ true v.second with ⟨slot₂,result⟩
        rw [hget] at hsecond hforced
        cases result with
        | error err => exact ⟨hsecond,fun claims hok => by cases hok⟩
        | ok jwks' =>
          refine ⟨hsecond,fun claims hok => ?_⟩
          obtain ⟨a,ha,hbound⟩ := hforced jwks' rfl
          have hlooked := hv.second.looked
          have hread := hv.first.read
          exact ⟨a,jwks',ha,by omega,decodeWith_ok hok⟩

theorem stored_of_reachable {t₀ : ℤ} {s : Server κ}
    (h : Reachable (Step jose published delay) ⟨none,t₀⟩ s) :
    Stored jwksTtl (Published published delay) s.slot := by
  refine h.invariant (I := fun s => Stored jwksTtl (Published published delay) s.slot) stored_none
    fun s v s' hs hstep => ?_
  obtain ⟨hv,hslot⟩ := hstep
  rw [hslot]
  exact (verifyToken_spec hv hs).1

/-- Once the published key sets no longer verify a token, no call accepts it that begins an hour,
and the time that a fetch takes, after that. -/
theorem withdrawn_refused {t₀ : ℤ} {s : Server κ} {tr : List (Transition (Server κ) (Visit τ κ))}
    (h : Path (Step jose published delay) ⟨none,t₀⟩ tr s) {t : Transition (Server κ) (Visit τ κ)}
    (ht : t ∈ tr) {w : ℤ}
    (hwithdrawn : ∀ a, w ≤ a → ∀ jwks, published a = .keys jwks → ∀ now claims,
      jose.decode t.2.1.token jwks now ≠ .ok claims)
    (hlate : w+delay+jwksTtl ≤ t.2.1.first.looked) (claims : γ) :
    (verifyToken jose t.1.slot t.2.1).2 ≠ .ok claims := by
  intro hok
  obtain ⟨hreach,hv,_⟩ := h.step_of_mem ht
  obtain ⟨a,jwks,ha,hbound,hdecode⟩ :=
    (verifyToken_spec hv (stored_of_reachable hreach)).2 claims hok
  exact hwithdrawn a (by omega) jwks ha _ _ hdecode

/-- A token of the withdrawn key, an hour later. -/
theorem withdrawn_refused_rotated :
    (verifyToken numbered (some ⟨[7],3610⟩) (visitAt rotated 7 3700)).2 ≠ .ok 7 := by
  obtain ⟨s,h⟩ := path_rotated 7 (show (10 : ℤ) ≤ 3700 by decide)
  refine withdrawn_refused h (List.mem_cons_of_mem _ (List.mem_singleton_self _)) (w := 100) ?_
    (show (100 : ℤ)+0+3600 ≤ 3700 by decide) 7
  intro a ha jwks hjwks now claims
  rw [rotated,if_neg (by omega)] at hjwks
  obtain rfl := Answer.keys.inj hjwks
  simp [numbered,visitAt]

end Freshness

section Rotation

variable {jose : Jose τ κ γ} {published : ℤ → Answer κ} {delay start finish : ℤ}
  {slot : Slot (List κ)} {l : Lookup κ} {v : Visit τ κ}

/-- No entry expires between the two readings of the clock. -/
def Lookup.Ticks (slot : Slot (List κ)) (l : Lookup κ) : Prop :=
  ∀ entry ∈ slot, l.looked < entry.expires → l.read < entry.expires

theorem get?_of_ticks (hticks : l.Ticks slot) (hcached : (get? slot l.looked).isSome) :
    ∃ jwks, get? slot l.read = some jwks := by
  cases slot with
  | none => cases hcached
  | some entry =>
    rw [get?] at hcached
    split_ifs at hcached with hlive
    · exact ⟨entry.value,if_pos (hticks entry rfl hlive)⟩
    · cases hcached

theorem getJwks_ok (hl : l.Timely published delay start)
    (forceRefresh : Bool) (hticks : l.Ticks slot) {asked : List κ}
    (hasked : published l.answered = .keys asked) :
    ∃ slot' jwks, getJwks slot forceRefresh l = (slot',.ok jwks) ∧
      (forceRefresh = true → jwks = asked) := by
  rw [getJwks]
  split_ifs with hcached
  · obtain ⟨jwks,hread⟩ := get?_of_ticks hticks hcached.2
    exact ⟨slot,jwks,by rw [hread],fun hforce => absurd hforce (by simp [hcached.1])⟩
  · exact ⟨_,asked,by rw [hl.answer,hasked],fun _ => rfl⟩

/-- While the endpoint answers, a token is decoded with a published key set that has its key, if
only the set has it that is published when the process asks again. -/
theorem decoded_with_kid {t₀ : ℤ} {s : Server κ} {tr : List (Transition (Server κ) (Visit τ κ))}
    (h : Path (Step jose published delay) ⟨none,t₀⟩ tr s) {t : Transition (Server κ) (Visit τ κ)}
    (ht : t ∈ tr) {kid : Option String} (hheader : jose.unverifiedKid t.2.1.token = .ok kid)
    (hticks : t.2.1.first.Ticks t.1.slot) {asked asked' : List κ}
    (hasked : published t.2.1.first.answered = .keys asked)
    (hasked' : published t.2.1.second.answered = .keys asked')
    (hkid : hasKid jose asked' kid = true) :
    ∃ a jwks, published a = .keys jwks ∧ t.2.1.first.looked < a+delay+jwksTtl ∧
      hasKid jose jwks kid = true ∧
      (verifyToken jose t.1.slot t.2.1).2 = decodeWith jose t.2.1.token jwks t.2.1.decoded := by
  obtain ⟨hreach,hv,_⟩ := h.step_of_mem ht
  have hslot := stored_of_reachable hreach
  obtain ⟨slot₁,jwks,hget,_⟩ := getJwks_ok hv.first false hticks hasked
  obtain ⟨hfirst,hread⟩ := getJwks_spec hv.first hslot false
  rw [hget] at hfirst hread
  rw [verifyToken,hheader]
  simp only [hget]
  split_ifs with hshown
  · obtain ⟨a,ha,hbound⟩ := hread jwks rfl
    exact ⟨a,jwks,ha,hbound,hshown,rfl⟩
  · have hforced : getJwks slot₁ true t.2.1.second =
        (put jwksTtl t.2.1.second.stored asked',.ok asked') := by
      simp [getJwks,hv.second.answer,hasked']
    obtain ⟨a,ha,hbound⟩ := (getJwks_spec hv.second hfirst true).2 asked' (by rw [hforced])
    have hlooked := hv.second.looked
    have hread := hv.first.read
    exact ⟨a,asked',ha,by omega,hkid,by rw [hforced]⟩

/-- A token of the new key, while the cache still has the old one. -/
theorem decoded_with_kid_rotated :
    ∃ a jwks, rotated a = .keys jwks ∧ 120 < a+0+jwksTtl ∧
      hasKid numbered jwks (some (toString 8)) = true ∧
      (verifyToken numbered (some ⟨[7],3610⟩) (visitAt rotated 8 120)).2 =
        decodeWith numbered 8 jwks 120 := by
  obtain ⟨s,h⟩ := path_rotated 8 (show (10 : ℤ) ≤ 120 by decide)
  exact decoded_with_kid h (List.mem_cons_of_mem _ (List.mem_singleton_self _)) rfl
    (fun _ _ hlive => hlive) rfl rfl (by decide +kernel)

end Rotation

section Economy

variable {jose : Jose τ κ γ} {published : ℤ → Answer κ} {delay start finish t₀ : ℤ} {n : ℕ}
  {slot : Slot (List κ)} {l : Lookup κ} {v : Visit τ κ}

def asks (slot : Slot (List κ)) (forceRefresh : Bool) (l : Lookup κ) : ℕ :=
  if forceRefresh = false ∧ (get? slot l.looked).isSome then 0 else 1

/-- The lookups of a call that ask for the set because the cache does not have it. -/
def unforced (jose : Jose τ κ γ) (slot : Slot (List κ)) (v : Visit τ κ) : ℕ :=
  match jose.unverifiedKid v.token with
  | .error _ => 0
  | .ok _ => asks slot false v.first

/-- Whether the token names a key that is not in the set it is shown first. -/
def misses (jose : Jose τ κ γ) (slot : Slot (List κ)) (v : Visit τ κ) : Bool :=
  match jose.unverifiedKid v.token,(getJwks slot false v.first).2 with
  | .ok kid,.ok jwks => !hasKid jose jwks kid
  | _,_ => false

def fetches (jose : Jose τ κ γ) (slot : Slot (List κ)) (v : Visit τ κ) : ℕ :=
  unforced jose slot v +
    if misses jose slot v then asks (getJwks slot false v.first).1 true v.second else 0

/-- What `n` unforced requests since `t₀` leave. -/
structure Budget (t₀ clock : ℤ) (n : ℕ) (slot : Slot (List κ)) : Prop where
  started : t₀ ≤ clock
  unused : slot = none → n = 0
  used : ∀ entry ∈ slot, jwksTtl * n ≤ entry.expires-t₀ ∧ entry.expires ≤ clock+jwksTtl

theorem Budget.later {clock : ℤ} (h : Budget t₀ start n slot) (hlater : start ≤ clock) :
    Budget t₀ clock n slot where
  started := h.started.trans hlater
  unused := h.unused
  used entry hentry := by
    obtain ⟨hpaid,hexpires⟩ := h.used entry hentry
    exact ⟨hpaid,by omega⟩

theorem Budget.getJwks_unforced (h : Budget t₀ start n slot) (hl : l.Timely published delay start)
    {asked : List κ} (hasked : published l.answered = .keys asked) :
    Budget t₀ (max l.read l.stored) (n+asks slot false l) (getJwks slot false l).1 := by
  have hlooked := hl.looked
  have hread := hl.read
  rw [asks,getJwks]
  split_ifs with hcached
  · have hsame := h.later (show start ≤ max l.read l.stored by omega)
    cases hget : get? slot l.read <;> exact hsame
  · have hanswered := hl.answered
    have hstored := hl.stored
    have hstarted := h.started
    rw [hl.answer,hasked]
    refine ⟨by omega,fun hnone => (nomatch hnone),fun entry hentry => ?_⟩
    obtain rfl := Option.some.inj hentry
    refine ⟨?_,by dsimp only; omega⟩
    have hmiss : get? slot l.looked = none := by
      simpa using hcached
    cases hslot : slot with
    | none =>
      rw [h.unused hslot,jwksTtl]
      dsimp only
      omega
    | some entry =>
      have hexpired := get?_none_iff.mp hmiss entry hslot
      have hpaid := (h.used entry hslot).1
      rw [jwksTtl] at hpaid ⊢
      dsimp only
      omega

theorem Budget.getJwks_forced (h : Budget t₀ start n slot) (hl : l.Timely published delay start)
    {asked : List κ} (hasked : published l.answered = .keys asked) :
    Budget t₀ (max l.read l.stored) n (getJwks slot true l).1 := by
  have hlooked := hl.looked
  have hanswered := hl.answered
  have hstored := hl.stored
  have hstarted := h.started
  have hforced : (getJwks slot true l).1 = put jwksTtl l.stored asked := by
    simp [getJwks,hl.answer,hasked]
  rw [hforced]
  refine ⟨by omega,fun hnone => (nomatch hnone),fun entry hentry => ?_⟩
  obtain rfl := Option.some.inj hentry
  refine ⟨?_,by dsimp only; omega⟩
  cases hslot : slot with
  | none =>
    rw [h.unused hslot,jwksTtl]
    dsimp only
    omega
  | some entry =>
    obtain ⟨hpaid,hexpires⟩ := h.used entry hslot
    rw [jwksTtl] at hpaid hexpires ⊢
    dsimp only
    omega

theorem Budget.verifyToken (h : Budget t₀ start n slot)
    (hv : v.Timely published delay start finish)
    (hanswers : ∀ a, ∃ jwks, published a = .keys jwks) :
    Budget t₀ finish (n+unforced jose slot v) (verifyToken jose slot v).1 := by
  have hlooked := hv.first.looked
  have hread := hv.first.read
  have hlooked' := hv.second.looked
  have hread' := hv.second.read
  have hfinish := hv.finish
  obtain ⟨asked,hasked⟩ := hanswers v.first.answered
  obtain ⟨asked',hasked'⟩ := hanswers v.second.answered
  rw [unforced,AccessToken.verifyToken]
  cases jose.unverifiedKid v.token with
  | error err =>
    have hsame := h.later (show start ≤ finish by omega)
    cases err <;> exact hsame
  | ok kid =>
    have hfirst := h.getJwks_unforced hv.first hasked
    rcases hget : getJwks slot false v.first with ⟨slot₁,result⟩
    rw [hget] at hfirst
    have hthen := hfirst.later (show max v.first.read v.first.stored ≤ finish by omega)
    cases result with
    | error err => exact hthen
    | ok jwks =>
      dsimp only
      split_ifs
      · exact hthen
      · have hsecond := hfirst.getJwks_forced hv.second hasked'
        rcases hget : getJwks slot₁ true v.second with ⟨slot₂,result⟩
        rw [hget] at hsecond
        have hthen := hsecond.later hfinish
        cases result <;> exact hthen

theorem fetches_eq (jose : Jose τ κ γ) (slot : Slot (List κ)) (v : Visit τ κ) :
    fetches jose slot v = unforced jose slot v + (misses jose slot v).toNat := by
  rw [fetches]
  cases misses jose slot v <;> simp [asks]

/-- While the endpoint answers, a process asks it once an hour, and once more for each token that
names a key which the set it is shown does not have. -/
theorem fetches_bound {s : Server κ} {tr : List (Transition (Server κ) (Visit τ κ))}
    (h : Path (Step jose published delay) ⟨none,t₀⟩ tr s)
    (hanswers : ∀ a, ∃ jwks, published a = .keys jwks) :
    jwksTtl * ((tr.map fun t => fetches jose t.1.slot t.2.1).sum : ℕ) ≤
      s.clock-t₀ + jwksTtl*(1+((tr.filter fun t => misses jose t.1.slot t.2.1).length : ℕ)) := by
  have hbudget : ∃ n, Budget t₀ s.clock n s.slot ∧
      (tr.map fun t => fetches jose t.1.slot t.2.1).sum =
        n + (tr.filter fun t => misses jose t.1.slot t.2.1).length := by
    induction h with
    | nil => exact ⟨0,⟨le_rfl,fun _ => rfl,fun entry hentry => nomatch hentry⟩,rfl⟩
    | @snoc tr s s' v _ hstep ih =>
      obtain ⟨n,hn,hsum⟩ := ih
      obtain ⟨hv,hslot⟩ := hstep
      refine ⟨n+unforced jose s.slot v,hslot ▸ hn.verifyToken hv hanswers,?_⟩
      rw [List.map_append,List.sum_append,hsum,List.filter_append,List.length_append,
        List.map_singleton,List.sum_singleton,fetches_eq]
      cases hmiss : misses jose s.slot v <;> simp [List.filter,hmiss] <;> omega
  obtain ⟨n,hn,hsum⟩ := hbudget
  have hpaid : jwksTtl*n ≤ s.clock-t₀+jwksTtl := by
    have hstarted := hn.started
    cases hslot : s.slot with
    | none =>
      rw [hn.unused hslot,jwksTtl]
      omega
    | some entry =>
      obtain ⟨hpaid,hexpires⟩ := hn.used entry hslot
      omega
  rw [hsum,jwksTtl] at *
  omega

/-- A call that fills the cache and one that finds its key there. -/
theorem fetches_bound_rotated :
    ∃ s : Server ℕ, jwksTtl * ((([(⟨none,0⟩,visitAt rotated 7 10,⟨some ⟨[7],3610⟩,10⟩),
        (⟨some ⟨[7],3610⟩,10⟩,visitAt rotated 7 50,s)] :
          List (Transition (Server ℕ) (Visit ℕ ℕ))).map
        fun t => fetches numbered t.1.slot t.2.1).sum : ℕ) ≤ s.clock-0 + jwksTtl*(1+0) := by
  obtain ⟨s,h⟩ := path_rotated 7 (show (10 : ℤ) ≤ 50 by decide)
  refine ⟨s,(fetches_bound h fun a => ?_).trans (le_of_eq ?_)⟩
  · by_cases ha : a < 100
    · exact ⟨[7],if_pos ha⟩
    · exact ⟨[8],if_neg ha⟩
  · have hnone : misses numbered none (visitAt rotated 7 10) = false := by decide +kernel
    have hcached : misses numbered (some ⟨[7],3610⟩) (visitAt rotated 7 50) = false := by
      decide +kernel
    simp [List.filter,hnone,hcached]

end Economy

end AccessToken
end LeadEngine
