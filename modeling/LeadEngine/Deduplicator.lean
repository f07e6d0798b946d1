import LeadEngine.Repository

/-! Deduplication: the lead an inbound event belongs to, by phone, then email, then
name and location. -/
namespace LeadEngine
namespace Deduplicator

open Table Interpreter Repository

/-- The third lookup of `find_duplicate`, skipped when name or location is missing. -/
def lookupPlace (s : Store) (tenantId : UUID) (e : NormalisedChannelEvent) :
    Except CaptureError (Option Lead) :=
  match truthy e.fullName,truthy e.location with
  | some name,some place => getLeadByNameAndLocation s tenantId name place
  | _,_ => .ok none

/-- The event's name and location are stored on the lead. -/
def MatchesPlace (e : NormalisedChannelEvent) (l : Lead) : Prop :=
  ∃ n p, truthy e.fullName = some n ∧ truthy e.location = some p ∧
    l.fullName = some n ∧ l.location = some p

instance (e : NormalisedChannelEvent) (l : Lead) : Decidable (MatchesPlace e l) :=
  decidable_of_iff ((truthy e.fullName).isSome ∧ (truthy e.location).isSome ∧
    l.fullName = truthy e.fullName ∧ l.location = truthy e.location) <| by
    cases hn : truthy e.fullName <;> cases hp : truthy e.location <;> simp [MatchesPlace,hn,hp]

structure Identities (leads : List Lead) : Prop where
  phone : UniqueOn Lead.phoneKey leads
  email : UniqueOn Lead.emailKey leads
  place : UniqueOn Lead.placeKey leads

theorem Identities.nil : Identities [] :=
  ⟨UniqueOn.nil _,UniqueOn.nil _,UniqueOn.nil _⟩

theorem Identities.perm {leads leads' : List Lead} (h : Identities leads)
    (hp : leads.Perm leads') : Identities leads' :=
  ⟨h.phone.perm hp,h.email.perm hp,h.place.perm hp⟩

theorem Identities.sublist {leads leads' : List Lead} (h : Identities leads)
    (hsub : leads'.Sublist leads) : Identities leads' :=
  ⟨h.phone.sublist hsub,h.email.sublist hsub,h.place.sublist hsub⟩

theorem lookupPlace_none {s : Store} {t : UUID} {e : NormalisedChannelEvent} :
    lookupPlace s t e = .ok none ↔ ∀ l ∈ s.leads, l.tenantId = t → ¬ MatchesPlace e l := by
  unfold lookupPlace MatchesPlace
  cases hn : truthy e.fullName with
  | none => simp
  | some n =>
    cases hp : truthy e.location with
    | none => simp
    | some p =>
      simp only [getLeadByNameAndLocation,scalarOneOrNone_none,List.filter_eq_nil_iff]
      simp

theorem lookupPlace_some {s : Store} (hi : Identities s.leads) {t : UUID}
    {e : NormalisedChannelEvent} {l : Lead} :
    lookupPlace s t e = .ok (some l) ↔ l ∈ s.leads ∧ l.tenantId = t ∧ MatchesPlace e l := by
  unfold lookupPlace MatchesPlace
  cases hn : truthy e.fullName with
  | none => simp
  | some n =>
    cases hp : truthy e.location with
    | none => simp
    | some p =>
      have hn' := (truthy_eq_some.mp hn).2
      have hp' := (truthy_eq_some.mp hp).2
      simp only [getLeadByNameAndLocation_eq s t hn' hp',hi.place.scalarOneOrNone_rowsAt_some,
        Lead.placeKey_eq_some,truthy_eq_some]
      simp [hn',hp']

theorem lookupPlace_ok {s : Store} (hi : Identities s.leads) (t : UUID)
    (e : NormalisedChannelEvent) : ∃ o, lookupPlace s t e = .ok o := by
  unfold lookupPlace
  split
  · rename_i n p hn hp
    rw [getLeadByNameAndLocation_eq s t (truthy_eq_some.mp hn).2 (truthy_eq_some.mp hp).2]
    exact hi.place.scalarOneOrNone_rowsAt_ok _ _
  · exact ⟨none,rfl⟩

theorem mem_of_selected {leads : List Lead} {keep : Lead → Bool} {l : Lead}
    (h : scalarOneOrNone CaptureError.multipleResultsFound (leads.filter keep) = .ok (some l)) :
    l ∈ leads ∧ keep l = true := by
  rw [scalarOneOrNone_some] at h
  exact List.mem_filter.mp (h ▸ List.mem_singleton_self l)

theorem lookupPlace_mem {s : Store} {t : UUID} {e : NormalisedChannelEvent} {l : Lead}
    (h : lookupPlace s t e = .ok (some l)) : l ∈ s.leads ∧ l.tenantId = t ∧ MatchesPlace e l := by
  unfold lookupPlace at h
  split at h
  · rename_i n p hn hp
    obtain ⟨hl,hkeep⟩ := mem_of_selected h
    obtain ⟨ht,hname,hplace⟩ := of_decide_eq_true hkeep
    exact ⟨hl,ht,n,p,hn,hp,hname,hplace⟩
  · simp at h

variable [Interpreter]

def normalisePhone (phone : String) : String :=
  match phone.toList.filter fun c => isDecimal c || c == '+' with
  | '+' :: rest => String.ofList ('+' :: rest.filter (· ≠ '+'))
  | stripped => String.ofList stripped

def storedPhone (e : NormalisedChannelEvent) : Option String :=
  (truthy e.phone).map normalisePhone

def storedEmail (e : NormalisedChannelEvent) : Option String :=
  (truthy e.email).map lower

/-- The first two lookups, each skipped when the event lacks the identifier. -/
def lookupPhone (s : Store) (tenantId : UUID) (e : NormalisedChannelEvent) :
    Except CaptureError (Option Lead) :=
  match storedPhone e with
  | some p => getLeadByPhone s tenantId p
  | none => .ok none

def lookupEmail (s : Store) (tenantId : UUID) (e : NormalisedChannelEvent) :
    Except CaptureError (Option Lead) :=
  match storedEmail e with
  | some m => getLeadByEmail s tenantId m
  | none => .ok none

def findDuplicate (s : Store) (tenantId : UUID) (e : NormalisedChannelEvent) :
    Except CaptureError (Option Lead) :=
  match lookupPhone s tenantId e with
  | .ok none =>
    match lookupEmail s tenantId e with
    | .ok none => lookupPlace s tenantId e
    | found => found
  | found => found

def buildTouchpoint (f : Fresh) (existingLead : Lead) (e : NormalisedChannelEvent) :
    LeadTouchpoint where
  id := f.touchpointId
  leadId := existingLead.id
  platformEventId := some e.platformEventId
  sourceChannel := e.source
  rawEventJson := .payload e.rawEventJson

/-- The event's phone, or its email, is stored on the lead. -/
def MatchesPhone (e : NormalisedChannelEvent) (l : Lead) : Prop :=
  ∃ p, storedPhone e = some p ∧ l.phone = some p

def MatchesEmail (e : NormalisedChannelEvent) (l : Lead) : Prop :=
  ∃ m, storedEmail e = some m ∧ l.email = some m

/-- The lead belongs to the tenant and shares an identity with the event. -/
def Matches (tenantId : UUID) (e : NormalisedChannelEvent) (l : Lead) : Prop :=
  l.tenantId = tenantId ∧ (MatchesPhone e l ∨ MatchesEmail e l ∨ MatchesPlace e l)

instance (e : NormalisedChannelEvent) (l : Lead) : Decidable (MatchesPhone e l) :=
  decidable_of_iff ((storedPhone e).isSome ∧ l.phone = storedPhone e) <| by
    cases h : storedPhone e <;> simp [MatchesPhone,h]

instance (e : NormalisedChannelEvent) (l : Lead) : Decidable (MatchesEmail e l) :=
  decidable_of_iff ((storedEmail e).isSome ∧ l.email = storedEmail e) <| by
    cases h : storedEmail e <;> simp [MatchesEmail,h]

instance (tenantId : UUID) (e : NormalisedChannelEvent) (l : Lead) :
    Decidable (Matches tenantId e l) := by unfold Matches; infer_instance

/-- The event shares with `b` an identifier that is looked up before any it shares
with `l`. -/
def Prefers (e : NormalisedChannelEvent) (b l : Lead) : Prop :=
  b.tenantId = e.tenantId ∧ ¬ MatchesPhone e l ∧
    (MatchesPhone e b ∨ MatchesEmail e b ∧ ¬ MatchesEmail e l)

theorem lookupPhone_none {s : Store} {t : UUID} {e : NormalisedChannelEvent} :
    lookupPhone s t e = .ok none ↔ ∀ l ∈ s.leads, l.tenantId = t → ¬ MatchesPhone e l := by
  unfold lookupPhone MatchesPhone
  cases storedPhone e with
  | none => simp
  | some p =>
    simp only [getLeadByPhone_eq,scalarOneOrNone_rowsAt_none,ne_eq,Lead.phoneKey_eq_some,not_and,
      Option.some.injEq,exists_eq_left']

theorem lookupEmail_none {s : Store} {t : UUID} {e : NormalisedChannelEvent} :
    lookupEmail s t e = .ok none ↔ ∀ l ∈ s.leads, l.tenantId = t → ¬ MatchesEmail e l := by
  unfold lookupEmail MatchesEmail
  cases storedEmail e with
  | none => simp
  | some m =>
    simp only [getLeadByEmail_eq,scalarOneOrNone_rowsAt_none,ne_eq,Lead.emailKey_eq_some,not_and,
      Option.some.injEq,exists_eq_left']

/-- The dedup answers "no duplicate" exactly when no lead of the tenant matches the event. -/
theorem findDuplicate_none {s : Store} {t : UUID} {e : NormalisedChannelEvent} :
    findDuplicate s t e = .ok none ↔ ∀ l ∈ s.leads, ¬ Matches t e l := by
  have hsplit : findDuplicate s t e = .ok none ↔
      lookupPhone s t e = .ok none ∧ lookupEmail s t e = .ok none ∧
        lookupPlace s t e = .ok none := by
    unfold findDuplicate
    split
    · rename_i h
      split
      · rename_i h'
        simp [h,h']
      · rename_i h'
        exact ⟨fun hf => absurd hf h',fun hf => absurd hf.2.1 h'⟩
    · rename_i h
      exact ⟨fun hf => absurd hf h,fun hf => absurd hf.1 h⟩
  rw [hsplit,lookupPhone_none,lookupEmail_none,lookupPlace_none]
  simp only [Matches,not_and,not_or]
  constructor
  · rintro ⟨hp,hm,hn⟩ l hl ht
    exact ⟨hp l hl ht,hm l hl ht,hn l hl ht⟩
  · intro h
    exact ⟨fun l hl ht => (h l hl ht).1,fun l hl ht => (h l hl ht).2.1,
      fun l hl ht => (h l hl ht).2.2⟩

theorem lookupPhone_mem {s : Store} {t : UUID} {e : NormalisedChannelEvent} {l : Lead}
    (h : lookupPhone s t e = .ok (some l)) : l ∈ s.leads ∧ l.tenantId = t ∧ MatchesPhone e l := by
  unfold lookupPhone at h
  split at h
  · rename_i p hp
    obtain ⟨hl,hkeep⟩ := mem_of_selected h
    obtain ⟨ht,hphone⟩ := of_decide_eq_true hkeep
    exact ⟨hl,ht,p,hp,hphone⟩
  · simp at h

theorem lookupEmail_mem {s : Store} {t : UUID} {e : NormalisedChannelEvent} {l : Lead}
    (h : lookupEmail s t e = .ok (some l)) : l ∈ s.leads ∧ l.tenantId = t ∧ MatchesEmail e l := by
  unfold lookupEmail at h
  split at h
  · rename_i m hm
    obtain ⟨hl,hkeep⟩ := mem_of_selected h
    obtain ⟨ht,hmail⟩ := of_decide_eq_true hkeep
    exact ⟨hl,ht,m,hm,hmail⟩
  · simp at h

theorem findDuplicate_mem {s : Store} {t : UUID} {e : NormalisedChannelEvent} {l : Lead}
    (h : findDuplicate s t e = .ok (some l)) : l ∈ s.leads ∧ Matches t e l := by
  unfold findDuplicate at h
  split at h
  · split at h
    · obtain ⟨hl,ht,hplace⟩ := lookupPlace_mem h
      exact ⟨hl,ht,Or.inr (Or.inr hplace)⟩
    · obtain ⟨hl,ht,hmail⟩ := lookupEmail_mem h
      exact ⟨hl,ht,Or.inr (Or.inl hmail)⟩
  · obtain ⟨hl,ht,hphone⟩ := lookupPhone_mem h
    exact ⟨hl,ht,Or.inl hphone⟩

theorem lookupPhone_ok {s : Store} (h : UniqueOn Lead.phoneKey s.leads) (t : UUID)
    (e : NormalisedChannelEvent) : ∃ o, lookupPhone s t e = .ok o := by
  unfold lookupPhone
  split
  · rw [getLeadByPhone_eq]
    exact h.scalarOneOrNone_rowsAt_ok _ _
  · exact ⟨none,rfl⟩

theorem lookupEmail_ok {s : Store} (h : UniqueOn Lead.emailKey s.leads) (t : UUID)
    (e : NormalisedChannelEvent) : ∃ o, lookupEmail s t e = .ok o := by
  unfold lookupEmail
  split
  · rw [getLeadByEmail_eq]
    exact h.scalarOneOrNone_rowsAt_ok _ _
  · exact ⟨none,rfl⟩

section UniqueIdentities

variable {s : Store} (hi : Identities s.leads)
include hi

theorem lookupPhone_some {t : UUID} {e : NormalisedChannelEvent} {l : Lead} :
    lookupPhone s t e = .ok (some l) ↔ l ∈ s.leads ∧ l.tenantId = t ∧ MatchesPhone e l := by
  unfold lookupPhone MatchesPhone
  cases storedPhone e with
  | none => simp
  | some p =>
    simp only [getLeadByPhone_eq,hi.phone.scalarOneOrNone_rowsAt_some,Lead.phoneKey_eq_some,
      Option.some.injEq,exists_eq_left']

theorem lookupEmail_some {t : UUID} {e : NormalisedChannelEvent} {l : Lead} :
    lookupEmail s t e = .ok (some l) ↔ l ∈ s.leads ∧ l.tenantId = t ∧ MatchesEmail e l := by
  unfold lookupEmail MatchesEmail
  cases storedEmail e with
  | none => simp
  | some m =>
    simp only [getLeadByEmail_eq,hi.email.scalarOneOrNone_rowsAt_some,Lead.emailKey_eq_some,
      Option.some.injEq,exists_eq_left']

theorem findDuplicate_ok (t : UUID) (e : NormalisedChannelEvent) :
    ∃ o, findDuplicate s t e = .ok o := by
  obtain ⟨op,hp⟩ := lookupPhone_ok hi.phone t e
  obtain ⟨om,hm⟩ := lookupEmail_ok hi.email t e
  obtain ⟨on,hn⟩ := lookupPlace_ok hi t e
  unfold findDuplicate
  rw [hp]
  cases op with
  | some l => exact ⟨some l,rfl⟩
  | none =>
    rw [hm]
    cases om with
    | some l => exact ⟨some l,rfl⟩
    | none => exact ⟨on,hn⟩

/-- The lead the dedup returns is the phone's lead, else the email's, else the place's. -/
theorem findDuplicate_some {t : UUID} {e : NormalisedChannelEvent} {l : Lead} :
    findDuplicate s t e = .ok (some l) ↔ l ∈ s.leads ∧ l.tenantId = t ∧
      (MatchesPhone e l ∨
        (∀ l' ∈ s.leads, l'.tenantId = t → ¬ MatchesPhone e l') ∧ (MatchesEmail e l ∨
          (∀ l' ∈ s.leads, l'.tenantId = t → ¬ MatchesEmail e l') ∧ MatchesPlace e l)) := by
  obtain ⟨op,hp⟩ := lookupPhone_ok hi.phone t e
  obtain ⟨om,hm⟩ := lookupEmail_ok hi.email t e
  unfold findDuplicate
  cases op with
  | some lp =>
    have hlp := (lookupPhone_some hi).mp hp
    rw [hp]
    constructor
    · rintro h
      obtain rfl : lp = l := by simpa using h
      exact ⟨hlp.1,hlp.2.1,Or.inl hlp.2.2⟩
    · rintro ⟨hl,ht,h | ⟨hno,_⟩⟩
      · exact hp.symm.trans ((lookupPhone_some hi).mpr ⟨hl,ht,h⟩)
      · exact absurd hlp.2.2 (hno lp hlp.1 hlp.2.1)
  | none =>
    have hno := lookupPhone_none.mp hp
    rw [hp]
    cases om with
    | some lm =>
      have hlm := (lookupEmail_some hi).mp hm
      rw [hm]
      constructor
      · rintro h
        obtain rfl : lm = l := by simpa using h
        exact ⟨hlm.1,hlm.2.1,Or.inr ⟨hno,Or.inl hlm.2.2⟩⟩
      · rintro ⟨hl,ht,h | ⟨_,h | ⟨hnom,_⟩⟩⟩
        · exact absurd h (hno l hl ht)
        · exact hm.symm.trans ((lookupEmail_some hi).mpr ⟨hl,ht,h⟩)
        · exact absurd hlm.2.2 (hnom lm hlm.1 hlm.2.1)
    | none =>
      have hnom := lookupEmail_none.mp hm
      rw [hm]
      refine (lookupPlace_some hi).trans ⟨?_,?_⟩
      · rintro ⟨hl,ht,h⟩
        exact ⟨hl,ht,Or.inr ⟨hno,Or.inr ⟨hnom,h⟩⟩⟩
      · rintro ⟨hl,ht,h | ⟨_,h | ⟨_,h⟩⟩⟩
        · exact absurd h (hno l hl ht)
        · exact absurd h (hnom l hl ht)
        · exact ⟨hl,ht,h⟩

/-- The dedup returns the match that no other lead is preferred to. -/
theorem findDuplicate_some_iff_preferred {e : NormalisedChannelEvent} {l : Lead} :
    findDuplicate s e.tenantId e = .ok (some l) ↔
      l ∈ s.leads ∧ Matches e.tenantId e l ∧ ∀ b ∈ s.leads, ¬ Prefers e b l := by
  rw [findDuplicate_some hi]
  constructor
  · rintro ⟨hl,ht,hphone | ⟨hno,hmail | ⟨hnom,hplace⟩⟩⟩
    · exact ⟨hl,⟨ht,Or.inl hphone⟩,fun b _ hb => hb.2.1 hphone⟩
    · refine ⟨hl,⟨ht,Or.inr (Or.inl hmail)⟩,?_⟩
      rintro b hb ⟨hbt,_,hbp | ⟨_,hbm⟩⟩
      · exact hno b hb hbt hbp
      · exact hbm hmail
    · refine ⟨hl,⟨ht,Or.inr (Or.inr hplace)⟩,?_⟩
      rintro b hb ⟨hbt,_,hbp | ⟨hbm,_⟩⟩
      · exact hno b hb hbt hbp
      · exact hnom b hb hbt hbm
  · rintro ⟨hl,⟨ht,hm⟩,hbest⟩
    refine ⟨hl,ht,?_⟩
    by_cases hphone : MatchesPhone e l
    · exact Or.inl hphone
    · have hno : ∀ b ∈ s.leads, b.tenantId = e.tenantId → ¬ MatchesPhone e b :=
        fun b hb hbt hbp => hbest b hb ⟨hbt,hphone,Or.inl hbp⟩
      refine Or.inr ⟨hno,?_⟩
      by_cases hmail : MatchesEmail e l
      · exact Or.inl hmail
      · have hplace : MatchesPlace e l := by
          rcases hm with h | h | h
          · exact absurd h hphone
          · exact absurd h hmail
          · exact h
        exact Or.inr ⟨fun b hb hbt hbm => hbest b hb ⟨hbt,hphone,Or.inr ⟨hbm,hmail⟩⟩,hplace⟩

end UniqueIdentities

end Deduplicator
end LeadEngine
