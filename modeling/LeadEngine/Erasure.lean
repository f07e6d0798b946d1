import LeadEngine.Pipeline

/-! Removal of personal data: the right to erasure. -/
namespace LeadEngine
namespace Erasure

open Interpreter Deduplicator

/-- The personal columns nulled, the payload replaced by a tombstone, the stage set. -/
def scrub (stage : PipelineStage) (tombstone : RawEventJson) (l : Lead) : Lead :=
  { l with
    fullName := none, phone := none, email := none, location := none
    rawEventJson := tombstone, extraFields := none, pipelineStage := stage }

def erasedLead (now : Time) (l : Lead) : Lead := scrub .erased (.erased now) l

def findLeads (s : Store) (tenantId : UUID) (identifierType : IdentifierType) (value : String) :
    List Lead :=
  match identifierType with
  | .phone => s.leads.filter fun l => l.tenantId = tenantId ∧ l.phone = some value
  | .email => s.leads.filter fun l => l.tenantId = tenantId ∧ l.email = some value

/-- Erase the leads with the given ids, their touchpoints and their log rows. -/
def eraseIds (now : Time) (s : Store) (ids : List UUID) : Store :=
  { s with
    leads := s.leads.map fun l => if l.id ∈ ids then erasedLead now l else l
    touchpoints := s.touchpoints.map fun t =>
      if t.leadId ∈ ids then { t with rawEventJson := .erased now } else t
    logs := s.logs.map fun r =>
      if ∃ i ∈ ids, r.leadId = some i then { r with rawEventJson := .erased now } else r }

def eraseOne (now : Time) (s : Store) (lead : Lead) : Store := eraseIds now s [lead.id]

structure LeadErasureRequested where
  tenantId : UUID
  erasedLeadIds : List UUID
  identifierType : IdentifierType
  identifierHash : String

section Request

variable [Interpreter]

def storedIdentifier : IdentifierType → String → String
  | .phone,value => normalisePhone value
  | .email,value => lower value

def eraseIdentity (s : Store) (now : Time) (tenantId : UUID) (identifierType : IdentifierType)
    (value : String) (requestedBy : String) : Store × List UUID × Option LeadErasureRequested :=
  let identifierValue := storedIdentifier identifierType value
  let leads := findLeads s tenantId identifierType identifierValue
  if leads.isEmpty then (s,[],none)
  else
    let erased := leads.foldl (eraseOne now) s
    let ids := leads.map Lead.id
    let identifierHash := sha256 identifierValue
    ({ erased with
        erasureLogs := erased.erasureLogs ++
          [⟨tenantId,ids,identifierType,identifierHash,requestedBy⟩] },
      ids,some ⟨tenantId,ids,identifierType,identifierHash⟩)

/-- The phone decides when both identifiers are given. -/
def eraseLeadByIdentity (s : Store) (now : Time) (tenantId : UUID) (phone email : Option String)
    (requestedBy : String) : Store × List UUID × Option LeadErasureRequested :=
  match phone,email with
  | some p,_ => eraseIdentity s now tenantId .phone p requestedBy
  | none,some m => eraseIdentity s now tenantId .email m requestedBy
  | none,none => (s,[],none)

end Request

theorem eraseIds_nil (now : Time) (s : Store) : eraseIds now s [] = s := by
  simp [eraseIds]

@[simp] theorem erasedLead_id (now : Time) (l : Lead) : (erasedLead now l).id = l.id := rfl

theorem scrub_keys (stage : PipelineStage) (tombstone : RawEventJson) (l : Lead) :
    (scrub stage tombstone l).phoneKey = none ∧ (scrub stage tombstone l).emailKey = none ∧
      (scrub stage tombstone l).placeKey = none := by
  simp [scrub,Lead.phoneKey,Lead.emailKey,Lead.placeKey]

theorem eraseIds_cons (now : Time) (s : Store) (i : UUID) (ids : List UUID) :
    eraseIds now (eraseIds now s [i]) ids = eraseIds now s (i :: ids) := by
  simp only [eraseIds,List.map_map]
  congr 1
  · refine List.map_congr_left fun l _ => ?_
    by_cases h₁ : l.id = i <;> by_cases h₂ : l.id ∈ ids <;> simp_all [erasedLead,scrub]
  · refine List.map_congr_left fun r _ => ?_
    by_cases h₁ : r.leadId = some i <;> by_cases h₂ : ∃ j ∈ ids, r.leadId = some j <;>
      simp_all
  · refine List.map_congr_left fun t _ => ?_
    by_cases h₁ : t.leadId = i <;> by_cases h₂ : t.leadId ∈ ids <;> simp_all

theorem foldl_eraseOne (now : Time) (leads : List Lead) (s : Store) :
    leads.foldl (eraseOne now) s = eraseIds now s (leads.map Lead.id) := by
  induction leads generalizing s with
  | nil => simp [eraseIds_nil]
  | cons l ls ih =>
    rw [List.foldl_cons,ih,eraseOne,eraseIds_cons]
    rfl

theorem eraseIdentity_ids [Interpreter] (s : Store) (now : Time) (tenantId : UUID)
    (identifierType : IdentifierType) (value requestedBy : String) :
    (eraseIdentity s now tenantId identifierType value requestedBy).2.1 =
      (findLeads s tenantId identifierType (storedIdentifier identifierType value)).map Lead.id := by
  unfold eraseIdentity
  dsimp only
  split_ifs with hnone
  · rw [List.isEmpty_iff.mp hnone]
    rfl
  · rfl

/-- No payload is left in a row linked to an erased lead. -/
def Sealed (s : Store) : Prop :=
  ∀ l ∈ s.leads, l.pipelineStage = .erased →
    (∀ t ∈ s.touchpoints, t.leadId = l.id → t.rawEventJson.Tombstoned) ∧
      ∀ r ∈ s.logs, r.leadId = some l.id → r.rawEventJson.Tombstoned

instance (s : Store) : Decidable (Sealed s) := by unfold Sealed; infer_instance

/-- Rewriting rows keeps a store sealed when tombstones stay and a lead is erased together
with its rows. -/
theorem Sealed.rewrite {s s' : Store} (h : Sealed s) {g : Lead → Lead}
    {gt : LeadTouchpoint → LeadTouchpoint} {gr : IntakeEventLog → IntakeEventLog}
    (hleads : s'.leads = s.leads.map g) (htouchpoints : s'.touchpoints = s.touchpoints.map gt)
    (hlogs : s'.logs = s.logs.map gr) (hid : ∀ l, (g l).id = l.id)
    (ht : ∀ t, (gt t).leadId = t.leadId ∧
      (t.rawEventJson.Tombstoned → (gt t).rawEventJson.Tombstoned))
    (hr : ∀ r, (gr r).leadId = r.leadId ∧
      (r.rawEventJson.Tombstoned → (gr r).rawEventJson.Tombstoned))
    (herased : ∀ l ∈ s.leads, (g l).pipelineStage = .erased → l.pipelineStage = .erased ∨
      (∀ t ∈ s.touchpoints, t.leadId = l.id → (gt t).rawEventJson.Tombstoned) ∧
        ∀ r ∈ s.logs, r.leadId = some l.id → (gr r).rawEventJson.Tombstoned) : Sealed s' := by
  intro l' hl' hstage
  rw [hleads] at hl'
  obtain ⟨l,hl,rfl⟩ := List.mem_map.mp hl'
  have hrows : (∀ t ∈ s.touchpoints, t.leadId = l.id → (gt t).rawEventJson.Tombstoned) ∧
      ∀ r ∈ s.logs, r.leadId = some l.id → (gr r).rawEventJson.Tombstoned := by
    rcases herased l hl hstage with hold | hnew
    · obtain ⟨htps,hrs⟩ := h l hl hold
      exact ⟨fun t hm hlead => (ht t).2 (htps t hm hlead),
        fun r hm hlead => (hr r).2 (hrs r hm hlead)⟩
    · exact hnew
  rw [hid,htouchpoints,hlogs]
  constructor
  · intro t' hm hlead
    obtain ⟨t,hold,rfl⟩ := List.mem_map.mp hm
    rw [(ht t).1] at hlead
    exact hrows.1 t hold hlead
  · intro r' hm hlead
    obtain ⟨r,hold,rfl⟩ := List.mem_map.mp hm
    rw [(hr r).1] at hlead
    exact hrows.2 r hold hlead

theorem tombstoned_touchpoint (t : LeadTouchpoint) (p : Prop) [Decidable p]
    {tombstone : RawEventJson} (h : tombstone.Tombstoned) :
    (if p then { t with rawEventJson := tombstone } else t).leadId = t.leadId ∧
      (t.rawEventJson.Tombstoned →
        (if p then { t with rawEventJson := tombstone } else t).rawEventJson.Tombstoned) := by
  split_ifs
  · exact ⟨rfl,fun _ => h⟩
  · exact ⟨rfl,id⟩

theorem tombstoned_log (r : IntakeEventLog) (p : Prop) [Decidable p]
    {tombstone : RawEventJson} (h : tombstone.Tombstoned) :
    (if p then { r with rawEventJson := tombstone } else r).leadId = r.leadId ∧
      (r.rawEventJson.Tombstoned →
        (if p then { r with rawEventJson := tombstone } else r).rawEventJson.Tombstoned) := by
  split_ifs
  · exact ⟨rfl,fun _ => h⟩
  · exact ⟨rfl,id⟩

theorem Sealed.eraseIds {s : Store} (h : Sealed s) (now : Time) (ids : List UUID) :
    Sealed (eraseIds now s ids) := by
  refine h.rewrite rfl rfl rfl (fun l => ?_) (fun t => tombstoned_touchpoint t _ trivial)
    (fun r => tombstoned_log r _ trivial) (fun l _ hstage => ?_)
  · split_ifs <;> rfl
  · by_cases hid : l.id ∈ ids
    · refine Or.inr ⟨fun t _ hlead => ?_,fun r _ hlead => ?_⟩
      · rw [if_pos (by rw [hlead]; exact hid)]
        trivial
      · rw [if_pos ⟨l.id,hid,hlead⟩]
        trivial
    · rw [if_neg hid] at hstage
      exact Or.inl hstage

@[reducible] def erasureRuntime : Interpreter :=
  .ascii (digestOf
    [("+49151","0bd0ceacf4aa0b595b62e4e1f7da2219d9ec1813fff62d92d9de1e33ed346a9a"),
      ("bob@x.org","b752a9a4f7b86f6bde01e37d2b247661c76b783313b223b7a09b9d2bb125ba18")])

end Erasure
end LeadEngine
