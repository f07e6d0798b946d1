import LeadEngine.History

/-! The scope of an erasure: which of the rows that a run wrote for the events of one
identity are without personal data once `erase_lead_by_identity` has committed. -/
namespace LeadEngine
namespace History

open Table Interpreter Repository Deduplicator Pipeline Erasure TransitionSystem

structure Identity where
  tenantId : UUID
  kind : IdentifierType
  value : String

/-- No personal column and no payload is left. -/
def Clean (l : Lead) : Prop :=
  l.rawEventJson.Tombstoned ∧ l.fullName = none ∧ l.phone = none ∧ l.email = none ∧
    l.location = none

instance : DecidablePred Clean := fun l => by unfold Clean; infer_instance

def searchedColumn (kind : IdentifierType) (l : Lead) : Option String :=
  match kind with
  | .phone => l.phone
  | .email => l.email

section Scope

variable [Interpreter]

def Identity.stored (x : Identity) : String := storedIdentifier x.kind x.value

def carriedIdentifier (kind : IdentifierType) (e : NormalisedChannelEvent) : Option String :=
  match kind with
  | .phone => storedPhone e
  | .email => storedEmail e

/-- The event carries the identity, up to normalisation. -/
def Identity.CarriedBy (x : Identity) (e : NormalisedChannelEvent) : Prop :=
  carriedIdentifier x.kind e = some x.stored

instance (x : Identity) (e : NormalisedChannelEvent) : Decidable (x.CarriedBy e) := by
  unfold Identity.CarriedBy; infer_instance

def Identity.Holds (x : Identity) (l : Lead) : Prop :=
  l.tenantId = x.tenantId ∧ searchedColumn x.kind l = some x.stored

def Identity.eraseOp (x : Identity) (requestedBy : String) : Op :=
  match x.kind with
  | .phone => .eraseLeadByIdentity x.tenantId (some x.value) none requestedBy
  | .email => .eraseLeadByIdentity x.tenantId none (some x.value) requestedBy

/-- The row with this id first appeared in a step that processed an event of the tenant
carrying the identity. `ids` lists the row ids of one table. -/
def WrittenFor (tr : List (Transition World Attempt)) (x : Identity) (ids : Store → List UUID)
    (i : UUID) : Prop :=
  ∃ t ∈ tr, (∃ route, t.2.1.op.route = some route ∧ route.event.tenantId = x.tenantId ∧
    x.CarriedBy route.event) ∧ i ∉ ids t.1.store ∧ i ∈ ids t.2.2.store

def leadIds (s : Store) : List UUID := s.leads.map Lead.id

def logIds (s : Store) : List UUID := s.logs.map IntakeEventLog.id

def touchpointIds (s : Store) : List UUID := s.touchpoints.map LeadTouchpoint.id

/-- No row written for the identity holds personal data or a payload. -/
structure Forgotten (tr : List (Transition World Attempt)) (x : Identity) (s : Store) : Prop where
  leads : ∀ l ∈ s.leads, WrittenFor tr x leadIds l.id → Clean l
  touchpoints : ∀ t ∈ s.touchpoints, WrittenFor tr x touchpointIds t.id →
    t.rawEventJson.Tombstoned
  logs : ∀ r ∈ s.logs, WrittenFor tr x logIds r.id → r.rawEventJson.Tombstoned

/-- Every row written for the identity that still holds data is a lead stored under the
identity, or is linked to one. -/
structure Findable (tr : List (Transition World Attempt)) (x : Identity) (s : Store) : Prop where
  leads : ∀ l ∈ s.leads, WrittenFor tr x leadIds l.id → ¬ Clean l → x.Holds l
  touchpoints : ∀ t ∈ s.touchpoints, WrittenFor tr x touchpointIds t.id →
    ¬ t.rawEventJson.Tombstoned → ∃ l ∈ s.leads, l.id = t.leadId ∧ x.Holds l
  logs : ∀ r ∈ s.logs, WrittenFor tr x logIds r.id →
    ¬ r.rawEventJson.Tombstoned → ∃ l ∈ s.leads, r.leadId = some l.id ∧ x.Holds l

theorem mem_findLeads {s : Store} {x : Identity} {l : Lead} :
    l ∈ findLeads s x.tenantId x.kind x.stored ↔ l ∈ s.leads ∧ x.Holds l := by
  unfold findLeads Identity.Holds searchedColumn
  cases x.kind <;> simp

/-- The rows an erasure of the identity rewrites: those of the leads stored under it. -/
def Identity.found (x : Identity) (s : Store) : List UUID :=
  (findLeads s x.tenantId x.kind x.stored).map Lead.id

theorem mem_found {s : Store} {x : Identity} {i : UUID} :
    i ∈ x.found s ↔ ∃ l ∈ s.leads, l.id = i ∧ x.Holds l := by
  simp only [Identity.found,List.mem_map,mem_findLeads]
  constructor
  · rintro ⟨l,⟨hl,hx⟩,hi⟩
    exact ⟨l,hl,hi,hx⟩
  · rintro ⟨l,hl,hi,hx⟩
    exact ⟨l,⟨hl,hx⟩,hi⟩

theorem mem_found_of_mem {s : Store} (hc : Consistent s) {x : Identity} {l : Lead}
    (hl : l ∈ s.leads) : l.id ∈ x.found s ↔ x.Holds l := by
  rw [mem_found]
  constructor
  · rintro ⟨l',hl',hid,hx⟩
    rwa [List.inj_on_of_nodup_map hc.leadIds hl' hl hid] at hx
  · intro hx
    exact ⟨l,hl,rfl,hx⟩

theorem Identity.erased_tables {x : Identity} {who : String} {s s' : Store} {f : Fresh}
    {received : Option LeadReceived} (h : (x.eraseOp who).exec s f = .ok (s',received)) :
    s'.leads = (eraseIds f.now s (x.found s)).leads ∧
      s'.touchpoints = (eraseIds f.now s (x.found s)).touchpoints ∧
      s'.logs = (eraseIds f.now s (x.found s)).logs := by
  have hs : (eraseIdentity s f.now x.tenantId x.kind x.value who).1 = s' := by
    unfold Identity.eraseOp at h
    cases hk : x.kind <;> simp only [hk] at h <;>
      exact (Prod.mk.inj (Except.ok.inj h)).1
  by_cases hnone : (findLeads s x.tenantId x.kind (storedIdentifier x.kind x.value)).isEmpty
  · have hfound : x.found s = [] := by
      simpa [Identity.found,Identity.stored] using hnone
    simp only [eraseIdentity,hnone,if_true] at hs
    rw [hfound,eraseIds_nil,hs]
    exact ⟨rfl,rfl,rfl⟩
  · simp only [eraseIdentity,hnone,foldl_eraseOne] at hs
    rw [← hs]
    exact ⟨rfl,rfl,rfl⟩

omit [Interpreter] in
theorem clean_erasedLead (now : Time) (l : Lead) : Clean (erasedLead now l) :=
  ⟨trivial,rfl,rfl,rfl,rfl⟩

/-- An erasure is complete for the identity asked for exactly when every row written for it
that still holds data can be found through a lead stored under it. -/
theorem forgotten_iff {tr : List (Transition World Attempt)} {w : World}
    (h : Path Step .empty tr w) (x : Identity) {who : String} {f : Fresh} {s' : Store}
    {received : Option LeadReceived}
    (hcommit : (x.eraseOp who).exec w.store f = .ok (s',received)) :
    Forgotten tr x s' ↔ Findable tr x w.store := by
  have hc := consistent_of_reachable h.reachable
  obtain ⟨hleads,htouchpoints,hlogs⟩ := x.erased_tables hcommit
  constructor
  · intro hforgot
    refine ⟨fun l hl hwrote hdirty => ?_,fun t ht hwrote hdirty => ?_,fun r hr hwrote hdirty => ?_⟩
    · by_contra hx
      have hkept : l ∈ s'.leads := by
        rw [hleads]
        exact List.mem_map.mpr ⟨l,hl,if_neg fun hi => hx ((mem_found_of_mem hc hl).mp hi)⟩
      exact hdirty (hforgot.leads l hkept hwrote)
    · by_contra hx
      have hkept : t ∈ s'.touchpoints := by
        rw [htouchpoints]
        exact List.mem_map.mpr ⟨t,ht,if_neg fun hi => hx (mem_found.mp hi)⟩
      exact hdirty (hforgot.touchpoints t hkept hwrote)
    · by_contra hx
      have hkept : r ∈ s'.logs := by
        rw [hlogs]
        refine List.mem_map.mpr ⟨r,hr,if_neg ?_⟩
        rintro ⟨i,hi,hlead⟩
        obtain ⟨l,hl,hid,hxl⟩ := mem_found.mp hi
        exact hx ⟨l,hl,hid ▸ hlead,hxl⟩
      exact hdirty (hforgot.logs r hkept hwrote)
  · intro hfind
    constructor
    · intro l' hl' hwrote
      rw [hleads] at hl'
      obtain ⟨l,hl,rfl⟩ := List.mem_map.mp hl'
      split_ifs at hwrote ⊢ with hi
      · exact clean_erasedLead _ _
      · by_contra hdirty
        exact hi ((mem_found_of_mem hc hl).mpr (hfind.leads l hl hwrote hdirty))
    · intro t' ht' hwrote
      rw [htouchpoints] at ht'
      obtain ⟨t,ht,rfl⟩ := List.mem_map.mp ht'
      split_ifs at hwrote ⊢ with hi
      · exact trivial
      · by_contra hdirty
        exact hi (mem_found.mpr (hfind.touchpoints t ht hwrote hdirty))
    · intro r' hr' hwrote
      rw [hlogs] at hr'
      obtain ⟨r,hr,rfl⟩ := List.mem_map.mp hr'
      split_ifs at hwrote ⊢ with hi
      · exact trivial
      · by_contra hdirty
        obtain ⟨l,hl,hlead,hx⟩ := hfind.logs r hr hwrote hdirty
        exact hi ⟨l.id,mem_found.mpr ⟨l,hl,rfl,hx⟩,hlead⟩

end Scope

/-- A contact writes from one phone under two emails, then someone under the second email. -/
def twoMailsRun : List (Op × Fresh) :=
  [(.runCapture (.ofMessage 1 "a" none (some "+49 152") (some "ann@x.org") none "Hello"),.nth 1),
    (.runCapture (.ofMessage 1 "b" none (some "+49 152") (some "bob@x.org") none "My file"),.nth 2),
    (.runCapture (.ofMessage 1 "c" none none (some "bob@x.org") none "Any news?"),.nth 3)]

def bob : Identity := ⟨1,.email,"Bob@x.org"⟩

/-- The second message stays readable after the erasure of its email: it was attached by
phone to a lead stored under the first email. -/
theorem attached_message_survives :
    letI := erasureRuntime
    ∃ tr w s' received, Path Step .empty tr w ∧ (Fresh.nth 4).For w.store ∧
      (bob.eraseOp "owner").exec w.store (.nth 4) = .ok (s',received) ∧
      (findLeads w.store bob.tenantId bob.kind bob.stored).length = 1 ∧
      ¬ Forgotten tr bob s' := by
  let := erasureRuntime
  refine ⟨trace .empty twoMailsRun,play .empty twoMailsRun,_,_,path_trace _ _,by decide +kernel,
    rfl,by decide +kernel,fun hforgot => ?_⟩
  have hstep := mem_trace .empty (twoMailsRun.take 1)
    (.runCapture (.ofMessage 1 "b" none (some "+49 152") (some "bob@x.org") none "My file"))
    (f:=.nth 2) (twoMailsRun.drop 2) (by decide +kernel)
  have hwritten : WrittenFor (trace .empty twoMailsRun) bob logIds 2 :=
    ⟨_,hstep,⟨_,rfl,rfl,by decide +kernel⟩,by decide +kernel,by decide +kernel⟩
  have hleft : ((eraseIdentity (play .empty twoMailsRun).store (Fresh.nth 4).now bob.tenantId
      .email "Bob@x.org" "owner").1.logs.any fun r =>
        r.id = 2 ∧ ¬ r.rawEventJson.Tombstoned) = true := by decide +kernel
  obtain ⟨r,hr,hrow⟩ := List.any_eq_true.mp hleft
  obtain ⟨hid,hdirty⟩ : r.id = 2 ∧ ¬ r.rawEventJson.Tombstoned := by simpa using hrow
  exact hdirty (hforgot.logs r hr (hid ▸ hwritten))

/-- The erasure of a contact whose one message was captured as a lead is complete. -/
theorem captured_message_forgotten :
    letI := erasureRuntime
    ∃ s' received,
      (bob.eraseOp "owner").exec (play .empty (twoMailsRun.drop 2)).store (.nth 4) =
        .ok (s',received) ∧
      (findLeads (play .empty (twoMailsRun.drop 2)).store bob.tenantId bob.kind bob.stored).length
        = 1 ∧
      Forgotten (trace .empty (twoMailsRun.drop 2)) bob s' := by
  let := erasureRuntime
  have hexec : (bob.eraseOp "owner").exec (play .empty (twoMailsRun.drop 2)).store (.nth 4) =
      .ok (_,none) := rfl
  refine ⟨_,none,hexec,by decide +kernel,(forgotten_iff (path_trace _ _) bob hexec).mpr ?_⟩
  have hall : (play .empty (twoMailsRun.drop 2)).store.leads.all (fun l =>
      l.id = 3 ∧ l.tenantId = 1 ∧ l.email = some bob.stored) = true := by decide +kernel
  have htp : (play .empty (twoMailsRun.drop 2)).store.touchpoints.all
      (fun t => t.leadId = 3) = true := by decide +kernel
  have hlog : (play .empty (twoMailsRun.drop 2)).store.logs.all
      (fun r => r.leadId = some 3) = true := by decide +kernel
  have hsome : ((play .empty (twoMailsRun.drop 2)).store.leads.map Lead.id) = [3] := by
    decide +kernel
  have hholds : ∀ l ∈ (play .empty (twoMailsRun.drop 2)).store.leads, l.id = 3 ∧ bob.Holds l := by
    intro l hl
    have h := List.all_eq_true.mp hall l hl
    simp only [decide_eq_true_eq] at h
    exact ⟨h.1,h.2.1,h.2.2⟩
  obtain ⟨l,hl,hid⟩ := List.mem_map.mp (hsome ▸ List.mem_singleton.mpr rfl :
    3 ∈ (play .empty (twoMailsRun.drop 2)).store.leads.map Lead.id)
  constructor
  · intro l hl _ _
    exact (hholds l hl).2
  · intro t ht _ _
    have h := List.all_eq_true.mp htp t ht
    simp only [decide_eq_true_eq] at h
    exact ⟨l,hl,hid.trans h.symm,(hholds l hl).2⟩
  · intro r hr _ _
    have h := List.all_eq_true.mp hlog r hr
    simp only [decide_eq_true_eq] at h
    exact ⟨l,hl,by rw [h,hid],(hholds l hl).2⟩

end History
end LeadEngine
