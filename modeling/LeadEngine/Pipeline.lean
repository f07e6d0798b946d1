import LeadEngine.Deduplicator
import LeadEngine.TwoStageFilter

/-! The capture pipeline: `run_capture`, `create_terminal_lead` and
`run_capture_message`. A transaction either commits its whole new store or raises
and leaves the store as it was. -/
namespace LeadEngine
namespace Pipeline

open Table Interpreter Repository Deduplicator TwoStageFilter

variable [Interpreter]

structure Captured where
  lead : Lead
  received : Option LeadReceived

def newLead (f : Fresh) (e : NormalisedChannelEvent) : Lead where
  id := f.leadId
  tenantId := e.tenantId
  channelConnectionId := e.channelConnectionId
  pipelineStage := .captured
  sourceChannel := e.source
  fullName := e.fullName
  phone := storedPhone e
  email := storedEmail e
  location := e.location
  rawEventJson := .payload e.rawEventJson
  extraFields := if e.extraFields.isEmpty then none else some e.extraFields
  preFlightBlockReason := none
  createdAt := f.now

def terminalLead (f : Fresh) (e : NormalisedChannelEvent) (stage : TerminalStage)
    (blockReason : Option String) : Lead where
  id := f.leadId
  tenantId := e.tenantId
  channelConnectionId := e.channelConnectionId
  pipelineStage := .terminal stage
  sourceChannel := e.source
  fullName := none
  phone := storedPhone e
  email := none
  location := none
  rawEventJson := .payload e.rawEventJson
  extraFields := none
  preFlightBlockReason := blockReason
  createdAt := f.now

def leadReceived (f : Fresh) (e : NormalisedChannelEvent) : LeadReceived :=
  ⟨e.tenantId,f.leadId,e.source⟩

/-- The redelivery branch: the slot was taken, so a linked lead must exist. -/
def redelivered (s : Store) (e : NormalisedChannelEvent) :
    Except CaptureError (Store × Captured) :=
  match getLeadByPlatformEventId s e.platformEventId with
  | .error err => .error err
  | .ok none => .error (.noLinkedLead e.platformEventId)
  | .ok (some existing) => .ok (s,⟨existing,none⟩)

def runCapture (s : Store) (f : Fresh) (e : NormalisedChannelEvent) :
    Except CaptureError (Store × Captured) :=
  match reserveEventSlot s f e with
  | (none,_) => redelivered s e
  | (some logId,s₁) =>
    match findDuplicate s₁ e.tenantId e with
    | .error err => .error err
    | .ok (some existing) =>
      let s₂ := { s₁ with touchpoints := s₁.touchpoints ++ [buildTouchpoint f existing e] }
      .ok (finaliseEventLog s₂ logId existing.id .duplicate,⟨existing,none⟩)
    | .ok none =>
      let lead := newLead f e
      match s₁.insertLead lead with
      | .error err => .error err
      | .ok s₂ =>
        let s₃ := { s₂ with touchpoints := s₂.touchpoints ++ [buildTouchpoint f lead e] }
        .ok (finaliseEventLog s₃ logId lead.id .received,⟨lead,some (leadReceived f e)⟩)

def createTerminalLead (s : Store) (f : Fresh) (e : NormalisedChannelEvent)
    (stage : TerminalStage) (blockReason : Option String) :
    Except CaptureError (Store × Captured) :=
  match reserveEventSlot s f e with
  | (none,_) => redelivered s e
  | (some logId,s₁) =>
    let lead := terminalLead f e stage blockReason
    match s₁.insertLead lead with
    | .error err => .error err
    | .ok s₂ => .ok (finaliseEventLog s₂ logId lead.id (.terminal stage),⟨lead,none⟩)

/-- `event.field or extracted.get(name)`, checked against `str | None`. -/
def mergeField (own : Option String) (extracted : Option Json) :
    Except FilterError (Option String) :=
  match truthy own with
  | some value => .ok (some value)
  | none =>
    match extracted with
    | none | some .null => .ok none
    | some (.str value) => .ok (some value)
    | some _ => .error .validationError

def enrich (e : NormalisedChannelEvent) (extracted : List (String × Json)) :
    Except FilterError NormalisedChannelEvent :=
  match mergeField e.fullName ((Json.obj extracted).get? "name"),
    mergeField e.phone ((Json.obj extracted).get? "phone"),
    mergeField e.email ((Json.obj extracted).get? "email"),
    mergeField e.location ((Json.obj extracted).get? "location") with
  | .ok fullName,.ok phone,.ok email,.ok location =>
    .ok { e with fullName := fullName, phone := phone, email := email, location := location }
  | _,_,_,_ => .error .validationError

/-- What a message runs into outside the database: the classifier's answer to its text
and the tenant's active config, whose reading may fail. -/
structure Answers where
  classifyMessage : String → Except FilterError Json
  activeSignals : Except Unit (Option (List Signal))

inductive MessageError
  | filter (err : FilterError)
  | configRead
  | capture (err : CaptureError)
  deriving DecidableEq

inductive Route
  | terminal (e : NormalisedChannelEvent) (stage : TerminalStage) (blockReason : Option String)
  | capture (e : NormalisedChannelEvent)

/-- The filter, the merge of extracted fields and the pre-flight check. -/
def routeMessage (e : NormalisedChannelEvent) (ans : Answers) : Except MessageError Route :=
  match runFilter (e.rawText.getD "") ans.classifyMessage with
  | .error err => .error (.filter err)
  | .ok result =>
    match result.classification with
    | .noise => .ok (.terminal e .insufficientSignal none)
    | .existingCustomer => .ok (.terminal e .existingCustomer none)
    | .lead | .unclear =>
      match enrich e result.extractedFields with
      | .error err => .error (.filter err)
      | .ok enriched =>
        match ans.activeSignals with
        | .error _ => .error .configRead
        | .ok config =>
          match checkPreFlight config with
          | .error halt => .ok (.terminal enriched .preFlightBlocked (some halt.reason))
          | .ok _ => .ok (.capture enriched)

def Route.event : Route → NormalisedChannelEvent
  | .terminal e _ _ => e
  | .capture e => e

def Route.run (s : Store) (f : Fresh) : Route → Except CaptureError (Store × Captured)
  | .terminal e stage blockReason => createTerminalLead s f e stage blockReason
  | .capture e => runCapture s f e

def runCaptureMessage (s : Store) (f : Fresh) (e : NormalisedChannelEvent) (ans : Answers) :
    Except MessageError (Store × Captured) :=
  match routeMessage e ans with
  | .error err => .error err
  | .ok route =>
    match route.run s f with
    | .error err => .error (.capture err)
    | .ok result => .ok result

omit [Interpreter] in
theorem mergeField_own {own merged : Option String} {extracted : Option Json} {value : String}
    (h : mergeField own extracted = .ok merged) (hown : truthy own = some value) :
    merged = some value := by
  simp only [mergeField,hown] at h
  exact (Except.ok.inj h).symm

omit [Interpreter] in
theorem enrich_ok {e enriched : NormalisedChannelEvent} {extracted : List (String × Json)}
    (h : enrich e extracted = .ok enriched) : enriched.tenantId = e.tenantId ∧
      enriched.platformEventId = e.platformEventId ∧
      ∀ p, truthy e.phone = some p → enriched.phone = some p := by
  unfold enrich at h
  split at h
  · rename_i fullName phone email location _ hphone _ _
    obtain rfl := Except.ok.inj h
    exact ⟨rfl,rfl,fun p hp => mergeField_own hphone hp⟩
  · simp at h

def withNewLead (s : Store) (f : Fresh) (e : NormalisedChannelEvent) : Store :=
  { s with
    leads := s.leads ++ [newLead f e]
    touchpoints := s.touchpoints ++ [buildTouchpoint f (newLead f e) e]
    logs := s.logs ++ [settledLog f e f.leadId .received] }

def withDuplicate (s : Store) (f : Fresh) (e : NormalisedChannelEvent) (existing : Lead) : Store :=
  { s with
    touchpoints := s.touchpoints ++ [buildTouchpoint f existing e]
    logs := s.logs ++ [settledLog f e existing.id .duplicate] }

def withTerminalLead (s : Store) (f : Fresh) (e : NormalisedChannelEvent) (stage : TerminalStage)
    (blockReason : Option String) : Store :=
  { s with
    leads := s.leads ++ [terminalLead f e stage blockReason]
    logs := s.logs ++ [settledLog f e f.leadId (.terminal stage)] }

theorem conflicts_phone_newLead {s : Store} {f : Fresh} {e : NormalisedChannelEvent} :
    Conflicts Lead.phoneKey s.leads (newLead f e) ↔
    ∃ l ∈ s.leads, l.tenantId = e.tenantId ∧ MatchesPhone e l := by
  refine exists_congr fun l => and_congr_right fun _ => ?_
  cases hp : storedPhone e with
  | none => simp [newLead,Lead.phoneKey,MatchesPhone,hp]
  | some p =>
    have hkey : (newLead f e).phoneKey = some (e.tenantId,p) := by
      simp [newLead,Lead.phoneKey,hp]
    rw [hkey,Lead.phoneKey_eq_some,MatchesPhone,hp]
    simp

theorem conflicts_email_newLead {s : Store} {f : Fresh} {e : NormalisedChannelEvent} :
    Conflicts Lead.emailKey s.leads (newLead f e) ↔
    ∃ l ∈ s.leads, l.tenantId = e.tenantId ∧ MatchesEmail e l := by
  refine exists_congr fun l => and_congr_right fun _ => ?_
  cases hm : storedEmail e with
  | none => simp [newLead,Lead.emailKey,MatchesEmail,hm]
  | some m =>
    have hkey : (newLead f e).emailKey = some (e.tenantId,m) := by
      simp [newLead,Lead.emailKey,hm]
    rw [hkey,Lead.emailKey_eq_some,MatchesEmail,hm]
    simp

theorem not_conflicts_newLead {s : Store} {f : Fresh} {e : NormalisedChannelEvent}
    (h : ∀ l ∈ s.leads, ¬ Matches e.tenantId e l) :
    ¬ Conflicts Lead.phoneKey s.leads (newLead f e) ∧
      ¬ Conflicts Lead.emailKey s.leads (newLead f e) := by
  constructor
  · intro hconflict
    obtain ⟨l,hl,ht,hm⟩ := conflicts_phone_newLead.mp hconflict
    exact h l hl ⟨ht,Or.inl hm⟩
  · intro hconflict
    obtain ⟨l,hl,ht,hm⟩ := conflicts_email_newLead.mp hconflict
    exact h l hl ⟨ht,Or.inr (Or.inl hm)⟩

theorem runCapture_taken {s : Store} {f : Fresh} {e : NormalisedChannelEvent}
    (h : SlotTaken s e.platformEventId) : runCapture s f e = redelivered s e := by
  simp [runCapture,reserveEventSlot,h]

theorem createTerminalLead_taken {s : Store} {f : Fresh} {e : NormalisedChannelEvent}
    {stage : TerminalStage} {reason : Option String} (h : SlotTaken s e.platformEventId) :
    createTerminalLead s f e stage reason = redelivered s e := by
  simp [createTerminalLead,reserveEventSlot,h]

theorem insertLead_reserved {s : Store} (f : Fresh) {e : NormalisedChannelEvent}
    (hdup : findDuplicate s e.tenantId e = .ok none) :
    Store.insertLead { s with logs := s.logs ++ [pendingLog f e] } (newLead f e) =
      .ok { s with leads := s.leads ++ [newLead f e], logs := s.logs ++ [pendingLog f e] } := by
  have hc := not_conflicts_newLead (f:=f) (findDuplicate_none.mp hdup)
  exact Store.insertLead_eq_ok.mpr ⟨hc.1,hc.2,rfl⟩

theorem runCapture_new {s : Store} {f : Fresh} {e : NormalisedChannelEvent} (hf : f.For s)
    (hslot : ¬ SlotTaken s e.platformEventId) (hdup : findDuplicate s e.tenantId e = .ok none) :
    runCapture s f e = .ok (withNewLead s f e,⟨newLead f e,some (leadReceived f e)⟩) := by
  have hdup' : findDuplicate { s with logs := s.logs ++ [pendingLog f e] } e.tenantId e =
      .ok none := hdup
  simp only [runCapture,reserveEventSlot,hslot,if_false,hdup',insertLead_reserved f hdup,
    finaliseEventLog,finalise_reserved hf]
  rfl

theorem runCapture_duplicate {s : Store} {f : Fresh} {e : NormalisedChannelEvent} {l : Lead}
    (hf : f.For s) (hslot : ¬ SlotTaken s e.platformEventId)
    (hdup : findDuplicate s e.tenantId e = .ok (some l)) :
    runCapture s f e = .ok (withDuplicate s f e l,⟨l,none⟩) := by
  have hdup' : findDuplicate { s with logs := s.logs ++ [pendingLog f e] } e.tenantId e =
      .ok (some l) := hdup
  simp only [runCapture,reserveEventSlot,hslot,if_false,hdup',finaliseEventLog,
    finalise_reserved hf]
  rfl

theorem runCapture_error {s : Store} {f : Fresh} {e : NormalisedChannelEvent} {err : CaptureError}
    (hslot : ¬ SlotTaken s e.platformEventId)
    (hdup : findDuplicate s e.tenantId e = .error err) : runCapture s f e = .error err := by
  have hdup' : findDuplicate { s with logs := s.logs ++ [pendingLog f e] } e.tenantId e =
      .error err := hdup
  simp only [runCapture,reserveEventSlot,hslot,if_false,hdup']

/-- The phone of a terminal lead is the only identifier it stores, and nothing checks
first whether another lead has it. -/
def PhoneFree (s : Store) (e : NormalisedChannelEvent) : Prop :=
  ∀ p, storedPhone e = some p → ∀ l ∈ s.leads, l.tenantId = e.tenantId → l.phone ≠ some p

theorem conflicts_terminalLead_iff {s : Store} {f : Fresh} {e : NormalisedChannelEvent}
    (stage : TerminalStage) (reason : Option String) :
    Conflicts Lead.phoneKey s.leads (terminalLead f e stage reason) ↔ ¬ PhoneFree s e := by
  constructor
  · rintro ⟨l,hl,hk,hsome⟩ hfree
    obtain ⟨p,hp⟩ := Option.isSome_iff_exists.mp hsome
    obtain ⟨ht,hphone⟩ := Lead.phoneKey_eq_some.mp (hp : _ = some (p.1,p.2))
    rw [hp] at hk
    obtain ⟨ht',hphone'⟩ := Lead.phoneKey_eq_some.mp (hk : _ = some (p.1,p.2))
    exact hfree p.2 hphone l hl (ht'.trans ht.symm) hphone'
  · intro h
    simp only [PhoneFree,not_forall,not_not] at h
    obtain ⟨p,hp,l,hl,ht,hphone⟩ := h
    have hnew : (terminalLead f e stage reason).phoneKey = some (e.tenantId,p) :=
      Lead.phoneKey_eq_some.mpr ⟨rfl,hp⟩
    exact ⟨l,hl,by rw [hnew]; exact Lead.phoneKey_eq_some.mpr ⟨ht,hphone⟩,by simp [hnew]⟩

theorem not_conflicts_email_terminalLead (s : Store) (f : Fresh) (e : NormalisedChannelEvent)
    (stage : TerminalStage) (reason : Option String) :
    ¬ Conflicts Lead.emailKey s.leads (terminalLead f e stage reason) := by
  rintro ⟨_,_,_,hsome⟩
  simp [Lead.emailKey,terminalLead] at hsome

theorem createTerminalLead_new {s : Store} {f : Fresh} {e : NormalisedChannelEvent}
    {stage : TerminalStage} {reason : Option String} (hf : f.For s)
    (hslot : ¬ SlotTaken s e.platformEventId) (hfree : PhoneFree s e) :
    createTerminalLead s f e stage reason =
      .ok (withTerminalLead s f e stage reason,⟨terminalLead f e stage reason,none⟩) := by
  have hins : Store.insertLead { s with logs := s.logs ++ [pendingLog f e] }
      (terminalLead f e stage reason) = .ok { s with
        leads := s.leads ++ [terminalLead f e stage reason]
        logs := s.logs ++ [pendingLog f e] } :=
    Store.insertLead_eq_ok.mpr ⟨fun h => (conflicts_terminalLead_iff stage reason).mp h hfree,
      not_conflicts_email_terminalLead s f e stage reason,rfl⟩
  simp only [createTerminalLead,reserveEventSlot,hslot,if_false,hins,finaliseEventLog,
    finalise_reserved hf]
  rfl

theorem createTerminalLead_conflict {s : Store} {f : Fresh} {e : NormalisedChannelEvent}
    {stage : TerminalStage} {reason : Option String}
    (hslot : ¬ SlotTaken s e.platformEventId) (hfree : ¬ PhoneFree s e) :
    createTerminalLead s f e stage reason = .error (.integrityError .uqLeadTenantPhone) := by
  have hc := (conflicts_terminalLead_iff (f:=f) stage reason).mpr hfree
  have hins : Store.insertLead { s with logs := s.logs ++ [pendingLog f e] }
      (terminalLead f e stage reason) = .error (.integrityError .uqLeadTenantPhone) := by
    simp only [Store.insertLead]
    exact if_pos hc
  simp only [createTerminalLead,reserveEventSlot,hslot,if_false,hins]

end Pipeline
end LeadEngine
