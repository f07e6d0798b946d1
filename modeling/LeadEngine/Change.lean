import LeadEngine.Operations

/-! What a committed operation can do to the store. Each operation is one of six
changes; everything proved of all reachable stores is proved of the changes. -/
namespace LeadEngine
namespace History

open Repository Deduplicator Pipeline Erasure Retention FileUpload LeadAds Normaliser

variable [Interpreter]

/-- The personal columns are gone, or the lead is as it was. -/
def Scrubs (g : Lead → Lead) : Prop :=
  ∀ l, g l = l ∨ ∃ stage tombstone, RawEventJson.Tombstoned tombstone ∧
    (stage = .erased ∨ stage = .anonymised) ∧ g l = scrub stage tombstone l

def RedactsLog (g : IntakeEventLog → IntakeEventLog) : Prop :=
  ∀ r, g r = r ∨ ∃ tombstone, RawEventJson.Tombstoned tombstone ∧
    g r = { r with rawEventJson := tombstone }

def RedactsTouchpoint (g : LeadTouchpoint → LeadTouchpoint) : Prop :=
  ∀ t, g t = t ∨ ∃ tombstone, RawEventJson.Tombstoned tombstone ∧
    g t = { t with rawEventJson := tombstone }

/-- Every row stays, at most with its personal data removed, and a lead is erased together
with the rows linked to it. -/
structure Redaction (s s' : Store) : Prop where
  leads : ∃ g, Scrubs g ∧ s'.leads = s.leads.map g
  logs : ∃ g, RedactsLog g ∧ s'.logs = s.logs.map g
  touchpoints : ∃ g, RedactsTouchpoint g ∧ s'.touchpoints = s.touchpoints.map g
  keepsSealed : Sealed s → Sealed s'

inductive Change (s : Store) (f : Fresh) : Store → Option LeadReceived → Prop
  | redacted {s' : Store} (h : Redaction s s') : Change s f s' none
  | captured (e : NormalisedChannelEvent) (hslot : ¬ SlotTaken s e.platformEventId)
      (hdup : findDuplicate s e.tenantId e = .ok none) :
      Change s f (withNewLead s f e) (some (leadReceived f e))
  | attached (e : NormalisedChannelEvent) (existing : Lead)
      (hslot : ¬ SlotTaken s e.platformEventId)
      (hdup : findDuplicate s e.tenantId e = .ok (some existing)) :
      Change s f (withDuplicate s f e existing) none
  | stopped (e : NormalisedChannelEvent) (stage : TerminalStage) (blockReason : Option String)
      (hslot : ¬ SlotTaken s e.platformEventId) (hfree : PhoneFree s e) :
      Change s f (withTerminalLead s f e stage blockReason) none
  | blocked (tenantId : UUID) (row : Row) (extraFields : Dict String Json) :
      Change s f (withBlockedLead s f tenantId row extraFields) none
  | orphaned (r : IntakeEventLog) (hslot : ¬ SlotTaken s r.platformEventId)
      (hid : r.id = f.logId) (hlead : r.leadId = none)
      (hstatus : r.status = .unroutable ∨ r.status = .failed) :
      Change s f { s with logs := s.logs ++ [r] } none

omit [Interpreter] in
theorem Redaction.refl (s : Store) : Redaction s s where
  leads := ⟨id,fun _ => Or.inl rfl,by simp⟩
  logs := ⟨id,fun _ => Or.inl rfl,by simp⟩
  touchpoints := ⟨id,fun _ => Or.inl rfl,by simp⟩
  keepsSealed := id

omit [Interpreter] in
theorem redaction_eraseIds (s : Store) (now : Time) (ids : List UUID)
    (erasureLogs : List ErasureEventLog) :
    Redaction s { eraseIds now s ids with erasureLogs := erasureLogs } where
  leads := by
    refine ⟨_,fun l => ?_,rfl⟩
    split_ifs
    · exact Or.inr ⟨.erased,.erased now,trivial,Or.inl rfl,rfl⟩
    · exact Or.inl rfl
  logs := by
    refine ⟨_,fun r => ?_,rfl⟩
    split_ifs
    · exact Or.inr ⟨.erased now,trivial,rfl⟩
    · exact Or.inl rfl
  touchpoints := by
    refine ⟨_,fun t => ?_,rfl⟩
    split_ifs
    · exact Or.inr ⟨.erased now,trivial,rfl⟩
    · exact Or.inl rfl
  keepsSealed := fun h => h.eraseIds now ids

theorem eraseIdentity_store (s : Store) (now : Time) (tenantId : UUID) (kind : IdentifierType)
    (value requestedBy : String) :
    (eraseIdentity s now tenantId kind value requestedBy).1 = s ∨
      ∃ erasureLogs, (eraseIdentity s now tenantId kind value requestedBy).1 =
        { eraseIds now s ((findLeads s tenantId kind (storedIdentifier kind value)).map Lead.id)
          with erasureLogs := erasureLogs } := by
  unfold eraseIdentity
  dsimp only
  split_ifs
  · exact Or.inl rfl
  · right
    rw [foldl_eraseOne]
    exact ⟨_,rfl⟩

theorem redaction_eraseIdentity (s : Store) (now : Time) (tenantId : UUID) (kind : IdentifierType)
    (value requestedBy : String) :
    Redaction s (eraseIdentity s now tenantId kind value requestedBy).1 := by
  obtain h | ⟨erasureLogs,h⟩ := eraseIdentity_store s now tenantId kind value requestedBy
  · rw [h]
    exact Redaction.refl s
  · rw [h]
    exact redaction_eraseIds s now _ erasureLogs

theorem redaction_erase (s : Store) (now : Time) (tenantId : UUID) (phone email : Option String)
    (requestedBy : String) :
    Redaction s (Erasure.eraseLeadByIdentity s now tenantId phone email requestedBy).1 := by
  unfold Erasure.eraseLeadByIdentity
  split
  · exact redaction_eraseIdentity ..
  · exact redaction_eraseIdentity ..
  · exact Redaction.refl s

omit [Interpreter] in
theorem redaction_sweep (s : Store) (now : Time) (settings : RetentionSettings) :
    Redaction s (Retention.runRetentionSweep s now settings).1 := by
  refine ⟨?_,?_,?_,fun h => sealed_sweep h now settings⟩ <;>
    simp only [Retention.runRetentionSweep,foldl_anonymiseLead]
  · refine ⟨_,fun l => ?_,rfl⟩
    split_ifs
    · exact Or.inr ⟨.anonymised,.anonymised now,trivial,Or.inr rfl,rfl⟩
    · exact Or.inl rfl
  · refine ⟨_,fun r => ?_,rfl⟩
    split_ifs
    · exact Or.inr ⟨.anonymised now,trivial,rfl⟩
    · exact Or.inl rfl
  · refine ⟨_,fun t => ?_,rfl⟩
    split_ifs
    · exact Or.inr ⟨.anonymised now,trivial,rfl⟩
    · exact Or.inl rfl

omit [Interpreter] in
theorem redelivered_ok {s s' : Store} {e : NormalisedChannelEvent} {c : Captured}
    (h : redelivered s e = .ok (s',c)) : s' = s ∧ c.received = none := by
  unfold redelivered at h
  split at h
  · simp at h
  · simp at h
  · simp only [Except.ok.injEq,Prod.mk.injEq] at h
    exact ⟨h.1.symm,by rw [← h.2]⟩

theorem Route.run_taken {route : Route} {s : Store} {f : Fresh}
    (h : SlotTaken s route.event.platformEventId) : route.run s f = redelivered s route.event := by
  cases route with
  | terminal e stage reason => exact createTerminalLead_taken h
  | capture e => exact runCapture_taken h

inductive Ran (s : Store) (f : Fresh) : Route → Store → Option LeadReceived → Prop
  | redelivered (route : Route) (hslot : SlotTaken s route.event.platformEventId) :
      Ran s f route s none
  | captured (e : NormalisedChannelEvent) (hslot : ¬ SlotTaken s e.platformEventId)
      (hdup : findDuplicate s e.tenantId e = .ok none) :
      Ran s f (.capture e) (withNewLead s f e) (some (leadReceived f e))
  | attached (e : NormalisedChannelEvent) (existing : Lead)
      (hslot : ¬ SlotTaken s e.platformEventId)
      (hdup : findDuplicate s e.tenantId e = .ok (some existing)) :
      Ran s f (.capture e) (withDuplicate s f e existing) none
  | stopped (e : NormalisedChannelEvent) (stage : TerminalStage) (blockReason : Option String)
      (hslot : ¬ SlotTaken s e.platformEventId) (hfree : PhoneFree s e) :
      Ran s f (.terminal e stage blockReason) (withTerminalLead s f e stage blockReason) none

inductive Wrote (s : Store) (f : Fresh) : Route → Store → Captured → Prop
  | captured (e : NormalisedChannelEvent) (hdup : findDuplicate s e.tenantId e = .ok none) :
      Wrote s f (.capture e) (withNewLead s f e) ⟨newLead f e,some (leadReceived f e)⟩
  | attached (e : NormalisedChannelEvent) (existing : Lead)
      (hdup : findDuplicate s e.tenantId e = .ok (some existing)) :
      Wrote s f (.capture e) (withDuplicate s f e existing) ⟨existing,none⟩
  | stopped (e : NormalisedChannelEvent) (stage : TerminalStage) (blockReason : Option String)
      (hfree : PhoneFree s e) :
      Wrote s f (.terminal e stage blockReason) (withTerminalLead s f e stage blockReason)
        ⟨terminalLead f e stage blockReason,none⟩

theorem Route.wrote {route : Route} {s s' : Store} {f : Fresh} {c : Captured} (hf : f.For s)
    (hslot : ¬ SlotTaken s route.event.platformEventId) (h : route.run s f = .ok (s',c)) :
    Wrote s f route s' c := by
  cases route with
  | terminal e stage reason =>
    replace hslot : ¬ SlotTaken s e.platformEventId := hslot
    replace h : createTerminalLead s f e stage reason = .ok (s',c) := h
    by_cases hfree : PhoneFree s e
    · rw [createTerminalLead_new hf hslot hfree] at h
      obtain ⟨rfl,rfl⟩ := Prod.mk.inj (Except.ok.inj h)
      exact .stopped e stage reason hfree
    · simp [createTerminalLead_conflict hslot hfree] at h
  | capture e =>
    replace hslot : ¬ SlotTaken s e.platformEventId := hslot
    replace h : runCapture s f e = .ok (s',c) := h
    cases hdup : findDuplicate s e.tenantId e with
    | error err => simp [runCapture_error hslot hdup] at h
    | ok found =>
      cases found with
      | none =>
        rw [runCapture_new hf hslot hdup] at h
        obtain ⟨rfl,rfl⟩ := Prod.mk.inj (Except.ok.inj h)
        exact .captured e hdup
      | some existing =>
        rw [runCapture_duplicate hf hslot hdup] at h
        obtain ⟨rfl,rfl⟩ := Prod.mk.inj (Except.ok.inj h)
        exact .attached e existing hdup

theorem Route.ran {route : Route} {s s' : Store} {f : Fresh} {c : Captured} (hf : f.For s)
    (h : route.run s f = .ok (s',c)) : Ran s f route s' c.received := by
  by_cases hslot : SlotTaken s route.event.platformEventId
  · rw [Route.run_taken hslot] at h
    obtain ⟨rfl,hr⟩ := redelivered_ok h
    rw [hr]
    exact .redelivered route hslot
  · cases Route.wrote hf hslot h with
    | captured e hdup => exact .captured e hslot hdup
    | attached e existing hdup => exact .attached e existing hslot hdup
    | stopped e stage reason hfree => exact .stopped e stage reason hslot hfree

/-- What an operation that rewrites no row does to the store, and what it announces. -/
inductive Added (s : Store) (f : Fresh) : Store → Option LeadReceived → Prop
  | same : Added s f s none
  | captured (e : NormalisedChannelEvent) (hslot : ¬ SlotTaken s e.platformEventId)
      (hdup : findDuplicate s e.tenantId e = .ok none) :
      Added s f (withNewLead s f e) (some (leadReceived f e))
  | attached (e : NormalisedChannelEvent) (existing : Lead)
      (hslot : ¬ SlotTaken s e.platformEventId)
      (hdup : findDuplicate s e.tenantId e = .ok (some existing)) :
      Added s f (withDuplicate s f e existing) none
  | stopped (e : NormalisedChannelEvent) (stage : TerminalStage) (blockReason : Option String)
      (hslot : ¬ SlotTaken s e.platformEventId) (hfree : PhoneFree s e) :
      Added s f (withTerminalLead s f e stage blockReason) none
  | blocked (tenantId : UUID) (row : Row) (extraFields : Dict String Json) :
      Added s f (withBlockedLead s f tenantId row extraFields) none
  | orphaned (r : IntakeEventLog) (hslot : ¬ SlotTaken s r.platformEventId)
      (hid : r.id = f.logId) (hlead : r.leadId = none)
      (hstatus : r.status = .unroutable ∨ r.status = .failed) :
      Added s f { s with logs := s.logs ++ [r] } none

theorem Ran.added {route : Route} {s s' : Store} {f : Fresh} {received : Option LeadReceived}
    (h : Ran s f route s' received) : Added s f s' received := by
  cases h with
  | redelivered => exact .same
  | captured e hslot hdup => exact .captured e hslot hdup
  | attached e existing hslot hdup => exact .attached e existing hslot hdup
  | stopped e stage reason hslot hfree => exact .stopped e stage reason hslot hfree

theorem Added.change {s s' : Store} {f : Fresh} {received : Option LeadReceived}
    (h : Added s f s' received) : Change s f s' received := by
  cases h with
  | same => exact .redacted (Redaction.refl s)
  | captured e hslot hdup => exact .captured e hslot hdup
  | attached e existing hslot hdup => exact .attached e existing hslot hdup
  | stopped e stage reason hslot hfree => exact .stopped e stage reason hslot hfree
  | blocked t row extra => exact .blocked t row extra
  | orphaned r hslot hid hlead hstatus => exact .orphaned r hslot hid hlead hstatus

theorem Ran.change {route : Route} {s s' : Store} {f : Fresh} {received : Option LeadReceived}
    (h : Ran s f route s' received) : Change s f s' received := h.added.change

theorem Added.grows {s s' : Store} {f : Fresh} {received : Option LeadReceived}
    (h : Added s f s' received) : (∃ new, s'.leads = s.leads ++ new) ∧
      s'.retentionLogs = s.retentionLogs ∧ s'.erasureLogs = s.erasureLogs := by
  cases h with
  | same | attached | orphaned => exact ⟨⟨[],(List.append_nil _).symm⟩,rfl,rfl⟩
  | captured e => exact ⟨⟨[newLead f e],rfl⟩,rfl,rfl⟩
  | stopped e stage reason => exact ⟨⟨[terminalLead f e stage reason],rfl⟩,rfl,rfl⟩
  | blocked => exact ⟨⟨_,rfl⟩,rfl,rfl⟩

omit [Interpreter] in
theorem returned_ok {ε : Type} {raised : ε → Raised} {x : Except ε (Store × Captured)}
    {s' : Store} {received : Option LeadReceived} (h : returned raised x = .ok (s',received)) :
    ∃ c, x = .ok (s',c) ∧ received = c.received := by
  match x with
  | .error err => simp [returned] at h
  | .ok (s'',c) =>
    obtain ⟨rfl,rfl⟩ : s'' = s' ∧ c.received = received := by simpa [returned] using h
    exact ⟨c,rfl,rfl⟩

theorem Op.ran {op : Op} {route : Route} {s s' : Store} {f : Fresh}
    {received : Option LeadReceived} (hf : f.For s) (hroute : op.route = some route)
    (h : op.exec s f = .ok (s',received)) : Ran s f route s' received := by
  rw [Op.exec_route hroute] at h
  obtain ⟨c,hc,rfl⟩ := returned_ok h
  exact Route.ran hf hc

theorem blocked_of_row {tenantId : UUID} {row : Row} {e : NormalisedChannelEvent}
    {s s' : Store} {f : Fresh} {received : Option LeadReceived}
    (prepare : NormalisedChannelEvent → NormalisedChannelEvent)
    (he : normaliseFileRow row tenantId = .ok e)
    (hnone : rowRoute prepare tenantId row = none)
    (h : returned uploadRaised (storeRow s f tenantId row (prepare e)) = .ok (s',received)) :
    s' = withBlockedLead s f tenantId row (prepare e).extraFields ∧ received = none := by
  rw [storeRow_blocked (lacksIdentity_of_rowRoute he hnone)] at h
  obtain ⟨hs,hr⟩ : withBlockedLead s f tenantId row (prepare e).extraFields = s' ∧
      none = received := by simpa [returned] using h
  exact ⟨hs.symm,hr.symm⟩

omit [Interpreter] in
theorem insertLog_taken {s : Store} {r : IntakeEventLog} (h : SlotTaken s r.platformEventId) :
    insertLog s r = s := by simp [insertLog,h]

omit [Interpreter] in
theorem insertLog_leads (s : Store) (r : IntakeEventLog) : (insertLog s r).leads = s.leads := by
  unfold insertLog
  split_ifs <;> rfl

theorem added_insertLog (s : Store) {f : Fresh} {r : IntakeEventLog} (hid : r.id = f.logId)
    (hlead : r.leadId = none) (hstatus : r.status = .unroutable ∨ r.status = .failed) :
    Added s f (insertLog s r) none := by
  by_cases h : SlotTaken s r.platformEventId
  · rw [insertLog_taken h]
    exact .same
  · simp only [insertLog,h,if_false]
    exact .orphaned r h hid hlead hstatus

/-- The operations that rewrite rows of leads; the others only add some. -/
def Op.redacts : Op → Bool
  | .eraseLeadByIdentity .. | .runRetentionSweep _ => true
  | _ => false

/-- What a committed operation does, and which operations keep every lead as it is. -/
structure Op.Effect (op : Op) (s : Store) (f : Fresh) (s' : Store)
    (received : Option LeadReceived) : Prop where
  change : Change s f s' received
  leads_grow : op.redacts = false → ∃ new, s'.leads = s.leads ++ new
  quiet : op.route = none → received = none

/-- What an operation does that processes no event and rewrites no row. -/
structure Aside (s : Store) (f : Fresh) (s' : Store) (received : Option LeadReceived) : Prop where
  added : Added s f s' none
  quiet : received = none
  leads : ∃ new, s'.leads = s.leads ++ new ∧ ∀ l ∈ new, l.phone = none

theorem Aside.of_same {s : Store} {f : Fresh} : Aside s f s none :=
  ⟨.same,rfl,[],(List.append_nil _).symm,by simp⟩

theorem Aside.of_blocked {s : Store} {f : Fresh} {received : Option LeadReceived} (tenantId : UUID)
    (row : Row) (extraFields : Dict String Json) (hquiet : received = none) :
    Aside s f (withBlockedLead s f tenantId row extraFields) received :=
  ⟨.blocked tenantId row extraFields,hquiet,_,rfl,by simp [blockedLead]⟩

theorem Aside.of_insertLog {s : Store} {f : Fresh} {r : IntakeEventLog} (hid : r.id = f.logId)
    (hlead : r.leadId = none) (hstatus : r.status = .unroutable ∨ r.status = .failed) :
    Aside s f (insertLog s r) none :=
  ⟨added_insertLog s hid hlead hstatus,rfl,[],by rw [insertLog_leads,List.append_nil],by simp⟩

theorem Op.unrouted {op : Op} {s s' : Store} {f : Fresh} {received : Option LeadReceived}
    (hroute : op.route = none) (hred : op.redacts = false)
    (h : op.exec s f = .ok (s',received)) : Aside s f s' received := by
  cases op with
  | runCapture | createTerminalLead => simp [Op.route] at hroute
  | runCaptureMessage e ans =>
    cases hr : routeMessage e ans with
    | ok r => simp [Op.route,hr,Except.toOption] at hroute
    | error err => simp [Op.exec,Pipeline.runCaptureMessage,hr,returned] at h
  | inlineRow t row =>
    cases he : normaliseFileRow row t with
    | error err => simp [Op.exec,FileUpload.inlineRow,he,returned] at h
    | ok e =>
      simp only [Op.exec,FileUpload.inlineRow,he] at h
      obtain ⟨rfl,hquiet⟩ := blocked_of_row stripEvent he hroute h
      exact .of_blocked t row _ hquiet
  | batchRow t row =>
    cases he : normaliseFileRow row t with
    | error err => simp [Op.exec,FileUpload.batchRow,he,returned] at h
    | ok e =>
      simp only [Op.exec,FileUpload.batchRow,he] at h
      obtain ⟨rfl,hquiet⟩ := blocked_of_row id he hroute h
      exact .of_blocked t row _ hquiet
  | runLeadAdCapture env job =>
    cases hfetch : fetchFields env job with
    | skipped =>
      obtain ⟨rfl,rfl⟩ : s = s' ∧ none = received := by
        simpa [Op.exec,LeadAds.runLeadAdCapture,hfetch,Except.mapError] using h
      exact .of_same
    | raised err => simp [Op.exec,LeadAds.runLeadAdCapture,hfetch,Except.mapError] at h
    | failed =>
      obtain ⟨rfl,rfl⟩ : Repository.logFailedIntakeEvent s f _ _ _ _ = s' ∧ none = received := by
        simpa [Op.exec,LeadAds.runLeadAdCapture,hfetch,Except.mapError] using h
      exact .of_insertLog rfl rfl (Or.inr rfl)
    | fetched fieldData => simp [Op.route,hfetch] at hroute
  | logUnroutableEvent pid source raw =>
    obtain ⟨rfl,rfl⟩ : Repository.logUnroutableEvent s f pid source raw = s' ∧
        none = received := by simpa [Op.exec] using h
    exact .of_insertLog rfl rfl (Or.inl rfl)
  | logFailedIntakeEvent pid source raw t =>
    obtain ⟨rfl,rfl⟩ : Repository.logFailedIntakeEvent s f pid source raw t = s' ∧
        none = received := by simpa [Op.exec] using h
    exact .of_insertLog rfl rfl (Or.inr rfl)
  | eraseLeadByIdentity | runRetentionSweep => simp [Op.redacts] at hred

theorem Op.added {op : Op} {s s' : Store} {f : Fresh} {received : Option LeadReceived}
    (hf : f.For s) (hred : op.redacts = false) (h : op.exec s f = .ok (s',received)) :
    Added s f s' received := by
  cases hroute : op.route with
  | some route => exact (Op.ran hf hroute h).added
  | none =>
    have haside := Op.unrouted hroute hred h
    rw [haside.quiet]
    exact haside.added

theorem Op.redaction {op : Op} {s s' : Store} {f : Fresh} {received : Option LeadReceived}
    (hred : op.redacts = true) (h : op.exec s f = .ok (s',received)) :
    Redaction s s' ∧ received = none := by
  cases op with
  | eraseLeadByIdentity t phone email who =>
    obtain ⟨rfl,rfl⟩ : (Erasure.eraseLeadByIdentity s f.now t phone email who).1 = s' ∧
        none = received := by simpa [Op.exec] using h
    exact ⟨redaction_erase ..,rfl⟩
  | runRetentionSweep settings =>
    obtain ⟨rfl,rfl⟩ : (Retention.runRetentionSweep s f.now settings).1 = s' ∧
        none = received := by simpa [Op.exec] using h
    exact ⟨redaction_sweep ..,rfl⟩
  | _ => simp [Op.redacts] at hred

theorem Op.effect {op : Op} {s s' : Store} {f : Fresh} {received : Option LeadReceived}
    (hf : f.For s) (h : op.exec s f = .ok (s',received)) : op.Effect s f s' received := by
  cases hred : op.redacts with
  | false =>
    have hadded := Op.added hf hred h
    exact ⟨hadded.change,fun _ => hadded.grows.1,fun hroute => (Op.unrouted hroute hred h).quiet⟩
  | true =>
    obtain ⟨hredacted,rfl⟩ := Op.redaction hred h
    exact ⟨.redacted hredacted,fun hadds => by simp [hred] at hadds,fun _ => rfl⟩

theorem Op.change {op : Op} {s s' : Store} {f : Fresh} {received : Option LeadReceived}
    (hf : f.For s) (h : op.exec s f = .ok (s',received)) : Change s f s' received :=
  (Op.effect hf h).change

end History
end LeadEngine
