import LeadEngine.Schema

/-! The data access layer: identity lookups, the redelivery lookup, and the
writers of `intake_event_logs`. -/
namespace LeadEngine
namespace Repository

open Table Interpreter

def getLeadByPhone (s : Store) (tenantId : UUID) (phoneNormalised : String) :
    Except CaptureError (Option Lead) :=
  scalarOneOrNone .multipleResultsFound
    (s.leads.filter fun l => l.tenantId = tenantId ∧ l.phone = some phoneNormalised)

def getLeadByEmail (s : Store) (tenantId : UUID) (email : String) :
    Except CaptureError (Option Lead) :=
  scalarOneOrNone .multipleResultsFound
    (s.leads.filter fun l => l.tenantId = tenantId ∧ l.email = some email)

def getLeadByNameAndLocation (s : Store) (tenantId : UUID) (fullName location : String) :
    Except CaptureError (Option Lead) :=
  scalarOneOrNone .multipleResultsFound
    (s.leads.filter fun l =>
      l.tenantId = tenantId ∧ l.fullName = some fullName ∧ l.location = some location)

/-- Join `leads` with `intake_event_logs` on the lead of the logged event. -/
def getLeadByPlatformEventId (s : Store) (platformEventId : String) :
    Except CaptureError (Option Lead) :=
  scalarOneOrNone .multipleResultsFound
    (s.leads.flatMap fun l =>
      (s.logs.filter fun r => r.leadId = some l.id ∧ r.platformEventId = platformEventId).map
        fun _ => l)

def SlotTaken (s : Store) (platformEventId : String) : Prop :=
  ∃ r ∈ s.logs, r.platformEventId = platformEventId

instance (s : Store) (platformEventId : String) : Decidable (SlotTaken s platformEventId) := by
  unfold SlotTaken; infer_instance

/-- `INSERT … ON CONFLICT (platform_event_id) DO NOTHING`. -/
def insertLog (s : Store) (r : IntakeEventLog) : Store :=
  if SlotTaken s r.platformEventId then s else { s with logs := s.logs ++ [r] }

def pendingLog (f : Fresh) (e : NormalisedChannelEvent) : IntakeEventLog where
  id := f.logId
  tenantId := some e.tenantId
  leadId := none
  platformEventId := e.platformEventId
  sourceChannel := e.source
  status := .pending
  rawEventJson := .payload e.rawEventJson
  createdAt := f.now

/-- Claim the event's slot; `none` when the event id was already present. -/
def reserveEventSlot (s : Store) (f : Fresh) (e : NormalisedChannelEvent) :
    Option UUID × Store :=
  if SlotTaken s e.platformEventId then (none,s)
  else (some f.logId,{ s with logs := s.logs ++ [pendingLog f e] })

def finaliseEventLog (s : Store) (logId leadId : UUID) (status : IntakeStatus) : Store :=
  { s with logs := s.logs.map fun r =>
      if r.id = logId then { r with leadId := some leadId, status := status } else r }

def logUnroutableEvent (s : Store) (f : Fresh) (platformEventId : String)
    (sourceChannel : LeadSource) (rawEventJson : Json) : Store :=
  insertLog s ⟨f.logId,none,none,platformEventId,sourceChannel,.unroutable,
    .payload rawEventJson,f.now⟩

def logFailedIntakeEvent (s : Store) (f : Fresh) (platformEventId : String)
    (sourceChannel : LeadSource) (rawEventJson : Json) (tenantId : Option UUID) : Store :=
  insertLog s ⟨f.logId,tenantId,none,platformEventId,sourceChannel,.failed,
    .payload rawEventJson,f.now⟩

/-- The log row as it stands after `finalise_event_log`. -/
def settledLog (f : Fresh) (e : NormalisedChannelEvent) (leadId : UUID) (status : IntakeStatus) :
    IntakeEventLog :=
  { pendingLog f e with leadId := some leadId, status := status }

theorem finalise_reserved {s : Store} {f : Fresh} (hf : f.For s) (e : NormalisedChannelEvent)
    (leadId : UUID) (status : IntakeStatus) :
    (s.logs ++ [pendingLog f e]).map (fun r =>
      if r.id = f.logId then { r with leadId := some leadId, status := status } else r) =
      s.logs ++ [settledLog f e leadId status] := by
  have hold : s.logs.map (fun r =>
      if r.id = f.logId then { r with leadId := some leadId, status := status } else r) =
      s.logs := by
    conv_rhs => rw [← List.map_id s.logs]
    refine List.map_congr_left fun r hr => ?_
    simp [hf.log r hr]
  rw [List.map_append,hold]
  simp [pendingLog,settledLog]

theorem getLeadByPhone_eq (s : Store) (t : UUID) (p : String) :
    getLeadByPhone s t p =
      scalarOneOrNone .multipleResultsFound (rowsAt Lead.phoneKey (t,p) s.leads) := by
  simp only [getLeadByPhone,rowsAt,Lead.phoneKey_eq_some]

theorem getLeadByEmail_eq (s : Store) (t : UUID) (m : String) :
    getLeadByEmail s t m =
      scalarOneOrNone .multipleResultsFound (rowsAt Lead.emailKey (t,m) s.leads) := by
  simp only [getLeadByEmail,rowsAt,Lead.emailKey_eq_some]

theorem getLeadByNameAndLocation_eq (s : Store) (t : UUID) {n p : String} (hn : n ≠ "")
    (hp : p ≠ "") : getLeadByNameAndLocation s t n p =
      scalarOneOrNone .multipleResultsFound (rowsAt Lead.placeKey (t,n,p) s.leads) := by
  simp only [getLeadByNameAndLocation,rowsAt,Lead.placeKey_eq_some,truthy_eq_some]
  simp [hn,hp]

theorem getLeadByPlatformEventId_none {s : Store} {pid : String}
    (h : ∀ r ∈ s.logs, r.platformEventId = pid → r.leadId = none) :
    getLeadByPlatformEventId s pid = .ok none := by
  rw [getLeadByPlatformEventId,scalarOneOrNone_none,List.flatMap_eq_nil_iff]
  intro l _
  rw [List.map_eq_nil_iff,List.filter_eq_nil_iff]
  intro r hr
  simp only [decide_eq_true_eq,not_and]
  intro hl hpid
  rw [h r hr hpid] at hl
  simp at hl

/-- With unique lead ids and unique event ids, the redelivery lookup returns the lead
the event's log row is linked to. -/
theorem getLeadByPlatformEventId_some {s : Store} {r : IntakeEventLog} {l : Lead}
    (hids : (s.leads.map Lead.id).Nodup)
    (hslots : (s.logs.map IntakeEventLog.platformEventId).Nodup)
    (hr : r ∈ s.logs) (hl : l ∈ s.leads) (hlink : r.leadId = some l.id) :
    getLeadByPlatformEventId s r.platformEventId = .ok (some l) := by
  have hlog := (uniqueOn_some_iff.mpr hslots).rowsAt_eq hr rfl
  have hlead := (uniqueOn_some_iff.mpr hids).rowsAt_eq hl rfl
  have hjoin : ∀ l' : Lead, (s.logs.filter fun r' =>
      r'.leadId = some l'.id ∧ r'.platformEventId = r.platformEventId) =
      if l'.id = l.id then [r] else [] := by
    intro l'
    have hsplit : (s.logs.filter fun r' =>
        r'.leadId = some l'.id ∧ r'.platformEventId = r.platformEventId) =
        (rowsAt (fun r' => some r'.platformEventId) r.platformEventId s.logs).filter
          fun r' => r'.leadId = some l'.id := by
      rw [rowsAt,List.filter_filter]
      exact List.filter_congr fun r' _ => by simp
    rw [hsplit,hlog]
    by_cases h : l'.id = l.id
    · simp [h,hlink]
    · simp [h,hlink,Ne.symm h]
  have hrows : s.leads.flatMap (fun l' => (if l'.id = l.id then [r] else []).map fun _ => l') =
      rowsAt (fun l' => some l'.id) l.id s.leads := by
    rw [rowsAt]
    induction s.leads with
    | nil => rfl
    | cons x xs ih =>
      rw [List.flatMap_cons,List.filter_cons,ih]
      by_cases h : x.id = l.id <;> simp [h]
  rw [getLeadByPlatformEventId,scalarOneOrNone_some]
  simp only [hjoin]
  rw [hrows,hlead]

end Repository
end LeadEngine
