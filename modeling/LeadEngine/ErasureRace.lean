import LeadEngine.Concurrency
import LeadEngine.History

/-! An erasure among captures in flight. The erasure selects the leads it was asked for
and then, lead by lead, the rows linked to them; when it commits it overwrites the rows it
has read. A row that a capture links to a lead after that lead's rows were read survives. -/
namespace LeadEngine
namespace Concurrency

open Table Interpreter Repository Deduplicator Pipeline Erasure TransitionSystem History

structure EraseRequest where
  tenantId : UUID
  phone : Option String
  email : Option String
  requestedBy : String
  now : Time

structure EraseReads where
  identifierType : IdentifierType
  identifierValue : String
  found : List Lead
  touched : List UUID
  touchpointIds : List UUID
  logIds : List UUID

inductive ErasePhase
  | waiting
  | selected (reads : EraseReads) (todo : List Lead)
  | updated (reads : EraseReads) (lead : Lead) (todo : List Lead)
  | touched (reads : EraseReads) (lead : Lead) (todo : List Lead)
  | returned
  | committed (reads : EraseReads)

def ErasePhase.locked : ErasePhase → List UUID
  | .selected reads _ | .touched reads _ _ => reads.touched
  | .updated reads lead _ => lead.id :: reads.touched
  | _ => []

def ErasePhase.touchedIds : ErasePhase → List UUID
  | .selected reads _ | .updated reads _ _ | .touched reads _ _ | .committed reads => reads.touched
  | _ => []

/-- The two selects of `_erase_one`. -/
def EraseReads.readTouchpoints (reads : EraseReads) (db : Store) (lead : Lead) : EraseReads :=
  { reads with
    touched := lead.id :: reads.touched
    touchpointIds := reads.touchpointIds ++
      (db.touchpoints.filter fun t => t.leadId = lead.id).map LeadTouchpoint.id }

def EraseReads.readLogs (reads : EraseReads) (db : Store) (lead : Lead) : EraseReads :=
  { reads with
    logIds := reads.logIds ++
      (db.logs.filter fun r => r.leadId = some lead.id).map IntakeEventLog.id }

section Race

variable [Interpreter]

def EraseRequest.identifier (req : EraseRequest) : Option (IdentifierType × String) :=
  match req.phone,req.email with
  | some p,_ => some (.phone,storedIdentifier .phone p)
  | none,some m => some (.email,storedIdentifier .email m)
  | none,none => none

/-- The rows that were read are overwritten, and the audit row is added. -/
def EraseReads.commit (reads : EraseReads) (req : EraseRequest) (db : Store) : Store :=
  { db with
    leads := db.leads.map fun l =>
      if l.id ∈ reads.found.map Lead.id then erasedLead req.now l else l
    touchpoints := db.touchpoints.map fun t =>
      if t.id ∈ reads.touchpointIds then { t with rawEventJson := .erased req.now } else t
    logs := db.logs.map fun r =>
      if r.id ∈ reads.logIds then { r with rawEventJson := .erased req.now } else r
    erasureLogs := db.erasureLogs ++ [⟨req.tenantId,reads.found.map Lead.id,reads.identifierType,
      sha256 reads.identifierValue,req.requestedBy⟩] }

def eraseNext (req : EraseRequest) (db : Store) : ErasePhase → Option (Store × ErasePhase)
  | .waiting =>
    match req.identifier with
    | none => some (db,.returned)
    | some (kind,value) =>
      let found := findLeads db req.tenantId kind value
      if found.isEmpty then some (db,.returned)
      else some (db,.selected ⟨kind,value,found,[],[],[]⟩ found)
  | .selected reads (lead :: todo) => some (db,.updated reads lead todo)
  | .updated reads lead todo => some (db,.touched (reads.readTouchpoints db lead) lead todo)
  | .touched reads lead todo => some (db,.selected (reads.readLogs db lead) todo)
  | .selected reads [] => some (reads.commit req db,.committed reads)
  | .returned | .committed _ => none

structure Overlap (ι : Type) where
  captures : Config ι
  erase : ErasePhase

def Overlap.initial {ι : Type} (db : Store) : Overlap ι := ⟨.initial db,.waiting⟩

section Next

variable {ι : Type} [DecidableEq ι] [Fintype ι]

/-- The next statement of a capture, or of the erasure. -/
def overlapNext (txn : ι → Txn) (req : EraseRequest) (o : Overlap ι) :
    Option ι → Option (Overlap ι)
  | some i => (captureNext txn o.erase.locked o.captures i).map fun c => ⟨c,o.erase⟩
  | none => (eraseNext req o.captures.db o.erase).map fun next =>
      ⟨⟨next.1,o.captures.phase⟩,next.2⟩

def OverlapStep (txn : ι → Txn) (req : EraseRequest) (o : Overlap ι) (who : Option ι)
    (o' : Overlap ι) : Prop :=
  overlapNext txn req o who = some o'

/-- A capture links its event to a lead before the erasure reads that lead's rows. -/
def InTime (o : Overlap ι) : Option ι → Prop
  | none => True
  | some i =>
    match o.captures.phase i with
    | .matched l => l.id ∉ o.erase.touchedIds
    | _ => True

omit [Interpreter] [DecidableEq ι] [Fintype ι] in
instance (o : Overlap ι) : DecidablePred (InTime o)
  | none => inferInstanceAs (Decidable True)
  | some i => by
    unfold InTime
    dsimp only
    split <;> infer_instance

end Next

/-- The erasure has read every row of the leads it is done with; `half` is a lead whose
log rows are still to be read. -/
structure Reading (db : Store) (reads : EraseReads) (todo : List Lead) (half : Option UUID) :
    Prop where
  known : ∀ l ∈ reads.found, ∃ x ∈ db.leads, x.id = l.id
  touchedFound : ∀ i ∈ reads.touched, ∃ l ∈ reads.found, l.id = i
  todoFound : ∀ l ∈ todo, l ∈ reads.found
  covers : ∀ l ∈ reads.found, l.id ∈ reads.touched ∨ l ∈ todo
  touchpoints : ∀ t ∈ db.touchpoints, t.leadId ∈ reads.touched → t.id ∈ reads.touchpointIds
  logs : ∀ r ∈ db.logs, ∀ i ∈ reads.touched, half ≠ some i → r.leadId = some i →
    r.id ∈ reads.logIds

/-- What the phase of the erasure says of the rows committed now. -/
def EraseStanding (db : Store) : ErasePhase → Prop
  | .selected reads todo => Reading db reads todo none
  | .updated reads lead todo => Reading db reads (lead :: todo) none
  | .touched reads lead todo => Reading db reads todo (some lead.id)
  | _ => True

omit [Interpreter] in
/-- Rows for a lead that the erasure has not touched do not concern what it has read. -/
theorem Reading.append {db db' : Store} {reads : EraseReads} {todo : List Lead}
    {half : Option UUID} {i : UUID} {touchpoints : List LeadTouchpoint}
    {logs : List IntakeEventLog} (h : Reading db reads todo half) (hi : i ∉ reads.touched)
    (hleads : ∀ l ∈ db.leads, l ∈ db'.leads)
    (htouchpoints : db'.touchpoints = db.touchpoints ++ touchpoints)
    (hlogs : db'.logs = db.logs ++ logs) (ht : ∀ t ∈ touchpoints, t.leadId = i)
    (hr : ∀ r ∈ logs, r.leadId = some i) : Reading db' reads todo half where
  known := by
    intro l hl
    obtain ⟨x,hx,hid⟩ := h.known l hl
    exact ⟨x,hleads x hx,hid⟩
  touchedFound := h.touchedFound
  todoFound := h.todoFound
  covers := h.covers
  touchpoints := by
    intro t hmem hlead
    rw [htouchpoints] at hmem
    rcases List.mem_append.mp hmem with hmem | hmem
    · exact h.touchpoints t hmem hlead
    · rw [ht t hmem] at hlead
      exact absurd hlead hi
  logs := by
    intro r hmem j hj hhalf hlead
    rw [hlogs] at hmem
    rcases List.mem_append.mp hmem with hmem | hmem
    · exact h.logs r hmem j hj hhalf hlead
    · rw [hr r hmem] at hlead
      rw [Option.some.inj hlead] at hi
      exact absurd hj hi

omit [Interpreter] in
theorem EraseStanding.append {db db' : Store} {p : ErasePhase} {i : UUID}
    {touchpoints : List LeadTouchpoint} {logs : List IntakeEventLog} (h : EraseStanding db p)
    (hi : i ∉ p.touchedIds) (hleads : ∀ l ∈ db.leads, l ∈ db'.leads)
    (htouchpoints : db'.touchpoints = db.touchpoints ++ touchpoints)
    (hlogs : db'.logs = db.logs ++ logs) (ht : ∀ t ∈ touchpoints, t.leadId = i)
    (hr : ∀ r ∈ logs, r.leadId = some i) : EraseStanding db' p := by
  match p with
  | .waiting | .returned | .committed _ => trivial
  | .selected _ _ | .updated _ _ _ | .touched _ _ _ =>
    exact Reading.append h hi hleads htouchpoints hlogs ht hr

structure Intact {ι : Type} (txn : ι → Txn) (o : Overlap ι) : Prop where
  leadIds : (o.captures.db.leads.map Lead.id).Nodup
  erasedRows : Sealed o.captures.db
  scrubbed : ∀ l ∈ o.captures.db.leads, l.pipelineStage = .erased →
    ∃ stage tombstone, l = scrub stage tombstone l
  draws : ∀ i, (o.captures.phase i).isOver = false →
    ∀ l ∈ o.captures.db.leads, l.id ≠ (txn i).lead.id
  known : ∀ i ∈ o.erase.touchedIds, ∃ l ∈ o.captures.db.leads, l.id = i
  matched : ∀ i l, o.captures.phase i = .matched l → ∀ x ∈ o.captures.db.leads, x.id = l.id →
    x.pipelineStage = .erased → l.id ∈ o.erase.touchedIds
  reading : EraseStanding o.captures.db o.erase

section Steps

variable {ι : Type} [DecidableEq ι] {txn : ι → Txn} {o : Overlap ι}

/-- A lead that a lookup returns is stored and shares an identity with the event. -/
theorem matches_of_lookup {db : Store} {t : UUID} {e : NormalisedChannelEvent} {l : Lead}
    (h : lookupPhone db t e = .ok (some l) ∨ lookupEmail db t e = .ok (some l) ∨
      lookupPlace db t e = .ok (some l)) : l ∈ db.leads ∧ Matches t e l := by
  rcases h with h | h | h
  · unfold lookupPhone at h
    cases hp : storedPhone e with
    | none => simp [hp] at h
    | some p =>
      rw [hp] at h
      have hmem := (scalarOneOrNone_mem h l).mp rfl
      simp only [List.mem_filter,decide_eq_true_eq] at hmem
      exact ⟨hmem.1,hmem.2.1,Or.inl ⟨p,hp,hmem.2.2⟩⟩
  · unfold lookupEmail at h
    cases hm : storedEmail e with
    | none => simp [hm] at h
    | some m =>
      rw [hm] at h
      have hmem := (scalarOneOrNone_mem h l).mp rfl
      simp only [List.mem_filter,decide_eq_true_eq] at hmem
      exact ⟨hmem.1,hmem.2.1,Or.inr (Or.inl ⟨m,hm,hmem.2.2⟩)⟩
  · unfold lookupPlace at h
    split at h
    · rename_i n p hn hp
      have hmem := (scalarOneOrNone_mem h l).mp rfl
      simp only [List.mem_filter,decide_eq_true_eq] at hmem
      exact ⟨hmem.1,hmem.2.1,Or.inr (Or.inr ⟨n,p,hn,hp,hmem.2.2.1,hmem.2.2.2⟩)⟩
    · simp at h

/-- A capture moves on without a write, and if it finds a lead, the lead is not erased. -/
theorem Intact.move (h : Intact txn o) {i : ι} {p : Phase}
    (hover : (o.captures.phase i).isOver = false)
    (hp : ∀ l, p = .matched l → l ∈ o.captures.db.leads ∧ l.pipelineStage ≠ .erased) :
    Intact txn ⟨o.captures.moveTo i o.captures.db p,o.erase⟩ where
  leadIds := h.leadIds
  erasedRows := h.erasedRows
  scrubbed := h.scrubbed
  draws := by
    intro j hj
    by_cases hji : j = i
    · rw [hji]
      exact h.draws i hover
    · rw [moveTo_phase_ne _ _ _ _ hji] at hj
      exact h.draws j hj
  known := h.known
  matched := by
    intro j l hj x hx hid hstage
    by_cases hji : j = i
    · rw [hji,moveTo_phase_self] at hj
      obtain ⟨hl,hne⟩ := hp l hj
      rw [(uniqueOn_some_iff.mpr h.leadIds).eq_of_key hx hl (congrArg some hid) rfl] at hstage
      exact absurd hstage hne
    · rw [moveTo_phase_ne _ _ _ _ hji] at hj
      exact h.matched j l hj x hx hid hstage
  reading := h.reading

theorem Intact.look (h : Intact txn o) {i : ι} {missed : Phase}
    {found : Except CaptureError (Option Lead)} (hover : (o.captures.phase i).isOver = false)
    (hmissed : ∀ l, missed ≠ .matched l) {t : UUID} {e : NormalisedChannelEvent}
    (hfound : ∀ l, found = .ok (some l) → l ∈ o.captures.db.leads ∧ Matches t e l) :
    Intact txn ⟨o.captures.moveTo i o.captures.db (afterLookup missed found),o.erase⟩ := by
  refine h.move hover fun l hl => ?_
  match found with
  | .error _ => simp [afterLookup] at hl
  | .ok none => exact absurd hl (hmissed l)
  | .ok (some x) =>
    obtain rfl : x = l := by simpa [afterLookup] using hl
    obtain ⟨hmem,hm⟩ := hfound x rfl
    refine ⟨hmem,fun hstage => ?_⟩
    obtain ⟨stage,tombstone,hscrub⟩ := h.scrubbed x hmem hstage
    exact not_matches_scrub hscrub hm

theorem Intact.attach (h : Intact txn o) {i : ι} {l : Lead}
    (hphase : o.captures.phase i = .matched l) (htime : l.id ∉ o.erase.touchedIds) :
    Intact txn ⟨o.captures.moveTo i
      (withDuplicate o.captures.db (txn i).fresh (txn i).event l) (.finished ⟨l,none⟩),
      o.erase⟩ where
  leadIds := h.leadIds
  erasedRows := by
    refine sealed_append (i:=l.id) h.erasedRows (fun x hx hstage => ⟨hx,fun hid => ?_⟩) rfl rfl
      (by simp [buildTouchpoint]) (by simp [settledLog])
    exact htime (h.matched i l hphase x hx hid hstage)
  scrubbed := h.scrubbed
  draws := by
    intro j hj
    have hji : j ≠ i := by
      rintro rfl
      simp [Phase.isOver] at hj
    rw [moveTo_phase_ne _ _ _ _ hji] at hj
    exact h.draws j hj
  known := h.known
  matched := by
    intro j x hj
    have hji : j ≠ i := by
      rintro rfl
      simp at hj
    rw [moveTo_phase_ne _ _ _ _ hji] at hj
    exact h.matched j x hj
  reading := h.reading.append htime (fun _ => id) rfl rfl (by simp [buildTouchpoint])
    (by simp [settledLog])

theorem Intact.commit (h : Intact txn o)
    (hdraws : Function.Injective fun i => (txn i).fresh.leadId) {i : ι}
    (hphase : o.captures.phase i = .inserted) :
    Intact txn ⟨o.captures.moveTo i (withNewLead o.captures.db (txn i).fresh (txn i).event)
      (.finished ⟨(txn i).lead,some (leadReceived (txn i).fresh (txn i).event)⟩),o.erase⟩ := by
  have hfresh : ∀ l ∈ o.captures.db.leads, l.id ≠ (txn i).lead.id :=
    h.draws i (by rw [hphase]; rfl)
  have hcases : ∀ l, l ∈ o.captures.db.leads ++ [(txn i).lead] →
      l ∈ o.captures.db.leads ∨ l = (txn i).lead := by simp
  have hstage : (txn i).lead.pipelineStage ≠ .erased := by simp [Txn.lead,newLead]
  have hids : (txn i).lead.id ∉ o.erase.touchedIds := by
    intro hmem
    obtain ⟨l,hl,hid⟩ := h.known _ hmem
    exact hfresh l hl hid
  constructor
  · have hids : (o.captures.db.leads ++ [(txn i).lead]).map Lead.id =
        o.captures.db.leads.map Lead.id ++ [(txn i).lead.id] := List.map_append
    refine hids ▸ nodup_append_singleton h.leadIds ?_
    rw [List.mem_map]
    rintro ⟨l,hl,hid⟩
    exact hfresh l hl hid
  · refine sealed_append (i:=(txn i).lead.id) h.erasedRows (fun x hx herased => ?_) rfl rfl
      (by simp [buildTouchpoint,Txn.lead]) (by simp [settledLog,Txn.lead,newLead])
    rcases hcases x hx with hx | rfl
    · exact ⟨hx,hfresh x hx⟩
    · exact absurd herased hstage
  · intro l hl herased
    rcases hcases l hl with hl | rfl
    · exact h.scrubbed l hl herased
    · exact absurd herased hstage
  · intro j hj l hl
    have hji : j ≠ i := by
      rintro rfl
      simp [Phase.isOver] at hj
    rw [moveTo_phase_ne _ _ _ _ hji] at hj
    rcases hcases l hl with hl | rfl
    · exact h.draws j hj l hl
    · exact fun hid => hji (hdraws hid).symm
  · intro j hj
    obtain ⟨l,hl,hid⟩ := h.known j hj
    exact ⟨l,List.mem_append_left _ hl,hid⟩
  · intro j x hj y hy hid herased
    have hji : j ≠ i := by
      rintro rfl
      simp at hj
    rw [moveTo_phase_ne _ _ _ _ hji] at hj
    rcases hcases y hy with hy | rfl
    · exact h.matched j x hj y hy hid herased
    · exact absurd herased hstage
  · exact h.reading.append hids (fun l hl => List.mem_append_left _ hl) rfl rfl
      (by simp [buildTouchpoint,Txn.lead]) (by simp [settledLog,Txn.lead,newLead])

theorem Intact.capture (h : Intact txn o)
    (hdraws : Function.Injective fun i => (txn i).fresh.leadId) {i : ι} {c : Config ι}
    (hstep : Advance txn o.captures i c) (htime : InTime o (some i)) :
    Intact txn ⟨c,o.erase⟩ := by
  cases hstep with
  | redeliver hp hslot => exact h.move (by rw [hp]; rfl) (by simp)
  | reserve hp hslot => exact h.move (by rw [hp]; rfl) (by simp)
  | answer hp =>
    refine h.move (by rw [hp]; rfl) fun l hl => ?_
    unfold afterRedelivery at hl
    split at hl <;> simp at hl
  | phone hp =>
    exact h.look (by rw [hp]; rfl) (by simp) fun l hl => matches_of_lookup (Or.inl hl)
  | email hp =>
    exact h.look (by rw [hp]; rfl) (by simp) fun l hl => matches_of_lookup (Or.inr (Or.inl hl))
  | place hp =>
    exact h.look (by rw [hp]; rfl) (by simp) fun l hl => matches_of_lookup (Or.inr (Or.inr hl))
  | conflict hp err hins => exact h.move (by rw [hp]; rfl) (by simp)
  | insert hp hkey => exact h.move (by rw [hp]; rfl) (by simp)
  | attach l hp =>
    simp only [InTime,hp] at htime
    exact h.attach hp htime
  | commit hp => exact h.commit hdraws hp

omit [Interpreter] in
/-- The touchpoints of one more lead are read. -/
theorem Reading.readTouchpoints {db : Store} {reads : EraseReads} {lead : Lead}
    {todo : List Lead} (h : Reading db reads (lead :: todo) none) :
    Reading db (reads.readTouchpoints db lead) todo (some lead.id) where
  known := h.known
  touchedFound := by
    intro i hi
    rcases List.mem_cons.mp hi with rfl | hi
    · exact ⟨lead,h.todoFound lead List.mem_cons_self,rfl⟩
    · exact h.touchedFound i hi
  todoFound := fun l hl => h.todoFound l (List.mem_cons_of_mem _ hl)
  covers := by
    intro l hl
    rcases h.covers l hl with hl | hl
    · exact Or.inl (List.mem_cons_of_mem _ hl)
    · rcases List.mem_cons.mp hl with rfl | hl
      · exact Or.inl List.mem_cons_self
      · exact Or.inr hl
  touchpoints := by
    intro t ht hlead
    rw [EraseReads.readTouchpoints,List.mem_append]
    rcases List.mem_cons.mp hlead with hlead | hlead
    · exact Or.inr (List.mem_map_of_mem (List.mem_filter.mpr ⟨ht,by simpa using hlead⟩))
    · exact Or.inl (h.touchpoints t ht hlead)
  logs := by
    intro r hr i hi hhalf hlead
    rcases List.mem_cons.mp hi with rfl | hi
    · exact absurd rfl hhalf
    · exact h.logs r hr i hi (by simp) hlead

omit [Interpreter] in
theorem Reading.readLogs {db : Store} {reads : EraseReads} {lead : Lead} {todo : List Lead}
    (h : Reading db reads todo (some lead.id)) :
    Reading db (reads.readLogs db lead) todo none where
  known := h.known
  touchedFound := h.touchedFound
  todoFound := h.todoFound
  covers := h.covers
  touchpoints := h.touchpoints
  logs := by
    intro r hr i hi _ hlead
    rw [EraseReads.readLogs,List.mem_append]
    by_cases hhalf : lead.id = i
    · refine Or.inr (List.mem_map_of_mem (List.mem_filter.mpr ⟨hr,?_⟩))
      simpa [hhalf] using hlead
    · exact Or.inl (h.logs r hr i hi (fun he => hhalf (Option.some.inj he)) hlead)

theorem Reading.sealed_commit {db : Store} {reads : EraseReads} (h : Reading db reads [] none)
    (hsealed : Sealed db) (req : EraseRequest) : Sealed (reads.commit req db) := by
  refine hsealed.rewrite rfl rfl rfl (fun l => ?_) (fun t => tombstoned_touchpoint t _ trivial)
    (fun r => tombstoned_log r _ trivial) (fun l _ hstage => ?_)
  · split_ifs <;> rfl
  · by_cases hfound : l.id ∈ reads.found.map Lead.id
    · obtain ⟨x,hx,hid⟩ := List.mem_map.mp hfound
      have htouched : l.id ∈ reads.touched := by
        rcases h.covers x hx with hmem | hmem
        · rwa [hid] at hmem
        · simp at hmem
      refine Or.inr ⟨fun t ht hlead => ?_,fun r hr hlead => ?_⟩
      · rw [if_pos (h.touchpoints t ht (hlead ▸ htouched))]
        trivial
      · rw [if_pos (h.logs r hr l.id htouched (by simp) hlead)]
        trivial
    · rw [if_neg hfound] at hstage
      exact Or.inl hstage

omit [DecidableEq ι] in
theorem Intact.read (h : Intact txn o) {p : ErasePhase}
    (hgrows : ∀ i ∈ o.erase.touchedIds, i ∈ p.touchedIds)
    (hknown : ∀ i ∈ p.touchedIds, ∃ l ∈ o.captures.db.leads, l.id = i)
    (hp : EraseStanding o.captures.db p) : Intact txn ⟨o.captures,p⟩ where
  leadIds := h.leadIds
  erasedRows := h.erasedRows
  scrubbed := h.scrubbed
  draws := h.draws
  known := hknown
  matched := fun i l hi x hx hid hstage => hgrows _ (h.matched i l hi x hx hid hstage)
  reading := hp

omit [DecidableEq ι] in
theorem Intact.overwrite (h : Intact txn o) {reads : EraseReads}
    (hp : o.erase = .selected reads []) (req : EraseRequest) :
    Intact txn ⟨⟨reads.commit req o.captures.db,o.captures.phase⟩,.committed reads⟩ := by
  have hreading := h.reading
  rw [hp] at hreading
  have hrows : ∀ l' ∈ (reads.commit req o.captures.db).leads, ∃ l ∈ o.captures.db.leads,
      l'.id = l.id ∧ (l' = l ∨ l' = erasedLead req.now l ∧ l.id ∈ reads.found.map Lead.id) := by
    intro l' hl'
    obtain ⟨l,hl,rfl⟩ := List.mem_map.mp hl'
    refine ⟨l,hl,?_⟩
    split_ifs with hfound
    · exact ⟨rfl,Or.inr ⟨rfl,hfound⟩⟩
    · exact ⟨rfl,Or.inl rfl⟩
  constructor
  · have hids : (o.captures.db.leads.map fun l =>
        if l.id ∈ reads.found.map Lead.id then erasedLead req.now l else l).map Lead.id =
          o.captures.db.leads.map Lead.id :=
      map_map_of_eq (fun l => by split_ifs <;> rfl) _
    rw [EraseReads.commit,hids]
    exact h.leadIds
  · exact Reading.sealed_commit hreading h.erasedRows req
  · intro l' hl' hstage
    obtain ⟨l,hl,_,rfl | ⟨rfl,_⟩⟩ := hrows l' hl'
    · exact h.scrubbed l' hl hstage
    · exact ⟨_,_,rfl⟩
  · intro i hi l' hl'
    obtain ⟨l,hl,hid,_⟩ := hrows l' hl'
    rw [hid]
    exact h.draws i hi l hl
  · intro i hi
    obtain ⟨x,hx,hid⟩ := hreading.touchedFound i hi
    obtain ⟨l,hl,hid'⟩ := hreading.known x hx
    refine ⟨_,List.mem_map_of_mem hl,?_⟩
    split_ifs <;> exact hid'.trans hid
  · intro i x hi l' hl' hid hstage
    obtain ⟨l,hl,hid',rfl | ⟨rfl,hfound⟩⟩ := hrows l' hl'
    · have hold := h.matched i x hi l' hl hid hstage
      rw [hp] at hold
      exact hold
    · obtain ⟨y,hy,hyl⟩ := List.mem_map.mp hfound
      rw [← hid,hid',← hyl]
      rcases hreading.covers y hy with hmem | hmem
      · exact hmem
      · simp at hmem
  · trivial

omit [DecidableEq ι] in
/-- A statement of the erasure keeps the overlap intact. -/
theorem Intact.erase (h : Intact txn o) {req : EraseRequest} {next : Store × ErasePhase}
    (hstep : eraseNext req o.captures.db o.erase = some next) :
    Intact txn ⟨⟨next.1,o.captures.phase⟩,next.2⟩ := by
  have hreading := h.reading
  match hp : o.erase with
  | .waiting =>
    have hnone : ∀ i ∈ o.erase.touchedIds, i ∈ ([] : List UUID) := by
      simp [hp,ErasePhase.touchedIds]
    rw [hp,eraseNext] at hstep
    split at hstep
    · rw [← Option.some.inj hstep]
      exact h.read hnone (by simp [ErasePhase.touchedIds]) trivial
    · dsimp only at hstep
      split_ifs at hstep
      · rw [← Option.some.inj hstep]
        exact h.read hnone (by simp [ErasePhase.touchedIds]) trivial
      · rw [← Option.some.inj hstep]
        refine h.read hnone (by simp [ErasePhase.touchedIds]) ?_
        refine ⟨fun l hl => ⟨l,?_,rfl⟩,by simp,fun _ => id,fun l hl => Or.inr hl,by simp,by simp⟩
        unfold findLeads at hl
        split at hl <;> exact List.mem_of_mem_filter hl
  | .selected reads (lead :: todo) =>
    rw [hp] at hstep hreading
    rw [← Option.some.inj hstep]
    exact h.read (by rw [hp]; exact fun _ => id)
      (fun i hi => h.known i (by rw [hp]; exact hi)) hreading
  | .selected reads [] =>
    rw [hp] at hstep
    rw [← Option.some.inj hstep]
    exact h.overwrite hp req
  | .updated reads lead todo =>
    rw [hp] at hstep hreading
    rw [← Option.some.inj hstep]
    have hnext := Reading.readTouchpoints hreading
    refine h.read (by rw [hp]; exact fun i hi => List.mem_cons_of_mem _ hi) (fun i hi => ?_) hnext
    obtain ⟨x,hx,hid⟩ := hnext.touchedFound i hi
    obtain ⟨l,hl,hid'⟩ := hnext.known x hx
    exact ⟨l,hl,hid'.trans hid⟩
  | .touched reads lead todo =>
    rw [hp] at hstep hreading
    rw [← Option.some.inj hstep]
    exact h.read (by rw [hp]; exact fun _ => id)
      (fun i hi => h.known i (by rw [hp]; exact hi)) (Reading.readLogs hreading)
  | .returned | .committed _ =>
    rw [hp] at hstep
    simp [eraseNext] at hstep

end Steps

section Alone

variable {ι : Type} [DecidableEq ι] [Fintype ι] {txn : ι → Txn} {req : EraseRequest}

def readAll (db : Store) (todo : List Lead) (reads : EraseReads) : EraseReads :=
  todo.foldl (fun reads lead => (reads.readTouchpoints db lead).readLogs db lead) reads

omit [Interpreter] in
theorem readAll_eq (db : Store) (todo : List Lead) (reads : EraseReads) :
    (readAll db todo reads).found = reads.found ∧
      (readAll db todo reads).identifierType = reads.identifierType ∧
      (readAll db todo reads).identifierValue = reads.identifierValue ∧
      (∀ i, i ∈ (readAll db todo reads).touchpointIds ↔ i ∈ reads.touchpointIds ∨
        ∃ t ∈ db.touchpoints, t.leadId ∈ todo.map Lead.id ∧ t.id = i) ∧
      ∀ i, i ∈ (readAll db todo reads).logIds ↔ i ∈ reads.logIds ∨
        ∃ r ∈ db.logs, (∃ j ∈ todo.map Lead.id, r.leadId = some j) ∧ r.id = i := by
  induction todo generalizing reads with
  | nil => simp [readAll]
  | cons lead todo ih =>
    obtain ⟨hf,hk,hv,ht,hr⟩ := ih ((reads.readTouchpoints db lead).readLogs db lead)
    refine ⟨hf,hk,hv,fun i => ?_,fun i => ?_⟩
    · rw [readAll,List.foldl_cons]
      refine (ht i).trans ?_
      simp only [EraseReads.readTouchpoints,EraseReads.readLogs,List.mem_append,List.mem_map,
        List.mem_filter,decide_eq_true_eq,List.mem_cons]
      grind
    · rw [readAll,List.foldl_cons]
      refine (hr i).trans ?_
      simp only [EraseReads.readTouchpoints,EraseReads.readLogs,List.mem_append,List.mem_map,
        List.mem_filter,decide_eq_true_eq,List.mem_cons]
      grind

theorem reachable_erase {o : Overlap ι} {c : Config ι} {p p' : ErasePhase} {db : Store}
    (h : Reachable (OverlapStep txn req) o ⟨c,p⟩) (hn : eraseNext req c.db p = some (db,p')) :
    Reachable (OverlapStep txn req) o ⟨⟨db,c.phase⟩,p'⟩ := by
  refine h.tail (a:=none) ?_
  simp [OverlapStep,overlapNext,hn]

theorem reachable_readAll (c : Config ι) (todo : List Lead) (reads : EraseReads) :
    Reachable (OverlapStep txn req) ⟨c,.selected reads todo⟩
      ⟨c,.selected (readAll c.db todo reads) []⟩ := by
  induction todo generalizing reads with
  | nil => exact Reachable.refl
  | cons lead todo ih =>
    have h₁ : Reachable (OverlapStep txn req) ⟨c,.selected reads (lead :: todo)⟩
        ⟨c,.updated reads lead todo⟩ := reachable_erase Reachable.refl rfl
    have h₂ : Reachable (OverlapStep txn req) ⟨c,.selected reads (lead :: todo)⟩
        ⟨c,.touched (reads.readTouchpoints c.db lead) lead todo⟩ := reachable_erase h₁ rfl
    exact (reachable_erase h₂ rfl).trans (ih _)

omit [DecidableEq ι] [Fintype ι] in
/-- Overwriting the rows that were read is erasing the leads that were found. -/
theorem commit_readAll {db : Store} (hc : Consistent db) (kind : IdentifierType) (value : String)
    (found : List Lead) : (readAll db found ⟨kind,value,found,[],[],[]⟩).commit req db =
      { eraseIds req.now db (found.map Lead.id) with
        erasureLogs := db.erasureLogs ++
          [⟨req.tenantId,found.map Lead.id,kind,sha256 value,req.requestedBy⟩] } := by
  obtain ⟨hf,hk,hv,ht,hr⟩ := readAll_eq db found ⟨kind,value,found,[],[],[]⟩
  have htouchpoints : ∀ t ∈ db.touchpoints,
      t.id ∈ (readAll db found ⟨kind,value,found,[],[],[]⟩).touchpointIds ↔
        t.leadId ∈ found.map Lead.id := by
    intro t hmem
    rw [ht]
    constructor
    · rintro (hi | ⟨t',hmem',hlead,hid⟩)
      · simp at hi
      · rwa [(uniqueOn_some_iff.mpr hc.touchpointIds).eq_of_key hmem hmem' rfl
          (congrArg some hid)]
    · exact fun hlead => Or.inr ⟨t,hmem,hlead,rfl⟩
  have hlogs : ∀ r ∈ db.logs, r.id ∈ (readAll db found ⟨kind,value,found,[],[],[]⟩).logIds ↔
      ∃ j ∈ found.map Lead.id, r.leadId = some j := by
    intro r hmem
    rw [hr]
    constructor
    · rintro (hi | ⟨r',hmem',hlead,hid⟩)
      · simp at hi
      · rwa [(uniqueOn_some_iff.mpr hc.logIds).eq_of_key hmem hmem' rfl (congrArg some hid)]
    · exact fun hlead => Or.inr ⟨r,hmem,hlead,rfl⟩
  rw [EraseReads.commit,eraseIds,hf,hk,hv]
  congr 1
  · exact List.map_congr_left fun r hmem => by simp only [hlogs r hmem]
  · exact List.map_congr_left fun t hmem => by simp only [htouchpoints t hmem]

/-- Run without interruption, the statements of the erasure are `erase_lead_by_identity`. -/
theorem erase_alone {c : Config ι} (hc : Consistent c.db) :
    ∃ p : ErasePhase, (p = .returned ∨ ∃ reads, p = .committed reads) ∧
      Reachable (OverlapStep txn req) ⟨c,.waiting⟩
        ⟨⟨(eraseLeadByIdentity c.db req.now req.tenantId req.phone req.email req.requestedBy).1,
          c.phase⟩,p⟩ := by
  have hidentity : ∀ kind value, req.identifier = some (kind,storedIdentifier kind value) →
      ∃ p : ErasePhase, (p = .returned ∨ ∃ reads, p = .committed reads) ∧
        Reachable (OverlapStep txn req) ⟨c,.waiting⟩
          ⟨⟨(eraseIdentity c.db req.now req.tenantId kind value req.requestedBy).1,c.phase⟩,p⟩ := by
    intro kind value hid
    unfold eraseIdentity
    dsimp only
    split_ifs with hempty
    · refine ⟨.returned,.inl rfl,reachable_erase (c:=c) Reachable.refl ?_⟩
      simp [eraseNext,hid,hempty]
    · have hselect : Reachable (OverlapStep txn req) ⟨c,.waiting⟩
          ⟨c,.selected ⟨kind,storedIdentifier kind value,
            findLeads c.db req.tenantId kind (storedIdentifier kind value),[],[],[]⟩
            (findLeads c.db req.tenantId kind (storedIdentifier kind value))⟩ := by
        refine reachable_erase (c:=c) Reachable.refl ?_
        simp [eraseNext,hid,hempty]
      have hcommit := reachable_erase (hselect.trans (reachable_readAll c _ _)) rfl
      rw [commit_readAll hc] at hcommit
      rw [foldl_eraseOne]
      exact ⟨.committed _,.inr ⟨_,rfl⟩,hcommit⟩
  unfold eraseLeadByIdentity
  split
  · rename_i p hphone
    exact hidentity .phone p (by simp [EraseRequest.identifier,hphone])
  · rename_i m hphone hmail
    exact hidentity .email m (by simp [EraseRequest.identifier,hphone,hmail])
  · rename_i hphone hmail
    refine ⟨.returned,.inl rfl,reachable_erase (c:=c) Reachable.refl ?_⟩
    simp [eraseNext,EraseRequest.identifier,hphone,hmail]

end Alone

/-- While every capture links its event in time, no payload is left with an erased lead. -/
theorem sealed_of_inTime {ι : Type} [DecidableEq ι] [Fintype ι] {w : World}
    (hw : Reachable Step .empty w) {txn : ι → Txn} (hdrawn : Drawn (fun i => (txn i).fresh) w.store)
    (req : EraseRequest) {tr : List (Transition (Overlap ι) (Option ι))} {o : Overlap ι}
    (h : Path (OverlapStep txn req) (Overlap.initial w.store) tr o)
    (hguard : ∀ t ∈ tr, InTime t.1 t.2.1) : Sealed o.captures.db := by
  have hc := consistent_of_reachable hw
  have hintact : Intact txn o := by
    refine h.invariant_of_guard (I := Intact txn) (G := InTime) ?_ ?_ hguard
    · refine ⟨hc.leadIds,hc.erasedRows,fun l hl hstage => ?_,fun i _ => (hdrawn.fresh i).lead,
        by simp [Overlap.initial,ErasePhase.touchedIds],?_,trivial⟩
      · obtain ⟨stage,tombstone,_,hscrub⟩ := hc.scrubbed l hl (Or.inl hstage)
        exact ⟨stage,tombstone,hscrub⟩
      · intro i l hi
        simp [Overlap.initial,Config.initial] at hi
    · intro o who o' hintact htime hstep
      cases who with
      | some i =>
        obtain ⟨c,hc,rfl⟩ := Option.map_eq_some_iff.mp hstep
        exact hintact.capture hdrawn.leadIds (CaptureStep.advance hc) htime
      | none =>
        obtain ⟨next,hn,rfl⟩ := Option.map_eq_some_iff.mp hstep
        exact hintact.erase hn
  exact hintact.erasedRows

end Race

/-- The lead of a contact is stored when a second message of the contact overlaps the
erasure of the contact's phone. -/
def contactStore : World :=
  letI := erasureRuntime
  play .empty
    [(.runCapture (.ofMessage 1 "a" none (some "+49 151") none none "Need a quote"),.nth 1)]

def secondMessage : Fin 1 → Txn :=
  fun _ => ⟨.ofMessage 1 "b" none (some "+49 151") none none "Any news?",.nth 2⟩

def phoneErasure : EraseRequest := ⟨1,some "+49151",none,"owner",3⟩

theorem drawn_secondMessage : Drawn (fun i => (secondMessage i).fresh) contactStore.store where
  fresh := by decide +kernel
  logIds := by decide
  leadIds := by decide
  touchpointIds := by decide

/-- The capture commits after the erasure has selected the lead and before it reads on. -/
theorem message_in_time_sealed :
    letI := erasureRuntime
    ((follow (overlapNext secondMessage phoneErasure) (Overlap.initial contactStore.store)
      [some 0,some 0,none,some 0,none,none,none,none]).captures.db.touchpoints.map
        fun t => (t.platformEventId,decide t.rawEventJson.Tombstoned)) =
      [(some "a",true),(some "b",true)] ∧
      Sealed (follow (overlapNext secondMessage phoneErasure) (Overlap.initial contactStore.store)
        [some 0,some 0,none,some 0,none,none,none,none]).captures.db := by
  let := erasureRuntime
  exact ⟨by decide +kernel,sealed_of_inTime (reachable_play _ _) drawn_secondMessage phoneErasure
    (path_follow _ _ _) (by decide +kernel)⟩

/-- The capture has found the lead and commits after the erasure: its payload stays with
the erased lead. -/
theorem late_message_survives :
    letI := erasureRuntime
    Reachable Step .empty contactStore ∧ ∃ tr o, Path (OverlapStep secondMessage phoneErasure)
      (Overlap.initial contactStore.store) tr o ∧ ¬ Sealed o.captures.db := by
  let := erasureRuntime
  exact ⟨reachable_play _ _,_,_,path_follow _ _ [some 0,some 0,none,none,none,none,none,some 0],
    by decide +kernel⟩

end Concurrency
end LeadEngine
