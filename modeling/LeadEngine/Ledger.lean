import LeadEngine.History

/-! The intake ledger: what the log rows, the touchpoints and the announcements of a
reachable state say about one another. -/
namespace LeadEngine
namespace History

open Table Interpreter Repository Deduplicator Pipeline FileUpload TransitionSystem

/-- A log row of an event that was captured, as a new lead or as a further interaction. -/
def Counted (r : IntakeEventLog) : Prop := r.status = .received ∨ r.status = .duplicate

instance : DecidablePred Counted := fun r => by unfold Counted; infer_instance

/-- A row is settled: not pending, and without a lead only when no lead was made. -/
def Settled (r : IntakeEventLog) : Prop :=
  r.status ≠ .pending ∧ (r.leadId = none ↔ r.status = .unroutable ∨ r.status = .failed)

def touchpointsOf (s : Store) (leadId : UUID) : List LeadTouchpoint :=
  s.touchpoints.filter fun t => t.leadId = leadId

def captureLogsOf (s : Store) (leadId : UUID) : List IntakeEventLog :=
  s.logs.filter fun r => r.leadId = some leadId ∧ Counted r

def receivedLogs (s : Store) : List IntakeEventLog :=
  s.logs.filter fun r => r.status = .received

/-- The ledger of a state: event ids are unique, every row is settled, the touchpoints of
a lead answer to its captured events, and the announcements to the received rows. -/
structure Ledger (w : World) : Prop where
  slots : (w.store.logs.map IntakeEventLog.platformEventId).Nodup
  settled : ∀ r ∈ w.store.logs, Settled r
  touchpoints : ∀ l ∈ w.store.leads,
    ((touchpointsOf w.store l.id).map LeadTouchpoint.platformEventId).Perm
      ((captureLogsOf w.store l.id).map fun r => some r.platformEventId)
  announced : (w.received.map fun a => some a.leadId).Perm
    ((receivedLogs w.store).map IntakeEventLog.leadId)
  once : (w.received.map LeadReceived.leadId).Nodup

/-- The same correspondences row by row, in the order the rows were written. -/
structure Books (s : Store) (received : List LeadReceived) : Prop where
  settled : ∀ r ∈ s.logs, Settled r
  touchpoints : s.touchpoints.map (fun t => (some t.leadId,t.platformEventId)) =
    (s.logs.filter fun r => Counted r).map fun r => (r.leadId,some r.platformEventId)
  announced : received.map (fun a => some a.leadId) =
    (receivedLogs s).map IntakeEventLog.leadId
  once : (received.map LeadReceived.leadId).Nodup

theorem books_empty : Books .empty [] :=
  ⟨by simp [Store.empty],rfl,rfl,List.nodup_nil⟩

theorem filter_map_redacts {β : Type} {g : IntakeEventLog → IntakeEventLog} (hg : RedactsLog g)
    (keep : IntakeStatus → Bool) {column : IntakeEventLog → β}
    (hcolumn : ∀ r, column (g r) = column r) (logs : List IntakeEventLog) :
    ((logs.map g).filter fun r => keep r.status).map column =
      (logs.filter fun r => keep r.status).map column := by
  have hkeep : (fun r : IntakeEventLog => keep r.status) ∘ g = fun r => keep r.status := by
    funext r
    simp [(redactsLog_fields hg r).2.2.2.2]
  rw [List.filter_map,hkeep,map_map_of_eq hcolumn]

section Reachable

variable [Interpreter] {s s' : Store} {f : Fresh} {received : Option LeadReceived}

theorem Change.settled (h : Change s f s' received) (hs : ∀ r ∈ s.logs, Settled r) :
    ∀ r ∈ s'.logs, Settled r := by
  have happend : ∀ x : IntakeEventLog, Settled x → ∀ r ∈ s.logs ++ [x], Settled r := by
    intro x hx r hr
    obtain hr | hr := List.mem_append.mp hr
    · exact hs r hr
    · rwa [List.mem_singleton.mp hr]
  cases h with
  | redacted h =>
    obtain ⟨g,hg,hlogs⟩ := h.logs
    intro r hr
    rw [hlogs] at hr
    obtain ⟨r',hr',rfl⟩ := List.mem_map.mp hr
    obtain ⟨_,_,hlead,_,hstatus⟩ := redactsLog_fields hg r'
    rw [Settled,hlead,hstatus]
    exact hs r' hr'
  | captured | attached | stopped => exact happend _ (by simp [Settled,settledLog])
  | blocked => exact hs
  | orphaned r _ _ hlead hstatus =>
    refine happend r ⟨?_,by simp [hlead,hstatus]⟩
    obtain h | h := hstatus <;> simp [h]

theorem Change.books {before : List LeadReceived} (h : Change s f s' received) (hf : f.For s)
    (hc : Consistent s) (hb : Books s before) : Books s' (before ++ received.toList) := by
  refine ⟨h.settled hb.settled,?_,?_,?_⟩
  · cases h with
    | redacted h =>
      obtain ⟨g,hg,hlogs⟩ := h.logs
      obtain ⟨k,hk,htps⟩ := h.touchpoints
      rw [hlogs,htps,map_map_of_eq fun t => by
        rw [(redactsTouchpoint_fields hk t).2.1,(redactsTouchpoint_fields hk t).2.2]]
      refine hb.touchpoints.trans (filter_map_redacts hg (fun st =>
        decide (st = .received ∨ st = .duplicate)) (fun r => ?_) s.logs).symm
      rw [(redactsLog_fields hg r).2.1,(redactsLog_fields hg r).2.2.1]
    | captured | attached =>
      simp [withNewLead,withDuplicate,hb.touchpoints,settledLog,pendingLog,Counted,buildTouchpoint,
        newLead]
    | stopped => simp [withTerminalLead,hb.touchpoints,settledLog,Counted]
    | blocked => exact hb.touchpoints
    | orphaned r _ _ _ hstatus =>
      have hr : ¬ Counted r := by
        obtain h | h := hstatus <;> simp [Counted,h]
      simp [hb.touchpoints,hr]
  · cases h with
    | redacted h =>
      obtain ⟨g,hg,hlogs⟩ := h.logs
      rw [receivedLogs,hlogs,Option.toList_none,List.append_nil]
      exact hb.announced.trans (filter_map_redacts hg (fun st => decide (st = .received))
        (fun r => (redactsLog_fields hg r).2.2.1) s.logs).symm
    | captured e =>
      have ha := hb.announced
      rw [receivedLogs] at ha
      simp [receivedLogs,withNewLead,ha,settledLog,leadReceived]
    | attached | stopped =>
      have ha := hb.announced
      rw [receivedLogs] at ha
      simp [receivedLogs,withDuplicate,withTerminalLead,ha,settledLog]
    | blocked => simpa [receivedLogs,withBlockedLead] using hb.announced
    | orphaned r _ _ _ hstatus =>
      have ha := hb.announced
      rw [receivedLogs] at ha
      have hr : r.status ≠ .received := by
        obtain h | h := hstatus <;> simp [h]
      simp [receivedLogs,ha,hr]
  · have hknown : ∀ a ∈ before, ∃ l ∈ s.leads, l.id = a.leadId := by
      intro a ha
      have hm : some a.leadId ∈ (receivedLogs s).map IntakeEventLog.leadId := by
        rw [← hb.announced]
        exact List.mem_map_of_mem ha
      obtain ⟨r,hr,hlead⟩ := List.mem_map.mp hm
      obtain ⟨l,hl,hid,_⟩ := hc.logLead r (List.mem_of_mem_filter hr) a.leadId hlead
      exact ⟨l,hl,hid⟩
    cases h with
    | captured e =>
      rw [Option.toList_some,List.map_append]
      refine nodup_append_singleton hb.once ?_
      rw [List.mem_map]
      rintro ⟨a,ha,hid⟩
      obtain ⟨l,hl,hl'⟩ := hknown a ha
      exact hf.lead l hl (hl'.trans hid)
    | _ => simpa using hb.once

theorem books_of_reachable {w : World} (h : Reachable Step .empty w) :
    Books w.store w.received := by
  have hinv : Consistent w.store ∧ Books w.store w.received := by
    refine h.invariant (I := fun w => Consistent w.store ∧ Books w.store w.received)
      ⟨consistent_empty,books_empty⟩ ?_
    rintro w a w' ⟨hc,hb⟩ hs
    cases hs with
    | commit hf h =>
      have hchange := Op.change hf h
      exact ⟨hchange.consistent hf hc,hchange.books hf hc hb⟩
    | rollback => exact ⟨hc,hb⟩
  exact hinv.2

/-- In every committed state the intake ledger is in order. -/
theorem intake_ledger {w : World} (h : Reachable Step .empty w) : Ledger w := by
  have hb := books_of_reachable h
  refine ⟨(consistent_of_reachable h).slots,hb.settled,?_,List.Perm.of_eq hb.announced,hb.once⟩
  intro l _
  have hpairs := congrArg (List.filter fun p => decide (p.1 = some l.id)) hb.touchpoints
  rw [List.filter_map,List.filter_map,List.filter_filter] at hpairs
  have hsnd := congrArg (List.map Prod.snd) hpairs
  rw [List.map_map,List.map_map] at hsnd
  refine List.Perm.of_eq ?_
  simpa [touchpointsOf,captureLogsOf,Function.comp_def] using hsnd

end Reachable

def ledgerRun : List (Op × Fresh) :=
  let contact (pid text : String) := NormalisedChannelEvent.ofMessage 1 pid none (some "+49 151")
    none none text
  [(.runCapture (contact "a" "Need a quote"),.nth 1),
    (.runCapture (contact "b" "Any news?"),.nth 2),
    (.runCaptureMessage (.ofMessage 1 "c" none (some "+49 152") none none "hi")
      ⟨fun _ => .error .externalService,.ok none⟩,.nth 3),
    (.logUnroutableEvent "d" .whatsapp .null,.nth 4),
    (.runCapture (contact "a" "Need a quote"),.nth 5),
    (.eraseLeadByIdentity 1 (some "+49151") none "owner",.nth 6),
    (.runRetentionSweep ⟨730,90⟩,.nth 7)]

theorem intake_ledger_run :
    letI := Erasure.erasureRuntime
    (play .empty ledgerRun).store.logs.map (fun r => (r.platformEventId,r.status,r.leadId)) =
      [("a",.received,some 1),("b",.duplicate,some 1),
        ("c",.terminal .insufficientSignal,some 3),("d",.unroutable,none)] ∧
      Ledger (play .empty ledgerRun) := by
  let := Erasure.erasureRuntime
  exact ⟨by decide +kernel,intake_ledger (reachable_play _ _)⟩

end History
end LeadEngine
