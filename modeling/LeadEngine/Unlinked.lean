import LeadEngine.Ledger

/-! Slots without a lead: what becomes of an event whose id was first written by
`log_unroutable_event` or `log_failed_intake_event`. -/
namespace LeadEngine
namespace History

open Table Interpreter Repository Pipeline TransitionSystem

section Unlinked

variable [Interpreter]

omit [Interpreter] in
/-- The event's slot is taken, and by no row with a lead. -/
structure Unlinked (s : Store) (platformEventId : String) : Prop where
  taken : SlotTaken s platformEventId
  leadless : ∀ r ∈ s.logs, r.platformEventId = platformEventId → r.leadId = none

omit [Interpreter] in
theorem unlinked_of_mem {s : Store} (hc : Consistent s) {r : IntakeEventLog} (hr : r ∈ s.logs)
    (hlead : r.leadId = none) : Unlinked s r.platformEventId where
  taken := ⟨r,hr,rfl⟩
  leadless := by
    intro r' hr' hpid
    rw [List.inj_on_of_nodup_map hc.slots hr' hr hpid]
    exact hlead

theorem Unlinked.change {s s' : Store} {f : Fresh} {received : Option LeadReceived}
    {pid : String} (h : Unlinked s pid) (hs : Change s f s' received) :
    Unlinked s' pid := by
  obtain ⟨r,hr,hpid⟩ := h.taken
  obtain ⟨g,hg,hlogs⟩ | ⟨x,_,hslot,_,hlogs⟩ := hs.logs
  · constructor
    · exact ⟨g r,by rw [hlogs]; exact List.mem_map_of_mem hr,
        (redactsLog_fields hg r).2.1.trans hpid⟩
    · intro r' hr' hpid'
      rw [hlogs] at hr'
      obtain ⟨r₀,hr₀,rfl⟩ := List.mem_map.mp hr'
      obtain ⟨_,hkeep,hlead,_⟩ := redactsLog_fields hg r₀
      rw [hlead]
      exact h.leadless r₀ hr₀ (hkeep.symm.trans hpid')
  · constructor
    · exact ⟨r,by rw [hlogs]; exact List.mem_append_left _ hr,hpid⟩
    · intro r' hr' hpid'
      rw [hlogs] at hr'
      obtain hr' | hr' := List.mem_append.mp hr'
      · exact h.leadless r' hr' hpid'
      · obtain rfl := List.mem_singleton.mp hr'
        exact absurd ⟨r,hr,hpid.trans hpid'.symm⟩ hslot

theorem Unlinked.reachable {w w' : World} {pid : String} (h : Unlinked w.store pid)
    (hw : Reachable Step w w') : Unlinked w'.store pid := by
  refine hw.invariant (I := fun w => Unlinked w.store pid) h ?_
  intro w a w' hu hs
  cases hs with
  | commit hf hexec => exact hu.change (Op.change hf hexec)
  | rollback => exact hu

theorem Unlinked.exec {s : Store} {pid : String} (h : Unlinked s pid) {op : Op} {route : Route}
    (hroute : op.route = some route) (hpid : route.event.platformEventId = pid) (f : Fresh) :
    op.exec s f = .error (.database (.noLinkedLead pid)) := by
  have htaken : SlotTaken s route.event.platformEventId := hpid ▸ h.taken
  have hnone : getLeadByPlatformEventId s pid = .ok none := getLeadByPlatformEventId_none h.leadless
  rw [Op.exec_route hroute,Route.run_taken htaken,redelivered,hpid,hnone]
  rfl

/-- Once an unroutable or failed attempt has taken an event's slot, then at any later time
every delivery of the event fails the assertion, and no lead is linked to the event. -/
theorem unlinked_slot_blocks {w w' : World} (h : Reachable Step .empty w) {r : IntakeEventLog}
    (hr : r ∈ w.store.logs) (hstatus : r.status = .unroutable ∨ r.status = .failed)
    (hw : Reachable Step w w') :
    (∀ (op : Op) (route : Route) (f : Fresh), op.route = some route →
      route.event.platformEventId = r.platformEventId →
      op.exec w'.store f = .error (.database (.noLinkedLead r.platformEventId))) ∧
    ∀ r' ∈ w'.store.logs, r'.platformEventId = r.platformEventId → r'.leadId = none := by
  have hc := consistent_of_reachable h
  have hlead := ((books_of_reachable h).settled r hr).2.mpr hstatus
  have hu := (unlinked_of_mem hc hr hlead).reachable hw
  exact ⟨fun op route f hroute hpid => hu.exec hroute hpid f,hu.leadless⟩

end Unlinked

/-- An event that arrives before its connection exists, and once more after it does. -/
def strandedOp : Op :=
  .runCapture (.ofMessage 1 "wamid.1" none (some "+49 152") none none "Need a quote")

def strandedRun : List (Op × Fresh) := [(.logUnroutableEvent "wamid.1" .whatsapp .null,.nth 1)]

theorem unroutable_event_blocks :
    letI := Interpreter.ascii id
    ∃ w, Reachable Step .empty w ∧ (Fresh.nth 2).For w.store ∧
      (∃ r ∈ w.store.logs, r.platformEventId = "wamid.1" ∧ r.status = .unroutable ∧
        r.leadId = none) ∧
      strandedOp.exec w.store (.nth 2) = .error (.database (.noLinkedLead "wamid.1")) := by
  let := Interpreter.ascii id
  exact ⟨play .empty strandedRun,reachable_play _ _,by decide +kernel,by decide +kernel,
    raisedBy_eq_some.mp (by decide +kernel)⟩

/-- Neither a second try nor a later one links the event. -/
theorem stranded_for_good :
    letI := Interpreter.ascii id
    let retried := play (play .empty strandedRun) [(strandedOp,.nth 2)]
    (∀ (op : Op) (route : Route) (f : Fresh), op.route = some route →
      route.event.platformEventId = "wamid.1" →
      op.exec retried.store f = .error (.database (.noLinkedLead "wamid.1"))) ∧
      ∀ r' ∈ retried.store.logs, r'.platformEventId = "wamid.1" → r'.leadId = none := by
  let := Interpreter.ascii id
  have hr : (⟨1,none,none,"wamid.1",.whatsapp,.unroutable,.payload .null,1⟩ : IntakeEventLog) ∈
      (play .empty strandedRun).store.logs := by
    simp [play,strandedRun,Op.tried,Op.exec,Repository.logUnroutableEvent,insertLog,SlotTaken,
      World.empty,Store.empty,Fresh.nth,Fresh.for_iff]
  exact unlinked_slot_blocks (reachable_play _ _) hr (Or.inl rfl) (reachable_play _ _)

end History
end LeadEngine
