import LeadEngine.History
import LeadEngine.MessageRoute

/-! Redelivery of an event that is linked to a lead: every write of it, whichever way the
second delivery goes, returns that lead and leaves the tables alone. -/
namespace LeadEngine
namespace History

open Table Interpreter Repository Deduplicator TwoStageFilter Pipeline Erasure
open TransitionSystem

section Redelivery

variable [Interpreter]

omit [Interpreter] in
theorem Consistent.redelivered {s : Store} (hc : Consistent s) {r : IntakeEventLog}
    (hr : r ∈ s.logs) {i : UUID} (hlink : r.leadId = some i) :
    ∃ l ∈ s.leads, l.id = i ∧ ∀ e : NormalisedChannelEvent,
      e.platformEventId = r.platformEventId → redelivered s e = .ok (s,⟨l,none⟩) := by
  obtain ⟨l,hl,hid,_⟩ := hc.logLead r hr i hlink
  refine ⟨l,hl,hid,fun e he => ?_⟩
  have hfind := getLeadByPlatformEventId_some hc.leadIds hc.slots hr hl (hid ▸ hlink)
  simp [Pipeline.redelivered,he,hfind]

/-- An event whose log row is linked to a lead is processed without a write and answered with
that lead, unless its message is halted before. -/
theorem redelivery_noop {w : World} (h : Reachable Step .empty w) {r : IntakeEventLog}
    (hr : r ∈ w.store.logs) {i : UUID} (hlink : r.leadId = some i) :
    ∃ l ∈ w.store.leads, l.id = i ∧ ∀ e : NormalisedChannelEvent,
      e.platformEventId = r.platformEventId → ∀ f : Fresh,
        runCapture w.store f e = .ok (w.store,⟨l,none⟩) ∧
        (∀ stage blockReason,
          createTerminalLead w.store f e stage blockReason = .ok (w.store,⟨l,none⟩)) ∧
        ∀ ans : Answers, runCaptureMessage w.store f e ans = .ok (w.store,⟨l,none⟩) ∨
          ∃ err, Halted e ans err ∧ runCaptureMessage w.store f e ans = .error err := by
  obtain ⟨l,hl,hid,hredelivered⟩ := (consistent_of_reachable h).redelivered hr hlink
  refine ⟨l,hl,hid,fun e he f => ?_⟩
  have hslot : SlotTaken w.store e.platformEventId := ⟨r,hr,he.symm⟩
  have hanswer := hredelivered e he
  refine ⟨?_,fun stage reason => ?_,fun ans => ?_⟩
  · rw [runCapture_taken hslot]
    exact hanswer
  · rw [createTerminalLead_taken hslot]
    exact hanswer
  · cases hroute : routeMessage e ans with
    | error err =>
      right
      exact ⟨err,routeMessage_error_iff.mp hroute,by simp [runCaptureMessage,hroute]⟩
    | ok route =>
      left
      have hevent := (routeMessage_event hroute).2.1
      have hslot' : SlotTaken w.store route.event.platformEventId := ⟨r,hr,by rw [hevent,he]⟩
      have hroute' := hredelivered route.event (by rw [hevent,he])
      simp [runCaptureMessage,hroute,Route.run_taken hslot',hroute']

def erasedGreeting : World :=
  play .empty [(.runCaptureMessage
    (.ofMessage 1 "wamid.1" none (some "+49 151") none none "hi")
    ⟨fun _ => .error .externalService,.ok none⟩,.nth 1),
    (.eraseLeadByIdentity 1 (some "+49151") none "dpo",.nth 2)]

end Redelivery

/-- The redelivery of the greeting as a lead returns the erased one. -/
theorem erased_greeting_redelivered :
    letI := erasureRuntime
    ∃ l, l.pipelineStage = .erased ∧ ∀ f, runCapture erasedGreeting.store f
      (.ofMessage 1 "wamid.1" (some "Bob") (some "+49 151") none none "my number") =
        .ok (erasedGreeting.store,⟨l,none⟩) := by
  let := erasureRuntime
  have hlog : ∃ r ∈ erasedGreeting.store.logs, r.platformEventId = "wamid.1" ∧
      r.leadId = some 1 := by
    decide +kernel
  have hstage : ∀ l ∈ erasedGreeting.store.leads, l.pipelineStage = .erased := by
    decide +kernel
  obtain ⟨r,hr,hpid,hlink⟩ := hlog
  obtain ⟨l,hl,_,hnoop⟩ := redelivery_noop (reachable_play _ _) hr hlink
  refine ⟨l,hstage l hl,fun f => ?_⟩
  exact (hnoop _ hpid.symm f).1

end History
end LeadEngine
