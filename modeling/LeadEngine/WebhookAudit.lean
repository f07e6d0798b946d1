import LeadEngine.Admission
import LeadEngine.WebhookFanOut

/-! The audit trail of acknowledged payloads: which events have a row in the intake log once
their job has returned or raised. -/
namespace LeadEngine
namespace Webhook

open Fallible Json Interpreter Channels LeadAds Normaliser Repository Deduplicator
open TwoStageFilter Pipeline History TransitionSystem

section Slots

variable {s : Store} {id : String}

theorem slotTaken_append {s' : Store} {r : IntakeEventLog} (h : s'.logs = s.logs ++ [r]) :
    SlotTaken s' id ↔ SlotTaken s id ∨ id = r.platformEventId := by
  simp only [SlotTaken,h,List.mem_append,List.mem_singleton,or_and_right,exists_or,
    exists_eq_left]
  exact or_congr_right eq_comm

theorem slotTaken_insertLog {r : IntakeEventLog} :
    SlotTaken (insertLog s r) id ↔ SlotTaken s id ∨ id = r.platformEventId := by
  unfold insertLog
  split_ifs with hslot
  · constructor
    · exact .inl
    · rintro (h | rfl)
      · exact h
      · exact hslot
  · exact slotTaken_append rfl

variable [Interpreter] {f : Fresh}

def Commits (s : Store) : Route → Prop
  | .capture _ => True
  | .terminal e _ _ => PhoneFree s e

def afterRoute (s : Store) (f : Fresh) (route : Route) : Store :=
  match route.run s f with
  | .ok (s',_) => s'
  | .error _ => s

/-- The write of an event takes its slot unless it runs into the phone index. -/
theorem slotTaken_afterRoute (hf : f.For s) (hi : Identities s.leads) (route : Route) :
    SlotTaken (afterRoute s f route) id ↔
      SlotTaken s id ∨ id = route.event.platformEventId ∧ Commits s route := by
  by_cases hslot : SlotTaken s route.event.platformEventId
  · have hsame : afterRoute s f route = s := by
      rw [afterRoute,Route.run_taken hslot]
      cases hr : redelivered s route.event with
      | error err => rfl
      | ok result => exact (redelivered_ok (c:=result.2) hr).1
    rw [hsame]
    constructor
    · exact .inl
    · rintro (h | ⟨rfl,_⟩)
      · exact h
      · exact hslot
  cases route with
  | capture e =>
    replace hslot : ¬ SlotTaken s e.platformEventId := hslot
    obtain ⟨found,hdup⟩ := findDuplicate_ok hi e.tenantId e
    cases found with
    | none =>
      have hafter : afterRoute s f (.capture e) = withNewLead s f e := by
        simp [afterRoute,Route.run,runCapture_new hf hslot hdup]
      rw [hafter,slotTaken_append rfl]
      simp [settledLog,pendingLog,Commits,Route.event]
    | some l =>
      have hafter : afterRoute s f (.capture e) = withDuplicate s f e l := by
        simp [afterRoute,Route.run,runCapture_duplicate hf hslot hdup]
      rw [hafter,slotTaken_append rfl]
      simp [settledLog,pendingLog,Commits,Route.event]
  | terminal e stage reason =>
    replace hslot : ¬ SlotTaken s e.platformEventId := hslot
    by_cases hfree : PhoneFree s e
    · have hafter : afterRoute s f (.terminal e stage reason) =
          withTerminalLead s f e stage reason := by
        simp [afterRoute,Route.run,createTerminalLead_new hf hslot hfree]
      rw [hafter,slotTaken_append rfl]
      simp [settledLog,pendingLog,Commits,hfree,Route.event]
    · have hafter : afterRoute s f (.terminal e stage reason) = s := by
        simp [afterRoute,Route.run,createTerminalLead_conflict hslot hfree]
      simp [hafter,Commits,hfree]

end Slots

section Jobs

variable [Interpreter] {env : Endpoint} {payload : Json} {job : Job}

/-- The steps of a job let its event through to the intake log: the filter, the merge and the
reading of the config do not raise and a terminal lead has a free phone; for a form, the Graph
API was reached and answered, with the fields or with an error status. -/
def Clears (s : Store) (jobEnv : JobEnv) : Job → Prop
  | .runLeadAdCapture form => fetchFields jobEnv.leadAds form = .failed ∨
      ∃ fieldData, fetchFields jobEnv.leadAds form = .fetched fieldData
  | job => ∀ e, job.event = some e → (∀ err, ¬ Halted e jobEnv.answers err) ∧
      ∀ e' stage reason, routeMessage e jobEnv.answers = .ok (.terminal e' stage reason) →
        PhoneFree s e'

theorem after_message (s : Store) (f : Fresh) (jobEnv : JobEnv) {t c : UUID}
    {e : NormalisedChannelEvent} (hread : readEvent payload t (some c) = .ok (some e)) :
    (∃ err, Halted e jobEnv.answers err ∧ Job.after s f jobEnv (.runLeadCapture t c payload) = s) ∨
      ∃ route, routeMessage e jobEnv.answers = .ok route ∧
        Job.after s f jobEnv (.runLeadCapture t c payload) = afterRoute s f route := by
  cases hroute : routeMessage e jobEnv.answers with
  | error err =>
    refine .inl ⟨err,routeMessage_error_iff.mp hroute,?_⟩
    simp [Job.after,Job.run,Webhook.runLeadCapture,hread,runCaptureMessage,hroute,
      Except.mapError,Except.map]
  | ok route =>
    refine .inr ⟨route,rfl,?_⟩
    simp only [Job.after,Job.run,Webhook.runLeadCapture,hread,runCaptureMessage,hroute,afterRoute]
    cases route.run s f <;> rfl

theorem after_unread {s : Store} {f : Fresh} {jobEnv : JobEnv} {t c : UUID}
    (hread : ∀ e, readEvent payload t (some c) ≠ .ok (some e)) :
    Job.after s f jobEnv (.runLeadCapture t c payload) = s := by
  cases hr : readEvent payload t (some c) with
  | error err => simp [Job.after,Job.run,Webhook.runLeadCapture,hr]
  | ok event =>
    cases event with
    | none => simp [Job.after,Job.run,Webhook.runLeadCapture,hr]
    | some e => exact absurd hr (hread e)

theorem slotTaken_after_message {s : Store} {f : Fresh} (hf : f.For s) (hi : Identities s.leads)
    (jobEnv : JobEnv) {t c : UUID} {e : NormalisedChannelEvent}
    (hread : readEvent payload t (some c) = .ok (some e)) {id : String} :
    SlotTaken (Job.after s f jobEnv (.runLeadCapture t c payload)) id ↔
      SlotTaken s id ∨ id = e.platformEventId ∧
        Clears s jobEnv (.runLeadCapture t c payload) := by
  have hevent : ∀ {e'}, Job.event (.runLeadCapture t c payload) = some e' ↔ e = e' := by
    simp [Job.event,hread,Except.toOption]
  obtain ⟨err,hhalted,hafter⟩ | ⟨route,hroute,hafter⟩ := after_message s f jobEnv hread
  · rw [hafter]
    refine ⟨.inl,fun h => h.resolve_right fun hno => ?_⟩
    exact (hno.2 e (hevent.mpr rfl)).1 err hhalted
  · rw [hafter,slotTaken_afterRoute hf hi,(routeMessage_event hroute).2.1]
    apply or_congr_right
    apply and_congr_right
    intro _
    constructor
    · intro hcommits e' he'
      obtain rfl := hevent.mp he'
      refine ⟨fun err herr => ?_,fun e' stage reason hterminal => ?_⟩
      · rw [routeMessage_error_iff.mpr herr] at hroute
        cases hroute
      · obtain rfl : route = .terminal e' stage reason := by simpa [hroute] using hterminal
        exact hcommits
    · intro hclears
      cases route with
      | capture => trivial
      | terminal e' stage reason => exact (hclears e (hevent.mpr rfl)).2 e' stage reason hroute

theorem slotTaken_after_leadAd {s : Store} {f : Fresh} (hf : f.For s) (hi : Identities s.leads)
    (jobEnv : JobEnv) (form : LeadAdPayload) {id : String} :
    SlotTaken (Job.after s f jobEnv (.runLeadAdCapture form)) id ↔
      SlotTaken s id ∨ id = leadAdEventId form.leadgenId ∧
        Clears s jobEnv (.runLeadAdCapture form) := by
  rw [Clears]
  cases hfetch : fetchFields jobEnv.leadAds form with
  | skipped =>
    have hafter : Job.after s f jobEnv (.runLeadAdCapture form) = s := by
      simp [Job.after,Job.run,LeadAds.runLeadAdCapture,hfetch,Except.mapError,Except.map]
    simp [hafter]
  | raised err =>
    have hafter : Job.after s f jobEnv (.runLeadAdCapture form) = s := by
      simp [Job.after,Job.run,LeadAds.runLeadAdCapture,hfetch,Except.mapError,Except.map]
    simp [hafter]
  | failed =>
    have hafter : Job.after s f jobEnv (.runLeadAdCapture form) =
        logFailedIntakeEvent s f (leadAdEventId form.leadgenId) .facebookLeadAds
          (.obj (form.rawPayload.getD [])) (some form.tenantId) := by
      simp [Job.after,Job.run,LeadAds.runLeadAdCapture,hfetch,Except.mapError,Except.map]
    rw [hafter,logFailedIntakeEvent,slotTaken_insertLog]
    simp
  | fetched fieldData =>
    have hafter : Job.after s f jobEnv (.runLeadAdCapture form) =
        afterRoute s f (.capture (leadAdEvent jobEnv.leadAds form fieldData)) := by
      simp only [Job.after,Job.run,LeadAds.runLeadAdCapture,hfetch,afterRoute,Route.run]
      cases runCapture s f (leadAdEvent jobEnv.leadAds form fieldData) <;> rfl
    rw [hafter,slotTaken_afterRoute hf hi]
    simp [Commits,Route.event,leadAdEvent,normaliseLeadAdForm]

/-- The events with a log row after a job are those that had one before it, and the event it
is about if its steps let it through. -/
theorem slotTaken_after {s : Store} {f : Fresh} (hf : f.For s) (hi : Identities s.leads)
    (jobEnv : JobEnv) (job : Job) {id : String} :
    SlotTaken (job.after s f jobEnv) id ↔
      SlotTaken s id ∨ (∃ t, job.takes = some (id,t)) ∧ Clears s jobEnv job := by
  cases job with
  | runLeadAdCapture form =>
    rw [slotTaken_after_leadAd hf hi]
    simp [Job.takes,eq_comm]
  | runLeadCapture t c raw =>
    by_cases hread : ∃ e, readEvent raw t (some c) = .ok (some e)
    · obtain ⟨e,hread⟩ := hread
      rw [slotTaken_after_message hf hi jobEnv hread]
      simp [Job.takes,Job.event,hread,Except.toOption,eq_comm]
    · have htakes : (Job.runLeadCapture t c raw).takes = none := by
        apply Option.map_eq_none_iff.mpr
        apply Option.eq_none_iff_forall_ne_some.mpr
        exact fun e he => hread ⟨e,toOption_join_eq_some.mp he⟩
      rw [after_unread fun e he => hread ⟨e,he⟩,htakes]
      simp

/-- Every event of the payload has a row in the intake log. -/
def Audited (payload : Json) (s : Store) : Prop :=
  ∀ i ∈ items payload, ∀ id, i.eventId = some id → SlotTaken s id

/-- After the job of an acknowledged payload every event in it has a log row exactly when each
had one before, or is the one in first place and the steps of the job let it through. -/
theorem audited_iff {w : World} (hw : Reachable Step .empty w) {f : Fresh} (hf : f.For w.store)
    {body : Bytes} {signature : String} (hload : env.loads body = .ok payload)
    (h : receiveWebhook env body signature = .ok (.received job)) (jobEnv : JobEnv) :
    Audited payload (job.after w.store f jobEnv) ↔ ∀ i ∈ items payload, ∀ id,
      i.eventId = some id → SlotTaken w.store id ∨
        firstId payload = some id ∧ Clears w.store jobEnv job := by
  have hi := (consistent_of_reachable hw).identities
  obtain ⟨_,_,c,_,htakes⟩ := (routed_of_webhook hload h).takes_eq
  have hfirst : ∀ {id}, (∃ t, job.takes = some (id,t)) ↔ firstId payload = some id := by
    simp [htakes]
  simp only [Audited,slotTaken_after hf hi,hfirst]

end Jobs

def outage : JobEnv := ⟨⟨fun _ => .error .externalService,.ok none⟩,failingGraph 0⟩

/-- While the classifier is down an acknowledged message leaves no log row. -/
theorem outage_leaves_no_row :
    letI := Interpreter.ascii id
    ∃ job, receiveWebhook (twoNumbers single) [] "sha256=00" = .ok (.received job) ∧
      (items single).map Item.eventId = [some "wamid.1"] ∧
      (job.after World.empty.store (.nth 1) outage).logs.length = 0 ∧
      ¬ Audited single (job.after World.empty.store (.nth 1) outage) := by
  let := Interpreter.ascii id
  have hitems : items single = [⟨some (.str "p1"),some "wamid.1"⟩] := rfl
  have hlogs : ((Job.runLeadCapture 1 11 single).after World.empty.store (.nth 1)
      outage).logs.length = 0 := by decide +kernel
  refine ⟨_,rfl,by rw [hitems]; rfl,hlogs,fun haudited => ?_⟩
  obtain ⟨r,hr,_⟩ := haudited ⟨some (.str "p1"),some "wamid.1"⟩ (by simp [hitems]) _ rfl
  rw [List.length_eq_zero_iff.mp hlogs] at hr
  cases hr

def greetingPayload : Json := whatsappPayload [textEntry "p1" "wamid.1" "49151" "hi"]

theorem greeting_audited :
    letI := Interpreter.ascii id
    ∃ job, receiveWebhook (twoNumbers greetingPayload) [] "sha256=00" = .ok (.received job) ∧
      Audited greetingPayload (job.after World.empty.store (.nth 1) outage) := by
  let := Interpreter.ascii id
  have hitems : items greetingPayload = [⟨some (.str "p1"),some "wamid.1"⟩] := rfl
  have hreceived : receiveWebhook (twoNumbers greetingPayload) [] "sha256=00" =
      .ok (.received (.runLeadCapture 1 11 greetingPayload)) := rfl
  refine ⟨_,hreceived,(audited_iff .refl (by decide +kernel) rfl hreceived outage).mpr ?_⟩
  intro i hi id hid
  rw [hitems] at hi
  obtain rfl := List.mem_singleton.mp hi
  refine .inr ⟨by rw [← hid]; decide +kernel,fun e he => ?_⟩
  have hevent : (Job.runLeadCapture 1 11 greetingPayload).event.map
      NormalisedChannelEvent.rawText = some (some "hi") := by decide +kernel
  have htext : e.rawText = some "hi" := by simpa [he] using hevent
  have hnoise : isStage1Noise "hi" = true := by decide +kernel
  have hroute : routeMessage e outage.answers = .ok (.terminal e .insufficientSignal none) := by
    simp [routeMessage,runFilter,htext,hnoise]
  refine ⟨fun err herr => ?_,fun e' stage reason _ => by simp [PhoneFree,World.empty,Store.empty]⟩
  rw [routeMessage_error_iff.mpr herr] at hroute
  cases hroute

end Webhook
end LeadEngine
