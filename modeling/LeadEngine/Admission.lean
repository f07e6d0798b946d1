import LeadEngine.History
import LeadEngine.MessageRoute

/-! Admission of events: when an operation, run alone on a reachable store, commits a new
event and when it runs into the unique indexes of `leads`. -/
namespace LeadEngine
namespace History

open Table Interpreter Repository Deduplicator TwoStageFilter Pipeline FileUpload LeadAds
open TransitionSystem

section Admission

variable [Interpreter]

/-- The operation violates no unique index, and commits a new event with its log row. -/
def Admitted (s : Store) (f : Fresh) (op : Op) : Prop :=
  (∀ index, op.exec s f ≠ .error (.database (.integrityError index))) ∧
    ∀ route, op.route = some route → ¬ SlotTaken s route.event.platformEventId →
      ∃ s' received, op.exec s f = .ok (s',received) ∧
        SlotTaken s' route.event.platformEventId

theorem routeMessage_raised {e : NormalisedChannelEvent} {ans : Answers} {err : MessageError}
    (h : routeMessage e ans = .error err) : messageRaised err = .message err := by
  cases routeMessage_error_iff.mp h <;> rfl

omit [Interpreter] in
theorem fetchFields_raised {env : LeadAdEnv} {job : LeadAdPayload} {err : LeadAdError}
    (h : fetchFields env job = .raised err) : leadAdRaised err = .leadAd err := by
  unfold fetchFields at h
  repeat' split at h
  all_goals first | (cases h; rfl) | cases h

/-- An operation that processes no event never fails in the database. -/
theorem Op.exec_outside {op : Op} (h : op.route = none) (s : Store) (f : Fresh)
    (err : CaptureError) : op.exec s f ≠ .error (.database err) := by
  cases op with
  | runCapture | createTerminalLead => simp [Op.route] at h
  | runCaptureMessage e ans =>
    cases hr : routeMessage e ans with
    | ok r => simp [Op.route,hr,Except.toOption] at h
    | error err' =>
      simp [Op.exec,Pipeline.runCaptureMessage,hr,returned,routeMessage_raised hr]
  | inlineRow t row =>
    cases he : Normaliser.normaliseFileRow row t with
    | error err' => simp [Op.exec,FileUpload.inlineRow,he,returned,uploadRaised]
    | ok e =>
      simp [Op.exec,FileUpload.inlineRow,he,returned,
        storeRow_blocked (lacksIdentity_of_rowRoute he h)]
  | batchRow t row =>
    cases he : Normaliser.normaliseFileRow row t with
    | error err' => simp [Op.exec,FileUpload.batchRow,he,returned,uploadRaised]
    | ok e =>
      have hid : LacksIdentity e := lacksIdentity_of_rowRoute he h
      simp [Op.exec,FileUpload.batchRow,he,returned,storeRow_blocked hid]
  | runLeadAdCapture env job =>
    cases hfetch : fetchFields env job with
    | fetched fieldData => simp [Op.route,hfetch] at h
    | skipped | failed => simp [Op.exec,LeadAds.runLeadAdCapture,hfetch,Except.mapError]
    | raised err' =>
      simp [Op.exec,LeadAds.runLeadAdCapture,hfetch,Except.mapError,fetchFields_raised hfetch]
  | _ => simp [Op.exec]

omit [Interpreter] in
theorem redelivered_ne_integrityError (s : Store) (e : NormalisedChannelEvent)
    (index : LeadIndex) : redelivered s e ≠ .error (.integrityError index) := by
  unfold redelivered
  split
  · rename_i err herr
    have h := (scalarOneOrNone_error herr).1
    simp [h]
  · simp
  · simp

theorem withNewLead_taken (s : Store) (f : Fresh) (e : NormalisedChannelEvent) :
    SlotTaken (withNewLead s f e) e.platformEventId :=
  ⟨settledLog f e f.leadId .received,by simp [withNewLead],rfl⟩

omit [Interpreter] in
theorem withDuplicate_taken (s : Store) (f : Fresh) (e : NormalisedChannelEvent) (l : Lead) :
    SlotTaken (withDuplicate s f e l) e.platformEventId :=
  ⟨settledLog f e l.id .duplicate,by simp [withDuplicate],rfl⟩

theorem withTerminalLead_taken (s : Store) (f : Fresh) (e : NormalisedChannelEvent)
    (stage : TerminalStage) (reason : Option String) :
    SlotTaken (withTerminalLead s f e stage reason) e.platformEventId :=
  ⟨settledLog f e f.leadId (.terminal stage),by simp [withTerminalLead],rfl⟩

theorem runCapture_commits {s : Store} {f : Fresh} {e : NormalisedChannelEvent} (hf : f.For s)
    (hi : Identities s.leads) (hslot : ¬ SlotTaken s e.platformEventId) :
    ∃ s' c, runCapture s f e = .ok (s',c) ∧ SlotTaken s' e.platformEventId := by
  obtain ⟨found,hdup⟩ := findDuplicate_ok hi e.tenantId e
  cases found with
  | none => exact ⟨_,_,runCapture_new hf hslot hdup,withNewLead_taken s f e⟩
  | some l => exact ⟨_,_,runCapture_duplicate hf hslot hdup,withDuplicate_taken s f e l⟩

/-- A write that is admitted: no index fires, and a new event is committed. -/
theorem admitted_of_commits {s : Store} {f : Fresh} {op : Op} {route : Route}
    (hroute : op.route = some route)
    (hcommit : ¬ SlotTaken s route.event.platformEventId →
      ∃ s' c, route.run s f = .ok (s',c) ∧ SlotTaken s' route.event.platformEventId) :
    Admitted s f op := by
  rw [Admitted,Op.exec_route hroute]
  constructor
  · intro index
    by_cases hslot : SlotTaken s route.event.platformEventId
    · rw [Route.run_taken hslot]
      have hne := redelivered_ne_integrityError s route.event index
      cases hr : redelivered s route.event with
      | error err =>
        rw [hr] at hne
        simpa [returned] using hne
      | ok result => simp [returned]
    · obtain ⟨s',c,hrun,_⟩ := hcommit hslot
      simp [hrun,returned]
  · intro route' hroute' hslot
    obtain rfl : route = route' := by simpa [hroute] using hroute'
    obtain ⟨s',c,hrun,htaken⟩ := hcommit hslot
    exact ⟨s',c.received,by simp [hrun,returned],htaken⟩

/-- An operation run alone on a reachable store is admitted exactly when it is not the write
of a terminal lead, for a new event, whose phone a lead of the tenant has already. -/
theorem admitted_iff {w : World} (h : Reachable Step .empty w) {f : Fresh}
    (hf : f.For w.store) (op : Op) :
    Admitted w.store f op ↔ ∀ e stage reason, op.route = some (.terminal e stage reason) →
      SlotTaken w.store e.platformEventId ∨ PhoneFree w.store e := by
  have hi := (consistent_of_reachable h).identities
  constructor
  · rintro ⟨hindex,_⟩ e stage reason hroute
    by_contra hno
    obtain ⟨hslot,hfree⟩ := not_or.mp hno
    refine hindex .uqLeadTenantPhone ?_
    rw [Op.exec_route hroute,Route.run,createTerminalLead_conflict hslot hfree]
    rfl
  · intro hguard
    cases hroute : op.route with
    | none =>
      refine ⟨fun index => Op.exec_outside hroute _ _ _,?_⟩
      intro route hroute'
      simp [hroute] at hroute'
    | some route =>
      refine admitted_of_commits hroute fun hslot => ?_
      cases route with
      | capture e => exact runCapture_commits hf hi hslot
      | terminal e stage reason =>
        obtain hslot' | hfree := hguard e stage reason hroute
        · exact absurd hslot' hslot
        · exact ⟨_,_,createTerminalLead_new hf hslot hfree,
            withTerminalLead_taken w.store f e stage reason⟩

end Admission

def greeting (platformEventId : String) : Op :=
  .runCaptureMessage (.ofMessage 1 platformEventId none (some "+49 152") none none "hi")
    ⟨fun _ => .error .externalService,.ok none⟩

/-- The second greeting of a sender violates the phone index. -/
theorem second_greeting_conflicts :
    letI := Interpreter.ascii id
    ∃ w, Reachable Step .empty w ∧ (Fresh.nth 2).For w.store ∧
      (greeting "b").exec w.store (.nth 2) =
        .error (.database (.integrityError .uqLeadTenantPhone)) ∧
      ¬ Admitted w.store (.nth 2) (greeting "b") := by
  let := Interpreter.ascii id
  have hraise : (greeting "b").exec (play .empty [(greeting "a",.nth 1)]).store (.nth 2) =
      .error (.database (.integrityError .uqLeadTenantPhone)) :=
    raisedBy_eq_some.mp (by decide +kernel)
  refine ⟨play .empty [(greeting "a",.nth 1)],reachable_play _ _,by decide +kernel,hraise,?_⟩
  exact fun hadmitted => hadmitted.1 _ hraise

/-- The first greeting of another sender is admitted. -/
theorem first_greeting_admitted :
    letI := Interpreter.ascii id
    Admitted (play .empty [(greeting "a",.nth 1)]).store (.nth 2)
      (.createTerminalLead (.ofMessage 1 "b" none (some "+49 153") none none "ok")
        .insufficientSignal none) := by
  let := Interpreter.ascii id
  refine (admitted_iff (reachable_play _ _) (by decide +kernel) _).mpr ?_
  rintro e stage reason ⟨⟩
  right
  rintro p ⟨⟩ l hl _
  have hleads : ((play .empty [(greeting "a",.nth 1)]).store.leads.map Lead.phone) =
      [some "+49152"] := by decide +kernel
  have hphone : l.phone ∈ [some "+49152"] := hleads ▸ List.mem_map_of_mem hl
  rw [List.mem_singleton.mp hphone]
  decide +kernel

end History
end LeadEngine
