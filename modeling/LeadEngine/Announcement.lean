import LeadEngine.History
import LeadEngine.MessageRoute

/-! Announcements of messages: which contacts the runs of `run_capture_message` announce
with a `LeadReceived`, and when an earlier row of the same sender keeps a lead back. -/
namespace LeadEngine
namespace History

open Table Interpreter Repository Deduplicator TwoStageFilter Pipeline TransitionSystem

section Runs

variable [Interpreter]

def MessageStep (w : World) (a : Attempt) (w' : World) : Prop :=
  (∃ e ans, a.op = .runCaptureMessage e ans) ∧ Step w a w'

/-- The attempt takes the LEAD path with its pre-flight passed, for a new event of the
sender's phone, and is committed. -/
structure LeadPath (w : World) (a : Attempt) (enriched : NormalisedChannelEvent) (p : String) :
    Prop where
  commits : a.commits = true
  slot : ¬ SlotTaken w.store enriched.platformEventId
  routed : ∃ e ans, a.op = .runCaptureMessage e ans ∧ truthy e.phone = some p ∧
    routeMessage e ans = .ok (.capture enriched)

/-- A `LeadReceived` was returned for a lead of the tenant stored under the phone. -/
def Announced (w : World) (tenantId : UUID) (p : String) : Prop :=
  ∃ a ∈ w.received, a.tenantId = tenantId ∧ ∃ l ∈ w.store.leads, l.id = a.leadId ∧
    l.tenantId = tenantId ∧ l.phone = some (normalisePhone p)

/-- Every message committed as a lead has been announced under its sender's phone. -/
def AllAnnounced (tr : List (Transition World Attempt)) (w : World) : Prop :=
  ∀ t ∈ tr, ∀ enriched p, LeadPath t.1 t.2.1 enriched p → Announced w enriched.tenantId p

/-- No stored row hides the message: a lead under its phone is itself a captured one, and
where no lead has its phone, none matches its email or its name and location either. -/
def Unhidden (w : World) (a : Attempt) : Prop :=
  ∀ enriched p, LeadPath w a enriched p →
    (∀ l ∈ w.store.leads, l.tenantId = enriched.tenantId →
      l.phone = some (normalisePhone p) → l.pipelineStage = .captured) ∧
    ((∀ l ∈ w.store.leads, l.tenantId = enriched.tenantId →
      l.phone ≠ some (normalisePhone p)) →
      ∀ l ∈ w.store.leads, ¬ Matches enriched.tenantId enriched l)

structure Heard (w : World) : Prop where
  captured : ∀ l ∈ w.store.leads, l.pipelineStage = .captured →
    ∃ a ∈ w.received, a.leadId = l.id ∧ a.tenantId = l.tenantId
  announced : ∀ a ∈ w.received, ∃ l ∈ w.store.leads, l.id = a.leadId ∧
    l.pipelineStage = .captured

theorem LeadPath.route {w : World} {a : Attempt} {enriched : NormalisedChannelEvent} {p : String}
    (h : LeadPath w a enriched p) : a.op.route = some (.capture enriched) := by
  obtain ⟨e,ans,hop,_,hroute⟩ := h.routed
  simp [hop,Op.route,hroute,Except.toOption]

theorem LeadPath.storedPhone {w : World} {a : Attempt} {enriched : NormalisedChannelEvent}
    {p : String} (h : LeadPath w a enriched p) :
    storedPhone enriched = some (normalisePhone p) := by
  obtain ⟨e,ans,_,hp,hroute⟩ := h.routed
  have hphone : truthy enriched.phone = some p := (routeMessage_event hroute).2.2 p hp
  rw [Deduplicator.storedPhone,hphone]
  rfl

theorem MessageStep.ran {w w' : World} {a : Attempt} (h : MessageStep w a w')
    (hcommits : a.commits = true) : ∃ route s received, a.op.route = some route ∧
      a.fresh.For w.store ∧ Ran w.store a.fresh route s received ∧
      w' = ⟨s,w.received ++ received.toList⟩ := by
  obtain ⟨⟨e,ans,hop⟩,hs⟩ := h
  cases hs with
  | rollback => simp at hcommits
  | @commit op f s received hf h =>
    obtain rfl : op = .runCaptureMessage e ans := hop
    cases hroute : routeMessage e ans with
    | error err => simp [Op.exec,Pipeline.runCaptureMessage,hroute,returned] at h
    | ok route =>
      have hr : (Op.runCaptureMessage e ans).route = some route := by
        simp [Op.route,hroute,Except.toOption]
      exact ⟨route,s,received,hr,hf,Op.ran hf hr h,rfl⟩

theorem Announced.mono {w : World} {t : UUID} {p : String} (h : Announced w t p)
    {leads : List Lead} {received : List LeadReceived} {s : Store}
    (hleads : s.leads = w.store.leads ++ leads) :
    Announced ⟨s,w.received ++ received⟩ t p := by
  obtain ⟨a,ha,hat,l,hl,hid,ht,hp⟩ := h
  exact ⟨a,List.mem_append_left _ ha,hat,l,by rw [hleads]; exact List.mem_append_left _ hl,hid,ht,
    hp⟩

theorem Announced.step {w w' : World} {a : Attempt} (hs : MessageStep w a w') {t : UUID}
    {p : String} (h : Announced w t p) : Announced w' t p := by
  cases hcommits : a.commits with
  | true =>
    obtain ⟨_,s,received,_,_,hran,rfl⟩ := hs.ran hcommits
    obtain ⟨leads,hleads⟩ := hran.added.grows.1
    exact h.mono hleads
  | false =>
    cases hs.2 with
    | commit => simp at hcommits
    | rollback => exact h

omit [Interpreter] in
theorem heard_empty : Heard .empty :=
  ⟨by simp [World.empty,Store.empty],by simp [World.empty]⟩

theorem Heard.step {w w' : World} {a : Attempt} (h : Heard w) (hs : MessageStep w a w') :
    Heard w' := by
  cases hcommits : a.commits with
  | false =>
    cases hs.2 with
    | commit => simp at hcommits
    | rollback => exact h
  | true =>
    obtain ⟨_,s,received,_,_,hran,rfl⟩ := hs.ran hcommits
    cases hran with
    | redelivered | attached =>
      exact ⟨by simpa [withDuplicate] using h.captured,by simpa [withDuplicate] using h.announced⟩
    | captured e =>
      constructor
      · intro l hl hstage
        obtain hl | hl := List.mem_append.mp hl
        · obtain ⟨x,hx,hid⟩ := h.captured l hl hstage
          exact ⟨x,List.mem_append_left _ hx,hid⟩
        · obtain rfl := List.mem_singleton.mp hl
          exact ⟨leadReceived a.fresh e,by simp,rfl,rfl⟩
      · intro x hx
        obtain hx | hx := List.mem_append.mp hx
        · obtain ⟨l,hl,hid⟩ := h.announced x hx
          exact ⟨l,List.mem_append_left _ hl,hid⟩
        · obtain rfl : x = leadReceived a.fresh e := by simpa using hx
          exact ⟨newLead a.fresh e,by simp [withNewLead],rfl,rfl⟩
    | stopped e stage reason =>
      constructor
      · intro l hl hstage
        obtain hl | hl := List.mem_append.mp hl
        · simpa using h.captured l hl hstage
        · rw [List.mem_singleton.mp hl] at hstage
          simp [terminalLead] at hstage
      · intro x hx
        obtain ⟨l,hl,hid⟩ := h.announced x (by simpa using hx)
        exact ⟨l,List.mem_append_left _ hl,hid⟩

theorem message_invariants {w : World} (h : Reachable MessageStep .empty w) :
    Consistent w.store ∧ Heard w :=
  h.invariant (I := fun w => Consistent w.store ∧ Heard w) ⟨consistent_empty,heard_empty⟩
    fun _ _ _ hi hs => ⟨hs.2.consistent hi.1,hi.2.step hs⟩

/-- In a state where captured leads are announced, a phone is announced exactly when a
captured lead has it. -/
theorem announced_iff {w : World} (hc : Consistent w.store) (hh : Heard w) {t : UUID}
    {p : String} : Announced w t p ↔ ∃ l ∈ w.store.leads, l.tenantId = t ∧
      l.phone = some (normalisePhone p) ∧ l.pipelineStage = .captured := by
  constructor
  · rintro ⟨a,ha,_,l,hl,hid,ht,hp⟩
    obtain ⟨l',hl',hid',hstage⟩ := hh.announced a ha
    have hsame : l' = l := List.inj_on_of_nodup_map hc.leadIds hl' hl (hid'.trans hid.symm)
    exact ⟨l,hl,ht,hp,hsame ▸ hstage⟩
  · rintro ⟨l,hl,ht,hp,hstage⟩
    obtain ⟨a,ha,hid,hat⟩ := hh.captured l hl hstage
    exact ⟨a,ha,hat.trans ht,l,hl,hid.symm,ht,hp⟩

/-- After a message on the LEAD path its phone is announced exactly when nothing hid it. -/
theorem LeadPath.announced_iff {w w' : World} {a : Attempt} {enriched : NormalisedChannelEvent}
    {p : String} (hc : Consistent w.store) (hh : Heard w) (hs : MessageStep w a w')
    (h : LeadPath w a enriched p) : Announced w' enriched.tenantId p ↔
      (∀ l ∈ w.store.leads, l.tenantId = enriched.tenantId →
        l.phone = some (normalisePhone p) → l.pipelineStage = .captured) ∧
      ((∀ l ∈ w.store.leads, l.tenantId = enriched.tenantId →
        l.phone ≠ some (normalisePhone p)) →
        ∀ l ∈ w.store.leads, ¬ Matches enriched.tenantId enriched l) := by
  obtain ⟨route,s,received,hroute,hf,hran,rfl⟩ := hs.ran h.commits
  obtain rfl : Route.capture enriched = route := by
    simpa [h.route] using hroute
  have hphone := h.storedPhone
  cases hran with
  | redelivered _ hslot => exact absurd hslot h.slot
  | captured _ _ hdup =>
    have hnone := findDuplicate_none.mp hdup
    constructor
    · intro _
      refine ⟨fun l hl ht hp => ?_,fun _ => hnone⟩
      exact absurd ⟨ht,Or.inl ⟨_,hphone,hp⟩⟩ (hnone l hl)
    · intro _
      exact ⟨leadReceived a.fresh enriched,by simp,rfl,newLead a.fresh enriched,
        by simp [withNewLead],rfl,rfl,hphone⟩
  | attached _ existing _ hdup =>
    obtain ⟨hmem,hmatch⟩ := findDuplicate_mem hdup
    have hsame : Announced ⟨withDuplicate w.store a.fresh enriched existing,
        w.received ++ (none : Option LeadReceived).toList⟩ enriched.tenantId p ↔
        Announced w enriched.tenantId p := by
      simp [Announced,withDuplicate]
    rw [hsame,History.announced_iff hc hh]
    constructor
    · rintro ⟨l,hl,ht,hp,hstage⟩
      refine ⟨fun l' hl' ht' hp' => ?_,fun hno => absurd hp (hno l hl ht)⟩
      have hkey : l'.phoneKey = some (enriched.tenantId,normalisePhone p) :=
        Lead.phoneKey_eq_some.mpr ⟨ht',hp'⟩
      have hkey' : l.phoneKey = some (enriched.tenantId,normalisePhone p) :=
        Lead.phoneKey_eq_some.mpr ⟨ht,hp⟩
      rw [hc.identities.phone.eq_of_key hl' hl hkey hkey']
      exact hstage
    · rintro ⟨hcaptured,hfree⟩
      by_contra hno
      refine hfree (fun l hl ht hp => ?_) existing hmem hmatch
      exact hno ⟨l,hl,ht,hp,hcaptured l hl ht hp⟩

/-- Along a run of messages every lead is announced under its phone, at every point of the
run, exactly when no message of the run was hidden by a row stored before it. -/
theorem all_announced_iff {tr : List (Transition World Attempt)} {w : World}
    (h : Path MessageStep .empty tr w) :
    (∀ tr₁ w₁, tr₁ <+: tr → Path MessageStep .empty tr₁ w₁ → AllAnnounced tr₁ w₁) ↔
      ∀ t ∈ tr, Unhidden t.1 t.2.1 := by
  refine h.always_iff_guard (P := AllAnnounced) (by simp [AllAnnounced]) ?_
  intro tr w a w' hp hall hs
  obtain ⟨hc,hh⟩ := message_invariants hp.reachable
  constructor
  · intro hnext enriched p hlead
    refine (hlead.announced_iff hc hh hs).mp ?_
    exact hnext (w,a,w') (by simp) enriched p hlead
  · intro hguard t ht enriched p hlead
    obtain ht | ht := List.mem_append.mp ht
    · exact (hall t ht enriched p hlead).step hs
    · obtain rfl := List.mem_singleton.mp ht
      exact (hlead.announced_iff hc hh hs).mpr (hguard enriched p hlead)

end Runs

def textMessage (platformEventId text : String) : NormalisedChannelEvent :=
  .ofMessage 1 platformEventId none (some "+49 152") none none text

def leadAnswers : Answers :=
  ⟨fun _ => .ok (.obj [("classification",.str "LEAD")]),.ok (some [⟨"s1",.fit,"Budget?"⟩])⟩

def textOp (platformEventId text : String) : Op :=
  .runCaptureMessage (textMessage platformEventId text) leadAnswers

theorem question_routed :
    letI := Interpreter.ascii id
    routeMessage (textMessage "b" "Need a quote") leadAnswers =
      .ok (.capture (textMessage "b" "Need a quote")) := by
  rfl

/-- A sender who first says hello is never announced: the greeting's row takes the phone. -/
theorem greeting_hides_lead :
    letI := Interpreter.ascii id
    ¬ ∀ tr w, Path MessageStep .empty tr w → AllAnnounced tr w := by
  let := Interpreter.ascii id
  intro hall
  let greeted := ((textOp "a" "hi").tried .empty (.nth 1)).2
  let asked := ((textOp "b" "Need a quote").tried greeted (.nth 2)).2
  have hfirst : MessageStep .empty ⟨textOp "a" "hi",.nth 1,_⟩ greeted :=
    ⟨⟨_,_,rfl⟩,Op.step_tried _ (by decide +kernel)⟩
  have hsecond : MessageStep greeted ⟨textOp "b" "Need a quote",.nth 2,_⟩ asked :=
    ⟨⟨_,_,rfl⟩,Op.step_tried _ (by decide +kernel)⟩
  have hlead : LeadPath greeted
      ⟨textOp "b" "Need a quote",.nth 2,((textOp "b" "Need a quote").tried greeted (.nth 2)).1⟩
      (textMessage "b" "Need a quote") "+49 152" :=
    ⟨by decide +kernel,by decide +kernel,_,_,rfl,by decide +kernel,question_routed⟩
  obtain ⟨a,ha,_⟩ := hall _ asked ((Path.nil.snoc hfirst).snoc hsecond) _
    (List.mem_append_right _ (List.mem_singleton.mpr rfl)) _ _ hlead
  have hsilent : asked.received = [] := by decide +kernel
  simp [hsilent] at ha

/-- The same question as a first message is announced. -/
theorem first_question_announced :
    letI := Interpreter.ascii id
    ∃ tr w, Path MessageStep .empty tr w ∧ AllAnnounced tr w ∧
      LeadPath .empty ⟨textOp "b" "Need a quote",.nth 2,true⟩
        (textMessage "b" "Need a quote") "+49 152" ∧
      (.empty,⟨textOp "b" "Need a quote",.nth 2,true⟩,w) ∈ tr := by
  let := Interpreter.ascii id
  let asked := ((textOp "b" "Need a quote").tried .empty (.nth 2)).2
  have hcommits : ((textOp "b" "Need a quote").tried .empty (.nth 2)).1 = true := by
    decide +kernel
  have hstep : MessageStep .empty ⟨textOp "b" "Need a quote",.nth 2,true⟩ asked :=
    ⟨⟨_,_,rfl⟩,hcommits ▸ Op.step_tried _ (by decide +kernel)⟩
  have hpath := Path.nil.snoc hstep
  refine ⟨_,asked,hpath,?_,
    ⟨rfl,by decide +kernel,_,_,rfl,by decide +kernel,question_routed⟩,by simp⟩
  refine (all_announced_iff hpath).mpr ?_ _ asked List.prefix_rfl hpath
  intro t ht
  obtain rfl := List.mem_singleton.mp ht
  intro enriched p _
  simp [World.empty,Store.empty]

end History
end LeadEngine
