import LeadEngine.Change
import LeadEngine.MessageRoute

/-! The contract of the filter over the answers of the classifier: which errors it raises, which
messages it lets end before the pipeline, and which go down the path of a lead. The answer is any
JSON object. -/
namespace LeadEngine
namespace Pipeline

open Interpreter TwoStageFilter Repository History

section Answer

def namedClass (answer : List (String × Json)) : Option FilterClassification :=
  ((Json.obj answer).get? "classification").bind FilterClassification.ofValue

def stageOf : FilterClassification → Option TerminalStage
  | .noise => some .insufficientSignal
  | .existingCustomer => some .existingCustomer
  | .lead | .unclear => none

/-- A number that a `float` holds; `True` and `False` are numbers. -/
def score? : Option Json → Option ℚ
  | some (.int n) => if n.natAbs < floatLimit then some n else none
  | some (.float q) => some q
  | some (.bool b) => some (if b then 1 else 0)
  | _ => none

def Missing (value : Option Json) : Prop := value = none ∨ value = some .null

/-- An extracted value is missing, `null` or a text, or the event has a value of its own. -/
def FieldOk (own : Option String) (value : Option Json) : Prop :=
  truthy own ≠ none ∨ Missing value ∨ ∃ text, value = some (.str text)

/-- What the pipeline needs of an answer with a class: a missing confidence only where the class
lets the message through, else a number; fields that are missing or an object; and fields that
can be merged where the message goes on. -/
structure Sound (e : NormalisedChannelEvent) (answer : List (String × Json))
    (c : FilterClassification) : Prop where
  confidence : Missing ((Json.obj answer).get? "confidence") ∧ stageOf c = none ∨
    ∃ q, score? ((Json.obj answer).get? "confidence") = some q
  fields : ∃ kvs, ((Json.obj answer).get? "extracted_fields").getD (.obj []) = .obj kvs ∧
    (stageOf c = none ∨ (∃ q, score? ((Json.obj answer).get? "confidence") = some q ∧
        q < confidenceFloor) →
      FieldOk e.fullName ((Json.obj kvs).get? "name") ∧
        FieldOk e.phone ((Json.obj kvs).get? "phone") ∧
        FieldOk e.email ((Json.obj kvs).get? "email") ∧
        FieldOk e.location ((Json.obj kvs).get? "location"))

end Answer

theorem stageOf_inj {c c' : FilterClassification} {stage : TerminalStage}
    (h : stageOf c = some stage) (h' : stageOf c' = some stage) : c = c' := by
  cases c <;> cases c' <;> cases h <;> first | rfl | cases h'

theorem stageOf_ne_blocked {c : FilterClassification} {stage : TerminalStage}
    (h : stageOf c = some stage) : stage ≠ .preFlightBlocked := by
  cases c <;> cases h <;> simp

theorem stageOf_calibrate (c : FilterClassification) (confidence : Option ℚ) :
    stageOf (calibrate c confidence) = none ↔
      stageOf c = none ∨ ∃ q, confidence = some q ∧ q < confidenceFloor := by
  cases confidence with
  | none => simp [calibrate]
  | some q =>
    by_cases hq : q < confidenceFloor
    · cases c <;> simp [calibrate,hq,stageOf]
    · simp [calibrate,hq]

theorem stage_of_calibrate {c : FilterClassification} {confidence : Option ℚ}
    {stage : TerminalStage} (h : stageOf (calibrate c confidence) = some stage) :
    stageOf c = some stage ∧ ∀ q, confidence = some q → confidenceFloor ≤ q := by
  have hnot := mt (stageOf_calibrate c confidence).mpr (by simp [h])
  rw [not_or,not_exists] at hnot
  refine ⟨?_,fun q hq => Rat.not_lt.mp fun hlow => hnot.2 q ⟨hq,hlow⟩⟩
  cases confidence with
  | none => exact h
  | some q =>
    have hq : ¬ q < confidenceFloor := fun hlow => hnot.2 q ⟨rfl,hlow⟩
    simpa [calibrate,hq] using h

theorem confidenceOf_cases (value : Option Json) :
    Missing value ∧ score? value = none ∧ confidenceOf value = .ok none ∨
      (∃ q, score? value = some q ∧ confidenceOf value = .ok (some q)) ∨
      ¬ Missing value ∧ score? value = none ∧ (confidenceOf value = .error .typeError ∨
        confidenceOf value = .error .validationError) := by
  rcases value with _ | j
  · exact .inl ⟨.inl rfl,rfl,rfl⟩
  cases j with
  | null => exact .inl ⟨.inr rfl,rfl,rfl⟩
  | bool b => exact .inr (.inl ⟨_,rfl,rfl⟩)
  | float q => exact .inr (.inl ⟨_,rfl,rfl⟩)
  | int n =>
    by_cases hn : n.natAbs < floatLimit
    · refine .inr (.inl ⟨n,?_,?_⟩)
      · simp only [score?,if_pos hn]
      · simp only [confidenceOf,if_pos hn]
    · exact .inr (.inr ⟨by simp [Missing],by simp only [score?,if_neg hn],
        .inr (by simp only [confidenceOf,if_neg hn])⟩)
  | str | arr | obj => exact .inr (.inr ⟨by simp [Missing],rfl,.inl rfl⟩)

theorem extractedOf_eq_ok {value : Option Json} {kvs : List (String × Json)} :
    extractedOf value = .ok kvs ↔ value.getD (.obj []) = .obj kvs := by
  rcases value with _ | j
  · simp [extractedOf]
  · cases j <;> simp [extractedOf]

theorem extractedOf_error {value : Option Json} {err : FilterError}
    (h : extractedOf value = .error err) : err = .validationError := by
  rcases value with _ | j
  · cases h
  · cases j <;> simp_all [extractedOf]

theorem mergeField_ok_iff {own : Option String} {value : Option Json} :
    (∃ merged, mergeField own value = .ok merged) ↔ FieldOk own value := by
  unfold mergeField FieldOk Missing
  cases truthy own with
  | some text => simp
  | none =>
    rcases value with _ | j
    · simp
    · cases j <;> simp

theorem enrich_ok_iff {e : NormalisedChannelEvent} {kvs : List (String × Json)} :
    (∃ enriched, enrich e kvs = .ok enriched) ↔
      FieldOk e.fullName ((Json.obj kvs).get? "name") ∧
        FieldOk e.phone ((Json.obj kvs).get? "phone") ∧
        FieldOk e.email ((Json.obj kvs).get? "email") ∧
        FieldOk e.location ((Json.obj kvs).get? "location") := by
  simp only [← mergeField_ok_iff,enrich]
  cases mergeField e.fullName ((Json.obj kvs).get? "name") <;>
    cases mergeField e.phone ((Json.obj kvs).get? "phone") <;>
    cases mergeField e.email ((Json.obj kvs).get? "email") <;>
    cases mergeField e.location ((Json.obj kvs).get? "location") <;> simp

variable [Interpreter]

def answering (answer : List (String × Json))
    (activeSignals : Except Unit (Option (List Signal))) : Answers :=
  ⟨fun _ => .ok (.obj answer),activeSignals⟩

def filterResult (e : NormalisedChannelEvent) (answer : List (String × Json)) :
    Except FilterError FilterResult :=
  runFilter (e.rawText.getD "") fun _ => .ok (.obj answer)

/-- Stage 1 takes the text for noise, or the answer names the class with a confidence that is
present and at least 0.7. -/
def Permits (e : NormalisedChannelEvent) (answer : List (String × Json))
    (c : FilterClassification) : Prop :=
  c = .noise ∧ isStage1Noise (e.rawText.getD "") ∨ namedClass answer = some c ∧
    ∃ q, score? ((Json.obj answer).get? "confidence") = some q ∧ confidenceFloor ≤ q

/-- Under some config and in some store the message gets a log row of the stage. -/
def StoredAs (e : NormalisedChannelEvent) (answer : List (String × Json))
    (stage : TerminalStage) : Prop :=
  ∃ activeSignals s f s' c, f.For s ∧
    runCaptureMessage s f e (answering answer activeSignals) = .ok (s',c) ∧
    ∃ r ∈ s'.logs, r ∉ s.logs ∧ r.status = .terminal stage

/-- The extracted fields are merged, and from there only the pre-flight check stands in front of
the capture. -/
def LeadPath (e : NormalisedChannelEvent) (answer : List (String × Json)) : Prop :=
  ∃ result enriched, filterResult e answer = .ok result ∧
    enrich e result.extractedFields = .ok enriched ∧
    ∀ activeSignals s f, runCaptureMessage s f e (answering answer activeSignals) =
      (activeSignals.mapError fun _ => .configRead).bind fun config =>
        ((preFlightRoute enriched config).run s f).mapError .capture

/-- The filter raises nothing but `FilterClientError`, a message ends as noise or as an existing
customer only where that is permitted, and every other accepted message is treated as a lead. -/
structure KeepsContract (e : NormalisedChannelEvent) (answer : List (String × Json)) : Prop where
  raises : ∀ err, filterResult e answer = .error err → err = .filterClient
  ends : ∀ c stage, stageOf c = some stage → StoredAs e answer stage → Permits e answer c
  passes : ∀ result, filterResult e answer = .ok result →
    (∀ c stage, stageOf c = some stage → ¬ Permits e answer c) → LeadPath e answer

theorem filterResult_noise {e : NormalisedChannelEvent} (answer : List (String × Json))
    (h : isStage1Noise (e.rawText.getD "")) : filterResult e answer = .ok ⟨.noise,[],none⟩ :=
  if_pos h

theorem filterResult_unnamed {e : NormalisedChannelEvent} {answer : List (String × Json)}
    (h : ¬ isStage1Noise (e.rawText.getD "")) (hclass : namedClass answer = none) :
    filterResult e answer = .error .filterClient := by
  unfold namedClass at hclass
  simp only [filterResult,runFilter,if_neg h,readAnswer,hclass]

theorem filterResult_named {e : NormalisedChannelEvent} {answer : List (String × Json)}
    {c : FilterClassification} (h : ¬ isStage1Noise (e.rawText.getD ""))
    (hclass : namedClass answer = some c) :
    filterResult e answer =
      (confidenceOf ((Json.obj answer).get? "confidence")).bind fun confidence =>
        (extractedOf ((Json.obj answer).get? "extracted_fields")).map fun extracted =>
          ⟨calibrate c confidence,extracted,confidence⟩ := by
  unfold namedClass at hclass
  simp only [filterResult,runFilter,if_neg h,readAnswer,hclass]
  cases confidenceOf ((Json.obj answer).get? "confidence") with
  | error err => rfl
  | ok confidence => cases extractedOf ((Json.obj answer).get? "extracted_fields") <;> rfl

theorem terminal_of_run {s s' : Store} {f : Fresh} {c : Captured} {route : Route}
    {stage : TerminalStage} (hf : f.For s) (hrun : route.run s f = .ok (s',c))
    {r : IntakeEventLog} (hr : r ∈ s'.logs) (hnew : r ∉ s.logs)
    (hstatus : r.status = .terminal stage) :
    ∃ e' reason, route = .terminal e' stage reason := by
  have hran := Route.ran hf hrun
  generalize c.received = received at hran
  cases hran with
  | redelivered => exact absurd hr hnew
  | captured e' =>
    obtain rfl := List.mem_singleton.mp ((List.mem_append.mp hr).resolve_left hnew)
    cases hstatus
  | attached e' =>
    obtain rfl := List.mem_singleton.mp ((List.mem_append.mp hr).resolve_left hnew)
    cases hstatus
  | stopped e' stage' reason =>
    obtain rfl := List.mem_singleton.mp ((List.mem_append.mp hr).resolve_left hnew)
    cases hstatus
    exact ⟨e',reason,rfl⟩

theorem storedAs_of_filterResult {e : NormalisedChannelEvent} {answer : List (String × Json)}
    {stage : TerminalStage} {result : FilterResult} (hfilter : filterResult e answer = .ok result)
    (hclass : stageOf result.classification = some stage) : StoredAs e answer stage := by
  have hroute : routeMessage e (answering answer (.ok none)) = .ok (.terminal e stage none) := by
    have hfilter' : runFilter (e.rawText.getD "")
      (answering answer (.ok none)).classifyMessage = .ok result := hfilter
    simp only [routeMessage,hfilter']
    revert hclass
    cases result.classification <;> rintro ⟨⟩ <;> rfl
  have hf : (Fresh.nth 1).For .empty := by constructor <;> simp [Store.empty]
  have hslot : ¬ SlotTaken .empty e.platformEventId := by simp [SlotTaken,Store.empty]
  have hfree : PhoneFree .empty e := by simp [PhoneFree,Store.empty]
  have hrun : runCaptureMessage .empty (.nth 1) e (answering answer (.ok none)) =
      .ok (withTerminalLead .empty (.nth 1) e stage none,
        ⟨terminalLead (.nth 1) e stage none,none⟩) := by
    simp only [runCaptureMessage,hroute,Route.run,createTerminalLead_new hf hslot hfree]
  exact ⟨.ok none,.empty,.nth 1,_,_,hf,hrun,settledLog (.nth 1) e (Fresh.nth 1).leadId
    (.terminal stage),by simp [withTerminalLead],by simp [Store.empty],rfl⟩

/-- A message ends in a log row of a filter stage exactly when its filter's class has that
stage. -/
theorem storedAs_iff {e : NormalisedChannelEvent} {answer : List (String × Json)}
    {stage : TerminalStage} (hstage : stage ≠ .preFlightBlocked) :
    StoredAs e answer stage ↔
      ∃ result, filterResult e answer = .ok result ∧
        stageOf result.classification = some stage := by
  constructor
  · rintro ⟨activeSignals,s,f,s',c,hf,h,r,hr,hnew,hstatus⟩
    obtain ⟨route,hroute,hrun⟩ := runCaptureMessage_ok h
    obtain ⟨e',reason,rfl⟩ := terminal_of_run hf hrun hr hnew hstatus
    generalize hended : Route.terminal e' stage reason = route at hroute
    cases routed_of_routeMessage hroute with
    | @ended result stage' hfilter hclass =>
      cases hended
      refine ⟨result,hfilter,?_⟩
      obtain ⟨hc,rfl⟩ | ⟨hc,rfl⟩ := hclass <;> rw [hc] <;> rfl
    | passed =>
      unfold preFlightRoute at hended
      split at hended <;> cases hended
      exact absurd rfl hstage
  · rintro ⟨result,hfilter,hclass⟩
    exact storedAs_of_filterResult hfilter hclass

/-- A message whose class lets it through and whose extracted fields can be merged goes down the
path of a lead. -/
theorem leadPath_of_passed {e : NormalisedChannelEvent} {answer : List (String × Json)}
    {result : FilterResult} {enriched : NormalisedChannelEvent}
    (hfilter : filterResult e answer = .ok result) (hclass : stageOf result.classification = none)
    (hmerge : enrich e result.extractedFields = .ok enriched) : LeadPath e answer := by
  refine ⟨result,enriched,hfilter,hmerge,fun activeSignals s f => ?_⟩
  have hpass : result.classification = .lead ∨ result.classification = .unclear := by
    cases hc : result.classification <;> simp_all [stageOf]
  have hroute : routeMessage e (answering answer activeSignals) = _ :=
    routeMessage_passed hfilter hpass
  rw [hmerge] at hroute
  unfold runCaptureMessage
  rw [hroute]
  cases activeSignals with
  | error _ => rfl
  | ok config =>
    simp only [answering,Except.mapError,Except.bind,Except.map]
    cases (preFlightRoute enriched config).run s f <;> rfl

theorem Sound.read {e : NormalisedChannelEvent} {answer : List (String × Json)}
    {c : FilterClassification} (hsound : Sound e answer c)
    (h : ¬ isStage1Noise (e.rawText.getD "")) (hclass : namedClass answer = some c) :
    ∃ confidence kvs, score? ((Json.obj answer).get? "confidence") = confidence ∧
      ((Json.obj answer).get? "extracted_fields").getD (.obj []) = .obj kvs ∧
      filterResult e answer = .ok ⟨calibrate c confidence,kvs,confidence⟩ ∧
      (confidence = none → stageOf c = none) := by
  obtain ⟨kvs,hkvs,_⟩ := hsound.fields
  have hextracted := extractedOf_eq_ok.mpr hkvs
  rw [filterResult_named h hclass,hextracted]
  obtain ⟨hmissing,hscore,hconf⟩ | ⟨q,hscore,hconf⟩ | ⟨hmissing,hscore,_⟩ :=
    confidenceOf_cases ((Json.obj answer).get? "confidence")
  · refine ⟨none,kvs,hscore,hkvs,by rw [hconf]; rfl,fun _ => ?_⟩
    obtain ⟨_,hstage⟩ | ⟨q,hq⟩ := hsound.confidence
    · exact hstage
    · rw [hscore] at hq
      cases hq
  · exact ⟨some q,kvs,hscore,hkvs,by rw [hconf]; rfl,fun hnone => by cases hnone⟩
  · obtain ⟨hm,_⟩ | ⟨q,hq⟩ := hsound.confidence
    · exact absurd hm hmissing
    · rw [hscore] at hq
      cases hq

theorem Sound.keepsContract {e : NormalisedChannelEvent} {answer : List (String × Json)}
    {c : FilterClassification} (hsound : Sound e answer c)
    (h : ¬ isStage1Noise (e.rawText.getD "")) (hclass : namedClass answer = some c) :
    KeepsContract e answer := by
  obtain ⟨confidence,kvs,hscore,hkvs,hfilter,hnone⟩ := hsound.read h hclass
  refine ⟨fun err herr => ?_,fun c' stage hstage hstored => ?_,fun result hresult hnot => ?_⟩
  · rw [hfilter] at herr
    cases herr
  · have hne : stage ≠ .preFlightBlocked := by
      cases c' <;> cases hstage <;> simp
    obtain ⟨result,hresult,hended⟩ := (storedAs_iff hne).mp hstored
    obtain rfl := Except.ok.inj (hfilter.symm.trans hresult)
    obtain ⟨hc,hfloor⟩ := stage_of_calibrate hended
    obtain rfl := stageOf_inj hc hstage
    cases confidence with
    | none => simp [hnone rfl] at hc
    | some q => exact .inr ⟨hclass,q,hscore,hfloor q rfl⟩
  · obtain rfl := Except.ok.inj (hfilter.symm.trans hresult)
    -- an answer that permits no end lets the message through
    have hpass : stageOf c = none ∨ ∃ q, confidence = some q ∧ q < confidenceFloor := by
      cases hstage : stageOf c with
      | none => exact .inl rfl
      | some stage =>
        cases confidence with
        | none => simp [hnone rfl] at hstage
        | some q =>
          refine .inr ⟨q,rfl,Rat.not_le.mp fun hfloor => ?_⟩
          exact hnot c stage hstage (.inr ⟨hclass,q,hscore,hfloor⟩)
    obtain ⟨kvs',hkvs',hmerge⟩ := hsound.fields
    obtain rfl := Json.obj.inj (hkvs.symm.trans hkvs')
    rw [← hscore] at hpass
    obtain ⟨enriched,henriched⟩ := enrich_ok_iff.mpr (hmerge hpass)
    rw [hscore] at hpass
    exact leadPath_of_passed hfilter ((stageOf_calibrate c confidence).mpr hpass) henriched

theorem read_of_keepsContract {e : NormalisedChannelEvent} {answer : List (String × Json)}
    {c : FilterClassification} (hkeeps : KeepsContract e answer)
    (h : ¬ isStage1Noise (e.rawText.getD "")) (hclass : namedClass answer = some c) :
    ∃ confidence kvs, confidenceOf ((Json.obj answer).get? "confidence") = .ok confidence ∧
      extractedOf ((Json.obj answer).get? "extracted_fields") = .ok kvs ∧
      filterResult e answer = .ok ⟨calibrate c confidence,kvs,confidence⟩ := by
  have hread := filterResult_named h hclass
  cases hconf : confidenceOf ((Json.obj answer).get? "confidence") with
  | error err =>
    rw [hconf] at hread
    obtain rfl := hkeeps.raises err hread
    obtain ⟨_,_,hok⟩ | ⟨_,_,hok⟩ | ⟨_,_,herr | herr⟩ :=
      confidenceOf_cases ((Json.obj answer).get? "confidence")
    all_goals simp_all
  | ok confidence =>
    cases hkvs : extractedOf ((Json.obj answer).get? "extracted_fields") with
    | error err =>
      rw [hconf,hkvs] at hread
      obtain rfl := hkeeps.raises err hread
      cases extractedOf_error hkvs
    | ok kvs =>
      rw [hconf,hkvs] at hread
      exact ⟨confidence,kvs,rfl,rfl,hread⟩

theorem sound_of_keepsContract {e : NormalisedChannelEvent} {answer : List (String × Json)}
    {c : FilterClassification} (hkeeps : KeepsContract e answer)
    (h : ¬ isStage1Noise (e.rawText.getD "")) (hclass : namedClass answer = some c) :
    Sound e answer c := by
  obtain ⟨confidence,kvs,hconf,hkvs,hread⟩ := read_of_keepsContract hkeeps h hclass
  have hpermits : ∀ {c'}, Permits e answer c' → c' = c ∧
      ∃ q, score? ((Json.obj answer).get? "confidence") = some q ∧ confidenceFloor ≤ q := by
    rintro c' (⟨_,hstage1⟩ | ⟨hc',hq⟩)
    · exact absurd hstage1 h
    · exact ⟨Option.some.inj (hc'.symm.trans hclass),hq⟩
  constructor
  · obtain ⟨hmissing,hscore,hnone⟩ | ⟨q,hscore,_⟩ | ⟨_,_,herr | herr⟩ :=
      confidenceOf_cases ((Json.obj answer).get? "confidence")
    · refine .inl ⟨hmissing,?_⟩
      obtain rfl := Except.ok.inj (hconf.symm.trans hnone)
      -- a class without a confidence ends the message, and nothing permits that
      cases hstage : stageOf c with
      | none => rfl
      | some stage =>
        have hstored := (storedAs_iff (stageOf_ne_blocked hstage)).mpr ⟨_,hread,hstage⟩
        obtain ⟨_,q,hq,_⟩ := hpermits (hkeeps.ends c stage hstage hstored)
        rw [hscore] at hq
        cases hq
    · exact .inr ⟨q,hscore⟩
    · simp [herr] at hconf
    · simp [herr] at hconf
  · refine ⟨kvs,extractedOf_eq_ok.mp hkvs,fun hpass => ?_⟩
    have hnot : ∀ c' stage, stageOf c' = some stage → ¬ Permits e answer c' := by
      intro c' stage hstage hpermit
      obtain ⟨rfl,q,hq,hfloor⟩ := hpermits hpermit
      obtain hc | ⟨q',hq',hlow⟩ := hpass
      · rw [hstage] at hc
        cases hc
      · obtain rfl := Option.some.inj (hq.symm.trans hq')
        exact absurd hlow (Rat.not_lt.mpr hfloor)
    obtain ⟨result,enriched,hresult,hmerge,_⟩ := hkeeps.passes _ hread hnot
    obtain rfl := Except.ok.inj (hread.symm.trans hresult)
    exact enrich_ok_iff.mp ⟨enriched,hmerge⟩

/-- The filter keeps its contract exactly on the texts it takes for noise at stage 1, on the
answers that name no class, and on the sound ones. -/
theorem filter_contract_iff (e : NormalisedChannelEvent) (answer : List (String × Json)) :
    KeepsContract e answer ↔ isStage1Noise (e.rawText.getD "") ∨ namedClass answer = none ∨
      ∃ c, namedClass answer = some c ∧ Sound e answer c := by
  by_cases hnoise : isStage1Noise (e.rawText.getD "") = true
  · refine iff_of_true ⟨?_,?_,?_⟩ (.inl hnoise)
    · intro err herr
      rw [filterResult_noise answer hnoise] at herr
      cases herr
    · intro c stage hstage hstored
      obtain ⟨result,hresult,hended⟩ := (storedAs_iff (stageOf_ne_blocked hstage)).mp hstored
      obtain rfl := Except.ok.inj ((filterResult_noise answer hnoise).symm.trans hresult)
      exact .inl ⟨stageOf_inj hstage hended,hnoise⟩
    · intro result _ hnot
      exact absurd (.inl ⟨rfl,hnoise⟩) (hnot .noise .insufficientSignal rfl)
  cases hclass : namedClass answer with
  | none =>
    have hread := filterResult_unnamed hnoise hclass
    refine iff_of_true ⟨?_,?_,?_⟩ (.inr (.inl rfl))
    · intro err herr
      exact (Except.error.inj (hread.symm.trans herr)).symm
    · intro c stage hstage hstored
      obtain ⟨result,hresult,_⟩ := (storedAs_iff (stageOf_ne_blocked hstage)).mp hstored
      rw [hread] at hresult
      cases hresult
    · intro result hresult _
      rw [hread] at hresult
      cases hresult
  | some c =>
    constructor
    · exact fun hkeeps => .inr (.inr ⟨c,rfl,sound_of_keepsContract hkeeps hnoise hclass⟩)
    · rintro (h | h | ⟨c',hc',hsound⟩)
      · exact absurd h hnoise
      · cases h
      · obtain rfl := Option.some.inj hc'
        exact hsound.keepsContract hnoise hclass

omit [Interpreter] in
/-- An answer that calls a question noise without a confidence ends it, and one whose confidence
is a text raises. -/
theorem unsure_answers_break_contract :
    letI := Interpreter.ascii id
    let e := NormalisedChannelEvent.ofMessage 1 "wamid.1" none (some "+919876543210") none none
      "Need a quote"
    ¬ KeepsContract e [("classification",.str "NOISE"),("extracted_fields",.obj [])] ∧
      ¬ KeepsContract e [("classification",.str "LEAD"),("extracted_fields",.obj []),
        ("confidence",.str "high")] := by
  let := Interpreter.ascii id
  intro e
  have hnoise : ¬ isStage1Noise (e.rawText.getD "") := by decide +kernel
  refine ⟨fun hkeeps => ?_,fun hkeeps => ?_⟩
  · have hread : filterResult e [("classification",.str "NOISE"),("extracted_fields",.obj [])] =
        .ok ⟨.noise,[],none⟩ := (filterResult_named hnoise rfl).trans rfl
    have hstored : StoredAs e _ .insufficientSignal :=
      (storedAs_iff (by simp)).mpr ⟨_,hread,rfl⟩
    obtain ⟨_,h⟩ | ⟨_,q,hq,_⟩ := hkeeps.ends .noise .insufficientSignal rfl hstored
    · exact hnoise h
    · cases hq
  · have hraise : filterResult e [("classification",.str "LEAD"),("extracted_fields",.obj []),
        ("confidence",.str "high")] = .error .typeError :=
      (filterResult_named hnoise rfl).trans rfl
    cases hkeeps.raises _ hraise

end Pipeline
end LeadEngine
