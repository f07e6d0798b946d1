import LeadEngine.Pipeline

/-! The route of a message: where its filter, its merged fields and the pre-flight check
lead it, and the ways it ends before any write. -/
namespace LeadEngine
namespace Pipeline

open Interpreter TwoStageFilter

variable [Interpreter]

/-- The ways a message ends before a write: the filter, the merge of the extracted fields
or the reading of the tenant's config raises. -/
inductive Halted (e : NormalisedChannelEvent) (ans : Answers) : MessageError → Prop
  | filter {err : FilterError}
      (h : runFilter (e.rawText.getD "") ans.classifyMessage = .error err) :
      Halted e ans (.filter err)
  | merge {result : FilterResult} {err : FilterError}
      (h : runFilter (e.rawText.getD "") ans.classifyMessage = .ok result)
      (hclass : result.classification = .lead ∨ result.classification = .unclear)
      (hmerge : enrich e result.extractedFields = .error err) : Halted e ans (.filter err)
  | config {result : FilterResult} {enriched : NormalisedChannelEvent}
      (h : runFilter (e.rawText.getD "") ans.classifyMessage = .ok result)
      (hclass : result.classification = .lead ∨ result.classification = .unclear)
      (hmerge : enrich e result.extractedFields = .ok enriched)
      (hread : ans.activeSignals = .error ()) : Halted e ans .configRead

def preFlightRoute (enriched : NormalisedChannelEvent) (config : Option (List Signal)) : Route :=
  match checkPreFlight config with
  | .error halt => .terminal enriched .preFlightBlocked (some halt.reason)
  | .ok _ => .capture enriched

omit [Interpreter] in
theorem preFlightRoute_event (enriched : NormalisedChannelEvent)
    (config : Option (List Signal)) : (preFlightRoute enriched config).event = enriched := by
  unfold preFlightRoute
  split <;> rfl

theorem routeMessage_passed {e : NormalisedChannelEvent} {ans : Answers} {result : FilterResult}
    (h : runFilter (e.rawText.getD "") ans.classifyMessage = .ok result)
    (hclass : result.classification = .lead ∨ result.classification = .unclear) :
    routeMessage e ans =
      ((enrich e result.extractedFields).mapError .filter).bind fun enriched =>
        (ans.activeSignals.mapError fun _ => .configRead).map (preFlightRoute enriched) := by
  unfold routeMessage
  rw [h]
  obtain hc | hc := hclass
  all_goals
    simp only [hc]
    cases enrich e result.extractedFields with
    | error err => rfl
    | ok enriched =>
      cases ans.activeSignals with
      | error _ => rfl
      | ok config =>
        simp only [Except.mapError,Except.bind,Except.map,preFlightRoute]
        cases checkPreFlight config <;> rfl

/-- A routed message: the filter ended it, or it goes with its merged fields where the signals
of the active config lead it. -/
inductive RoutedMessage (e : NormalisedChannelEvent) (ans : Answers) : Route → Prop
  | ended {result : FilterResult} {stage : TerminalStage}
      (h : runFilter (e.rawText.getD "") ans.classifyMessage = .ok result)
      (hclass : result.classification = .noise ∧ stage = .insufficientSignal ∨
        result.classification = .existingCustomer ∧ stage = .existingCustomer) :
      RoutedMessage e ans (.terminal e stage none)
  | passed {result : FilterResult} {enriched : NormalisedChannelEvent}
      {config : Option (List Signal)}
      (h : runFilter (e.rawText.getD "") ans.classifyMessage = .ok result)
      (hclass : result.classification = .lead ∨ result.classification = .unclear)
      (hmerge : enrich e result.extractedFields = .ok enriched)
      (hread : ans.activeSignals = .ok config) :
      RoutedMessage e ans (preFlightRoute enriched config)

theorem routeMessage_cases (e : NormalisedChannelEvent) (ans : Answers) :
    (∃ err, Halted e ans err ∧ routeMessage e ans = .error err) ∨
      ∃ route, RoutedMessage e ans route ∧ routeMessage e ans = .ok route := by
  cases hf : runFilter (e.rawText.getD "") ans.classifyMessage with
  | error err => exact .inl ⟨_,.filter hf,by simp [routeMessage,hf]⟩
  | ok result =>
    by_cases hclass : result.classification = .lead ∨ result.classification = .unclear
    · rw [routeMessage_passed hf hclass]
      cases hmerge : enrich e result.extractedFields with
      | error err => exact .inl ⟨_,.merge hf hclass hmerge,rfl⟩
      | ok enriched =>
        cases hread : ans.activeSignals with
        | error _ => exact .inl ⟨_,.config hf hclass hmerge hread,rfl⟩
        | ok config => exact .inr ⟨_,.passed hf hclass hmerge hread,rfl⟩
    · cases hc : result.classification with
      | noise => exact .inr ⟨_,.ended hf (.inl ⟨hc,rfl⟩),by simp [routeMessage,hf,hc]⟩
      | existingCustomer => exact .inr ⟨_,.ended hf (.inr ⟨hc,rfl⟩),by simp [routeMessage,hf,hc]⟩
      | lead => exact absurd (.inl hc) hclass
      | unclear => exact absurd (.inr hc) hclass

theorem routeMessage_error_iff {e : NormalisedChannelEvent} {ans : Answers} {err : MessageError} :
    routeMessage e ans = .error err ↔ Halted e ans err := by
  constructor
  · intro h
    obtain ⟨err',hhalted,herr⟩ | ⟨route,_,hroute⟩ := routeMessage_cases e ans
    · obtain rfl : err' = err := Except.error.inj (herr.symm.trans h)
      exact hhalted
    · rw [hroute] at h
      cases h
  · intro h
    cases h with
    | filter h => simp [routeMessage,h]
    | merge h hclass hmerge =>
      simp [routeMessage_passed h hclass,hmerge,Except.mapError,Except.bind]
    | config h hclass hmerge hread =>
      simp [routeMessage_passed h hclass,hmerge,hread,Except.mapError,Except.bind,Except.map]

theorem routed_of_routeMessage {e : NormalisedChannelEvent} {ans : Answers} {route : Route}
    (h : routeMessage e ans = .ok route) : RoutedMessage e ans route := by
  obtain ⟨err,_,herr⟩ | ⟨route',hrouted,hroute⟩ := routeMessage_cases e ans
  · rw [herr] at h
    cases h
  · obtain rfl : route' = route := Except.ok.inj (hroute.symm.trans h)
    exact hrouted

theorem routeMessage_event {e : NormalisedChannelEvent} {ans : Answers} {route : Route}
    (h : routeMessage e ans = .ok route) : route.event.tenantId = e.tenantId ∧
      route.event.platformEventId = e.platformEventId ∧
      ∀ p, truthy e.phone = some p → truthy route.event.phone = some p := by
  cases routed_of_routeMessage h with
  | ended => exact ⟨rfl,rfl,fun _ => id⟩
  | passed _ _ hmerge =>
    obtain ⟨ht,hpid,hphone⟩ := enrich_ok hmerge
    rw [preFlightRoute_event]
    exact ⟨ht,hpid,fun p hp => truthy_eq_some.mpr ⟨hphone p hp,(truthy_eq_some.mp hp).2⟩⟩

omit [Interpreter] in
theorem enrich_raw {e enriched : NormalisedChannelEvent} {extracted : List (String × Json)}
    (h : enrich e extracted = .ok enriched) : enriched.rawEventJson = e.rawEventJson := by
  unfold enrich at h
  split at h
  · obtain rfl := Except.ok.inj h
    rfl
  · cases h

theorem routeMessage_raw {e : NormalisedChannelEvent} {ans : Answers} {route : Route}
    (h : routeMessage e ans = .ok route) : route.event.rawEventJson = e.rawEventJson := by
  cases routed_of_routeMessage h with
  | ended => rfl
  | passed _ _ hmerge =>
    rw [preFlightRoute_event]
    exact enrich_raw hmerge

theorem routeMessage_capture {e enriched : NormalisedChannelEvent} {ans : Answers}
    (h : routeMessage e ans = .ok (.capture enriched)) :
    ∃ config signals, ans.activeSignals = .ok config ∧ checkPreFlight config = .ok signals := by
  generalize hroute : Route.capture enriched = route at h
  cases routed_of_routeMessage h with
  | ended => cases hroute
  | passed _ _ _ hread =>
    unfold preFlightRoute at hroute
    split at hroute
    · cases hroute
    · exact ⟨_,_,hread,‹_›⟩

theorem runCaptureMessage_ok {s : Store} {f : Fresh} {e : NormalisedChannelEvent} {ans : Answers}
    {result : Store × Captured} (h : runCaptureMessage s f e ans = .ok result) :
    ∃ route, routeMessage e ans = .ok route ∧ route.run s f = .ok result := by
  unfold runCaptureMessage at h
  split at h
  · cases h
  · rename_i route hroute
    split at h
    · cases h
    · rename_i result' hresult
      obtain rfl := Except.ok.inj h
      exact ⟨route,hroute,hresult⟩

end Pipeline
end LeadEngine
