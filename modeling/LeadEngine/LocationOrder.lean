import LeadEngine.History
import LeadEngine.LeadAdAnswers

/-! The location of a Lead Ads form under the iteration orders of the set of location fields, and
the submissions that are merged by their name and location. Each worker process has an order of
its own. -/
namespace LeadEngine
namespace LeadAds

open TransitionSystem Interpreter Normaliser Words Repository Deduplicator Pipeline History

variable [Interpreter] {fieldData fieldData' : List FieldItem}

/-- The location is the same in every worker. -/
def OrderFree (fieldData : List FieldItem) : Prop :=
  ∀ (env env' : LeadAdEnv) (job : LeadAdPayload), env.locationOrder.Perm locationFields →
    env'.locationOrder.Perm locationFields →
      (leadAdEvent env job fieldData).location = (leadAdEvent env' job fieldData).location

/-- Two forms with the same name and the same answers about the place, at least one, and with
neither phone nor email. -/
structure SamePerson (fieldData fieldData' : List FieldItem) : Prop where
  name : ∃ name, adFullName (flattenItems fieldData) = some name ∧
    adFullName (flattenItems fieldData') = some name
  places : ∀ field ∈ locationFields, answer fieldData field = answer fieldData' field
  placed : ∃ field ∈ locationFields, answer fieldData field ≠ none
  unreachable : ∀ field ∈ ["phone_number","work_phone_number","email"],
    answer fieldData field = none ∧ answer fieldData' field = none

/-- Whichever workers handle two new forms of the same person, the second is attached to the lead
of the first and adds none. -/
def Merged (fieldData : List FieldItem) : Prop :=
  ∀ fieldData', SamePerson fieldData fieldData' → ∀ (env env' : LeadAdEnv)
    (job job' : LeadAdPayload), env.locationOrder.Perm locationFields →
      env'.locationOrder.Perm locationFields → job.tenantId = job'.tenantId →
    ∀ (w : World) (f : Fresh), Reachable Step .empty w → f.For w.store →
      ¬ SlotTaken w.store (leadAdEventId job.leadgenId) →
      ∃ s₁ c, runCapture w.store f (leadAdEvent env job fieldData) = .ok (s₁,c) ∧
        ∀ f', f'.For s₁ → ¬ SlotTaken s₁ (leadAdEventId job'.leadgenId) →
          ∃ s₂, runCapture s₁ f' (leadAdEvent env' job' fieldData') = .ok (s₂,⟨c.lead,none⟩) ∧
            s₂.leads = s₁.leads

/-- Every answer about the place is one and the same text, once or several times. -/
def OnePlace (fieldData : List FieldItem) : Prop :=
  ∃ place : String, ∀ field ∈ locationFields, ∀ text, answer fieldData field = some text →
    ∃ n, text = String.intercalate ", " (List.replicate (n+1) place)

omit [Interpreter] in
theorem repeats_iff {place text : String} :
    (∃ n, text = String.intercalate ", " (List.replicate (n+1) place)) ↔
      Repeats [',',' '] place.toList text.toList := by
  refine exists_congr fun n => ?_
  rw [← String.toList_inj,String.toList_intercalate,List.map_replicate]
  rfl

theorem location_leadAdEvent (env : LeadAdEnv) (job : LeadAdPayload)
    (fieldData : List FieldItem) : (leadAdEvent env job fieldData).location =
      truthy (some (joinedLocation env.locationOrder fieldData)) :=
  (normaliseLeadAdForm_fields ..).location

theorem toList_joinedLocation (order : List String) (fieldData : List FieldItem) :
    (joinedLocation order fieldData).toList =
      List.intercalate [',',' '] ((order.filterMap (answer fieldData)).map String.toList) := by
  rw [joinedLocation,String.toList_intercalate]
  rfl

omit [Interpreter] in
theorem truthy_inj {s s' : String} (h : truthy (some s) = truthy (some s')) : s = s' := by
  have hvalue : ∀ t : String, (truthy (some t)).getD "" = t := by
    intro t
    by_cases ht : t = "" <;> simp [truthy,Option.filter,ht]
  rw [← hvalue s,h,hvalue]

/-- Two orders that begin with a pair of fields and its reverse show that their answers
commute. -/
theorem OrderFree.commute (h : OrderFree fieldData) {field field' text text' : String}
    (hfield : field ∈ locationFields) (hfield' : field' ∈ locationFields)
    (htext : answer fieldData field = some text) (htext' : answer fieldData field' = some text') :
    Commute (ended [',',' '] text.toList) (ended [',',' '] text'.toList) := by
  by_cases hsame : field = field'
  · subst hsame
    obtain rfl := Option.some.inj (htext.symm.trans htext')
    exact .refl _
  obtain ⟨rest,hrest⟩ : ∃ rest, (field :: field' :: rest).Perm locationFields := by
    have hmem : field' ∈ locationFields.erase field :=
      (List.mem_erase_of_ne (Ne.symm hsame)).mpr hfield'
    exact ⟨_,((List.perm_cons_erase hfield).trans
      ((List.perm_cons_erase hmem).cons field)).symm⟩
  have hloc := h (answersEnv _ []) (answersEnv _ []) (answersJob "") hrest
    ((List.Perm.swap field field' rest).trans hrest)
  rw [location_leadAdEvent,location_leadAdEvent] at hloc
  have hjoined := congrArg String.toList (truthy_inj hloc)
  rw [toList_joinedLocation,toList_joinedLocation] at hjoined
  simp only [answersEnv,List.filterMap_cons,htext,htext',List.map_cons] at hjoined
  exact commute_of_swap hjoined

theorem orderFree_iff : OrderFree fieldData ↔ OnePlace fieldData := by
  constructor
  · intro h
    have hcommute : ∀ x ∈ (locationFields.filterMap (answer fieldData)).map String.toList,
        ∀ y ∈ (locationFields.filterMap (answer fieldData)).map String.toList,
          Commute (ended [',',' '] x) (ended [',',' '] y) := by
      simp only [List.forall_mem_map,List.mem_filterMap,forall_exists_index,and_imp]
      intro text field hfield htext text' field' hfield' htext'
      exact h.commute hfield hfield' htext htext'
    obtain ⟨u,hu⟩ := exists_repeats (by decide) hcommute
    refine ⟨String.ofList u,fun field hfield text htext => ?_⟩
    rw [repeats_iff,String.toList_ofList]
    exact hu _ (List.mem_map_of_mem (List.mem_filterMap.mpr ⟨field,hfield,htext⟩))
  · rintro ⟨place,hplace⟩ env env' job horder horder'
    rw [location_leadAdEvent,location_leadAdEvent]
    congr 2
    rw [← String.toList_inj,toList_joinedLocation,toList_joinedLocation]
    refine intercalate_perm (((horder.trans horder'.symm).filterMap _).map _) ?_
    have hrepeats : ∀ part ∈ (env.locationOrder.filterMap (answer fieldData)).map String.toList,
        Repeats [',',' '] place.toList part := by
      simp only [List.forall_mem_map,List.mem_filterMap,forall_exists_index,and_imp]
      intro text field hfield htext
      exact repeats_iff.mp (hplace field (horder.mem_iff.mp hfield) text htext)
    exact fun x hx y hy => commute_of_repeats (hrepeats x hx) (hrepeats y hy)

/-- A captured form without phone and email is found again by its name and location. -/
theorem capture_by_place {s s₁ : Store} {f : Fresh} {e e' : NormalisedChannelEvent} {c : Captured}
    (hc : Consistent s) (hf : f.For s) (hslot : ¬ SlotTaken s e.platformEventId)
    (h : runCapture s f e = .ok (s₁,c)) (hphone : e.phone = none ∧ e'.phone = none)
    (hemail : e.email = none ∧ e'.email = none) (htenant : e.tenantId = e'.tenantId)
    (hplace : ∃ name place, truthy e.fullName = some name ∧ truthy e.location = some place)
    (hsame : e.fullName = e'.fullName ∧ e.location = e'.location) :
    findDuplicate s₁ e'.tenantId e' = .ok (some c.lead) ∧ Consistent s₁ := by
  have hno : ∀ l, ¬ MatchesPhone e l ∧ ¬ MatchesEmail e l := fun l =>
    ⟨by simp [MatchesPhone,storedPhone,hphone.1],by simp [MatchesEmail,storedEmail,hemail.1]⟩
  have hno' : ∀ l, ¬ MatchesPhone e' l ∧ ¬ MatchesEmail e' l := fun l =>
    ⟨by simp [MatchesPhone,storedPhone,hphone.2],by simp [MatchesEmail,storedEmail,hemail.2]⟩
  have hfound : ∀ l ∈ s₁.leads, l.tenantId = e.tenantId → MatchesPlace e l → Consistent s₁ →
      findDuplicate s₁ e'.tenantId e' = .ok (some l) := by
    intro l hl ht hmatch hc₁
    rw [findDuplicate_some hc₁.identities]
    refine ⟨hl,ht.trans htenant,Or.inr ⟨fun l' _ _ => (hno' l').1,Or.inr
      ⟨fun l' _ _ => (hno' l').2,?_⟩⟩⟩
    rwa [MatchesPlace,← hsame.1,← hsame.2]
  obtain ⟨found,hdup⟩ := findDuplicate_ok hc.identities e.tenantId e
  cases found with
  | none =>
    rw [runCapture_new hf hslot hdup] at h
    obtain ⟨rfl,rfl⟩ := Prod.mk.inj (Except.ok.inj h)
    have hc₁ : Consistent (withNewLead s f e) :=
      (Change.captured e hslot hdup).consistent hf hc
    obtain ⟨name,place,hname,hloc⟩ := hplace
    refine ⟨hfound (newLead f e) (by simp [withNewLead]) rfl ?_ hc₁,hc₁⟩
    exact ⟨name,place,hname,hloc,(truthy_eq_some.mp hname).1,(truthy_eq_some.mp hloc).1⟩
  | some l =>
    rw [runCapture_duplicate hf hslot hdup] at h
    obtain ⟨rfl,rfl⟩ := Prod.mk.inj (Except.ok.inj h)
    have hc₁ : Consistent (withDuplicate s f e l) :=
      (Change.attached e l hslot hdup).consistent hf hc
    obtain ⟨hl,ht,hmatch⟩ := findDuplicate_mem hdup
    have hplace' : MatchesPlace e l :=
      (hmatch.resolve_left (hno l).1).resolve_left (hno l).2
    exact ⟨hfound l hl ht hplace' hc₁,hc₁⟩

theorem SamePerson.name_ne_empty (h : SamePerson fieldData fieldData') :
    ∃ name, truthy (adFullName (flattenItems fieldData)) = some name := by
  obtain ⟨name,hname,_⟩ := h.name
  refine ⟨name,truthy_eq_some.mpr ⟨hname,?_⟩⟩
  unfold adFullName at hname
  rw [get?_flattenItems] at hname
  cases hfull : answer fieldData "full_name" with
  | some full =>
    rw [hfull] at hname
    obtain rfl := Option.some.inj hname
    exact (answer_some hfull).1
  | none =>
    rw [hfull] at hname
    exact (truthy_eq_some.mp hname).2

theorem SamePerson.location_ne_empty (h : SamePerson fieldData fieldData') {env : LeadAdEnv}
    (horder : env.locationOrder.Perm locationFields) (job : LeadAdPayload) :
    ∃ place, truthy (leadAdEvent env job fieldData).location = some place := by
  obtain ⟨field,hfield,hanswer⟩ := h.placed
  obtain ⟨text,htext⟩ := Option.ne_none_iff_exists'.mp hanswer
  have hne : joinedLocation env.locationOrder fieldData ≠ "" :=
    ne_empty_of_occurs (answer_some htext).1
      (infix_joinedLocation (horder.mem_iff.mpr hfield) htext)
  refine ⟨_,truthy_eq_some.mpr ⟨?_,hne⟩⟩
  rw [location_leadAdEvent]
  exact truthy_eq_some.mpr ⟨rfl,hne⟩

theorem SamePerson.unreached (h : SamePerson fieldData fieldData') (env env' : LeadAdEnv)
    (job job' : LeadAdPayload) :
    ((leadAdEvent env job fieldData).phone = none ∧
      (leadAdEvent env' job' fieldData').phone = none) ∧
    (leadAdEvent env job fieldData).email = none ∧
      (leadAdEvent env' job' fieldData').email = none := by
  have hphone := h.unreachable "phone_number" (by simp)
  have hwork := h.unreachable "work_phone_number" (by simp)
  have hemail := h.unreachable "email" (by simp)
  have hfields := normaliseLeadAdForm_fields fieldData env.locationOrder job.leadgenId
    job.tenantId (some job.channelConnectionId) job.rawPayload
  have hfields' := normaliseLeadAdForm_fields fieldData' env'.locationOrder job'.leadgenId
    job'.tenantId (some job'.channelConnectionId) job'.rawPayload
  simp only [leadAdEvent,hfields.phone,hfields'.phone,hfields.email,hfields'.email,hphone,
    hwork,hemail,Option.none_or,Option.map_none,and_self]

theorem SamePerson.location_eq (h : SamePerson fieldData fieldData') {env : LeadAdEnv}
    (horder : env.locationOrder.Perm locationFields) (job job' : LeadAdPayload) :
    (leadAdEvent env job fieldData).location = (leadAdEvent env job' fieldData').location := by
  rw [location_leadAdEvent,location_leadAdEvent,joinedLocation,joinedLocation]
  congr 3
  exact List.filterMap_congr fun field hfield => h.places field (horder.mem_iff.mp hfield)

theorem OrderFree.merged (h : OrderFree fieldData) : Merged fieldData := by
  intro fieldData' hperson env env' job job' horder horder' htenant w f hw hf hslot
  have hc := consistent_of_reachable hw
  have hcaptured : ∃ r, runCapture w.store f (leadAdEvent env job fieldData) = .ok r := by
    obtain ⟨found,hdup⟩ := findDuplicate_ok hc.identities job.tenantId
      (leadAdEvent env job fieldData)
    cases found with
    | none => exact ⟨_,runCapture_new hf hslot hdup⟩
    | some l => exact ⟨_,runCapture_duplicate hf hslot hdup⟩
  obtain ⟨⟨s₁,c⟩,hrun⟩ := hcaptured
  refine ⟨s₁,c,hrun,fun f' hf' hslot' => ?_⟩
  obtain ⟨hphone,hemail⟩ := hperson.unreached env env' job job'
  have hname : (leadAdEvent env job fieldData).fullName =
      (leadAdEvent env' job' fieldData').fullName := by
    obtain ⟨name,hname,hname'⟩ := hperson.name
    exact hname.trans hname'.symm
  obtain ⟨name,hnamed⟩ := hperson.name_ne_empty
  obtain ⟨place,hplaced⟩ := hperson.location_ne_empty horder job
  have hlocation : (leadAdEvent env job fieldData).location =
      (leadAdEvent env' job' fieldData').location :=
    (h env env' job horder horder').trans (hperson.location_eq horder' job job')
  obtain ⟨hdup,_⟩ := capture_by_place hc hf hslot hrun hphone hemail htenant
    ⟨name,place,hnamed,hplaced⟩ ⟨hname,hlocation⟩
  exact ⟨_,runCapture_duplicate hf' hslot' hdup,rfl⟩

/-- The location depends on no order, and the forms of one person are merged, exactly when all
answers about the place repeat one text. -/
theorem location_order_free_iff (fieldData : List FieldItem) :
    OrderFree fieldData ∧ Merged fieldData ↔ OnePlace fieldData :=
  ⟨fun h => orderFree_iff.mp h.1,fun h =>
    ⟨orderFree_iff.mpr h,(orderFree_iff.mpr h).merged⟩⟩

def mumbaiAnswers : List FieldItem :=
  [⟨some (.str "full_name"),some [.str "Asha"]⟩,⟨some (.str "city"),some [.str "Mumbai"]⟩,
    ⟨some (.str "state"),some [.str "Maharashtra"]⟩]

omit [Interpreter] in
theorem samePerson_mumbai :
    letI := Interpreter.ascii id
    SamePerson mumbaiAnswers mumbaiAnswers := by
  let := Interpreter.ascii id
  exact ⟨⟨"Asha",by decide +kernel,by decide +kernel⟩,fun _ _ => rfl,by decide +kernel,
    by decide +kernel⟩

omit [Interpreter] in
/-- Two workers build two locations, and two leads of the one person. -/
theorem location_depends_on_order :
    letI := Interpreter.ascii id
    ¬ OrderFree mumbaiAnswers ∧ ¬ Merged mumbaiAnswers := by
  let := Interpreter.ascii id
  let env := answersEnv locationFields mumbaiAnswers
  let env' := answersEnv locationFields.reverse mumbaiAnswers
  have hperm : env'.locationOrder.Perm locationFields := List.reverse_perm _
  constructor
  · intro h
    have hdiffer : (leadAdEvent env (answersJob "l.1") mumbaiAnswers).location ≠
        (leadAdEvent env' (answersJob "l.1") mumbaiAnswers).location := by decide +kernel
    exact hdiffer (h env env' _ (.refl _) hperm)
  · intro h
    have hslot : ∀ id, ¬ SlotTaken .empty id := by simp [SlotTaken,Store.empty]
    obtain ⟨s₁,c,hrun,hmerged⟩ := h mumbaiAnswers samePerson_mumbai env env' (answersJob "l.1")
      (answersJob "l.2") (.refl _) hperm rfl .empty (.nth 1) .refl
      (by constructor <;> simp [World.empty,Store.empty]) (hslot _)
    have hempty : (Fresh.nth 1).For .empty := by constructor <;> simp [Store.empty]
    have hfirst : runCapture .empty (.nth 1) (leadAdEvent env (answersJob "l.1") mumbaiAnswers) =
        .ok (withNewLead .empty (.nth 1) (leadAdEvent env (answersJob "l.1") mumbaiAnswers),_) :=
      runCapture_new hempty (hslot _) (findDuplicate_none.mpr (by simp [Store.empty]))
    obtain ⟨rfl,_⟩ := Prod.mk.inj (Except.ok.inj (hrun.symm.trans hfirst))
    obtain ⟨s₂,hsecond,hleads⟩ := hmerged (.nth 2)
      (by constructor <;> simp [withNewLead,Store.empty,Fresh.nth,settledLog,pendingLog,newLead,
        buildTouchpoint]) (by decide +kernel)
    have hcount : (runCapture (withNewLead .empty (.nth 1)
        (leadAdEvent env (answersJob "l.1") mumbaiAnswers)) (.nth 2)
        (leadAdEvent env' (answersJob "l.2") mumbaiAnswers)).toOption.map
          (fun r => r.1.leads.length) = some 2 := by decide +kernel
    rw [hsecond] at hcount
    simp [Except.toOption,hleads,withNewLead,Store.empty] at hcount

end LeadAds
end LeadEngine
