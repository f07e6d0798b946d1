import LeadEngine.ErasureScope

/-! Phones as identities: which lead a phone finds, compared with the phone of the event that
made the lead. -/
namespace LeadEngine
namespace History

open Table Interpreter Repository Deduplicator Pipeline Erasure TransitionSystem

section Digits

variable [Interpreter]

def digits (phone : String) : List Char := phone.toList.filter isDecimal

theorem isDecimal_plus : isDecimal '+' = false :=
  (isDecimal_ascii '+' (by decide)).trans (by decide)

theorem digits_normalisePhone (phone : String) : digits (normalisePhone phone) = digits phone := by
  have hkept : (phone.toList.filter fun c => isDecimal c || c == '+').filter isDecimal =
      digits phone := by
    rw [List.filter_filter,digits]
    refine List.filter_congr fun c _ => ?_
    cases isDecimal c <;> simp
  unfold normalisePhone
  split
  · rename_i rest hplus
    rw [hplus] at hkept
    rw [← hkept,digits,String.toList_ofList,List.filter_cons_of_neg (by simp [isDecimal_plus]),
      List.filter_cons_of_neg (by simp [isDecimal_plus]),List.filter_filter]
    refine List.filter_congr fun c _ => ?_
    by_cases hc : c = '+'
    · simp [hc,isDecimal_plus]
    · simp [hc]
  · rw [← hkept,digits,String.toList_ofList]

def SameNumber (p q : String) : Prop := digits p = digits q ∧ digits p ≠ []

theorem sameNumber_of_normalised {p q v : String} (hp : normalisePhone p = v)
    (hq : normalisePhone q = v) (hv : digits v ≠ []) : SameNumber p q := by
  have hpv : digits p = digits v := by rw [← hp,digits_normalisePhone]
  have hqv : digits q = digits v := by rw [← hq,digits_normalisePhone]
  exact ⟨hpv.trans hqv.symm,by rwa [hpv]⟩

end Digits

section Soundness

variable [Interpreter] {tr : List (Transition World Attempt)}

/-- The lead with this id first appeared in a step that processed the event. -/
def Created (tr : List (Transition World Attempt)) (i : UUID) (e : NormalisedChannelEvent) : Prop :=
  ∃ x ∈ tr, (∃ route, x.2.1.op.route = some route ∧ route.event = e) ∧
    i ∉ leadIds x.1.store ∧ i ∈ leadIds x.2.2.store

/-- The lead was made by an event whose phone has the same digits as `p`, and some. -/
def CreatedWith (tr : List (Transition World Attempt)) (i : UUID) (p : String) : Prop :=
  ∃ e q, Created tr i e ∧ e.phone = some q ∧ SameNumber p q

/-- A lead is found by phone, for an event or for an erasure, only if the event that made it
had that number. -/
structure PhoneSound (tr : List (Transition World Attempt)) (w : World) : Prop where
  dedup : ∀ (e : NormalisedChannelEvent) l p, findDuplicate w.store e.tenantId e = .ok (some l) →
    MatchesPhone e l → e.phone = some p → CreatedWith tr l.id p
  erasure : ∀ t p email who now, ∀ l ∈ w.store.leads,
    l.id ∈ (Erasure.eraseLeadByIdentity w.store now t (some p) email who).2.1 →
      CreatedWith tr l.id p

def MakesLead (s : Store) : Route → Prop
  | .capture e => ¬ SlotTaken s e.platformEventId ∧ findDuplicate s e.tenantId e = .ok none
  | .terminal e _ _ => ¬ SlotTaken s e.platformEventId

/-- An event that becomes a lead has no phone, or a phone with a digit. -/
def NumberedStep (w : World) (a : Attempt) : Prop :=
  a.commits = true → ∀ route, a.op.route = some route → MakesLead w.store route →
    ∀ p, truthy route.event.phone = some p → digits p ≠ []

def Numbered (s : Store) : Prop := ∀ l ∈ s.leads, ∀ v, l.phone = some v → digits v ≠ []

/-- Each lead that stores a phone was made by an event of its tenant stored under that phone. -/
def Originates (tr : List (Transition World Attempt)) (s : Store) : Prop :=
  ∀ l ∈ s.leads, ∀ v, l.phone = some v →
    ∃ e, Created tr l.id e ∧ e.tenantId = l.tenantId ∧ storedPhone e = some v

theorem Created.append {tr' : List (Transition World Attempt)} {i : UUID}
    {e : NormalisedChannelEvent} (h : Created tr i e) : Created (tr ++ tr') i e := by
  obtain ⟨x,hx,hrest⟩ := h
  exact ⟨x,List.mem_append_left _ hx,hrest⟩

theorem Ran.made_lead {route : Route} {s s' : Store} {f : Fresh}
    {received : Option LeadReceived} (h : Ran s f route s' received) :
    (∃ l, MakesLead s route ∧ l.id = f.leadId ∧ l.tenantId = route.event.tenantId ∧
      l.phone = storedPhone route.event ∧ s'.leads = s.leads ++ [l]) ∨
      ¬ MakesLead s route ∧ s'.leads = s.leads := by
  cases h with
  | redelivered _ hslot =>
    refine Or.inr ⟨fun hmakes => ?_,rfl⟩
    cases route with
    | capture e => exact hmakes.1 hslot
    | terminal => exact hmakes hslot
  | captured e hslot hdup => exact Or.inl ⟨newLead f e,⟨hslot,hdup⟩,rfl,rfl,rfl,rfl⟩
  | attached e existing _ hdup =>
    refine Or.inr ⟨fun hmakes => ?_,rfl⟩
    have hnone := hmakes.2
    simp [hdup] at hnone
  | stopped e stage reason hslot =>
    exact Or.inl ⟨terminalLead f e stage reason,hslot,rfl,rfl,rfl,rfl⟩

/-- Where the leads with a phone come from in a step: they were there, or the event of the step
became the lead. -/
theorem Step.phone_lead {w w' : World} {a : Attempt} (h : Step w a w') {l : Lead}
    (hl : l ∈ w'.store.leads) {v : String} (hv : l.phone = some v) :
    l ∈ w.store.leads ∨ a.commits = true ∧ ∃ route, a.op.route = some route ∧
      MakesLead w.store route ∧ l.id ∉ leadIds w.store ∧ l.tenantId = route.event.tenantId ∧
        storedPhone route.event = some v := by
  cases h with
  | rollback => exact Or.inl hl
  | @commit op f s received hf hexec =>
    cases hroute : op.route with
    | some route =>
      obtain ⟨x,hmakes,hid,htenant,hphone,hleads⟩ | ⟨_,hleads⟩ :=
        (Op.ran hf hroute hexec).made_lead
      · rw [hleads,List.mem_append,List.mem_singleton] at hl
        obtain hl | rfl := hl
        · exact Or.inl hl
        · have hnew : l.id ∉ leadIds w.store := by
            rw [leadIds,List.mem_map]
            rintro ⟨x,hx,hsame⟩
            exact hf.lead x hx (hsame.trans hid)
          exact Or.inr ⟨rfl,route,rfl,hmakes,hnew,htenant,hphone.symm.trans hv⟩
      · rw [hleads] at hl
        exact Or.inl hl
    | none =>
      cases hred : op.redacts with
      | false =>
        obtain ⟨new,hleads,hnone⟩ := (Op.unrouted hroute hred hexec).leads
        rw [hleads,List.mem_append] at hl
        obtain hl | hl := hl
        · exact Or.inl hl
        · simp [hnone l hl] at hv
      | true =>
        obtain ⟨g,hg,hleads⟩ := (Op.redaction hred hexec).1.leads
        rw [hleads,List.mem_map] at hl
        obtain ⟨x,hx,rfl⟩ := hl
        obtain hsame | ⟨_,_,_,_,hscrub⟩ := hg x
        · rw [hsame]
          exact Or.inl hx
        · rw [hscrub] at hv
          simp [scrub] at hv

theorem Originates.step {w w' : World} {a : Attempt} (h : Originates tr w.store)
    (hstep : Step w a w') : Originates (tr ++ [(w,a,w')]) w'.store := by
  intro l hl v hv
  obtain hold | ⟨_,route,hroute,_,hnew,htenant,hphone⟩ := hstep.phone_lead hl hv
  · obtain ⟨e,hcreated,hrest⟩ := h l hold v hv
    exact ⟨e,hcreated.append,hrest⟩
  · refine ⟨route.event,⟨(w,a,w'),List.mem_append_right _ (List.mem_singleton.mpr rfl),
      ⟨route,hroute,rfl⟩,hnew,List.mem_map_of_mem hl⟩,htenant.symm,hphone⟩

theorem originates_of_path {w : World} (h : Path Step .empty tr w) : Originates tr w.store := by
  induction h with
  | nil => simp [Originates,World.empty,Store.empty]
  | snoc _ hstep ih => exact ih.step hstep

theorem Step.numbered_iff {w w' : World} {a : Attempt} (h : Step w a w')
    (hn : Numbered w.store) : Numbered w'.store ↔ NumberedStep w a := by
  constructor
  · intro hn' hcommits route hroute hmakes p hp
    cases h with
    | rollback => simp at hcommits
    | commit hf hexec =>
      obtain ⟨l,_,_,_,hphone,hleads⟩ | ⟨hno,_⟩ := (Op.ran hf hroute hexec).made_lead
      · have hl : l ∈ w.store.leads ++ [l] := by simp
        rw [← hleads] at hl
        have hstored : l.phone = some (normalisePhone p) := by
          rw [hphone,storedPhone,hp]
          rfl
        rw [← digits_normalisePhone]
        exact hn' l hl _ hstored
      · exact absurd hmakes hno
  · intro hguard l hl v hv
    obtain hold | ⟨hcommits,route,hroute,hmakes,_,_,hphone⟩ := h.phone_lead hl hv
    · exact hn l hold v hv
    · obtain ⟨p,hp,rfl⟩ := Option.map_eq_some_iff.mp hphone
      rw [digits_normalisePhone]
      exact hguard hcommits route hroute hmakes p hp

theorem phone_of_erased_id {s : Store} {now : Time} {t : UUID} {p : String}
    {email : Option String} {who : String} {i : UUID}
    (h : i ∈ (Erasure.eraseLeadByIdentity s now t (some p) email who).2.1) :
    ∃ l ∈ s.leads, l.id = i ∧ l.tenantId = t ∧ l.phone = some (normalisePhone p) := by
  have hids : i ∈ (findLeads s t .phone (normalisePhone p)).map Lead.id := by
    rwa [Erasure.eraseLeadByIdentity,eraseIdentity_ids] at h
  obtain ⟨l,hl,hid⟩ := List.mem_map.mp hids
  simp only [findLeads,List.mem_filter,decide_eq_true_eq] at hl
  exact ⟨l,hl.1,hid,hl.2⟩

/-- Phones are sound identities exactly as long as every stored phone has a digit. -/
theorem phoneSound_iff_numbered {w : World} (h : Path Step .empty tr w) :
    PhoneSound tr w ↔ Numbered w.store := by
  have hc := consistent_of_reachable h.reachable
  have horigin := originates_of_path h
  constructor
  · -- the phone a lead was made with finds that lead
    intro hsound l hl v hv
    obtain ⟨e,_,htenant,hstored⟩ := horigin l hl v hv
    obtain ⟨p,hp,rfl⟩ := Option.map_eq_some_iff.mp hstored
    have hmatch : MatchesPhone e l := ⟨_,hstored,hv⟩
    have hfound := (findDuplicate_some hc.identities).mpr ⟨hl,htenant.symm,Or.inl hmatch⟩
    obtain ⟨_,_,_,_,_,hdigits⟩ := hsound.dedup e l p hfound hmatch (truthy_eq_some.mp hp).1
    rwa [digits_normalisePhone]
  · intro hn
    have hcreated : ∀ l ∈ w.store.leads, ∀ p, l.phone = some (normalisePhone p) →
        CreatedWith tr l.id p := by
      intro l hl p hphone
      obtain ⟨e,hmade,_,hstored⟩ := horigin l hl _ hphone
      obtain ⟨q,hq,hqp⟩ := Option.map_eq_some_iff.mp hstored
      exact ⟨e,q,hmade,(truthy_eq_some.mp hq).1,
        sameNumber_of_normalised rfl hqp (hn l hl _ hphone)⟩
    constructor
    · intro e l p hfound hmatch hp
      obtain ⟨v,hstored,hv⟩ := hmatch
      obtain ⟨p',hp',rfl⟩ := Option.map_eq_some_iff.mp hstored
      have hsame : p' = p := Option.some.inj ((truthy_eq_some.mp hp').1.symm.trans hp)
      exact hcreated l (findDuplicate_mem hfound).1 p (hsame ▸ hv)
    · intro t p email who now l hl hid
      obtain ⟨x,hx,hsame,_,hphone⟩ := phone_of_erased_id hid
      obtain rfl := (uniqueOn_some_iff.mpr hc.leadIds).eq_of_key hx hl (congrArg some hsame) rfl
      exact hcreated x hx p hphone

/-- In a run a phone finds only leads of its own number, exactly when every event that becomes a
lead has no phone or a phone with a digit. -/
theorem phone_sound_iff {w : World} (h : Path Step .empty tr w) :
    (∀ tr₁ w₁, tr₁ <+: tr → Path Step .empty tr₁ w₁ → PhoneSound tr₁ w₁) ↔
      ∀ x ∈ tr, NumberedStep x.1 x.2.1 := by
  refine Path.always_iff_guard (P := PhoneSound) ?_ ?_ h
  · rw [phoneSound_iff_numbered .nil]
    simp [Numbered,World.empty,Store.empty]
  · intro tr w a w' hpath hsound hstep
    rw [phoneSound_iff_numbered (hpath.snoc hstep)]
    exact hstep.numbered_iff ((phoneSound_iff_numbered hpath).mp hsound)

end Soundness

def phoneCell (platformEventId name phone : String) : Op :=
  .runCapture (.ofMessage 1 platformEventId (some name) (some phone) none none "row")

def numberedRun : List (Op × Fresh) :=
  [(phoneCell "a" "Ann" "+49 151",.nth 1),(phoneCell "b" "Ann" "+49-151",.nth 2),
    (phoneCell "c" "Bob" "+49 152",.nth 3)]

theorem numbered_run_sound :
    letI := Interpreter.ascii id
    (play .empty numberedRun).store.logs.map IntakeEventLog.status =
      [.received,.duplicate,.received] ∧
      PhoneSound (trace .empty numberedRun) (play .empty numberedRun) := by
  let := Interpreter.ascii id
  have hguard : ∀ x ∈ trace .empty numberedRun, NumberedStep x.1 x.2.1 := by
    have hsteps : (trace .empty numberedRun).all (fun x => match x.2.1.op.route with
        | some route => (truthy route.event.phone).all fun p => digits p ≠ []
        | none => true) = true := by decide +kernel
    intro x hx _ route hroute _ p hp
    have hx := List.all_eq_true.mp hsteps x hx
    simpa [hroute,hp] using hx
  exact ⟨by decide +kernel,(phone_sound_iff (path_trace .empty numberedRun)).mpr hguard _ _
    List.prefix_rfl (path_trace .empty numberedRun)⟩

def placeholderRun : List (Op × Fresh) :=
  [(phoneCell "a" "Ann" "n/a",.nth 1),(phoneCell "b" "Bob" "tbd",.nth 2)]

/-- They become one lead, and erasing by the cell of the second erases the first. -/
theorem placeholders_merge :
    letI := Interpreter.ascii id
    let w := play .empty placeholderRun
    w.store.leads.map Lead.fullName = [some "Ann"] ∧
      w.store.logs.map (fun r => (r.status,r.leadId)) =
        [(.received,some 1),(.duplicate,some 1)] ∧
      (Erasure.eraseLeadByIdentity w.store 3 1 (some "tbd") none "owner").2.1 = [1] ∧
      ¬ PhoneSound (trace .empty placeholderRun) w := by
  let := Interpreter.ascii id
  refine ⟨by decide +kernel,by decide +kernel,by decide +kernel,fun hsound => ?_⟩
  have hn := (phoneSound_iff_numbered (path_trace .empty placeholderRun)).mp hsound
  have hempty : ∃ l ∈ (play .empty placeholderRun).store.leads, l.phone = some "" := by
    decide +kernel
  obtain ⟨l,hl,hphone⟩ := hempty
  exact hn l hl "" hphone rfl

end History
end LeadEngine
