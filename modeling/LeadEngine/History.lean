import LeadEngine.Change
import LeadEngine.TransitionSystem

/-! Histories of the lead tables: the operations run one transaction after another.
What a change does to each table is summarised once; the invariants of reachable
stores are read off the summaries. -/
namespace LeadEngine
namespace History

open Table Interpreter Repository Deduplicator Pipeline Erasure FileUpload Normaliser
open TransitionSystem

variable [Interpreter]

section Tables

omit [Interpreter]

@[simp] theorem scrubs_id {g : Lead → Lead} (h : Scrubs g) (l : Lead) : (g l).id = l.id := by
  obtain hg | ⟨_,_,_,_,hg⟩ := h l
  · rw [hg]
  · rw [hg]
    rfl

@[simp] theorem scrubs_tenantId {g : Lead → Lead} (h : Scrubs g) (l : Lead) :
    (g l).tenantId = l.tenantId := by
  obtain hg | ⟨_,_,_,_,hg⟩ := h l
  · rw [hg]
  · rw [hg]
    rfl

theorem scrubs_keys {g : Lead → Lead} (h : Scrubs g) (l : Lead) :
    (∀ k, (g l).phoneKey = some k → l.phoneKey = some k) ∧
      (∀ k, (g l).emailKey = some k → l.emailKey = some k) ∧
      ∀ k, (g l).placeKey = some k → l.placeKey = some k := by
  obtain hg | ⟨stage,tombstone,_,_,hg⟩ := h l
  · rw [hg]
    exact ⟨fun _ => id,fun _ => id,fun _ => id⟩
  · obtain ⟨hp,he,hn⟩ := scrub_keys stage tombstone l
    rw [hg,hp,he,hn]
    simp

theorem redactsLog_fields {g : IntakeEventLog → IntakeEventLog} (h : RedactsLog g)
    (r : IntakeEventLog) : (g r).id = r.id ∧ (g r).platformEventId = r.platformEventId ∧
      (g r).leadId = r.leadId ∧ (g r).tenantId = r.tenantId ∧ (g r).status = r.status := by
  obtain hg | ⟨_,_,hg⟩ := h r <;> rw [hg] <;> exact ⟨rfl,rfl,rfl,rfl,rfl⟩

theorem redactsTouchpoint_fields {g : LeadTouchpoint → LeadTouchpoint}
    (h : RedactsTouchpoint g) (t : LeadTouchpoint) : (g t).id = t.id ∧
      (g t).leadId = t.leadId ∧ (g t).platformEventId = t.platformEventId := by
  obtain hg | ⟨_,_,hg⟩ := h t <;> rw [hg] <;> exact ⟨rfl,rfl,rfl⟩

theorem map_map_of_eq {α β : Type} {g : α → α} {column : α → β}
    (h : ∀ a, column (g a) = column a) (rows : List α) :
    (rows.map g).map column = rows.map column := by
  rw [List.map_map]
  exact List.map_congr_left fun a _ => h a

theorem nodup_append_singleton {α : Type} {xs : List α} {x : α} (h : xs.Nodup) (hx : x ∉ xs) :
    (xs ++ [x]).Nodup :=
  List.nodup_append.mpr ⟨h,List.nodup_singleton x,fun _ ha b hb hab =>
    hx (by rw [← List.mem_singleton.mp hb,← hab]; exact ha)⟩

end Tables

structure Inserted (s : Store) (f : Fresh) (l : Lead) : Prop where
  id : l.id = f.leadId
  stage : l.pipelineStage ≠ .erased ∧ l.pipelineStage ≠ .anonymised
  phone : ¬ Conflicts Lead.phoneKey s.leads l
  email : ¬ Conflicts Lead.emailKey s.leads l
  place : ¬ Conflicts Lead.placeKey s.leads l

theorem inserted_newLead {s : Store} {f : Fresh} {e : NormalisedChannelEvent}
    (h : ∀ l ∈ s.leads, ¬ Matches e.tenantId e l) : Inserted s f (newLead f e) where
  id := rfl
  stage := by simp [newLead]
  phone := (not_conflicts_newLead h).1
  email := (not_conflicts_newLead h).2
  place := by
    rintro ⟨l,hl,hk,hsome⟩
    obtain ⟨k,hnew⟩ := Option.isSome_iff_exists.mp hsome
    rw [hnew] at hk
    obtain ⟨ht,hn,hp⟩ := Lead.placeKey_eq_some.mp (hnew : _ = some (k.1,k.2.1,k.2.2))
    obtain ⟨ht',hn',hp'⟩ := Lead.placeKey_eq_some.mp (hk : _ = some (k.1,k.2.1,k.2.2))
    have hmatch : MatchesPlace e l :=
      ⟨k.2.1,k.2.2,hn,hp,(truthy_eq_some.mp hn').1,(truthy_eq_some.mp hp').1⟩
    exact h l hl ⟨ht'.trans ht.symm,Or.inr (Or.inr hmatch)⟩

theorem inserted_terminalLead {s : Store} {f : Fresh} {e : NormalisedChannelEvent}
    (stage : TerminalStage) (reason : Option String) (hfree : PhoneFree s e) :
    Inserted s f (terminalLead f e stage reason) where
  id := rfl
  stage := by simp [terminalLead]
  phone := fun h => (conflicts_terminalLead_iff stage reason).mp h hfree
  email := not_conflicts_email_terminalLead s f e stage reason
  place := by
    rintro ⟨_,_,_,hsome⟩
    simp [Lead.placeKey,terminalLead] at hsome

omit [Interpreter] in
theorem inserted_blockedLead (s : Store) (f : Fresh) (tenantId : UUID) (row : Row)
    (extraFields : Dict String Json) (reason : String) :
    Inserted s f (blockedLead f tenantId row extraFields reason) where
  id := rfl
  stage := by simp [blockedLead]
  phone := by
    rintro ⟨_,_,_,hsome⟩
    simp [Lead.phoneKey,blockedLead] at hsome
  email := by
    rintro ⟨_,_,_,hsome⟩
    simp [Lead.emailKey,blockedLead] at hsome
  place := by
    rintro ⟨_,_,_,hsome⟩
    simp [Lead.placeKey,blockedLead] at hsome

section Summaries

variable {s s' : Store} {f : Fresh} {received : Option LeadReceived}

theorem Change.leads (h : Change s f s' received) :
    (∃ g, Scrubs g ∧ s'.leads = s.leads.map g) ∨
      ∃ l, Inserted s f l ∧ s'.leads = s.leads ++ [l] := by
  have hsame : ∃ g, Scrubs g ∧ s.leads = s.leads.map g := ⟨id,fun _ => Or.inl rfl,by simp⟩
  cases h with
  | redacted h => exact Or.inl h.leads
  | captured e _ hdup => exact Or.inr ⟨_,inserted_newLead (findDuplicate_none.mp hdup),rfl⟩
  | attached => exact Or.inl hsame
  | stopped e stage reason _ hfree =>
    exact Or.inr ⟨_,inserted_terminalLead stage reason hfree,rfl⟩
  | blocked => exact Or.inr ⟨_,inserted_blockedLead ..,rfl⟩
  | orphaned => exact Or.inl hsame

theorem Change.keeps_lead (h : Change s f s' received) {l : Lead} (hl : l ∈ s.leads) :
    ∃ l' ∈ s'.leads, l'.id = l.id ∧ l'.tenantId = l.tenantId := by
  obtain ⟨g,hg,hs⟩ | ⟨x,_,hs⟩ := h.leads
  · exact ⟨g l,by rw [hs]; exact List.mem_map_of_mem hl,scrubs_id hg l,scrubs_tenantId hg l⟩
  · exact ⟨l,by rw [hs]; exact List.mem_append_left _ hl,rfl,rfl⟩

def LinkedLog (s : Store) (r : IntakeEventLog) : Prop :=
  ∀ i, r.leadId = some i → ∃ l ∈ s.leads, l.id = i ∧ r.tenantId = some l.tenantId

def LinkedTouchpoint (s : Store) (t : LeadTouchpoint) : Prop :=
  ∃ l ∈ s.leads, l.id = t.leadId

theorem Change.logs (h : Change s f s' received) :
    (∃ g, RedactsLog g ∧ s'.logs = s.logs.map g) ∨
      ∃ r, r.id = f.logId ∧ ¬ SlotTaken s r.platformEventId ∧ LinkedLog s' r ∧
        s'.logs = s.logs ++ [r] := by
  have hsame : ∃ g, RedactsLog g ∧ s.logs = s.logs.map g := ⟨id,fun _ => Or.inl rfl,by simp⟩
  cases h with
  | redacted h => exact Or.inl h.logs
  | captured e hslot _ =>
    refine Or.inr ⟨_,rfl,hslot,?_,rfl⟩
    rintro i ⟨⟩
    exact ⟨newLead f e,by simp [withNewLead],rfl,rfl⟩
  | attached e l hslot hdup =>
    refine Or.inr ⟨_,rfl,hslot,?_,rfl⟩
    rintro i ⟨⟩
    obtain ⟨hl,hm⟩ := findDuplicate_mem hdup
    exact ⟨l,hl,rfl,by rw [hm.1]; rfl⟩
  | stopped e stage reason hslot _ =>
    refine Or.inr ⟨_,rfl,hslot,?_,rfl⟩
    rintro i ⟨⟩
    exact ⟨terminalLead f e stage reason,by simp [withTerminalLead],rfl,rfl⟩
  | blocked => exact Or.inl hsame
  | orphaned r hslot hid hlead _ =>
    exact Or.inr ⟨r,hid,hslot,fun i hi => by simp [hlead] at hi,rfl⟩

theorem Change.touchpoints (h : Change s f s' received) :
    (∃ g, RedactsTouchpoint g ∧ s'.touchpoints = s.touchpoints.map g) ∨
      ∃ t, t.id = f.touchpointId ∧ LinkedTouchpoint s' t ∧
        s'.touchpoints = s.touchpoints ++ [t] := by
  have hsame : ∃ g, RedactsTouchpoint g ∧ s.touchpoints = s.touchpoints.map g :=
    ⟨id,fun _ => Or.inl rfl,by simp⟩
  cases h with
  | redacted h => exact Or.inl h.touchpoints
  | captured e _ _ => exact Or.inr ⟨_,rfl,⟨newLead f e,by simp [withNewLead],rfl⟩,rfl⟩
  | attached e l _ hdup => exact Or.inr ⟨_,rfl,⟨l,(findDuplicate_mem hdup).1,rfl⟩,rfl⟩
  | stopped => exact Or.inl hsame
  | blocked => exact Or.inl hsame
  | orphaned => exact Or.inl hsame

/-- Draws that differ from those of a change stay fresh. -/
theorem Change.keeps_fresh (h : Change s f s' received) {f' : Fresh}
    (hf : f'.For s) (hlog : f.logId ≠ f'.logId) (hlead : f.leadId ≠ f'.leadId)
    (htouchpoint : f.touchpointId ≠ f'.touchpointId) : f'.For s' where
  log := by
    intro r hr
    obtain ⟨g,hg,hs⟩ | ⟨x,hid,_,_,hs⟩ := h.logs
    · rw [hs] at hr
      obtain ⟨r',hr',rfl⟩ := List.mem_map.mp hr
      rw [(redactsLog_fields hg r').1]
      exact hf.log r' hr'
    · rw [hs,List.mem_append,List.mem_singleton] at hr
      obtain hr | rfl := hr
      · exact hf.log r hr
      · rwa [hid]
  lead := by
    intro l hl
    obtain ⟨g,hg,hs⟩ | ⟨x,hx,hs⟩ := h.leads
    · rw [hs] at hl
      obtain ⟨l',hl',rfl⟩ := List.mem_map.mp hl
      rw [scrubs_id hg]
      exact hf.lead l' hl'
    · rw [hs,List.mem_append,List.mem_singleton] at hl
      obtain hl | rfl := hl
      · exact hf.lead l hl
      · rwa [hx.id]
  touchpoint := by
    intro t ht
    obtain ⟨g,hg,hs⟩ | ⟨x,hid,_,hs⟩ := h.touchpoints
    · rw [hs] at ht
      obtain ⟨t',ht',rfl⟩ := List.mem_map.mp ht
      rw [(redactsTouchpoint_fields hg t').1]
      exact hf.touchpoint t' ht'
    · rw [hs,List.mem_append,List.mem_singleton] at ht
      obtain ht | rfl := ht
      · exact hf.touchpoint t ht
      · rwa [hid]

theorem Change.keeps_draws {draws : ℕ → Fresh} {s₀ : Store} {n : ℕ}
    (h : Change s (draws n) s' received) (hd : Drawn draws s₀)
    (hf : ∀ j, n ≤ j → (draws j).For s) : ∀ j, n+1 ≤ j → (draws j).For s' := by
  intro j hj
  have hne : n ≠ j := by omega
  exact h.keeps_fresh (hf j (by omega)) (fun hid => hne (hd.logIds hid))
    (fun hid => hne (hd.leadIds hid)) fun hid => hne (hd.touchpointIds hid)

end Summaries

/-- What holds of the committed rows at any time. -/
structure Consistent (s : Store) : Prop where
  leadIds : (s.leads.map Lead.id).Nodup
  logIds : (s.logs.map IntakeEventLog.id).Nodup
  touchpointIds : (s.touchpoints.map LeadTouchpoint.id).Nodup
  slots : (s.logs.map IntakeEventLog.platformEventId).Nodup
  identities : Identities s.leads
  logLead : ∀ r ∈ s.logs, LinkedLog s r
  touchpointLead : ∀ t ∈ s.touchpoints, LinkedTouchpoint s t
  scrubbed : ∀ l ∈ s.leads, l.pipelineStage = .erased ∨ l.pipelineStage = .anonymised →
    ∃ stage tombstone, RawEventJson.Tombstoned tombstone ∧ l = scrub stage tombstone l
  erasedRows : Sealed s

omit [Interpreter] in
theorem consistent_empty : Consistent .empty := by
  constructor
  all_goals first | exact List.nodup_nil | exact Identities.nil | simp [Store.empty,Sealed]

section Preservation

variable {s s' : Store} {f : Fresh} {received : Option LeadReceived}

theorem LinkedLog.mono (h : Change s f s' received) {r r' : IntakeEventLog}
    (hr : LinkedLog s r) (hlead : r'.leadId = r.leadId) (htenant : r'.tenantId = r.tenantId) :
    LinkedLog s' r' := by
  intro i hi
  obtain ⟨l,hl,hid,ht⟩ := hr i (hlead ▸ hi)
  obtain ⟨l',hl',hid',ht'⟩ := h.keeps_lead hl
  exact ⟨l',hl',hid'.trans hid,by rw [htenant,ht,ht']⟩

theorem LinkedTouchpoint.mono (h : Change s f s' received) {t t' : LeadTouchpoint}
    (ht : LinkedTouchpoint s t) (hlead : t'.leadId = t.leadId) : LinkedTouchpoint s' t' := by
  obtain ⟨l,hl,hid⟩ := ht
  obtain ⟨l',hl',hid',_⟩ := h.keeps_lead hl
  exact ⟨l',hl',by rw [hid',hid,hlead]⟩

theorem Change.identities (h : Change s f s' received) (hi : Identities s.leads) :
    Identities s'.leads := by
  obtain ⟨g,hg,hs⟩ | ⟨l,hl,hs⟩ := h.leads
  · rw [hs]
    exact ⟨hi.phone.map fun r _ => (scrubs_keys hg r).1,
      hi.email.map fun r _ => (scrubs_keys hg r).2.1,
      hi.place.map fun r _ => (scrubs_keys hg r).2.2⟩
  · rw [hs]
    exact ⟨hi.phone.append_singleton hl.phone,hi.email.append_singleton hl.email,
      hi.place.append_singleton hl.place⟩

theorem Change.leadIds (h : Change s f s' received) (hf : f.For s)
    (hids : (s.leads.map Lead.id).Nodup) : (s'.leads.map Lead.id).Nodup := by
  obtain ⟨g,hg,hs⟩ | ⟨l,hl,hs⟩ := h.leads
  · rw [hs,map_map_of_eq (scrubs_id hg)]
    exact hids
  · rw [hs,List.map_append]
    refine nodup_append_singleton hids ?_
    rw [hl.id,List.mem_map]
    rintro ⟨l',hl',hid⟩
    exact hf.lead l' hl' hid

theorem Change.logIds (h : Change s f s' received) (hf : f.For s) (hc : Consistent s) :
    (s'.logs.map IntakeEventLog.id).Nodup ∧
      (s'.logs.map IntakeEventLog.platformEventId).Nodup := by
  obtain ⟨g,hg,hs⟩ | ⟨r,hid,hslot,_,hs⟩ := h.logs
  · rw [hs,map_map_of_eq (fun r => (redactsLog_fields hg r).1),
      map_map_of_eq (fun r => (redactsLog_fields hg r).2.1)]
    exact ⟨hc.logIds,hc.slots⟩
  · rw [hs,List.map_append,List.map_append]
    constructor
    · refine nodup_append_singleton hc.logIds ?_
      rw [hid,List.mem_map]
      rintro ⟨r',hr',hid'⟩
      exact hf.log r' hr' hid'
    · refine nodup_append_singleton hc.slots ?_
      rw [List.mem_map]
      exact hslot

theorem Change.touchpointIds (h : Change s f s' received) (hf : f.For s) (hc : Consistent s) :
    (s'.touchpoints.map LeadTouchpoint.id).Nodup := by
  obtain ⟨g,hg,hs⟩ | ⟨t,hid,_,hs⟩ := h.touchpoints
  · rw [hs,map_map_of_eq (fun t => (redactsTouchpoint_fields hg t).1)]
    exact hc.touchpointIds
  · rw [hs,List.map_append]
    refine nodup_append_singleton hc.touchpointIds ?_
    rw [hid,List.mem_map]
    rintro ⟨t',ht',hid'⟩
    exact hf.touchpoint t' ht' hid'

theorem Change.links (h : Change s f s' received) (hc : Consistent s) :
    (∀ r ∈ s'.logs, LinkedLog s' r) ∧ ∀ t ∈ s'.touchpoints, LinkedTouchpoint s' t := by
  constructor
  · intro r hr
    obtain ⟨g,hg,hs⟩ | ⟨x,_,_,hx,hs⟩ := h.logs
    · rw [hs] at hr
      obtain ⟨r',hr',rfl⟩ := List.mem_map.mp hr
      obtain ⟨_,_,hlead,htenant,_⟩ := redactsLog_fields hg r'
      exact (hc.logLead r' hr').mono h hlead htenant
    · rw [hs,List.mem_append,List.mem_singleton] at hr
      obtain hr | rfl := hr
      · exact (hc.logLead r hr).mono h rfl rfl
      · exact hx
  · intro t ht
    obtain ⟨g,hg,hs⟩ | ⟨x,_,hx,hs⟩ := h.touchpoints
    · rw [hs] at ht
      obtain ⟨t',ht',rfl⟩ := List.mem_map.mp ht
      exact (hc.touchpointLead t' ht').mono h (redactsTouchpoint_fields hg t').2.1
    · rw [hs,List.mem_append,List.mem_singleton] at ht
      obtain ht | rfl := ht
      · exact (hc.touchpointLead t ht).mono h rfl
      · exact hx

theorem Change.scrubbed (h : Change s f s' received) (hc : Consistent s) :
    ∀ l ∈ s'.leads, l.pipelineStage = .erased ∨ l.pipelineStage = .anonymised →
      ∃ stage tombstone, RawEventJson.Tombstoned tombstone ∧ l = scrub stage tombstone l := by
  intro l hl hstage
  obtain ⟨g,hg,hs⟩ | ⟨x,hx,hs⟩ := h.leads
  · rw [hs] at hl
    obtain ⟨l',hl',rfl⟩ := List.mem_map.mp hl
    obtain he | ⟨stage,tombstone,ht,_,he⟩ := hg l'
    · rw [he] at hstage ⊢
      exact hc.scrubbed l' hl' hstage
    · exact ⟨stage,tombstone,ht,by rw [he]; rfl⟩
  · rw [hs,List.mem_append,List.mem_singleton] at hl
    obtain hl | rfl := hl
    · exact hc.scrubbed l hl hstage
    · exact absurd hstage (not_or.mpr hx.stage)

omit [Interpreter] in
theorem sealed_append {s s' : Store} {i : UUID} {touchpoints : List LeadTouchpoint}
    {logs : List IntakeEventLog} (h : Sealed s)
    (hleads : ∀ l ∈ s'.leads, l.pipelineStage = .erased → l ∈ s.leads ∧ l.id ≠ i)
    (htouchpoints : s'.touchpoints = s.touchpoints ++ touchpoints)
    (hlogs : s'.logs = s.logs ++ logs) (ht : ∀ t ∈ touchpoints, t.leadId = i)
    (hr : ∀ r ∈ logs, r.leadId = some i) : Sealed s' := by
  intro l hl hstage
  obtain ⟨hold,hid⟩ := hleads l hl hstage
  obtain ⟨htps,hrs⟩ := h l hold hstage
  rw [htouchpoints,hlogs]
  constructor
  · intro t hmem hlead
    rcases List.mem_append.mp hmem with hmem | hmem
    · exact htps t hmem hlead
    · exact absurd (hlead.symm.trans (ht t hmem)) hid
  · intro r hmem hlead
    rcases List.mem_append.mp hmem with hmem | hmem
    · exact hrs r hmem hlead
    · exact absurd (Option.some.inj (hlead.symm.trans (hr r hmem))) hid

theorem not_matches_scrub {t : UUID} {e : NormalisedChannelEvent} {l : Lead}
    {stage : PipelineStage} {tombstone : RawEventJson} (h : l = scrub stage tombstone l) :
    ¬ Matches t e l := by
  rw [h]
  rintro ⟨_,⟨_,_,hp⟩ | ⟨_,_,hm⟩ | ⟨_,_,_,_,hn,_⟩⟩
  · simp [scrub] at hp
  · simp [scrub] at hm
  · simp [scrub] at hn

theorem Change.erasedRows (h : Change s f s' received) (hf : f.For s) (hc : Consistent s) :
    Sealed s' := by
  have hfresh : ∀ l ∈ s.leads, l.id ≠ f.leadId := hf.lead
  have hnew : ∀ x : Lead, x.pipelineStage ≠ .erased → ∀ l ∈ s.leads ++ [x],
      l.pipelineStage = .erased → l ∈ s.leads ∧ l.id ≠ f.leadId := by
    intro x hx l hl hstage
    rcases List.mem_append.mp hl with hl | hl
    · exact ⟨hl,hfresh l hl⟩
    · rw [List.mem_singleton.mp hl] at hstage
      exact absurd hstage hx
  cases h with
  | redacted h => exact h.keepsSealed hc.erasedRows
  | captured e _ _ =>
    exact sealed_append hc.erasedRows (hnew (newLead f e) (by simp [newLead])) rfl rfl
      (by simp [buildTouchpoint,newLead]) (by simp [settledLog])
  | attached e l _ hdup =>
    obtain ⟨hl,hm⟩ := findDuplicate_mem hdup
    refine sealed_append (i:=l.id) hc.erasedRows (fun x hx hstage => ⟨hx,fun hid => ?_⟩) rfl rfl
      (by simp [buildTouchpoint]) (by simp [settledLog])
    obtain rfl := (uniqueOn_some_iff.mpr hc.leadIds).eq_of_key hx hl (congrArg some hid) rfl
    obtain ⟨stage,tombstone,_,hscrub⟩ := hc.scrubbed x hx (Or.inl hstage)
    exact not_matches_scrub hscrub hm
  | stopped e stage reason _ _ =>
    exact sealed_append hc.erasedRows
      (hnew (terminalLead f e stage reason) (by simp [terminalLead]))
      (List.append_nil _).symm rfl (by simp) (by simp [settledLog])
  | blocked t row extra =>
    exact sealed_append hc.erasedRows (hnew _ (by simp [blockedLead])) (List.append_nil _).symm
      (List.append_nil _).symm (by simp) (by simp)
  | orphaned r _ _ hlead _ =>
    intro l hl hstage
    obtain ⟨htps,hrs⟩ := hc.erasedRows l hl hstage
    refine ⟨htps,fun x hx hid => ?_⟩
    rcases List.mem_append.mp hx with hx | hx
    · exact hrs x hx hid
    · rw [List.mem_singleton.mp hx,hlead] at hid
      simp at hid

theorem Change.consistent (h : Change s f s' received) (hf : f.For s) (hc : Consistent s) :
    Consistent s' where
  leadIds := h.leadIds hf hc.leadIds
  logIds := (h.logIds hf hc).1
  touchpointIds := h.touchpointIds hf hc
  slots := (h.logIds hf hc).2
  identities := h.identities hc.identities
  logLead := (h.links hc).1
  touchpointLead := (h.links hc).2
  scrubbed := h.scrubbed hc
  erasedRows := h.erasedRows hf hc

end Preservation

/-- The committed rows and the announcements returned so far. -/
structure World where
  store : Store
  received : List LeadReceived

def World.empty : World := ⟨.empty,[]⟩

/-- One try of an operation: its draws, and whether it came to its commit. -/
structure Attempt where
  op : Op
  fresh : Fresh
  commits : Bool

/-- An operation commits what it returns; one that raises, or that is cut off before its
commit, leaves nothing. -/
inductive Step : World → Attempt → World → Prop
  | commit {w : World} {op : Op} {f : Fresh} {s : Store} {received : Option LeadReceived}
      (hf : f.For w.store) (h : op.exec w.store f = .ok (s,received)) :
      Step w ⟨op,f,true⟩ ⟨s,w.received ++ received.toList⟩
  | rollback (w : World) (op : Op) (f : Fresh) : Step w ⟨op,f,false⟩ w

theorem Step.consistent {w w' : World} {a : Attempt} (hc : Consistent w.store)
    (h : Step w a w') : Consistent w'.store := by
  cases h with
  | commit hf h => exact (Op.change hf h).consistent hf hc
  | rollback => exact hc

/-- Every store that operations lead to is consistent. -/
theorem consistent_of_reachable {w : World} (h : Reachable Step .empty w) :
    Consistent w.store :=
  h.invariant (I := fun w => Consistent w.store) consistent_empty fun _ _ _ => Step.consistent

omit [Interpreter] in
theorem Fresh.for_iff {f : Fresh} {s : Store} : f.For s ↔ (∀ r ∈ s.logs, r.id ≠ f.logId) ∧
    (∀ l ∈ s.leads, l.id ≠ f.leadId) ∧ ∀ t ∈ s.touchpoints, t.id ≠ f.touchpointId :=
  ⟨fun h => ⟨h.log,h.lead,h.touchpoint⟩,fun h => ⟨h.1,h.2.1,h.2.2⟩⟩

instance (f : Fresh) (s : Store) : Decidable (f.For s) := decidable_of_iff _ Fresh.for_iff.symm

/-- Whether a try of an operation commits, and the world it leaves. -/
def Op.tried (op : Op) (w : World) (f : Fresh) : Bool × World :=
  match op.exec w.store f with
  | .ok (s,received) => (true,⟨s,w.received ++ received.toList⟩)
  | .error _ => (false,w)

theorem Op.step_tried (op : Op) {w : World} {f : Fresh} (hf : f.For w.store) :
    Step w ⟨op,f,(op.tried w f).1⟩ (op.tried w f).2 := by
  unfold Op.tried
  split
  · rename_i s received h
    exact .commit hf h
  · exact .rollback w op f

/-- Run operations in order. One whose draws are not fresh is left out. -/
def play : World → List (Op × Fresh) → World
  | w,[] => w
  | w,(op,f) :: rest => if f.For w.store then play (op.tried w f).2 rest else play w rest

def trace : World → List (Op × Fresh) → List (Transition World Attempt)
  | _,[] => []
  | w,(op,f) :: rest =>
    if f.For w.store then
      (w,⟨op,f,(op.tried w f).1⟩,(op.tried w f).2) :: trace (op.tried w f).2 rest
    else trace w rest

theorem path_trace (w : World) (ops : List (Op × Fresh)) :
    Path Step w (trace w ops) (play w ops) := by
  induction ops generalizing w with
  | nil => exact .nil
  | cons x rest ih =>
    obtain ⟨op,f⟩ := x
    rw [play,trace]
    split_ifs with hf
    · exact (Path.nil.snoc (op.step_tried hf)).trans (ih _)
    · exact ih w

theorem reachable_play (w : World) (ops : List (Op × Fresh)) : Reachable Step w (play w ops) :=
  (path_trace w ops).reachable

theorem mem_trace (w : World) (before : List (Op × Fresh)) (op : Op) {f : Fresh}
    (rest : List (Op × Fresh)) (hf : f.For (play w before).store) :
    (play w before,⟨op,f,(op.tried (play w before) f).1⟩,(op.tried (play w before) f).2) ∈
      trace w (before ++ (op,f) :: rest) := by
  induction before generalizing w with
  | nil =>
    replace hf : f.For w.store := hf
    simp [trace,play,hf]
  | cons x xs ih =>
    obtain ⟨op',f'⟩ := x
    rw [List.cons_append,trace]
    simp only [play] at hf ⊢
    split_ifs at hf ⊢ with hf'
    · exact List.mem_cons_of_mem _ (ih _ hf)
    · exact ih w hf

end History
end LeadEngine
