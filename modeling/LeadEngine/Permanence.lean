import LeadEngine.History

/-! Permanence of an erasure: whatever operations follow, the row of an erased lead stays as
the erasure left it, and no row is linked to the lead any more. -/
namespace LeadEngine
namespace History

open Table Repository Deduplicator Pipeline Erasure Retention
open TransitionSystem

def linkedTouchpoints (s : Store) (i : UUID) : List UUID :=
  (s.touchpoints.filter fun t => t.leadId = i).map LeadTouchpoint.id

def linkedLogs (s : Store) (i : UUID) : List UUID :=
  (s.logs.filter fun r => r.leadId = some i).map IntakeEventLog.id

theorem linkedTouchpoints_map {s s' : Store} {g : LeadTouchpoint → LeadTouchpoint}
    (hg : RedactsTouchpoint g) (h : s'.touchpoints = s.touchpoints.map g) (i : UUID) :
    linkedTouchpoints s' i = linkedTouchpoints s i := by
  have hlead : (fun t => decide (t.leadId = i)) ∘ g = fun t => decide (t.leadId = i) := by
    funext t
    simp [(redactsTouchpoint_fields hg t).2.1]
  rw [linkedTouchpoints,linkedTouchpoints,h,List.filter_map,hlead]
  exact map_map_of_eq (fun t => (redactsTouchpoint_fields hg t).1) _

theorem linkedLogs_map {s s' : Store} {g : IntakeEventLog → IntakeEventLog}
    (hg : RedactsLog g) (h : s'.logs = s.logs.map g) (i : UUID) :
    linkedLogs s' i = linkedLogs s i := by
  have hlead : (fun r => decide (r.leadId = some i)) ∘ g = fun r => decide (r.leadId = some i) := by
    funext r
    simp [(redactsLog_fields hg r).2.2.1]
  rw [linkedLogs,linkedLogs,h,List.filter_map,hlead]
  exact map_map_of_eq (fun r => (redactsLog_fields hg r).1) _

theorem linkedTouchpoints_append {s s' : Store} {t : LeadTouchpoint} {i : UUID}
    (h : s'.touchpoints = s.touchpoints ++ [t]) (hne : t.leadId ≠ i) :
    linkedTouchpoints s' i = linkedTouchpoints s i := by
  simp [linkedTouchpoints,h,hne]

theorem linkedLogs_append {s s' : Store} {r : IntakeEventLog} {i : UUID}
    (h : s'.logs = s.logs ++ [r]) (hne : r.leadId ≠ some i) :
    linkedLogs s' i = linkedLogs s i := by
  simp [linkedLogs,h,hne]

/-- The stage is set, the personal columns are null and the payload is a tombstone. -/
structure Erased (l : Lead) : Prop where
  stage : l.pipelineStage = .erased
  fullName : l.fullName = none
  phone : l.phone = none
  email : l.email = none
  location : l.location = none
  extraFields : l.extraFields = none
  payload : ∃ now, l.rawEventJson = .erased now

theorem erased_erasedLead (now : Time) (l : Lead) : Erased (erasedLead now l) :=
  ⟨rfl,rfl,rfl,rfl,rfl,rfl,now,rfl⟩

section Permanence

variable [Interpreter] {s s' : Store} {f : Fresh} {received : Option LeadReceived} {l : Lead}

theorem Consistent.duplicate_ne_scrubbed (hc : Consistent s) {e : NormalisedChannelEvent}
    {existing : Lead} (hdup : findDuplicate s e.tenantId e = .ok (some existing))
    (hl : l ∈ s.leads) (hstage : l.pipelineStage = .erased ∨ l.pipelineStage = .anonymised) :
    existing.id ≠ l.id := by
  intro hid
  obtain ⟨hmem,hmatch⟩ := findDuplicate_mem hdup
  have hsame := (uniqueOn_some_iff.mpr hc.leadIds).eq_of_key hmem hl (congrArg some hid) rfl
  obtain ⟨stage,tombstone,_,hscrub⟩ := hc.scrubbed l hl hstage
  exact not_matches_scrub hscrub (hsame ▸ hmatch)

theorem Change.linked (h : Change s f s' received) (hf : f.For s) (hc : Consistent s)
    (hl : l ∈ s.leads) (hstage : l.pipelineStage = .erased) :
    linkedTouchpoints s' l.id = linkedTouchpoints s l.id ∧
      linkedLogs s' l.id = linkedLogs s l.id := by
  have hnew : f.leadId ≠ l.id := (hf.lead l hl).symm
  have hnewLog : some f.leadId ≠ some l.id := fun h => hnew (Option.some.inj h)
  cases h with
  | redacted h =>
    obtain ⟨g,hg,hs⟩ := h.touchpoints
    obtain ⟨g',hg',hs'⟩ := h.logs
    exact ⟨linkedTouchpoints_map hg hs _,linkedLogs_map hg' hs' _⟩
  | captured e =>
    exact ⟨linkedTouchpoints_append (t:=buildTouchpoint f (newLead f e) e) rfl hnew,
      linkedLogs_append (r:=settledLog f e f.leadId .received) rfl hnewLog⟩
  | attached e existing _ hdup =>
    have hne := hc.duplicate_ne_scrubbed hdup hl (Or.inl hstage)
    exact ⟨linkedTouchpoints_append (t:=buildTouchpoint f existing e) rfl hne,
      linkedLogs_append (r:=settledLog f e existing.id .duplicate) rfl
        fun h => hne (Option.some.inj h)⟩
  | stopped e stage reason =>
    exact ⟨rfl,linkedLogs_append (r:=settledLog f e f.leadId (.terminal stage)) rfl hnewLog⟩
  | blocked => exact ⟨rfl,rfl⟩
  | orphaned r _ _ hlead =>
    exact ⟨rfl,linkedLogs_append (r:=r) rfl (by simp [hlead])⟩

omit [Interpreter] in
theorem Consistent.scrubbed_not_found (hc : Consistent s) (hl : l ∈ s.leads)
    (hstage : l.pipelineStage = .erased ∨ l.pipelineStage = .anonymised) (t : UUID)
    (kind : IdentifierType) (value : String) :
    l.id ∉ (findLeads s t kind value).map Lead.id := by
  rw [List.mem_map]
  rintro ⟨x,hx,hid⟩
  obtain ⟨stage,tombstone,_,hscrub⟩ := hc.scrubbed l hl hstage
  have hphone : l.phone = none := by rw [hscrub]; rfl
  have hemail : l.email = none := by rw [hscrub]; rfl
  have hsame : x ∈ s.leads → x = l := fun hmem =>
    (uniqueOn_some_iff.mpr hc.leadIds).eq_of_key hmem hl (congrArg some hid) rfl
  cases kind with
  | phone =>
    simp only [findLeads,List.mem_filter,decide_eq_true_eq] at hx
    rw [hsame hx.1,hphone] at hx
    simp at hx
  | email =>
    simp only [findLeads,List.mem_filter,decide_eq_true_eq] at hx
    rw [hsame hx.1,hemail] at hx
    simp at hx

theorem Consistent.erasure_store (hc : Consistent s) (now : Time) (t : UUID)
    (phone email : Option String) (who : String) : ∃ ids erasureLogs,
      (Erasure.eraseLeadByIdentity s now t phone email who).1 =
        { eraseIds now s ids with erasureLogs := erasureLogs } ∧
      ∀ l ∈ s.leads, l.pipelineStage = .erased ∨ l.pipelineStage = .anonymised → l.id ∉ ids := by
  have hsame : ∃ ids erasureLogs, s = { eraseIds now s ids with erasureLogs := erasureLogs } ∧
      ∀ l ∈ s.leads, l.pipelineStage = .erased ∨ l.pipelineStage = .anonymised → l.id ∉ ids :=
    ⟨[],s.erasureLogs,by rw [eraseIds_nil],by simp⟩
  have hidentity : ∀ kind value, ∃ ids erasureLogs,
      (eraseIdentity s now t kind value who).1 =
        { eraseIds now s ids with erasureLogs := erasureLogs } ∧
      ∀ l ∈ s.leads, l.pipelineStage = .erased ∨ l.pipelineStage = .anonymised →
        l.id ∉ ids := by
    intro kind value
    obtain h | ⟨logs,h⟩ := eraseIdentity_store s now t kind value who
    · rw [h]
      exact hsame
    · exact ⟨_,logs,h,fun l hl hstage => hc.scrubbed_not_found hl hstage t kind _⟩
  unfold Erasure.eraseLeadByIdentity
  split
  · exact hidentity ..
  · exact hidentity ..
  · exact hsame

theorem Consistent.erase_keeps (hc : Consistent s) (hl : l ∈ s.leads)
    (hstage : l.pipelineStage = .erased) (now : Time) (t : UUID) (phone email : Option String)
    (who : String) : l ∈ (Erasure.eraseLeadByIdentity s now t phone email who).1.leads := by
  obtain ⟨ids,logs,hstore,hids⟩ := hc.erasure_store now t phone email who
  rw [hstore]
  apply List.mem_map.mpr
  exact ⟨l,hl,if_neg (hids l hl (Or.inl hstage))⟩

omit [Interpreter] in
theorem Consistent.sweep_keeps (hc : Consistent s) (hl : l ∈ s.leads)
    (hstage : l.pipelineStage = .erased) (now : Time) (settings : RetentionSettings) :
    l ∈ (Retention.runRetentionSweep s now settings).1.leads := by
  simp only [Retention.runRetentionSweep,foldl_anonymiseLead]
  apply List.mem_map.mpr
  refine ⟨l,hl,if_neg ?_⟩
  rw [List.mem_map]
  rintro ⟨x,hx,hid⟩
  simp only [leadsDue,List.mem_filter,decide_eq_true_eq] at hx
  have hsame := (uniqueOn_some_iff.mpr hc.leadIds).eq_of_key hx.1 hl (congrArg some hid) rfl
  exact hx.2.2.2 (hsame ▸ hstage)

theorem Op.keeps_erased {op : Op} (hf : f.For s) (hc : Consistent s)
    (h : op.exec s f = .ok (s',received)) (hl : l ∈ s.leads)
    (hstage : l.pipelineStage = .erased) : l ∈ s'.leads := by
  cases hred : op.redacts with
  | false =>
    obtain ⟨new,hs⟩ := (Op.effect hf h).leads_grow hred
    rw [hs]
    exact List.mem_append_left _ hl
  | true =>
    cases op with
    | eraseLeadByIdentity t phone email who =>
      simp only [Op.exec,Except.ok.injEq,Prod.mk.injEq] at h
      rw [← h.1]
      exact hc.erase_keeps hl hstage f.now t phone email who
    | runRetentionSweep settings =>
      simp only [Op.exec,Except.ok.injEq,Prod.mk.injEq] at h
      rw [← h.1]
      exact hc.sweep_keeps hl hstage f.now settings
    | _ => simp [Op.redacts] at hred

/-- The lead is erased, and its row and links are those of the earlier store. -/
structure StaysErased (s₁ s : Store) (l : Lead) : Prop where
  erased : Erased l
  row : rowsAt (fun x => some x.id) l.id s.leads = [l]
  touchpoints : linkedTouchpoints s l.id = linkedTouchpoints s₁ l.id
  logs : linkedLogs s l.id = linkedLogs s₁ l.id
  touchpointTombstones : ∀ t ∈ s.touchpoints, t.leadId = l.id → t.rawEventJson.Tombstoned
  logTombstones : ∀ r ∈ s.logs, r.leadId = some l.id → r.rawEventJson.Tombstoned

omit [Interpreter] in
theorem StaysErased.mem {s₁ : Store} (h : StaysErased s₁ s l) : l ∈ s.leads := by
  have hrow : l ∈ rowsAt (fun x => some x.id) l.id s.leads := by rw [h.row]; simp
  exact (mem_rowsAt.mp hrow).1

omit [Interpreter] in
theorem StaysErased.of_mem {s₁ : Store} (hc : Consistent s) (hl : l ∈ s.leads)
    (herased : Erased l)
    (htouchpoints : linkedTouchpoints s l.id = linkedTouchpoints s₁ l.id)
    (hlogs : linkedLogs s l.id = linkedLogs s₁ l.id) : StaysErased s₁ s l where
  erased := herased
  row := (uniqueOn_some_iff.mpr hc.leadIds).rowsAt_eq hl rfl
  touchpoints := htouchpoints
  logs := hlogs
  touchpointTombstones := (hc.erasedRows l hl herased.stage).1
  logTombstones := (hc.erasedRows l hl herased.stage).2

theorem Step.staysErased {w w' : World} {a : Attempt} {s₁ : Store} (hc : Consistent w.store)
    (h : StaysErased s₁ w.store l) (hs : Step w a w') : StaysErased s₁ w'.store l := by
  have hc' := Step.consistent hc hs
  cases hs with
  | rollback => exact h
  | commit hf hexec =>
    have hstage := h.erased.stage
    obtain ⟨htouchpoints,hlogs⟩ := (Op.change hf hexec).linked hf hc h.mem hstage
    apply StaysErased.of_mem hc' (Op.keeps_erased hf hc hexec h.mem hstage) h.erased
    · exact htouchpoints.trans h.touchpoints
    · exact hlogs.trans h.logs

theorem mem_of_erased_id {now : Time} {t : UUID} {phone email : Option String} {who : String}
    (hl : l ∈ s.leads)
    (hid : l.id ∈ (Erasure.eraseLeadByIdentity s now t phone email who).2.1) :
    erasedLead now l ∈ (Erasure.eraseLeadByIdentity s now t phone email who).1.leads := by
  have hidentity : ∀ kind value, l.id ∈ (eraseIdentity s now t kind value who).2.1 →
      erasedLead now l ∈ (eraseIdentity s now t kind value who).1.leads := by
    intro kind value hmem
    unfold eraseIdentity at hmem ⊢
    dsimp only at hmem ⊢
    split_ifs at hmem ⊢
    · simp at hmem
    · rw [foldl_eraseOne]
      apply List.mem_map.mpr
      exact ⟨l,hl,if_pos hmem⟩
  unfold Erasure.eraseLeadByIdentity at hid ⊢
  split at hid
  · exact hidentity _ _ hid
  · exact hidentity _ _ hid
  · simp at hid

/-- After a committed erasure no sequence of operations changes an erased lead, links a row to
it or puts a payload into a row that is linked to it. -/
theorem erasure_permanent {w w₁ w' : World} (h : Reachable Step .empty w) {t : UUID}
    {phone email : Option String} {who : String} {f : Fresh}
    (herase : Step w ⟨.eraseLeadByIdentity t phone email who,f,true⟩ w₁) {l : Lead}
    (hl : l ∈ w.store.leads)
    (hid : l.id ∈ (Erasure.eraseLeadByIdentity w.store f.now t phone email who).2.1)
    (hrun : Reachable Step w₁ w') : StaysErased w₁.store w'.store (erasedLead f.now l) := by
  have hc := consistent_of_reachable h
  have hc₁ := Step.consistent hc herase
  have hmem : erasedLead f.now l ∈ w₁.store.leads := by
    cases herase with
    | commit hf hexec =>
      simp only [Op.exec,Except.ok.injEq,Prod.mk.injEq] at hexec
      rw [← hexec.1]
      exact mem_of_erased_id hl hid
  have hinv : Consistent w'.store ∧ StaysErased w₁.store w'.store (erasedLead f.now l) := by
    apply hrun.invariant (I := fun w => Consistent w.store ∧
      StaysErased w₁.store w.store (erasedLead f.now l))
    · exact ⟨hc₁,StaysErased.of_mem hc₁ hmem (erased_erasedLead f.now l) rfl rfl⟩
    · intro v a v' hv hs
      exact ⟨Step.consistent hv.1 hs,Step.staysErased hv.1 hv.2 hs⟩
  exact hinv.2

def forgetBob : Op := .eraseLeadByIdentity 1 (some "+49151") none "dpo"

def bobEvent (platformEventId : String) : Op :=
  .runCapture (.ofMessage 1 platformEventId (some "Bob") (some "+49 151") none none "call me")

def afterBob : List (Op × Fresh) :=
  [(bobEvent "wamid.1",.nth 3),(bobEvent "wamid.2",.nth 4),(.runRetentionSweep ⟨0,0⟩,.nth 90000)]

end Permanence

theorem bob_stays_erased :
    letI := erasureRuntime
    let w := play .empty [(bobEvent "wamid.1",.nth 1)]
    let w₁ := (forgetBob.tried w (.nth 2)).2
    ∃ l ∈ w.store.leads,
      StaysErased w₁.store (play w₁ afterBob).store (erasedLead (Fresh.nth 2).now l) := by
  let := erasureRuntime
  have hfresh : (Fresh.nth 2).For (play .empty [(bobEvent "wamid.1",.nth 1)]).store := by
    decide +kernel
  have hlead : ∃ l ∈ (play .empty [(bobEvent "wamid.1",.nth 1)]).store.leads,
      l.id ∈ (Erasure.eraseLeadByIdentity (play .empty [(bobEvent "wamid.1",.nth 1)]).store
        (Fresh.nth 2).now 1 (some "+49151") none "dpo").2.1 := by
    decide +kernel
  obtain ⟨l,hl,hid⟩ := hlead
  exact ⟨l,hl,erasure_permanent (reachable_play _ _) (forgetBob.step_tried hfresh) hl hid
    (reachable_play _ _)⟩

end History
end LeadEngine
