import LeadEngine.RetentionRuns

/-! The two audit tables over runs: which leads the rows of `erasure_event_logs` list, and that
every lead without personal data stands in exactly one row of the two tables. -/
namespace LeadEngine
namespace History

open Table Repository Erasure Retention
open TransitionSystem

def erasureRows (s : Store) (leadId : UUID) : List ErasureEventLog :=
  s.erasureLogs.filter fun r => leadId ∈ r.erasedLeadIds

structure Lists (s : Store) (r : ErasureEventLog) : Prop where
  some : r.erasedLeadIds ≠ []
  once : r.erasedLeadIds.Nodup
  owned : ∀ i ∈ r.erasedLeadIds, ∃ l ∈ s.leads, l.id = i ∧ l.tenantId = r.tenantId

/-- The erasure audit rows agree with the stages of the leads. -/
structure Audited (s : Store) : Prop where
  erased : ∀ l ∈ s.leads, (erasureRows s l.id).length = if l.pipelineStage = .erased then 1 else 0
  lists : ∀ r ∈ s.erasureLogs, Lists s r

theorem audited_empty : Audited .empty := by
  constructor <;> simp [Store.empty]

variable {s s' : Store}

theorem Lists.mono {r : ErasureEventLog} (h : Lists s r)
    (hleads : ∀ l ∈ s.leads, ∃ l' ∈ s'.leads, l'.id = l.id ∧ l'.tenantId = l.tenantId) :
    Lists s' r where
  some := h.some
  once := h.once
  owned i hi := by
    obtain ⟨l,hl,rfl,ht⟩ := h.owned i hi
    obtain ⟨l',hl',hid,htenant⟩ := hleads l hl
    exact ⟨l',hl',hid,htenant.trans ht⟩

theorem erasureRows_fresh (h : Audited s) {i : UUID} (hi : ∀ l ∈ s.leads, l.id ≠ i) :
    erasureRows s i = [] := by
  rw [erasureRows,List.filter_eq_nil_iff]
  intro r hr hlisted
  obtain ⟨l,hl,hid,_⟩ := (h.lists r hr).owned i (by simpa using hlisted)
  exact hi l hl hid

section Steps

variable [Interpreter] {f : Fresh} {received : Option LeadReceived}

theorem Audited.added (h : Audited s) (hadded : Added s f s' received) (hf : f.For s)
    (hc : Consistent s) : Audited s' := by
  obtain ⟨⟨new,hleads⟩,_,haudit⟩ := hadded.grows
  have hrows : ∀ i, erasureRows s' i = erasureRows s i := fun i => by
    rw [erasureRows,erasureRows,haudit]
  have hold : ∀ l ∈ s.leads, l ∈ s'.leads := fun l hl => by
    rw [hleads]
    exact List.mem_append_left _ hl
  constructor
  · intro l hl
    rw [hrows]
    by_cases hmem : l ∈ s.leads
    · exact h.erased l hmem
    · have hstage : l.pipelineStage ≠ .erased := fun hstage =>
        hmem (hadded.final_rows hf hc hl (Or.inl hstage)).1
      rw [if_neg hstage,erasureRows_fresh h,List.length_nil]
      intro x hx hid
      have hids := (hadded.change.consistent hf hc).leadIds
      have heq := (uniqueOn_some_iff.mpr hids).eq_of_key (hold x hx) hl (congrArg some hid) rfl
      exact hmem (heq ▸ hx)
  · intro r hr
    rw [haudit] at hr
    exact (h.lists r hr).mono fun l hl => ⟨l,hold l hl,rfl,rfl⟩

/-- An erasure lists the leads that it found in one new row. -/
theorem Audited.identity (h : Audited s) (hc : Consistent s) (now : Time) (t : UUID)
    (kind : IdentifierType) (value who : String) :
    Audited (eraseIdentity s now t kind value who).1 := by
  unfold eraseIdentity
  dsimp only
  split_ifs with hnone
  · exact h
  rw [foldl_eraseOne]
  have hnotFound : ∀ l ∈ s.leads, l.pipelineStage = .erased →
      l.id ∉ (findLeads s t kind (storedIdentifier kind value)).map Lead.id :=
    fun l hl hstage => hc.scrubbed_not_found hl (Or.inl hstage) t kind _
  have hfound : ∀ l ∈ findLeads s t kind (storedIdentifier kind value),
      l ∈ s.leads ∧ l.tenantId = t := by
    intro l hl
    cases kind <;> simp only [findLeads,List.mem_filter,decide_eq_true_eq] at hl <;>
      exact ⟨hl.1,hl.2.1⟩
  have hnodup : ((findLeads s t kind (storedIdentifier kind value)).map Lead.id).Nodup := by
    refine hc.leadIds.sublist (List.Sublist.map _ ?_)
    cases kind <;> exact List.filter_sublist
  generalize findLeads s t kind (storedIdentifier kind value) = found at *
  have hkept : ∀ l ∈ s.leads, ∃ l' ∈ (eraseIds now s (found.map Lead.id)).leads,
      l'.id = l.id ∧ l'.tenantId = l.tenantId := by
    intro l hl
    refine ⟨_,List.mem_map_of_mem hl,?_⟩
    split_ifs <;> exact ⟨rfl,rfl⟩
  constructor
  · intro l' hl'
    obtain ⟨l,hl,rfl⟩ := List.mem_map.mp hl'
    have hbefore := h.erased l hl
    by_cases hid : l.id ∈ found.map Lead.id
    · have hstage : l.pipelineStage ≠ .erased := fun hstage => hnotFound l hl hstage hid
      rw [if_neg hstage] at hbefore
      simp only [if_pos hid,erasureRows,List.filter_append,List.length_append,erasedLead_id]
      rw [show (eraseIds now s (found.map Lead.id)).erasureLogs = s.erasureLogs from rfl]
      rw [erasureRows] at hbefore
      simp [hbefore,hid,erasedLead,scrub]
    · simp only [if_neg hid,erasureRows,List.filter_append,List.length_append]
      rw [show (eraseIds now s (found.map Lead.id)).erasureLogs = s.erasureLogs from rfl]
      rw [erasureRows] at hbefore
      simp [hbefore,hid]
  · intro r hr
    rcases List.mem_append.mp hr with hr | hr
    · exact (h.lists r hr).mono hkept
    · obtain rfl := List.mem_singleton.mp hr
      refine ⟨?_,hnodup,fun i hi => ?_⟩
      · simpa using hnone
      · obtain ⟨l,hl,rfl⟩ := List.mem_map.mp hi
        obtain ⟨hmem,htenant⟩ := hfound l hl
        obtain ⟨l',hl',hid,ht⟩ := hkept l hmem
        exact ⟨l',hl',hid,ht.trans htenant⟩

theorem Audited.erase (h : Audited s) (hc : Consistent s) (now : Time) (t : UUID)
    (phone email : Option String) (who : String) :
    Audited (Erasure.eraseLeadByIdentity s now t phone email who).1 := by
  unfold Erasure.eraseLeadByIdentity
  split
  · exact h.identity hc ..
  · exact h.identity hc ..
  · exact h

omit [Interpreter] in
/-- A sweep anonymises leads that are not erased, and lists none of them here. -/
theorem Audited.swept (h : Audited s) (hc : Consistent s) (now : Time)
    (settings : RetentionSettings) : Audited (Retention.runRetentionSweep s now settings).1 := by
  have hlogs : (Retention.runRetentionSweep s now settings).1.erasureLogs = s.erasureLogs := by
    simp only [Retention.runRetentionSweep,foldl_anonymiseLead]
    rfl
  have hstage : ∀ l : Lead, (if Due now settings l then anonymisedLead now l else l).pipelineStage =
      .erased ↔ l.pipelineStage = .erased := by
    intro l
    split_ifs with hdue
    · simp [anonymisedLead,scrub,hdue.2.2]
    · rfl
  constructor
  · intro l' hl'
    rw [sweep_leads now settings hc.leadIds] at hl'
    obtain ⟨l,hl,rfl⟩ := List.mem_map.mp hl'
    have hid : (if Due now settings l then anonymisedLead now l else l).id = l.id := by
      split_ifs <;> rfl
    rw [hid,erasureRows,hlogs]
    exact (h.erased l hl).trans (if_congr (hstage l).symm rfl rfl)
  · intro r hr
    rw [hlogs] at hr
    refine (h.lists r hr).mono fun l hl => ?_
    rw [sweep_leads now settings hc.leadIds]
    refine ⟨_,List.mem_map_of_mem hl,?_⟩
    split_ifs <;> exact ⟨rfl,rfl⟩

theorem Step.audited {w w' : World} {a : Attempt} (hc : Consistent w.store)
    (h : Audited w.store) (hs : Step w a w') : Audited w'.store := by
  cases hs with
  | rollback => exact h
  | @commit op f s received hf hexec =>
    cases hred : op.redacts with
    | false => exact h.added (Op.added hf hred hexec) hf hc
    | true =>
      cases op with
      | eraseLeadByIdentity t phone email who =>
        simp only [Op.exec,Except.ok.injEq,Prod.mk.injEq] at hexec
        rw [← hexec.1]
        exact h.erase hc ..
      | runRetentionSweep settings =>
        simp only [Op.exec,Except.ok.injEq,Prod.mk.injEq] at hexec
        rw [← hexec.1]
        exact h.swept hc f.now settings
      | _ => simp [Op.redacts] at hred

theorem audited_of_reachable {w : World} (h : Reachable Step .empty w) : Audited w.store := by
  have hinv : Consistent w.store ∧ Audited w.store := by
    refine h.invariant (I := fun w => Consistent w.store ∧ Audited w.store)
      ⟨consistent_empty,audited_empty⟩ ?_
    rintro w a w' ⟨hc,haudited⟩ hs
    exact ⟨Step.consistent hc hs,Step.audited hc haudited hs⟩
  exact hinv.2

/-- In every run a lead stands in one row of the erasure audit if it is erased, in one row of the
retention audit if it is anonymised, and in no other; and every erasure row lists leads of its own
tenant only. -/
theorem audit_trail {w : World} (h : Reachable Step .empty w) :
    (∀ l ∈ w.store.leads,
      (erasureRows w.store l.id).length = (if l.pipelineStage = .erased then 1 else 0) ∧
      (auditRows w.store l.id).length = if l.pipelineStage = .anonymised then 1 else 0) ∧
      ∀ r ∈ w.store.erasureLogs, Lists w.store r := by
  have haudited := audited_of_reachable h
  exact ⟨fun l hl => ⟨haudited.erased l hl,(retained_of_reachable h).audited l hl⟩,haudited.lists⟩

end Steps

def auditRun : List (Op × Fresh) :=
  [(aliceEvent "a",onDay 1 0),
    (.runCapture (.ofMessage 1 "c" none (some "+49 30 2") none none "hello"),onDay 2 1),
    (.eraseLeadByIdentity 1 (some "+49 30 1") none "dpo",onDay 3 2),
    (.runRetentionSweep retentionSettings,onDay 4 800),
    (.eraseLeadByIdentity 1 (some "+49 30 1") none "dpo",onDay 5 801)]

theorem audit_run_listed :
    letI := Interpreter.ascii id
    let w := play .empty auditRun
    w.store.leads.map (fun l => (l.pipelineStage,(erasureRows w.store l.id).length,
      (auditRows w.store l.id).length)) = [(.erased,1,0),(.anonymised,0,1)] ∧
      ∀ r ∈ w.store.erasureLogs, Lists w.store r := by
  have hrun := @audit_trail (.ascii id) _ (@reachable_play (.ascii id) .empty auditRun)
  exact ⟨by decide +kernel,hrun.2⟩

end History
end LeadEngine
