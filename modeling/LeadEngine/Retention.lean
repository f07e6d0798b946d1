import LeadEngine.Erasure

/-! Retention: the sweep that anonymises leads and redacts log rows past their window. -/
namespace LeadEngine
namespace Retention

open Erasure

structure RetentionSettings where
  leadDataRetentionDays : ℤ
  intakeLogRetentionDays : ℤ

def cutoff (now : Time) (days : ℤ) : Time := now - days * 86400

def anonymisedLead (now : Time) (l : Lead) : Lead := scrub .anonymised (.anonymised now) l

def leadsDue (s : Store) (now : Time) (retentionDays : ℤ) : List Lead :=
  s.leads.filter fun l => l.createdAt < cutoff now retentionDays ∧
    l.pipelineStage ≠ .anonymised ∧ l.pipelineStage ≠ .erased

def anonymiseIds (now : Time) (s : Store) (ids : List UUID) : Store :=
  { s with
    leads := s.leads.map fun l => if l.id ∈ ids then anonymisedLead now l else l
    touchpoints := s.touchpoints.map fun t =>
      if t.leadId ∈ ids then { t with rawEventJson := .anonymised now } else t }

def anonymiseLead (now : Time) (retentionDays : ℤ) (s : Store) (lead : Lead) : Store :=
  let swept := anonymiseIds now s [lead.id]
  { swept with
    retentionLogs := swept.retentionLogs ++ [⟨lead.id,lead.tenantId,retentionDays⟩] }

structure SweepCounts where
  leadsAnonymised : ℕ
  eventLogsRedacted : ℕ

def logDue (now : Time) (retentionDays : ℤ) (r : IntakeEventLog) : Bool :=
  r.createdAt < cutoff now retentionDays

def runRetentionSweep (s : Store) (now : Time) (settings : RetentionSettings) :
    Store × SweepCounts :=
  let leads := leadsDue s now settings.leadDataRetentionDays
  let swept := leads.foldl (anonymiseLead now settings.leadDataRetentionDays) s
  let eventLogs := swept.logs.filter (logDue now settings.intakeLogRetentionDays)
  ({ swept with
      logs := swept.logs.map fun r =>
        if logDue now settings.intakeLogRetentionDays r then
          { r with rawEventJson := .anonymised now }
        else r },
    ⟨leads.length,eventLogs.length⟩)

theorem anonymiseIds_nil (now : Time) (s : Store) : anonymiseIds now s [] = s := by
  simp [anonymiseIds]

theorem anonymiseIds_cons (now : Time) (s : Store) (i : UUID) (ids : List UUID) :
    anonymiseIds now (anonymiseIds now s [i]) ids = anonymiseIds now s (i :: ids) := by
  simp only [anonymiseIds,List.map_map]
  congr 1
  · refine List.map_congr_left fun l _ => ?_
    by_cases h₁ : l.id = i <;> by_cases h₂ : l.id ∈ ids <;> simp_all [anonymisedLead,scrub]
  · refine List.map_congr_left fun t _ => ?_
    by_cases h₁ : t.leadId = i <;> by_cases h₂ : t.leadId ∈ ids <;> simp_all

/-- Anonymising the leads one after another rewrites the rows of all their ids and
writes one audit row a lead. -/
theorem foldl_anonymiseLead (now : Time) (days : ℤ) (leads : List Lead) (s : Store) :
    leads.foldl (anonymiseLead now days) s =
      { anonymiseIds now s (leads.map Lead.id) with
        retentionLogs := s.retentionLogs ++ leads.map fun l => ⟨l.id,l.tenantId,days⟩ } := by
  induction leads generalizing s with
  | nil => simp [anonymiseIds_nil]
  | cons l ls ih =>
    have hcons := anonymiseIds_cons now s l.id (ls.map Lead.id)
    rw [List.foldl_cons,ih,List.map_cons,List.map_cons,← hcons]
    simp [anonymiseLead,anonymiseIds]

theorem sealed_sweep {s : Store} (h : Sealed s) (now : Time) (settings : RetentionSettings) :
    Sealed (runRetentionSweep s now settings).1 := by
  simp only [runRetentionSweep,foldl_anonymiseLead]
  refine h.rewrite rfl rfl rfl (fun l => ?_) (fun t => tombstoned_touchpoint t _ trivial)
    (fun r => tombstoned_log r _ trivial) (fun l _ hstage => ?_)
  · split_ifs <;> rfl
  · split_ifs at hstage
    · simp [anonymisedLead,scrub] at hstage
    · exact Or.inl hstage

end Retention
end LeadEngine
