import LeadEngine.Concurrency
import LeadEngine.Ledger
import LeadEngine.Precedence

/-! Serialisability of concurrent captures. A transaction that attaches its event to a
lead comes after the one that made the lead, and before those that made a lead the event
would rather have found; a run is serialisable while these constraints have no cycle and
no transaction inserts a lead that another one, committed or in flight, already made. -/
namespace LeadEngine
namespace Concurrency

open Table Interpreter Repository Deduplicator Pipeline TransitionSystem History Precedence
open Relation

/-- Transactions that overlap, with distinct events and their own draws. -/
structure Workload (ι : Type) (s : Store) where
  txn : ι → Txn
  events : Function.Injective fun i => (txn i).event.platformEventId
  drawn : Drawn (fun i => (txn i).fresh) s

def CapturedBefore (s : Store) (e : NormalisedChannelEvent) : Prop :=
  ∃ r ∈ s.logs, r.platformEventId = e.platformEventId ∧ Counted r

theorem CapturedBefore.slotTaken {s : Store} {e : NormalisedChannelEvent}
    (h : CapturedBefore s e) : SlotTaken s e.platformEventId := by
  obtain ⟨r,hr,hpid,_⟩ := h
  exact ⟨r,hr,hpid⟩

section Rows

variable {ι : Type} {s : Store} (load : Workload ι s) (x : ι × Captured)

def Workload.created : List Lead := (x.2.received.map fun _ => x.2.lead).toList

def Workload.logged : IntakeEventLog :=
  settledLog (load.txn x.1).fresh (load.txn x.1).event x.2.lead.id
    (if x.2.received.isSome then .received else .duplicate)

def Workload.touched : LeadTouchpoint :=
  buildTouchpoint (load.txn x.1).fresh x.2.lead (load.txn x.1).event

def Workload.after (done : List (ι × Captured)) : Store :=
  { s with
    leads := s.leads ++ done.flatMap created
    logs := s.logs ++ done.map load.logged
    touchpoints := s.touchpoints ++ done.map load.touched }

@[simp] theorem after_nil : load.after [] = s := by simp [Workload.after]

omit load in
@[simp] theorem mem_created {l : Lead} :
    l ∈ Workload.created x ↔ x.2.lead = l ∧ x.2.received.isSome := by
  cases h : x.2.received <;> simp [Workload.created,h,eq_comm]

theorem logged_counted : Counted (load.logged x) := by
  cases h : x.2.received <;> simp [Counted,Workload.logged,settledLog,h]

end Rows

variable [Interpreter] {ι : Type} {s : Store}

omit [Interpreter] in
theorem after_attached (load : Workload ι s) (done : List (ι × Captured)) (i : ι) (l : Lead) :
    load.after (done ++ [(i,⟨l,none⟩)]) =
      withDuplicate (load.after done) (load.txn i).fresh (load.txn i).event l := by
  simp [Workload.after,withDuplicate,Workload.created,Workload.logged,Workload.touched]

theorem after_created (load : Workload ι s) (done : List (ι × Captured)) (i : ι)
    (a : LeadReceived) : load.after (done ++ [(i,⟨(load.txn i).lead,some a⟩)]) =
      withNewLead (load.after done) (load.txn i).fresh (load.txn i).event := by
  simp [Workload.after,withNewLead,Workload.created,Workload.logged,Workload.touched,Txn.lead,
    newLead]

section Conditions

variable (load : Workload ι s) (c : Config ι)

/-- The transaction committed this lead as a new one. -/
def Created (i : ι) (l : Lead) : Prop := ∃ a, c.phase i = .finished ⟨l,some a⟩

/-- The transaction has found this lead and attaches its event to it. -/
def Attached (i : ι) (l : Lead) : Prop :=
  ¬ SlotTaken s (load.txn i).event.platformEventId ∧
    (c.phase i = .matched l ∨ c.phase i = .finished ⟨l,none⟩)

/-- Transaction `i` has to come before `j` in every serial order: `j` found the lead `i`
made, or `i` overlooked a lead made by `j` that it would rather have found. -/
def Precedes (i j : ι) : Prop :=
  ∃ l, Created c i l ∧ Attached load c j l ∨
    ∃ b, Attached load c i l ∧ Created c j b ∧ Prefers (load.txn i).event b l

/-- No chain of constraints leads from a lead that the transaction would rather have
found to the lead it finds. -/
def Placeable (i : ι) (l : Lead) : Prop :=
  ∀ j k b, Created c j l → Created c k b → Prefers (load.txn i).event b l →
    ¬ ReflTransGen (Precedes load c) k j

/-- No other transaction comes between the lookups of transaction `i` and its write in a
way that no serial order can explain. -/
def Undisturbed (i : ι) : Prop :=
  let e := (load.txn i).event
  match c.phase i with
  | .start => ∀ r ∈ c.db.logs, r.platformEventId = e.platformEventId → Counted r
  | .phoneMissed =>
    ∀ l ∈ c.db.leads, l.tenantId = e.tenantId → MatchesEmail e l → Placeable load c i l
  | .emailMissed =>
    ∀ l ∈ c.db.leads, l.tenantId = e.tenantId → MatchesPlace e l → Placeable load c i l
  | .unmatched =>
    (∀ l ∈ c.db.leads, ¬ Matches e.tenantId e l) ∧
      ∀ j, j ≠ i → c.phase j = .inserted → ¬ Matches e.tenantId e (load.txn j).lead
  | _ => True

end Conditions

/-- The event may be attached to the lead: no lead committed before the run is preferred. -/
structure Attachable (s : Store) (leads : List Lead) (e : NormalisedChannelEvent) (l : Lead) :
    Prop where
  mem : l ∈ leads
  found : Matches e.tenantId e l
  best : ∀ b ∈ s.leads, ¬ Prefers e b l

/-- What the phase of a transaction says of the leads it has looked at, when `s` was
committed before the run and `leads` are committed now. -/
def Standing (s : Store) (leads : List Lead) (t : Txn) : Phase → Prop
  | .start => True
  | .redelivered => CapturedBefore s t.event
  | .reserved | .unmatched => ¬ SlotTaken s t.event.platformEventId
  | .phoneMissed => ¬ SlotTaken s t.event.platformEventId ∧
      ∀ l ∈ s.leads, l.tenantId = t.event.tenantId → ¬ MatchesPhone t.event l
  | .emailMissed => ¬ SlotTaken s t.event.platformEventId ∧
      ∀ l ∈ s.leads, l.tenantId = t.event.tenantId →
        ¬ MatchesPhone t.event l ∧ ¬ MatchesEmail t.event l
  | .matched l => ¬ SlotTaken s t.event.platformEventId ∧ Attachable s leads t.event l
  | .inserted => ¬ SlotTaken s t.event.platformEventId ∧
      ∀ l ∈ leads, ¬ Matches t.event.tenantId t.event l
  | .finished ⟨l,none⟩ => CapturedBefore s t.event ∨
      ¬ SlotTaken s t.event.platformEventId ∧ Attachable s leads t.event l
  | .finished ⟨l,some a⟩ => ¬ SlotTaken s t.event.platformEventId ∧
      (l = t.lead ∧ a = leadReceived t.fresh t.event) ∧
      ∀ x ∈ leads, x ≠ t.lead → ¬ Matches t.event.tenantId t.event x
  | .raised _ => False

/-- Leads that a transaction does not match change nothing for it. -/
theorem Standing.append {leads : List Lead} {t : Txn} {p : Phase} (h : Standing s leads t p)
    {l : Lead} (hl : t.lead ∈ leads ∨ p = .inserted → ¬ Matches t.event.tenantId t.event l)
    (hcreated : ∀ x a, p = .finished ⟨x,some a⟩ → t.lead ∈ leads) :
    Standing s (leads ++ [l]) t p := by
  have hattach : ∀ x, Attachable s leads t.event x → Attachable s (leads ++ [l]) t.event x :=
    fun x hx => ⟨List.mem_append_left _ hx.mem,hx.found,hx.best⟩
  match p with
  | .start | .redelivered | .reserved | .unmatched | .phoneMissed | .emailMissed
  | .raised _ => exact h
  | .matched x => exact ⟨h.1,hattach x h.2⟩
  | .inserted =>
    refine ⟨h.1,fun x hx => ?_⟩
    rcases List.mem_append.mp hx with hx | hx
    · exact h.2 x hx
    · rw [List.mem_singleton.mp hx]
      exact hl (Or.inr rfl)
  | .finished ⟨x,none⟩ => exact h.imp id fun hx => ⟨hx.1,hattach x hx.2⟩
  | .finished ⟨x,some a⟩ =>
    refine ⟨h.1,h.2.1,fun y hy hne => ?_⟩
    rcases List.mem_append.mp hy with hy | hy
    · exact h.2.2 y hy hne
    · rw [List.mem_singleton.mp hy]
      exact hl (Or.inl (hcreated x a rfl))

theorem matches_newLead_comm {e e' : NormalisedChannelEvent} (f f' : Fresh)
    (h : Matches e.tenantId e (newLead f' e')) : Matches e'.tenantId e' (newLead f e) := by
  obtain ⟨ht,hm⟩ := h
  refine ⟨ht.symm,?_⟩
  rcases hm with ⟨p,hp,hp'⟩ | ⟨m,hm,hm'⟩ | ⟨n,p,hn,hp,hn',hp'⟩
  · exact Or.inl ⟨p,hp',hp⟩
  · exact Or.inr (Or.inl ⟨m,hm',hm⟩)
  · have hne := (truthy_eq_some.mp hn).2
    have hpe := (truthy_eq_some.mp hp).2
    exact Or.inr (Or.inr ⟨n,p,truthy_eq_some.mpr ⟨hn',hne⟩,truthy_eq_some.mpr ⟨hp',hpe⟩,
      (truthy_eq_some.mp hn).1,(truthy_eq_some.mp hp).1⟩)

/-- What holds of every configuration of an undisturbed run; `done` are the transactions
that wrote, in the order of their commits. -/
structure Sound (load : Workload ι s) (c : Config ι) (done : List (ι × Captured)) : Prop where
  db : c.db = load.after done
  nodup : (done.map Prod.fst).Nodup
  mem : ∀ x, x ∈ done ↔ c.phase x.1 = .finished x.2 ∧
    ¬ SlotTaken s (load.txn x.1).event.platformEventId
  standing : ∀ i, Standing s c.db.leads (load.txn i) (c.phase i)
  apart : ∀ i j, i ≠ j → c.phase i = .inserted → c.phase j = .inserted →
    ¬ Matches (load.txn i).event.tenantId (load.txn i).event (load.txn j).lead
  identities : Identities c.db.leads
  acyclic : Acyclic (Precedes load c)

section Facts

variable {load : Workload ι s} {c : Config ι} {done : List (ι × Captured)}

theorem Created.lead (h : Sound load c done) {i : ι} {l : Lead} (hi : Created c i l) :
    l = (load.txn i).lead ∧ ¬ SlotTaken s (load.txn i).event.platformEventId := by
  obtain ⟨a,ha⟩ := hi
  have hst := h.standing i
  rw [ha] at hst
  exact ⟨hst.2.1.1,hst.1⟩

theorem Attached.attachable (h : Sound load c done) {i : ι} {l : Lead}
    (hi : Attached load c i l) : Attachable s c.db.leads (load.txn i).event l := by
  obtain ⟨hnew,hi⟩ := hi
  have hst := h.standing i
  rcases hi with hi | hi
  · rw [hi] at hst
    exact hst.2
  · rw [hi] at hst
    rcases hst with hst | hst
    · exact absurd hst.slotTaken hnew
    · exact hst.2

theorem Sound.mem_leads (h : Sound load c done) {l : Lead} :
    l ∈ c.db.leads ↔ l ∈ s.leads ∨ ∃ i, Created c i l := by
  rw [h.db,Workload.after,List.mem_append,List.mem_flatMap]
  refine or_congr_right ⟨?_,?_⟩
  · rintro ⟨⟨i,captured⟩,hx,hl⟩
    obtain ⟨hlead,hsome⟩ := (mem_created _).mp hl
    obtain ⟨a,ha⟩ := Option.isSome_iff_exists.mp hsome
    have hphase := ((h.mem _).mp hx).1
    refine ⟨i,a,?_⟩
    rw [hphase,← hlead,← ha]
  · rintro ⟨i,a,hi⟩
    have hnew := (Created.lead h ⟨a,hi⟩).2
    exact ⟨(i,⟨l,some a⟩),(h.mem _).mpr ⟨hi,hnew⟩,by simp⟩

theorem Sound.lead_not_mem (h : Sound load c done) {i : ι}
    (hi : ∀ a, c.phase i ≠ .finished ⟨(load.txn i).lead,some a⟩) :
    (load.txn i).lead ∉ c.db.leads := by
  intro hmem
  rcases h.mem_leads.mp hmem with hmem | ⟨j,hj⟩
  · exact (load.drawn.fresh i).lead _ hmem rfl
  · have hid := congrArg Lead.id (Created.lead h hj).1
    obtain rfl : i = j := load.drawn.leadIds hid
    obtain ⟨a,ha⟩ := hj
    exact hi a ha

theorem Sound.logs_of_event (h : Sound load c done) {i : ι} {r : IntakeEventLog}
    (hr : r ∈ c.db.logs) (hpid : r.platformEventId = (load.txn i).event.platformEventId) :
    r ∈ s.logs ∨ ∃ captured, (i,captured) ∈ done ∧ r = load.logged (i,captured) := by
  rw [h.db,Workload.after,List.mem_append,List.mem_map] at hr
  rcases hr with hr | ⟨⟨j,captured⟩,hx,rfl⟩
  · exact Or.inl hr
  · obtain rfl : j = i := load.events hpid
    exact Or.inr ⟨captured,hx,rfl⟩

theorem Sound.logs_subset (h : Sound load c done) {r : IntakeEventLog} (hr : r ∈ s.logs) :
    r ∈ c.db.logs := by
  rw [h.db]
  exact List.mem_append_left _ hr

end Facts

end Concurrency
end LeadEngine
