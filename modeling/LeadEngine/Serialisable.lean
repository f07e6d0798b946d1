import LeadEngine.Undisturbed

/-! Serialisability of concurrent captures: the transactions of an undisturbed run write
what they would write one after another, in an order that respects the constraints. -/
namespace LeadEngine
namespace Concurrency

open Table Interpreter Repository Deduplicator Pipeline TransitionSystem History Precedence

section Runs

variable [Interpreter] {ι : Type} {s : Store}

def runNext (txn : ι → Txn) (s : Store) (i : ι) : Store :=
  match runCapture s (txn i).fresh (txn i).event with
  | .ok (s',_) => s'
  | .error _ => s

def runSerially (txn : ι → Txn) (s : Store) (order : List ι) : Store :=
  order.foldl (runNext txn) s

structure SameRows (s s' : Store) : Prop where
  leads : s.leads.Perm s'.leads
  logs : s.logs.Perm s'.logs
  touchpoints : s.touchpoints.Perm s'.touchpoints
  retentionLogs : s.retentionLogs = s'.retentionLogs
  erasureLogs : s.erasureLogs = s'.erasureLogs

/-- The committed rows are those of the transactions that are over, run one after another;
each of their events has one log row and one touchpoint; identities are unique, so that no
lookup sees two matches; and as long as a transaction is not over some step is possible. -/
structure Serialised [DecidableEq ι] [Fintype ι] (load : Workload ι s) (c : Config ι) : Prop where
  serial : ∃ order : List ι, order.Nodup ∧ (∀ i, i ∈ order ↔ (c.phase i).isOver = true) ∧
    SameRows c.db (runSerially load.txn s order)
  logged : ∀ i, (c.phase i).isOver = true →
    (c.db.logs.map IntakeEventLog.platformEventId).count
      (load.txn i).event.platformEventId = 1
  touched : ∀ i, (c.phase i).isOver = true →
    (c.db.touchpoints.map LeadTouchpoint.platformEventId).count
      (some (load.txn i).event.platformEventId) = 1
  identities : Identities c.db.leads
  lookup : ∀ t e, ∃ found, findDuplicate c.db t e = .ok found
  progress : (∃ i, (c.phase i).isOver = false) → ∃ i c', CaptureStep load.txn [] c i c'

section SerialOrder

variable {load : Workload ι s} {c : Config ι} {done pre : List (ι × Captured)}

theorem Sound.mem_leads_after (h : Sound load c done) (hsub : ∀ x ∈ pre, x ∈ done) {l : Lead} :
    l ∈ (load.after pre).leads ↔ l ∈ s.leads ∨ ∃ i ∈ pre.map Prod.fst, Created c i l := by
  rw [Workload.after,List.mem_append,List.mem_flatMap]
  refine or_congr_right ⟨?_,?_⟩
  · rintro ⟨⟨i,captured⟩,hx,hl⟩
    obtain ⟨hlead,hsome⟩ := (mem_created _).mp hl
    obtain ⟨a,ha⟩ := Option.isSome_iff_exists.mp hsome
    have hphase := ((h.mem _).mp (hsub _ hx)).1
    exact ⟨i,List.mem_map_of_mem hx,a,by rw [hphase,← hlead,← ha]⟩
  · rintro ⟨i,hi,a,ha⟩
    obtain ⟨⟨j,captured⟩,hx,rfl⟩ := List.mem_map.mp hi
    have hphase := ((h.mem _).mp (hsub _ hx)).1
    obtain rfl : captured = ⟨l,some a⟩ := Phase.finished.inj (hphase.symm.trans ha)
    exact ⟨_,hx,by simp⟩

theorem Sound.fresh_after (h : Sound load c done) (hsub : ∀ x ∈ pre, x ∈ done) {i : ι}
    (hi : i ∉ pre.map Prod.fst) : (load.txn i).fresh.For (load.after pre) where
  log := by
    intro r hr hid
    rcases List.mem_append.mp hr with hr | hr
    · exact (load.drawn.fresh i).log r hr hid
    · obtain ⟨x,hx,rfl⟩ := List.mem_map.mp hr
      rw [← load.drawn.logIds hid] at hi
      exact hi (List.mem_map_of_mem hx)
  lead := by
    intro l hl hid
    rcases (h.mem_leads_after hsub).mp hl with hl | ⟨j,hj,hmade⟩
    · exact (load.drawn.fresh i).lead l hl hid
    · rw [(Created.lead h hmade).1] at hid
      rw [← load.drawn.leadIds hid] at hi
      exact hi hj
  touchpoint := by
    intro t ht hid
    rcases List.mem_append.mp ht with ht | ht
    · exact (load.drawn.fresh i).touchpoint t ht hid
    · obtain ⟨x,hx,rfl⟩ := List.mem_map.mp ht
      rw [← load.drawn.touchpointIds hid] at hi
      exact hi (List.mem_map_of_mem hx)

omit [Interpreter] in
theorem not_slotTaken_after {i : ι} (hi : i ∉ pre.map Prod.fst)
    (hnew : ¬ SlotTaken s (load.txn i).event.platformEventId) :
    ¬ SlotTaken (load.after pre) (load.txn i).event.platformEventId := by
  rintro ⟨r,hr,hpid⟩
  rcases List.mem_append.mp hr with hr | hr
  · exact hnew ⟨r,hr,hpid⟩
  · obtain ⟨x,hx,rfl⟩ := List.mem_map.mp hr
    rw [← load.events hpid] at hi
    exact hi (List.mem_map_of_mem hx)

/-- In an order that respects the constraints, the dedup of each transaction answers as it
did in the run. -/
theorem Sound.runCapture_after (h : Sound load c done) {ops post : List (ι × Captured)}
    {x : ι × Captured} (hperm : ops.Perm done)
    (hpair : ops.Pairwise fun a b => ¬ Precedes load c b.1 a.1) (hops : ops = pre ++ x :: post) :
    runCapture (load.after pre) (load.txn x.1).fresh (load.txn x.1).event =
      .ok (load.after (pre ++ [x]),x.2) := by
  obtain ⟨i,captured⟩ := x
  rw [hops,List.pairwise_append,List.pairwise_cons] at hpair
  obtain ⟨_,⟨hpost,_⟩,hpre⟩ := hpair
  have hsub : ∀ y ∈ pre, y ∈ done := fun y hy => hperm.mem_iff.mp (by simp [hops,hy])
  have hx : (i,captured) ∈ done := hperm.mem_iff.mp (by simp [hops])
  obtain ⟨hphase,hnew⟩ := (h.mem _).mp hx
  have hnodup : (ops.map Prod.fst).Nodup := (hperm.map Prod.fst).nodup_iff.mpr h.nodup
  have hi : i ∉ pre.map Prod.fst := by
    rw [hops,List.map_append,List.map_cons] at hnodup
    exact fun hmem => (List.nodup_append.mp hnodup).2.2 i hmem i List.mem_cons_self rfl
  have hstanding := h.standing i
  have hfresh := h.fresh_after hsub hi
  have hslot := not_slotTaken_after hi hnew
  dsimp only at hphase ⊢
  rw [hphase] at hstanding
  match captured with
  | ⟨l,some a⟩ =>
    obtain ⟨_,⟨rfl,rfl⟩,hother⟩ := hstanding
    have hfree : ∀ b ∈ (load.after pre).leads,
        ¬ Matches (load.txn i).event.tenantId (load.txn i).event b := by
      intro b hb
      rcases (h.mem_leads_after hsub).mp hb with hold | ⟨j,hj,hmade⟩
      · exact hother b (h.mem_leads.mpr (Or.inl hold))
          fun heq => (load.drawn.fresh i).lead b hold (by rw [heq]; rfl)
      · refine hother b (h.mem_leads.mpr (Or.inr ⟨j,hmade⟩)) fun heq => ?_
        have hid := congrArg Lead.id ((Created.lead h hmade).1.symm.trans heq)
        rw [← load.drawn.leadIds hid] at hi
        exact hi hj
    rw [runCapture_new hfresh hslot (findDuplicate_none.mpr hfree),after_created]
    rfl
  | ⟨l,none⟩ =>
    have hattached : Attached load c i l := ⟨hnew,Or.inr hphase⟩
    have hfound := hattached.attachable h
    have hidentities : Identities (load.after pre).leads := by
      have hleads := h.identities
      rw [h.db,Workload.after] at hleads
      refine (hleads.perm ((hperm.symm.flatMap_right Workload.created).append_left _)).sublist ?_
      rw [hops,List.flatMap_append,← List.append_assoc]
      exact List.sublist_append_left _ _
    have hmem : l ∈ (load.after pre).leads := by
      refine (h.mem_leads_after hsub).mpr ?_
      rcases h.mem_leads.mp hfound.mem with hold | ⟨j,hmade⟩
      · exact Or.inl hold
      · refine Or.inr ⟨j,?_,hmade⟩
        obtain ⟨a,ha⟩ := hmade
        have hj : (j,⟨l,some a⟩) ∈ ops :=
          hperm.mem_iff.mpr ((h.mem _).mpr ⟨ha,(Created.lead h ⟨a,ha⟩).2⟩)
        rw [hops,List.mem_append,List.mem_cons] at hj
        rcases hj with hj | hj | hj
        · exact List.mem_map_of_mem hj
        · simp at hj
        · exact absurd ⟨l,Or.inl ⟨⟨a,ha⟩,hattached⟩⟩ (hpost _ hj)
    have hbest : ∀ b ∈ (load.after pre).leads, ¬ Prefers (load.txn i).event b l := by
      intro b hb hpref
      rcases (h.mem_leads_after hsub).mp hb with hold | ⟨j,hj,hmade⟩
      · exact hfound.best b hold hpref
      · obtain ⟨y,hy,rfl⟩ := List.mem_map.mp hj
        exact hpre y hy _ List.mem_cons_self ⟨l,Or.inr ⟨b,hattached,hmade,hpref⟩⟩
    have hdup := (findDuplicate_some_iff_preferred hidentities).mpr ⟨hmem,hfound.found,hbest⟩
    rw [runCapture_duplicate hfresh hslot hdup,after_attached]

theorem runSerially_append (txn : ι → Txn) (s : Store) (order order' : List ι) :
    runSerially txn s (order ++ order') = runSerially txn (runSerially txn s order) order' :=
  List.foldl_append

theorem runSerially_captured (hc : Consistent s) (hsettled : ∀ r ∈ s.logs, Settled r)
    {order : List ι} (h : ∀ i ∈ order, CapturedBefore s (load.txn i).event) :
    runSerially load.txn s order = s := by
  induction order with
  | nil => rfl
  | cons i rest ih =>
    have hi := h i List.mem_cons_self
    obtain ⟨l,hl⟩ := redelivered_captured hc hsettled hc.leadIds hc.slots (fun _ => id)
      (fun _ => id) hi
    have hnext : runNext load.txn s i = s := by
      simp [runNext,runCapture_taken hi.slotTaken,hl]
    rw [runSerially,List.foldl_cons,hnext]
    exact ih fun j hj => h j (List.mem_cons_of_mem _ hj)

/-- Run in an order that respects the constraints, the transactions write what they wrote. -/
theorem Sound.runSerially_order (h : Sound load c done) {ops : List (ι × Captured)}
    (hperm : ops.Perm done) (hpair : ops.Pairwise fun a b => ¬ Precedes load c b.1 a.1) :
    runSerially load.txn s (ops.map Prod.fst) = load.after ops := by
  have hprefix : ∀ pre, pre <+: ops → runSerially load.txn s (pre.map Prod.fst) =
      load.after pre := by
    intro pre
    induction pre using List.reverseRecOn with
    | nil =>
      intro _
      simp [runSerially]
    | append_singleton pre x ih =>
      rintro ⟨post,hops⟩
      have hops' : ops = pre ++ x :: post := by simpa using hops.symm
      have hpre := ih ⟨x :: post,hops'.symm⟩
      have hnext := h.runCapture_after hperm hpair hops'
      rw [List.map_append,runSerially_append,hpre,List.map_singleton,runSerially,
        List.foldl_cons,List.foldl_nil,runNext,hnext]
  exact hprefix ops List.prefix_rfl

theorem Sound.over (h : Sound load c done) {i : ι} (hover : (c.phase i).isOver = true) :
    CapturedBefore s (load.txn i).event ∨ ∃ captured, (i,captured) ∈ done := by
  have hstanding := h.standing i
  match hp : c.phase i with
  | .start | .redelivered | .reserved | .phoneMissed | .emailMissed | .unmatched
  | .matched _ | .inserted => simp [hp,Phase.isOver] at hover
  | .raised _ =>
    rw [hp] at hstanding
    exact hstanding.elim
  | .finished ⟨l,none⟩ =>
    rw [hp] at hstanding
    rcases hstanding with hold | ⟨hnew,_⟩
    · exact Or.inl hold
    · exact Or.inr ⟨_,(h.mem _).mpr ⟨hp,hnew⟩⟩
  | .finished ⟨l,some a⟩ =>
    rw [hp] at hstanding
    exact Or.inr ⟨_,(h.mem _).mpr ⟨hp,hstanding.1⟩⟩

theorem Sound.serial [Fintype ι] (h : Sound load c done) (hc : Consistent s)
    (hsettled : ∀ r ∈ s.logs, Settled r) :
    ∃ order : List ι, order.Nodup ∧ (∀ i, i ∈ order ↔ (c.phase i).isOver = true) ∧
      SameRows c.db (runSerially load.txn s order) := by
  classical
  obtain ⟨ops,hperm,hpair⟩ := (h.acyclic.comap Prod.fst).exists_order done
  let answered := (Finset.univ.filter fun i => (c.phase i).isOver = true ∧
    SlotTaken s (load.txn i).event.platformEventId).toList
  have hanswered : ∀ i, i ∈ answered ↔ (c.phase i).isOver = true ∧
      SlotTaken s (load.txn i).event.platformEventId := by
    simp [answered]
  have hwrote : ∀ i, i ∈ ops.map Prod.fst ↔ ∃ captured, (i,captured) ∈ done := by
    intro i
    rw [(hperm.map Prod.fst).mem_iff]
    simp
  have hcaptured : ∀ i ∈ answered, CapturedBefore s (load.txn i).event := by
    intro i hi
    obtain ⟨hover,hslot⟩ := (hanswered i).mp hi
    rcases h.over hover with hold | ⟨captured,hx⟩
    · exact hold
    · exact absurd hslot ((h.mem _).mp hx).2
  refine ⟨answered ++ ops.map Prod.fst,?_,fun i => ?_,?_⟩
  · refine List.nodup_append.mpr ⟨Finset.nodup_toList _,
      (hperm.map Prod.fst).nodup_iff.mpr h.nodup,?_⟩
    rintro i hi j hj rfl
    obtain ⟨captured,hx⟩ := (hwrote i).mp hj
    exact ((h.mem _).mp hx).2 ((hanswered i).mp hi).2
  · rw [List.mem_append,hanswered,hwrote]
    constructor
    · rintro (⟨hover,_⟩ | ⟨captured,hx⟩)
      · exact hover
      · rw [((h.mem _).mp hx).1]
        rfl
    · intro hover
      rcases h.over hover with hold | hx
      · exact Or.inl ⟨hover,hold.slotTaken⟩
      · exact Or.inr hx
  · rw [runSerially_append,runSerially_captured hc hsettled hcaptured,
      h.runSerially_order hperm hpair,h.db]
    exact ⟨(hperm.symm.flatMap_right _).append_left _,(hperm.symm.map _).append_left _,
      (hperm.symm.map _).append_left _,rfl,rfl⟩

theorem Sound.recorded (h : Sound load c done) {i : ι} (hover : (c.phase i).isOver = true) :
    CapturedBefore c.db (load.txn i).event := by
  rcases h.over hover with ⟨r,hr,hpid,hcounted⟩ | ⟨captured,hx⟩
  · exact ⟨r,h.logs_subset hr,hpid,hcounted⟩
  · refine ⟨load.logged (i,captured),?_,rfl,logged_counted load _⟩
    rw [h.db]
    exact List.mem_append_right _ (List.mem_map_of_mem hx)

theorem Sound.touchpoints (h : Sound load c done) {received : List LeadReceived}
    (hb : Books s received) : c.db.touchpoints.map LeadTouchpoint.platformEventId =
      ((c.db.logs.filter fun r => Counted r).map IntakeEventLog.platformEventId).map some := by
  have hold := congrArg (List.map Prod.snd) hb.touchpoints
  rw [List.map_map,List.map_map] at hold
  have hnew : (done.map load.logged).filter (fun r => Counted r) = done.map load.logged := by
    refine List.filter_eq_self.mpr fun r hr => ?_
    obtain ⟨x,_,rfl⟩ := List.mem_map.mp hr
    simpa using logged_counted load x
  rw [h.db,Workload.after]
  simp only [List.map_append,List.filter_append,hnew,List.map_map]
  exact congrArg₂ _ hold (List.map_congr_left fun _ _ => rfl)

theorem Sound.serialised [DecidableEq ι] [Fintype ι] (h : Sound load c done)
    (hc : Consistent s) {received : List LeadReceived} (hb : Books s received) :
    Serialised load c where
  serial := h.serial hc hb.settled
  logged := by
    intro i hover
    obtain ⟨r,hr,hpid,_⟩ := h.recorded hover
    exact List.count_eq_one_of_mem (h.slots hc) (List.mem_map.mpr ⟨r,hr,hpid⟩)
  touched := by
    intro i hover
    obtain ⟨r,hr,hpid,hcounted⟩ := h.recorded hover
    rw [h.touchpoints hb]
    have hsub := (List.filter_sublist (l:=c.db.logs) (p:=fun r => decide (Counted r))).map
      IntakeEventLog.platformEventId
    refine List.count_eq_one_of_mem (((h.slots hc).sublist hsub).map (Option.some_injective _)) ?_
    refine List.mem_map_of_mem (List.mem_map.mpr ⟨r,List.mem_filter.mpr ⟨hr,?_⟩,hpid⟩)
    simpa using hcounted
  identities := h.identities
  lookup := fun t e => findDuplicate_ok h.identities t e
  progress := progress_of_open

end SerialOrder

/-- A run of overlapping captures in which no transaction is disturbed is finite, and
serialisable in every state it reaches. -/
theorem serialised_of_undisturbed [DecidableEq ι] [Fintype ι] {w : World}
    (hw : Reachable Step .empty w) (load : Workload ι w.store)
    {tr : List (Transition (Config ι) ι)} {c : Config ι}
    (h : Path (CaptureStep load.txn []) (Config.initial w.store) tr c)
    (hguard : ∀ t ∈ tr, Undisturbed load t.1 t.2.1) :
    tr.length ≤ 6 * Fintype.card ι ∧ Serialised load c := by
  have hc := consistent_of_reachable hw
  have hb := books_of_reachable hw
  have hsound : ∃ done, Sound load c done := by
    refine h.invariant_of_guard (I := fun c => ∃ done, Sound load c done)
      (G := fun c i => Undisturbed load c i) ⟨[],?_⟩ ?_ hguard
    · refine ⟨by simp [Config.initial],List.nodup_nil,?_,fun _ => trivial,?_,hc.identities,?_⟩
      · rintro ⟨i,captured⟩
        simp [Config.initial]
      · intro i j _ hi
        simp [Config.initial] at hi
      · refine acyclic_of_isolated fun i j => (not_precedes (fun l => ?_) j).1
        exact open_of_phase (p:=.start) rfl (by simp) (by simp) l
    · rintro c i c' ⟨done,hsound⟩ hu hstep
      exact hsound.step hc hb.settled hu (CaptureStep.advance hstep)
  obtain ⟨done,hsound⟩ := hsound
  exact ⟨length_le_of_path h,hsound.serialised hc hb⟩

/-- No committed lead and no lead in flight shares an identity with the event, from the
second lookup on. -/
def Unrivalled (load : Workload ι s) (c : Config ι) (i : ι) : Prop :=
  let e := (load.txn i).event
  match c.phase i with
  | .start => ∀ r ∈ c.db.logs, r.platformEventId = e.platformEventId → Counted r
  | .phoneMissed | .emailMissed | .unmatched =>
    (∀ l ∈ c.db.leads, ¬ Matches e.tenantId e l) ∧
      ∀ j, j ≠ i → (c.phase j).isInserted = true → ¬ Matches e.tenantId e (load.txn j).lead
  | _ => True

theorem Unrivalled.undisturbed {load : Workload ι s} {c : Config ι} {i : ι}
    (h : Unrivalled load c i) : Undisturbed load c i := by
  unfold Unrivalled at h
  unfold Undisturbed
  cases hp : c.phase i with
  | start =>
    rw [hp] at h
    exact h
  | phoneMissed =>
    rw [hp] at h
    exact fun l hl ht hm => absurd ⟨ht,Or.inr (Or.inl hm)⟩ (h.1 l hl)
  | emailMissed =>
    rw [hp] at h
    exact fun l hl ht hm => absurd ⟨ht,Or.inr (Or.inr hm)⟩ (h.1 l hl)
  | unmatched =>
    rw [hp] at h
    exact ⟨h.1,fun j hj hins => h.2 j hj (by rw [hins]; rfl)⟩
  | _ => trivial

instance [DecidableEq ι] [Fintype ι] (load : Workload ι s) (c : Config ι) (i : ι) :
    Decidable (Unrivalled load c i) := by
  unfold Unrivalled
  dsimp only
  split <;> infer_instance

end Runs

def Workload.ofEvents {n : ℕ} (events : Fin n → NormalisedChannelEvent)
    (h : Function.Injective fun i => (events i).platformEventId) : Workload (Fin n) .empty where
  txn i := ⟨events i,.nth i⟩
  events := h
  drawn := ⟨fun i => by constructor <;> simp [Store.empty],Fin.val_injective,Fin.val_injective,
    Fin.val_injective⟩

def contactsLoad : Workload (Fin 3) .empty :=
  .ofEvents (fun i => .ofMessage 1 (["a","b","c"].getD i "")
    none (some (["+49 151","+49 151","+49 152"].getD i "")) none none "Need a quote") (by decide)

/-- The other contact's statements fall between those of the first. -/
def contactsSchedule : List (Fin 3) := [0,2,1,0,2,0,2,0,2,0,2,0,2,1,1]

theorem contacts_unrivalled :
    letI := Interpreter.ascii id
    ∀ t ∈ followed (captureNext contactsLoad.txn []) (Config.initial .empty) contactsSchedule,
      Unrivalled contactsLoad t.1 t.2.1 := by decide +kernel

theorem contacts_serialised :
    letI := Interpreter.ascii id
    (∀ i, ((follow (captureNext contactsLoad.txn []) (Config.initial .empty)
      contactsSchedule).phase i).isOver = true) ∧
      (followed (captureNext contactsLoad.txn []) (Config.initial .empty)
        contactsSchedule).length ≤ 6 * Fintype.card (Fin 3) ∧
      Serialised contactsLoad
        (follow (captureNext contactsLoad.txn []) (Config.initial .empty) contactsSchedule) := by
  let := Interpreter.ascii id
  exact ⟨by decide +kernel,serialised_of_undisturbed (w:=.empty) Reachable.refl contactsLoad
    (path_follow _ _ _) fun t ht => (contacts_unrivalled t ht).undisturbed⟩

def namesakesLoad : Workload (Fin 2) .empty :=
  .ofEvents (fun i => .ofMessage 1 (["a","b"].getD i "")
    (some "Ann") none none (some "Kiel") "Need a quote") (by decide)

def samePhoneLoad : Workload (Fin 2) .empty :=
  .ofEvents (fun i => .ofMessage 1 (["a","b"].getD i "")
    none (some "+49 151") none none "Need a quote") (by decide)

/-- Both transactions look for a lead before either inserts one. -/
def clashSchedule : List (Fin 2) := [0,1,0,1,0,1,0,1,0,1,0,1]

/-- Two namesakes are both inserted, and of two contacts with one phone the second is lost. -/
theorem concurrent_captures_clash :
    letI := Interpreter.ascii id
    (∃ tr c, Path (CaptureStep namesakesLoad.txn []) (Config.initial .empty) tr c ∧
      ¬ Serialised namesakesLoad c) ∧
      ∃ tr c, Path (CaptureStep samePhoneLoad.txn []) (Config.initial .empty) tr c ∧
        (c.phase 1).isOver = true ∧ "b" ∉ c.db.logs.map IntakeEventLog.platformEventId ∧
        ¬ Serialised samePhoneLoad c := by
  let := Interpreter.ascii id
  refine ⟨⟨_,_,path_follow _ _ clashSchedule,fun h => ?_⟩,
    ⟨_,_,path_follow _ _ clashSchedule,by decide +kernel,by decide +kernel,fun h => ?_⟩⟩
  · have hraised : (findDuplicate (follow (captureNext namesakesLoad.txn [])
        (Config.initial .empty) clashSchedule).db 1 (namesakesLoad.txn 0).event).toOption.isSome =
        false := by decide +kernel
    obtain ⟨found,hfound⟩ := h.lookup 1 (namesakesLoad.txn 0).event
    rw [hfound] at hraised
    simp [Except.toOption] at hraised
  · have hlost : ((follow (captureNext samePhoneLoad.txn []) (Config.initial .empty)
        clashSchedule).db.logs.map IntakeEventLog.platformEventId).count
        (samePhoneLoad.txn 1).event.platformEventId = 0 := by decide +kernel
    have hone := h.logged 1 (by decide +kernel)
    omega

end Concurrency
end LeadEngine
