import Mathlib.Data.Nat.Pairing
import LeadEngine.BatchSession

/-! A batch job that is cut off and started again. The second try finds the rows that the first one
committed in the log and passes over them, but a row without an identity is stored again. -/
namespace LeadEngine
namespace FileUpload

open Interpreter Repository Deduplicator TwoStageFilter Pipeline Normaliser UnitOfWork History
open TransitionSystem

section Restart

variable [Interpreter] {t : UUID} {s s' c : Store} {job : Fresh × Row}
  {jobs jobs' kept : List (Fresh × Row)} {row : Row} {rows : List Row}

def runRows (tenantId : UUID) (jobs : List (Fresh × Row)) (s : Store) : Store :=
  jobs.foldl (fun s job => rowNext .queued s job.1 tenantId job.2) s

theorem runAlone_eq (tenantId : UUID) (jobs : List (Fresh × Row)) (s : Store) :
    runAlone insertObject (batchRowScript tenantId) jobs s = runRows tenantId jobs s := by
  induction jobs generalizing s with
  | nil => rfl
  | cons job rest ih =>
    rw [runAlone,result_batchRowScript,runRows,List.foldl_cons,rowNext,UploadPath.row]
    cases batchRow s job.1 tenantId job.2 with
    | error err => exact ih s
    | ok r => exact ih r.1

theorem runLeadCaptureBatch_runRows {activeSignals : Except Unit (Option (List Signal))}
    (hpass : Passes activeSignals) (s : Store) (tenantId : UUID) (jobs : List (Fresh × Row)) :
    runLeadCaptureBatch s (drawsOf jobs) tenantId activeSignals (jobs.map Prod.snd) =
      .ok (runRows tenantId jobs s) := by
  obtain ⟨config,signals,rfl,hcheck⟩ := hpass
  simp only [runLeadCaptureBatch,hcheck]
  rw [← runAlone_kept,runAlone_eq]

theorem batchLoop_runRows (draws : ℕ → Fresh) (tenantId : UUID) (s : Store) (rows : List Row) :
    batchLoop draws tenantId s 0 rows =
      runRows tenantId (rows.mapIdx fun i row => (draws i,row)) s := by
  have hdraws : ∀ i job, (rows.mapIdx fun i row => (draws i,row))[i]? = some job →
      draws (0+i) = job.1 := by
    intro i job hjob
    obtain ⟨row,hrow,rfl⟩ : ∃ row, rows[i]? = some row ∧ (draws i,row) = job := by
      simpa using hjob
    rw [Nat.zero_add]
  rw [← runAlone_eq,runAlone_rows tenantId s hdraws]
  congr 1
  exact (List.ext_getElem (by simp) fun i hi hi' => by simp).symm

structure Issued (s : Store) (jobs : List (Fresh × Row)) : Prop where
  consistent : Consistent s
  fresh : ∀ job ∈ jobs, job.1.For s
  apart : jobs.Pairwise fun job job' => job.1.logId ≠ job'.1.logId ∧
    job.1.leadId ≠ job'.1.leadId ∧ job.1.touchpointId ≠ job'.1.touchpointId

theorem Issued.effect (h : Issued s (job :: jobs)) :
    RowEffect .queued s job.1 t job.2 (rowNext .queued s job.1 t job.2) :=
  rowEffect .queued (h.fresh job List.mem_cons_self) h.consistent.identities t job.2

theorem Issued.next (h : Issued s (job :: jobs)) :
    Issued (rowNext .queued s job.1 t job.2) jobs := by
  obtain ⟨received,hchange⟩ := (h.effect (t:=t)).change
  obtain ⟨hfirst,hrest⟩ := List.pairwise_cons.mp h.apart
  refine ⟨hchange.consistent (h.fresh job List.mem_cons_self) h.consistent,?_,hrest⟩
  intro job' hjob'
  obtain ⟨hlog,hlead,htouchpoint⟩ := hfirst job' hjob'
  exact hchange.keeps_fresh (h.fresh job' (List.mem_cons_of_mem _ hjob')) hlog hlead htouchpoint

omit [Interpreter] in
theorem Issued.sublist (h : Issued s jobs) (hsub : jobs'.Sublist jobs) : Issued s jobs' :=
  ⟨h.consistent,fun job hjob => h.fresh job (hsub.subset hjob),h.apart.sublist hsub⟩

theorem Issued.run (h : Issued s (jobs ++ jobs')) : Issued (runRows t jobs s) jobs' := by
  induction jobs generalizing s with
  | nil => exact h
  | cons job rest ih => exact ih h.next

omit [Interpreter] in
theorem issued_of_drawn {draws : ℕ → Fresh} (hc : Consistent s) (hd : Drawn draws s)
    (rows : List Row) : Issued s (rows.mapIdx fun i row => (draws i,row)) := by
  refine ⟨hc,?_,?_⟩
  · intro job hjob
    obtain ⟨i,hi,rfl⟩ := List.mem_mapIdx.mp hjob
    exact hd.fresh i
  · rw [List.pairwise_iff_getElem]
    intro i j hi hj hij
    simp only [List.getElem_mapIdx]
    exact ⟨fun h => hij.ne (hd.logIds h),fun h => hij.ne (hd.leadIds h),
      fun h => hij.ne (hd.touchpointIds h)⟩

/-- The row can be read, and has no identity. -/
def lacking (tenantId : UUID) (row : Row) : Bool :=
  match normaliseFileRow row tenantId with
  | .error _ => false
  | .ok e => LacksIdentity e

theorem lacking_iff :
    lacking t row = true ↔ ∃ e, normaliseFileRow row t = .ok e ∧ LacksIdentity e := by
  unfold lacking
  cases normaliseFileRow row t <;> simp

section Rows

variable {f : Fresh} {row' : Row}

theorem rowNext_settled (hf : f.For s) (hc : Consistent s) (h : ¬ Writes s t row) :
    rowNext .queued s f t row = s := by
  have heffect := rowEffect .queued hf hc.identities t row
  generalize rowNext .queued s f t row = s' at heffect
  cases heffect with
  | skipped => rfl
  | blocked e he hid => exact absurd ⟨e,he,.inl hid⟩ h
  | captured e he _ hslot => exact absurd ⟨e,he,.inr hslot⟩ h
  | attached e l he _ hslot => exact absurd ⟨e,he,.inr hslot⟩ h

theorem RowEffect.keeps_settled (h : RowEffect .queued s f t row s')
    (hsettled : ¬ Writes s t row') : ¬ Writes s' t row' := by
  rintro ⟨e,he,hwrites⟩
  exact hsettled ⟨e,he,hwrites.imp_right fun hfree hslot =>
    hfree ((h.slotTaken _).mpr (.inl hslot))⟩

theorem RowEffect.settles (h : RowEffect .queued s f t row s') (hid : lacking t row = false) :
    ¬ Writes s' t row := by
  have hidentity : ∀ e, normaliseFileRow row t = .ok e → ¬ LacksIdentity e := by
    intro e he hlacks
    have htrue := lacking_iff.mpr ⟨e,he,hlacks⟩
    rw [hid] at htrue
    cases htrue
  rintro ⟨e,he,hlacks | hfree⟩
  · exact hidentity e he hlacks
  · exact hfree ((h.slotTaken _).mpr (.inr ⟨e,he,hidentity e he,rfl⟩))

def blockedLeads (s : Store) : List Lead :=
  s.leads.filter fun l => l.pipelineStage = .terminal .preFlightBlocked

theorem RowEffect.blocked_leads (h : RowEffect .queued s f t row s') :
    ∃ new, blockedLeads s' = blockedLeads s ++ new ∧ new.length = (lacking t row).toNat := by
  have hidentity : ∀ {e}, normaliseFileRow row t = .ok e → ¬ LacksIdentity e →
      lacking t row = false := by
    intro e he hid
    simp [lacking,he,hid]
  cases h with
  | skipped hskip =>
    have hnot : lacking t row = false := by
      rw [Bool.eq_false_iff]
      intro htrue
      obtain ⟨e,he,hlacks⟩ := lacking_iff.mp htrue
      exact hskip ⟨e,he,.inl hlacks⟩
    exact ⟨[],(List.append_nil _).symm,by rw [hnot]; rfl⟩
  | blocked e he hlacks =>
    refine ⟨[blockedLead f t row e.extraFields "insufficient_identity_fields"],?_,?_⟩
    · simp [blockedLeads,withBlockedLead,blockedLead,UploadPath.prepare]
    · rw [lacking_iff.mpr ⟨e,he,hlacks⟩]
      rfl
  | captured e he hid =>
    refine ⟨[],?_,by rw [hidentity he hid]; rfl⟩
    simp [blockedLeads,withNewLead,newLead]
  | attached e l he hid => exact ⟨[],(List.append_nil _).symm,by rw [hidentity he hid]; rfl⟩

end Rows

section Runs

theorem runRows_settled (h : Issued s jobs) (hsettled : ¬ Writes s t row) :
    ¬ Writes (runRows t jobs s) t row := by
  induction jobs generalizing s with
  | nil => exact hsettled
  | cons job rest ih => exact ih h.next (h.effect.keeps_settled hsettled)

theorem runRows_settles (h : Issued s jobs) (hid : ∀ job ∈ jobs, lacking t job.2 = false) :
    ∀ job ∈ jobs, ¬ Writes (runRows t jobs s) t job.2 := by
  induction jobs generalizing s with
  | nil => simp
  | cons job rest ih =>
    intro job' hjob'
    obtain rfl | hjob' := List.mem_cons.mp hjob'
    · have hdone := h.effect.settles (hid job' List.mem_cons_self)
      have hafter : ¬ Writes (runRows t rest (rowNext .queued s job'.1 t job'.2)) t job'.2 :=
        runRows_settled h.next hdone
      exact hafter
    · exact ih h.next (fun j hj => hid j (List.mem_cons_of_mem _ hj)) job' hjob'

theorem runRows_blocked (h : Issued s jobs) :
    ∃ new, blockedLeads (runRows t jobs s) = blockedLeads s ++ new ∧
      new.length = (jobs.map Prod.snd).countP (lacking t) := by
  induction jobs generalizing s with
  | nil => exact ⟨[],(List.append_nil _).symm,rfl⟩
  | cons job rest ih =>
    obtain ⟨first,hfirst,hone⟩ := (h.effect (t:=t)).blocked_leads
    obtain ⟨others,hothers,hrest⟩ := ih h.next
    refine ⟨first ++ others,?_,?_⟩
    · rw [← List.append_assoc,← hfirst]
      exact hothers
    · rw [List.length_append,hone,hrest,List.map_cons,List.countP_cons]
      cases lacking t job.2 <;> simp [Nat.add_comm]

theorem skip_settled {done : List Row} (h : Issued c jobs)
    (hsub : done.Sublist (jobs.map Prod.snd)) (hsettled : ∀ row ∈ done, ¬ Writes c t row) :
    ∃ rest, rest.Sublist jobs ∧ (done ++ rest.map Prod.snd).Perm (jobs.map Prod.snd) ∧
      runRows t jobs c = runRows t rest c := by
  induction jobs generalizing done c with
  | nil =>
    obtain rfl := List.sublist_nil.mp hsub
    exact ⟨[],.slnil,.refl _,rfl⟩
  | cons job jobs ih =>
    rw [List.map_cons] at hsub
    cases hsub with
    | cons _ hsub =>
      obtain ⟨rest,hrest,hperm,hrun⟩ := ih h.next hsub fun row hrow =>
        h.effect.keeps_settled (hsettled row hrow)
      exact ⟨job :: rest,hrest.cons_cons job,List.perm_middle.trans (hperm.cons _),hrun⟩
    | cons_cons _ hsub =>
      have hsame : rowNext .queued c job.1 t job.2 = c :=
        rowNext_settled (h.fresh job List.mem_cons_self) h.consistent
          (hsettled _ List.mem_cons_self)
      obtain ⟨rest,hrest,hperm,hrun⟩ := ih (h.sublist (List.sublist_cons_self ..)) hsub
        fun row hrow => hsettled row (List.mem_cons_of_mem _ hrow)
      refine ⟨rest,hrest.cons job,hperm.cons _,?_⟩
      rw [runRows,List.foldl_cons,hsame]
      exact hrun

end Runs

/-- What a try commits comes from some of the rows in their order. -/
theorem first_try {draws : ℕ → Fresh} {faults : ℕ → Option ℕ}
    {activeSignals : Except Unit (Option (List Signal))} {session : Session Store AddedObject}
    (h : batchSession s draws faults t activeSignals rows = .ok session)
    (hc : c ∈ s :: session.commits) :
    ∃ kept, kept.Sublist (rows.mapIdx fun i row => (draws i,row)) ∧ c = runRows t kept s := by
  rcases List.mem_cons.mp hc with rfl | hc
  · exact ⟨[],List.nil_sublist _,rfl⟩
  unfold batchSession at h
  cases activeSignals with
  | error err => cases h
  | ok config =>
    dsimp only at h
    cases hcheck : checkPreFlight config with
    | error err =>
      rw [hcheck] at h
      obtain rfl := Except.ok.inj h
      cases hc
    | ok signals =>
      rw [hcheck] at h
      obtain rfl := Except.ok.inj h
      have hran := runEach_ranAlone (tidy_batchRowScript t) (rowJobs draws faults rows)
        (idle_start s)
      obtain hnone | ⟨done,hdone,rfl⟩ := hran.commits c hc
      · cases hnone
      · refine ⟨_,(spared_sublist done).trans ?_,runAlone_eq ..⟩
        rw [← rowJobs_fst draws faults rows]
        exact hdone.sublist.map Prod.fst

omit [Interpreter] in
theorem issued_tries {draws : ℕ × ℕ → Fresh} (hc : Consistent s) (hd : Drawn draws s)
    (rows : List Row) : Issued s ((rows.mapIdx fun i row => (draws (0,i),row)) ++
      rows.mapIdx fun i row => (draws (1,i),row)) := by
  have htry : ∀ n, Drawn (fun i => draws (n,i)) s := fun n =>
    { fresh := fun i => hd.fresh (n,i)
      logIds := fun i j h => (Prod.mk.inj (hd.logIds h)).2
      leadIds := fun i j h => (Prod.mk.inj (hd.leadIds h)).2
      touchpointIds := fun i j h => (Prod.mk.inj (hd.touchpointIds h)).2 }
  have hfirst := issued_of_drawn hc (htry 0) rows
  have hagain := issued_of_drawn hc (htry 1) rows
  refine ⟨hc,?_,List.pairwise_append.mpr ⟨hfirst.apart,hagain.apart,?_⟩⟩
  · exact List.forall_mem_append.mpr ⟨hfirst.fresh,hagain.fresh⟩
  · intro job hjob job' hjob'
    obtain ⟨i,hi,rfl⟩ := List.mem_mapIdx.mp hjob
    obtain ⟨j,hj,rfl⟩ := List.mem_mapIdx.mp hjob'
    have hne : (0,i) ≠ (1,j) := by simp
    exact ⟨fun h => hne (hd.logIds h),fun h => hne (hd.leadIds h),
      fun h => hne (hd.touchpointIds h)⟩

/-- A batch that is cut off after any commit of its first try, in which any statements were lost,
and is then run again, leaves what one run over the same rows in some order leaves exactly when the
first try has stored no row without an identity. -/
theorem batch_restart_iff {w : World} (hreach : Reachable Step .empty w) {draws : ℕ × ℕ → Fresh}
    (hd : Drawn draws w.store) {faults : ℕ → Option ℕ}
    {first again : Except Unit (Option (List Signal))} {session : Session Store AddedObject}
    (hfirst : batchSession w.store (fun i => draws (0,i)) faults t first rows = .ok session)
    (hc : c ∈ w.store :: session.commits) (hpass : Passes again)
    (hagain : runLeadCaptureBatch c (fun i => draws (1,i)) t again rows = .ok s') :
    (∃ jobs, Issued w.store jobs ∧ (jobs.map Prod.snd).Perm rows ∧
      runLeadCaptureBatch w.store (drawsOf jobs) t again (jobs.map Prod.snd) = .ok s') ↔
      blockedLeads c = blockedLeads w.store := by
  obtain ⟨kept,hkept,rfl⟩ := first_try hfirst hc
  have hissued := (issued_tries (consistent_of_reachable hreach) hd rows).sublist
    (hkept.append (List.Sublist.refl _))
  have hs' : s' = runRows t (rows.mapIdx fun i row => (draws (1,i),row))
      (runRows t kept w.store) := by
    obtain ⟨config,signals,rfl,hcheck⟩ := hpass
    simp only [runLeadCaptureBatch,hcheck,Except.ok.injEq] at hagain
    rw [← hagain,batchLoop_runRows]
  have hrows : ∀ n, (rows.mapIdx fun i row => (draws (n,i),row)).map Prod.snd = rows :=
    fun n => List.ext_getElem (by simp) fun i hi hi' => by simp
  obtain ⟨before,hbefore,hcount⟩ :=
    runRows_blocked (t:=t) (hissued.sublist (List.sublist_append_left ..))
  constructor
  · rintro ⟨jobs,hjobs,hperm,hrun⟩
    obtain ⟨once,honce,hone⟩ := runRows_blocked (t:=t) hjobs
    obtain ⟨twice,htwice,htwo⟩ := runRows_blocked (t:=t) hissued.run
    rw [runLeadCaptureBatch_runRows hpass] at hrun
    rw [hperm.countP_eq] at hone
    rw [hrows] at htwo
    rw [← hs',← Except.ok.inj hrun,honce,hbefore,List.append_assoc] at htwice
    have hlength := congrArg List.length (List.append_cancel_left htwice)
    rw [List.length_append] at hlength
    have hnone : before = [] := List.eq_nil_of_length_eq_zero (by omega)
    rw [hbefore,hnone,List.append_nil]
  · intro hnone
    have hzero : (kept.map Prod.snd).countP (lacking t) = 0 := by
      rw [← hcount]
      have hlength := congrArg List.length (hbefore.symm.trans hnone)
      rw [List.length_append] at hlength
      omega
    have hid : ∀ job ∈ kept, lacking t job.2 = false := by
      intro job hjob
      simpa using List.countP_eq_zero.mp hzero job.2 (List.mem_map_of_mem hjob)
    have hsettled := runRows_settles (hissued.sublist (List.sublist_append_left ..)) hid
    have hsub : (kept.map Prod.snd).Sublist
        ((rows.mapIdx fun i row => (draws (1,i),row)).map Prod.snd) := by
      rw [hrows,← hrows 0]
      exact hkept.map Prod.snd
    obtain ⟨rest,hrest,hperm,hrun⟩ := skip_settled hissued.run hsub fun row hrow => by
      obtain ⟨job,hjob,rfl⟩ := List.mem_map.mp hrow
      exact hsettled job hjob
    refine ⟨kept ++ rest,hissued.sublist ((List.Sublist.refl _).append hrest),?_,?_⟩
    · rw [List.map_append]
      exact hperm.trans (.of_eq (hrows 1))
    · rw [runLeadCaptureBatch_runRows hpass,hs',hrun,runRows,List.foldl_append]
      rfl

end Restart

def onePhone : List Row :=
  [⟨[(some "Phone","+49 151"),(some "Name","a")],by simp⟩,
    ⟨[(some "Phone","+49 151"),(some "Name","b")],by simp⟩]

def interruptedTry [Interpreter] : Session Store AddedObject :=
  runEach insertObject (batchRowScript 1)
    (rowJobs (fun i => .nth (Nat.pair 0 i)) (fun i => if i = 0 then some 3 else none) onePhone)
    (.start .empty)

theorem drawn_pair : Drawn (fun p : ℕ × ℕ => Fresh.nth (Nat.pair p.1 p.2)) .empty where
  fresh _ := ⟨by simp [Store.empty],by simp [Store.empty],by simp [Store.empty]⟩
  logIds _ _ h := Prod.ext_iff.mpr (Nat.pair_eq_pair.mp h)
  leadIds _ _ h := Prod.ext_iff.mpr (Nat.pair_eq_pair.mp h)
  touchpointIds _ _ h := Prod.ext_iff.mpr (Nat.pair_eq_pair.mp h)

/-- The worker stops after the second row and the job starts again: the first row joins the lead of
the second one, as if the second one had come first. -/
theorem restarted_batch :
    letI := Interpreter.ascii id
    let c := interruptedTry.commits.headD .empty
    ∃ s', runLeadCaptureBatch c (fun i => .nth (Nat.pair 1 i)) 1 openConfig onePhone = .ok s' ∧
      (∃ jobs, (jobs.map Prod.snd).Perm onePhone ∧
        runLeadCaptureBatch .empty (drawsOf jobs) 1 openConfig (jobs.map Prod.snd) = .ok s') ∧
      s'.leads.map Lead.fullName = [some "b"] ∧ s'.touchpoints.length = 2 := by
  let := Interpreter.ascii id
  intro c
  have hfirst : batchSession .empty (fun i => .nth (Nat.pair 0 i))
      (fun i => if i = 0 then some 3 else none) 1 openConfig onePhone = .ok interruptedTry := rfl
  have hc : c ∈ Store.empty :: interruptedTry.commits := by
    show interruptedTry.commits.headD .empty ∈ _
    cases interruptedTry.commits <;> simp
  have hnone : blockedLeads c = blockedLeads .empty :=
    List.eq_nil_of_length_eq_zero (by decide +kernel)
  obtain ⟨jobs,_,hperm,hrun⟩ := (batch_restart_iff (w:=.empty) Reachable.refl drawn_pair hfirst hc
    passes_openConfig rfl).mpr hnone
  exact ⟨_,rfl,⟨jobs,hperm,hrun⟩,by decide +kernel,by decide +kernel⟩

end FileUpload
end LeadEngine
