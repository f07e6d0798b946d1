import LeadEngine.Workload

/-! The statements of an undisturbed transaction. Each of them keeps the run sound. -/
namespace LeadEngine
namespace Concurrency

open Table Interpreter Repository Deduplicator Pipeline History Precedence Relation

variable [Interpreter] {ι : Type} {s : Store}

section Moves

variable [DecidableEq ι] {load : Workload ι s} {c : Config ι} {done : List (ι × Captured)}
variable {i : ι} {db : Store} {p : Phase}

omit [Interpreter] in
theorem created_moveTo {j : ι} (hj : j ≠ i) (l : Lead) :
    Created (c.moveTo i db p) j l ↔ Created c j l := by
  simp [Created,moveTo_phase_ne _ _ _ _ hj]

omit [Interpreter] in
theorem attached_moveTo {j : ι} (hj : j ≠ i) (l : Lead) :
    Attached load (c.moveTo i db p) j l ↔ Attached load c j l := by
  simp [Attached,moveTo_phase_ne _ _ _ _ hj]

omit [DecidableEq ι] in
theorem not_precedes (h : ∀ l, ¬ Created c i l ∧ ¬ Attached load c i l) (j : ι) :
    ¬ Precedes load c i j ∧ ¬ Precedes load c j i := by
  constructor
  · rintro ⟨l,⟨hc,_⟩ | ⟨b,ha,_⟩⟩
    · exact (h l).1 hc
    · exact (h l).2 ha
  · rintro ⟨l,⟨_,ha⟩ | ⟨b,_,hc,_⟩⟩
    · exact (h l).2 ha
    · exact (h b).1 hc

theorem acyclic_moveTo (h : Acyclic (Precedes load c))
    (hp : ∀ l, ¬ Created (c.moveTo i db p) i l ∧ ¬ Attached load (c.moveTo i db p) i l) :
    Acyclic (Precedes load (c.moveTo i db p)) := by
  refine h.mono fun j k hjk => ?_
  have hj : j ≠ i := by
    rintro rfl
    exact (not_precedes hp k).1 hjk
  have hk : k ≠ i := by
    rintro rfl
    exact (not_precedes hp j).2 hjk
  simpa only [Precedes,created_moveTo hj,created_moveTo hk,attached_moveTo hj,
    attached_moveTo hk] using hjk

/-- Finding a lead that the transaction can be placed behind closes no cycle. -/
theorem acyclic_found (h : Acyclic (Precedes load c))
    (hopen : ∀ l, ¬ Created c i l ∧ ¬ Attached load c i l) {l : Lead}
    (hl : Placeable load c i l) : Acyclic (Precedes load (c.moveTo i db (.matched l))) := by
  have hnew : ∀ x, ¬ Created (c.moveTo i db (.matched l)) i x := by
    intro x
    simp [Created]
  have hfound : ∀ x, Attached load (c.moveTo i db (.matched l)) i x → x = l := by
    intro x hx
    have hx := hx.2
    simp only [moveTo_phase_self,Phase.matched.injEq,reduceCtorEq,or_false] at hx
    exact hx.symm
  refine h.place (A := fun j => Created c j l)
    (B := fun k => ∃ b, Created c k b ∧ Prefers (load.txn i).event b l) (x:=i) ?_
    (fun j => (not_precedes hopen j).1) (fun j => (not_precedes hopen j).2) (hopen l).1 ?_ ?_
  · rintro j k ⟨x,⟨hc,ha⟩ | ⟨b,ha,hc,hb⟩⟩
    · have hj : j ≠ i := by
        rintro rfl
        exact hnew x hc
      by_cases hk : k = i
      · subst hk
        rw [hfound x ha] at hc
        exact Or.inr (Or.inl ⟨(created_moveTo hj l).mp hc,rfl⟩)
      · exact Or.inl ⟨x,Or.inl ⟨(created_moveTo hj x).mp hc,(attached_moveTo hk x).mp ha⟩⟩
    · have hk : k ≠ i := by
        rintro rfl
        exact hnew b hc
      by_cases hj : j = i
      · subst hj
        rw [hfound x ha] at hb
        exact Or.inr (Or.inr ⟨rfl,b,(created_moveTo hk b).mp hc,hb⟩)
      · exact Or.inl ⟨x,Or.inr ⟨b,(attached_moveTo hj x).mp ha,(created_moveTo hk b).mp hc,hb⟩⟩
  · rintro ⟨b,hb,_⟩
    exact (hopen b).1 hb
  · rintro j k hj ⟨b,hb,hpref⟩
    exact hl j k b hj hb hpref

/-- A lead that nobody has found yet can come after every transaction. -/
theorem acyclic_created (h : Acyclic (Precedes load c))
    (hopen : ∀ l, ¬ Created c i l ∧ ¬ Attached load c i l) {l : Lead} {a : LeadReceived}
    (hl : ∀ j, ¬ Attached load c j l) :
    Acyclic (Precedes load (c.moveTo i db (.finished ⟨l,some a⟩))) := by
  have hmade : ∀ x, Created (c.moveTo i db (.finished ⟨l,some a⟩)) i x → x = l := by
    rintro x ⟨a',ha'⟩
    simp only [moveTo_phase_self,Phase.finished.injEq,Captured.mk.injEq] at ha'
    exact ha'.1.symm
  have hnone : ∀ x, ¬ Attached load (c.moveTo i db (.finished ⟨l,some a⟩)) i x := by
    rintro x ⟨_,hx⟩
    simp at hx
  refine h.place (A := fun j => ∃ x, Attached load c j x ∧ Prefers (load.txn j).event l x)
    (B := fun _ => False) (x:=i) ?_ (fun j => (not_precedes hopen j).1)
    (fun j => (not_precedes hopen j).2) ?_ id (fun _ _ _ hb => hb.elim)
  · rintro j k ⟨x,⟨hc,ha⟩ | ⟨b,ha,hc,hb⟩⟩
    · have hk : k ≠ i := by
        rintro rfl
        exact hnone x ha
      have hfound := (attached_moveTo hk x).mp ha
      by_cases hj : j = i
      · subst hj
        rw [hmade x hc] at hfound
        exact absurd hfound (hl k)
      · exact Or.inl ⟨x,Or.inl ⟨(created_moveTo hj x).mp hc,hfound⟩⟩
    · have hj : j ≠ i := by
        rintro rfl
        exact hnone x ha
      have hfound := (attached_moveTo hj x).mp ha
      by_cases hk : k = i
      · subst hk
        rw [hmade b hc] at hb
        exact Or.inr (Or.inl ⟨⟨x,hfound,hb⟩,rfl⟩)
      · exact Or.inl ⟨x,Or.inr ⟨b,hfound,(created_moveTo hk b).mp hc,hb⟩⟩
  · rintro ⟨x,hx,_⟩
    exact (hopen x).2 hx

omit [DecidableEq ι] in
theorem Sound.not_mem_done (h : Sound load c done) (hover : (c.phase i).isOver = false)
    (captured : Captured) : (i,captured) ∉ done := by
  intro hx
  rw [((h.mem _).mp hx).1] at hover
  simp [Phase.isOver] at hover

/-- A transaction moves on without a write. -/
theorem Sound.move (h : Sound load c done) (hover : (c.phase i).isOver = false)
    (hp : Standing s c.db.leads (load.txn i) p)
    (hreturn : ∀ captured, p = .finished captured →
      SlotTaken s (load.txn i).event.platformEventId)
    (hinsert : p = .inserted → ∀ j, j ≠ i → c.phase j = .inserted →
      ¬ Matches (load.txn i).event.tenantId (load.txn i).event (load.txn j).lead)
    (hacyclic : Acyclic (Precedes load (c.moveTo i c.db p))) :
    Sound load (c.moveTo i c.db p) done where
  db := h.db
  nodup := h.nodup
  mem := by
    rintro ⟨j,captured⟩
    by_cases hj : j = i
    · subst hj
      refine ⟨fun hx => absurd hx (h.not_mem_done hover captured),?_⟩
      rintro ⟨hx,hnew⟩
      simp only [moveTo_phase_self] at hx
      exact absurd (hreturn captured hx) hnew
    · simpa only [moveTo_phase_ne _ _ _ _ hj] using h.mem (j,captured)
  standing := by
    intro j
    by_cases hj : j = i
    · subst hj
      simpa using hp
    · simpa only [moveTo_phase_ne _ _ _ _ hj,moveTo_db] using h.standing j
  apart _ _ := pairwise_moveTo _ _ _ _ (Q := (· = .inserted))
    (fun _ _ hm hclash => hm (matches_newLead_comm _ _ hclash)) h.apart hinsert
  identities := h.identities
  acyclic := hacyclic

/-- A transaction writes its rows and returns. -/
theorem Sound.write (h : Sound load c done) {captured : Captured}
    (hover : (c.phase i).isOver = false)
    (hnew : ¬ SlotTaken s (load.txn i).event.platformEventId)
    (hstanding : ∀ j, Standing s (load.after (done ++ [(i,captured)])).leads (load.txn j)
      ((c.moveTo i c.db (.finished captured)).phase j))
    (hidentities : Identities (load.after (done ++ [(i,captured)])).leads)
    (hacyclic : Acyclic (Precedes load (c.moveTo i (load.after (done ++ [(i,captured)]))
      (.finished captured)))) :
    Sound load (c.moveTo i (load.after (done ++ [(i,captured)])) (.finished captured))
      (done ++ [(i,captured)]) where
  db := rfl
  nodup := by
    rw [List.map_append]
    refine nodup_append_singleton h.nodup ?_
    rw [List.mem_map]
    rintro ⟨⟨j,captured'⟩,hx,rfl⟩
    exact h.not_mem_done hover captured' hx
  mem := by
    rintro ⟨j,captured'⟩
    rw [List.mem_append,List.mem_singleton,Prod.mk.injEq]
    by_cases hj : j = i
    · subst hj
      simp only [moveTo_phase_self,Phase.finished.injEq,true_and]
      constructor
      · rintro (hx | rfl)
        · exact absurd hx (h.not_mem_done hover captured')
        · exact ⟨rfl,hnew⟩
      · rintro ⟨rfl,_⟩
        exact Or.inr rfl
    · simp only [moveTo_phase_ne _ _ _ _ hj,hj,false_and,or_false]
      exact h.mem (j,captured')
  standing := hstanding
  apart _ _ := pairwise_moveTo _ _ _ _ (Q := (· = .inserted))
    (fun _ _ hm hclash => hm (matches_newLead_comm _ _ hclash)) h.apart (fun hp => by simp at hp)
  identities := hidentities
  acyclic := hacyclic

omit [DecidableEq ι] [Interpreter] in
theorem open_of_phase (hphase : c.phase i = p) (hmatched : ∀ l, p ≠ .matched l)
    (hfinished : ∀ captured, p ≠ .finished captured) (l : Lead) :
    ¬ Created c i l ∧ ¬ Attached load c i l := by
  constructor
  · rintro ⟨a,ha⟩
    exact hfinished _ (hphase.symm.trans ha)
  · rintro ⟨_,ha | ha⟩
    · exact hmatched _ (hphase.symm.trans ha)
    · exact hfinished _ (hphase.symm.trans ha)

theorem Sound.look (h : Sound load c done) (hover : (c.phase i).isOver = false)
    (hopen : ∀ l, ¬ Created c i l ∧ ¬ Attached load c i l) {missed : Phase}
    {result : Except CaptureError (Option Lead)} (hok : ∃ found, result = .ok found)
    (hplain : ∀ l, missed ≠ .matched l) (hgoes : ∀ captured, missed ≠ .finished captured)
    (hwaits : missed ≠ .inserted)
    (hmissed : result = .ok none → Standing s c.db.leads (load.txn i) missed)
    (hnew : ¬ SlotTaken s (load.txn i).event.platformEventId)
    (hfound : ∀ l, result = .ok (some l) →
      Attachable s c.db.leads (load.txn i).event l ∧ Placeable load c i l) :
    Sound load (c.moveTo i c.db (afterLookup missed result)) done := by
  obtain ⟨found,rfl⟩ := hok
  cases found with
  | none =>
    refine h.move hover (hmissed rfl) (fun captured hp => absurd hp (hgoes captured))
      (fun hp => absurd hp hwaits) (acyclic_moveTo h.acyclic ?_)
    exact open_of_phase (moveTo_phase_self ..) hplain hgoes
  | some l =>
    obtain ⟨hattach,hplace⟩ := hfound l rfl
    exact h.move hover ⟨hnew,hattach⟩ (fun captured hp => by simp [afterLookup] at hp)
      (fun hp => by simp [afterLookup] at hp) (acyclic_found h.acyclic hopen hplace)

omit [DecidableEq ι] in
theorem Sound.leadIds (h : Sound load c done) (hc : Consistent s) :
    (c.db.leads.map Lead.id).Nodup := by
  have hids : ∀ x ∈ done, x.2.received.isSome → x.2.lead.id = (load.txn x.1).fresh.leadId := by
    rintro ⟨i,l,a⟩ hx hsome
    obtain ⟨a,rfl⟩ := Option.isSome_iff_exists.mp hsome
    rw [(Created.lead h ⟨a,((h.mem _).mp hx).1⟩).1]
    rfl
  have hsub : ((done.flatMap Workload.created).map Lead.id).Sublist
      ((done.map Prod.fst).map fun i => (load.txn i).fresh.leadId) := by
    clear h
    induction done with
    | nil => simp
    | cons x xs ih =>
      have hxs := ih fun y hy => hids y (List.mem_cons_of_mem _ hy)
      have hx := hids x List.mem_cons_self
      cases hr : x.2.received with
      | none => simpa [Workload.created,hr] using hxs.cons _
      | some a => simpa [Workload.created,hr,hx (by simp [hr])] using hxs
  rw [h.db,Workload.after,List.map_append]
  refine List.nodup_append.mpr ⟨hc.leadIds,(h.nodup.map load.drawn.leadIds).sublist hsub,?_⟩
  rintro a ha b hb rfl
  obtain ⟨l,hl,rfl⟩ := List.mem_map.mp ha
  obtain ⟨i,_,hi⟩ := List.mem_map.mp (hsub.subset hb)
  exact (load.drawn.fresh i).lead l hl hi.symm

omit [DecidableEq ι] in
theorem Sound.slots (h : Sound load c done) (hc : Consistent s) :
    (c.db.logs.map IntakeEventLog.platformEventId).Nodup := by
  have hpids : (done.map load.logged).map IntakeEventLog.platformEventId =
      (done.map Prod.fst).map fun i => (load.txn i).event.platformEventId := by
    rw [List.map_map,List.map_map]
    rfl
  rw [h.db,Workload.after,List.map_append,hpids]
  refine List.nodup_append.mpr ⟨hc.slots,h.nodup.map load.events,?_⟩
  rintro a ha b hb rfl
  obtain ⟨r,hr,hpid⟩ := List.mem_map.mp ha
  obtain ⟨i,hi,rfl⟩ := List.mem_map.mp hb
  obtain ⟨⟨j,captured⟩,hx,rfl⟩ := List.mem_map.mp hi
  exact ((h.mem _).mp hx).2 ⟨r,hr,hpid⟩

omit [Interpreter] in
theorem redelivered_captured {db : Store} {e : NormalisedChannelEvent} (hc : Consistent s)
    (hsettled : ∀ r ∈ s.logs, Settled r) (hids : (db.leads.map Lead.id).Nodup)
    (hslots : (db.logs.map IntakeEventLog.platformEventId).Nodup)
    (hleads : ∀ l ∈ s.leads, l ∈ db.leads) (hlogs : ∀ r ∈ s.logs, r ∈ db.logs)
    (h : CapturedBefore s e) : ∃ l, redelivered db e = .ok (db,⟨l,none⟩) := by
  obtain ⟨r,hr,hpid,hcounted⟩ := h
  have hlinked : r.leadId ≠ none := by
    intro hnone
    have hstatus := (hsettled r hr).2.mp hnone
    rcases hcounted with hst | hst <;> simp [hst] at hstatus
  obtain ⟨i,hi⟩ := Option.ne_none_iff_exists'.mp hlinked
  obtain ⟨l,hl,hid,_⟩ := hc.logLead r hr i hi
  have hfound := getLeadByPlatformEventId_some hids hslots (hlogs r hr) (hleads l hl)
    (by rw [hi,hid])
  rw [hpid] at hfound
  exact ⟨l,by simp [redelivered,hfound]⟩

theorem attachable_of_found {leads : List Lead} {e : NormalisedChannelEvent} {l : Lead}
    (hl : l ∈ leads) (ht : l.tenantId = e.tenantId)
    (hm : MatchesPhone e l ∨ (∀ b ∈ s.leads, b.tenantId = e.tenantId → ¬ MatchesPhone e b) ∧
      (MatchesEmail e l ∨ (∀ b ∈ s.leads, b.tenantId = e.tenantId → ¬ MatchesEmail e b) ∧
        MatchesPlace e l)) : Attachable s leads e l := by
  rcases hm with hp | ⟨hnop,hm | ⟨hnom,hn⟩⟩
  · exact ⟨hl,⟨ht,Or.inl hp⟩,fun b _ hb => hb.2.1 hp⟩
  · refine ⟨hl,⟨ht,Or.inr (Or.inl hm)⟩,?_⟩
    rintro b hb ⟨hbt,_,hbp | ⟨_,hbm⟩⟩
    · exact hnop b hb hbt hbp
    · exact hbm hm
  · refine ⟨hl,⟨ht,Or.inr (Or.inr hn)⟩,?_⟩
    rintro b hb ⟨hbt,_,hbp | ⟨hbm,_⟩⟩
    · exact hnop b hb hbt hbp
    · exact hnom b hb hbt hbm

theorem Sound.attach (h : Sound load c done) {l : Lead} (hphase : c.phase i = .matched l) :
    Sound load (c.moveTo i (withDuplicate c.db (load.txn i).fresh (load.txn i).event l)
      (.finished ⟨l,none⟩)) (done ++ [(i,⟨l,none⟩)]) := by
  have hstanding := h.standing i
  rw [hphase] at hstanding
  obtain ⟨hnew,hattach⟩ := hstanding
  have hleads : (load.after (done ++ [(i,⟨l,none⟩)])).leads = c.db.leads := by
    rw [after_attached,h.db]
    rfl
  rw [h.db,← after_attached]
  refine h.write (by rw [hphase]; rfl) hnew (fun j => ?_) ?_ ?_
  · rw [hleads]
    by_cases hj : j = i
    · subst hj
      rw [moveTo_phase_self]
      exact Or.inr ⟨hnew,hattach⟩
    · rw [moveTo_phase_ne _ _ _ _ hj]
      exact h.standing j
  · rw [hleads]
    exact h.identities
  · refine h.acyclic.mono fun j k hjk => ?_
    have hcreated : ∀ j x, Created (c.moveTo i (load.after (done ++ [(i,⟨l,none⟩)]))
        (.finished ⟨l,none⟩)) j x → Created c j x := by
      intro j x hx
      by_cases hj : j = i
      · subst hj
        simp [Created] at hx
      · exact (created_moveTo hj x).mp hx
    have hattached : ∀ j x, Attached load (c.moveTo i (load.after (done ++ [(i,⟨l,none⟩)]))
        (.finished ⟨l,none⟩)) j x → Attached load c j x := by
      intro j x hx
      by_cases hj : j = i
      · subst hj
        have hx := hx.2
        simp only [moveTo_phase_self,reduceCtorEq,Phase.finished.injEq,Captured.mk.injEq,
          and_true,false_or] at hx
        exact ⟨hnew,Or.inl (by rw [hphase,hx])⟩
      · exact (attached_moveTo hj x).mp hx
    obtain ⟨x,⟨hc,ha⟩ | ⟨b,ha,hc,hb⟩⟩ := hjk
    · exact ⟨x,Or.inl ⟨hcreated j x hc,hattached k x ha⟩⟩
    · exact ⟨x,Or.inr ⟨b,hattached j x ha,hcreated k b hc,hb⟩⟩

theorem Sound.commit (h : Sound load c done) (hphase : c.phase i = .inserted) :
    ∃ done', Sound load (c.moveTo i (withNewLead c.db (load.txn i).fresh (load.txn i).event)
      (.finished ⟨(load.txn i).lead,
        some (leadReceived (load.txn i).fresh (load.txn i).event)⟩)) done' := by
  have hstanding := h.standing i
  rw [hphase] at hstanding
  obtain ⟨hnew,hfree⟩ := hstanding
  have hopen : ∀ l, ¬ Created c i l ∧ ¬ Attached load c i l :=
    open_of_phase hphase (by simp) (by simp)
  have hmissing : (load.txn i).lead ∉ c.db.leads := h.lead_not_mem (by simp [hphase])
  have hwrite := after_created load done i (leadReceived (load.txn i).fresh (load.txn i).event)
  have hleads : (load.after (done ++ [(i,⟨(load.txn i).lead,
      some (leadReceived (load.txn i).fresh (load.txn i).event)⟩)])).leads =
      c.db.leads ++ [(load.txn i).lead] := by
    rw [hwrite,h.db]
    rfl
  refine ⟨done ++ [(i,⟨(load.txn i).lead,
    some (leadReceived (load.txn i).fresh (load.txn i).event)⟩)],?_⟩
  rw [h.db,← hwrite]
  refine h.write (by rw [hphase]; rfl) hnew (fun j => ?_) ?_ ?_
  · rw [hleads]
    by_cases hj : j = i
    · subst hj
      rw [moveTo_phase_self]
      exact ⟨hnew,⟨rfl,rfl⟩,fun x hx hne => hfree x (mem_of_mem_append hx hne)⟩
    · rw [moveTo_phase_ne _ _ _ _ hj]
      refine (h.standing j).append ?_ fun x a hp => ?_
      · rintro (hmem | hins)
        · exact fun hm => hfree _ hmem (matches_newLead_comm _ _ hm)
        · exact h.apart j i hj hins hphase
      · obtain ⟨rfl,_⟩ := Created.lead h ⟨a,hp⟩
        exact h.mem_leads.mpr (Or.inr ⟨j,a,hp⟩)
  · rw [hleads]
    have hins := inserted_newLead (f:=(load.txn i).fresh) hfree
    exact ⟨h.identities.phone.append_singleton hins.phone,
      h.identities.email.append_singleton hins.email,
      h.identities.place.append_singleton hins.place⟩
  · exact acyclic_created h.acyclic hopen fun j hj => hmissing (hj.attachable h).mem

/-- One statement of an undisturbed transaction keeps the run sound. -/
theorem Sound.step {c' : Config ι} (h : Sound load c done) (hc : Consistent s)
    (hsettled : ∀ r ∈ s.logs, Settled r) (hu : Undisturbed load c i)
    (hstep : Advance load.txn c i c') : ∃ done', Sound load c' done' := by
  have hstanding := h.standing i
  cases hstep with
  | redeliver hp hslot =>
    refine ⟨done,h.move (by rw [hp]; rfl) ?_ (by simp) (by simp) (acyclic_moveTo h.acyclic ?_)⟩
    · simp only [Undisturbed,hp] at hu
      obtain ⟨r,hr,hpid⟩ := hslot
      rcases h.logs_of_event hr hpid with hold | ⟨captured,hx,_⟩
      · exact ⟨r,hold,hpid,hu r hr hpid⟩
      · exact absurd hx (h.not_mem_done (by rw [hp]; rfl) captured)
    · exact open_of_phase (moveTo_phase_self ..) (by simp) (by simp)
  | reserve hp hslot =>
    refine ⟨done,h.move (by rw [hp]; rfl) ?_ (by simp) (by simp) (acyclic_moveTo h.acyclic ?_)⟩
    · rintro ⟨r,hr,hpid⟩
      exact hslot ⟨r,h.logs_subset hr,hpid⟩
    · exact open_of_phase (moveTo_phase_self ..) (by simp) (by simp)
  | answer hp =>
    rw [hp] at hstanding
    obtain ⟨l,hl⟩ := redelivered_captured hc hsettled (h.leadIds hc) (h.slots hc)
      (fun l hl => h.mem_leads.mpr (Or.inl hl)) (fun _ => h.logs_subset) hstanding
    have hphase : afterRedelivery c.db (load.txn i).event = .finished ⟨l,none⟩ := by
      simp [afterRedelivery,hl]
    rw [hphase]
    refine ⟨done,h.move (by rw [hp]; rfl) (Or.inl hstanding) (fun _ _ => hstanding.slotTaken)
      (by simp) (acyclic_moveTo h.acyclic fun x => ⟨?_,?_⟩)⟩
    · simp [Created]
    · exact fun hx => hx.1 hstanding.slotTaken
  | phone hp =>
    rw [hp] at hstanding
    refine ⟨done,h.look (by rw [hp]; rfl) (open_of_phase hp (by simp) (by simp))
      (lookupPhone_ok h.identities.phone _ _) (by simp) (by simp) (by simp) (fun hnone => ?_) hstanding
      (fun l hsome => ?_)⟩
    · exact ⟨hstanding,fun l hl => lookupPhone_none.mp hnone l (h.mem_leads.mpr (Or.inl hl))⟩
    · obtain ⟨hl,ht,hm⟩ := (lookupPhone_some h.identities).mp hsome
      exact ⟨attachable_of_found hl ht (Or.inl hm),fun _ _ b _ _ hb => absurd hm hb.2.1⟩
  | email hp =>
    rw [hp] at hstanding
    simp only [Undisturbed,hp] at hu
    obtain ⟨hnew,hphone⟩ := hstanding
    refine ⟨done,h.look (by rw [hp]; rfl) (open_of_phase hp (by simp) (by simp))
      (lookupEmail_ok h.identities.email _ _) (by simp) (by simp) (by simp) (fun hnone => ?_) hnew
      (fun l hsome => ?_)⟩
    · exact ⟨hnew,fun l hl ht => ⟨hphone l hl ht,
        lookupEmail_none.mp hnone l (h.mem_leads.mpr (Or.inl hl)) ht⟩⟩
    · obtain ⟨hl,ht,hm⟩ := (lookupEmail_some h.identities).mp hsome
      exact ⟨attachable_of_found hl ht (Or.inr ⟨hphone,Or.inl hm⟩),hu l hl ht hm⟩
  | place hp =>
    rw [hp] at hstanding
    simp only [Undisturbed,hp] at hu
    obtain ⟨hnew,hmissed⟩ := hstanding
    refine ⟨done,h.look (by rw [hp]; rfl) (open_of_phase hp (by simp) (by simp))
      (lookupPlace_ok h.identities _ _) (by simp) (by simp) (by simp) (fun _ => hnew) hnew
      (fun l hsome => ?_)⟩
    obtain ⟨hl,ht,hm⟩ := (lookupPlace_some h.identities).mp hsome
    exact ⟨attachable_of_found hl ht (Or.inr ⟨fun b hb hbt => (hmissed b hb hbt).1,
      Or.inr ⟨fun b hb hbt => (hmissed b hb hbt).2,hm⟩⟩),hu l hl ht hm⟩
  | conflict hp err hins =>
    simp only [Undisturbed,hp] at hu
    have hfree := not_conflicts_newLead (f:=(load.txn i).fresh) hu.1
    have hok := Store.insertLead_eq_ok.mpr ⟨hfree.1,hfree.2,rfl⟩
    rw [Txn.lead,hok] at hins
    simp at hins
  | insert hp hkey =>
    rw [hp] at hstanding
    simp only [Undisturbed,hp] at hu
    refine ⟨done,h.move (by rw [hp]; rfl) ⟨hstanding,hu.1⟩ (by simp) (fun _ => hu.2)
      (acyclic_moveTo h.acyclic ?_)⟩
    exact open_of_phase (moveTo_phase_self ..) (by simp) (by simp)
  | attach l hp => exact ⟨_,h.attach hp⟩
  | commit hp => exact h.commit hp

end Moves

end Concurrency
end LeadEngine
