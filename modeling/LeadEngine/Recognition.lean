import LeadEngine.ErasureScope

/-! Recognition of a contact: by which of the identifiers of an event the later events of the
same contact are recognised, as long as no row is erased or anonymised. -/
namespace LeadEngine
namespace History

open Table Interpreter Repository Deduplicator Pipeline Erasure TransitionSystem

def Known (s : Store) (tenantId : UUID) (kind : IdentifierType) (value : String) : Prop :=
  ∃ l ∈ s.leads, l.tenantId = tenantId ∧ searchedColumn kind l = some value

instance (s : Store) (tenantId : UUID) (kind : IdentifierType) (value : String) :
    Decidable (Known s tenantId kind value) := by unfold Known; infer_instance

theorem Known.append {s s' : Store} {t : UUID} {kind : IdentifierType} {v : String}
    {new : List Lead} (h : Known s t kind v) (hleads : s'.leads = s.leads ++ new) :
    Known s' t kind v := by
  obtain ⟨l,hl,hrest⟩ := h
  exact ⟨l,by rw [hleads]; exact List.mem_append_left _ hl,hrest⟩

/-- The event with one of its identifiers and no other. -/
def onlyIdentifier (kind : IdentifierType) (e : NormalisedChannelEvent) :
    NormalisedChannelEvent :=
  match kind with
  | .phone => { e with fullName := none, email := none }
  | .email => { e with fullName := none, phone := none }

section Recognition

variable [Interpreter] {s s' : Store} {f : Fresh} {kind : IdentifierType} {v : String}
  {e : NormalisedChannelEvent}

/-- However the run goes on without erasures and sweeps, an event that carries the identifier
is recognised, and capturing it makes no new lead. -/
def StaysRecognised (w : World) (tenantId : UUID) (kind : IdentifierType) (value : String) : Prop :=
  ∀ tr w', Path Step w tr w' → (∀ x ∈ tr, x.2.1.op.redacts = false) →
    ∀ e : NormalisedChannelEvent, e.tenantId = tenantId → carriedIdentifier kind e = some value →
      (∃ l, findDuplicate w'.store e.tenantId e = .ok (some l)) ∧
        ∀ op f w'', Op.route op = some (.capture e) → Step w' ⟨op,f,true⟩ w'' →
          w''.store.leads = w'.store.leads

theorem matches_of_searched {l : Lead} (htenant : l.tenantId = e.tenantId)
    (hv : carriedIdentifier kind e = some v) (hcolumn : searchedColumn kind l = some v) :
    Matches e.tenantId e l := by
  cases kind with
  | phone => exact ⟨htenant,Or.inl ⟨v,hv,hcolumn⟩⟩
  | email => exact ⟨htenant,Or.inr (Or.inl ⟨v,hv,hcolumn⟩)⟩

theorem recognised_of_known (hc : Consistent s) (hv : carriedIdentifier kind e = some v)
    (h : Known s e.tenantId kind v) : ∃ l, findDuplicate s e.tenantId e = .ok (some l) := by
  obtain ⟨l,hl,htenant,hcolumn⟩ := h
  obtain ⟨found,hfound⟩ := findDuplicate_ok hc.identities e.tenantId e
  cases found with
  | some l' => exact ⟨l',hfound⟩
  | none =>
    exact absurd (matches_of_searched htenant hv hcolumn) (findDuplicate_none.mp hfound l hl)

theorem known_of_recognised (hv : carriedIdentifier kind e = some v) {l : Lead}
    (h : findDuplicate s e.tenantId (onlyIdentifier kind e) = .ok (some l)) :
    Known s e.tenantId kind v := by
  obtain ⟨hl,htenant,hmatch⟩ := findDuplicate_mem h
  refine ⟨l,hl,htenant,?_⟩
  cases kind with
  | phone =>
    rcases hmatch with ⟨p,hp,hphone⟩ | ⟨m,hm,_⟩ | ⟨n,_,hn,_⟩
    · have hsame : carriedIdentifier .phone e = some p := hp
      obtain rfl : p = v := Option.some.inj (hsame.symm.trans hv)
      exact hphone
    · simp [onlyIdentifier,storedEmail] at hm
    · simp [onlyIdentifier] at hn
  | email =>
    rcases hmatch with ⟨p,hp,_⟩ | ⟨m,hm,hemail⟩ | ⟨n,_,hn,_⟩
    · simp [onlyIdentifier,storedPhone] at hp
    · have hsame : carriedIdentifier .email e = some m := hm
      obtain rfl : m = v := Option.some.inj (hsame.symm.trans hv)
      exact hemail
    · simp [onlyIdentifier] at hn

theorem Known.path {w w' : World} {tr : List (Transition World Attempt)} {t : UUID}
    (h : Known w.store t kind v) (hrun : Path Step w tr w')
    (hadds : ∀ x ∈ tr, x.2.1.op.redacts = false) : Known w'.store t kind v := by
  refine hrun.invariant_of_guard (I := fun w => Known w.store t kind v)
    (G := fun _ a => a.op.redacts = false) h ?_ hadds
  intro w a w' hknown hop hstep
  cases hstep with
  | rollback => exact hknown
  | commit hf hexec =>
    obtain ⟨new,hleads⟩ := (Op.added hf hop hexec).grows.1
    exact hknown.append hleads

theorem recognised_adds_no_lead {w w' : World} {op : Op}
    (hroute : op.route = some (.capture e)) {l : Lead}
    (hfound : findDuplicate w.store e.tenantId e = .ok (some l))
    (hstep : Step w ⟨op,f,true⟩ w') : w'.store.leads = w.store.leads := by
  cases hstep with
  | commit hf hexec =>
    cases Op.ran hf hroute hexec with
    | redelivered => rfl
    | captured _ _ hdup => simp [hfound] at hdup
    | attached => rfl

/-- Exactly the known identifiers stay recognised. -/
theorem staysRecognised_iff_known {w : World} (h : Reachable Step .empty w)
    (hv : carriedIdentifier kind e = some v) :
    StaysRecognised w e.tenantId kind v ↔ Known w.store e.tenantId kind v := by
  constructor
  · intro hstays
    have hcarried : carriedIdentifier kind (onlyIdentifier kind e) = some v := by
      rw [← hv]
      cases kind <;> rfl
    have htenant : (onlyIdentifier kind e).tenantId = e.tenantId := by cases kind <;> rfl
    obtain ⟨⟨l,hl⟩,_⟩ := hstays [] w .nil (by simp) (onlyIdentifier kind e) htenant hcarried
    rw [htenant] at hl
    exact known_of_recognised hv hl
  · intro hknown tr w' hrun hadds e' htenant hv'
    have hknown' : Known w'.store e'.tenantId kind v := by
      rw [htenant]
      exact hknown.path hrun hadds
    have hc := consistent_of_reachable (h.trans hrun.reachable)
    obtain ⟨l,hl⟩ := recognised_of_known hc hv' hknown'
    exact ⟨⟨l,hl⟩,fun op f w'' hroute hstep => recognised_adds_no_lead hroute hl hstep⟩

/-- What a captured event leaves known: all its identifiers if it became a new lead, and as a
duplicate those that were known before. -/
theorem known_after_capture {w w' : World} {op : Op}
    (hroute : op.route = some (.capture e)) (hslot : ¬ SlotTaken w.store e.platformEventId)
    (hstep : Step w ⟨op,f,true⟩ w') (hv : carriedIdentifier kind e = some v) :
    Known w'.store e.tenantId kind v ↔
      findDuplicate w.store e.tenantId e = .ok none ∨ Known w.store e.tenantId kind v := by
  cases hstep with
  | commit hf hexec =>
    cases Op.ran hf hroute hexec with
    | redelivered _ htaken => exact absurd htaken hslot
    | captured _ _ hdup =>
      refine iff_of_true ?_ (Or.inl hdup)
      have hcolumn : searchedColumn kind (newLead f e) = carriedIdentifier kind e := by
        cases kind <;> rfl
      exact ⟨newLead f e,by simp [withNewLead],rfl,hcolumn.trans hv⟩
    | attached _ existing _ hdup =>
      simp only [hdup,Except.ok.injEq,reduceCtorEq,false_or]
      exact Iff.rfl

/-- Once an event was captured, later events are recognised by one of its identifiers exactly
when it became a new lead or a lead stored that identifier already. -/
theorem stays_recognised_iff {w w' : World} (h : Reachable Step .empty w) {op : Op}
    (hroute : op.route = some (.capture e)) (hslot : ¬ SlotTaken w.store e.platformEventId)
    (hstep : Step w ⟨op,f,true⟩ w') (hv : carriedIdentifier kind e = some v) :
    StaysRecognised w' e.tenantId kind v ↔
      findDuplicate w.store e.tenantId e = .ok none ∨ Known w.store e.tenantId kind v := by
  rw [staysRecognised_iff_known (h.tail hstep) hv]
  exact known_after_capture hroute hslot hstep hv

end Recognition

def contactEvent (platformEventId : String) (phone email : Option String) :
    NormalisedChannelEvent :=
  .ofMessage 1 platformEventId none phone email none "Any offer?"

/-- A new contact stays recognised by its phone and by its email. -/
theorem new_contact_stays_recognised :
    letI := Interpreter.ascii id
    let e := contactEvent "a" (some "+49 151") (some "ann@x.org")
    let w := (Op.tried (.runCapture e) .empty (.nth 1)).2
    StaysRecognised w 1 .phone "+49151" ∧ StaysRecognised w 1 .email "ann@x.org" := by
  let := Interpreter.ascii id
  let e := contactEvent "a" (some "+49 151") (some "ann@x.org")
  have hslot : ¬ SlotTaken World.empty.store e.platformEventId := by decide
  have hnew : findDuplicate World.empty.store e.tenantId e = .ok none :=
    findDuplicate_none.mpr (by simp [World.empty,Store.empty])
  have hfresh : (Fresh.nth 1).For World.empty.store := by decide
  have hstep := Op.step_tried (.runCapture e) hfresh
  exact ⟨(stays_recognised_iff (e:=e) .refl rfl hslot hstep (by decide +kernel)).mpr (Or.inl hnew),
    (stays_recognised_iff (e:=e) .refl rfl hslot hstep (by decide +kernel)).mpr (Or.inl hnew)⟩

/-- A contact known by its phone tells its email, and then writes with the email only. -/
def emailLaterRun : List (Op × Fresh) :=
  [(.runCapture (contactEvent "a" (some "+49 151") none),.nth 1),
    (.runCapture (contactEvent "b" (some "+49 151") (some "ann@x.org")),.nth 2)]

/-- The email of a message that was recognised by its phone is not remembered: the next message
of the contact makes a second lead. -/
theorem email_of_duplicate_forgotten :
    letI := Interpreter.ascii id
    let w := play .empty emailLaterRun
    let later := Op.runCapture (contactEvent "c" none (some "ann@x.org"))
    Reachable Step .empty w ∧
      w.store.logs.map (fun r => (r.platformEventId,r.status)) =
        [("a",.received),("b",.duplicate)] ∧
      ¬ StaysRecognised w 1 .email "ann@x.org" ∧
      (later.tried w (.nth 3)).2.store.leads.length = 2 := by
  let := Interpreter.ascii id
  have hreach := reachable_play .empty emailLaterRun
  refine ⟨hreach,by decide +kernel,fun hstays => ?_,by decide +kernel⟩
  have hfree : ¬ Known (play .empty emailLaterRun).store 1 .email "ann@x.org" := by
    decide +kernel
  exact hfree ((staysRecognised_iff_known hreach
    (e:=contactEvent "c" none (some "ann@x.org")) (by decide +kernel)).mp hstays)

end History
end LeadEngine
