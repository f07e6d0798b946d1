import LeadEngine.Admission
import LeadEngine.Concurrency
import LeadEngine.Ledger

/-! Deliveries of one event that overlap. However often an event is delivered and however the
captures interleave, its rows are written once and every delivery that returns returns the same
lead; and a delivery that follows on one that lost the race for a lead finds this lead. -/
namespace LeadEngine
namespace Concurrency

open Table Interpreter Repository Deduplicator Pipeline TransitionSystem History

section Lookups

variable [Interpreter] {s : Store} {f : Fresh} {e : NormalisedChannelEvent} {l : Lead}

omit [Interpreter] in
theorem lookupPlace_ne (s : Store) (e : NormalisedChannelEvent) (index : LeadIndex) :
    lookupPlace s e.tenantId e ≠ .error (.integrityError index) := by
  unfold lookupPlace
  split
  · intro h
    exact nomatch (scalarOneOrNone_error h).1
  · exact fun h => nomatch h

omit [Interpreter] in
theorem mem_of_redelivered {s' : Store} {captured : Captured}
    (h : redelivered s e = .ok (s',captured)) : captured.received = none ∧
      captured.lead ∈ s.leads ∧ ∃ r ∈ s.logs, r.platformEventId = e.platformEventId ∧
        r.leadId = some captured.lead.id := by
  unfold redelivered at h
  split at h
  · cases h
  · cases h
  · rename_i existing hfound
    obtain ⟨_,rfl⟩ := Prod.mk.inj (Except.ok.inj h)
    obtain ⟨l,hl,hrow⟩ := List.mem_flatMap.mp ((scalarOneOrNone_mem hfound existing).mp rfl)
    obtain ⟨r,hr,rfl⟩ := List.mem_map.mp hrow
    obtain ⟨hlog,hrow⟩ := List.mem_filter.mp hr
    obtain ⟨hlead,hpid⟩ := of_decide_eq_true hrow
    exact ⟨rfl,hl,r,hlog,hpid,hlead⟩

end Lookups

section Standing

variable [Interpreter]

def Clash (leads : List Lead) (t : Txn) : Prop :=
  Conflicts Lead.phoneKey leads t.lead ∨ Conflicts Lead.emailKey leads t.lead

/-- What the phase of a delivery says of the rows committed before the run, and of those committed
now. -/
def Sees (s db : Store) (t : Txn) : Phase → Prop
  | .start => True
  | .redelivered => SlotTaken db t.event.platformEventId
  | .reserved | .phoneMissed | .emailMissed | .unmatched =>
    ¬ SlotTaken db t.event.platformEventId
  | .matched l => ¬ SlotTaken db t.event.platformEventId ∧ l ∈ db.leads
  | .inserted => ¬ SlotTaken db t.event.platformEventId ∧ ¬ Clash db.leads t
  | .finished captured => captured.lead ∈ db.leads ∧
      (captured.received.isSome = true → captured.lead = t.lead) ∧
      ∃ r ∈ db.logs, r.platformEventId = t.event.platformEventId ∧
        r.leadId = some captured.lead.id
  | .raised err => ∀ index, err = .integrityError index →
      ¬ SlotTaken s t.event.platformEventId ∧ Clash db.leads t

variable {s db db' : Store} {t : Txn} {p : Phase} {new leads : List Lead} {r : IntakeEventLog}

theorem clash_append : Clash (leads ++ new) t ↔ Clash leads t ∨ Clash new t := by
  simp only [Clash,conflicts_append]
  tauto

theorem clash_singleton_comm {t' : Txn} (h : Clash [t'.lead] t) : Clash [t.lead] t' :=
  h.imp conflicts_singleton_comm conflicts_singleton_comm

omit [Interpreter] in
theorem slotTaken_snoc {platformEventId : String} (hlogs : db'.logs = db.logs ++ [r]) :
    SlotTaken db' platformEventId ↔
      SlotTaken db platformEventId ∨ r.platformEventId = platformEventId := by
  simp only [SlotTaken,hlogs,List.mem_append,List.mem_singleton,or_and_right,exists_or,
    exists_eq_left]

/-- Rows of another event, and leads that do not clash, change nothing for a delivery. -/
theorem Sees.grow (h : Sees s db t p) (hleads : db'.leads = db.leads ++ new)
    (hlogs : db'.logs = db.logs ++ [r])
    (hslot : p.holdsSlot = true → r.platformEventId ≠ t.event.platformEventId)
    (hnew : p = .inserted → ¬ Clash new t) : Sees s db' t p := by
  have hfree : p.holdsSlot = true → ¬ SlotTaken db t.event.platformEventId →
      ¬ SlotTaken db' t.event.platformEventId := by
    intro hp hfree htaken
    rcases (slotTaken_snoc hlogs).mp htaken with htaken | hr
    · exact hfree htaken
    · exact hslot hp hr
  have hkept : ∀ l ∈ db.leads, l ∈ db'.leads := by
    intro l hl
    rw [hleads]
    exact List.mem_append_left _ hl
  match p with
  | .start => trivial
  | .redelivered => exact (slotTaken_snoc hlogs).mpr (.inl h)
  | .reserved | .phoneMissed | .emailMissed | .unmatched => exact hfree rfl h
  | .matched l => exact ⟨hfree rfl h.1,hkept l h.2⟩
  | .inserted =>
    refine ⟨hfree rfl h.1,?_⟩
    rw [hleads,clash_append]
    exact not_or.mpr ⟨h.2,hnew rfl⟩
  | .finished captured =>
    obtain ⟨hlead,hreceived,r',hr',hlink⟩ := h
    refine ⟨hkept _ hlead,hreceived,r',?_,hlink⟩
    rw [hlogs]
    exact List.mem_append_left _ hr'
  | .raised err =>
    intro index herr
    rw [hleads,clash_append]
    exact ⟨(h index herr).1,.inl (h index herr).2⟩

end Standing

section Runs

variable [Interpreter] {ι : Type}

structure Delivering (txn : ι → Txn) (s : Store) (c : Config ι) : Prop where
  leadIds : (c.db.leads.map Lead.id).Nodup
  slots : (c.db.logs.map IntakeEventLog.platformEventId).Nodup
  phones : UniqueOn Lead.phoneKey c.db.leads
  emails : UniqueOn Lead.emailKey c.db.leads
  kept : ∀ r ∈ s.logs, r ∈ c.db.logs
  linked : ∀ r ∈ c.db.logs, r ∈ s.logs ∨ ∃ l ∈ c.db.leads, r.leadId = some l.id
  touchpoints : c.db.touchpoints.map LeadTouchpoint.platformEventId =
    (c.db.logs.filter fun r => Counted r).map fun r => some r.platformEventId
  draws : ∀ i, (c.phase i).isOver = false → ∀ l ∈ c.db.leads, l.id ≠ (txn i).fresh.leadId
  sees : ∀ i, Sees s c.db (txn i) (c.phase i)
  slotsApart : ∀ i j, i ≠ j → (c.phase i).holdsSlot = true → (c.phase j).holdsSlot = true →
    (txn i).event.platformEventId ≠ (txn j).event.platformEventId
  leadsApart : ∀ i j, i ≠ j → c.phase i = .inserted → c.phase j = .inserted →
    ¬ Clash [(txn j).lead] (txn i)

variable [DecidableEq ι] {txn : ι → Txn} {s : Store} {c c' : Config ι} {i : ι} {p : Phase}

/-- A delivery moves on without a write. -/
theorem Delivering.move (h : Delivering txn s c) (hover : (c.phase i).isOver = false)
    (hp : Sees s c.db (txn i) p)
    (hslot : p.holdsSlot = true → ∀ j, j ≠ i → (c.phase j).holdsSlot = true →
      (txn j).event.platformEventId ≠ (txn i).event.platformEventId)
    (hlead : p = .inserted → ∀ j, j ≠ i → c.phase j = .inserted → ¬ Clash [(txn j).lead] (txn i)) :
    Delivering txn s (c.moveTo i c.db p) where
  leadIds := h.leadIds
  slots := h.slots
  phones := h.phones
  emails := h.emails
  kept := h.kept
  linked := h.linked
  touchpoints := h.touchpoints
  draws := by
    intro j hj
    by_cases hji : j = i
    · rw [hji]
      exact h.draws i hover
    · rw [moveTo_phase_ne _ _ _ _ hji] at hj
      exact h.draws j hj
  sees := by
    intro j
    by_cases hji : j = i
    · rw [hji,moveTo_phase_self]
      exact hp
    · rw [moveTo_phase_ne _ _ _ _ hji]
      exact h.sees j
  slotsApart _ _ := pairwise_moveTo _ _ _ _ (Q := (·.holdsSlot = true)) (fun _ _ => Ne.symm)
    h.slotsApart (fun hp j hj hjslot => (hslot hp j hj hjslot).symm)
  leadsApart _ _ := pairwise_moveTo _ _ _ _ (Q := (· = .inserted))
    (fun _ _ hno hclash => hno (clash_singleton_comm hclash)) h.leadsApart hlead

omit [DecidableEq ι] in
theorem Delivering.free (h : Delivering txn s c) (hslot : (c.phase i).holdsSlot = true) :
    ¬ SlotTaken c.db (txn i).event.platformEventId := by
  have hsees := h.sees i
  cases hp : c.phase i with
  | reserved | phoneMissed | emailMissed | unmatched =>
    rw [hp] at hsees
    exact hsees
  | matched | inserted =>
    rw [hp] at hsees
    exact hsees.1
  | start | redelivered | finished | raised => simp [hp,Phase.holdsSlot] at hslot

/-- The rows that the last statement of delivery `i` adds: `new` is the lead it created, if it
did. -/
structure Adds (txn : ι → Txn) (c : Config ι) (i : ι) (captured : Captured)
    (status : IntakeStatus) (new : List Lead) (db : Store) : Prop where
  leads : db.leads = c.db.leads ++ new
  logs : db.logs =
    c.db.logs ++ [settledLog (txn i).fresh (txn i).event captured.lead.id status]
  touchpoints : db.touchpoints =
    c.db.touchpoints ++ [buildTouchpoint (txn i).fresh captured.lead (txn i).event]
  holdsSlot : (c.phase i).holdsSlot = true
  counted : status = .received ∨ status = .duplicate
  created : new = [] ∨ new = [(txn i).lead] ∧ c.phase i = .inserted
  stored : captured.lead ∈ db.leads
  received : captured.received.isSome = true → captured.lead = (txn i).lead

section Adds

omit [DecidableEq ι]

variable {captured : Captured} {status : IntakeStatus} {new : List Lead} {db : Store}

theorem Adds.id_eq (ha : Adds txn c i captured status new db) :
    ∀ l ∈ new, l.id = (txn i).fresh.leadId := by
  intro l hl
  rcases ha.created with hnone | ⟨hone,_⟩
  · rw [hnone] at hl
    cases hl
  · rw [hone] at hl
    obtain rfl := List.mem_singleton.mp hl
    rfl

theorem Adds.fresh (ha : Adds txn c i captured status new db) (h : Delivering txn s c) :
    new = [] ∨ new = [(txn i).lead] ∧ ¬ Clash c.db.leads (txn i) := by
  refine ha.created.imp_right ?_
  rintro ⟨hone,hi⟩
  have hsees := h.sees i
  rw [hi] at hsees
  exact ⟨hone,hsees.2⟩

theorem Adds.leadIds (ha : Adds txn c i captured status new db) (h : Delivering txn s c) :
    (db.leads.map Lead.id).Nodup := by
  rw [ha.leads,List.map_append]
  rcases ha.created with rfl | ⟨rfl,_⟩
  · simpa using h.leadIds
  · refine nodup_append_singleton h.leadIds ?_
    rw [List.mem_map]
    rintro ⟨l,hl,hid⟩
    exact h.draws i (Phase.isOver_of_holdsSlot ha.holdsSlot) l hl hid

theorem Adds.slots (ha : Adds txn c i captured status new db) (h : Delivering txn s c) :
    (db.logs.map IntakeEventLog.platformEventId).Nodup := by
  rw [ha.logs,List.map_append]
  refine nodup_append_singleton h.slots ?_
  rw [List.mem_map]
  exact h.free ha.holdsSlot

theorem Adds.identities (ha : Adds txn c i captured status new db) (h : Delivering txn s c) :
    UniqueOn Lead.phoneKey db.leads ∧ UniqueOn Lead.emailKey db.leads := by
  rw [ha.leads]
  rcases ha.fresh h with rfl | ⟨rfl,hno⟩
  · rw [List.append_nil]
    exact ⟨h.phones,h.emails⟩
  · exact ⟨h.phones.append_singleton fun hconflict => hno (.inl hconflict),
      h.emails.append_singleton fun hconflict => hno (.inr hconflict)⟩

theorem Adds.linked (ha : Adds txn c i captured status new db) (h : Delivering txn s c) :
    ∀ r ∈ db.logs, r ∈ s.logs ∨ ∃ l ∈ db.leads, r.leadId = some l.id := by
  intro r hr
  rw [ha.logs] at hr
  rcases List.mem_append.mp hr with hr | hr
  · refine (h.linked r hr).imp_right ?_
    rintro ⟨l,hl,hlink⟩
    rw [ha.leads]
    exact ⟨l,List.mem_append_left _ hl,hlink⟩
  · obtain rfl := List.mem_singleton.mp hr
    exact .inr ⟨captured.lead,ha.stored,rfl⟩

theorem Adds.touchpoints_logs (ha : Adds txn c i captured status new db)
    (h : Delivering txn s c) : db.touchpoints.map LeadTouchpoint.platformEventId =
      (db.logs.filter fun r => Counted r).map fun r => some r.platformEventId := by
  have hcounted : decide (Counted
      (settledLog (txn i).fresh (txn i).event captured.lead.id status)) = true :=
    decide_eq_true ha.counted
  rw [ha.touchpoints,ha.logs,List.map_append,h.touchpoints,List.filter_append,
    List.map_append,List.filter_cons,if_pos hcounted]
  rfl

/-- What another delivery has seen stays true: its event is another one, and so is the lead it
has inserted. -/
theorem Adds.sees (ha : Adds txn c i captured status new db) (h : Delivering txn s c) {j : ι}
    (hj : j ≠ i) : Sees s db (txn j) (c.phase j) := by
  refine (h.sees j).grow ha.leads ha.logs
    (fun hslot => h.slotsApart i j (Ne.symm hj) ha.holdsSlot hslot) ?_
  intro hinserted
  rcases ha.created with rfl | ⟨rfl,hi⟩
  · simp [Clash,Conflicts]
  · exact h.leadsApart j i hj hinserted hi

end Adds

/-- A delivery writes its rows, which no other one of its event can do, and returns. -/
theorem Delivering.write (h : Delivering txn s c)
    (hdraws : Function.Injective fun i => (txn i).fresh.leadId) {captured : Captured}
    {status : IntakeStatus} {new : List Lead} {db : Store}
    (ha : Adds txn c i captured status new db) :
    Delivering txn s (c.moveTo i db (.finished captured)) where
  leadIds := ha.leadIds h
  slots := ha.slots h
  phones := (ha.identities h).1
  emails := (ha.identities h).2
  kept := by
    intro r hr
    rw [moveTo_db,ha.logs]
    exact List.mem_append_left _ (h.kept r hr)
  linked := ha.linked h
  touchpoints := ha.touchpoints_logs h
  draws := by
    intro j hj l hl hid
    obtain ⟨hji,hj⟩ :=
      of_phase_moveTo (Q := (·.isOver = false)) _ _ _ _ (by simp [Phase.isOver]) hj
    rw [moveTo_db,ha.leads] at hl
    rcases List.mem_append.mp hl with hl | hl
    · exact h.draws j hj l hl hid
    · exact hji (hdraws (hid.symm.trans (ha.id_eq l hl)))
  sees := by
    intro j
    by_cases hji : j = i
    · rw [hji,moveTo_phase_self]
      refine ⟨ha.stored,ha.received,
        settledLog (txn i).fresh (txn i).event captured.lead.id status,?_,rfl,rfl⟩
      rw [moveTo_db,ha.logs]
      exact List.mem_append_right _ (List.mem_singleton_self _)
    · rw [moveTo_phase_ne _ _ _ _ hji]
      exact ha.sees h hji
  slotsApart _ _ := pairwise_moveTo _ _ _ _ (Q := (·.holdsSlot = true)) (fun _ _ => Ne.symm)
    h.slotsApart (fun hp => by simp [Phase.holdsSlot] at hp)
  leadsApart _ _ := pairwise_moveTo _ _ _ _ (Q := (· = .inserted))
    (fun _ _ hno hclash => hno (clash_singleton_comm hclash)) h.leadsApart
    (fun hp => by simp at hp)

theorem Delivering.look (h : Delivering txn s c) (hslot : (c.phase i).holdsSlot = true)
    {missed : Phase} {found : Except CaptureError (Option Lead)}
    (hmissed : missed = .phoneMissed ∨ missed = .emailMissed ∨ missed = .unmatched)
    (hmem : ∀ l, found = .ok (some l) → l ∈ c.db.leads)
    (herror : ∀ index, found ≠ .error (.integrityError index)) :
    Delivering txn s (c.moveTo i c.db (afterLookup missed found)) := by
  have hover : (c.phase i).isOver = false := Phase.isOver_of_holdsSlot hslot
  have hfree := h.free hslot
  have hsees : Sees s c.db (txn i) (afterLookup missed found) := by
    rcases found with err | _ | l
    · rintro index rfl
      exact absurd rfl (herror index)
    · rcases hmissed with rfl | rfl | rfl <;> exact hfree
    · exact ⟨hfree,hmem l rfl⟩
  refine h.move hover hsees (fun _ j hj hjslot => h.slotsApart j i hj hjslot hslot) ?_
  intro hinserted
  rcases found with err | _ | l
  · cases hinserted
  · rcases hmissed with rfl | rfl | rfl <;> cases hinserted
  · cases hinserted

theorem Delivering.answer (h : Delivering txn s c) (hp : c.phase i = .redelivered) :
    Delivering txn s (c.moveTo i c.db (afterRedelivery c.db (txn i).event)) := by
  cases hr : redelivered c.db (txn i).event with
  | error err =>
    rw [show afterRedelivery c.db (txn i).event = .raised err by rw [afterRedelivery,hr]]
    refine h.move (by rw [hp]; rfl) ?_ (by simp [Phase.holdsSlot]) (by simp)
    rintro index rfl
    exact absurd hr (redelivered_ne_integrityError _ _ index)
  | ok result =>
    rw [show afterRedelivery c.db (txn i).event = .finished result.2 by rw [afterRedelivery,hr]]
    obtain ⟨hnone,hlead,hrow⟩ := mem_of_redelivered hr
    exact h.move (by rw [hp]; rfl) ⟨hlead,by simp [hnone],hrow⟩ (by simp [Phase.holdsSlot])
      (by simp)

/-- An insert that an index refuses has met a committed lead with its phone or its email. -/
theorem Delivering.conflict (h : Delivering txn s c) (hp : c.phase i = .unmatched)
    {err : CaptureError} (hins : c.db.insertLead (txn i).lead = .error err) :
    Delivering txn s (c.moveTo i c.db (.raised err)) := by
  have hslot : (c.phase i).holdsSlot = true := by rw [hp]; rfl
  refine h.move (by rw [hp]; rfl) ?_ (by simp [Phase.holdsSlot]) (by simp)
  intro index herr
  have hnew : ¬ SlotTaken s (txn i).event.platformEventId := by
    rintro ⟨r,hr,hpid⟩
    exact h.free hslot ⟨r,h.kept r hr,hpid⟩
  refine ⟨hnew,?_⟩
  by_contra hno
  rw [Clash,not_or] at hno
  rw [Store.insertLead_eq_ok.mpr ⟨hno.1,hno.2,rfl⟩] at hins
  cases hins

theorem Delivering.insert (h : Delivering txn s c) (hp : c.phase i = .unmatched) {db : Store}
    (hins : c.db.insertLead (txn i).lead = .ok db) (hkey : ¬ KeyHeld txn c i) :
    Delivering txn s (c.moveTo i c.db .inserted) := by
  have hslot : (c.phase i).holdsSlot = true := by rw [hp]; rfl
  obtain ⟨hphone,hemail,_⟩ := Store.insertLead_eq_ok.mp hins
  refine h.move (by rw [hp]; rfl) ⟨h.free hslot,not_or.mpr ⟨hphone,hemail⟩⟩
    (fun _ j hj hjslot => h.slotsApart j i hj hjslot hslot) ?_
  intro _ j hj hjins hclash
  exact hkey ⟨j,hj,by rw [hjins]; rfl,hclash⟩

/-- A statement of a delivery keeps the rows as they should be. -/
theorem Delivering.step [Fintype ι] (h : Delivering txn s c)
    (hdraws : Function.Injective fun i => (txn i).fresh.leadId)
    (hstep : CaptureStep txn [] c i c') : Delivering txn s c' := by
  cases CaptureStep.advance hstep with
  | redeliver hp hslot =>
    exact h.move (by rw [hp]; rfl) hslot (by simp [Phase.holdsSlot]) (by simp)
  | reserve hp hslot =>
    refine h.move (by rw [hp]; rfl) hslot ?_ (by simp)
    intro _ j hj hjslot hsame
    simp only [CaptureStep,captureNext,hp,if_neg hslot] at hstep
    split_ifs at hstep with hheld
    exact hheld ⟨j,hj,hjslot,hsame⟩
  | answer hp => exact h.answer hp
  | phone hp =>
    obtain ⟨found,hfound⟩ := lookupPhone_ok h.phones (txn i).event.tenantId (txn i).event
    exact h.look (by rw [hp]; rfl) (.inl rfl) (fun l hl => (lookupPhone_mem hl).1)
      (fun index => by simp [hfound])
  | email hp =>
    obtain ⟨found,hfound⟩ := lookupEmail_ok h.emails (txn i).event.tenantId (txn i).event
    exact h.look (by rw [hp]; rfl) (.inr (.inl rfl)) (fun l hl => (lookupEmail_mem hl).1)
      (fun index => by simp [hfound])
  | place hp =>
    exact h.look (by rw [hp]; rfl) (.inr (.inr rfl)) (fun l hl => (lookupPlace_mem hl).1)
      (lookupPlace_ne _ _)
  | conflict hp err hins => exact h.conflict hp hins
  | insert hp hkey =>
    cases hins : c.db.insertLead (txn i).lead with
    | error err =>
      simp only [CaptureStep,captureNext,hp,if_neg (not_keyLocked_nil _ _),hins] at hstep
      have hphase := congrArg (fun c => c.phase i) (Option.some.inj hstep)
      simp at hphase
    | ok db => exact h.insert hp hins hkey
  | attach existing hp =>
    have hsees := h.sees i
    rw [hp] at hsees
    refine h.write hdraws ⟨(List.append_nil _).symm,rfl,rfl,?_,.inr rfl,
      .inl rfl,hsees.2,by simp⟩
    rw [hp]
    rfl
  | commit hp =>
    refine h.write hdraws ⟨rfl,rfl,rfl,?_,.inl rfl,.inr ⟨rfl,hp⟩,
      List.mem_append_right _ (List.mem_singleton_self _),fun _ => rfl⟩
    rw [hp]
    rfl

omit [DecidableEq ι] in
theorem Delivering.initial {w : World} (hw : Reachable Step .empty w)
    (hdrawn : Drawn (fun i => (txn i).fresh) w.store) :
    Delivering txn w.store (Config.initial w.store) := by
  have hc := consistent_of_reachable hw
  obtain ⟨hphones,hemails,_⟩ := hc.identities
  constructor
  · exact hc.leadIds
  · exact hc.slots
  · exact hphones
  · exact hemails
  · exact fun r hr => hr
  · exact fun r hr => .inl hr
  · have hpairs := congrArg (List.map Prod.snd) (books_of_reachable hw).touchpoints
    rw [List.map_map,List.map_map] at hpairs
    exact hpairs
  · exact fun i _ l hl => (hdrawn.fresh i).lead l hl
  · exact fun _ => trivial
  · intro i j _ hi
    cases hi
  · intro i j _ hi
    cases hi

theorem delivering_of_reachable [Fintype ι] {w : World} (hw : Reachable Step .empty w)
    (hdrawn : Drawn (fun i => (txn i).fresh) w.store)
    (h : Reachable (CaptureStep txn []) (Config.initial w.store) c) :
    Delivering txn w.store c :=
  h.invariant (Delivering.initial hw hdrawn) fun _ _ _ hc hs => hc.step hdrawn.leadIds hs

/-- A delivery that follows on one that clashed is on its way to the lead it clashed with. -/
def Heals (db : Store) (t : Txn) : Phase → Prop
  | .phoneMissed => Conflicts Lead.emailKey db.leads t.lead
  | .emailMissed | .unmatched | .inserted | .raised _ => False
  | .finished captured => captured.received = none
  | _ => True

/-- A clash is over once its lead is committed: the lookups find it. -/
theorem Delivering.heals [Fintype ι] (h : Delivering txn s c) {j : ι}
    (hnew : ¬ SlotTaken s (txn j).event.platformEventId) (hclash : Clash c.db.leads (txn j))
    (hheals : Heals c.db (txn j) (c.phase j)) (hstep : CaptureStep txn [] c j c') :
    Heals c'.db (txn j) (c'.phase j) := by
  cases CaptureStep.advance hstep with
  | redeliver hp hslot =>
    rw [moveTo_phase_self]
    trivial
  | reserve hp hslot =>
    rw [moveTo_phase_self]
    trivial
  | answer hp =>
    have htaken := h.sees j
    rw [hp] at htaken
    obtain ⟨r,hr,hpid⟩ := htaken
    obtain hold | ⟨l,hl,hlink⟩ := h.linked r hr
    · exact absurd ⟨r,hold,hpid⟩ hnew
    · have hfound := getLeadByPlatformEventId_some h.leadIds h.slots hr hl hlink
      rw [hpid] at hfound
      rw [moveTo_phase_self,afterRedelivery,redelivered]
      simp only [hfound]
      rfl
  | phone hp =>
    rw [moveTo_phase_self]
    obtain ⟨found,hfound⟩ := lookupPhone_ok h.phones (txn j).event.tenantId (txn j).event
    rw [hfound]
    cases found with
    | some l => trivial
    | none =>
      refine hclash.resolve_left fun hphone => ?_
      obtain ⟨l,hl,ht,hm⟩ := conflicts_phone_newLead.mp hphone
      exact lookupPhone_none.mp hfound l hl ht hm
  | email hp =>
    rw [moveTo_phase_self]
    rw [hp] at hheals
    obtain ⟨found,hfound⟩ := lookupEmail_ok h.emails (txn j).event.tenantId (txn j).event
    rw [hfound]
    cases found with
    | some l => trivial
    | none =>
      obtain ⟨l,hl,ht,hm⟩ := conflicts_email_newLead.mp hheals
      exact absurd hm (lookupEmail_none.mp hfound l hl ht)
  | place hp | conflict hp | insert hp | commit hp =>
    rw [hp] at hheals
    exact hheals.elim
  | attach existing hp =>
    rw [moveTo_phase_self]
    rfl

theorem Advance.leads_append (h : Advance txn c i c') : ∃ new, c'.db.leads = c.db.leads ++ new := by
  cases h with
  | commit hp => exact ⟨[(txn i).lead],rfl⟩
  | _ => exact ⟨[],(List.append_nil _).symm⟩

theorem Heals.grow {db db' : Store} {t : Txn} {new : List Lead} (h : Heals db t p)
    (hleads : db'.leads = db.leads ++ new) : Heals db' t p := by
  cases p with
  | phoneMissed =>
    refine Eq.mpr (congrArg (Conflicts Lead.emailKey · t.lead) hleads) ?_
    exact conflicts_append.mpr (.inl h)
  | _ => exact h

structure Healing (txn : ι → Txn) (s : Store) (j : ι) (c : Config ι) : Prop where
  delivering : Delivering txn s c
  clash : Clash c.db.leads (txn j)
  heals : Heals c.db (txn j) (c.phase j)

theorem Healing.step [Fintype ι] {j : ι} (h : Healing txn s j c)
    (hdraws : Function.Injective fun i => (txn i).fresh.leadId)
    (hnew : ¬ SlotTaken s (txn j).event.platformEventId) (hstep : CaptureStep txn [] c i c') :
    Healing txn s j c' := by
  have hadv := CaptureStep.advance hstep
  obtain ⟨new,hleads⟩ := hadv.leads_append
  refine ⟨h.delivering.step hdraws hstep,?_,?_⟩
  · rw [hleads,clash_append]
    exact .inl h.clash
  · by_cases hij : j = i
    · subst hij
      exact h.delivering.heals hnew h.clash h.heals hstep
    · rw [hadv.phase_ne hij]
      exact h.heals.grow hleads

theorem Clash.of_event {leads : List Lead} {t t' : Txn} (h : Clash leads t)
    (hevent : t'.event = t.event) : Clash leads t' := by
  have hphone : t'.lead.phoneKey = t.lead.phoneKey := by
    simp only [Txn.lead,newLead,Lead.phoneKey,hevent]
  have hemail : t'.lead.emailKey = t.lead.emailKey := by
    simp only [Txn.lead,newLead,Lead.emailKey,hevent]
  unfold Clash Conflicts at h ⊢
  rw [hphone,hemail]
  exact h

/-- What a state of overlapping deliveries promises: an event has one log row and at most one
touchpoint, its deliveries return one lead, and a lead is announced once. -/
structure DeliveredOnce [Fintype ι] (txn : ι → Txn) (c : Config ι) : Prop where
  logged : (c.db.logs.map IntakeEventLog.platformEventId).Nodup
  touched : (c.db.touchpoints.map LeadTouchpoint.platformEventId).Nodup
  answered : ∀ i captured, c.phase i = .finished captured → captured.lead ∈ c.db.leads ∧
    ∃ r ∈ c.db.logs, r.platformEventId = (txn i).event.platformEventId ∧
      r.leadId = some captured.lead.id
  agree : ∀ i j a b, (txn i).event.platformEventId = (txn j).event.platformEventId →
    c.phase i = .finished a → c.phase j = .finished b → a.lead = b.lead
  announced : ∀ i j a b, c.phase i = .finished a → c.phase j = .finished b →
    a.received.isSome = true → b.received.isSome = true → a.lead.id = b.lead.id → i = j
  healed : ∀ i j index c', c.phase i = .raised (.integrityError index) → c.phase j = .start →
    (txn j).event = (txn i).event → Reachable (CaptureStep txn []) c c' →
      (∀ err, c'.phase j ≠ .raised err) ∧
        ∀ captured, c'.phase j = .finished captured → captured.received = none
  progress : (∃ i, (c.phase i).isOver = false) → ∃ i c', CaptureStep txn [] c i c'

/-- A delivery that starts after one that lost the race for its lead loses none. -/
theorem Delivering.healed [Fintype ι] (h : Delivering txn s c)
    (hdraws : Function.Injective fun i => (txn i).fresh.leadId) {j : ι} {index : LeadIndex}
    (hraised : c.phase i = .raised (.integrityError index)) (hstart : c.phase j = .start)
    (hevent : (txn j).event = (txn i).event) (hreach : Reachable (CaptureStep txn []) c c') :
    Heals c'.db (txn j) (c'.phase j) := by
  have hsees := h.sees i
  rw [hraised] at hsees
  obtain ⟨hnew,hclash⟩ := hsees index rfl
  rw [← hevent] at hnew
  have hinit : Healing txn s j c := by
    refine ⟨h,hclash.of_event hevent,?_⟩
    rw [hstart]
    trivial
  exact (hreach.invariant hinit fun _ _ _ hc hs => hc.step hdraws hnew hs).heals

theorem Delivering.once [Fintype ι] (h : Delivering txn s c)
    (hdraws : Function.Injective fun i => (txn i).fresh.leadId) : DeliveredOnce txn c := by
  have hreturned : ∀ i captured, c.phase i = .finished captured →
      Sees s c.db (txn i) (.finished captured) := by
    intro i captured hi
    rw [← hi]
    exact h.sees i
  constructor
  · exact h.slots
  · have hsub := (List.filter_sublist (l:=c.db.logs) (p:=fun r => decide (Counted r))).map
      IntakeEventLog.platformEventId
    have hsome := (h.slots.sublist hsub).map (Option.some_injective _)
    rw [List.map_map] at hsome
    rw [h.touchpoints]
    exact hsome
  · intro i captured hi
    obtain ⟨hlead,_,hrow⟩ := hreturned i captured hi
    exact ⟨hlead,hrow⟩
  · intro i j a b hsame hi hj
    obtain ⟨ha,_,r,hr,hrpid,hrlead⟩ := hreturned i a hi
    obtain ⟨hb,_,r',hr',hpid',hlead'⟩ := hreturned j b hj
    obtain rfl : r = r' :=
      List.inj_on_of_nodup_map h.slots hr hr' (hrpid.trans (hsame.trans hpid'.symm))
    have hid : a.lead.id = b.lead.id := Option.some.inj (hrlead.symm.trans hlead')
    exact List.inj_on_of_nodup_map h.leadIds ha hb hid
  · intro i j a b hi hj hfirst hsecond hid
    have ha := (hreturned i a hi).2.1 hfirst
    have hb := (hreturned j b hj).2.1 hsecond
    rw [ha,hb] at hid
    exact hdraws hid
  · intro i j index c' hi hj hevent hreach
    have hheals := h.healed hdraws hi hj hevent hreach
    constructor
    · intro err hp
      rw [hp] at hheals
      exact hheals
    · intro captured hp
      rw [hp] at hheals
      exact hheals
  · exact progress_of_open

/-- Every run of overlapping deliveries is finite, and writes and announces each event once. -/
theorem deliveries_once [Fintype ι] {w : World} (hw : Reachable Step .empty w)
    (hdrawn : Drawn (fun i => (txn i).fresh) w.store)
    {tr : List (Transition (Config ι) ι)}
    (h : Path (CaptureStep txn []) (Config.initial w.store) tr c) :
    tr.length ≤ 6 * Fintype.card ι ∧ DeliveredOnce txn c :=
  ⟨length_le_of_path h,(delivering_of_reachable hw hdrawn h.reachable).once hdrawn.leadIds⟩

end Runs

def redeliveredTxn (i : Fin 4) : Txn :=
  ⟨.ofMessage 1 (["a","b","a","a"].getD i "") none (some "+49 151") none none "Need a quote",.nth i⟩

/-- Both messages look for the contact before the second one is committed; another delivery of the
first one waits for its row meanwhile, and the last one comes when all is written. -/
def redeliverySchedule : List (Fin 4) := [1,0,2,1,0,1,0,1,0,1,1,0,2,2,2,3,3]

/-- The first delivery is lost to the other message, the second one is attached to its lead, and
the third one is answered. -/
theorem redelivery_once :
    letI := Interpreter.ascii id
    (follow (captureNext redeliveredTxn []) (Config.initial .empty)
      redeliverySchedule).db.logs.map IntakeEventLog.platformEventId = ["b","a"] ∧
      (follow (captureNext redeliveredTxn []) (Config.initial .empty)
        redeliverySchedule).db.leads.length = 1 ∧
      (followed (captureNext redeliveredTxn []) (Config.initial .empty)
        redeliverySchedule).length ≤ 6 * Fintype.card (Fin 4) ∧
      DeliveredOnce redeliveredTxn (follow (captureNext redeliveredTxn []) (Config.initial .empty)
        redeliverySchedule) := by
  let := Interpreter.ascii id
  have hdrawn : Drawn (fun i => (redeliveredTxn i).fresh) Store.empty :=
    ⟨fun i => by constructor <;> simp [Store.empty],Fin.val_injective,Fin.val_injective,
      Fin.val_injective⟩
  exact ⟨by decide +kernel,by decide +kernel,
    deliveries_once (w:=.empty) Reachable.refl hdrawn (path_follow _ _ _)⟩

end Concurrency
end LeadEngine
