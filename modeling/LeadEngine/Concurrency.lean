import LeadEngine.Pipeline
import LeadEngine.TransitionSystem

/-! Interleaved captures. Each transaction runs `run_capture` one database statement at a
time; under READ COMMITTED a statement sees the committed rows, and a write waits for a
transaction in flight that holds the same unique key. -/
namespace LeadEngine
namespace Concurrency

open Table Repository Deduplicator Pipeline TransitionSystem

structure Txn where
  event : NormalisedChannelEvent
  fresh : Fresh

/-- Where a transaction stands, named after the statement it has executed last. -/
inductive Phase
  | start
  | redelivered
  | reserved
  | phoneMissed
  | emailMissed
  | unmatched
  | matched (existing : Lead)
  | inserted
  | finished (captured : Captured)
  | raised (err : CaptureError)

def Phase.holdsSlot : Phase → Bool
  | .reserved | .phoneMissed | .emailMissed | .unmatched | .matched _ | .inserted => true
  | _ => false

def Phase.isInserted : Phase → Bool
  | .inserted => true
  | _ => false

def Phase.isOver : Phase → Bool
  | .finished _ | .raised _ => true
  | _ => false

theorem Phase.isOver_of_holdsSlot {p : Phase} (h : p.holdsSlot = true) : p.isOver = false := by
  cases p with
  | reserved | phoneMissed | emailMissed | unmatched | matched | inserted => rfl
  | start | redelivered | finished | raised => cases h

/-- How far a transaction has come at least, counted in statements. -/
def Phase.rank : Phase → ℕ
  | .start => 0
  | .redelivered | .reserved => 1
  | .phoneMissed => 2
  | .emailMissed => 3
  | .unmatched => 4
  | .matched _ | .inserted => 5
  | .finished _ | .raised _ => 6

theorem Phase.rank_le (p : Phase) : p.rank ≤ 6 := by
  cases p <;> simp [Phase.rank]

structure Config (ι : Type) where
  db : Store
  phase : ι → Phase

def Config.initial {ι : Type} (db : Store) : Config ι := ⟨db,fun _ => .start⟩

def Config.moveTo {ι : Type} [DecidableEq ι] (c : Config ι) (i : ι) (db : Store) (p : Phase) :
    Config ι :=
  ⟨db,Function.update c.phase i p⟩

section MoveTo

variable {ι : Type} [DecidableEq ι] (c : Config ι) (i : ι) (db : Store) (p : Phase)

@[simp] theorem moveTo_db : (c.moveTo i db p).db = db := rfl

@[simp] theorem moveTo_phase_self : (c.moveTo i db p).phase i = p := by simp [Config.moveTo]

theorem moveTo_phase_ne {j : ι} (h : j ≠ i) : (c.moveTo i db p).phase j = c.phase j := by
  simp [Config.moveTo,h]

@[simp] theorem moveTo_moveTo (db' : Store) (p' : Phase) :
    (c.moveTo i db p).moveTo i db' p' = c.moveTo i db' p' := by simp [Config.moveTo]

theorem of_phase_moveTo {Q : Phase → Prop} (hp : ¬ Q p) {j : ι}
    (h : Q ((c.moveTo i db p).phase j)) : j ≠ i ∧ Q (c.phase j) := by
  by_cases hj : j = i
  · rw [hj,moveTo_phase_self] at h
    exact absurd h hp
  · rw [moveTo_phase_ne _ _ _ _ hj] at h
    exact ⟨hj,h⟩

/-- What holds of any two transactions in certain phases still holds of them if it holds of the one
that moves on and any other. -/
theorem pairwise_moveTo {Q : Phase → Prop} {R : ι → ι → Prop} (hsymm : ∀ j k, R j k → R k j)
    (hall : ∀ j k, j ≠ k → Q (c.phase j) → Q (c.phase k) → R j k)
    (hnew : Q p → ∀ j, j ≠ i → Q (c.phase j) → R i j) {j k : ι} (hjk : j ≠ k)
    (hj : Q ((c.moveTo i db p).phase j)) (hk : Q ((c.moveTo i db p).phase k)) : R j k := by
  by_cases hji : j = i
  · subst hji
    rw [moveTo_phase_self] at hj
    rw [moveTo_phase_ne _ _ _ _ (Ne.symm hjk)] at hk
    exact hnew hj k (Ne.symm hjk) hk
  · rw [moveTo_phase_ne _ _ _ _ hji] at hj
    by_cases hki : k = i
    · subst hki
      rw [moveTo_phase_self] at hk
      exact hsymm _ _ (hnew hk j hji hj)
    · rw [moveTo_phase_ne _ _ _ _ hki] at hk
      exact hall j k hjk hj hk

end MoveTo

def afterLookup (missed : Phase) : Except CaptureError (Option Lead) → Phase
  | .error err => .raised err
  | .ok (some existing) => .matched existing
  | .ok none => missed

def afterRedelivery (db : Store) (e : NormalisedChannelEvent) : Phase :=
  match redelivered db e with
  | .error err => .raised err
  | .ok (_,captured) => .finished captured

theorem rank_lt_afterLookup {n : ℕ} {missed : Phase} (hn : n < missed.rank)
    (hm : missed.rank ≤ 5) (found : Except CaptureError (Option Lead)) :
    n < (afterLookup missed found).rank := by
  match found with
  | .error _ | .ok (some _) =>
    simp only [afterLookup,Phase.rank]
    omega
  | .ok none => exact hn

theorem rank_afterRedelivery (db : Store) (e : NormalisedChannelEvent) :
    (afterRedelivery db e).rank = 6 := by
  unfold afterRedelivery
  split <;> rfl

variable [Interpreter] {ι : Type}

/-- Another transaction in flight holds the event's log row. -/
def SlotHeld (txn : ι → Txn) (c : Config ι) (i : ι) : Prop :=
  ∃ j, j ≠ i ∧ (c.phase j).holdsSlot = true ∧
    (txn j).event.platformEventId = (txn i).event.platformEventId

def Txn.lead (t : Txn) : Lead := newLead t.fresh t.event

/-- Another transaction in flight holds the phone or the email of the transaction's lead. -/
def KeyHeld (txn : ι → Txn) (c : Config ι) (i : ι) : Prop :=
  ∃ j, j ≠ i ∧ (c.phase j).isInserted = true ∧
    (Conflicts Lead.phoneKey [(txn j).lead] (txn i).lead ∨
      Conflicts Lead.emailKey [(txn j).lead] (txn i).lead)

/-- A row of which an update is in flight holds the phone or the email of the lead. -/
def KeyLocked (locked : List UUID) (db : Store) (l : Lead) : Prop :=
  Conflicts Lead.phoneKey (db.leads.filter fun x => x.id ∈ locked) l ∨
    Conflicts Lead.emailKey (db.leads.filter fun x => x.id ∈ locked) l

section Next

variable [DecidableEq ι] [Fintype ι]

instance (txn : ι → Txn) (c : Config ι) (i : ι) : Decidable (SlotHeld txn c i) := by
  unfold SlotHeld; infer_instance

instance (txn : ι → Txn) (c : Config ι) (i : ι) : Decidable (KeyHeld txn c i) := by
  unfold KeyHeld; infer_instance

omit [DecidableEq ι] [Fintype ι] [Interpreter] in
instance (locked : List UUID) (db : Store) (l : Lead) : Decidable (KeyLocked locked db l) := by
  unfold KeyLocked; infer_instance

/-- The next statement of transaction `i`; `none` while it waits and once it is over.
`locked` are the leads of which another session holds an update. -/
def captureNext (txn : ι → Txn) (locked : List UUID) (c : Config ι) (i : ι) :
    Option (Config ι) :=
  let e := (txn i).event
  let f := (txn i).fresh
  match c.phase i with
  | .start =>
    if SlotTaken c.db e.platformEventId then some (c.moveTo i c.db .redelivered)
    else if SlotHeld txn c i then none
    else some (c.moveTo i c.db .reserved)
  | .redelivered => some (c.moveTo i c.db (afterRedelivery c.db e))
  | .reserved =>
    some (c.moveTo i c.db (afterLookup .phoneMissed (lookupPhone c.db e.tenantId e)))
  | .phoneMissed =>
    some (c.moveTo i c.db (afterLookup .emailMissed (lookupEmail c.db e.tenantId e)))
  | .emailMissed =>
    some (c.moveTo i c.db (afterLookup .unmatched (lookupPlace c.db e.tenantId e)))
  | .unmatched =>
    if KeyLocked locked c.db (txn i).lead then none
    else
      match c.db.insertLead (txn i).lead with
      | .error err => some (c.moveTo i c.db (.raised err))
      | .ok _ => if KeyHeld txn c i then none else some (c.moveTo i c.db .inserted)
  | .matched existing =>
    some (c.moveTo i (withDuplicate c.db f e existing) (.finished ⟨existing,none⟩))
  | .inserted =>
    some (c.moveTo i (withNewLead c.db f e) (.finished ⟨(txn i).lead,some (leadReceived f e)⟩))
  | .finished _ | .raised _ => none

def CaptureStep (txn : ι → Txn) (locked : List UUID) (c : Config ι) (i : ι) (c' : Config ι) :
    Prop :=
  captureNext txn locked c i = some c'

end Next

variable [DecidableEq ι]

inductive Advance (txn : ι → Txn) (c : Config ι) (i : ι) : Config ι → Prop
  | redeliver (h : c.phase i = .start)
      (hslot : SlotTaken c.db (txn i).event.platformEventId) :
      Advance txn c i (c.moveTo i c.db .redelivered)
  | reserve (h : c.phase i = .start)
      (hslot : ¬ SlotTaken c.db (txn i).event.platformEventId) :
      Advance txn c i (c.moveTo i c.db .reserved)
  | answer (h : c.phase i = .redelivered) :
      Advance txn c i (c.moveTo i c.db (afterRedelivery c.db (txn i).event))
  | phone (h : c.phase i = .reserved) :
      Advance txn c i (c.moveTo i c.db (afterLookup .phoneMissed
        (lookupPhone c.db (txn i).event.tenantId (txn i).event)))
  | email (h : c.phase i = .phoneMissed) :
      Advance txn c i (c.moveTo i c.db (afterLookup .emailMissed
        (lookupEmail c.db (txn i).event.tenantId (txn i).event)))
  | place (h : c.phase i = .emailMissed) :
      Advance txn c i (c.moveTo i c.db (afterLookup .unmatched
        (lookupPlace c.db (txn i).event.tenantId (txn i).event)))
  | conflict (h : c.phase i = .unmatched) (err : CaptureError)
      (hins : c.db.insertLead (txn i).lead = .error err) :
      Advance txn c i (c.moveTo i c.db (.raised err))
  | insert (h : c.phase i = .unmatched) (hkey : ¬ KeyHeld txn c i) :
      Advance txn c i (c.moveTo i c.db .inserted)
  | attach (existing : Lead) (h : c.phase i = .matched existing) :
      Advance txn c i (c.moveTo i (withDuplicate c.db (txn i).fresh (txn i).event existing)
        (.finished ⟨existing,none⟩))
  | commit (h : c.phase i = .inserted) :
      Advance txn c i (c.moveTo i (withNewLead c.db (txn i).fresh (txn i).event)
        (.finished ⟨(txn i).lead,some (leadReceived (txn i).fresh (txn i).event)⟩))

theorem CaptureStep.advance [Fintype ι] {txn : ι → Txn} {locked : List UUID} {c c' : Config ι}
    {i : ι} (h : CaptureStep txn locked c i c') : Advance txn c i c' := by
  unfold CaptureStep captureNext at h
  dsimp only at h
  split at h
  · rename_i hp
    split_ifs at h with hslot
    · rw [← Option.some.inj h]
      exact .redeliver hp hslot
    · rw [← Option.some.inj h]
      exact .reserve hp hslot
  · rename_i hp
    rw [← Option.some.inj h]
    exact .answer hp
  · rename_i hp
    rw [← Option.some.inj h]
    exact .phone hp
  · rename_i hp
    rw [← Option.some.inj h]
    exact .email hp
  · rename_i hp
    rw [← Option.some.inj h]
    exact .place hp
  · rename_i hp
    split at h
    · simp at h
    · split at h
      · rename_i err hins
        rw [← Option.some.inj h]
        exact .conflict hp err hins
      · split at h
        · simp at h
        · rename_i hkey
          rw [← Option.some.inj h]
          exact .insert hp hkey
  · rename_i existing hp
    rw [← Option.some.inj h]
    exact .attach existing hp
  · rename_i hp
    rw [← Option.some.inj h]
    exact .commit hp
  · simp at h
  · simp at h

theorem Advance.rank_lt {txn : ι → Txn} {c c' : Config ι} {i : ι} (h : Advance txn c i c') :
    (c.phase i).rank < (c'.phase i).rank := by
  cases h with
  | redeliver h | reserve h | insert h | attach _ h | commit h | conflict h =>
    simp [h,Phase.rank]
  | answer h =>
    rw [moveTo_phase_self,rank_afterRedelivery,h]
    simp [Phase.rank]
  | phone h | email h | place h =>
    rw [moveTo_phase_self,h]
    exact rank_lt_afterLookup (by simp [Phase.rank]) (by simp [Phase.rank]) _

theorem Advance.phase_ne {txn : ι → Txn} {c c' : Config ι} {i j : ι} (h : Advance txn c i c')
    (hj : j ≠ i) : c'.phase j = c.phase j := by
  cases h <;> exact moveTo_phase_ne _ _ _ _ hj

/-- Every run is finite: a transaction executes at most six statements. -/
theorem length_le_of_path [Fintype ι] {txn : ι → Txn} {locked : List UUID} {c c' : Config ι}
    {tr : List (Transition (Config ι) ι)} (h : Path (CaptureStep txn locked) c tr c') :
    tr.length ≤ 6 * Fintype.card ι := by
  refine h.length_le_of_threads (fun c i => (c.phase i).rank) (fun c i => (c.phase i).rank_le)
    fun c i c' hs => ?_
  have hadv := CaptureStep.advance hs
  exact ⟨hadv.rank_lt,fun j hj => by rw [hadv.phase_ne hj]⟩

section Alone

variable [Fintype ι] {txn : ι → Txn} {c : Config ι} {i : ι}

/-- The configuration `run_capture` leads to when no statement of another transaction
comes between its own. -/
def ranAlone (txn : ι → Txn) (c : Config ι) (i : ι) : Config ι :=
  match runCapture c.db (txn i).fresh (txn i).event with
  | .error err => c.moveTo i c.db (.raised err)
  | .ok (db,captured) => c.moveTo i db (.finished captured)

theorem step_moveTo {p : Phase} {c' : Config ι}
    (h : Reachable (CaptureStep txn []) c (c.moveTo i c.db p))
    (hn : captureNext txn [] (c.moveTo i c.db p) i = some c') :
    Reachable (CaptureStep txn []) c c' := h.tail hn

omit [Interpreter] [DecidableEq ι] [Fintype ι] in
theorem not_keyLocked_nil (db : Store) (l : Lead) : ¬ KeyLocked [] db l := by
  simp [KeyLocked,Conflicts]

/-- The three lookups in a row are `find_duplicate`. -/
theorem reachable_lookups (h : Reachable (CaptureStep txn []) c (c.moveTo i c.db .reserved)) :
    Reachable (CaptureStep txn []) c (c.moveTo i c.db (afterLookup .unmatched
      (findDuplicate c.db (txn i).event.tenantId (txn i).event))) := by
  have hphone := step_moveTo h (i:=i) (by simp [captureNext]; rfl)
  unfold findDuplicate
  cases hp : lookupPhone c.db (txn i).event.tenantId (txn i).event with
  | error err => simpa [afterLookup,hp] using hphone
  | ok found =>
    cases found with
    | some l => simpa [afterLookup,hp] using hphone
    | none =>
      simp only [afterLookup,hp] at hphone
      have hmail := step_moveTo hphone (i:=i) (by simp [captureNext]; rfl)
      cases hm : lookupEmail c.db (txn i).event.tenantId (txn i).event with
      | error err => simpa [afterLookup,hm] using hmail
      | ok found =>
        cases found with
        | some l => simpa [afterLookup,hm] using hmail
        | none =>
          simp only [afterLookup,hm] at hmail
          exact step_moveTo hmail (by simp [captureNext])

/-- The redelivery branch takes two statements. -/
theorem redelivery_alone (hstart : c.phase i = .start)
    (hslot : SlotTaken c.db (txn i).event.platformEventId) :
    Reachable (CaptureStep txn []) c (ranAlone txn c i) := by
  have hanswer : Reachable (CaptureStep txn []) c (c.moveTo i c.db .redelivered) := by
    refine Reachable.refl.tail (a:=i) ?_
    simp [CaptureStep,captureNext,hstart,hslot]
  refine step_moveTo hanswer ?_
  simp only [captureNext,moveTo_phase_self,moveTo_db,moveTo_moveTo,Option.some.injEq,ranAlone,
    runCapture_taken hslot,afterRedelivery]
  cases hr : redelivered c.db (txn i).event with
  | error err => rfl
  | ok result =>
    have hdb : result.1 = c.db := by
      unfold redelivered at hr
      split at hr
      · simp at hr
      · simp at hr
      · rw [← Except.ok.inj hr]
    simp only [hdb]

/-- Run without interruption, the statements of a transaction are `run_capture`. -/
theorem capture_alone (hstart : c.phase i = .start)
    (halone : ∀ j, j ≠ i → (c.phase j).holdsSlot = false)
    (hf : (txn i).fresh.For c.db) :
    Reachable (CaptureStep txn []) c (ranAlone txn c i) := by
  by_cases hslot : SlotTaken c.db (txn i).event.platformEventId
  · exact redelivery_alone hstart hslot
  have hheld : ¬ SlotHeld txn c i := by
    rintro ⟨j,hj,hslot,_⟩
    simp [halone j hj] at hslot
  have hreserved : Reachable (CaptureStep txn []) c (c.moveTo i c.db .reserved) := by
    refine Reachable.refl.tail (a:=i) ?_
    simp [CaptureStep,captureNext,hstart,hslot,hheld]
  have hfound := reachable_lookups hreserved
  cases hdup : findDuplicate c.db (txn i).event.tenantId (txn i).event with
  | error err => simpa [ranAlone,afterLookup,hdup,runCapture_error hslot hdup] using hfound
  | ok found =>
    cases found with
    | some l =>
      simp only [afterLookup,hdup] at hfound
      refine step_moveTo hfound ?_
      simp [captureNext,ranAlone,runCapture_duplicate hf hslot hdup]
    | none =>
      simp only [afterLookup,hdup] at hfound
      have hfree := not_conflicts_newLead (f:=(txn i).fresh) (findDuplicate_none.mp hdup)
      have hins : c.db.insertLead (txn i).lead = .ok _ :=
        Store.insertLead_eq_ok.mpr ⟨hfree.1,hfree.2,rfl⟩
      have hkey : ¬ KeyHeld txn (c.moveTo i c.db .unmatched) i := by
        rintro ⟨j,hj,hjins,_⟩
        rw [moveTo_phase_ne _ _ _ _ hj] at hjins
        have hslot' := halone j hj
        cases hph : c.phase j <;> simp_all [Phase.isInserted,Phase.holdsSlot]
      have hinserted : Reachable (CaptureStep txn []) c (c.moveTo i c.db .inserted) :=
        step_moveTo hfound (by simp [captureNext,hins,hkey,not_keyLocked_nil])
      refine step_moveTo hinserted ?_
      simp only [captureNext,moveTo_phase_self,moveTo_db,moveTo_moveTo,ranAlone,
        runCapture_new hf hslot hdup]
      rfl

end Alone

/-- No deadlock: a transaction that holds its lead can always commit, and one that holds its log
row waits for nothing but a lead. -/
theorem progress_of_open [Fintype ι] {txn : ι → Txn} {c : Config ι}
    (hopen : ∃ i, (c.phase i).isOver = false) : ∃ i c', CaptureStep txn [] c i c' := by
  by_cases hins : ∃ j, c.phase j = .inserted
  · obtain ⟨j,hj⟩ := hins
    exact ⟨j,_,by simp only [CaptureStep,captureNext,hj]; rfl⟩
  have hunheld : ∀ i, ¬ KeyHeld txn c i := by
    rintro i ⟨j,_,hj,_⟩
    refine hins ⟨j,?_⟩
    cases hp : c.phase j with
    | inserted => rfl
    | start | redelivered | reserved | phoneMissed | emailMissed | unmatched | matched
    | finished | raised =>
      rw [hp] at hj
      cases hj
  -- no lead is in flight from here on, so whoever holds a log row moves
  have hholder : ∀ i, (c.phase i).holdsSlot = true → ∃ c', CaptureStep txn [] c i c' := by
    intro i hi
    simp only [CaptureStep,captureNext]
    cases hp : c.phase i with
    | reserved | phoneMissed | emailMissed | matched => exact ⟨_,rfl⟩
    | inserted => exact absurd ⟨i,hp⟩ hins
    | start | redelivered | finished | raised =>
      rw [hp] at hi
      cases hi
    | unmatched =>
      cases hinsert : c.db.insertLead (txn i).lead with
      | error err => simp [not_keyLocked_nil]
      | ok _ => simp [not_keyLocked_nil,hunheld i]
  obtain ⟨i,hi⟩ := hopen
  by_cases hslot : (c.phase i).holdsSlot = true
  · exact ⟨i,hholder i hslot⟩
  by_cases hheld : SlotHeld txn c i
  · obtain ⟨j,_,hj,_⟩ := hheld
    exact ⟨j,hholder j hj⟩
  refine ⟨i,?_⟩
  simp only [CaptureStep,captureNext]
  cases hp : c.phase i with
  | redelivered => exact ⟨_,rfl⟩
  | start =>
    by_cases htaken : SlotTaken c.db (txn i).event.platformEventId <;> simp [htaken,hheld]
  | finished | raised =>
    rw [hp] at hi
    cases hi
  | reserved | phoneMissed | emailMissed | unmatched | matched | inserted =>
    rw [hp] at hslot
    exact absurd rfl hslot

end Concurrency
end LeadEngine
