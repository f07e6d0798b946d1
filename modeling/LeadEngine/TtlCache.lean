import Mathlib.Data.Int.Notation
import Mathlib.Data.List.Basic

/-! A cache with one slot whose entry lives for a fixed time. -/
namespace LeadEngine
namespace TtlCache

variable {α : Type}

structure Entry (α : Type) where
  value : α
  expires : ℤ

abbrev Slot (α : Type) := Option (Entry α)

def get? (slot : Slot α) (now : ℤ) : Option α :=
  match slot with
  | none => none
  | some entry => if now < entry.expires then some entry.value else none

def put (ttl now : ℤ) (value : α) : Slot α := some ⟨value,now+ttl⟩

/-- What is in the slot was true of its value when it was put there. -/
def Stored (ttl : ℤ) (P : α → ℤ → Prop) (slot : Slot α) : Prop :=
  ∀ entry ∈ slot, ∃ since, entry.expires = since+ttl ∧ P entry.value since

variable {ttl : ℤ} {P : α → ℤ → Prop} {slot : Slot α} {now : ℤ} {value : α}

theorem stored_none : Stored ttl P none := fun _ h => by cases h

theorem stored_put (h : P value now) : Stored ttl P (put ttl now value) := by
  intro entry hentry
  obtain rfl := Option.some.inj hentry
  exact ⟨now,rfl,h⟩

theorem Stored.of_get? (h : Stored ttl P slot) (hget : get? slot now = some value) :
    ∃ since, now < since+ttl ∧ P value since := by
  cases slot with
  | none => cases hget
  | some entry =>
    rw [get?] at hget
    split_ifs at hget with hlive
    obtain ⟨since,hexpires,hP⟩ := h entry rfl
    obtain rfl := Option.some.inj hget
    exact ⟨since,hexpires ▸ hlive,hP⟩

theorem get?_none_iff : get? slot now = none ↔ ∀ entry ∈ slot, entry.expires ≤ now := by
  cases slot with
  | none => simp [get?]
  | some entry => simp [get?]

end TtlCache
end LeadEngine
