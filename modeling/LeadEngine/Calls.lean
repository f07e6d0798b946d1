import Mathlib.Data.List.Basic

/-! Programs that call the outside and may raise: the calls of a run in order, beside its
result. A step that raises ends the run, and the calls made before it stay. -/
namespace LeadEngine
namespace Calls

structure Run (call ε α : Type) where
  calls : List call
  result : Except ε α

namespace Run

variable {call ε α β : Type}

def pure (a : α) : Run call ε α := ⟨[],.ok a⟩

def perform (c : call) (result : Except ε α) : Run call ε α := ⟨[c],result⟩

def silent (result : Except ε α) : Run call ε α := ⟨[],result⟩

def bind (x : Run call ε α) (f : α → Run call ε β) : Run call ε β :=
  match x.result with
  | .error err => ⟨x.calls,.error err⟩
  | .ok a => ⟨x.calls ++ (f a).calls,(f a).result⟩

@[simp] theorem pure_calls (a : α) : (pure a : Run call ε α).calls = [] := rfl

@[simp] theorem pure_result (a : α) : (pure a : Run call ε α).result = .ok a := rfl

@[simp] theorem perform_calls (c : call) (r : Except ε α) : (perform c r).calls = [c] := rfl

@[simp] theorem perform_result (c : call) (r : Except ε α) : (perform c r).result = r := rfl

@[simp] theorem silent_calls (r : Except ε α) : (silent r : Run call ε α).calls = [] := rfl

@[simp] theorem silent_result (r : Except ε α) : (silent r : Run call ε α).result = r := rfl

@[simp] theorem bind_result (x : Run call ε α) (f : α → Run call ε β) :
    (x.bind f).result = x.result.bind fun a => (f a).result := by
  unfold bind
  cases x.result <;> rfl

@[simp] theorem mem_calls_bind {x : Run call ε α} {f : α → Run call ε β} {c : call} :
    c ∈ (x.bind f).calls ↔ c ∈ x.calls ∨ ∃ a, x.result = .ok a ∧ c ∈ (f a).calls := by
  unfold bind
  cases x.result <;> simp

theorem raises_bind {x : Run call ε α} {f : α → Run call ε β} {err : ε} :
    (x.bind f).result = .error err ↔
      x.result = .error err ∨ ∃ a, x.result = .ok a ∧ (f a).result = .error err := by
  rw [bind_result]
  cases x.result <;> simp [Except.bind]

theorem avoids_bind {x : Run call ε α} {f : α → Run call ε β} {err : ε} :
    (x.bind f).result ≠ .error err ↔
      x.result ≠ .error err ∧ ∀ a, x.result = .ok a → (f a).result ≠ .error err := by
  rw [Ne,raises_bind,not_or]
  simp

end Run

end Calls
end LeadEngine
