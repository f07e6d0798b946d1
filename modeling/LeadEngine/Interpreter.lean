import Mathlib.Data.Rat.Defs
import LeadEngine.Dict

/-! JSON values and the parts of the Python runtime that the code calls and does
not define: the Unicode database, case mapping, `str()` and SHA-256. -/
namespace LeadEngine

/-! The result of code that can raise, read back from the outside in. -/
namespace Fallible

theorem bind_eq_ok {ε α β : Type} {x : Except ε α} {f : α → Except ε β} {b : β} :
    x.bind f = .ok b ↔ ∃ a, x = .ok a ∧ f a = .ok b := by
  cases x <;> simp [Except.bind]

theorem map_eq_ok {ε α β : Type} {x : Except ε α} {f : α → β} {b : β} :
    x.map f = .ok b ↔ ∃ a, x = .ok a ∧ f a = b := by
  cases x <;> simp [Except.map]

theorem mapError_eq_ok {ε ε' α : Type} {x : Except ε α} {f : ε → ε'} {a : α} :
    x.mapError f = .ok a ↔ x = .ok a := by
  cases x <;> simp [Except.mapError]

theorem isOk_iff {ε α : Type} {x : Except ε α} : x.isOk = true ↔ ∃ a, x = .ok a := by
  cases x <;> simp [Except.isOk,Except.toBool]

theorem toOption_join_eq_some {ε α : Type} {x : Except ε (Option α)} {a : α} :
    x.toOption.join = some a ↔ x = .ok (some a) := by
  cases x <;> simp [Except.toOption]

end Fallible

inductive Json
  | null
  | bool (b : Bool)
  | int (n : ℤ)
  | float (q : ℚ)
  | str (s : String)
  | arr (xs : List Json)
  | obj (kvs : List (String × Json))

namespace Json

/-- `value.get(key)` of a decoded object. -/
def get? (k : String) : Json → Option Json
  | .obj kvs => (kvs.find? fun e => e.1 = k).map Prod.snd
  | _ => none

def insertField (field : String × Json) : List (String × Json) → List (String × Json)
  | [] => [field]
  | other :: rest =>
    if other.1 < field.1 then other :: insertField field rest else field :: other :: rest

mutual

/-- The value as `json.dumps(.., sort_keys=True)` writes it, with the keys of every object in
order. Python takes it for equal to the given value. -/
def sortKeys : Json → Json
  | .arr xs => .arr (sortItems xs)
  | .obj kvs => .obj (sortFields kvs)
  | j => j

def sortItems : List Json → List Json
  | [] => []
  | x :: xs => sortKeys x :: sortItems xs

def sortFields : List (String × Json) → List (String × Json)
  | [] => []
  | (k,v) :: rest => insertField (k,sortKeys v) (sortFields rest)

end

def text? : Json → Option String
  | .str s => some s
  | _ => none

theorem text?_eq_some {j : Json} {s : String} : j.text? = some s ↔ j = .str s := by
  cases j <;> simp [text?]

end Json

/-- The runtime behind the code. The Unicode tables differ between interpreter
versions, so only their documented behaviour on ASCII is fixed here. -/
class Interpreter where
  isDecimal : Char → Bool
  isSpace : Char → Bool
  isWord : Char → Bool
  upper : Char → List Char
  lower : String → String
  str : Json → String
  sha256 : String → String
  isDecimal_ascii : ∀ c : Char, c.toNat < 128 → isDecimal c = c.isDigit
  isSpace_ascii : ∀ c : Char, c.toNat < 128 →
    isSpace c = decide (9 ≤ c.toNat ∧ c.toNat ≤ 13 ∨ 28 ≤ c.toNat ∧ c.toNat ≤ 32)
  isWord_ascii : ∀ c : Char, c.toNat < 128 → isWord c = (c.isAlphanum || c == '_')
  isWord_of_isDecimal : ∀ c : Char, isDecimal c = true → isWord c = true
  upper_ascii : ∀ c : Char, c.toNat < 128 → upper c = [c.toUpper]
  lower_ascii : ∀ s : String, (∀ c ∈ s.toList, c.toNat < 128) →
    lower s = String.ofList (s.toList.map Char.toLower)
  str_str : ∀ s : String, str (.str s) = s

namespace Interpreter

def strip [Interpreter] (text : String) : String :=
  String.ofList (((text.toList.dropWhile isSpace).reverse.dropWhile isSpace).reverse)

/-- `if value:` on an optional string; the empty string counts as absent. -/
def truthy (value : Option String) : Option String :=
  value.filter fun s => s ≠ ""

@[simp] theorem truthy_none : truthy none = none := rfl

theorem truthy_eq_some {value : Option String} {s : String} :
    truthy value = some s ↔ value = some s ∧ s ≠ "" := by
  rw [truthy,Option.filter_eq_some_iff]
  simp

def asciiStr : Json → String
  | .null => "None"
  | .bool true => "True"
  | .bool false => "False"
  | .int n => toString n
  | .str s => s
  | _ => ""

def digestOf (digests : List (String × String)) (text : String) : String :=
  ((digests.find? fun e => e.1 = text).map Prod.snd).getD ""

/-- An interpreter restricted to ASCII text, used to run the model on concrete inputs. -/
@[reducible] def ascii (sha256 : String → String) : Interpreter where
  isDecimal := Char.isDigit
  isSpace c := decide (9 ≤ c.toNat ∧ c.toNat ≤ 13 ∨ 28 ≤ c.toNat ∧ c.toNat ≤ 32)
  isWord c := c.isAlphanum || c == '_'
  upper c := [c.toUpper]
  lower s := String.ofList (s.toList.map Char.toLower)
  str := asciiStr
  sha256 := sha256
  isDecimal_ascii _ _ := rfl
  isSpace_ascii _ _ := rfl
  isWord_ascii _ _ := rfl
  isWord_of_isDecimal c h := by simp [Char.isAlphanum,h]
  upper_ascii _ _ := rfl
  lower_ascii _ _ := rfl
  str_str _ := rfl

end Interpreter
end LeadEngine
