import Mathlib.Data.List.Basic

/-! Backtracking patterns: the fragment of regular expressions made of character
classes, sequences, optional parts, bounded repetition and word boundaries. -/
namespace LeadEngine

inductive Pattern
  | chr (p : Char → Bool)
  | seq (a b : Pattern)
  | opt (a : Pattern)
  | rep (a : Pattern) (least most : ℕ)
  | boundary

namespace Pattern

/-- A place in a text: what lies before it, last character first, and what lies after. -/
structure Place where
  before : List Char
  after : List Char

def Place.ofList (text : List Char) : Place := ⟨[],text⟩

/-- Try one more repetition first; stop only when enough were made. -/
def repeatGreedy (next : Place → List Place) : ℕ → ℕ → Place → List Place
  | least,0,at' => if least = 0 then [at'] else []
  | least,most+1,at' => (next at').flatMap (repeatGreedy next (least-1) most) ++
      if least = 0 then [at'] else []

def ends (isWord : Char → Bool) : Pattern → Place → List Place
  | .chr p,⟨before,c :: after⟩ => if p c then [⟨c :: before,after⟩] else []
  | .chr _,⟨_,[]⟩ => []
  | .seq a b,at' => (ends isWord a at').flatMap (ends isWord b)
  | .opt a,at' => ends isWord a at' ++ [at']
  | .rep a least most,at' => repeatGreedy (ends isWord a) least most at'
  | .boundary,at' =>
    if (at'.before.head?.any isWord) ≠ (at'.after.head?.any isWord) then [at'] else []

def Place.skip : Place → Place
  | ⟨before,c :: after⟩ => ⟨c :: before,after⟩
  | at' => at'

/-- The non-overlapping matches from left to right, each the first that backtracking
finds at its start. `fuel` bounds the number of places looked at. -/
def findFrom (isWord : Char → Bool) (r : Pattern) : ℕ → Place → List (List Char)
  | 0,_ => []
  | fuel+1,at' =>
    match (ends isWord r at').head? with
    | some stop =>
      if stop.after.length < at'.after.length then
        at'.after.take (at'.after.length - stop.after.length) :: findFrom isWord r fuel stop
      else if at'.after = [] then [] else findFrom isWord r fuel at'.skip
    | none => if at'.after = [] then [] else findFrom isWord r fuel at'.skip

/-- `pattern.finditer(text)` for a pattern that never matches the empty string. -/
def findAll (isWord : Char → Bool) (r : Pattern) (text : List Char) : List (List Char) :=
  findFrom isWord r (text.length+1) (Place.ofList text)

/-- `pattern.search(text) is not None`. -/
def occurs (isWord : Char → Bool) (r : Pattern) (text : List Char) : Bool :=
  !(findAll isWord r text).isEmpty

def all : List Pattern → Pattern
  | [] => .rep .boundary 0 0
  | [r] => r
  | r :: rs => .seq r (all rs)

end Pattern
end LeadEngine
