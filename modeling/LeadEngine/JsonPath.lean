import LeadEngine.Interpreter

/-! Reading decoded JSON as Python code reads it: indexing by keys and first elements, with
the exceptions it can raise, beside the total view of a value as the lists it holds. -/
namespace LeadEngine
namespace Json

open Fallible

/-- The exceptions of an access; the last is raised when a model rejects a value's type. -/
inductive ReadError
  | keyError | indexError | typeError | attributeError | validationError
  deriving DecidableEq

inductive Access
  | key (k : String)
  | first

def access : Access → Json → Except ReadError Json
  | .key k,.obj kvs =>
    match (Json.obj kvs).get? k with
    | some v => .ok v
    | none => .error .keyError
  | .key _,_ => .error .typeError
  | .first,.arr (x :: _) => .ok x
  | .first,.arr [] => .error .indexError
  | .first,.str s =>
    match s.toList with
    | c :: _ => .ok (.str (String.singleton c))
    | [] => .error .indexError
  | .first,.obj _ => .error .keyError
  | .first,_ => .error .typeError

/-- A chain of accesses; the first one that raises ends it. -/
def read : List Access → Json → Except ReadError Json
  | [],v => .ok v
  | a :: path,v =>
    match access a v with
    | .error err => .error err
    | .ok w => read path w

/-- `value.get(key, default)`, which only an object has. -/
def dictGet (v : Json) (k : String) (default : Json) : Except ReadError Json :=
  match v with
  | .obj _ => .ok ((v.get? k).getD default)
  | _ => .error .attributeError

def contains (k : String) : Json → Except ReadError Bool
  | .obj kvs => .ok ((Json.obj kvs).get? k).isSome
  | .arr xs => .ok (xs.any fun | .str s => s = k | _ => false)
  | .str s => .ok (s.toList.tails.any k.toList.isPrefixOf)
  | _ => .error .typeError

def truth : Json → Bool
  | .null => false
  | .bool b => b
  | .int n => n ≠ 0
  | .float q => q ≠ 0
  | .str s => s ≠ ""
  | .arr xs => !xs.isEmpty
  | .obj kvs => !kvs.isEmpty

def fields? : Json → Option (List (String × Json))
  | .obj kvs => some kvs
  | _ => none

/-- The value of a field that a model declares as `str`. -/
def asText (v : Json) : Except ReadError String :=
  match v.text? with
  | some s => .ok s
  | none => .error .validationError

/-- `value or None` in a field that a model declares as `str | None`. -/
def asTextOrNone (v : Json) : Except ReadError (Option String) :=
  if v.truth then v.asText.map some else .ok none

def elements (k : String) (v : Json) : List Json :=
  match v.get? k with
  | some (.arr xs) => xs
  | _ => []

attribute [simp] text?_eq_some

theorem fields?_eq_some {v : Json} {kvs : List (String × Json)} :
    fields? v = some kvs ↔ v = .obj kvs := by
  cases v <;> simp [fields?]

@[simp] theorem asText_eq_ok {v : Json} {s : String} : v.asText = .ok s ↔ v = .str s := by
  cases v <;> simp [asText,text?]

theorem access_key {k : String} {v w : Json} : access (.key k) v = .ok w ↔ v.get? k = some w := by
  cases v with
  | obj kvs =>
    simp only [access]
    cases (Json.obj kvs).get? k <;> simp
  | _ => simp [access,get?]

@[simp] theorem read_nil (v : Json) : read [] v = .ok v := rfl

theorem read_cons (a : Access) (path : List Access) (v : Json) :
    read (a :: path) v = (access a v).bind (read path) := by
  simp only [read]
  cases access a v <;> rfl

theorem read_append (path path' : List Access) (v : Json) :
    read (path ++ path') v = (read path v).bind (read path') := by
  induction path generalizing v with
  | nil => rfl
  | cons a path ih =>
    simp only [List.cons_append,read_cons]
    cases access a v with
    | error err => rfl
    | ok w => exact ih w

theorem read_key {k : String} {path : List Access} {v w : Json} :
    read (.key k :: path) v = .ok w ↔ ∃ x, v.get? k = some x ∧ read path x = .ok w := by
  simp only [read_cons,bind_eq_ok,access_key]

@[simp] theorem read_single {k : String} {v w : Json} :
    read [.key k] v = .ok w ↔ v.get? k = some w := by
  simp [read_key]

theorem obj_of_read {k : String} {path : List Access} {v w : Json}
    (h : v.read (.key k :: path) = .ok w) : ∃ kvs, v = .obj kvs := by
  obtain ⟨x,hx,_⟩ := read_key.mp h
  cases v with
  | obj kvs => exact ⟨kvs,rfl⟩
  | _ => simp [get?] at hx

theorem read_first_key {k : String} {path : List Access} {v w : Json} :
    read (.first :: .key k :: path) v = .ok w ↔
      ∃ x xs, v = .arr (x :: xs) ∧ read (.key k :: path) x = .ok w := by
  rw [read_cons,bind_eq_ok]
  constructor
  · rintro ⟨x,hx,hr⟩
    cases v with
    | arr ys =>
      cases ys with
      | nil => simp [access] at hx
      | cons y ys =>
        obtain rfl : y = x := by simpa [access] using hx
        exact ⟨y,ys,rfl,hr⟩
    | str s =>
      simp only [access] at hx
      split at hx
      · obtain rfl := Except.ok.inj hx
        obtain ⟨y,hy,_⟩ := read_key.mp hr
        simp [get?] at hy
      · cases hx
    | _ => simp [access] at hx
  · rintro ⟨x,xs,rfl,hr⟩
    exact ⟨x,rfl,hr⟩

theorem read_head {k k' : String} {path : List Access} {v w : Json} :
    read (.key k :: .first :: .key k' :: path) v = .ok w ↔
      ∃ x, (v.elements k).head? = some x ∧ read (.key k' :: path) x = .ok w := by
  rw [read_key]
  constructor
  · rintro ⟨y,hy,hr⟩
    obtain ⟨x,xs,rfl,hr⟩ := read_first_key.mp hr
    exact ⟨x,by simp [elements,hy],hr⟩
  · rintro ⟨x,hx,hr⟩
    cases hy : v.get? k with
    | none => simp [elements,hy] at hx
    | some y =>
      cases y with
      | arr ys =>
        cases ys with
        | nil => simp [elements,hy] at hx
        | cons y ys =>
          obtain rfl : y = x := by simpa [elements,hy] using hx
          exact ⟨_,rfl,read_first_key.mpr ⟨y,ys,rfl,hr⟩⟩
      | _ => simp [elements,hy] at hx

theorem read_first_of_head {k : String} {v x : Json} (h : (v.elements k).head? = some x) :
    read [.key k,.first] v = .ok x := by
  cases hv : v.get? k with
  | none => simp [elements,hv] at h
  | some y =>
    refine read_key.mpr ⟨y,hv,?_⟩
    cases y with
    | arr ys =>
      cases ys with
      | nil => simp [elements,hv] at h
      | cons y ys =>
        obtain rfl : y = x := by simpa [elements,hv] using h
        rfl
    | _ => simp [elements,hv] at h

theorem head_of_read_first {k k' : String} {v x y : Json} (h : read [.key k,.first] v = .ok x)
    (hx : x.get? k' = some y) : (v.elements k).head? = some x := by
  have hread : read ([.key k,.first] ++ [.key k']) v = .ok y := by
    rw [read_append,h]
    exact read_key.mpr ⟨y,hx,rfl⟩
  obtain ⟨x',hx',_⟩ := read_head.mp hread
  rw [read_first_of_head hx',Except.ok.injEq] at h
  rw [hx',h]

@[simp] theorem dictGet_obj (kvs : List (String × Json)) (k : String) (default : Json) :
    (Json.obj kvs).dictGet k default = .ok (((Json.obj kvs).get? k).getD default) := rfl

theorem dictGet_eq_ok {k : String} {default v w : Json} :
    v.dictGet k default = .ok w ↔ (∃ kvs, v = .obj kvs) ∧ (v.get? k).getD default = w := by
  cases v <;> simp [dictGet]

end Json
end LeadEngine
