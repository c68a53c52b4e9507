/-
  The values that YAML constructs, as the loader receives them.

  Aliases (`&a` / `*a`) make containers shared, or reach themselves, so a
  document is a graph: a value is a scalar or the address of a container, and a
  `Heap` gives the container at each address.
-/
import ContinuoRuntime.Python.Exc
import ContinuoRuntime.Python.Json
import ContinuoRuntime.Lib.Except

namespace ContinuoRuntime

/-- A value over `n` containers. -/
inductive Val (n : ℕ) where
  | none
  | bool (b : Bool)
  | int (i : ℤ)
  | float (f : FloatRepr)
  | str (s : Str)
  /-- bytes, dates, sets, tuples: `order` is the class of values it can be
      compared with -/
  | other (type order text : Str)
  | ref (a : Fin n)
  deriving DecidableEq

/-- A container. -/
inductive Cell (n : ℕ) where
  | dict (d : Dict (Val n) (Val n))
  | list (xs : List (Val n))

/-- The containers of a document. -/
structure Heap where
  size : ℕ
  cell : Fin size → Cell size

instance lawfulBEq_address (h : Heap) : LawfulBEq (Fin h.size) := inferInstance

/-! The sizes of the documents in the examples. -/

instance neZero_two : NeZero 2 := ⟨by decide⟩
instance neZero_three : NeZero 3 := ⟨by decide⟩
instance neZero_five : NeZero 5 := ⟨by decide⟩

/-- What the loader uses of Python without computing it itself. -/
structure Lang where
  /-- `repr(value)`; it raises for an integer of too many digits, and for
      containers nested too deep -/
  repr : (h : Heap) → Val h.size → Except Exc Str
  /-- `repr(text)` -/
  reprStr : Str → Str
  /-- the text of a sorted list of keys -/
  reprSorted : (h : Heap) → List (Val h.size) → Except Exc Str
  /-- `str.lower` -/
  lower : Str → Str
  /-- `==` of two keys of a mapping -/
  sameKey : {n : ℕ} → Val n → Val n → Bool
  /-- how many calls of a function that calls itself the stack takes on top of
      the first one -/
  depth : ℕ

/-- `str` of a list of texts. -/
def reprList (reprStr : Str → Str) (xs : List Str) : Str :=
  py "[" ++ (py ", ").intercalate (xs.map reprStr) ++ py "]"

/-- A `repr` for texts without quotes. -/
def plainLang : Lang where
  repr _ _ := .ok []
  reprStr s := py "'" ++ s ++ py "'"
  reprSorted _ _ := .ok []
  lower s := s
  sameKey v w := decide (v = w)
  depth := 100

/-- `raise ContractError(f"{before}{value!r}{after}")`. -/
def contractErrorFor {α : Type} (L : Lang) (h : Heap) (before : Str) (value : Val h.size) (after : Str) :
    Except Exc α := do
  let text ← L.repr h value
  contractError (before ++ text ++ after)

theorem contractErrorFor_ne_ok {α : Type} {L : Lang} {h : Heap} {before after : Str}
    {value : Val h.size} {a : α} : contractErrorFor L h before value after ≠ .ok a := by
  intro hok
  obtain ⟨_, -, hok⟩ := bind_eq_ok.1 hok
  cases hok

/-- The stack does not take another call. -/
def recursionError : Exc := .text (.other (py "RecursionError")) (py "maximum recursion depth exceeded")

/-- A call under `depth` calls of the same function. -/
def nestedCall {α : Type} (L : Lang) (depth : ℕ) (result : Except Exc α) : Except Exc α :=
  if L.depth < depth then .error recursionError else result

theorem nestedCall_eq_ok {α : Type} {L : Lang} {depth : ℕ} {result : Except Exc α} {a : α}
    (ha : nestedCall L depth result = .ok a) : result = .ok a := by
  unfold nestedCall at ha
  split_ifs at ha
  exact ha

variable {n : ℕ}

/-- `type(value).__name__`. -/
def Heap.typeName (h : Heap) : Val h.size → Str
  | .none => py "NoneType"
  | .bool _ => py "bool"
  | .int _ => py "int"
  | .float _ => py "float"
  | .str _ => py "str"
  | .other t _ _ => t
  | .ref a => match h.cell a with
    | .dict _ => py "dict"
    | .list _ => py "list"

/-- `isinstance(value, dict)`. -/
def Heap.asDict (h : Heap) : Val h.size → Option (Dict (Val h.size) (Val h.size))
  | .ref a => match h.cell a with
    | .dict d => some d
    | .list _ => Option.none
  | _ => Option.none

/-- `isinstance(value, list)`. -/
def Heap.asList (h : Heap) : Val h.size → Option (List (Val h.size))
  | .ref a => match h.cell a with
    | .dict _ => Option.none
    | .list xs => some xs
  | _ => Option.none

/-- `isinstance(value, str)`. -/
def Val.asStr : Val n → Option Str
  | .str s => some s
  | _ => Option.none

/-- Dictionaries, lists and sets cannot be hashed. -/
def Val.hashable : Val n → Bool
  | .ref _ => false
  | .other type _ _ => type ≠ py "set"
  | _ => true

/-- `raw.get(key)`; `Option.none` when the key is absent. -/
def getKey (d : Dict (Val n) (Val n)) (key : Str) : Option (Val n) := d.get? (.str key)

/-- `raw.get(key)`, where `None` stands for an absent key too. -/
def getNone (d : Dict (Val n) (Val n)) (key : Str) : Val n := (getKey d key).getD .none

/-- `set(d) - allowed`. -/
def unknownKeys (d : Dict (Val n) (Val n)) (allowed : List Str) : List (Val n) :=
  (d.items.map Prod.fst).filter fun k => match k with
    | .str s => s ∉ allowed
    | _ => true

/-- Two keys that `<` compares. -/
def Val.comparable : Val n → Val n → Bool
  | .str _, .str _ => true
  | .bool _, .bool _ | .bool _, .int _ | .bool _, .float _ => true
  | .int _, .bool _ | .int _, .int _ | .int _, .float _ => true
  | .float _, .bool _ | .float _, .int _ | .float _, .float _ => true
  | .other _ o _, .other _ p _ => o == p
  | _, _ => false

/-- The text of `sorted(keys)`, for distinct keys; keys of classes that cannot be
    compared raise. -/
def sortedText (L : Lang) (h : Heap) (keys : List (Val h.size)) : Except Exc Str :=
  match keys with
  | [_] => L.reprSorted h keys
  | _ =>
    if keys.all fun a => keys.all fun b => a.comparable b then L.reprSorted h keys
    else .error (.text .typeError (py "'<' not supported between instances"))

/-- A mapping translated member by member, each under its own text key, has
    distinct keys. -/
theorem NodupKeys.mapM {V : Type} {f : Val n × Val n → Except Exc (Str × V)}
    (hf : ∀ p q, f p = .ok q → p.1 = .str q.1) :
    ∀ {kvs : List (Val n × Val n)} {kws : List (Str × V)}, NodupKeys kvs → kvs.mapM f = .ok kws →
      NodupKeys kws := by
  intro kvs kws hn h
  have hall := mapM_eq_ok.1 h
  have hkeys : kvs.map Prod.fst = (kws.map Prod.fst).map Val.str := by
    clear h hn
    induction hall with
    | nil => rfl
    | cons hpq _ ih => rw [List.map_cons, List.map_cons, List.map_cons, hf _ _ hpq, ih]
  unfold NodupKeys at hn ⊢
  rw [hkeys] at hn
  exact List.Nodup.of_map _ hn

end ContinuoRuntime
