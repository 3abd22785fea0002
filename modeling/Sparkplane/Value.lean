import Mathlib.Algebra.Group.Int.Defs
import Mathlib.Algebra.GroupWithZero.Nat
import Mathlib.Data.List.Basic

/-!
# JSON values

The part of `serde_json::Value` that a program reads and builds values with.
An object is the list of its fields; `insert` keeps one field per key. A number
is an integer or a finite float, and a finite float is a rational.
-/

inductive Number where
  | int (n : Int)
  | float (q : Rat)

inductive Value where
  | null
  | bool (b : Bool)
  | number (n : Number)
  | string (s : String)
  | array (items : List Value)
  | object (fields : List (String × Value))

/-- `serde_json::Map`. -/
abbrev Fields := List (String × Value)

namespace Fields

variable {key key' : String}

def get (fields : Fields) (key : String) : Option Value := (fields.find? fun f => f.1 = key).map Prod.snd

/-- `Map::insert`, where the old value is dropped. -/
def insert (fields : Fields) (key : String) (value : Value) : Fields :=
  if (fields.get key).isSome then fields.map fun f => if f.1 = key then (key, value) else f
  else fields ++ [(key, value)]

def insertSome (fields : Fields) (key : String) : Option Value → Fields
  | some value => fields.insert key value
  | none => fields

/-- `get_mut`: the value of the key is replaced in place. -/
def put : Fields → String → Value → Fields
  | [], _, _ => []
  | f :: fields, key, value => if f.1 = key then (f.1, value) :: fields else f :: put fields key value

def putSome (fields : Fields) (key : String) : Option Value → Fields
  | some value => fields.put key value
  | none => fields

def remove (fields : Fields) (key : String) : Fields := fields.filter fun f => f.1 ≠ key

def contains (fields : Fields) (key : String) : Bool := (fields.get key).isSome

def keys (fields : Fields) : List String := fields.map Prod.fst

theorem get_cons (f : String × Value) (fields : Fields) (key : String) :
    get (f :: fields) key = if key = f.1 then some f.2 else fields.get key := by
  unfold get
  rw [List.find?_cons]
  by_cases h : key = f.1
  · simp [h]
  · simp [h, Ne.symm h]

variable {fields : Fields}

theorem get_of_notMem (h : key ∉ fields.keys) : fields.get key = none := by
  simp only [keys, List.mem_map, not_exists, not_and] at h
  simpa [get] using fun k v hf e => h (k, v) hf e

@[simp] theorem get_nil (key : String) : get [] key = none := rfl

theorem get_append (fields fields' : Fields) (key : String) :
    get (fields ++ fields') key = (fields.get key).or (get fields' key) := by
  induction fields with
  | nil => rfl
  | cons f fields ih =>
    rw [List.cons_append, get_cons, get_cons, ih]
    split <;> rfl

theorem get_insert_of_ne (fields : Fields) (value : Value) (h : key ≠ key') :
    (fields.insert key' value).get key = fields.get key := by
  have hmap : get (fields.map fun f => if f.1 = key' then (key', value) else f) key = fields.get key := by
    induction fields with
    | nil => rfl
    | cons f fields ih =>
      rw [List.map_cons, get_cons, get_cons, ih]
      by_cases e : f.1 = key'
      · rw [if_pos e, if_neg h, if_neg (e ▸ h)]
      · rw [if_neg e]
  unfold insert
  split
  · exact hmap
  · rw [get_append, get_cons, if_neg h]
    simp

theorem insert_of_notContains (h : fields.contains key = false) (value : Value) :
    fields.insert key value = fields ++ [(key, value)] := by
  simp only [contains] at h
  simp [insert, h]

theorem get_insertSome_of_ne (fields : Fields) (value : Option Value) (h : key ≠ key') :
    (fields.insertSome key' value).get key = fields.get key := by
  cases value with
  | none => rfl
  | some value => exact fields.get_insert_of_ne value h

@[simp] theorem get_put_of_ne (fields : Fields) (value : Value) (h : key ≠ key') :
    (fields.put key' value).get key = fields.get key := by
  induction fields with
  | nil => rfl
  | cons f fields ih =>
    unfold put
    by_cases e : f.1 = key'
    · rw [if_pos e, get_cons, get_cons, e, if_neg h, if_neg h]
    · rw [if_neg e, get_cons, get_cons, ih]

theorem get_put_self {value : Value} (h : fields.get key = some value) (value' : Value) :
    (fields.put key value').get key = some value' := by
  induction fields with
  | nil => cases h
  | cons f fields ih =>
    unfold put
    by_cases e : f.1 = key
    · simp [e, get_cons]
    · rw [get_cons, if_neg (Ne.symm e)] at h
      simp [e, get_cons, Ne.symm e, ih h]

theorem put_self {value : Value} (h : fields.get key = some value) : fields.put key value = fields := by
  induction fields with
  | nil => rfl
  | cons f fields ih =>
    unfold put
    by_cases e : f.1 = key
    · simp only [get_cons, e, if_true, Option.some.injEq] at h ⊢
      rw [← h, ← e]
    · rw [get_cons, if_neg (Ne.symm e)] at h
      rw [if_neg e, ih h]

@[simp] theorem put_put (fields : Fields) (key : String) (value value' : Value) :
    (fields.put key value).put key value' = fields.put key value' := by
  induction fields with
  | nil => rfl
  | cons f fields ih => by_cases e : f.1 = key <;> simp [put, e, ih]

@[simp] theorem get_putSome_of_ne (fields : Fields) (value : Option Value) (h : key ≠ key') :
    (fields.putSome key' value).get key = fields.get key := by
  cases value <;> simp [putSome, h]

theorem get_putSome_map (fields : Fields) (key : String) (f : Value → Value) :
    (fields.putSome key ((fields.get key).map f)).get key = (fields.get key).map f := by
  cases h : fields.get key with
  | none => simpa [putSome] using h
  | some value => exact get_put_self h _

theorem put_append_of_none (h : fields.get key = none) (fields' : Fields) (value : Value) :
    put (fields ++ fields') key value = fields ++ put fields' key value := by
  induction fields with
  | nil => rfl
  | cons f fields ih =>
    rw [get_cons] at h
    by_cases e : key = f.1
    · simp [e] at h
    · simp only [e, if_false] at h
      simp [put, Ne.symm e, ih h]

theorem get_remove_of_ne (fields : Fields) (h : key ≠ key') : (fields.remove key').get key = fields.get key := by
  unfold remove
  induction fields with
  | nil => rfl
  | cons f fields ih =>
    by_cases e : f.1 = key'
    · rw [List.filter_cons_of_neg (by simp [e]), get_cons, if_neg (by rw [e]; exact h), ih]
    · rw [List.filter_cons_of_pos (by simp [e]), get_cons, get_cons, ih]

end Fields

namespace Value

def get (value : Value) (key : String) : Option Value :=
  match value with
  | .object fields => Fields.get fields key
  | _ => none

/-- `value[key]`: `null` where there is no such field. -/
def field (value : Value) (key : String) : Value := (value.get key).getD .null

def asStr : Value → Option String
  | .string s => some s
  | _ => none

def asBool : Value → Option Bool
  | .bool b => some b
  | _ => none

def asArray : Value → Option (List Value)
  | .array items => some items
  | _ => none

def asObject : Value → Option Fields
  | .object fields => some fields
  | _ => none

def asU64 : Value → Option Nat
  | .number (.int n) => if 0 ≤ n ∧ n < 2 ^ 64 then some n.toNat else none
  | _ => none

def isNull : Value → Bool
  | .null => true
  | _ => false

def isObject : Value → Bool
  | .object _ => true
  | _ => false

/-- `value[key] == text`. -/
def fieldIs (value : Value) (key text : String) : Bool := (value.field key).asStr = some text

/-- `value[key] = v` on an object. -/
def setField (value : Value) (key : String) (v : Value) : Value :=
  match value with
  | .object fields => .object (Fields.insert fields key v)
  | value => value

def put (value : Value) (key : String) (v : Value) : Value :=
  match value with
  | .object fields => .object (Fields.put fields key v)
  | value => value

def ofOption {α : Type} (f : α → Value) : Option α → Value
  | some a => f a
  | none => .null

def nat (n : Nat) : Value := .number (.int n)

variable {key key' : String}

@[simp] theorem field_put (h : key ≠ key') (fields : Fields) (v : Value) :
    (object (fields.put key' v)).field key = (object fields).field key := by
  simp [field, get, h]

@[simp] theorem fieldIs_put (h : key ≠ key') (fields : Fields) (v : Value) (text : String) :
    (object (fields.put key' v)).fieldIs key text = (object fields).fieldIs key text := by
  unfold fieldIs
  rw [field_put h]

@[simp] theorem put_put (value : Value) (key : String) (v v' : Value) :
    (value.put key v).put key v' = value.put key v' := by
  cases value <;> simp [put]

theorem fieldIs_of_ne {value : Value} {text text' : String} (h : value.fieldIs key text = true)
    (hne : text ≠ text') : value.fieldIs key text' = false := by
  simp_all [fieldIs]

theorem fieldIs_of_none {fields : Fields} (h : fields.get key = none) (text : String) :
    (object fields).fieldIs key text = false := by
  simp [fieldIs, field, get, h, asStr]

theorem induct {P : Value → Prop} (null : P .null) (bool : ∀ b, P (.bool b)) (number : ∀ n, P (.number n))
    (string : ∀ s, P (.string s)) (array : ∀ items, (∀ v ∈ items, P v) → P (.array items))
    (object : ∀ fields, (∀ f ∈ fields, P f.2) → P (.object fields)) : ∀ v, P v := by
  -- The recursor of the nested type has a motive for the lists and pairs as well.
  refine @Value.rec P (fun items => ∀ v ∈ items, P v) (fun fields => ∀ f ∈ fields, P f.2) (fun f => P f.2)
    null bool number string array object ?_ ?_ ?_ ?_ ?_
  · simp
  · intro v items hv hitems
    exact List.forall_mem_cons.mpr ⟨hv, hitems⟩
  · simp
  · intro f fields hf hfields
    exact List.forall_mem_cons.mpr ⟨hf, hfields⟩
  · intro key value hv
    exact hv

end Value
