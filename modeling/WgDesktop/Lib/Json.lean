import Mathlib.Data.Rat.Defs
import Mathlib.Data.String.Basic
import Mathlib.Algebra.Group.Int.Defs

/-!
# JSON values

JSON documents with the access functions of a dynamically typed reader: a field that is not there
is `undefined`, and each conversion has a default for values of another type. Objects are lists of
fields in key order. `value_insert` and `contains_insert` are what readers of an object built by
insertions need; `foldl_insert` says that inserting the fields of a sorted object one by one gives
that object back.
-/

/-- A JSON value, or `undefined` for a missing one. -/
inductive Json where
  | undefined
  | null
  | bool (b : Bool)
  | num (n : ℚ)
  | str (s : List Char)
  | arr (values : List Json)
  | obj (fields : List (String × Json))

namespace Json

/-! ## Objects -/

/-- The fields of an object, in key order. -/
abbrev Object := List (String × Json)

namespace Object

/-- Adds a field, or replaces its value. -/
def insert (o : Object) (key : String) (v : Json) : Object :=
  match o with
  | [] => [(key, v)]
  | (k, w) :: rest =>
    if key = k then (key, v) :: rest
    else if key < k then (key, v) :: (k, w) :: rest
    else (k, w) :: insert rest key v

/-- The value of a field, `undefined` if there is none. -/
def value (o : Object) (key : String) : Json := ((o.find? (·.1 = key)).map (·.2)).getD .undefined

def contains (o : Object) (key : String) : Bool := (o.find? (·.1 = key)).isSome

theorem find?_insert (o : Object) (key key' : String) (v : Json) :
    (o.insert key v).find? (·.1 = key') =
      if key' = key then some (key, v) else o.find? (·.1 = key') := by
  induction o with
  | nil =>
    by_cases h : key' = key
    · simp [insert, h]
    · have h' : ¬ key = key' := fun heq => h heq.symm
      simp [insert, h, h']
  | cons field rest ih =>
    obtain ⟨k, w⟩ := field
    by_cases h : key' = key
    · subst h
      by_cases hk : key' = k
      · simp [insert, hk]
      · by_cases hlt : key' < k
        · simp [insert, hk, hlt]
        · have hk' : ¬ k = key' := fun heq => hk heq.symm
          rw [insert, if_neg hk, if_neg hlt, List.find?_cons, ih]
          simp [hk']
    · have h' : ¬ key = key' := fun heq => h heq.symm
      by_cases hk : key = k
      · subst hk
        simp [insert, h, h']
      · by_cases hlt : key < k
        · simp [insert, hk, hlt, h, List.find?_cons, h']
        · rw [insert, if_neg hk, if_neg hlt, List.find?_cons, ih, List.find?_cons]
          simp [h]

@[simp] theorem value_insert (o : Object) (key key' : String) (v : Json) :
    (o.insert key v).value key' = if key' = key then v else o.value key' := by
  rw [value, find?_insert]
  split_ifs
  · rfl
  · rfl

@[simp] theorem contains_insert (o : Object) (key key' : String) (v : Json) :
    (o.insert key v).contains key' = (decide (key' = key) || o.contains key') := by
  rw [contains, find?_insert, contains]
  by_cases h : key' = key
  · simp [h]
  · simp [h]

/-- The fields stand in the order of their keys, each key once. -/
def Sorted (o : Object) : Prop := o.Pairwise (·.1 < ·.1)

theorem mem_insert {o : Object} {key : String} {v : Json} {field : String × Json}
    (h : field ∈ o.insert key v) : field = (key, v) ∨ field ∈ o := by
  induction o with
  | nil => exact .inl (by simpa [insert] using h)
  | cons head rest ih =>
    obtain ⟨k, w⟩ := head
    rw [insert] at h
    split_ifs at h
    · rcases List.mem_cons.1 h with h | h
      · exact .inl h
      · exact .inr (by simp [h])
    · rcases List.mem_cons.1 h with h | h
      · exact .inl h
      · exact .inr h
    · rcases List.mem_cons.1 h with h | h
      · exact .inr (by simp [h])
      · rcases ih h with h | h
        · exact .inl h
        · exact .inr (by simp [h])

theorem Sorted.insert {o : Object} (h : o.Sorted) (key : String) (v : Json) :
    (o.insert key v).Sorted := by
  induction o with
  | nil => simp [Object.insert, Sorted]
  | cons head rest ih =>
    obtain ⟨k, w⟩ := head
    obtain ⟨hhead, hrest⟩ := List.pairwise_cons.1 h
    rw [Object.insert]
    by_cases heq : key = k
    · rw [if_pos heq, heq]
      exact List.pairwise_cons.2 ⟨hhead, hrest⟩
    · by_cases hlt : key < k
      · rw [if_neg heq, if_pos hlt]
        refine List.pairwise_cons.2 ⟨fun field hfield => ?_, h⟩
        rcases List.mem_cons.1 hfield with rfl | hfield
        · exact hlt
        · exact hlt.trans (hhead field hfield)
      · rw [if_neg heq, if_neg hlt]
        refine List.pairwise_cons.2 ⟨fun field hfield => ?_, ih hrest⟩
        rcases mem_insert hfield with rfl | hfield
        · exact lt_of_le_of_ne (not_lt.1 hlt) fun hk => heq hk.symm
        · exact hhead field hfield

theorem insert_of_lt {o : Object} {key : String} (h : ∀ field ∈ o, field.1 < key) (v : Json) :
    o.insert key v = o ++ [(key, v)] := by
  induction o with
  | nil => rfl
  | cons head rest ih =>
    obtain ⟨k, w⟩ := head
    have hk : k < key := h (k, w) (by simp)
    rw [insert, if_neg hk.ne', if_neg hk.asymm, ih fun field hfield => h field (by simp [hfield])]
    rfl

/-- Inserting the fields of a sorted object one after the other, behind those already there. -/
theorem foldl_insert {o rest : Object} (h : (o ++ rest).Sorted) :
    rest.foldl (fun acc field => acc.insert field.1 field.2) o = o ++ rest := by
  induction rest generalizing o with
  | nil => simp
  | cons field rest ih =>
    have hlt : ∀ f ∈ o, f.1 < field.1 := fun f hf =>
      (List.pairwise_append.1 h).2.2 f hf field (by simp)
    rw [List.foldl_cons, insert_of_lt hlt, ih (by simpa using h)]
    simp

@[simp] theorem value_nil (key : String) : value [] key = .undefined := rfl

@[simp] theorem contains_nil (key : String) : contains [] key = false := rfl

end Object

/-! ## Conversions -/

def isString : Json → Bool
  | str _ => true
  | _ => false

def isDouble : Json → Bool
  | num _ => true
  | _ => false

def isBool : Json → Bool
  | bool _ => true
  | _ => false

def isArray : Json → Bool
  | arr _ => true
  | _ => false

def isObject : Json → Bool
  | obj _ => true
  | _ => false

/-- The text of a string value. -/
def toString? : Json → Option (List Char)
  | str s => some s
  | _ => none

/-- The text of a string value, empty for other values. -/
def text : Json → List Char
  | str s => s
  | _ => []

def toArray : Json → List Json
  | arr values => values
  | _ => []

def toObject : Json → Object
  | obj fields => fields
  | _ => []

/-- The number, zero for other values. -/
def toDouble : Json → ℚ
  | num n => n
  | _ => 0

/-- The number if it is an integer that fits 32 bits, zero otherwise. -/
def toInt : Json → ℤ
  | num n => if n.den = 1 ∧ -2147483648 ≤ n.num ∧ n.num ≤ 2147483647 then n.num else 0
  | _ => 0

/-- The number if it is an integer that fits 64 bits, zero otherwise. -/
def toInteger : Json → ℤ
  | num n => if n.den = 1 ∧ -2 ^ 63 ≤ n.num ∧ n.num < 2 ^ 63 then n.num else 0
  | _ => 0

end Json
