import Mathlib

/-!
# Parsed JSON

A parsed document as the runtime holds it, and what the runtime makes of a value where another
type is expected: `String(v)`, a number to compare with, a property of it. Two documents have the
same text exactly if they are the same tree, so a comparison of texts is an equality here.
-/

/-- A document. Properties keep their order; a key occurs once. -/
inductive JsonTree
  | null
  | bool (b : Bool)
  | num (x : ℚ)
  | str (s : String)
  | arr (items : List JsonTree)
  | obj (props : List (String × JsonTree))
  deriving Repr

namespace JsonTree

mutual

def decEq : (a b : JsonTree) → Decidable (a = b)
  | .null, .null => isTrue rfl
  | .bool a, .bool b => decidable_of_iff (a = b) (by simp)
  | .num a, .num b => decidable_of_iff (a = b) (by simp)
  | .str a, .str b => decidable_of_iff (a = b) (by simp)
  | .arr a, .arr b =>
    have := decEqItems a b
    decidable_of_iff (a = b) (by simp)
  | .obj a, .obj b =>
    have := decEqProps a b
    decidable_of_iff (a = b) (by simp)
  | .null, .bool _ | .null, .num _ | .null, .str _ | .null, .arr _ | .null, .obj _
  | .bool _, .null | .bool _, .num _ | .bool _, .str _ | .bool _, .arr _ | .bool _, .obj _
  | .num _, .null | .num _, .bool _ | .num _, .str _ | .num _, .arr _ | .num _, .obj _
  | .str _, .null | .str _, .bool _ | .str _, .num _ | .str _, .arr _ | .str _, .obj _
  | .arr _, .null | .arr _, .bool _ | .arr _, .num _ | .arr _, .str _ | .arr _, .obj _
  | .obj _, .null | .obj _, .bool _ | .obj _, .num _ | .obj _, .str _ | .obj _, .arr _ =>
    isFalse nofun

def decEqItems : (a b : List JsonTree) → Decidable (a = b)
  | [], [] => isTrue rfl
  | [], _ :: _ | _ :: _, [] => isFalse nofun
  | x :: xs, y :: ys =>
    have := decEq x y
    have := decEqItems xs ys
    decidable_of_iff (x = y ∧ xs = ys) (by simp)

def decEqProps : (a b : List (String × JsonTree)) → Decidable (a = b)
  | [], [] => isTrue rfl
  | [], _ :: _ | _ :: _, [] => isFalse nofun
  | (k, x) :: xs, (l, y) :: ys =>
    have := decEq x y
    have := decEqProps xs ys
    decidable_of_iff ((k = l ∧ x = y) ∧ xs = ys) (by simp)

end

instance : DecidableEq JsonTree := decEq

/-- `v[key]` of a key that only objects have. -/
def get : JsonTree → String → Option JsonTree
  | .obj props, key => (props.find? (·.1 == key)).map (·.2)
  | _, _ => none

/-- `v[i]` of a value that counts as true. -/
def index : JsonTree → ℕ → Option JsonTree
  | .arr items, i => items[i]?
  | .obj props, i => get (.obj props) i.repr
  | .str s, i => s.toList[i]?.map fun c => .str c.toString
  | _, _ => none

/-- Whether `v` counts as true in a condition. -/
def truthy : JsonTree → Bool
  | .null => false
  | .bool b => b
  | .num x => x ≠ 0
  | .str s => s ≠ ""
  | .arr _ | .obj _ => true

def isPrimitive : JsonTree → Bool
  | .arr _ | .obj _ => false
  | _ => true

/-- `{ ...v, [key]: value }`. -/
def set (v : JsonTree) (key : String) (value : JsonTree) : JsonTree :=
  match v with
  | .obj props =>
    if props.any (·.1 == key) then
      .obj (props.map fun p => if p.1 == key then (key, value) else p)
    else .obj (props ++ [(key, value)])
  | _ => .obj [(key, value)]

theorem get_set_of_ne {key key' : String} (hne : key' ≠ key) (v value : JsonTree) :
    (v.set key value).get key' = v.get key' := by
  have hother : (key == key') = false := by simpa using Ne.symm hne
  cases v with
  | obj props =>
    have hmap : (props.map fun p => if p.1 == key then (key, value) else p).find? (·.1 == key') =
        props.find? (·.1 == key') := by
      induction props with
      | nil => rfl
      | cons q props ih =>
        rw [List.map_cons, List.find?_cons, List.find?_cons, ih]
        by_cases hq : (q.1 == key) = true
        · rw [if_pos hq, eq_of_beq hq, hother]
        · rw [if_neg hq]
    simp only [set]
    split_ifs
    · rw [get, hmap, get]
    · simp [get, List.find?_append, hother]
  | _ => simp [set, get, hother]

end JsonTree

/-- A number of the runtime. -/
inductive JsNumber
  | nan
  | finite (x : ℚ)
  | infinite (negative : Bool)
  deriving DecidableEq, Repr

/-- `a < b`. -/
def JsNumber.lt : JsNumber → JsNumber → Bool
  | .nan, _ | _, .nan => false
  | .finite x, .finite y => x < y
  | .finite _, .infinite negative => !negative
  | .infinite negative, .finite _ => negative
  | .infinite a, .infinite b => a && !b

/-- What the runtime's own conversions make of numbers and texts. -/
structure Runtime where
  /-- `String(x)` of a number. -/
  numberText : ℚ → String
  /-- `Number(s)` of a string. -/
  number : String → JsNumber
  /-- `Date.parse`, `none` for `NaN`. -/
  dateParse : String → Option ℤ

namespace Runtime

open JsonTree

variable (R : Runtime)

mutual

/-- `String(v)`, `none` if it throws: an object with a `toString` of its own is no text. -/
def text : JsonTree → Option String
  | .null => some "null"
  | .bool b => some (if b then "true" else "false")
  | .num x => some (R.numberText x)
  | .str s => some s
  | .arr items => (itemTexts items).map (String.intercalate ",")
  | .obj props => if props.any (·.1 == "toString") then none else some "[object Object]"

def itemTexts : List JsonTree → Option (List String)
  | [] => some []
  | .null :: items => (itemTexts items).map ("" :: ·)
  | v :: items => do
    let s ← text v
    let rest ← itemTexts items
    return s :: rest

end

/-- `String(v)` of a value that may be `undefined`. -/
def textOf (v : Option JsonTree) : Option String :=
  match v with
  | none => some "undefined"
  | some v => R.text v

/-- The number that a comparison with a number takes `v` for, `none` if it throws. -/
def toNumber : Option JsonTree → Option JsNumber
  | none => some .nan
  | some .null => some (.finite 0)
  | some (.bool b) => some (.finite (if b then 1 else 0))
  | some (.num x) => some (.finite x)
  | some (.str s) => some (R.number s)
  | some (.arr items) => (R.text (.arr items)).map R.number
  | some (.obj props) => (R.text (.obj props)).map R.number

end Runtime
