import VacuumCleaner.Lib.Numeral

/-! JSON as Python's `json` module reads it: a value is what `loads` returns. -/
namespace VacuumCleaner.Lib.Json

open Numeral

/-- A float as Python prints it. -/
inductive PyFloat
  | finite (value : Decimal)
  | infinity (negative : Bool)
  | nan
  deriving DecidableEq

inductive Number
  | int (value : Int)
  | float (value : PyFloat)
  deriving DecidableEq

inductive Value
  | null
  | bool (value : Bool)
  | number (value : Number)
  | string (text : List Char)
  | array (items : List Value)
  | object (members : List (List Char × Value))

/-- A dictionary in insertion order. -/
abbrev Members := List (List Char × Value)

def PyFloat.str : PyFloat → List Char
  | .finite value => value.repr
  | .infinity negative => (if negative then ['-'] else []) ++ ['i', 'n', 'f']
  | .nan => ['n', 'a', 'n']

/-- `str` of a number, which is also how an f-string shows it. -/
def Number.str : Number → List Char
  | .int value => (toString value).toList
  | .float value => value.str

def Number.isZero : Number → Bool
  | .int value => value == 0
  | .float (.finite value) => value.digits.all (· == digit 0)
  | .float _ => false

/-- The truth value of an `if`. -/
def Value.isTruthy : Value → Bool
  | .null => false
  | .bool value => value
  | .number value => !value.isZero
  | .string text => !text.isEmpty
  | .array items => !items.isEmpty
  | .object members => !members.isEmpty

def getItem (key : List Char) (members : Members) : Option Value :=
  (members.find? (·.1 = key)).map Prod.snd

/-- Assignment to a key: in place when the key is there. -/
def setItem (key : List Char) (value : Value) : Members → Members
  | [] => [(key, value)]
  | (other, old) :: members =>
    if other = key then (key, value) :: members else (other, old) :: setItem key value members

@[simp] theorem getItem_setItem_self (key : List Char) (value : Value) (members : Members) :
    getItem key (setItem key value members) = some value := by
  induction members with
  | nil => simp [setItem, getItem]
  | cons entry members ih =>
    obtain ⟨other, old⟩ := entry
    unfold setItem
    split
    · simp [getItem]
    · rename_i hother
      unfold getItem at ih ⊢
      rw [List.find?_cons_of_neg (by simpa using hother), ih]

theorem getItem_setItem_of_ne {key other : List Char} (hne : other ≠ key) (value : Value)
    (members : Members) : getItem other (setItem key value members) = getItem other members := by
  unfold getItem
  induction members with
  | nil => simp [setItem, Ne.symm hne]
  | cons entry members ih =>
    obtain ⟨first, old⟩ := entry
    unfold setItem
    by_cases hfirst : first = key
    · subst hfirst
      simp [Ne.symm hne]
    · rw [if_neg hfirst]
      by_cases hother : first = other
      · simp [hother]
      · simp [hother, ih]

end VacuumCleaner.Lib.Json
