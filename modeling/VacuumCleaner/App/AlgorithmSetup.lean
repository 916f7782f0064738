import VacuumCleaner.App.ApiModels
import VacuumCleaner.Lib.Fallible
import VacuumCleaner.Lib.Json

/-! The screen on which the app shows the arguments of an algorithm and sets them. -/
namespace VacuumCleaner.App.AlgorithmSetup

open Lib Lib.Json Lib.Numeral ApiModels

/-- What stands in the view of an argument. -/
inductive View
  | switch (isChecked : Bool)
  | input (text : List Char)
  | choice (text : List Char)
  deriving DecidableEq, Repr

/-- The value of an `ArgumentValue`. -/
inductive Argument (F : Type)
  | bool (value : Bool)
  | int (value : Int)
  | float (value : F)
  | text (value : List Char)

structure AlgorithmScript where
  name : List Char
  description : List Char
  parameters : List AlgorithmParameter

structure AlgorithmList where
  currentAlgorithmName : List Char
  algorithms : List AlgorithmScript

/-- `Double.toInt`, towards zero and no further than an `Int` goes. -/
def doubleToInt (x : Decimal) : Int :=
  max (-0x80000000) (min 0x7FFFFFFF (x.value.num.tdiv x.value.den))

def intText (number : Int) : List Char := (Number.int number).str

def asDouble : Any → Except Raised Decimal
  | .double value => .ok value
  | _ => .error .classCast

section Screen

variable {F : Type} (kotlin : Kotlin F) (floatText : F → List Char)

def addSwitchView (argument : AlgorithmParameter) : Except Raised View := do
  return .switch (← argument.currentValue.asBoolean)

def addRangeView (argument : AlgorithmParameter) : Except Raised View := do
  return .input (intText (doubleToInt (← asDouble argument.currentValue)))

def addChoiceView (argument : AlgorithmParameter) : Except Raised View := do
  return .choice (← argument.currentValue.asString)

def addEditTextView (argument : AlgorithmParameter) : Except Raised View := do
  match ← argument.getType kotlin with
  | .text value _ => return .input value
  | .integer value _ => return .input (intText value)
  | .floating value _ => return .input (floatText value)
  | _ => throw .illegalState

def generateParameter (argument : AlgorithmParameter) : Except Raised View := do
  match ← argument.getType kotlin with
  | .floating .. | .integer .. | .text .. => addEditTextView kotlin floatText argument
  | .intRange .. => addRangeView argument
  | .textChoice .. => addChoiceView argument
  | .bool .. => addSwitchView argument

/-- `argumentsViews`: the first parameter that raises ends the loop. -/
def generateParameters : List AlgorithmParameter → List (AlgorithmParameter × View)
  | [] => []
  | argument :: arguments =>
    match generateParameter kotlin floatText argument with
    | .ok view => (argument, view) :: generateParameters arguments
    | .error _ => []

/-- The screen of the algorithm with a name, none before it is found. -/
def setAlgorithm (algorithms : AlgorithmList) (name : List Char) :
    Option (List (AlgorithmParameter × View)) :=
  (algorithms.algorithms.find? (·.name == name)).map fun script =>
    generateParameters kotlin floatText script.parameters

def toFloat (text : List Char) : Except Raised F :=
  match kotlin.toFloat text with
  | some number => .ok number
  | none => .error .numberFormat

/-- The binding of a view is cast to that of its parameter. -/
def argumentValue (entry : AlgorithmParameter × View) :
    Except Raised (List Char × Argument F) := do
  let value ← match ← entry.1.getType kotlin, entry.2 with
    | .bool .., .switch isChecked => pure (.bool isChecked)
    | .floating .., .input text => Argument.float <$> toFloat kotlin text
    | .intRange .., .input text => Argument.int <$> toInt kotlin text
    | .integer .., .input text => Argument.int <$> toInt kotlin text
    | .text .., .input text => pure (.text text)
    | .textChoice .., .choice text => pure (.text text)
    | _, _ => throw .classCast
  return (entry.1.name, value)

/-- The entries come in the order of the hash map. -/
def onApply (entries : List (AlgorithmParameter × View)) :
    Except Raised (List (List Char × Argument F)) :=
  entries.mapM (argumentValue kotlin)

variable {kotlin floatText}

theorem generateParameters_map {ι : Type*} {items : List ι} {argument : ι → AlgorithmParameter}
    {view : ι → View}
    (h : ∀ item ∈ items, generateParameter kotlin floatText (argument item) = .ok (view item)) :
    generateParameters kotlin floatText (items.map argument) =
      items.map fun item => (argument item, view item) := by
  induction items with
  | nil => rfl
  | cons item items ih =>
    rw [List.forall_mem_cons] at h
    rw [List.map_cons, generateParameters, h.1, List.map_cons, ih h.2]

end Screen

end VacuumCleaner.App.AlgorithmSetup
