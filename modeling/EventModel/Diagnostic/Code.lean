/-!
# Diagnostic codes

Every problem has a code.  The code alone decides to which category the problem belongs and
how severe it is: what cannot be read is an error, and a broken rule is a warning.
-/

namespace EventModel

/-- How a problem is to be taken. -/
inductive Severity
  | warning
  | error
deriving DecidableEq, Repr

/-- The word for a severity. -/
def Severity.text : Severity → String
  | .warning => "warning"
  | .error => "error"

/-- The part of the language or the family of rules that a problem is about. -/
inductive Category
  | grammar
  | positioning
  | flowType
  | composition
deriving DecidableEq, Repr

/-- The name of a category. -/
def Category.text : Category → String
  | .grammar => "syntax"
  | .positioning => "positioning"
  | .flowType => "flow-type"
  | .composition => "slice-composition"

/-- What a diagnostic is about. -/
inductive Code
  | unknownDirective
  | invalidDescription
  | invalidLevel
  | tooFewFields
  | nonNumericId
  | coordinateFormat
  | nonNumericCoordinates
  | textWithoutElement
  | unknownSliceKind
  | sliceWithoutColumns
  | invalidFlow
  | duplicateId
  | rowConvention
  | sharedPosition
  | branchGap
  | unrecognizedKind
  | flowNotAllowed
  | screenToAutomation
  | invalidBackFlow
  | incompleteSlice
deriving DecidableEq, Repr

namespace Code

/-- All codes, by number. -/
def all : List Code :=
  [unknownDirective, invalidDescription, invalidLevel, tooFewFields, nonNumericId,
   coordinateFormat, nonNumericCoordinates, textWithoutElement, unknownSliceKind,
   sliceWithoutColumns, invalidFlow, duplicateId, rowConvention, sharedPosition, branchGap,
   unrecognizedKind, flowNotAllowed, screenToAutomation, invalidBackFlow, incompleteSlice]

/-- The number of a code; its first digit stands for the category. -/
def text : Code → String
  | unknownDirective => "E001"
  | invalidDescription => "E002"
  | invalidLevel => "E003"
  | tooFewFields => "E004"
  | nonNumericId => "E005"
  | coordinateFormat => "E006"
  | nonNumericCoordinates => "E007"
  | textWithoutElement => "E008"
  | unknownSliceKind => "E009"
  | sliceWithoutColumns => "E010"
  | invalidFlow => "E011"
  | duplicateId => "E012"
  | rowConvention => "E100"
  | sharedPosition => "E101"
  | branchGap => "E102"
  | unrecognizedKind => "E103"
  | flowNotAllowed => "E200"
  | screenToAutomation => "E201"
  | invalidBackFlow => "E202"
  | incompleteSlice => "E300"

/-- A few words on what the code means. -/
def description : Code → String
  | unknownDirective => "unknown directive"
  | invalidDescription => "invalid description"
  | invalidLevel => "invalid level"
  | tooFewFields => "too few fields"
  | nonNumericId => "non-numeric element id"
  | coordinateFormat => "invalid coordinate format"
  | nonNumericCoordinates => "non-numeric coordinates"
  | textWithoutElement => "text without element"
  | unknownSliceKind => "unknown slice type"
  | sliceWithoutColumns => "slice without columns"
  | invalidFlow => "invalid flow syntax"
  | duplicateId => "duplicate element id"
  | rowConvention => "row convention violated"
  | sharedPosition => "shared position"
  | branchGap => "branch column gap"
  | unrecognizedKind => "unrecognized element type"
  | flowNotAllowed => "flow not allowed"
  | screenToAutomation => "screen linked to automation"
  | invalidBackFlow => "invalid back flow"
  | incompleteSlice => "incomplete slice"

/-- The category of a code. -/
def category : Code → Category
  | rowConvention | sharedPosition | branchGap | unrecognizedKind => .positioning
  | flowNotAllowed | screenToAutomation | invalidBackFlow => .flowType
  | incompleteSlice => .composition
  | _ => .grammar

/-- Problems of grammar are errors and broken rules are warnings. -/
def severity (c : Code) : Severity :=
  match c.category with
  | .grammar => .error
  | .positioning | .flowType | .composition => .warning

/-- The code with a given number. -/
def ofText? (text : String) : Option Code := all.find? fun c => c.text == text

theorem severity_eq_error_iff (c : Code) : c.severity = .error ↔ c.category = .grammar := by
  cases c <;> decide

end Code

end EventModel
