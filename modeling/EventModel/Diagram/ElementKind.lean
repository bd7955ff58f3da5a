import EventModel.Text.Blank

/-!
# Kinds of element

There are six kinds of element.  How a kind is spelt matters little: case, underscores and
white space are ignored, and a screen may also be called a UI.
-/

namespace EventModel

/-- What an element stands for. -/
inductive ElementKind
  | screen
  | command
  | event
  | externalEvent
  | readModel
  | automation
deriving DecidableEq, Repr

namespace ElementKind

/-- All kinds. -/
def all : List ElementKind := [screen, command, event, externalEvent, readModel, automation]

/-- The canonical name of a kind. -/
def name : ElementKind → String
  | screen => "Screen"
  | command => "Command"
  | event => "Event"
  | externalEvent => "ExternalEvent"
  | readModel => "ReadModel"
  | automation => "Automation"

/-- Kinds that trigger commands. -/
def isTrigger : ElementKind → Bool
  | screen | automation => true
  | _ => false

/-- The normal form of the spelling of a kind. -/
def normalize (text : List Char) : List Char :=
  (text.filter fun c => c != '_' && !Text.isBlank c).map Char.toLower

/-- The normal forms under which a kind is known. -/
def spellings : ElementKind → List String
  | screen => ["screen", "ui"]
  | command => ["command"]
  | event => ["event"]
  | externalEvent => ["externalevent"]
  | readModel => ["readmodel"]
  | automation => ["automation"]

/-- The kind that a text names, if any. -/
def ofText? (text : String) : Option ElementKind :=
  all.find? fun kind => kind.spellings.contains (String.ofList (normalize text.toList))

/-- No spelling belongs to two kinds. -/
theorem spellings_disjoint {a b : ElementKind} {word : String}
    (ha : word ∈ a.spellings) (hb : word ∈ b.spellings) : a = b := by
  cases a <;> cases b <;> simp_all [spellings]

end ElementKind

end EventModel
