import EventModel.Diagram.Basic

/-!
# Indexes

An index has elements under keys of theirs, in the order in which the keys came up.  Of several
elements with the same key, it has the one that came first.
-/

namespace EventModel

/-- Elements under their keys. -/
structure Index {κ : Type} (key : Element → κ) where
  elements : List Element
  distinct : elements.Pairwise fun a b => key a ≠ key b

namespace Index

variable {κ : Type} [BEq κ] [LawfulBEq κ] {key : Element → κ}

/-- The index without elements. -/
def empty : Index key := ⟨[], .nil⟩

/-- The element under a key. -/
def get? (index : Index key) (k : κ) : Option Element := index.elements.find? (key · == k)

/-- Puts an element under its key, unless there is one already. -/
def insertNew (index : Index key) (e : Element) : Index key :=
  if h : (index.get? (key e)).isSome then index
  else
    { elements := index.elements ++ [e]
      distinct := by
        refine List.pairwise_append.2 ⟨index.distinct, List.pairwise_singleton _ _, ?_⟩
        intro a ha b hb heq
        rw [List.mem_singleton.1 hb] at heq
        exact h (List.find?_isSome.2 ⟨a, ha, beq_iff_eq.2 heq⟩) }

/-- The index of some elements. -/
def ofElements (key : Element → κ) (elements : List Element) : Index key :=
  elements.foldl insertNew empty

end Index

/-- The elements of a diagram under their ids. -/
def Diagram.byId (d : Diagram) : Index Element.id := .ofElements Element.id d.elements

end EventModel
