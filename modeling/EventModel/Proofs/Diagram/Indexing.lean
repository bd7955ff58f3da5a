import EventModel.Diagram.Index
import EventModel.Proofs.Lists

/-!
# What indexes find

An index has of all elements with a key the first, so a look-up in it comes to a search through
the elements from the start (`get?_ofElements`).
-/

namespace EventModel

namespace Index

variable {κ : Type} [BEq κ] [LawfulBEq κ] {key : Element → κ}

theorem elements_insertNew (index : Index key) (e : Element) :
    (index.insertNew e).elements =
      if index.elements.any (key e == key ·) then index.elements else index.elements ++ [e] := by
  have hfound : (index.get? (key e)).isSome = index.elements.any (key e == key ·) := by
    rw [get?, List.isSome_find?]
    simp only [BEq.comm]
  rw [insertNew]
  split
  · rename_i h
    rw [if_pos (hfound ▸ h)]
  · rename_i h
    rw [if_neg (hfound ▸ h)]

/-- Elements whose key came up before are left out. -/
theorem elements_ofElements (elements : List Element) :
    (ofElements key elements).elements = elements.eraseDupsBy fun a b => key a == key b := by
  induction elements using List.reverseRecOn with
  | nil => rfl
  | append_singleton elements e ih =>
      rw [ofElements, List.foldl_concat, ← ofElements, elements_insertNew, ih,
        List.eraseDupsBy, List.eraseDupsBy, eraseDupsBy_loop_concat]

theorem get?_ofElements (elements : List Element) (k : κ) :
    (ofElements key elements).get? k = elements.find? (key · == k) := by
  rw [get?, elements_ofElements, find?_eraseDupsBy_key]

end Index

@[simp] theorem Diagram.get?_byId (d : Diagram) (id : ElementId) :
    d.byId.get? id = d.element? id :=
  Index.get?_ofElements d.elements id

end EventModel
