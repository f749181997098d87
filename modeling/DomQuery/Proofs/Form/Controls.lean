import DomQuery.Form.Input
import DomQuery.Proofs.Tree.Walk

/-!
# Controls by their names

What is known of an element from its name, and of a control from its type.
-/

namespace DomQuery

open DomQuery.Tree

variable {ν : Type} {t : Links ν} {n : ν}

namespace Tree.Links

theorem isElement_of_isHtmlNamed {name : String} (h : t.isHtmlNamed n name = true) :
    t.isElement n = true := by
  rw [isHtmlNamed, Bool.and_eq_true, Bool.and_eq_true] at h
  exact h.1.1

theorem isHtmlElement_of_isHtmlNamed {name : String} (h : t.isHtmlNamed n name = true) :
    t.isHtmlElement n = true := by
  rw [isHtmlNamed, Bool.and_eq_true, Bool.and_eq_true] at h
  exact h.1.2

theorem localName_of_isHtmlNamed {name : String} (h : t.isHtmlNamed n name = true) :
    t.localName n = name := by
  rw [isHtmlNamed, Bool.and_eq_true, beq_iff_eq] at h
  exact h.2

/-- An element has one name. -/
theorem isHtmlNamed_of_ne {name name' : String} (h : t.isHtmlNamed n name = true)
    (hne : name ≠ name') : t.isHtmlNamed n name' = false := by
  rw [isHtmlNamed, localName_of_isHtmlNamed h, beq_false_of_ne hne, Bool.and_false]

end Tree.Links

namespace Form

/-- What has a type is an input. -/
theorem isHtmlNamed_of_inputType? {type : InputType} (h : inputType? t n = some type) :
    t.isHtmlNamed n "input" = true := by
  rw [inputType?] at h
  split at h
  · assumption
  · cases h

/-- A submit button is a button, or an input of one of two types. -/
theorem isSubmitButton_cases (h : isSubmitButton t n = true) :
    (t.isHtmlNamed n "button" = true ∧ inputType? t n = none) ∨
      inputType? t n = some .submit ∨ inputType? t n = some .image := by
  rw [isSubmitButton] at h
  split at h
  · rename_i hbutton
    refine .inl ⟨hbutton, if_neg ?_⟩
    rw [Links.isHtmlNamed_of_ne hbutton (by decide)]
    exact Bool.false_ne_true
  · split at h
    · exact .inr (.inl ‹_›)
    · exact .inr (.inr ‹_›)
    · cases h

theorem isElement_of_isSubmitButton (h : isSubmitButton t n = true) : t.isElement n = true := by
  rcases isSubmitButton_cases h with ⟨hbutton, -⟩ | htype | htype
  · exact Links.isElement_of_isHtmlNamed hbutton
  · exact Links.isElement_of_isHtmlNamed (isHtmlNamed_of_inputType? htype)
  · exact Links.isElement_of_isHtmlNamed (isHtmlNamed_of_inputType? htype)

end Form

end DomQuery
