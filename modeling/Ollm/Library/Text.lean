import Mathlib.Data.List.Infix

/-!
# Suffixes of strings

Executable suffix tests on strings and the facts that make names built by
appending fixed endings distinguishable.
-/

namespace Text

def endsWith (text ending : String) : Bool :=
  ending.toList.isSuffixOf text.toList

theorem endsWith_iff {text ending : String} :
    endsWith text ending = true ↔ ∃ front, text = front ++ ending := by
  rw [endsWith, List.isSuffixOf_iff_suffix]
  constructor
  · rintro ⟨front, joined⟩
    refine ⟨String.ofList front, String.toList_inj.mp ?_⟩
    simp [← joined]
  · rintro ⟨front, rfl⟩
    exact ⟨front.toList, by simp⟩

@[simp]
theorem endsWith_append (front ending : String) :
    endsWith (front ++ ending) ending = true :=
  endsWith_iff.mpr ⟨front, rfl⟩

def stripSuffix? (text ending : String) : Option String :=
  if endsWith text ending then
    some (String.ofList (text.toList.take (text.toList.length - ending.toList.length)))
  else
    none

@[simp]
theorem stripSuffix?_append (front ending : String) :
    stripSuffix? (front ++ ending) ending = some front := by
  simp [stripSuffix?]

/-- Texts with endings of which neither ends the other are different. -/
theorem append_ne_append {first second : String} {ending other : String}
    (left : endsWith other ending = false) (right : endsWith ending other = false) :
    first ++ ending ≠ second ++ other := by
  intro same
  have lists := congrArg String.toList same
  simp only [String.toList_append] at lists
  have endingSuffix : ending.toList <:+ second.toList ++ other.toList :=
    ⟨first.toList, lists⟩
  have otherSuffix : other.toList <:+ second.toList ++ other.toList :=
    ⟨second.toList, rfl⟩
  rcases List.suffix_or_suffix_of_suffix endingSuffix otherSuffix with shorter | shorter
  · simp [endsWith, List.isSuffixOf_iff_suffix.mpr shorter] at left
  · simp [endsWith, List.isSuffixOf_iff_suffix.mpr shorter] at right

theorem endsWith_append_eq_false {front ending other : String}
    (left : endsWith other ending = false) (right : endsWith ending other = false) :
    endsWith (front ++ ending) other = false := by
  rw [Bool.eq_false_iff]
  intro ends
  obtain ⟨front', same⟩ := endsWith_iff.mp ends
  exact append_ne_append left right same

end Text
