import KeyWrapping.Bytes
import Mathlib.Data.List.TakeDrop
/-!
# Strings that differ in one stretch

A change is described by where it may have happened: two lists agree outside a stretch when they
have the same entries in front of it and behind it (`AgreeOutside`). What lies in front and what
lies behind is then the same list (`take_eq`, `drop_eq`), and two lists of one length that agree
outside one place are the same list around two entries (`exists_parts`).
-/

namespace KeyWrapping

/-- Two lists have the same entries in front of a stretch and behind it. -/
def AgreeOutside {α : Type} (start count : Nat) (left right : List α) : Prop :=
  ∀ index, index < start ∨ start + count ≤ index → left[index]? = right[index]?

namespace AgreeOutside

variable {α : Type} {start count : Nat} {left right : List α}

/-- Lists that agree outside a stretch agree outside every stretch that holds it. -/
theorem widen {start' count' : Nat} (agree : AgreeOutside start count left right)
    (lower : start' ≤ start) (upper : start + count ≤ start' + count') :
    AgreeOutside start' count' left right := by
  intro index outside
  have still : index < start ∨ start + count ≤ index := by omega
  exact agree index still

/-- In front of the stretch the lists are equal. -/
theorem take_eq {place : Nat} (agree : AgreeOutside start count left right)
    (early : place ≤ start) : left.take place = right.take place := by
  apply List.ext_getElem?
  intro index
  by_cases inFront : index < place
  · have same : left[index]? = right[index]? := agree index (by omega)
    rw [List.getElem?_take_of_lt inFront, List.getElem?_take_of_lt inFront, same]
  · rw [List.getElem?_take_eq_none (by omega), List.getElem?_take_eq_none (by omega)]

/-- Behind the stretch the lists are equal. -/
theorem drop_eq {place : Nat} (agree : AgreeOutside start count left right)
    (late : start + count ≤ place) : left.drop place = right.drop place := by
  apply List.ext_getElem?
  intro index
  have same : left[place + index]? = right[place + index]? := agree (place + index) (by omega)
  rw [List.getElem?_drop, List.getElem?_drop, same]

/-- Without what both have in front, the lists agree outside the same stretch. -/
theorem drop {skip : Nat} (agree : AgreeOutside (skip + start) count left right) :
    AgreeOutside start count (left.drop skip) (right.drop skip) := by
  intro index outside
  have same : left[skip + index]? = right[skip + index]? := agree (skip + index) (by omega)
  rw [List.getElem?_drop, List.getElem?_drop, same]

/-- With only the first entries kept, the lists agree outside the same stretch. -/
theorem take (agree : AgreeOutside start count left right) (kept : Nat) :
    AgreeOutside start count (left.take kept) (right.take kept) := by
  intro index outside
  have same : left[index]? = right[index]? := agree index outside
  simp only [List.getElem?_take, same]

/-- Writing over one entry changes nothing elsewhere. -/
theorem set (entries : List α) (place : Nat) (entry : α) :
    AgreeOutside place 1 entries (entries.set place entry) := by
  intro index outside
  have elsewhere : place ≠ index := by omega
  rw [List.getElem?_set_ne elsewhere]

/-- Different lists that agree outside a stretch have different entries somewhere in it. -/
theorem exists_inside (agree : AgreeOutside start count left right) (differ : left ≠ right) :
    ∃ index, start ≤ index ∧ index < start + count ∧ left[index]? ≠ right[index]? := by
  by_contra none
  push Not at none
  apply differ
  apply List.ext_getElem?
  intro index
  by_cases inside : start ≤ index ∧ index < start + count
  · exact none index inside.1 inside.2
  · exact agree index (by omega)

/-- Lists of one length that agree outside one place are the same list with another entry there. -/
theorem exists_parts {place : Nat} (agree : AgreeOutside place 1 left right)
    (counted : left.length = right.length) (inside : place < left.length) :
    ∃ before after, left = before ++ left[place] :: after ∧
      right = before ++ right[place] :: after := by
  have front : left.take place = right.take place := agree.take_eq (Nat.le_refl place)
  have back : left.drop (place + 1) = right.drop (place + 1) := agree.drop_eq (Nat.le_refl _)
  refine ⟨left.take place, left.drop (place + 1), ?_, ?_⟩
  · rw [List.cons_getElem_drop_succ, List.take_append_drop]
  · rw [front, back, List.cons_getElem_drop_succ, List.take_append_drop]

end AgreeOutside

end KeyWrapping
