/-!
Texts that end before their first NUL, as texts do that pass through the environment or are
reported to a caller.
-/

namespace QuantLinear

/-- The part of a text before its first NUL. -/
def untilNul (text : String) : String := String.ofList (text.toList.takeWhile (· != '\x00'))

/-- A text without NUL stays as it is. -/
theorem untilNul_of_not_mem {text : String} (free : '\x00' ∉ text.toList) :
    untilNul text = text := by
  have other : ∀ c ∈ text.toList, (c != '\x00') = true := by
    intro c member
    have apart : c ≠ '\x00' := fun same => free (same ▸ member)
    simpa using apart
  have kept : (text.toList ++ []).takeWhile (· != '\x00') =
      text.toList ++ [].takeWhile (· != '\x00') := List.takeWhile_append_of_pos other
  simp only [List.append_nil, List.takeWhile_nil] at kept
  rw [untilNul, kept, String.ofList_toList]

theorem nul_not_mem_untilNul (text : String) : '\x00' ∉ (untilNul text).toList := by
  intro member
  rw [untilNul, String.toList_ofList] at member
  have kept := List.all_takeWhile (l := text.toList) (p := (· != '\x00'))
  simpa using List.all_eq_true.mp kept _ member

end QuantLinear
