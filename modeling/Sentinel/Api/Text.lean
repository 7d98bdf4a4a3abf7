import Sentinel.Lib.Lines
import Sentinel.Api.Handler

/-!
# Trimmed texts

`str::trim` by characters: it is `Lines.strip` on white space, and what it leaves is left alone.
-/

namespace Sentinel.Api

theorem toList_trim (s : String) : (trim s).toList = Lines.strip isWhitespace s.toList :=
  String.toList_ofList

theorem trim_trim (s : String) : trim (trim s) = trim s := by
  rw [trim, trimMatches, trim, trimMatches, String.toList_ofList]
  exact congrArg String.ofList (Lines.strip_strip s.toList)

/-- A text is what it is trimmed to, and white space around it. -/
theorem trim_split (s : String) :
    ∃ before after, s.toList = before ++ (trim s).toList ++ after ∧
      (∀ c ∈ before, isWhitespace c = true) ∧ ∀ c ∈ after, isWhitespace c = true := by
  rw [toList_trim]
  exact Lines.strip_split s.toList

end Sentinel.Api
