import Mathlib.Data.List.Basic
/-!
# White space

Ruby has two kinds. `split`, `to_i`, `to_f` and `Kernel.Float` know the six
characters of C; `blank?` asks for `[[:space:]]`, which has those of Unicode too.
-/

namespace MyStockIQ

/-- `ISSPACE`, the blank and the five control characters from `\t` to `\r`. -/
def isSpace (c : Char) : Bool := c = ' ' ∨ 9 ≤ c.toNat ∧ c.toNat ≤ 13

/-- `[[:space:]]` -/
def posixSpace (c : Char) : Bool :=
  isSpace c || c.toNat ∈ [0x85, 0xA0, 0x1680, 0x2028, 0x2029, 0x202F, 0x205F, 0x3000] ||
    (0x2000 ≤ c.toNat && c.toNat ≤ 0x200A)

/-- `blank?` -/
def blank (s : String) : Bool := s.toList.all posixSpace

theorem isSpace_of_isDigit {c : Char} (h : c.isDigit = true) : isSpace c = false := by
  rw [Char.isDigit, Bool.and_eq_true, decide_eq_true_iff, decide_eq_true_iff] at h
  obtain ⟨hlow, -⟩ := h
  have hnat : 48 ≤ c.toNat := hlow
  refine decide_eq_false fun hspace => ?_
  rcases hspace with rfl | ⟨-, hhigh⟩
  · exact absurd hnat (by decide)
  · omega

end MyStockIQ
