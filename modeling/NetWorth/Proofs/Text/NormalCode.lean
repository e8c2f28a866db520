import Mathlib
import NetWorth.Ledger.GroupKey
import NetWorth.Proofs.Text.Blank
import NetWorth.Proofs.Text.Uppercase

/-!
# Normal codes

Upper case keeps a text trimmed.  So the normal form of a code is its own normal
form, and a key made of normal codes can be made again from its parts.
-/

namespace NetWorth

namespace Text

/-- A text is trimmed in upper case if it is trimmed. -/
theorem trimmed_upperChars
    {cs : List Char}
    (trimmed : Trimmed cs) :
    Trimmed (upperChars cs) where
  head capital found blank := by
    cases cs with
    | nil => cases found
    | cons c rest =>
        have isCapital : (upperChar c).head? = some capital := by
          rw [← List.head?_append_of_ne_nil _ (upperChar_ne_nil c)]
          exact found
        exact trimmed.head c rfl
          (isBlank_of_mem_upperChar (List.mem_of_head? isCapital) blank)
  last capital found blank := by
    induction cs using List.reverseRecOn with
    | nil => cases found
    | append_singleton earlier c =>
        have isCapital : (upperChar c).getLast? = some capital := by
          rw [← List.getLast?_append_of_ne_nil (upperChars earlier)
            (upperChar_ne_nil c)]
          simpa [upperChars] using found
        exact trimmed.last c List.getLast?_concat
          (isBlank_of_mem_upperChar (List.mem_of_getLast? isCapital) blank)

end Text

/-- The normal form of a code is trimmed. -/
theorem trimmed_normalCode
    (code : String) :
    Text.Trimmed (normalCode code).toList := by
  rw [normalCode, String.toList_ofList]
  exact Text.trimmed_upperChars (Text.trimmed_trimChars _)

/-- The normal form of a code is its own normal form. -/
@[simp] theorem normalCode_normalCode
    (code : String) :
    normalCode (normalCode code) = normalCode code := by
  have trimmed := Text.trimChars_of_trimmed (trimmed_normalCode code)
  rw [normalCode, trimmed]
  simp only [normalCode, String.toList_ofList, Text.upperChars_upperChars]

/-! ## Keys made of codes -/

/-- A key can be made again from its parts. -/
theorem GroupKey.normal_normal
    (assetClass : AssetClass)
    (ticker currency : String) :
    normal (normal assetClass ticker currency).assetClass
        (normal assetClass ticker currency).ticker
        (normal assetClass ticker currency).currency =
      normal assetClass ticker currency := by
  simp only [normal, normalCode_normalCode]

/-- Class and symbol can be told from the key. -/
theorem priceKey_injective
    {first second : AssetClass}
    {symbol other : String}
    (sameKey : priceKey first symbol = priceKey second other) :
    first = second ∧ symbol = other := by
  have sameChars := congrArg String.toList sameKey
  cases first <;> cases second <;>
    simp [priceKey, AssetClass.name, String.toList_inj] at sameChars ⊢
  · exact sameChars
  · exact sameChars

end NetWorth
