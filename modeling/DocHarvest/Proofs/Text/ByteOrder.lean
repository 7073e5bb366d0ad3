import Mathlib.Data.List.Lex

/-!
The order of texts by their bytes.

Texts are compared character by character.  Comparing the bytes that encode them gives the same
order, since a greater character never begins with smaller bytes.
-/

namespace DocHarvest.Text

/-- The bytes that encode a text. -/
def bytes (text : String) : List UInt8 :=
  text.toUTF8.data.toList

theorem bytes_eq (text : String) : bytes text = text.toList.flatMap String.utf8EncodeChar := by
  unfold bytes
  rw [String.toUTF8_eq_toByteArray, ← String.utf8Encode_toList, List.utf8Encode,
    List.data_toByteArray]

/-- Bytes that do not decrease put texts in order if those after equal ones do. -/
theorem byte_cons_lt {low high : Nat} {short long : List UInt8} (ordered : low ≤ high)
    (bound : high < 256) (later : low = high → short < long) :
    UInt8.ofNat low :: short < UInt8.ofNat high :: long := by
  rw [List.cons_lt_cons_iff]
  rcases Nat.lt_or_eq_of_le ordered with less | same
  · exact Or.inl ((UInt8.ofNat_lt_iff_lt (Nat.lt_trans less bound) bound).mpr less)
  · exact Or.inr ⟨congrArg UInt8.ofNat same, later same⟩

-- the cases are those of the number of bytes; a character of fewer bytes has a smaller first byte
theorem utf8EncodeChar_append_lt {left right : Char} (less : left < right)
    (short long : List UInt8) :
    String.utf8EncodeChar left ++ short < String.utf8EncodeChar right ++ long := by
  have codes : left.val.toNat < right.val.toNat := less
  have most : right.val.toNat < 1114112 := by
    have valid := right.valid
    simp only [UInt32.isValidChar, Nat.isValidChar] at valid
    omega
  unfold String.utf8EncodeChar
  generalize left.val.toNat = low at codes
  generalize right.val.toNat = high at codes most
  dsimp only
  by_cases lowOne : low ≤ 127
  · rw [if_pos lowOne]
    split_ifs with highOne highTwo highThree
    · exact byte_cons_lt (by omega) (by omega) fun same => by omega
    · exact byte_cons_lt (by omega) (by omega) fun same => by omega
    · exact byte_cons_lt (by omega) (by omega) fun same => by omega
    · exact byte_cons_lt (by omega) (by omega) fun same => by omega
  · by_cases lowTwo : low ≤ 2047
    · rw [if_neg lowOne, if_pos lowTwo, if_neg (by omega : ¬ high ≤ 127)]
      split_ifs with highTwo highThree
      · exact byte_cons_lt (by omega) (by omega) fun first =>
          byte_cons_lt (by omega) (by omega) fun second => by omega
      · exact byte_cons_lt (by omega) (by omega) fun same => by omega
      · exact byte_cons_lt (by omega) (by omega) fun same => by omega
    · by_cases lowThree : low ≤ 65535
      · rw [if_neg lowOne, if_neg lowTwo, if_pos lowThree, if_neg (by omega : ¬ high ≤ 127),
          if_neg (by omega : ¬ high ≤ 2047)]
        split_ifs with highThree
        · exact byte_cons_lt (by omega) (by omega) fun first =>
            byte_cons_lt (by omega) (by omega) fun second =>
              byte_cons_lt (by omega) (by omega) fun third => by omega
        · exact byte_cons_lt (by omega) (by omega) fun same => by omega
      · rw [if_neg lowOne, if_neg lowTwo, if_neg lowThree, if_neg (by omega : ¬ high ≤ 127),
          if_neg (by omega : ¬ high ≤ 2047), if_neg (by omega : ¬ high ≤ 65535)]
        exact byte_cons_lt (by omega) (by omega) fun first =>
          byte_cons_lt (by omega) (by omega) fun second =>
            byte_cons_lt (by omega) (by omega) fun third =>
              byte_cons_lt (by omega) (by omega) fun fourth => by omega

theorem flatMap_utf8EncodeChar_lt {left right : List Char} (less : left < right) :
    left.flatMap String.utf8EncodeChar < right.flatMap String.utf8EncodeChar := by
  induction less with
  | @nil character rest =>
      rw [List.flatMap_nil, List.flatMap_cons]
      cases encoded : String.utf8EncodeChar character with
      | nil => exact absurd encoded String.utf8EncodeChar_ne_nil
      | cons first later => exact List.nil_lt_cons _ _
  | @cons character left right _less ih =>
      rw [List.flatMap_cons, List.flatMap_cons]
      exact List.append_left_lt ih
  | @rel first left second right smaller =>
      rw [List.flatMap_cons, List.flatMap_cons]
      exact utf8EncodeChar_append_lt smaller _ _

/-- The order of texts is that of their bytes. -/
theorem bytes_lt {left right : String} (less : left < right) : bytes left < bytes right := by
  rw [bytes_eq, bytes_eq]
  exact flatMap_utf8EncodeChar_lt (String.lt_iff.mp less)

theorem map_bytes_lt {left right : List String} (less : left < right) :
    left.map bytes < right.map bytes := by
  induction less with
  | nil => exact List.nil_lt_cons _ _
  | cons _less ih => exact List.cons_lt_cons_iff.mpr (Or.inr ⟨rfl, ih⟩)
  | rel smaller => exact List.cons_lt_cons_iff.mpr (Or.inl (bytes_lt smaller))

end DocHarvest.Text
