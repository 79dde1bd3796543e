/-!
# The order of texts by their bytes

Texts are ordered by their characters.  A text in UTF-8 is a list of bytes, and
the lists are ordered by their bytes; the two orders are the same, since the
encoding of a character is smaller than the one of any greater character, and
stays so whatever follows the two.
-/

namespace IncentivePay

/-- The bytes of a text in UTF-8. -/
def utf8Bytes (text : String) : List UInt8 :=
  text.toUTF8.data.toList

theorem utf8Bytes_eq (text : String) :
    utf8Bytes text = text.toList.flatMap String.utf8EncodeChar := by
  unfold utf8Bytes String.toUTF8
  rw [← String.utf8Encode_toList, List.utf8Encode, List.data_toByteArray,
    List.toList_toArray]

/--
A lesser number has the lesser share, or the same share and the lesser rest.
-/
theorem div_lt_or_mod_lt
    {first second : Nat}
    (base : Nat)
    (less : first < second) :
    first / base < second / base ∨
      first / base = second / base ∧ first % base < second % base := by
  rcases Nat.lt_or_eq_of_le (Nat.div_le_div_right (Nat.le_of_lt less)) with
    shares | shares
  · exact .inl shares
  · refine .inr ⟨shares, ?_⟩
    have left := Nat.div_add_mod first base
    have right := Nat.div_add_mod second base
    rw [shares] at left
    omega

theorem encoding_append_lt
    {first second : Char}
    (less : first < second)
    (leftRest rightRest : List UInt8) :
    String.utf8EncodeChar first ++ leftRest <
      String.utf8EncodeChar second ++ rightRest := by
  rw [Char.lt_def, UInt32.lt_iff_toNat_lt] at less
  have bound : second.val.toNat < 0x110000 := by
    rcases second.valid with below | above <;> omega
  unfold String.utf8EncodeChar
  generalize first.val.toNat = first at less
  generalize second.val.toNat = second at less bound
  dsimp only
  repeat' split
  all_goals
    simp only [List.cons_append, List.nil_append, List.cons_lt_cons_iff,
      UInt8.lt_iff_toNat_lt, ← UInt8.toNat_inj, UInt8.toNat_ofNat']
  -- Encodings of different lengths differ in their first bytes; of two of one
  -- length, the first shares that differ are looked for from the last byte on.
  all_goals try exact .inl (by omega)
  · omega
  · rcases div_lt_or_mod_lt 64 less with less | ⟨same, less⟩
    · rcases div_lt_or_mod_lt 64 less with less | ⟨same, less⟩
      · exact .inl (by omega)
      · exact .inr ⟨by omega, .inl (by omega)⟩
    · exact .inr ⟨by omega, .inr ⟨by omega, .inl (by omega)⟩⟩
  · rcases div_lt_or_mod_lt 64 less with less | ⟨same, less⟩
    · rcases div_lt_or_mod_lt 64 less with less | ⟨same, less⟩
      · rcases div_lt_or_mod_lt 64 less with less | ⟨same, less⟩
        · exact .inl (by omega)
        · exact .inr ⟨by omega, .inl (by omega)⟩
      · exact .inr ⟨by omega, .inr ⟨by omega, .inl (by omega)⟩⟩
    · exact .inr ⟨by omega, .inr ⟨by omega, .inr ⟨by omega, .inl (by omega)⟩⟩⟩

theorem encodings_lt
    {first second : List Char}
    (less : first < second) :
    first.flatMap String.utf8EncodeChar <
      second.flatMap String.utf8EncodeChar := by
  induction less with
  | @nil character characters =>
      rw [List.flatMap_nil, List.flatMap_cons]
      cases encodes : String.utf8EncodeChar character with
      | nil => exact absurd encodes String.utf8EncodeChar_ne_nil
      | cons byte bytes => exact List.nil_lt_cons byte _
  | rel less =>
      rw [List.flatMap_cons, List.flatMap_cons]
      exact encoding_append_lt less _ _
  | cons _ ih =>
      rw [List.flatMap_cons, List.flatMap_cons]
      exact List.append_left_lt ih

theorem utf8Bytes_lt_utf8Bytes
    {first second : String}
    (less : first < second) :
    utf8Bytes first < utf8Bytes second := by
  rw [utf8Bytes_eq, utf8Bytes_eq]
  exact encodings_lt (String.lt_iff.1 less)

end IncentivePay
