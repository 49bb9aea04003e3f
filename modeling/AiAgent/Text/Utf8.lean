import AiAgent.Text.Strip

/-!
# UTF-8, byte after byte

A text as bytes (`AiAgent.Text.utf8`), and the decoder that takes the bytes one after the other: it
keeps the bytes of an unfinished character and gives the character out with its last byte
(`AiAgent.Text.decodeBytes`). As it goes through the bytes one by one, it does not see where a
stream is cut (`AiAgent.Text.decodeBytes_append`).
-/

namespace AiAgent

namespace Text

/-- The bytes of a text. -/
def utf8 (t : Text) : List UInt8 := t.flatMap String.utf8EncodeChar

/-- The character that some bytes begin with. -/
def firstChar (bytes : List UInt8) : Option Char := bytes.toByteArray.utf8DecodeChar? 0

/-- The characters that are complete, and the bytes of the one that is not. -/
def decodeBytes (pending : List UInt8) : List UInt8 → Text × List UInt8
  | [] => ([], pending)
  | b :: bytes =>
    match firstChar (pending ++ [b]) with
    | some c => (c :: (decodeBytes [] bytes).1, (decodeBytes [] bytes).2)
    | none => decodeBytes (pending ++ [b]) bytes

/-- **Where the bytes are cut does not matter.** -/
theorem decodeBytes_append (pending bytes bytes' : List UInt8) :
    decodeBytes pending (bytes ++ bytes') =
      ((decodeBytes pending bytes).1 ++ (decodeBytes (decodeBytes pending bytes).2 bytes').1,
        (decodeBytes (decodeBytes pending bytes).2 bytes').2) := by
  induction bytes generalizing pending with
  | nil => rfl
  | cons b bytes ih =>
    rw [List.cons_append, decodeBytes, decodeBytes]
    rcases firstChar (pending ++ [b]) with _ | c
    · exact ih _
    · dsimp only
      rw [ih]
      rfl

theorem firstChar_encode (c : Char) : firstChar (String.utf8EncodeChar c) = some c := by
  have hchar := ByteArray.utf8DecodeChar?_utf8EncodeChar_append (b := .empty) (c := c)
  rw [ByteArray.append_empty] at hchar
  exact hchar

/-- A character is not complete before its last byte. -/
theorem firstChar_eq_none {c : Char} {bytes rest : List UInt8}
    (h : bytes ++ rest = String.utf8EncodeChar c) (hrest : rest ≠ []) : firstChar bytes = none := by
  rcases hfirst : firstChar bytes with _ | d
  · rfl
  · -- It would be the same character, which has more bytes.
    have hsame : firstChar (bytes ++ rest) = some d := by
      rw [firstChar, List.toByteArray_append]
      exact ByteArray.utf8DecodeChar?_append_eq_some hfirst _
    rw [h, firstChar_encode] at hsame
    obtain ⟨more, hbytes⟩ := ByteArray.exists_of_utf8DecodeChar?_eq_some hfirst
    have hsize := congrArg ByteArray.size hbytes
    rw [ByteArray.size_append, List.size_toByteArray, List.size_toByteArray,
      ← Option.some.inj hsame, ← h, List.length_append] at hsize
    have hpos := List.length_pos_of_ne_nil hrest
    omega

theorem decodeBytes_char {c : Char} {pending bytes : List UInt8}
    (h : pending ++ bytes = String.utf8EncodeChar c) (hne : bytes ≠ []) (rest : List UInt8) :
    decodeBytes pending (bytes ++ rest) =
      (c :: (decodeBytes [] rest).1, (decodeBytes [] rest).2) := by
  induction bytes generalizing pending with
  | nil => exact absurd rfl hne
  | cons b bytes ih =>
    have hshift : pending ++ [b] ++ bytes = String.utf8EncodeChar c := by
      rw [List.append_assoc, List.singleton_append]
      exact h
    rw [List.cons_append, decodeBytes]
    rcases bytes with _ | ⟨b', bytes⟩
    · rw [List.append_nil] at hshift
      rw [hshift, firstChar_encode]
      rfl
    · rw [firstChar_eq_none hshift (List.cons_ne_nil _ _)]
      exact ih hshift (List.cons_ne_nil _ _)

/-- **What is decoded is what was encoded.** -/
theorem decodeBytes_utf8 (t : Text) : decodeBytes [] (utf8 t) = (t, []) := by
  induction t with
  | nil => rfl
  | cons c t ih =>
    have hne : String.utf8EncodeChar c ≠ [] := by
      rw [← List.length_pos_iff, String.length_utf8EncodeChar]
      exact c.utf8Size_pos
    have hcons : utf8 (c :: t) = String.utf8EncodeChar c ++ utf8 t := rfl
    rw [hcons, decodeBytes_char (List.nil_append _) hne, ih]

end Text

end AiAgent
