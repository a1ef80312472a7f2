/-
# Lines of the console

A console is given bytes and splits them at line feeds before it knows that they are a text. In UTF-8 a line
feed is one byte, and no other character has this byte in it (`ten_not_mem_encode`), so the lines of the bytes
are the lines of the text. What a line of bytes still has and a line of the text has not is a carriage return
at its end; it is a blank, so both are answered alike (`map_answer_ofBytes`).
-/

import DecimalMachine.Console.Input
import DecimalMachine.Proofs.Text.Tokens

namespace DecimalMachine

namespace Text

/-- The bytes that encode a row of characters. -/
def encode (text : List Char) : List UInt8 := text.flatMap String.utf8EncodeChar

/-- Text is encoded part by part. -/
theorem encode_append (left right : List Char) : encode (left ++ right) = encode left ++ encode right :=
  List.flatMap_append

/-- Every character has a byte. -/
theorem encode_eq_nil_iff {text : List Char} : encode text = [] ↔ text = [] := by
  cases text with
  | nil => exact ⟨fun _ => rfl, fun _ => rfl⟩
  | cons c rest =>
    rw [encode, List.flatMap_cons, List.append_eq_nil_iff]
    exact ⟨fun h => absurd h.1 String.utf8EncodeChar_ne_nil, nofun⟩

/-- The byte of a line feed. -/
theorem encode_feed : encode ['\n'] = [10] := by decide

/-- The encoding of a text is that of its characters in order. -/
theorem toUTF8_eq_encode (text : String) : text.toUTF8.data.toList = encode text.toList := by
  have h : text.toUTF8 = (encode text.toList).toByteArray := String.utf8Encode_toList.symm
  rw [h, List.data_toByteArray]

/-- What was encoded is decoded again. -/
theorem decode?_encode (text : List Char) : decode? (encode text) = some (String.ofList text) := by
  have h : (⟨(encode text).toArray⟩ : ByteArray) = (String.ofList text).toByteArray := by
    rw [String.toByteArray_ofList, List.utf8Encode, ← encode]
    exact ByteArray.ext List.data_toByteArray.symm
  rw [decode?, h, String.fromUTF8?, dif_pos (String.ofList text).isValidUTF8]
  rfl

/-- **The byte of a line feed is in no other character.** A character that is not one byte has none below 128. -/
theorem ten_not_mem_encode {c : Char} (h : c ≠ '\n') : 10 ∉ String.utf8EncodeChar c := by
  have ten_ne {n : Nat} (low : 128 ≤ n) (high : n < 256) : (10 : UInt8) ≠ UInt8.ofNat n := by
    intro same
    have value := congrArg UInt8.toNat same
    rw [UInt8.toNat_ofNat_of_lt' high] at value
    have ten : (10 : UInt8).toNat = 10 := rfl
    omega
  unfold String.utf8EncodeChar
  dsimp only
  split
  · next small =>
    rw [List.mem_singleton]
    intro same
    have value := congrArg UInt8.toNat same
    rw [UInt8.toNat_ofNat_of_lt' (show c.val.toNat < 256 by omega)] at value
    exact h (Char.ext (UInt32.toNat_inj.1 value.symm))
  · split
    · simp only [List.mem_cons, List.not_mem_nil, or_false, not_or]
      exact ⟨ten_ne (by omega) (by omega), ten_ne (by omega) (by omega)⟩
    · split
      · simp only [List.mem_cons, List.not_mem_nil, or_false, not_or]
        exact ⟨ten_ne (by omega) (by omega), ten_ne (by omega) (by omega), ten_ne (by omega) (by omega)⟩
      · simp only [List.mem_cons, List.not_mem_nil, or_false, not_or]
        exact ⟨ten_ne (by omega) (by omega), ten_ne (by omega) (by omega), ten_ne (by omega) (by omega),
          ten_ne (by omega) (by omega)⟩

end Text

namespace Console

/-- Bytes without a line feed are read into the line that has begun. -/
theorem linesFrom_append {bytes : List UInt8} (h : 10 ∉ bytes) (current rest : List UInt8) :
    linesFrom current (bytes ++ rest) = linesFrom (bytes.reverse ++ current) rest := by
  induction bytes generalizing current with
  | nil => rfl
  | cons byte bytes ih =>
    rw [List.mem_cons, not_or] at h
    rw [List.cons_append, linesFrom, if_neg (Ne.symm h.1), ih h.2, List.reverse_cons, List.append_assoc,
      List.singleton_append]

/-- A line is answered as a text. -/
theorem answer_encode (line : List Char) :
    answer (Text.encode line) = Answer.ofText (String.ofList line) := by
  rw [answer, Text.decode?_encode]
  rfl

/-- A carriage return at the end of a line does not matter to the answer. -/
theorem ofText_dropReturn (current : List Char) :
    Answer.ofText (String.ofList (Text.dropReturn current).reverse) =
      Answer.ofText (String.ofList current.reverse) := by
  have same : Text.trim (Text.dropReturn current).reverse = Text.trim current.reverse := by
    unfold Text.dropReturn
    split
    · rw [List.reverse_cons, Text.trim_append_blank (by decide)]
    · rfl
  unfold Answer.ofText
  rw [String.toList_ofList, String.toList_ofList, same]

/-- The induction is on the text; `current` is what was read of its first line, as in both splittings. -/
theorem map_answer_linesFrom (current text : List Char) :
    (linesFrom (Text.encode current.reverse).reverse (Text.encode text)).map answer =
      (Text.linesFrom current text).map fun line => Answer.ofText (String.ofList line) := by
  induction text generalizing current with
  | nil =>
    have same : (Text.encode current.reverse).reverse.isEmpty = current.isEmpty := by
      rw [Bool.eq_iff_iff, List.isEmpty_iff, List.isEmpty_iff, List.reverse_eq_nil_iff,
        Text.encode_eq_nil_iff, List.reverse_eq_nil_iff]
    have empty : Text.encode [] = [] := rfl
    rw [empty, linesFrom, Text.linesFrom, same, List.reverse_reverse]
    cases current.isEmpty with
    | true => rfl
    | false => exact congrArg (· :: []) (answer_encode current.reverse)
  | cons c rest ih =>
    have split : Text.encode (c :: rest) = String.utf8EncodeChar c ++ Text.encode rest :=
      List.flatMap_cons
    rw [split, Text.linesFrom]
    by_cases feed : c = '\n'
    · subst feed
      have byte : String.utf8EncodeChar '\n' = [10] := Text.encode_feed
      rw [byte, List.singleton_append, linesFrom, if_pos rfl, if_pos rfl, List.reverse_reverse,
        List.map_cons, List.map_cons, answer_encode, ofText_dropReturn]
      exact congrArg _ (ih [])
    · have next := ih (c :: current)
      rw [List.reverse_cons, Text.encode_append, List.reverse_append] at next
      have one : Text.encode [c] = String.utf8EncodeChar c := by
        rw [Text.encode, List.flatMap_singleton]
      rw [one] at next
      rw [if_neg feed, linesFrom_append (Text.ten_not_mem_encode feed), next]

/-- **The lines of an input are those of its text**, as far as the answers go. -/
theorem map_answer_ofBytes (text : String) :
    (ofBytes text.toUTF8.data.toList).lines.map answer =
      (Text.lines text.toList).map fun line => Answer.ofText (String.ofList line) := by
  rw [Text.toUTF8_eq_encode]
  exact map_answer_linesFrom [] text.toList

end Console
end DecimalMachine
