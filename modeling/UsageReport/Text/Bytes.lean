/-!
Places in a text, counted in bytes of its UTF-8 form. A text can be cut only between characters.

A digit is one byte, and no other character starts with the byte of a digit. So the digits at the
start of a text are as many as the bytes of digits are, and they can be cut off.
-/

namespace UsageReport.Text

def bytes (text : List Char) : List UInt8 := text.flatMap String.utf8EncodeChar

def isDigitByte (byte : UInt8) : Bool := 48 ≤ byte.toNat && byte.toNat ≤ 57

/-- The number of bytes of digits at the start of a text. -/
def leadingDigits (text : List Char) : Nat := ((bytes text).takeWhile isDigitByte).length

/-- The two parts of a text on both sides of a place, unless that place is inside a character or
behind the end. -/
def cutAt? : Nat → List Char → Option (List Char × List Char)
  | 0, text => some ([], text)
  | _ + 1, [] => none
  | place + 1, c :: rest =>
    if place + 1 < c.utf8Size then none
    else (cutAt? (place + 1 - c.utf8Size) rest).map fun (first, second) => (c :: first, second)

theorem bytes_cons (c : Char) (rest : List Char) :
    bytes (c :: rest) = String.utf8EncodeChar c ++ bytes rest :=
  List.flatMap_cons

/-- A text can be cut behind its first characters. -/
theorem cutAt?_bytes (first second : List Char) :
    cutAt? (bytes first).length (first ++ second) = some (first, second) := by
  induction first with
  | nil => exact cutAt?.eq_1 second
  | cons c first ih =>
      have hplace : (bytes (c :: first)).length = c.utf8Size + (bytes first).length := by
        rw [bytes_cons, List.length_append, String.length_utf8EncodeChar]
      obtain ⟨size, hsize⟩ := Nat.exists_eq_add_one.mpr c.utf8Size_pos
      rw [hplace, hsize, Nat.add_right_comm, List.cons_append, cutAt?, hsize,
        if_neg (by omega), Nat.add_right_comm, Nat.add_sub_cancel_left, ih]
      rfl

theorem exists_utf8EncodeChar_eq_cons (c : Char) :
    ∃ byte more, String.utf8EncodeChar c = byte :: more ∧ isDigitByte byte = c.isDigit ∧
      (c.isDigit = true → more = []) := by
  have hcode : c.isDigit = (48 ≤ c.val.toNat && c.val.toNat ≤ 57) := by
    rw [Bool.eq_iff_iff, Char.isDigit_iff_toNat, Bool.and_eq_true, decide_eq_true_eq,
      decide_eq_true_eq]
    exact Iff.rfl
  have hword (byte : Nat) (hbyte : byte < 256) : (UInt8.ofNat byte).toNat = byte :=
    UInt8.toNat_ofNat_of_lt' hbyte
  -- Longer characters start with a byte that is greater than those of digits.
  have hlong (byte : Nat) (hless : 57 < byte) (hbyte : byte < 256) :
      isDigitByte (UInt8.ofNat byte) = false := by
    rw [isDigitByte, hword byte hbyte, decide_eq_false (show ¬byte ≤ 57 by omega), Bool.and_false]
  unfold String.utf8EncodeChar
  rw [hcode]
  generalize c.val.toNat = code
  dsimp only
  split
  · refine ⟨_, _, rfl, ?_, fun _ => rfl⟩
    rw [isDigitByte, hword code (by omega)]
  · rw [decide_eq_false (show ¬code ≤ 57 by omega), Bool.and_false]
    split
    · exact ⟨_, _, rfl, hlong _ (by omega) (by omega), nofun⟩
    split
    · exact ⟨_, _, rfl, hlong _ (by omega) (by omega), nofun⟩
    · exact ⟨_, _, rfl, hlong _ (by omega) (by omega), nofun⟩

theorem bytes_eq_nil_iff {text : List Char} : bytes text = [] ↔ text = [] := by
  cases text with
  | nil => simp [bytes]
  | cons c rest =>
      obtain ⟨byte, more, hbytes, -⟩ := exists_utf8EncodeChar_eq_cons c
      simp [bytes_cons, hbytes]

theorem leadingDigits_eq (text : List Char) :
    leadingDigits text = (bytes (text.takeWhile Char.isDigit)).length := by
  induction text with
  | nil => rfl
  | cons c rest ih =>
      obtain ⟨byte, more, hbytes, hdigit, hone⟩ := exists_utf8EncodeChar_eq_cons c
      rw [leadingDigits, bytes_cons, hbytes, List.cons_append, List.takeWhile_cons, hdigit,
        List.takeWhile_cons]
      split
      · rename_i hc
        rw [bytes_cons, hbytes, hone hc]
        simpa [leadingDigits] using ih
      · rfl

/-- The digits at the start of a text can be cut off. -/
theorem cutAt?_leadingDigits (text : List Char) :
    cutAt? (leadingDigits text) text =
      some (text.takeWhile Char.isDigit, text.dropWhile Char.isDigit) := by
  have hcut := cutAt?_bytes (text.takeWhile Char.isDigit) (text.dropWhile Char.isDigit)
  rwa [List.takeWhile_append_dropWhile, ← leadingDigits_eq] at hcut

/-- Digits are as many as their bytes. -/
theorem length_bytes_of_isDigit {digits : List Char}
    (hdigits : ∀ c ∈ digits, c.isDigit = true) : (bytes digits).length = digits.length := by
  induction digits with
  | nil => rfl
  | cons c digits ih =>
      obtain ⟨hc, hrest⟩ := List.forall_mem_cons.mp hdigits
      obtain ⟨byte, more, hbytes, -, hone⟩ := exists_utf8EncodeChar_eq_cons c
      rw [bytes_cons, hbytes, hone hc, List.singleton_append, List.length_cons, ih hrest,
        List.length_cons]

end UsageReport.Text
