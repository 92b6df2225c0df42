/-
Bytes as they are shown. Bytes that are the encoding of a text are shown as this text, so no two
texts are shown alike. Other bytes are shown with replacement characters for the pieces that are
broken, and such a character does not tell which bytes it stands for. Whatever else is shown is
there: a character that is no replacement has its encoding among the bytes.
-/
import CodeAtlas.Proofs.Text.Decoding

namespace CodeAtlas.Text

theorem lossy_nil : lossy [] = [] := by
  rw [lossy]

theorem lossy_cons (first : UInt8) (rest : List UInt8) :
    lossy (first :: rest) =
      (if isWhole first (trail first rest) then charOf first (trail first rest)
        else replacement) :: lossy (rest.drop (trail first rest).length) := by
  rw [lossy]

theorem lossy_encodeChar_append (char : Char) (rest : List UInt8) :
    lossy (encodeChar char ++ rest) = char :: lossy rest := by
  obtain ⟨first, more, bytes, piece, whole, same⟩ := exists_piece_encodeChar_append char rest
  rw [bytes, lossy_cons, piece, if_pos whole, List.drop_left, same]

/-- A text is shown as it is. -/
@[simp]
theorem lossy_encode (text : List Char) : lossy (encode text) = text := by
  induction text with
  | nil => exact lossy_nil
  | cons char text inductionHypothesis =>
    rw [encode_cons, lossy_encodeChar_append, inductionHypothesis]

theorem lossy_eq_nil_iff {bytes : List UInt8} : lossy bytes = [] ↔ bytes = [] := by
  cases bytes with
  | nil => simp [lossy_nil]
  | cons first rest => simp [lossy_cons]

/-- A character that is shown, and is no replacement, has its encoding among the bytes. -/
theorem encodeChar_subset_of_mem_lossy {bytes : List UInt8} {char : Char}
    (member : char ∈ lossy bytes) (original : char ≠ replacement) : encodeChar char ⊆ bytes := by
  fun_induction lossy bytes with
  | case1 => exact absurd member List.not_mem_nil
  | case2 first rest piece inductionHypothesis =>
    rcases List.mem_cons.mp member with rfl | later
    · split at original
      next whole =>
        rw [if_pos whole, (isTrail_trail first rest).encodeChar_charOf whole]
        exact List.cons_subset_cons first (trail_prefix_rest first rest).subset
      · exact absurd rfl original
    · exact List.Subset.trans (inductionHypothesis later)
        (List.Subset.trans (List.drop_subset _ rest) (List.subset_cons_self first rest))

theorem encodeChar_ascii {char : Char} (ascii : char.toNat < 0x80) :
    encodeChar char = [UInt8.ofNat char.toNat] := by
  have valid : char.toNat.isValidChar := char.valid
  have encoded := encodeChar_ofNat valid
  rwa [Char.ofNat_toNat, if_pos (by omega)] at encoded

/-- What is shown starts with an ASCII character exactly if the bytes start with its byte. -/
theorem head?_lossy_eq_ascii_iff {bytes : List UInt8} {char : Char} (ascii : char.toNat < 0x80) :
    (lossy bytes).head? = some char ↔ bytes.head? = some (UInt8.ofNat char.toNat) := by
  have encoded := encodeChar_ascii ascii
  cases bytes with
  | nil => simp [lossy_nil]
  | cons first rest =>
    rw [lossy_cons, List.head?_cons, List.head?_cons, Option.some_inj, Option.some_inj]
    constructor
    · intro shown
      split at shown
      next whole =>
        have bytes := (isTrail_trail first rest).encodeChar_charOf whole
        rw [shown, encoded] at bytes
        exact (List.cons.inj bytes).1.symm
      · rw [← shown] at ascii
        exact absurd ascii (by decide)
    · rintro rfl
      have front : encodeChar char <+: UInt8.ofNat char.toNat :: rest := by
        rw [encoded]
        exact ⟨rest, rfl⟩
      obtain ⟨whole, same⟩ := encodeChar_prefix_iff.mp front
      rw [if_pos whole, same]

/-- An ASCII byte stands in no other encoding than its own. -/
theorem encodeChar_of_mem_ascii {char : Char} {byte : UInt8} (ascii : byte.toNat < 0x80)
    (member : byte ∈ encodeChar char) : encodeChar char = [byte] := by
  have nonempty : encodeChar char ≠ [] := String.utf8EncodeChar_ne_nil
  obtain ⟨first, more, encoded⟩ := List.exists_cons_of_ne_nil nonempty
  obtain ⟨isTrail, whole⟩ := isTrail_of_encodeChar encoded
  rw [encoded] at member
  rcases List.mem_cons.mp member with rfl | later
  · have announced : more.length + 1 = width byte := of_decide_eq_true whole
    have ranges := width_cases byte
    rw [encoded, List.eq_nil_of_length_eq_zero (show more.length = 0 by omega)]
  · have range := isContinuation_iff.mp (isTrail.continues byte later)
    omega

/-- The ASCII bytes of what is shown are there. -/
theorem mem_of_mem_encode_lossy {bytes : List UInt8} {byte : UInt8} (ascii : byte.toNat < 0x80)
    (member : byte ∈ encode (lossy bytes)) : byte ∈ bytes := by
  obtain ⟨char, shown, inside⟩ := List.mem_flatMap.mp member
  have encoded := encodeChar_of_mem_ascii ascii inside
  have original : char ≠ replacement := by
    rintro rfl
    cases encoded
  exact encodeChar_subset_of_mem_lossy shown original inside

/-! ### Bytes of a text -/

/-- Bytes that are the encoding of a text. -/
def IsText (bytes : List UInt8) : Prop := ∃ text, encode text = bytes

theorem isText_encode (text : List Char) : IsText (encode text) := ⟨text, rfl⟩

theorem decode?_eq_some_iff {bytes : List UInt8} {text : List Char} :
    decode? bytes = some text ↔ encode text = bytes := by
  rw [decode?]
  constructor
  · intro decoded
    by_cases whole : encode (decode bytes) = bytes
    · rw [if_pos whole] at decoded
      cases decoded
      exact whole
    · rw [if_neg whole] at decoded
      cases decoded
  · rintro rfl
    rw [decode_encode, if_pos rfl]

/-- Bytes can be read back from what is shown exactly if they are those of a text. -/
theorem encode_lossy_iff {bytes : List UInt8} : encode (lossy bytes) = bytes ↔ IsText bytes := by
  constructor
  · exact fun same => ⟨_, same⟩
  · rintro ⟨text, rfl⟩
    rw [lossy_encode]

/-- Bytes that are shown without a replacement are those of a text. -/
theorem isText_of_replacement_not_mem {bytes : List UInt8}
    (complete : replacement ∉ lossy bytes) : IsText bytes := by
  rw [← encode_lossy_iff]
  fun_induction lossy bytes with
  | case1 => rfl
  | case2 first rest piece inductionHypothesis =>
    rw [List.mem_cons, not_or] at complete
    have whole : isWhole first piece = true := by
      by_contra broken
      exact complete.1 (if_neg broken).symm
    rw [if_pos whole, encode_cons, inductionHypothesis complete.2,
      (isTrail_trail first rest).encodeChar_charOf whole, List.cons_append]
    exact congrArg _ (List.prefix_append_drop (trail_prefix_rest first rest)).symm

theorem toList_shown (bytes : List UInt8) : (shown bytes).toList = lossy bytes :=
  String.toList_ofList

end CodeAtlas.Text
