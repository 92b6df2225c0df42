/-
Reading UTF-8 does not depend on where it starts. Bytes are read piece by piece from the front, so
what is read might depend on how the pieces fall. It does not: no encoding starts inside a piece,
because all its bytes but the first are continuation bytes, and a piece that is dropped holds no
encoding. What is read are therefore the encodings at all offsets, in their order, and everything
else about reading follows from that or from how one piece is read.
-/
import Mathlib.Data.List.Infix
import Mathlib.Data.List.TakeWhile
import Mathlib.Tactic.SplitIfs
import CodeAtlas.Proofs.Text.ByteOrder

namespace CodeAtlas.Text

/-! ### Bytes as numbers -/

theorem isContinuation_iff {byte : UInt8} :
    isContinuation byte = true ↔ 0x80 ≤ byte.toNat ∧ byte.toNat < 0xC0 := by
  simp [isContinuation, UInt8.lt_iff_toNat_lt, UInt8.le_iff_toNat_le]

theorem width_eq (first : UInt8) :
    width first =
      if first.toNat < 0x80 then 1
      else if first.toNat < 0xC2 then 0
      else if first.toNat < 0xE0 then 2
      else if first.toNat < 0xF0 then 3
      else if first.toNat < 0xF5 then 4
      else 0 := by
  simp [width, UInt8.lt_iff_toNat_lt]

theorem leadBits_eq (first : UInt8) :
    leadBits first =
      if first.toNat < 0x80 then first.toNat
      else if first.toNat < 0xE0 then first.toNat % 32
      else if first.toNat < 0xF0 then first.toNat % 16
      else first.toNat % 8 := by
  simp [leadBits, UInt8.lt_iff_toNat_lt]

/-- Which bytes may come second: a continuation byte, of which some are refused behind the first
and the last of the bytes that announce two or three more, and behind the one that announces
surrogates. -/
theorem fits_iff {first second : UInt8} :
    fits first second = true ↔
      0x80 ≤ second.toNat ∧ second.toNat < 0xC0 ∧
        (first.toNat = 0xE0 → 0xA0 ≤ second.toNat) ∧ (first.toNat = 0xED → second.toNat < 0xA0) ∧
        (first.toNat = 0xF0 → 0x90 ≤ second.toNat) ∧
        (first.toNat = 0xF4 → second.toNat < 0x90) := by
  unfold fits
  simp only [isContinuation, ← UInt8.toNat_inj, UInt8.lt_iff_toNat_lt, UInt8.le_iff_toNat_le,
    UInt8.reduceToNat]
  split_ifs <;> simp only [Bool.and_eq_true, decide_eq_true_eq] <;> omega

theorem isContinuation_of_fits {first second : UInt8} (fit : fits first second = true) :
    isContinuation second = true := by
  obtain ⟨low, high, -⟩ := fits_iff.mp fit
  exact isContinuation_iff.mpr ⟨low, high⟩

/-! ### Trails -/

/-- What a trail may be: not longer than the first byte announces, of continuation bytes, of which
the first one fits behind the first byte. -/
structure IsTrail (first : UInt8) (trail : List UInt8) : Prop where
  short : trail.length ≤ width first - 1
  fit : ∀ second ∈ trail.head?, fits first second = true
  continues : ∀ byte ∈ trail, isContinuation byte = true

theorem trail_prefix_rest (first : UInt8) (rest : List UInt8) : trail first rest <+: rest := by
  unfold trail
  split
  · exact List.nil_prefix
  next second others taken =>
    have front : second :: others <+: rest := taken ▸ List.take_prefix _ _
    split
    · exact ((List.prefix_cons_inj second).mpr (List.takeWhile_prefix _)).trans front
    · exact List.nil_prefix

theorem isTrail_trail (first : UInt8) (rest : List UInt8) : IsTrail first (trail first rest) := by
  unfold trail
  split
  · exact ⟨Nat.zero_le _, by simp, by simp⟩
  next second others taken =>
    split
    next fit =>
      refine ⟨?_, by simpa using fit, fun byte member => ?_⟩
      · have bound := List.length_take_le (width first - 1) rest
        rw [taken, List.length_cons] at bound
        exact Nat.le_trans (Nat.succ_le_succ (List.takeWhile_prefix _).length_le) bound
      · rcases List.mem_cons.mp member with rfl | later
        · exact isContinuation_of_fits fit
        · exact List.mem_takeWhile_imp later
    · exact ⟨Nat.zero_le _, by simp, by simp⟩

/-- A whole trail is the trail whatever follows it. -/
theorem IsTrail.trail_append {first : UInt8} {more : List UInt8} (isTrail : IsTrail first more)
    (whole : isWhole first more = true) (rest : List UInt8) :
    trail first (more ++ rest) = more := by
  have length : width first - 1 = more.length := by
    rw [← of_decide_eq_true whole, Nat.add_sub_cancel]
  rw [trail, length, List.take_left]
  cases more with
  | nil => rfl
  | cons second others =>
    have all : others.takeWhile isContinuation = others :=
      List.takeWhile_eq_self_iff.mpr fun byte member =>
        isTrail.continues byte (List.mem_cons_of_mem _ member)
    dsimp only
    rw [if_pos (isTrail.fit second rfl), all]

theorem takeWhile_append_of_stops {Item : Type} {keep : Item → Bool} {back : List Item}
    (stops : ∀ item ∈ back.head?, keep item = false) (front : List Item) :
    (front ++ back).takeWhile keep = front.takeWhile keep := by
  induction front with
  | nil =>
    cases back with
    | nil => rfl
    | cons item rest => rw [List.nil_append, List.takeWhile_cons, stops item rfl]; rfl
  | cons item front inductionHypothesis =>
    rw [List.cons_append, List.takeWhile_cons, List.takeWhile_cons, inductionHypothesis]

/-- A trail goes no further than to a byte that is no continuation byte. -/
theorem trail_append_of_stops (first : UInt8) (front : List UInt8) {back : List UInt8}
    (stops : ∀ byte ∈ back.head?, isContinuation byte = false) :
    trail first (front ++ back) = trail first front := by
  have stopsTaken (count : Nat) :
      ∀ byte ∈ (back.take count).head?, isContinuation byte = false := by
    intro byte member
    rw [List.head?_take] at member
    split at member
    · cases member
    · exact stops byte member
  unfold trail
  rw [List.take_append]
  cases taken : front.take (width first - 1) with
  | nil =>
    cases behind : back.take (width first - 1 - front.length) with
    | nil => rfl
    | cons second others =>
      have notFit : fits first second ≠ true := fun fit => by
        have stopped := stopsTaken _ second (by rw [behind]; rfl)
        rw [isContinuation_of_fits fit] at stopped
        cases stopped
      rw [List.nil_append]
      dsimp only
      rw [if_neg notFit]
  | cons second others =>
    rw [List.cons_append]
    dsimp only
    rw [takeWhile_append_of_stops (stopsTaken _)]

/-! ### Whole encodings -/

theorem width_cases (first : UInt8) :
    width first = 1 ∧ first.toNat < 0x80 ∨
      width first = 2 ∧ 0xC2 ≤ first.toNat ∧ first.toNat < 0xE0 ∨
      width first = 3 ∧ 0xE0 ≤ first.toNat ∧ first.toNat < 0xF0 ∨
      width first = 4 ∧ 0xF0 ≤ first.toNat ∧ first.toNat < 0xF5 ∨
      width first = 0 ∧ (0x80 ≤ first.toNat ∧ first.toNat < 0xC2 ∨ 0xF5 ≤ first.toNat) := by
  rw [width_eq]
  split_ifs <;> omega

/-- A trail of as many bytes as announced. -/
theorem isTrail_cons {first second : UInt8} {others : List UInt8}
    (announced : width first = others.length + 2) (fit : fits first second = true)
    (continues : ∀ byte ∈ others, isContinuation byte = true) :
    IsTrail first (second :: others) ∧ isWhole first (second :: others) = true := by
  refine ⟨⟨?_, by simpa using fit, fun byte member => ?_⟩, decide_eq_true announced.symm⟩
  · rw [announced, List.length_cons, Nat.add_sub_assoc (by decide)]
  · rcases List.mem_cons.mp member with rfl | later
    · exact isContinuation_of_fits fit
    · exact continues byte later

/-! ### Encodings by their width -/

theorem encodeChar_ofNat {code : Nat} (valid : code.isValidChar) :
    encodeChar (Char.ofNat code) =
      if code ≤ 0x7F then [.ofNat code]
      else if code ≤ 0x7FF then [.ofNat (code / 64 % 32 + 0xC0), .ofNat (code % 64 + 0x80)]
      else if code ≤ 0xFFFF then
        [.ofNat (code / 4096 % 16 + 0xE0), .ofNat (code / 64 % 64 + 0x80),
          .ofNat (code % 64 + 0x80)]
      else
        [.ofNat (code / 262144 % 8 + 0xF0), .ofNat (code / 4096 % 64 + 0x80),
          .ofNat (code / 64 % 64 + 0x80), .ofNat (code % 64 + 0x80)] := by
  have same : (Char.ofNat code).val.toNat = code := by
    rw [Char.ofNat, dif_pos valid]
    rfl
  rw [encodeChar, String.utf8EncodeChar, same]

theorem ofNat_eq {value : Nat} (byte : UInt8) (same : value = byte.toNat) :
    UInt8.ofNat value = byte := by
  rw [same, UInt8.ofNat_toNat]

section Read

variable {first second third fourth : UInt8}

theorem encodeChar_one (range : first.toNat < 0x80) :
    encodeChar (Char.ofNat first.toNat) = [first] := by
  rw [encodeChar_ofNat (.inl (by omega)), if_pos (by omega), ofNat_eq first rfl]

theorem encodeChar_two (range : 0xC2 ≤ first.toNat ∧ first.toNat < 0xE0)
    (isSecond : 0x80 ≤ second.toNat ∧ second.toNat < 0xC0) :
    encodeChar (Char.ofNat (first.toNat % 32 * 64 + second.toNat % 64)) = [first, second] := by
  rw [encodeChar_ofNat (.inl (by omega)), if_neg (by omega), if_pos (by omega),
    ofNat_eq first (by omega), ofNat_eq second (by omega)]

theorem encodeChar_three (range : 0xE0 ≤ first.toNat ∧ first.toNat < 0xF0)
    (isSecond : 0x80 ≤ second.toNat ∧ second.toNat < 0xC0)
    (notLonger : first.toNat = 0xE0 → 0xA0 ≤ second.toNat)
    (notSurrogate : first.toNat = 0xED → second.toNat < 0xA0)
    (isThird : 0x80 ≤ third.toNat ∧ third.toNat < 0xC0) :
    encodeChar (Char.ofNat
      ((first.toNat % 16 * 64 + second.toNat % 64) * 64 + third.toNat % 64)) =
        [first, second, third] := by
  rw [encodeChar_ofNat (by unfold Nat.isValidChar; omega), if_neg (by omega), if_neg (by omega),
    if_pos (by omega), ofNat_eq first (by omega), ofNat_eq second (by omega),
    ofNat_eq third (by omega)]

theorem encodeChar_four (range : 0xF0 ≤ first.toNat ∧ first.toNat < 0xF5)
    (isSecond : 0x80 ≤ second.toNat ∧ second.toNat < 0xC0)
    (notLonger : first.toNat = 0xF0 → 0x90 ≤ second.toNat)
    (notBeyond : first.toNat = 0xF4 → second.toNat < 0x90)
    (isThird : 0x80 ≤ third.toNat ∧ third.toNat < 0xC0)
    (isFourth : 0x80 ≤ fourth.toNat ∧ fourth.toNat < 0xC0) :
    encodeChar (Char.ofNat
      (((first.toNat % 8 * 64 + second.toNat % 64) * 64 + third.toNat % 64) * 64 +
        fourth.toNat % 64)) = [first, second, third, fourth] := by
  rw [encodeChar_ofNat (.inr (by omega)), if_neg (by omega), if_neg (by omega), if_neg (by omega),
    ofNat_eq first (by omega), ofNat_eq second (by omega), ofNat_eq third (by omega),
    ofNat_eq fourth (by omega)]

end Read

/-- A first byte with a whole trail is the encoding of the character that is read from them. -/
theorem IsTrail.encodeChar_charOf {first : UInt8} {trail : List UInt8}
    (isTrail : IsTrail first trail) (whole : isWhole first trail = true) :
    encodeChar (charOf first trail) = first :: trail := by
  have announced : trail.length + 1 = width first := of_decide_eq_true whole
  have ranges := width_cases first
  obtain ⟨-, fit, continues⟩ := isTrail
  simp only [isContinuation_iff, fits_iff] at fit continues
  rw [charOf, leadBits_eq]
  match trail with
  | [] =>
    rw [List.length_nil] at announced
    rw [List.foldl_nil, if_pos (by omega)]
    exact encodeChar_one (by omega)
  | [second] =>
    rw [List.length_singleton] at announced
    rw [if_neg (by omega), if_pos (by omega)]
    exact encodeChar_two (by omega) (continues second (by simp))
  | [second, third] =>
    have ⟨_, _, notLonger, notSurrogate, _⟩ := fit second rfl
    simp only [List.length_cons, List.length_nil] at announced
    rw [if_neg (by omega), if_neg (by omega), if_pos (by omega)]
    exact encodeChar_three (by omega) (continues second (by simp)) notLonger notSurrogate
      (continues third (by simp))
  | [second, third, fourth] =>
    have ⟨_, _, _, _, notLonger, notBeyond⟩ := fit second rfl
    simp only [List.length_cons, List.length_nil] at announced
    rw [if_neg (by omega), if_neg (by omega), if_neg (by omega)]
    exact encodeChar_four (by omega) (continues second (by simp)) notLonger notBeyond
      (continues third (by simp)) (continues fourth (by simp))
  | _ :: _ :: _ :: _ :: _ =>
    simp only [List.length_cons] at announced
    omega

/-- The encoding of a character is a first byte and a whole trail. -/
theorem isTrail_of_encodeChar {char : Char} {first : UInt8} {more : List UInt8}
    (encoded : encodeChar char = first :: more) :
    IsTrail first more ∧ isWhole first more = true := by
  have valid : char.toNat.isValidChar := char.valid
  rw [← char.ofNat_toNat, encodeChar_ofNat valid] at encoded
  unfold Nat.isValidChar at valid
  generalize char.toNat = code at encoded valid
  have ranges := width_cases first
  have toNat_eq (value : Nat) (small : value < 256) : (UInt8.ofNat value).toNat = value :=
    UInt8.toNat_ofNat_of_lt small
  -- A code is below one of three bounds or above all of them, and has one byte more each time. The
  -- bounds put its digits into the ranges that a first byte, a second one and the others have.
  split_ifs at encoded with one two three
  · obtain ⟨rfl, rfl⟩ := List.cons.inj encoded
    rw [toNat_eq _ (by omega)] at ranges
    exact ⟨⟨Nat.zero_le _, by simp, by simp⟩, decide_eq_true (by rw [List.length_nil]; omega)⟩
  · obtain ⟨rfl, rfl⟩ := List.cons.inj encoded
    rw [toNat_eq _ (by omega)] at ranges
    refine isTrail_cons (by rw [List.length_nil]; omega) ?_ (by simp)
    rw [fits_iff, toNat_eq _ (by omega), toNat_eq _ (by omega)]
    omega
  · obtain ⟨rfl, rfl⟩ := List.cons.inj encoded
    rw [toNat_eq _ (by omega)] at ranges
    refine isTrail_cons (by rw [List.length_singleton]; omega) ?_ ?_
    · rw [fits_iff, toNat_eq _ (by omega), toNat_eq _ (by omega)]
      omega
    · simp only [List.mem_singleton, forall_eq, isContinuation_iff]
      rw [toNat_eq _ (by omega)]
      omega
  · obtain ⟨rfl, rfl⟩ := List.cons.inj encoded
    rw [toNat_eq _ (by omega)] at ranges
    refine isTrail_cons (by simp only [List.length_cons, List.length_nil]; omega) ?_ ?_
    · rw [fits_iff, toNat_eq _ (by omega), toNat_eq _ (by omega)]
      omega
    · simp only [List.mem_cons, List.not_mem_nil, or_false, forall_eq_or_imp, forall_eq,
        isContinuation_iff]
      rw [toNat_eq _ (by omega), toNat_eq _ (by omega)]
      omega

theorem encodeChar_injective {one other : Char} (same : encodeChar one = encodeChar other) :
    one = other := by
  have notLess {first second : Char} (equal : encodeChar first = encodeChar second) :
      ¬ first < second := by
    intro less
    have bytes := encodeChar_append_lt less [] []
    rw [equal] at bytes
    exact List.lt_irrefl _ bytes
  exact Char.le_antisymm (Char.not_lt.mp (notLess same.symm)) (Char.not_lt.mp (notLess same))

/-- The only character whose encoding stands at the front of some bytes is the one that is read
there. -/
theorem encodeChar_prefix_iff {char : Char} {first : UInt8} {rest : List UInt8} :
    encodeChar char <+: first :: rest ↔
      isWhole first (trail first rest) = true ∧ charOf first (trail first rest) = char := by
  constructor
  · rintro ⟨behind, whole⟩
    have nonempty : encodeChar char ≠ [] := String.utf8EncodeChar_ne_nil
    obtain ⟨byte, more, encoded⟩ := List.exists_cons_of_ne_nil nonempty
    rw [encoded, List.cons_append] at whole
    obtain ⟨rfl, rfl⟩ := List.cons.inj whole
    obtain ⟨isTrail, isWhole⟩ := isTrail_of_encodeChar encoded
    rw [isTrail.trail_append isWhole]
    exact ⟨isWhole, encodeChar_injective ((isTrail.encodeChar_charOf isWhole).trans encoded.symm)⟩
  · rintro ⟨whole, rfl⟩
    rw [(isTrail_trail first rest).encodeChar_charOf whole, List.prefix_cons_inj]
    exact trail_prefix_rest first rest

/-- No encoding starts with a continuation byte. -/
theorem not_encodeChar_prefix {char : Char} {byte : UInt8} {rest : List UInt8}
    (continues : isContinuation byte = true) : ¬ encodeChar char <+: byte :: rest := by
  intro stands
  have whole := (encodeChar_prefix_iff.mp stands).1
  have announced := of_decide_eq_true whole
  have range := isContinuation_iff.mp continues
  have ranges := width_cases byte
  omega

/-! ### Places -/

/-- The encodings in some bytes that start with a piece: the piece if it is whole, and those behind
it. None starts inside the piece. -/
theorem encodeChar_prefix_drop_iff {char : Char} {first : UInt8} {rest : List UInt8}
    {offset : Nat} :
    encodeChar char <+: (first :: rest).drop offset ↔
      (offset = 0 ∧ isWhole first (trail first rest) = true ∧
        charOf first (trail first rest) = char) ∨
      ∃ later, offset = later + ((trail first rest).length + 1) ∧
        encodeChar char <+: (rest.drop (trail first rest).length).drop later := by
  cases offset with
  | zero =>
    rw [List.drop_zero, encodeChar_prefix_iff]
    constructor
    · exact fun stands => .inl ⟨rfl, stands⟩
    · rintro (⟨-, stands⟩ | ⟨later, equal, -⟩)
      · exact stands
      · omega
  | succ inner =>
    rw [List.drop_succ_cons]
    obtain ⟨behind, split⟩ := trail_prefix_rest first rest
    rcases Nat.lt_or_ge inner (trail first rest).length with inside | beyond
    · have notStarts : ¬ encodeChar char <+: rest.drop inner := by
        rw [← split, List.drop_append_of_le_length (Nat.le_of_lt inside),
          List.drop_eq_getElem_cons inside]
        exact not_encodeChar_prefix
          ((isTrail_trail first rest).continues _ (List.getElem_mem inside))
      refine iff_of_false notStarts ?_
      rintro (⟨absurd, -⟩ | ⟨later, equal, -⟩) <;> omega
    · obtain ⟨later, rfl⟩ := Nat.exists_eq_add_of_le beyond
      rw [← List.drop_drop]
      constructor
      · exact fun stands => .inr ⟨later, by omega, stands⟩
      · rintro (⟨absurd, -⟩ | ⟨other, equal, stands⟩)
        · omega
        · rwa [show later = other by omega]

/-- The places of all encodings in some bytes, each with its character. They ascend, and no two
encodings overlap. -/
structure ArePlaces (bytes : List UInt8) (places : List (Nat × Char)) : Prop where
  apart : places.Pairwise fun one other => one.1 + (encodeChar one.2).length ≤ other.1
  mem_iff : ∀ offset char, (offset, char) ∈ places ↔ encodeChar char <+: bytes.drop offset

/-- Places that are counted from some bytes further on. -/
def shift (count : Nat) (places : List (Nat × Char)) : List (Nat × Char) :=
  places.map fun place => (place.1 + count, place.2)

theorem mem_shift_iff {count offset : Nat} {char : Char} {places : List (Nat × Char)} :
    (offset, char) ∈ shift count places ↔
      ∃ later, offset = later + count ∧ (later, char) ∈ places := by
  unfold shift
  constructor
  · intro member
    obtain ⟨⟨later, same⟩, known, equal⟩ := List.mem_map.mp member
    cases equal
    exact ⟨later, rfl, known⟩
  · rintro ⟨later, rfl, known⟩
    exact List.mem_map.mpr ⟨(later, char), known, rfl⟩

theorem map_snd_shift (count : Nat) (places : List (Nat × Char)) :
    (shift count places).map (·.2) = places.map (·.2) := by
  rw [shift, List.map_map]
  rfl

theorem ArePlaces.apart_shift {bytes : List UInt8} {places : List (Nat × Char)}
    (arePlaces : ArePlaces bytes places) (count : Nat) :
    (shift count places).Pairwise fun one other => one.1 + (encodeChar one.2).length ≤ other.1 := by
  refine List.pairwise_map.mpr (arePlaces.apart.imp fun apart => ?_)
  rw [Nat.add_right_comm]
  exact Nat.add_le_add_right apart count

theorem exists_places (bytes : List UInt8) :
    ∃ places, ArePlaces bytes places ∧ decode bytes = places.map (·.2) := by
  fun_induction decode bytes with
  | case1 =>
    refine ⟨[], ⟨.nil, fun offset char => ?_⟩, rfl⟩
    rw [List.drop_nil, List.prefix_nil]
    exact iff_of_false List.not_mem_nil String.utf8EncodeChar_ne_nil
  | case2 first rest piece whole inductionHypothesis =>
    obtain ⟨places, arePlaces, decoded⟩ := inductionHypothesis
    refine ⟨(0, charOf first piece) :: shift (piece.length + 1) places, ⟨?_, ?_⟩, ?_⟩
    · refine List.pairwise_cons.mpr ⟨fun place member => ?_, arePlaces.apart_shift _⟩
      obtain ⟨later, behind, -⟩ := mem_shift_iff.mp member
      rw [(isTrail_trail first rest).encodeChar_charOf whole, behind, Nat.zero_add]
      exact Nat.le_add_left _ later
    · intro offset char
      rw [encodeChar_prefix_drop_iff, List.mem_cons, mem_shift_iff, Prod.mk.injEq]
      refine or_congr (and_congr_right fun _ => ?_) (exists_congr fun later => ?_)
      · rw [and_iff_right whole, eq_comm]
      · rw [arePlaces.mem_iff]
    · rw [List.map_cons, map_snd_shift, decoded]
  | case3 first rest piece broken inductionHypothesis =>
    obtain ⟨places, arePlaces, decoded⟩ := inductionHypothesis
    refine ⟨shift (piece.length + 1) places, ⟨arePlaces.apart_shift _, ?_⟩, ?_⟩
    · intro offset char
      rw [encodeChar_prefix_drop_iff, mem_shift_iff, or_iff_right fun stands => broken stands.2.1]
      refine exists_congr fun later => ?_
      rw [arePlaces.mem_iff]
    · rw [map_snd_shift, decoded]

/-! ### Parts of a byte sequence -/

theorem decode_cons (first : UInt8) (rest : List UInt8) :
    decode (first :: rest) =
      (if isWhole first (trail first rest) then [charOf first (trail first rest)] else []) ++
        decode (rest.drop (trail first rest).length) := by
  rw [decode]
  split <;> rfl

/-- Bytes can be read in two parts where the second part goes on with no encoding. -/
theorem decode_append_of_stops (front : List UInt8) {back : List UInt8}
    (stops : ∀ byte ∈ back.head?, isContinuation byte = false) :
    decode (front ++ back) = decode front ++ decode back := by
  have step (first : UInt8) (rest : List UInt8) :
      decode (first :: rest ++ back) =
        (if isWhole first (trail first rest) then [charOf first (trail first rest)] else []) ++
          decode (rest.drop (trail first rest).length ++ back) := by
    rw [List.cons_append, decode_cons, trail_append_of_stops first rest stops,
      List.drop_append_of_le_length (trail_prefix_rest first rest).length_le]
  fun_induction decode front with
  | case1 => rfl
  | case2 first rest piece whole inductionHypothesis =>
    rw [step, if_pos whole, inductionHypothesis]
    rfl
  | case3 first rest piece broken inductionHypothesis =>
    rw [step, if_neg broken, inductionHypothesis]
    rfl

/-- Bytes that start with the encoding of a character start with a whole piece, which is read as
the character. -/
theorem exists_piece_encodeChar_append (char : Char) (rest : List UInt8) :
    ∃ first more, encodeChar char ++ rest = first :: (more ++ rest) ∧
      trail first (more ++ rest) = more ∧ isWhole first more = true ∧ charOf first more = char := by
  have nonempty : encodeChar char ≠ [] := String.utf8EncodeChar_ne_nil
  obtain ⟨first, more, encoded⟩ := List.exists_cons_of_ne_nil nonempty
  obtain ⟨isTrail, whole⟩ := isTrail_of_encodeChar encoded
  refine ⟨first, more, by rw [encoded, List.cons_append], isTrail.trail_append whole rest, whole,
    encodeChar_injective ((isTrail.encodeChar_charOf whole).trans encoded.symm)⟩

theorem decode_encodeChar_append (char : Char) (rest : List UInt8) :
    decode (encodeChar char ++ rest) = char :: decode rest := by
  obtain ⟨first, more, bytes, piece, whole, same⟩ := exists_piece_encodeChar_append char rest
  rw [bytes, decode_cons, piece, if_pos whole, List.drop_left, same]
  rfl

/-- What is written can be read. -/
theorem decode_encode (text : List Char) : decode (encode text) = text := by
  induction text with
  | nil =>
    show decode [] = []
    rw [decode]
  | cons char text inductionHypothesis =>
    rw [encode_cons, decode_encodeChar_append, inductionHypothesis]

theorem encode_decode_sublist (bytes : List UInt8) : (encode (decode bytes)).Sublist bytes := by
  fun_induction decode bytes with
  | case1 => exact .slnil
  | case2 first rest piece whole inductionHypothesis =>
    have whole_rest : rest = piece ++ rest.drop piece.length :=
      List.prefix_append_drop (trail_prefix_rest first rest)
    have kept := (inductionHypothesis.append_left piece).cons_cons first
    rw [← whole_rest] at kept
    rwa [encode_cons, (isTrail_trail first rest).encodeChar_charOf whole]
  | case3 first rest piece broken inductionHypothesis =>
    exact (inductionHypothesis.trans (List.drop_sublist _ rest)).cons first

theorem decode_append_ascii (front : List UInt8) {ascii : UInt8} (isAscii : ascii < 0x80)
    (back : List UInt8) :
    decode (front ++ ascii :: back) =
      decode front ++ Char.ofNat ascii.toNat :: decode back := by
  have range : ascii.toNat < 0x80 := UInt8.lt_iff_toNat_lt.mp isAscii
  have stops : ∀ byte ∈ (ascii :: back).head?, isContinuation byte = false := by
    rintro byte ⟨⟩
    rw [← Bool.not_eq_true, isContinuation_iff]
    omega
  have first : decode (ascii :: back) = Char.ofNat ascii.toNat :: decode back := by
    rw [← decode_encodeChar_append, encodeChar_one range]
    rfl
  rw [decode_append_of_stops front stops, first]

/-- What is read from some bytes are the characters of all encodings that stand anywhere in them,
in the order of their offsets. So what is written is read as it was, reading twice changes nothing,
the bytes that are not dropped stay as they are, and an ASCII byte divides the bytes into two parts
that are read on their own. -/
theorem decode_lists_encodings (bytes : List UInt8) :
    (∃ places, ArePlaces bytes places ∧ decode bytes = places.map (·.2) ∧
        encode (decode bytes) = places.flatMap fun place => encodeChar place.2) ∧
      (∀ text, decode (encode text) = text) ∧
      decode (encode (decode bytes)) = decode bytes ∧
      (encode (decode bytes)).Sublist bytes ∧
      ∀ front ascii back, ascii < 0x80 →
        decode (front ++ [ascii] ++ back) =
          decode front ++ [Char.ofNat ascii.toNat] ++ decode back := by
  refine ⟨?_, decode_encode, decode_encode _, encode_decode_sublist bytes, ?_⟩
  · obtain ⟨places, arePlaces, decoded⟩ := exists_places bytes
    refine ⟨places, arePlaces, decoded, ?_⟩
    rw [decoded, encode, List.flatMap_map]
  · intro front ascii back isAscii
    rw [List.append_assoc, List.singleton_append, decode_append_ascii front isAscii,
      List.append_assoc, List.singleton_append]

/-- An encoding breaks off before an A, and an é stands before a byte that starts no encoding. The
A divides the two, and both characters are read. -/
theorem brokenEncoding_lists_two :
    (0x41 : UInt8) < 0x80 ∧
      decode [0xE2, 0x82, 0x41, 0xC3, 0xA9, 0xFF] =
        decode [0xE2, 0x82] ++ ['A'] ++ decode [0xC3, 0xA9, 0xFF] ∧
      ∃ places, ArePlaces [0xE2, 0x82, 0x41, 0xC3, 0xA9, 0xFF] places ∧
        places.map (·.2) = ['A', 'é'] := by
  have ascii : (0x41 : UInt8) < 0x80 := by decide
  have decoded : decode [0xE2, 0x82, 0x41, 0xC3, 0xA9, 0xFF] = ['A', 'é'] := by decide +kernel
  obtain ⟨⟨places, arePlaces, listed, -⟩, -, -, -, divides⟩ :=
    decode_lists_encodings [0xE2, 0x82, 0x41, 0xC3, 0xA9, 0xFF]
  exact ⟨ascii, divides [0xE2, 0x82] 0x41 [0xC3, 0xA9, 0xFF] ascii, places, arePlaces,
    listed.symm.trans decoded⟩

end CodeAtlas.Text
