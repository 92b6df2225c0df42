/-
Names are compared by their code points. This file shows that this is the order of their UTF-8
bytes: a smaller character has a smaller encoding, whatever follows the two, because the first
byte grows with the number of bytes, and encodings of one length hold the digits of the code
from the highest to the lowest.
-/
import Mathlib.Tactic.SplitIfs
import CodeAtlas.NameSet
import CodeAtlas.Text.Utf8

namespace CodeAtlas.Text

/-- Two sequences of bytes are compared by their first bytes, and by what follows where these
are equal. -/
theorem ofNat_cons_lt {left right : Nat} {leftRest rightRest : List UInt8} (bound : right < 256)
    (le : left ≤ right) (rest : left = right → leftRest < rightRest) :
    UInt8.ofNat left :: leftRest < UInt8.ofNat right :: rightRest := by
  rw [List.cons_lt_cons_iff]
  rcases Nat.lt_or_eq_of_le le with less | same
  · refine .inl ?_
    rw [UInt8.lt_iff_toNat_lt, UInt8.toNat_ofNat', UInt8.toNat_ofNat', Nat.mod_eq_of_lt bound,
      Nat.mod_eq_of_lt (Nat.lt_trans less bound)]
    exact less
  · exact .inr ⟨congrArg UInt8.ofNat same, rest same⟩

theorem encodeChar_append_lt {left right : Char} (less : left < right)
    (leftRest rightRest : List UInt8) :
    encodeChar left ++ leftRest < encodeChar right ++ rightRest := by
  have codes : left.val.toNat < right.val.toNat := less
  have limit : right.val.toNat < 0x110000 := by
    rcases right.valid with low | ⟨-, high⟩
    · exact Nat.lt_trans low (by decide)
    · exact high
  unfold encodeChar String.utf8EncodeChar
  generalize left.val.toNat = first at codes
  generalize right.val.toNat = second at codes limit
  dsimp only
  split_ifs
  all_goals simp only [List.cons_append, List.nil_append]
  -- Equal bytes leave the rest to decide; if all of them were equal, so would be the codes.
  all_goals repeat refine ofNat_cons_lt (by omega) (by omega) fun same => ?_
  all_goals omega

theorem encode_cons (char : Char) (text : List Char) :
    encode (char :: text) = encodeChar char ++ encode text :=
  List.flatMap_cons

theorem encode_lt {left right : List Char} (less : left < right) : encode left < encode right := by
  induction left generalizing right with
  | nil =>
    cases right with
    | nil => cases less
    | cons char text =>
      rw [encode_cons]
      have nonempty : encodeChar char ≠ [] := String.utf8EncodeChar_ne_nil
      obtain ⟨byte, bytes, equal⟩ := List.exists_cons_of_ne_nil nonempty
      rw [equal, List.cons_append]
      exact List.nil_lt_cons _ _
  | cons first rest inductionHypothesis =>
    cases right with
    | nil => cases less
    | cons char text =>
      rw [encode_cons, encode_cons]
      rcases List.cons_lt_cons_iff.mp less with smaller | ⟨rfl, smaller⟩
      · exact encodeChar_append_lt smaller _ _
      · exact List.append_left_lt (inductionHypothesis smaller)

end CodeAtlas.Text

namespace CodeAtlas.NameSet

/-- The names of a set ascend by their bytes. -/
theorem names_ascending_bytes (set : NameSet) :
    (set.names.map fun name => Text.encode name.toList).Pairwise (· < ·) :=
  List.pairwise_map.mpr (set.ascending.imp Text.encode_lt)

end CodeAtlas.NameSet
