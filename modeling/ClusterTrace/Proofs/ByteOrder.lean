import ClusterTrace.Proofs.Utf8Text
import Mathlib.Data.String.Basic

/-!
# The order of bytes

Texts are compared character by character. In UTF-8 this is the order of their bytes: a larger
character has a larger byte at the first place where the two differ, and no character is the start
of another one.
-/

namespace ClusterTrace.Utf8

/-- Where the bytes of two characters first differ, the larger character has the larger byte. -/
theorem Encoded.append_lt {c d : Char} {xs ys : Bytes} (hc : Encoded c xs) (hd : Encoded d ys)
    (h : c.toNat < d.toNat) (s t : Bytes) : xs ++ s < ys ++ t := by
  have hvalid := toNat_scalar d
  -- The groups of six bits are cut off one after the other.
  have hgroups : ∀ n, n / 4096 = n / 64 / 64 ∧ n / 262144 = n / 64 / 64 / 64 := by
    intro n
    omega
  cases hc <;> cases hd <;>
    simp only [List.cons_append, List.nil_append, List.cons_lt_cons_iff, UInt8.lt_iff_toNat_lt,
      ← UInt8.toNat_inj, hgroups] at * <;> omega

/-- A larger character has larger bytes, whatever comes behind either of the two. -/
theorem utf8EncodeChar_append_lt {c d : Char} (h : c < d) (s t : Bytes) :
    String.utf8EncodeChar c ++ s < String.utf8EncodeChar d ++ t :=
  (encoded c).append_lt (encoded d) (UInt32.lt_iff_toNat_lt.mp (Char.lt_def.mp h)) s t

/-- The bytes of two texts differ first within the first character in which the texts differ. -/
theorem bytes_lt_of_lt {s t : List Char} (h : s < t) : bytes s < bytes t := by
  induction h with
  | @nil d t =>
    cases hd : String.utf8EncodeChar d with
    | nil =>
      have := encoded d
      rw [hd] at this
      cases this
    | cons b more =>
      rw [bytes, bytes, List.flatMap_cons, hd]
      exact .nil
  | @rel c s d t hcd =>
    rw [bytes, bytes, List.flatMap_cons, List.flatMap_cons]
    exact utf8EncodeChar_append_lt hcd _ _
  | @cons c s t hst ih =>
    rw [bytes, bytes, List.flatMap_cons, List.flatMap_cons]
    exact List.append_left_lt ih

/-- Texts and their bytes are ordered alike, so what is sorted by characters is sorted by bytes. -/
theorem encode_lt_iff {a b : String} : encode a < encode b ↔ a < b := by
  have hlt : ∀ {a b : String}, a < b → encode a < encode b := by
    intro a b h
    rw [encode_eq, encode_eq]
    exact bytes_lt_of_lt h
  constructor
  · intro h
    rcases lt_trichotomy a b with hab | rfl | hba
    · exact hab
    · exact absurd h (List.lt_irrefl _)
    · exact absurd (hlt hba) (List.lt_asymm h)
  · exact hlt

theorem encode_le_iff {a b : String} : encode a ≤ encode b ↔ a ≤ b := by
  rw [← List.not_lt, encode_lt_iff, not_lt]

end ClusterTrace.Utf8
