/-
Texts and their bytes stand in one order. Strings are compared here by their
code points, elsewhere by the bytes that encode them; `encode_lt_encode_iff`
says that this is no difference.

A greater character has the greater bytes, whatever follows either
(`encodeChar_append_lt`): a longer encoding has the greater lead byte, and
within one length the bits of the code point are laid out from the highest
down. The order of texts is then an induction over the common characters.
-/
import Mathlib.Tactic.Common
import WorkRouting.Text.Utf8

namespace WorkRouting.Text.Utf8

open String (utf8EncodeChar)

-- =============================================================== encoding

/-- The bytes from an index on, behind those already read. -/
theorem toList_loop (bytes : ByteArray) (i : Nat) (read : List UInt8) :
    ByteArray.toList.loop bytes i read
      = read.reverse ++ bytes.data.toList.drop i := by
  fun_induction ByteArray.toList.loop bytes i read with
  | case1 i read hi ih =>
      have hlength : i < bytes.data.toList.length := by simpa using hi
      have hget : bytes.get! i = bytes.data.toList[i] := by
        simp only [ByteArray.get!, Array.getElem_toList]
        exact getElem!_pos bytes.data i (by simpa using hi)
      rw [ih, List.drop_eq_getElem_cons hlength, hget]
      simp
  | case2 i read hi =>
      have hlength : bytes.data.toList.length ≤ i := by simpa using hi
      simp [List.drop_eq_nil_of_le hlength]

/-- A text is encoded character by character. -/
theorem encode_eq (s : String) :
    encode s = s.toList.flatMap utf8EncodeChar := by
  have hbytes : s.toByteArray = s.toList.utf8Encode := by
    simp
  unfold encode
  rw [String.toUTF8_eq_toByteArray, hbytes, ByteArray.toList, toList_loop]
  simp [List.utf8Encode]

-- ================================================================== order

theorem encodeChar_append_lt {c d : Char} (h : c < d) (xs ys : List UInt8) :
    utf8EncodeChar c ++ xs < utf8EncodeChar d ++ ys := by
  have hlt : c.val.toNat < d.val.toNat := h
  have hd : d.val.toNat < 1114112 := by
    rcases d.valid with h | h <;> omega
  unfold utf8EncodeChar
  generalize c.val.toNat = v at *
  generalize d.val.toNat = w at *
  dsimp only
  -- One case for each pair of lengths; a code point with more bytes than the
  -- other is not the smaller one.
  split_ifs <;>
    simp (disch := omega) only [List.cons_append, List.nil_append,
      List.cons_lt_cons_iff, UInt8.lt_iff_toNat_lt, ← UInt8.toNat_inj,
      UInt8.toNat_ofNat', Nat.mod_eq_of_lt] <;>
    omega

theorem flatMap_encodeChar_lt {cs ds : List Char} (h : cs < ds) :
    cs.flatMap utf8EncodeChar < ds.flatMap utf8EncodeChar := by
  induction cs generalizing ds with
  | nil =>
      cases ds with
      | nil => exact absurd h (List.lt_irrefl [])
      | cons d ds =>
          obtain ⟨b, bytes, hb⟩ :=
            List.exists_cons_of_ne_nil (String.utf8EncodeChar_ne_nil (c := d))
          rw [List.flatMap_nil, List.flatMap_cons, hb]
          exact List.nil_lt_cons b _
  | cons c cs ih =>
      cases ds with
      | nil => exact absurd h (List.not_lt_nil _)
      | cons d ds =>
          rw [List.flatMap_cons, List.flatMap_cons]
          rcases List.cons_lt_cons_iff.1 h with hcd | ⟨rfl, htail⟩
          · exact encodeChar_append_lt hcd _ _
          · exact List.append_left_lt (ih htail)

theorem encode_lt_encode {s t : String} (h : s < t) : encode s < encode t := by
  rw [encode_eq, encode_eq]
  exact flatMap_encodeChar_lt (String.lt_iff.1 h)

/-- Texts and their bytes sort alike. -/
theorem encode_lt_encode_iff {s t : String} :
    encode s < encode t ↔ s < t := by
  constructor
  · intro h
    by_contra hst
    by_cases hts : t < s
    · exact List.lt_asymm h (encode_lt_encode hts)
    · rw [String.le_antisymm (String.not_lt.1 hts) (String.not_lt.1 hst)] at h
      exact List.lt_irrefl _ h
  · exact encode_lt_encode

end WorkRouting.Text.Utf8
