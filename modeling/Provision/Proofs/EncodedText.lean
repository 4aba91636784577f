import Mathlib.Data.List.Basic
import Provision.Text.Utf8

namespace Provision.Text

theorem toList_loop_eq (bytes : ByteArray) (i : Nat) (read : Bytes) :
    ByteArray.toList.loop bytes i read = read.reverse ++ bytes.data.toList.drop i := by
  fun_induction ByteArray.toList.loop bytes i read with
  | case1 i read more ih =>
    have inside : i < bytes.data.toList.length := by simpa using more
    rw [ih, List.drop_eq_getElem_cons inside]
    simp [ByteArray.get!, more]
  | case2 i read done =>
    rw [List.drop_eq_nil_of_le (by simpa using Nat.le_of_not_lt done), List.append_nil]

theorem encode_eq (s : String) : encode s = s.toList.flatMap String.utf8EncodeChar := by
  rw [encode, ByteArray.toList, toList_loop_eq, String.toUTF8]
  conv_lhs => rw [← String.ofList_toList (s := s), String.toByteArray_ofList, List.utf8Encode, List.toList_data_toByteArray]
  rfl

variable {n low high bits : Nat} {rest : Bytes}

theorem decodeFrom_lead {l : Lead} (byte : n < 256) (first : 0x80 ≤ n) (lead : lead? n = some l) :
    decodeFrom none (UInt8.ofNat n :: rest) = decodeFrom (some l) rest := by
  have value : (UInt8.ofNat n).toNat = n := UInt8.toNat_ofNat_of_lt' byte
  simp [decodeFrom, value, lead, Nat.not_lt.mpr first]

theorem decodeFrom_more (more : Nat) (byte : n < 256) (range : low ≤ n ∧ n ≤ high) :
    decodeFrom (some ⟨more + 2, low, high, bits⟩) (UInt8.ofNat n :: rest) =
      decodeFrom (some ⟨more + 1, 0x80, 0xbf, bits * 64 + (n - 0x80)⟩) rest := by
  have value : (UInt8.ofNat n).toNat = n := UInt8.toNat_ofNat_of_lt' byte
  simp [decodeFrom, value, range]

theorem decodeFrom_last (byte : n < 256) (range : low ≤ n ∧ n ≤ high) :
    decodeFrom (some ⟨1, low, high, bits⟩) (UInt8.ofNat n :: rest) =
      some (Char.ofNat (bits * 64 + (n - 0x80))) :: decodeFrom none rest := by
  have value : (UInt8.ofNat n).toNat = n := UInt8.toNat_ofNat_of_lt' byte
  simp [decodeFrom, value, range]

theorem decodeFrom_two {v : Nat} (low : 0x80 ≤ v) (high : v < 0x800) :
    decodeFrom none (UInt8.ofNat (v / 64 % 32 + 192) :: UInt8.ofNat (v % 64 + 128) :: rest) =
      some (Char.ofNat v) :: decodeFrom none rest := by
  have lead : lead? (v / 64 % 32 + 192) = some ⟨1, 0x80, 0xbf, v / 64⟩ := by
    have own : v / 64 % 32 + 192 - 0xc0 = v / 64 := by omega
    rw [lead?, if_pos (by omega), own]
  have whole : v / 64 * 64 + (v % 64 + 128 - 0x80) = v := by omega
  rw [decodeFrom_lead (by omega) (by omega) lead, decodeFrom_last (by omega) ⟨by omega, by omega⟩, whole]

theorem decodeFrom_three {v : Nat} (low : 0x800 ≤ v) (high : v < 0x10000) (valid : v < 0xd800 ∨ 0xdfff < v) :
    decodeFrom none (UInt8.ofNat (v / 4096 % 16 + 224) :: UInt8.ofNat (v / 64 % 64 + 128) ::
      UInt8.ofNat (v % 64 + 128) :: rest) = some (Char.ofNat v) :: decodeFrom none rest := by
  obtain ⟨lo, hi, lead, range⟩ : ∃ lo hi, lead? (v / 4096 % 16 + 224) = some ⟨2, lo, hi, v / 4096⟩ ∧
      lo ≤ v / 64 % 64 + 128 ∧ v / 64 % 64 + 128 ≤ hi := by
    -- The first byte decides which bytes may come next: none of a shorter form, and none of half a pair.
    have own : v / 4096 % 16 + 224 - 0xe0 = v / 4096 := by omega
    unfold lead?
    rw [if_neg (by omega)]
    by_cases first : v / 4096 = 0
    · exact ⟨0xa0, 0xbf, by rw [if_pos (by omega), first], by omega, by omega⟩
    · rw [if_neg (by omega)]
      by_cases pair : v / 4096 = 13
      · exact ⟨0x80, 0x9f, by rw [if_pos (by omega), pair], by omega, by omega⟩
      · exact ⟨0x80, 0xbf, by rw [if_neg (by omega), if_pos (by omega), own], by omega, by omega⟩
  have whole : (v / 4096 * 64 + (v / 64 % 64 + 128 - 0x80)) * 64 + (v % 64 + 128 - 0x80) = v := by omega
  rw [decodeFrom_lead (by omega) (by omega) lead, decodeFrom_more 0 (by omega) range,
    decodeFrom_last (by omega) ⟨by omega, by omega⟩, whole]

theorem decodeFrom_four {v : Nat} (low : 0x10000 ≤ v) (high : v < 0x110000) :
    decodeFrom none (UInt8.ofNat (v / 262144 % 8 + 240) :: UInt8.ofNat (v / 4096 % 64 + 128) ::
      UInt8.ofNat (v / 64 % 64 + 128) :: UInt8.ofNat (v % 64 + 128) :: rest) =
        some (Char.ofNat v) :: decodeFrom none rest := by
  obtain ⟨lo, hi, lead, range⟩ : ∃ lo hi, lead? (v / 262144 % 8 + 240) = some ⟨3, lo, hi, v / 262144⟩ ∧
      lo ≤ v / 4096 % 64 + 128 ∧ v / 4096 % 64 + 128 ≤ hi := by
    have own : v / 262144 % 8 + 240 - 0xf0 = v / 262144 := by omega
    unfold lead?
    rw [if_neg (by omega), if_neg (by omega), if_neg (by omega), if_neg (by omega)]
    by_cases first : v / 262144 = 0
    · exact ⟨0x90, 0xbf, by rw [if_pos (by omega), first], by omega, by omega⟩
    · rw [if_neg (by omega)]
      by_cases last : v / 262144 = 4
      · exact ⟨0x80, 0x8f, by rw [if_neg (by omega), if_pos (by omega), last], by omega, by omega⟩
      · exact ⟨0x80, 0xbf, by rw [if_pos (by omega), own], by omega, by omega⟩
  have whole : ((v / 262144 * 64 + (v / 4096 % 64 + 128 - 0x80)) * 64 + (v / 64 % 64 + 128 - 0x80)) * 64 +
      (v % 64 + 128 - 0x80) = v := by omega
  rw [decodeFrom_lead (by omega) (by omega) lead, decodeFrom_more 1 (by omega) range,
    decodeFrom_more 0 (by omega) ⟨by omega, by omega⟩, decodeFrom_last (by omega) ⟨by omega, by omega⟩, whole]

theorem decodeFrom_char (c : Char) (rest : Bytes) :
    decodeFrom none (String.utf8EncodeChar c ++ rest) = some c :: decodeFrom none rest := by
  have same : Char.ofNat c.val.toNat = c := Char.ofNat_toNat c
  have valid : c.val.toNat < 0xd800 ∨ 0xdfff < c.val.toNat ∧ c.val.toNat < 0x110000 := c.valid
  unfold String.utf8EncodeChar
  generalize c.val.toNat = v at same valid
  subst same
  dsimp only
  split
  · have value : (UInt8.ofNat v).toNat = v := UInt8.toNat_ofNat_of_lt' (by change v < 256; omega)
    rw [List.singleton_append, decodeFrom, value, if_pos (by omega)]
  · split
    · exact decodeFrom_two (by omega) (by omega)
    · split
      · exact decodeFrom_three (by omega) (by omega) (by omega)
      · exact decodeFrom_four (by omega) (by omega)

theorem decode?_encode (s : String) : decode? (encode s) = some s := by
  have chars : ∀ cs : List Char, decodeFrom none (cs.flatMap String.utf8EncodeChar) = cs.map some := by
    intro cs
    induction cs with
    | nil => rfl
    | cons c cs ih => rw [List.flatMap_cons, decodeFrom_char, ih, List.map_cons]
  have all : (s.toList.map some).mapM id = some s.toList := by
    rw [List.mapM_map]
    exact (List.mapM_pure (f := id)).trans (congrArg some (List.map_id _))
  rw [decode?, encode_eq, chars, all, Option.map_some, String.ofList_toList]

end Provision.Text
