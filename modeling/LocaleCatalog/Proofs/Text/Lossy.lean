import Mathlib.Tactic.SplitIfs
import LocaleCatalog.Text.Lossy

/-!
# ASCII bytes among bytes of any encoding

A byte below `0x80` fits no range of a follower. So no sequence before it, cut off or malformed,
takes it along, and a text may be decoded piece by piece wherever such a byte stands.

* `Text.toList_append`: the bytes of two pieces, one behind the other;
* `Text.fitting_append`: what fits a lead byte ends before an ASCII byte;
* `Text.decodeLossy_append`: the bytes before it, the byte itself, and the bytes behind it are
  decoded one by one;
* `Text.decodeLossy_encoded`: an ASCII text stands for itself, whatever follows.
-/

namespace LocaleCatalog.Text

/-! ## 1. Bytes as a list -/

theorem toList_loop (bytes : ByteArray) (i : Nat) (read : List UInt8) :
    ByteArray.toList.loop bytes i read = read.reverse ++ bytes.data.toList.drop i := by
  induction i, read using ByteArray.toList.loop.induct bytes with
  | case1 i read hless ih =>
    have hnext : bytes.data.toList.drop i = bytes.get! i :: bytes.data.toList.drop (i + 1) := by
      rw [List.drop_eq_getElem_cons (by simpa using hless)]
      simp [ByteArray.get!, hless]
    rw [ByteArray.toList.loop, if_pos hless, ih, hnext]
    simp
  | case2 i read hend =>
    rw [ByteArray.toList.loop, if_neg hend, List.drop_of_length_le (by simpa using hend),
      List.append_nil]

theorem toList_bytes (bytes : ByteArray) : bytes.toList = bytes.data.toList := by
  rw [ByteArray.toList, toList_loop]
  rfl

theorem toList_append (first second : ByteArray) :
    (first ++ second).toList = first.toList ++ second.toList := by
  rw [toList_bytes, toList_bytes, toList_bytes, ByteArray.toList_data_append]

variable {b : UInt8} (hb : b < 0x80)

/-! ## 2. Followers -/

/-- No range of a follower has an ASCII byte in it. -/
theorem le_of_mem_followers {lead : UInt8} {range : UInt8 × UInt8} (h : range ∈ followers lead) :
    0x80 ≤ range.1 := by
  have hall : (followers lead).all fun range => decide (0x80 ≤ range.1) := by
    unfold followers
    split_ifs <;> decide
  exact of_decide_eq_true (List.all_eq_true.1 hall range h)

theorem length_fitting_le (ranges : List (UInt8 × UInt8)) (bytes : List UInt8) :
    (fitting ranges bytes).length ≤ bytes.length := by
  fun_induction fitting ranges bytes with
  | case1 range ranges b bytes _ ih => simpa using ih
  | case2 => simp
  | case3 => simp

include hb

/-- What fits ends before an ASCII byte. -/
theorem fitting_append {ranges : List (UInt8 × UInt8)} (hranges : ∀ range ∈ ranges, 0x80 ≤ range.1)
    (bytes more : List UInt8) : fitting ranges (bytes ++ b :: more) = fitting ranges bytes := by
  induction ranges generalizing bytes with
  | nil => simp [fitting]
  | cons range ranges ih =>
    obtain ⟨hrange, hranges⟩ := List.forall_mem_cons.1 hranges
    cases bytes with
    | nil =>
      have hout : ¬ (range.1 ≤ b ∧ b ≤ range.2) :=
        fun h => absurd (UInt8.lt_of_lt_of_le hb (UInt8.le_trans hrange h.1)) (UInt8.lt_irrefl b)
      rw [List.nil_append, fitting, if_neg hout]
      rfl
    | cons c bytes => rw [List.cons_append, fitting, fitting, ih hranges]

/-! ## 3. Decoding -/

theorem decodeLossy_cons (bytes : List UInt8) :
    decodeLossy (b :: bytes) = Char.ofNat b.toNat :: decodeLossy bytes := by
  rw [decodeLossy, if_pos hb]

/-- Nothing before an ASCII byte changes how it is decoded, or what stands behind it. -/
theorem decodeLossy_append (bytes more : List UInt8) :
    decodeLossy (bytes ++ b :: more) =
      decodeLossy bytes ++ Char.ofNat b.toNat :: decodeLossy more := by
  fun_induction decodeLossy bytes with
  | case1 => exact decodeLossy_cons hb more
  | case2 lead bytes hlead ih => rw [List.cons_append, decodeLossy_cons hlead, ih, List.cons_append]
  | case3 lead bytes hlead taken complete ih =>
    have htaken : fitting (followers lead) (bytes ++ b :: more) = taken :=
      fitting_append hb (fun _ => le_of_mem_followers) bytes more
    have hdrop : (bytes ++ b :: more).drop taken.length = bytes.drop taken.length ++ b :: more :=
      List.drop_append_of_le_length (length_fitting_le _ bytes)
    rw [List.cons_append, decodeLossy, if_neg hlead]
    dsimp only
    rw [htaken, hdrop, ih]
    rfl

omit hb

/-- An ASCII text is decoded to itself, whatever follows its bytes. -/
theorem decodeLossy_encoded {chars : List Char} (h : ∀ c ∈ chars, c.val < 0x80)
    (more : List UInt8) :
    decodeLossy (chars.flatMap String.utf8EncodeChar ++ more) = chars ++ decodeLossy more := by
  induction chars with
  | nil => rfl
  | cons c chars ih =>
    obtain ⟨hc, hchars⟩ := List.forall_mem_cons.1 h
    have hnat : c.val.toNat < 128 := hc
    have hsize : c.utf8Size = 1 := by
      rw [Char.utf8Size_eq_one_iff, UInt32.le_iff_toNat_le]
      exact Nat.le_of_lt_succ hnat
    have hbyte : c.val.toUInt8.toNat = c.toNat := by
      rw [UInt32.toNat_toUInt8, Nat.mod_eq_of_lt (by omega)]
      rfl
    have hless : c.val.toUInt8 < 0x80 := by
      rw [UInt8.lt_iff_toNat_lt, hbyte]
      exact hnat
    rw [List.flatMap_cons, String.utf8EncodeChar_eq_singleton hsize, List.singleton_append,
      List.cons_append, decodeLossy_cons hless, ih hchars, hbyte, Char.ofNat_toNat,
      List.cons_append]

/-- The bytes of a text are those of its characters. -/
theorem toList_toUTF8 (text : String) :
    text.toUTF8.toList = text.toList.flatMap String.utf8EncodeChar := by
  rw [toList_bytes, String.toUTF8_eq_toByteArray, ← String.utf8Encode_toList, List.utf8Encode,
    List.toList_data_toByteArray]

end LocaleCatalog.Text
