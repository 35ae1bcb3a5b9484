import AmlogicUpdate.Checksum
import AmlogicUpdate.OnesComplement
import Mathlib.Algebra.Group.Even

/-!
The 16-bit checksum as a sum with the carry added back in.

The sum over the words is exact before it is folded, and two foldings are enough for 65538
words. That is more than any buffer the tool sums up.
-/

namespace AmlogicUpdate.Checksum

open CData

/-- The little-endian words; an odd last byte is a word with nothing above it. -/
def words : Bytes → List ℕ
  | [] => []
  | [a] => [a.toNat]
  | a :: b :: l => (a.toNat + 2 ^ 8 * b.toNat) :: words l

lemma words_le : ∀ (buf : Bytes), ∀ w ∈ words buf, w ≤ 0xFFFF
  | [], w, h => by simp [words] at h
  | [a], w, h => by
    have ha := a.toNat_lt
    rw [words, List.mem_singleton] at h
    omega
  | a :: b :: l, w, h => by
    have ha := a.toNat_lt
    have hb := b.toNat_lt
    rw [words, List.mem_cons] at h
    rcases h with rfl | h
    · omega
    · exact words_le l w h

lemma words_sum_le : ∀ buf : Bytes, (words buf).sum ≤ 0xFFFF * ((buf.length + 1) / 2)
  | [] => Nat.zero_le _
  | [a] => by
    have ha := a.toNat_lt
    simp only [words, List.sum_cons, List.sum_nil, List.length_singleton]
    omega
  | a :: b :: l => by
    have ha := a.toNat_lt
    have hb := b.toNat_lt
    have ih := words_sum_le l
    simp only [words, List.sum_cons, List.length_cons]
    omega

lemma toNat_eq_zero {a : UInt8} : a.toNat = 0 ↔ a = 0 := by
  rw [← UInt8.toNat_inj]
  rfl

lemma words_sum_eq_zero : ∀ {buf : Bytes}, (words buf).sum = 0 ↔ ∀ b ∈ buf, b = 0
  | [] => by simp [words]
  | [a] => by simp [words, toNat_eq_zero]
  | a :: b :: l => by
    have ih : (words l).sum = 0 ↔ ∀ b ∈ l, b = 0 := words_sum_eq_zero
    simp only [words, List.sum_cons, List.forall_mem_cons, Nat.add_eq_zero_iff, ih, toNat_eq_zero,
      Nat.mul_eq_zero, and_assoc]
    norm_num

lemma words_append : ∀ {a : Bytes} (b : Bytes), Even a.length → words (a ++ b) = words a ++ words b
  | [], _, _ => rfl
  | [_], _, h => by simp at h
  | x :: y :: a, b, h => by
    have ha : Even a.length := by
      rwa [List.length_cons, List.length_cons, Nat.even_add_one, Nat.even_add_one, not_not] at h
    rw [List.cons_append, List.cons_append, words, words, words_append b ha, List.cons_append]

lemma words_le16 {n : ℕ} (h : n < 2 ^ 16) : words (le16 n) = [n] := by
  simp only [le16, words, UInt8.toNat_ofNat', Nat.toUInt8, List.cons.injEq, and_true]
  omega

lemma checksumAddLoop_eq : ∀ (buf : Bytes) (c : ℕ),
    checksumAddLoop buf.length buf c = c + (words buf).sum
  | [], c => rfl
  | [a], c => by simp [checksumAddLoop, words, getU8]
  | a :: b :: l, c => by
    simp only [List.length_cons, checksumAddLoop, words, List.sum_cons, List.drop_succ_cons,
      List.drop_zero]
    rw [checksumAddLoop_eq l]
    simp only [getU16, getU8, List.getD_cons_zero, List.getD_cons_succ, Nat.zero_add]
    omega

/-- The exact sum, folded twice and cut. -/
lemma originaleAdd_eq (buf : Bytes) :
    originaleAdd buf buf.length =
      OnesComplement.fold 0xFFFF (OnesComplement.fold 0xFFFF (words buf).sum) % 2 ^ 16 := by
  rw [originaleAdd, checksumAdd, if_pos (Int.natCast_nonneg _), Int.toNat_natCast,
    checksumAddLoop_eq, Nat.zero_add]
  rfl

lemma checksum_eq (buf : Bytes) (len : ℤ) : checksum buf len = 0xFFFF - originaleAdd buf len := by
  simp only [checksum, originaleAdd, checksumAdd]
  rfl

/-- The most the sum of 65538 words can be. -/
lemma words_sum_bound {buf : Bytes} (h : buf.length ≤ 131076) :
    (words buf).sum ≤ (0xFFFF + 3) * 0xFFFF := by
  have hle := words_sum_le buf
  omega

lemma originaleAdd_sum {buf : Bytes} (h : (words buf).sum ≤ (0xFFFF + 3) * 0xFFFF) :
    originaleAdd buf buf.length = OnesComplement.sum 0xFFFF (words buf) := by
  have hle := OnesComplement.sum_le (words_le buf)
  rw [originaleAdd_eq, OnesComplement.fold_fold_sum (words_le buf) h, Nat.mod_eq_of_lt (by omega)]

/-- The checksum as one more word. -/
lemma originaleAdd_checksum {buf : Bytes} (h : (words buf).sum ≤ (0xFFFF + 3) * 0xFFFF)
    (heven : Even buf.length) :
    originaleAdd (buf ++ le16 (checksum buf buf.length)) (buf.length + 2) = 0xFFFF := by
  have hlen : ((buf.length : ℤ) + 2) = (buf ++ le16 (checksum buf buf.length)).length := by
    rw [List.length_append]
    rfl
  rw [hlen, originaleAdd_eq, words_append _ heven, words_le16 (checksum_lt buf _), checksum_eq,
    originaleAdd_sum h, OnesComplement.fold_fold_complement (words_le buf) h]
  rfl

/-- **The 16-bit checksum loses no carry** of up to 131076 bytes: the sum is that of the words
with every carry added back in, and with its complement appended all bits are ones. -/
theorem originaleAdd_complete (buf : Bytes) (h : buf.length ≤ 131076) :
    originaleAdd buf buf.length = OnesComplement.sum 0xFFFF (words buf) ∧
      originaleAdd buf buf.length ≡ (words buf).sum [MOD 0xFFFF] ∧
      (originaleAdd buf buf.length = 0 ↔ ∀ b ∈ buf, b = 0) ∧
      checksum buf buf.length = (~~~ BitVec.ofNat 16 (originaleAdd buf buf.length)).toNat ∧
      (Even buf.length →
        originaleAdd (buf ++ le16 (checksum buf buf.length)) (buf.length + 2) = 0xFFFF) := by
  have hsum := words_sum_bound h
  have heq := originaleAdd_sum hsum
  refine ⟨heq, ?_, ?_, ?_, originaleAdd_checksum hsum⟩
  · rw [heq]
    exact OnesComplement.sum_modEq 0xFFFF _
  · rw [heq, OnesComplement.sum_eq_zero, words_sum_eq_zero]
  · have hlt := OnesComplement.sum_le (words_le buf)
    rw [checksum_eq, BitVec.toNat_not, BitVec.toNat_ofNat, heq, Nat.mod_eq_of_lt (by omega)]

theorem originaleAdd_complete_three :
    originaleAdd [0xFF, 0xFF, 0x01] 3 = 1 ∧
      originaleAdd [0xFF, 0xFF, 0x01] 3 = OnesComplement.sum 0xFFFF (words [0xFF, 0xFF, 0x01]) :=
  ⟨by decide, (originaleAdd_complete [0xFF, 0xFF, 0x01] (by decide)).1⟩

end AmlogicUpdate.Checksum
