import Mathlib.Tactic.Common
import Mathlib.Tactic.Ring
import Mathlib.Data.List.GetD

/-!
The data of a C program on a 64-bit little-endian machine: conversions between integer
types, byte arrays with the words stored in them, and the string functions of the standard
library.

Values of unsigned types are natural numbers and values of signed types integers; where a
conversion can change the value it is written out.
-/

namespace AmlogicUpdate.CData

/-! ### Integers -/

/-- Conversion to an unsigned 16-bit type. -/
def u16 (x : ℤ) : ℕ := (x % 2 ^ 16).toNat
/-- Conversion to an unsigned 32-bit type. -/
def u32 (x : ℤ) : ℕ := (x % 2 ^ 32).toNat
/-- Conversion to a signed 32-bit type, two's complement. -/
def i32 (x : ℤ) : ℤ := (x + 2 ^ 31) % 2 ^ 32 - 2 ^ 31

@[simp] lemma u16_natCast (n : ℕ) : u16 n = n % 2 ^ 16 := by unfold u16; omega
@[simp] lemma u32_natCast (n : ℕ) : u32 n = n % 2 ^ 32 := by unfold u32; omega

lemma u32_lt (x : ℤ) : u32 x < 2 ^ 32 := by unfold u32; omega

lemma u32_i32 {n : ℕ} (hn : n < 2 ^ 32) : u32 (i32 n) = n := by unfold u32 i32; omega
lemma i32_of_lt {n : ℕ} (h : n < 2 ^ 31) : i32 n = n := by unfold i32; omega

/-! ### Byte arrays -/

abbrev Bytes : Type := List UInt8

/-- The bytes of an ASCII text, without the terminating zero. -/
def ascii (cs : List Char) : Bytes := cs.map fun c => c.toNat.toUInt8

/-- `n` bytes from position `off` on, as far as the array goes. -/
def slice (buf : Bytes) (off n : ℕ) : Bytes := (buf.drop off).take n

/-- Storing `data` in `buf` from position `off` on. -/
def blit (buf : Bytes) (off : ℕ) (data : Bytes) : Bytes :=
  buf.take off ++ data ++ buf.drop (off + data.length)

def le16 (n : ℕ) : Bytes := [n.toUInt8, (n / 2 ^ 8).toUInt8]
def le32 (n : ℕ) : Bytes :=
  [n.toUInt8, (n / 2 ^ 8).toUInt8, (n / 2 ^ 16).toUInt8, (n / 2 ^ 24).toUInt8]

def getU8 (buf : Bytes) (off : ℕ) : ℕ := (buf.getD off 0).toNat
def getU16 (buf : Bytes) (off : ℕ) : ℕ := getU8 buf off + 2 ^ 8 * getU8 buf (off + 1)
def getU32 (buf : Bytes) (off : ℕ) : ℕ := getU16 buf off + 2 ^ 16 * getU16 buf (off + 2)

def setU32 (buf : Bytes) (off n : ℕ) : Bytes := blit buf off (le32 n)

@[simp] lemma le32_length (n : ℕ) : (le32 n).length = 4 := rfl

lemma getU8_lt (buf : Bytes) (off : ℕ) : getU8 buf off < 2 ^ 8 := UInt8.toNat_lt _
lemma getU16_lt (buf : Bytes) (off : ℕ) : getU16 buf off < 2 ^ 16 := by
  have := getU8_lt buf off; have := getU8_lt buf (off + 1); unfold getU16; omega
lemma getU32_lt (buf : Bytes) (off : ℕ) : getU32 buf off < 2 ^ 32 := by
  have := getU16_lt buf off; have := getU16_lt buf (off + 2); unfold getU32; omega

lemma getU8_append_left {a : Bytes} (b : Bytes) {off : ℕ} (h : off < a.length) :
    getU8 (a ++ b) off = getU8 a off := by
  rw [getU8, getU8, List.getD_append _ _ _ _ h]

lemma getU8_append_right (a b : Bytes) (off : ℕ) :
    getU8 (a ++ b) (a.length + off) = getU8 b off := by
  rw [getU8, getU8, List.getD_append_right _ _ _ _ (by omega), Nat.add_sub_cancel_left]

lemma getU8_take (l : Bytes) {n off : ℕ} (h : off < n) : getU8 (l.take n) off = getU8 l off := by
  simp only [getU8, List.getD_eq_getElem?_getD, List.getElem?_take, if_pos h]

lemma getU16_take (l : Bytes) {n off : ℕ} (h : off + 1 < n) :
    getU16 (l.take n) off = getU16 l off := by
  rw [getU16, getU16, getU8_take l (by omega), getU8_take l h]

lemma getU32_take (l : Bytes) {n off : ℕ} (h : off + 3 < n) :
    getU32 (l.take n) off = getU32 l off := by
  rw [getU32, getU32, getU16_take l (by omega), getU16_take l (by omega)]

lemma getU32_append_left {a : Bytes} (b : Bytes) {off : ℕ} (h : off + 3 < a.length) :
    getU32 (a ++ b) off = getU32 a off := by
  simp (disch := omega) only [getU32, getU16, getU8_append_left]

lemma getU32_append_right (a b : Bytes) (off : ℕ) :
    getU32 (a ++ b) (a.length + off) = getU32 b off := by
  simp only [getU32, getU16, Nat.add_assoc, getU8_append_right]

/-- A stored word is read back modulo its width. -/
@[simp] lemma getU32_le32 (n : ℕ) : getU32 (le32 n) 0 = n % 2 ^ 32 := by
  simp only [getU32, getU16, getU8, le32, List.getD_cons_zero, List.getD_cons_succ,
    Nat.zero_add, Nat.reduceAdd, UInt8.toNat_ofNat', Nat.toUInt8]
  omega

/-- Two slices that meet make one. -/
lemma slice_append_slice (buf : Bytes) (off n m : ℕ) :
    slice buf off n ++ slice buf (off + n) m = slice buf off (n + m) := by
  rw [slice, slice, slice, List.take_add, List.drop_drop]

@[simp] lemma slice_zero (buf : Bytes) (off : ℕ) : slice buf off 0 = [] := by simp [slice]

lemma slice_length (buf : Bytes) (off n : ℕ) :
    (slice buf off n).length = min n (buf.length - off) := by simp [slice]

lemma take_slice {buf : Bytes} {off n m : ℕ} (h : m ≤ n) :
    (slice buf off n).take m = slice buf off m := by
  rw [slice, slice, List.take_take, Nat.min_eq_left h]

lemma blit_length {buf data : Bytes} {off : ℕ} (h : off + data.length ≤ buf.length) :
    (blit buf off data).length = buf.length := by
  simp only [blit, List.length_append, List.length_take, List.length_drop]; omega

lemma blit_drop {buf data : Bytes} {off : ℕ} (h : off ≤ buf.length) :
    (blit buf off data).drop off = data ++ buf.drop (off + data.length) := by
  have hlen : (buf.take off).length = off := by simp [h]
  rw [blit, List.append_assoc, List.drop_append, hlen, Nat.sub_self, List.drop_zero,
    List.drop_of_length_le (by omega), List.nil_append]

/-- Storing past a part of known length, over another. -/
lemma blit_append (a b data : Bytes) {off : ℕ} (h : off = a.length) :
    blit (a ++ b) off data = a ++ data ++ b.drop data.length := by
  subst h
  rw [blit, List.take_left, List.drop_append]
  simp

lemma setU32_append (a b : Bytes) (n : ℕ) {off : ℕ} (h : off = a.length) :
    setU32 (a ++ b) off n = a ++ le32 n ++ b.drop 4 := blit_append a b (le32 n) h

lemma getU32_word (a b : Bytes) (n : ℕ) {off : ℕ} (h : off = a.length) :
    getU32 (a ++ le32 n ++ b) off = n % 2 ^ 32 := by
  subst h
  have happend := getU32_append_right a (le32 n ++ b) 0
  rw [getU32_append_left b (a := le32 n) (by rw [le32_length]; omega), getU32_le32] at happend
  rwa [List.append_assoc]

lemma blit_zero (buf data : Bytes) : blit buf 0 data = data ++ buf.drop data.length := by
  simp [blit]

/-! ### Blocks of 64 KiB -/

/-- Block `k` of an image; the last may be shorter. -/
def blockAt (image : Bytes) (k : ℕ) : Bytes := slice image (65536 * k) 65536

/-- The number of blocks of `n` bytes. -/
def blockCount (n : ℕ) : ℕ := (n + 65535) / 65536

/-- The blocks cover the image. -/
lemma le_blockCount (n : ℕ) : n ≤ 65536 * blockCount n := by unfold blockCount; omega

lemma blockAt_length (image : Bytes) (k : ℕ) :
    (blockAt image k).length = min 65536 (image.length - 65536 * k) := slice_length _ _ _

/-- The blocks of an image continue each other. -/
lemma take_blockAt (image : Bytes) (k : ℕ) :
    image.take (65536 * k) ++ blockAt image k = image.take (65536 * (k + 1)) := by
  rw [blockAt, slice, ← List.take_add, Nat.mul_succ]

/-! ### Strings -/

/-- `strncmp`: the difference of the first two characters that differ. -/
def strncmp : Bytes → Bytes → ℕ → ℤ
  | _, _, 0 => 0
  | a, b, n + 1 =>
    let x := a.headD 0
    let y := b.headD 0
    if x ≠ y then (x.toNat : ℤ) - y.toNat
    else if x = 0 then 0
    else strncmp a.tail b.tail n

/-- Against a text without zeros, of its own length, `strncmp` tests for a prefix. -/
lemma strncmp_eq_zero {s : Bytes} (hs : 0 ∉ s) (buf : Bytes) :
    strncmp buf s s.length = 0 ↔ s <+: buf := by
  induction s generalizing buf with
  | nil => simp [strncmp]
  | cons c s ih =>
    rw [List.mem_cons, not_or] at hs
    have hc : c ≠ 0 := Ne.symm hs.1
    cases buf with
    | nil =>
      have : c.toNat ≠ 0 := fun h => hc (UInt8.toNat_inj.mp h)
      simp [strncmp, hc.symm, this]
    | cons b buf =>
      simp only [List.length_cons, strncmp, List.headD_cons, List.tail_cons, List.cons_prefix_cons]
      by_cases h : b = c
      · subst h
        simpa [hc] using ih hs.2 buf
      · have hne : (b.toNat : ℤ) - c.toNat ≠ 0 := fun he =>
          h (UInt8.toNat_inj.mp (by omega))
        simp [h, hne, Ne.symm h]

end AmlogicUpdate.CData
