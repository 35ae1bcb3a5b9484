import AmlogicUpdate.CData

/-!
The checksums of `checksum.h`: a 16-bit folded sum of little-endian words, and a 32-bit
sum of little-endian double words.

The 32-bit sum is additive at positions divisible by four, which is what lets a sender add
up the checksums of 64 KiB pieces.
-/

namespace AmlogicUpdate.Checksum

open CData

/-- The loop of `checksum_add` and the odd byte after it. -/
def checksumAddLoop : ℕ → Bytes → ℕ → ℕ
  | 0, _, cksum => cksum
  | 1, buf, cksum => cksum + getU8 buf 0
  | len + 2, buf, cksum => checksumAddLoop len (buf.drop 2) (cksum + getU16 buf 0)

/-- A negative length skips the loop but is still nonzero at the test for an odd byte. -/
def checksumAdd (buf : Bytes) (len : ℤ) (noFlip : Bool) : ℕ :=
  let cksum := if 0 ≤ len then checksumAddLoop len.toNat buf 0 else getU8 buf 0
  let cksum := cksum / 2 ^ 16 + cksum % 2 ^ 16
  let cksum := cksum / 2 ^ 16 + cksum % 2 ^ 16
  if noFlip then cksum % 2 ^ 16 else 2 ^ 16 - 1 - cksum % 2 ^ 16

def originaleAdd (buf : Bytes) (len : ℤ) : ℕ := checksumAdd buf len true
def checksum (buf : Bytes) (len : ℤ) : ℕ := checksumAdd buf len false

/-- The loop of `checksum_64K` over `len >> 2` double words. -/
def checksum64KLoop : ℕ → Bytes → ℕ → ℕ
  | 0, _, cksum => cksum
  | n + 1, buf, cksum => checksum64KLoop n (buf.drop 4) ((cksum + getU32 buf 0) % 2 ^ 32)

def checksum64K (buf : Bytes) (len : ℤ) : ℕ :=
  let n := (len / 4).toNat
  let cksum := checksum64KLoop n buf 0
  let buf := buf.drop (4 * n)
  match (len % 4).toNat with
  | 1 => (cksum + getU8 buf 0) % 2 ^ 32
  | 2 => (cksum + getU16 buf 0) % 2 ^ 32
  | 3 => (cksum + getU32 buf 0 % 2 ^ 24) % 2 ^ 32
  | _ => cksum

lemma checksum_lt (buf : Bytes) (len : ℤ) : checksum buf len < 2 ^ 16 := by
  simp only [checksum, checksumAdd]; split <;> omega

lemma checksumAddLoop_take (n : ℕ) (buf : Bytes) (c : ℕ) :
    checksumAddLoop n (buf.take n) c = checksumAddLoop n buf c := by
  induction n using Nat.strong_induction_on generalizing buf c with
  | _ n ih =>
    match n, buf with
    | 0, _ => rfl
    | 1, [] => rfl
    | 1, _ :: _ => rfl
    | n + 2, [] => simp
    | n + 2, [a] => simp
    | n + 2, a :: b :: l =>
      simpa [checksumAddLoop, getU16, getU8] using ih n (by omega) l _

/-- The 16-bit checksum looks at the announced bytes only. -/
lemma checksum_take (buf : Bytes) (n : ℕ) : checksum (buf.take n) n = checksum buf n := by
  simp [checksum, checksumAdd, checksumAddLoop_take]

/-! ### The 32-bit sum as a sum over bytes -/

/-- The exact sum of the little-endian double words, a shorter last one padded with zeros. -/
def sum32 : Bytes → ℕ
  | b₀ :: b₁ :: b₂ :: b₃ :: l =>
    b₀.toNat + 2 ^ 8 * b₁.toNat + 2 ^ 16 * b₂.toNat + 2 ^ 24 * b₃.toNat + sum32 l
  | l => getU32 l 0

lemma sum32_append {a b : Bytes} (h : a.length % 4 = 0) :
    sum32 (a ++ b) = sum32 a + sum32 b := by
  match a, h with
  | [], _ => simp [sum32, getU32, getU16, getU8]
  | b₀ :: b₁ :: b₂ :: b₃ :: l, h =>
    have ih := sum32_append (a := l) (b := b) (by simp at h; omega)
    simp only [List.cons_append, sum32, ih]
    omega

lemma checksum64KLoop_eq (n : ℕ) (buf : Bytes) (c : ℕ) (h : 4 * n ≤ buf.length) :
    checksum64KLoop n buf c % 2 ^ 32 = (c + sum32 (buf.take (4 * n))) % 2 ^ 32 := by
  induction n generalizing buf c with
  | zero => simp [checksum64KLoop, sum32, getU32, getU16, getU8]
  | succ n ih =>
    obtain ⟨b₀, b₁, b₂, b₃, l, rfl⟩ : ∃ b₀ b₁ b₂ b₃ l, buf = b₀ :: b₁ :: b₂ :: b₃ :: l := by
      rcases buf with _ | ⟨b₀, _ | ⟨b₁, _ | ⟨b₂, _ | ⟨b₃, l⟩⟩⟩⟩
      on_goal 5 => exact ⟨b₀, b₁, b₂, b₃, l, rfl⟩
      all_goals
        simp only [List.length_cons, List.length_nil] at h
        omega
    have hl : 4 * n ≤ l.length := by simp at h; omega
    rw [checksum64KLoop, show 4 * (n + 1) = 4 * n + 1 + 1 + 1 + 1 by ring]
    simp only [List.drop_succ_cons, List.drop_zero, List.take_succ_cons, sum32]
    rw [ih l _ hl]
    simp only [getU32, getU16, getU8, List.getD_cons_zero, List.getD_cons_succ, Nat.zero_add,
      Nat.reduceAdd]
    omega

lemma checksum64KLoop_lt (n : ℕ) (buf : Bytes) {c : ℕ} (h : c < 2 ^ 32) :
    checksum64KLoop n buf c < 2 ^ 32 := by
  induction n generalizing buf c with
  | zero => exact h
  | succ n ih => exact ih _ (Nat.mod_lt _ (by norm_num))

/-- `checksum_64K` of a whole array is its sum of double words modulo `2 ^ 32`. -/
theorem checksum64K_eq (l : Bytes) : checksum64K l l.length = sum32 l % 2 ^ 32 := by
  set n := l.length / 4 with hn
  have hn' : ((l.length : ℤ) / 4).toNat = n := by omega
  have hm : ((l.length : ℤ) % 4).toNat = l.length % 4 := by omega
  have hsplit : sum32 l = sum32 (l.take (4 * n)) + sum32 (l.drop (4 * n)) := by
    rw [← sum32_append (by rw [List.length_take]; omega), List.take_append_drop]
  have hloop : checksum64KLoop n l 0 = sum32 (l.take (4 * n)) % 2 ^ 32 := by
    have h := checksum64KLoop_eq n l 0 (by omega)
    rwa [Nat.zero_add, Nat.mod_eq_of_lt (checksum64KLoop_lt n l (by norm_num))] at h
  have hlen : (l.drop (4 * n)).length = l.length % 4 := by rw [List.length_drop]; omega
  simp only [checksum64K, hn', hm, hloop, hsplit]
  -- the bytes after the last whole double word
  match hr : l.drop (4 * n), hlen with
  | [], hlen => rw [← hlen]; simp [sum32, getU32, getU16, getU8]
  | [a], hlen =>
    rw [← hlen]; simp [sum32, getU32, getU16, getU8]
  | [a, b], hlen =>
    rw [← hlen]; simp [sum32, getU32, getU16, getU8]
  | [a, b, c], hlen =>
    have := a.toNat_lt; have := b.toNat_lt; have := c.toNat_lt
    rw [← hlen]
    simp only [sum32, getU32, getU16, getU8, List.length_cons, List.length_nil,
      List.getD_cons_zero, List.getD_cons_succ, List.getD_nil, Nat.zero_add, Nat.reduceAdd,
      UInt8.toNat_zero]
    omega
  | a :: b :: c :: d :: r, hlen => simp at hlen; omega

/-- The checksum of two parts is the sum of theirs when the first is whole double words. -/
theorem checksum64K_append {a b : Bytes} (h : a.length % 4 = 0) :
    checksum64K (a ++ b) (a ++ b).length =
      (checksum64K a a.length + checksum64K b b.length) % 2 ^ 32 := by
  rw [checksum64K_eq, checksum64K_eq, checksum64K_eq, sum32_append h, ← Nat.add_mod]

lemma checksum64KLoop_take {m n : ℕ} (h : 4 * m ≤ n) (buf : Bytes) (c : ℕ) :
    checksum64KLoop m (buf.take n) c = checksum64KLoop m buf c := by
  induction m generalizing n buf c with
  | zero => rfl
  | succ m ih =>
    rw [checksum64KLoop, checksum64KLoop, getU32_take buf (by omega), List.drop_take]
    exact ih (by omega) _ _

/-- The 32-bit checksum looks at the announced bytes only. -/
lemma checksum64K_take (buf : Bytes) (n : ℕ) : checksum64K (buf.take n) n = checksum64K buf n := by
  have hm : ((n : ℤ) / 4).toNat = n / 4 := by omega
  have hr : ((n : ℤ) % 4).toNat = n % 4 := by omega
  simp only [checksum64K, hm, hr, checksum64KLoop_take (show 4 * (n / 4) ≤ n by omega)]
  -- the odd bytes at the end
  have hdrop : (buf.take n).drop (4 * (n / 4)) = (buf.drop (4 * (n / 4))).take (n % 4) := by
    rw [List.drop_take]; congr 1; omega
  have hlt : n % 4 < 4 := Nat.mod_lt _ (by norm_num)
  rw [hdrop]
  generalize buf.drop (4 * (n / 4)) = l
  match n % 4, hlt with
  | 0, _ => rfl
  | 1, _ => simp only [getU8_take l (show 0 < 1 by norm_num)]
  | 2, _ => simp only [getU16_take l (show 0 + 1 < 2 by norm_num)]
  | 3, _ =>
    have h₃ : getU8 (l.take 3) 3 = 0 := by simp [getU8]
    have h₂ : getU8 (l.take 3) 2 = getU8 l 2 := getU8_take l (by norm_num)
    have h₁ : getU16 (l.take 3) 0 = getU16 l 0 := getU16_take l (by norm_num)
    have h : getU32 (l.take 3) 0 % 2 ^ 24 = getU32 l 0 % 2 ^ 24 := by
      have h₂' : getU16 (l.take 3) 2 = getU8 l 2 := by rw [getU16, h₂, h₃]; omega
      have hl : getU16 l 2 = getU8 l 2 + 2 ^ 8 * getU8 l 3 := rfl
      rw [getU32, getU32, h₁, Nat.zero_add, h₂', hl]
      omega
    simp only [h]

lemma checksum64K_lt (buf : Bytes) (len : ℤ) : checksum64K buf len < 2 ^ 32 := by
  have := checksum64KLoop_lt (len / 4).toNat buf (c := 0) (by norm_num)
  simp only [checksum64K]
  split <;> omega

end AmlogicUpdate.Checksum
