import Mathlib.Data.List.TakeWhile
import AmlogicUpdate.Serial

/-!
A reply with a serial, read into a buffer that held another one.

A reply may be shorter than the buffer, and what is behind it is then the end of what was there
before. The text is taken apart without regard to where the reply ended.
-/

namespace AmlogicUpdate.SerialReply

open CData BulkCmd Update UsbRomDrv Serial

/-! ### The serial in a text -/

/-- `success:(` -/
def strLabel : Bytes := strSuccess ++ [58, 40]

/-- The characters up to the parenthesis, or to the end of the text. -/
def serialPart (s : Bytes) : Bytes := s.takeWhile fun c => c ≠ 0 ∧ c ≠ 41

/-- The serial of a reply, empty where there is none. -/
def serialOf (s : Bytes) : Bytes := if strLabel <+: s then serialPart (s.drop 9) else []

lemma scanReply_label (rest : Bytes) :
    scanReply (strLabel ++ rest) =
      (strSuccess, serialPart rest, if serialPart rest = [] then 1 else 2) := by
  have hall : strLabel.all (· ≠ 0) = true := rfl
  have htext : (strLabel ++ rest).takeWhile (· ≠ 0) = strLabel ++ rest.takeWhile (· ≠ 0) :=
    List.takeWhile_append_of_pos (List.all_eq_true.mp hall)
  have hpart : (rest.takeWhile (· ≠ 0)).takeWhile (· ≠ 41) = serialPart rest := by
    rw [List.takeWhile_takeWhile, serialPart]
    congr 1
    funext c
    simp [and_comm]
  have hcolon : (strLabel ++ rest.takeWhile (· ≠ 0)).takeWhile (· ≠ 58) = strSuccess := rfl
  unfold scanReply
  simp only [htext, hcolon]
  rw [if_neg (by simp [strLabel]), if_neg (by decide)]
  change (strSuccess, (rest.takeWhile (· ≠ 0)).takeWhile (· ≠ 41),
    if (rest.takeWhile (· ≠ 0)).takeWhile (· ≠ 41) = [] then (1 : ℤ) else 2) = _
  rw [hpart]

/-- Without the label no second field is found behind the first. -/
lemma scanReply_other {s : Bytes} (h : ¬ strLabel <+: s) (hfirst : (scanReply s).1 = strSuccess) :
    (scanReply s).2.1 = [] ∧ (scanReply s).2.2 ≠ 2 := by
  unfold scanReply at hfirst ⊢
  dsimp only at hfirst ⊢
  split_ifs at hfirst ⊢ with hempty hone
  · exact ⟨rfl, by decide⟩
  · exact ⟨rfl, by decide⟩
  · split at hfirst
    · next rest heq =>
      -- the first field, with the two characters behind it
      have hlabel : s.takeWhile (· ≠ 0) = strLabel ++ rest := by
        have hsplit := List.prefix_iff_eq_append.mp
          (List.takeWhile_prefix (· ≠ (58 : UInt8)) (l := s.takeWhile (· ≠ 0)))
        rw [heq] at hsplit
        rw [← hsplit, show (s.takeWhile (· ≠ 0)).takeWhile (· ≠ 58) = strSuccess from hfirst]
        rfl
      refine absurd ?_ h
      rw [← List.takeWhile_append_dropWhile (p := (· ≠ (0 : UInt8))) (l := s), hlabel,
        List.append_assoc]
      exact List.prefix_append _ _
    · exact ⟨rfl, fun hn : (1 : ℤ) = 2 => absurd hn (by decide)⟩

lemma serialOf_label (rest : Bytes) : serialOf (strLabel ++ rest) = serialPart rest :=
  if_pos (List.prefix_append _ _)

lemma serialOf_other {s : Bytes} (hfirst : (scanReply s).1 ≠ strSuccess) : serialOf s = [] := by
  refine if_neg fun hlabel => hfirst ?_
  obtain ⟨rest, rfl⟩ := hlabel
  rw [scanReply_label]

lemma scanReply_second {s : Bytes} (hfirst : (scanReply s).1 = strSuccess) :
    (scanReply s).2.1 = serialOf s := by
  by_cases hlabel : strLabel <+: s
  · obtain ⟨rest, rfl⟩ := hlabel
    rw [scanReply_label, serialOf_label]
  · rw [(scanReply_other hlabel hfirst).1, serialOf, if_neg hlabel]

/-- Where `aml_get_sn` finds no serial there is none. -/
lemma scanReply_none (s : Bytes) :
    ((scanReply s).1 ≠ strSuccess ∨ (scanReply s).2.2 ≠ 2) ↔ serialOf s = [] := by
  by_cases hlabel : strLabel <+: s
  · obtain ⟨rest, rfl⟩ := hlabel
    rw [scanReply_label, serialOf_label]
    split_ifs with hempty
    · simp [hempty]
    · simp [hempty]
  · rw [serialOf, if_neg hlabel]
    refine iff_of_true ?_ rfl
    by_cases hfirst : (scanReply s).1 = strSuccess
    · exact .inr (scanReply_other hlabel hfirst).2
    · exact .inl hfirst

/-! ### What a short reply leaves -/

/-- What is looked at of a serial tells apart no more and no less behind the same characters. -/
structure Observes {β : Type} (obs : Bytes → β) : Prop where
  append : ∀ x y y', obs (x ++ y) = obs (x ++ y') ↔ obs y = obs y'
  empty : ∀ y, obs y = obs [] → y = []

lemma observes_serial : Observes (id : Bytes → Bytes) :=
  ⟨fun _ _ _ => List.append_right_inj _, fun _ h => h⟩

lemma observes_length : Observes (List.length : Bytes → ℕ) :=
  ⟨fun _ _ _ => by simp, fun _ h => List.length_eq_zero_iff.mp h⟩

/-- Two buffers that no reply of up to 64 bytes on top of them tells apart: the same request
fields, the same end of a label, the same end of a serial. -/
structure Agrees {β : Type} (obs : Bytes → β) (b b' : Bytes) : Prop where
  fields : ∀ i < 4, getU8 b i = getU8 b' i
  label : ∀ k ≤ 8, (strLabel.drop k <+: b.drop k ↔ strLabel.drop k <+: b'.drop k) ∨
    serialPart (b.drop 9) = []
  serial : ∀ k, 9 ≤ k → k ≤ 64 → obs (serialPart (b.drop k)) = obs (serialPart (b'.drop k))

lemma getU8_overlay (b d : Bytes) (i : ℕ) :
    getU8 (blit b 0 d) i = if i < d.length then getU8 d i else getU8 b i := by
  rw [blit_zero]
  split_ifs with h
  · exact getU8_append_left _ h
  · obtain ⟨j, rfl⟩ := Nat.exists_eq_add_of_le (Nat.le_of_not_lt h)
    rw [getU8_append_right, getU8, getU8, List.getD_eq_getElem?_getD, List.getElem?_drop,
      List.getD_eq_getElem?_getD]

/-- The bytes of a field are those of an equal one. -/
lemma getU8_of_getU16 {b b' : Bytes} {off : ℕ} (h : getU16 b off = getU16 b' off) :
    getU8 b off = getU8 b' off ∧ getU8 b (off + 1) = getU8 b' (off + 1) := by
  have hlow := getU8_lt b off
  have hlow' := getU8_lt b' off
  unfold getU16 at h
  omega

/-- A reply on top of a longer one. -/
lemma blit_blit (b d e : Bytes) :
    blit (blit b 0 d) 0 e = blit b 0 (e ++ d.drop e.length) := by
  rw [blit_zero, blit_zero, blit_zero, List.drop_append, List.drop_drop, List.append_assoc]
  congr 2
  simp only [List.length_append, List.length_drop]
  congr 1
  omega

lemma serialPart_append (x y : Bytes) :
    serialPart (x ++ y) = if (serialPart x).length = x.length then x ++ serialPart y
      else serialPart x := List.takeWhile_append

/-- A reply with the whole label. -/
lemma serialOf_long (b : Bytes) {d : Bytes} (h : 9 ≤ d.length) :
    serialOf (blit b 0 d) =
      if strLabel <+: d then serialPart (d.drop 9 ++ b.drop d.length) else [] := by
  have hdrop : (d ++ b.drop d.length).drop 9 = d.drop 9 ++ b.drop d.length :=
    List.drop_append_of_le_length h
  have hlabel : strLabel <+: d ++ b.drop d.length ↔ strLabel <+: d :=
    ⟨fun hp => List.prefix_of_prefix_length_le hp (List.prefix_append _ _) h,
      fun hp => hp.trans (List.prefix_append _ _)⟩
  rw [blit_zero, serialOf, hdrop]
  exact if_congr hlabel rfl rfl

lemma strLabel_take_length {k : ℕ} (h : k ≤ 9) : (strLabel.take k).length = k :=
  List.length_take_of_le h

/-- One that ends inside of the label: the rest of the label and the serial are old. -/
lemma serialOf_short (b : Bytes) {k : ℕ} (h : k ≤ 9) :
    serialOf (blit b 0 (strLabel.take k)) =
      if strLabel.drop k <+: b.drop k then serialPart (b.drop 9) else [] := by
  have hlen := strLabel_take_length h
  have hdrop : (strLabel.take k ++ b.drop k).drop 9 = b.drop 9 := by
    rw [List.drop_append, hlen, List.drop_of_length_le (by omega), List.nil_append,
      List.drop_drop, Nat.add_sub_cancel' h]
  have hlabel : strLabel <+: strLabel.take k ++ b.drop k ↔ strLabel.drop k <+: b.drop k := by
    have hboth : strLabel.take k ++ strLabel.drop k <+: strLabel.take k ++ b.drop k ↔
        strLabel.drop k <+: b.drop k := List.prefix_append_right_inj _
    rwa [List.take_append_drop] at hboth
  rw [blit_zero, hlen, serialOf, hdrop]
  exact if_congr hlabel rfl rfl

/-- One that begins in another way. -/
lemma serialOf_begins (b : Bytes) {d : Bytes} (h : d.length ≤ 9) (hd : ¬ d <+: strLabel) :
    serialOf (blit b 0 d) = [] := by
  rw [blit_zero]
  exact if_neg fun hp => hd (List.prefix_of_prefix_length_le (List.prefix_append _ _) hp h)

section Agrees

variable {β : Type} {obs : Bytes → β} {b b' : Bytes}

/-- No reply tells apart what agrees. -/
lemma Agrees.unseen (hobs : Observes obs) (h : Agrees obs b b') {d : Bytes} (hd : d.length ≤ 64) :
    obs (serialOf (blit b 0 d)) = obs (serialOf (blit b' 0 d)) := by
  by_cases hlong : 9 ≤ d.length
  · rw [serialOf_long b hlong, serialOf_long b' hlong]
    split_ifs
    · rw [serialPart_append, serialPart_append]
      split_ifs
      · exact (hobs.append _ _ _).mpr (h.serial _ hlong hd)
      · rfl
    · rfl
  by_cases hlabel : d <+: strLabel
  · have hshort : d.length ≤ 8 := by omega
    have hserial := h.serial 9 le_rfl (by decide)
    rw [List.prefix_iff_eq_take.mp hlabel, serialOf_short b (by omega),
      serialOf_short b' (by omega)]
    rcases h.label _ hshort with hiff | hnone
    · simp only [hiff]
      split_ifs
      · exact hserial
      · rfl
    · rw [hnone] at hserial
      rw [hobs.empty _ hserial.symm, hnone, ite_self, ite_self]
  · rw [serialOf_begins b (by omega) hlabel, serialOf_begins b' (by omega) hlabel]

/-- The end of a serial is seen behind a label and characters of a serial. -/
lemma serial_seen (hobs : Observes obs) (h : ∀ d : Bytes, d.length ≤ 64 →
    obs (serialOf (blit b 0 d)) = obs (serialOf (blit b' 0 d))) {k : ℕ} (hk : 9 ≤ k)
    (hk' : k ≤ 64) : obs (serialPart (b.drop k)) = obs (serialPart (b'.drop k)) := by
  have hlen : (strLabel ++ List.replicate (k - 9) 65).length = k := by
    rw [List.length_append, List.length_replicate]
    exact Nat.add_sub_cancel' hk
  have hhere := h (strLabel ++ List.replicate (k - 9) 65) (by omega)
  have hpart : ∀ y, serialPart (List.replicate (k - 9) 65 ++ y) =
      List.replicate (k - 9) 65 ++ serialPart y := fun y =>
    List.takeWhile_append_of_pos fun c hc => by
      rw [List.eq_of_mem_replicate hc]
      decide
  have hdrop : (strLabel ++ List.replicate (k - 9) 65).drop 9 = List.replicate (k - 9) 65 :=
    List.drop_left' rfl
  rw [serialOf_long b (by omega), serialOf_long b' (by omega), if_pos (List.prefix_append _ _),
    if_pos (List.prefix_append _ _), hlen, hdrop, hpart, hpart] at hhere
  exact (hobs.append _ _ _).mp hhere

/-- The end of a label is seen behind the start of one, unless there is no serial to see. -/
lemma label_seen (hobs : Observes obs) (h : ∀ d : Bytes, d.length ≤ 64 →
    obs (serialOf (blit b 0 d)) = obs (serialOf (blit b' 0 d))) {k : ℕ} (hk : k ≤ 8) :
    (strLabel.drop k <+: b.drop k ↔ strLabel.drop k <+: b'.drop k) ∨
      serialPart (b.drop 9) = [] := by
  have hserial := serial_seen hobs h le_rfl (by decide)
  have hhere := h (strLabel.take k) (by rw [strLabel_take_length (by omega)]; omega)
  rw [serialOf_short b (by omega), serialOf_short b' (by omega)] at hhere
  by_cases hp : strLabel.drop k <+: b.drop k
  · by_cases hp' : strLabel.drop k <+: b'.drop k
    · exact .inl (iff_of_true hp hp')
    · rw [if_pos hp, if_neg hp'] at hhere
      exact .inr (hobs.empty _ hhere)
  · by_cases hp' : strLabel.drop k <+: b'.drop k
    · rw [if_neg hp, if_pos hp', ← hserial] at hhere
      exact .inr (hobs.empty _ hhere.symm)
    · exact .inl (iff_of_false hp hp')

/-- **Nothing but `Agrees` is seen** in the buffers under any further reply. -/
theorem agrees_iff (hobs : Observes obs) (b b' : Bytes) :
    Agrees obs b b' ↔ (∀ i < 4, getU8 b i = getU8 b' i) ∧
      ∀ d : Bytes, d.length ≤ 64 →
        obs (serialOf (blit b 0 d)) = obs (serialOf (blit b' 0 d)) :=
  ⟨fun h => ⟨h.fields, fun _ hd => h.unseen hobs hd⟩, fun h =>
    ⟨h.1, fun _ hk => label_seen hobs h.2 hk, fun _ hk hk' => serial_seen hobs h.2 hk hk'⟩⟩

end Agrees

end AmlogicUpdate.SerialReply
