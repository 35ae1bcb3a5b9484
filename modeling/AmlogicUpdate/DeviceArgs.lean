import AmlogicUpdate.CommandLine

/-!
The two parsers of the argument for the device: the one with `std::string`, and the one that
replaced it.

They agree on numbers up to the sign that only the second looks at, and disagree on paths, where
the second compares one character less than it measures.
-/

namespace AmlogicUpdate.DeviceArgs

open CData ChipCommands CommandLine

def strPathDash : Bytes := ascii ['p', 'a', 't', 'h', '-']

/-- `s.compare(0, n, text) == 0`. -/
def comparesEqual (s : Bytes) (n : ℕ) (text : Bytes) : Prop := s.take n = text

instance (s : Bytes) (n : ℕ) (text : Bytes) : Decidable (comparesEqual s n text) :=
  inferInstanceAs (Decidable (s.take n = text))

/-- The parser without `BUGFIX`. -/
def deviceArgOriginal (s : Bytes) : DeviceArg :=
  if comparesEqual s 3 strDev then
    if 5 < s.length then .err
    else
      let devNo := atoi (s.drop 3)
      if 16 < devNo then .err else .number devNo
  else if comparesEqual s 5 strPathDash then .path (s.drop 5)
  else .ordinary

/-- A negative number of a device is an error as well. -/
def rejectNegative : DeviceArg → DeviceArg
  | .number devNo => if devNo < 0 then .err else .number devNo
  | c => c

/-- The parsers differ in the sign of a number at most, and a path is named as one. -/
structure Agrees (s : Bytes) : Prop where
  same : deviceArg s = rejectNegative (deviceArgOriginal s)
  named : ∀ devPath, deviceArg s = .path devPath → strPathDash <+: s

/-- `path` goes on with something else than a dash. -/
def Undashed (s : Bytes) : Prop :=
  5 ≤ s.length ∧ strPath <+: s ∧ ¬ strPathDash <+: s

section Parsers

variable {s : Bytes}

lemma comparesEqual_iff {n : ℕ} {text : Bytes} (h : text.length = n) :
    comparesEqual s n text ↔ text <+: s := by
  subst h
  rw [comparesEqual, List.prefix_iff_eq_take, eq_comm]

/-- The first parser on an argument that names a device by number. -/
lemma deviceArg_dev (h : strDev <+: s) : deviceArg s = rejectNegative (deviceArgOriginal s) := by
  have hlen : 3 ≤ s.length := h.length_le
  have heq : comparesEqual s 3 strDev := (comparesEqual_iff rfl).mpr h
  unfold deviceArg deviceArgOriginal
  rw [if_pos ⟨hlen, heq⟩, if_pos heq]
  by_cases hlong : 5 < s.length
  · rw [if_pos hlong, if_pos hlong]
    rfl
  rw [if_neg hlong, if_neg hlong]
  dsimp only
  by_cases hlarge : 16 < atoi (s.drop 3)
  · rw [if_pos (.inr hlarge), if_pos hlarge]
    rfl
  · rw [if_neg hlarge]
    by_cases hlow : atoi (s.drop 3) < 0
    · rw [if_pos (.inl hlow), rejectNegative, if_pos hlow]
    · rw [if_neg (not_or.mpr ⟨hlow, hlarge⟩), rejectNegative, if_neg hlow]

lemma deviceArg_dev_path (h : strDev <+: s) (devPath : Bytes) : deviceArg s ≠ .path devPath := by
  have heq : s.take 3 = strDev := (comparesEqual_iff rfl).mpr h
  unfold deviceArg
  rw [if_pos ⟨h.length_le, heq⟩]
  dsimp only
  split_ifs
  · exact fun hp => by cases hp
  · exact fun hp => by cases hp
  · exact fun hp => by cases hp

/-- Any other argument, to the first parser. -/
lemma deviceArg_other (h : ¬ strDev <+: s) :
    deviceArg s = if 5 ≤ s.length ∧ strPath <+: s then .path (s.drop 5) else .ordinary := by
  have hdev : ¬ (3 ≤ s.length ∧ s.take 3 = strDev) := fun he =>
    h ((comparesEqual_iff rfl).mp he.2)
  have hpath : s.take 4 = strPath ↔ strPath <+: s := comparesEqual_iff rfl
  unfold deviceArg
  rw [if_neg hdev]
  simp only [hpath]

/-- Any other argument, to the second. -/
lemma deviceArgOriginal_other (h : ¬ strDev <+: s) :
    deviceArgOriginal s = if strPathDash <+: s then .path (s.drop 5) else .ordinary := by
  have hdev : ¬ comparesEqual s 3 strDev := fun he => h ((comparesEqual_iff rfl).mp he)
  have hpath : comparesEqual s 5 strPathDash ↔ strPathDash <+: s := comparesEqual_iff rfl
  unfold deviceArgOriginal
  rw [if_neg hdev]
  simp only [hpath]

lemma dashed (h : strPathDash <+: s) : 5 ≤ s.length ∧ strPath <+: s :=
  ⟨h.length_le, (by decide : strPath <+: strPathDash).trans h⟩

/-- A path does not begin like a number. -/
lemma not_dev_of_path (h : strPath <+: s) : ¬ strDev <+: s := fun hdev =>
  absurd (List.prefix_of_prefix_length_le hdev h (by decide)) (by decide)

end Parsers

/-- **The two parsers agree exactly if** a `path` is followed by a dash or by nothing. -/
theorem deviceArg_agrees_iff (s : Bytes) : Agrees s ↔ ¬ Undashed s := by
  constructor
  · rintro h ⟨hlen, hpath, hdash⟩
    have hdev := deviceArg_other (not_dev_of_path hpath)
    rw [if_pos ⟨hlen, hpath⟩] at hdev
    exact hdash (h.named _ hdev)
  · intro h
    by_cases hdev : strDev <+: s
    · refine ⟨deviceArg_dev hdev, fun devPath hp => ?_⟩
      exact absurd hp (deviceArg_dev_path hdev devPath)
    · by_cases hdash : strPathDash <+: s
      · refine ⟨?_, fun _ _ => hdash⟩
        rw [deviceArg_other hdev, deviceArgOriginal_other hdev, if_pos (dashed hdash), if_pos hdash]
        rfl
      · have hpath : ¬ (5 ≤ s.length ∧ strPath <+: s) := fun hp => h ⟨hp.1, hp.2, hdash⟩
        have hother := deviceArg_other hdev
        rw [if_neg hpath] at hother
        refine ⟨?_, fun devPath hp => ?_⟩
        · rw [hother, deviceArgOriginal_other hdev, if_neg hdash]
          rfl
        · rw [hother] at hp
          cases hp

/-- The name of a file. -/
def pathology : Bytes := ascii ['p', 'a', 't', 'h', 'o', 'l', 'o', 'g', 'y']

theorem pathology_not_agrees :
    deviceArg pathology = .path (ascii ['l', 'o', 'g', 'y']) ∧
      deviceArgOriginal pathology = .ordinary ∧ ¬ ∀ s, Agrees s := by
  have hnew : deviceArg pathology = .path (ascii ['l', 'o', 'g', 'y']) := by decide
  refine ⟨hnew, by decide, fun h => ?_⟩
  exact absurd ((h pathology).named _ hnew) (by decide)

end AmlogicUpdate.DeviceArgs
