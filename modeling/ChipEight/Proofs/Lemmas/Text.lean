import ChipEight.Text.Hex
import Mathlib.Algebra.Group.Nat.Defs

/-!
# Digits, and patterns in a text

The hexadecimal digits of a number are read back by `Text.ofHexDigits`, and there are as many of them as asked for if the number is
not too large. A pattern can be looked for in a text (`Text.occurrences`) and put something else in its place (`Text.replaceAll`); where
it stands only once, at the end, exactly that is exchanged.
-/

namespace ChipEight.Text

/-! ## Hexadecimal digits -/

/-- The value of a hexadecimal digit. -/
def digitValue (c : Char) : Nat := if c.toNat < 'a'.toNat then c.toNat - '0'.toNat else c.toNat - 'a'.toNat + 10

/-- The number that hexadecimal digits write. -/
def ofHexDigits (cs : List Char) : Nat := cs.foldl (fun n c => 16 * n + digitValue c) 0

theorem digitValue_digitChar : ∀ d < 16, digitValue (Nat.digitChar d) = d := by
  decide

theorem ofHexDigits_append_singleton (cs : List Char) (c : Char) :
    ofHexDigits (cs ++ [c]) = 16 * ofHexDigits cs + digitValue c := by
  rw [ofHexDigits, List.foldl_append]
  rfl

theorem ofHexDigits_toDigits (n : Nat) : ofHexDigits (Nat.toDigits 16 n) = n := by
  induction n using Nat.strongRecOn with
  | ind n ih =>
    by_cases h : n < 16
    · rw [Nat.toDigits_of_lt_base h]
      simp [ofHexDigits, digitValue_digitChar n h]
    · have hhead := ih (n / 16) (by omega)
      have hlast := digitValue_digitChar (n % 16) (Nat.mod_lt n (by decide))
      rw [Nat.toDigits_of_base_le (by decide) (Nat.not_lt.mp h), ofHexDigits_append_singleton, hhead, hlast]
      omega

/-- Zeros in front do not change a number. -/
theorem ofHexDigits_hexDigits (width n : Nat) : ofHexDigits (hexDigits width n) = n := by
  have hzeros (k : Nat) : (List.replicate k '0').foldl (fun n c => 16 * n + digitValue c) 0 = 0 := by
    induction k with
    | zero => rfl
    | succ k ih => exact ih
  rw [hexDigits, List.leftpad, ofHexDigits, List.foldl_append, hzeros]
  exact ofHexDigits_toDigits n

/-- A number that is not too large has as many digits as asked for. -/
theorem length_hexDigits {width n : Nat} (hwidth : 0 < width) (h : n < 16 ^ width) : (hexDigits width n).length = width := by
  have hle := (Nat.length_toDigits_le_iff (b := 16) (by decide) hwidth).mpr h
  rw [hexDigits, List.leftpad, List.length_append, List.length_replicate]
  omega

/-- The last of more than one digit. -/
theorem hexDigits_succ {width : Nat} (hwidth : 0 < width) (n : Nat) :
    hexDigits (width + 1) n = hexDigits width (n / 16) ++ [Nat.digitChar (n % 16)] := by
  unfold hexDigits List.leftpad
  by_cases h : n < 16
  · obtain ⟨k, rfl⟩ := Nat.exists_eq_succ_of_ne_zero (Nat.ne_of_gt hwidth)
    rw [Nat.toDigits_of_lt_base h, Nat.div_eq_of_lt h, Nat.mod_eq_of_lt h, Nat.toDigits_zero]
    exact congrArg (· ++ [Nat.digitChar n]) List.replicate_succ'
  · rw [Nat.toDigits_of_base_le (by decide) (Nat.not_lt.mp h), List.length_append, List.length_singleton,
      Nat.add_sub_add_right, List.append_assoc]

theorem hexDigits_one {d : Nat} (h : d < 16) : hexDigits 1 d = [Nat.digitChar d] := by
  rw [hexDigits, Nat.toDigits_of_lt_base h]
  rfl

/-- The digits of a word are those of its bytes. -/
theorem hexDigits_word {low : Nat} (h : low < 256) (high : Nat) :
    hexDigits 4 (256 * high + low) = hexDigits 2 high ++ hexDigits 2 low := by
  have hhigh : (256 * high + low) / 16 / 16 = high := by omega
  have hthird : (256 * high + low) / 16 % 16 = low / 16 := by omega
  have hlast : (256 * high + low) % 16 = low % 16 := by omega
  rw [hexDigits_succ (by decide), hexDigits_succ (by decide), hexDigits_succ (n := low) (by decide),
    hexDigits_one (by omega), hhigh, hthird, hlast]
  exact List.append_assoc _ _ _

/-- Only digits are written. -/
theorem mem_toDigits {n : Nat} {c : Char} (h : c ∈ Nat.toDigits 16 n) : ∃ d < 16, c = Nat.digitChar d := by
  induction n using Nat.strongRecOn with
  | ind n ih =>
    by_cases hn : n < 16
    · rw [Nat.toDigits_of_lt_base hn] at h
      exact ⟨n, hn, List.mem_singleton.mp h⟩
    · rw [Nat.toDigits_of_base_le (by decide) (Nat.not_lt.mp hn)] at h
      rcases List.mem_append.mp h with hhead | hlast
      · exact ih (n / 16) (by omega) hhead
      · exact ⟨n % 16, Nat.mod_lt n (by decide), List.mem_singleton.mp hlast⟩

theorem mem_hexDigits {width n : Nat} {c : Char} (h : c ∈ hexDigits width n) : ∃ d < 16, c = Nat.digitChar d := by
  rcases List.mem_append.mp h with hzero | hdigit
  · exact ⟨0, by decide, List.eq_of_mem_replicate hzero⟩
  · exact mem_toDigits hdigit

/-- What is no digit does not stand in a number. -/
theorem not_mem_hexDigits {c : Char} (h : ∀ d < 16, Nat.digitChar d ≠ c) (width n : Nat) : c ∉ hexDigits width n := by
  intro hmem
  obtain ⟨d, hd, rfl⟩ := mem_hexDigits hmem
  exact h d hd rfl

theorem toList_hexUpper (width n : Nat) : (hexUpper width n).toList = (hexDigits width n).map Char.toUpper :=
  String.toList_ofList

/-- What is no upper-case digit does not stand in an upper-case number. -/
theorem not_mem_hexUpper {c : Char} (h : ∀ d < 16, (Nat.digitChar d).toUpper ≠ c) (width n : Nat) :
    c ∉ (hexUpper width n).toList := by
  rw [toList_hexUpper]
  intro hmem
  obtain ⟨digit, hdigit, rfl⟩ := List.mem_map.mp hmem
  obtain ⟨d, hd, rfl⟩ := mem_hexDigits hdigit
  exact h d hd rfl

theorem toList_hexNumber (width n : Nat) : (hexNumber width n).toList = '0' :: 'x' :: hexDigits width n := by
  rw [hexNumber, String.toList_append, toList_hex]
  rfl

/-! ## Patterns -/

/-- At how many places of a text a pattern stands. A pattern has at least one character. -/
def occurrences (pattern : List Char) : List Char → Nat
  | [] => 0
  | c :: rest => occurrences pattern rest + if pattern.isPrefixOf (c :: rest) then 1 else 0

/-- The text with something else in place of a pattern, wherever it stands, from left to right. A pattern has at least one
character. -/
def replaceAll (pattern new : List Char) : List Char → List Char
  | [] => []
  | c :: rest =>
    if pattern.isPrefixOf (c :: rest) then new ++ replaceAll pattern new (rest.drop (pattern.length - 1))
    else c :: replaceAll pattern new rest
termination_by text => text.length
decreasing_by
  · rw [List.length_drop, List.length_cons]
    omega
  · exact Nat.lt_add_one _

/-- A pattern stands at no more places than any of its characters does. -/
theorem occurrences_le_count {pattern : List Char} {d : Char} (h : d ∈ pattern) (text : List Char) :
    occurrences pattern text ≤ text.count d := by
  obtain ⟨front, back, rfl⟩ := List.append_of_mem h
  -- a place of the pattern is charged to the character that stands as far behind it as in the pattern
  have key : occurrences (front ++ d :: back) text ≤ (text.drop front.length).count d := by
    induction text with
    | nil => exact Nat.zero_le _
    | cons c rest ih =>
      have htail : rest.drop front.length = ((c :: rest).drop front.length).tail := by
        rw [List.tail_drop, List.drop_succ_cons]
      rw [htail] at ih
      rw [occurrences]
      split
      · rename_i hp
        obtain ⟨behind, hbehind⟩ := List.isPrefixOf_iff_prefix.mp hp
        have hdrop : (c :: rest).drop front.length = d :: (back ++ behind) := by
          rw [← hbehind, List.append_assoc, List.drop_left]
          rfl
        rw [hdrop] at ih ⊢
        rw [List.count_cons_self]
        exact Nat.add_le_add_right ih 1
      · exact Nat.le_trans ih ((List.tail_sublist _).count_le d)
  exact Nat.le_trans key ((List.drop_sublist _ _).count_le d)

/-- A pattern stands at the end of what ends with it. -/
theorem one_le_occurrences_append {pattern : List Char} (h : pattern ≠ []) (before : List Char) :
    1 ≤ occurrences pattern (before ++ pattern) := by
  induction before with
  | nil =>
    obtain ⟨c, rest, rfl⟩ := List.exists_cons_of_ne_nil h
    have hself : (c :: rest).isPrefixOf (c :: rest) = true := List.isPrefixOf_iff_prefix.mpr (List.prefix_refl _)
    rw [List.nil_append, occurrences, if_pos hself]
    omega
  | cons c rest ih =>
    rw [List.cons_append, occurrences]
    omega

/-- A pattern with a character that a text has only once stands only once. -/
theorem occurrences_append_eq_one {pattern before : List Char} {d : Char} (h : d ∈ pattern)
    (hcount : (before ++ pattern).count d = 1) : occurrences pattern (before ++ pattern) = 1 := by
  have hle := occurrences_le_count h (before ++ pattern)
  have hge := one_le_occurrences_append (List.ne_nil_of_mem h) before
  omega

/-- If a pattern stands at the end of a text and nowhere else, only the end is exchanged. -/
theorem replaceAll_append {pattern : List Char} (hne : pattern ≠ []) (new : List Char) {before : List Char}
    (h : occurrences pattern (before ++ pattern) = 1) : replaceAll pattern new (before ++ pattern) = before ++ new := by
  induction before with
  | nil =>
    obtain ⟨c, rest, rfl⟩ := List.exists_cons_of_ne_nil hne
    have hself : (c :: rest).isPrefixOf (c :: rest) = true := List.isPrefixOf_iff_prefix.mpr (List.prefix_refl _)
    rw [List.nil_append, replaceAll, if_pos hself, List.length_cons, Nat.add_sub_cancel, List.drop_length, replaceAll]
    exact List.append_nil _
  | cons c rest ih =>
    have hge := one_le_occurrences_append hne rest
    rw [List.cons_append, occurrences] at h
    split at h
    · omega
    · rename_i hp
      rw [List.cons_append, replaceAll, if_neg hp, ih h]
      rfl

end ChipEight.Text
