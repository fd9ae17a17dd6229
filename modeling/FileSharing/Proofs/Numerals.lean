import FileSharing.Text.Number
import FileSharing.Proofs.Trimming
import Mathlib.Tactic.IntervalCases

/-!
# Written numbers

A number that is written in decimal digits is read back as itself, wherever the text
goes on with something else than a digit.

## Main results

* `ofDigits_decimal` — the digits of a number stand for it.
* `readInt_decimal`, `readNatural_decimal` — **a number is read back from its written form.**
-/

namespace FileSharing.Text

variable {n : Nat} {b : UInt8} {s rest : Text}

/-! ### Digits -/

theorem digitByte_isDigit {d : Nat} (hd : d < 10) : isDigit (digitByte d) = true := by
  interval_cases d <;> rfl

theorem digitValue_digitByte {d : Nat} (hd : d < 10) : digitValue (digitByte d) = d := by
  interval_cases d <;> rfl

theorem decimal_of_lt (hn : n < 10) : decimal n = [digitByte n] := by
  rw [decimal, if_pos hn]

theorem decimal_of_le (hn : 10 ≤ n) : decimal n = decimal (n / 10) ++ [digitByte (n % 10)] := by
  rw [decimal, if_neg (Nat.not_lt.mpr hn)]

/-- A written number has digits only. -/
theorem isDigit_of_mem_decimal (hb : b ∈ decimal n) : isDigit b = true := by
  induction n using decimal.induct with
  | case1 n hn =>
    rw [decimal_of_lt hn, List.mem_singleton] at hb
    exact hb ▸ digitByte_isDigit hn
  | case2 n hn ih =>
    rw [decimal_of_le (Nat.not_lt.mp hn), List.mem_append, List.mem_singleton] at hb
    rcases hb with hb | rfl
    · exact ih hb
    · exact digitByte_isDigit (Nat.mod_lt n (by omega))

theorem decimal_ne_nil (n : Nat) : decimal n ≠ [] := by
  rcases Nat.lt_or_ge n 10 with hn | hn
  · simp [decimal_of_lt hn]
  · simp [decimal_of_le hn]

theorem ofDigits_concat (ds : Text) (b : UInt8) :
    ofDigits (ds ++ [b]) = 10 * ofDigits ds + digitValue b := by
  simp [ofDigits]

/-- The digits of a number stand for it. -/
theorem ofDigits_decimal (n : Nat) : ofDigits (decimal n) = n := by
  induction n using decimal.induct with
  | case1 n hn =>
    rw [decimal_of_lt hn]
    simp [ofDigits, digitValue_digitByte hn]
  | case2 n hn ih =>
    rw [decimal_of_le (Nat.not_lt.mp hn), ofDigits_concat, ih,
      digitValue_digitByte (Nat.mod_lt n (by omega))]
    omega

theorem signed_natCast (n : Nat) : signed n = decimal n := by
  rw [signed, if_neg (by omega), Int.natAbs_natCast]

/-! ### Reading -/

/-- A digit is no white space. -/
theorem not_isSpace_of_isDigit (h : isDigit b = true) : isSpace b = false := by
  simp only [isDigit, isSpace, Bool.and_eq_true, decide_eq_true_eq, UInt8.le_iff_toNat_le,
    Bool.or_eq_false_iff, beq_eq_false_iff_ne, Bool.and_eq_false_iff, decide_eq_false_iff_not,
    ne_eq, ← UInt8.toNat_inj] at h ⊢
  change 48 ≤ b.toNat ∧ b.toNat ≤ 57 at h
  change ¬b.toNat = 32 ∧ (¬9 ≤ b.toNat ∨ ¬b.toNat ≤ 13)
  omega

theorem not_isBlank_of_isDigit (h : isDigit b = true) : isBlank b = false :=
  not_isBlank_of_not_isSpace (not_isSpace_of_isDigit h)

theorem not_isLineEnd_of_isDigit (h : isDigit b = true) : isLineEnd b = false :=
  not_isLineEnd_of_not_isSpace (not_isSpace_of_isDigit h)

/-- The numeral at the start of a text that begins with a digit. -/
theorem numeral_of_digit (h : ∃ d ds, s = d :: ds ∧ isDigit d = true) :
    numeral s = (false, s.takeWhile isDigit, s.dropWhile isDigit) := by
  obtain ⟨d, ds, rfl, hd⟩ := h
  have hsign : d ≠ 45 ∧ d ≠ 43 := by
    constructor
    · rintro rfl
      exact absurd hd (by decide)
    · rintro rfl
      exact absurd hd (by decide)
  have hstart : (d :: ds).dropWhile isSpace = d :: ds :=
    List.dropWhile_cons_of_neg (by simp [not_isSpace_of_isDigit hd])
  simp only [numeral, hstart]
  split
  · next h => exact absurd (List.cons.inj h).1 hsign.1
  · next h => exact absurd (List.cons.inj h).1 hsign.2
  · rfl

/-- White space before a numeral is skipped. -/
theorem numeral_cons_space (hb : isSpace b = true) (s : Text) : numeral (b :: s) = numeral s := by
  simp only [numeral]
  rw [List.dropWhile_cons_of_pos hb]

/-- A written number ends where something else than a digit follows. -/
theorem numeral_decimal (n : Nat) (hrest : ∀ b ∈ rest.head?, isDigit b = false) :
    numeral (decimal n ++ rest) = (false, decimal n, rest) := by
  have hdigits : ∀ b ∈ decimal n, isDigit b = true := fun b hb => isDigit_of_mem_decimal hb
  rw [numeral_of_digit, takeWhile_append_eq hdigits hrest, dropWhile_append_eq hdigits hrest]
  obtain ⟨d, ds, hds⟩ := List.exists_cons_of_ne_nil (decimal_ne_nil n)
  refine ⟨d, ds ++ rest, by rw [hds, List.cons_append], hdigits d ?_⟩
  rw [hds]
  exact List.mem_cons_self

/-- **A number is read back from its written form**, as long as it has 31 bits. -/
theorem readInt_decimal (hn : n ≤ 2147483647) (hrest : ∀ b ∈ rest.head?, isDigit b = false) :
    readInt (decimal n ++ rest) = ((n : Int), rest) := by
  rw [readInt, numeral_decimal n hrest]
  simp only [ofDigits_decimal, Bool.false_eq_true, if_false]
  rw [Int.min_eq_left (by omega)]

/-- So is a number that is read without a sign, as long as it has 32 bits. -/
theorem readNatural_decimal (n : UInt32) (hrest : ∀ b ∈ rest.head?, isDigit b = false) :
    readNatural (decimal n.toNat ++ rest) = n := by
  have hbound : n.toNat < 2 ^ 32 := n.toNat_lt
  rw [readNatural, numeral_decimal n.toNat hrest]
  simp only [ofDigits_decimal, Bool.false_eq_true, if_false]
  rw [if_neg (by omega), UInt32.ofNat_toNat]

theorem readInt_cons_space (hb : isSpace b = true) (s : Text) : readInt (b :: s) = readInt s := by
  rw [readInt, numeral_cons_space hb]
  rfl

/-- What follows a number is the end of the text. -/
theorem readInt_suffix (s : Text) : (readInt s).2 <:+ s := by
  have hskip : s.dropWhile isSpace <:+ s := List.dropWhile_suffix _
  have hnumeral : (numeral s).2.2 <:+ s := by
    simp only [numeral]
    split
    · next u hu =>
      have hsign : u <:+ s.dropWhile isSpace := hu ▸ List.suffix_cons 45 u
      exact (List.dropWhile_suffix _).trans (hsign.trans hskip)
    · next u hu =>
      have hsign : u <:+ s.dropWhile isSpace := hu ▸ List.suffix_cons 43 u
      exact (List.dropWhile_suffix _).trans (hsign.trans hskip)
    · exact (List.dropWhile_suffix _).trans hskip
  exact hnumeral

end FileSharing.Text
