/-
  Texts that end in a number.

  Behind the last character that is no digit there is nothing but the number, so a text
  `xs ++ c :: digits` with `c` no digit has only one reading (`split_number`). The digits
  determine the number, with leading zeros (`padded_inj`) and with a sign (`signed_inj`).
-/
import Mathlib.Data.List.Basic
import Mathlib.Data.Int.Notation
import NeuroForge.Lib.Rounding

namespace NumberedText

def AllDigits (text : List Char) : Prop := ∀ c ∈ text, c.isDigit = true

/-- Cut where the digits at its end begin, a text has only one reading. -/
theorem split_number {xs ys : List Char} {c d : Char} {m n : List Char}
    (hc : c.isDigit = false) (hd : d.isDigit = false) (hm : AllDigits m) (hn : AllDigits n)
    (h : xs ++ c :: m = ys ++ d :: n) : xs = ys ∧ c = d ∧ m = n := by
  rcases List.append_eq_append_iff.mp h with ⟨more, rfl, hmore⟩ | ⟨more, rfl, hmore⟩
  · cases more with
    | nil =>
        obtain ⟨rfl, rfl⟩ := List.cons.inj hmore
        exact ⟨by simp, rfl, rfl⟩
    | cons x more =>
        obtain ⟨-, htail⟩ := List.cons.inj hmore
        have hdigit := hm d (by rw [htail]; simp)
        rw [hd] at hdigit
        cases hdigit
  · cases more with
    | nil =>
        obtain ⟨rfl, rfl⟩ := List.cons.inj hmore
        exact ⟨by simp, rfl, rfl⟩
    | cons x more =>
        obtain ⟨-, htail⟩ := List.cons.inj hmore
        have hdigit := hn c (by rw [htail]; simp)
        rw [hc] at hdigit
        cases hdigit

/-! ## Numbers -/

theorem toList_toString (n : ℕ) : (toString n).toList = Nat.toDigits 10 n :=
  String.toList_ofList

theorem allDigits_toDigits (n : ℕ) : AllDigits (Nat.toDigits 10 n) :=
  fun _ hc => Nat.isDigit_of_mem_toDigits (by decide) (by decide) hc

theorem toDigits_inj {m n : ℕ} (h : Nat.toDigits 10 m = Nat.toDigits 10 n) : m = n := by
  have hvalue := congrArg (fun digits => Nat.ofDigitChars 10 digits 0) h
  simpa using hvalue

theorem toList_padded (width n : ℕ) : (Rounding.padded width n).toList =
    List.replicate (width - (toString n).length) '0' ++ Nat.toDigits 10 n := by
  simp [Rounding.padded]

theorem allDigits_padded (width n : ℕ) : AllDigits (Rounding.padded width n).toList := by
  intro c hc
  rw [toList_padded] at hc
  rcases List.mem_append.mp hc with hc | hc
  · rw [(List.mem_replicate.mp hc).2]
    rfl
  · exact allDigits_toDigits n c hc

theorem padded_inj {width m n : ℕ}
    (h : (Rounding.padded width m).toList = (Rounding.padded width n).toList) : m = n := by
  have hvalue := congrArg (fun digits => Nat.ofDigitChars 10 digits 0) h
  simpa [toList_padded, Nat.ofDigitChars_append] using hvalue

/-- The text of an integer. -/
def signed (z : ℤ) : List Char :=
  match z with
  | .ofNat n => Nat.toDigits 10 n
  | .negSucc n => '-' :: Nat.toDigits 10 (n + 1)

theorem toList_toString_int (z : ℤ) : (toString z).toList = signed z := by
  cases z with
  | ofNat n => exact toList_toString n
  | negSucc n =>
      change (String.toList ("-" ++ Nat.repr (n + 1))) = _
      simp [signed, Nat.toList_repr]

/-- Behind a hyphen a signed number can be read back. -/
theorem signed_inj {xs : List Char} {a b : ℤ}
    (h : xs ++ '-' :: signed a = xs ++ '-' :: signed b) : a = b := by
  have hhyphen : ('-' : Char).isDigit = false := rfl
  rcases a with m | m <;> rcases b with n | n
  · have hdigits := (split_number hhyphen hhyphen (allDigits_toDigits m) (allDigits_toDigits n) h)
    rw [toDigits_inj hdigits.2.2]
  · have hsplit : xs ++ '-' :: Nat.toDigits 10 m =
        (xs ++ ['-']) ++ '-' :: Nat.toDigits 10 (n + 1) := by
      simpa [signed] using h
    have hlength := congrArg List.length
      (split_number hhyphen hhyphen (allDigits_toDigits m) (allDigits_toDigits _) hsplit).1
    simp at hlength
  · have hsplit : (xs ++ ['-']) ++ '-' :: Nat.toDigits 10 (m + 1) =
        xs ++ '-' :: Nat.toDigits 10 n := by
      simpa [signed] using h
    have hlength := congrArg List.length
      (split_number hhyphen hhyphen (allDigits_toDigits _) (allDigits_toDigits n) hsplit).1
    simp at hlength
  · have hsplit : (xs ++ ['-']) ++ '-' :: Nat.toDigits 10 (m + 1) =
        (xs ++ ['-']) ++ '-' :: Nat.toDigits 10 (n + 1) := by
      simpa [signed] using h
    have hdigits :=
      split_number hhyphen hhyphen (allDigits_toDigits _) (allDigits_toDigits _) hsplit
    have hsucc := toDigits_inj hdigits.2.2
    rw [Nat.succ.inj hsucc]

end NumberedText
