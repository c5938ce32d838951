/-
  The strings and numbers of JSON text, written and read back.

  A reader takes a value off the front of a text and gives the rest. A string ends at its
  quote, so it is read back whatever comes after it (`readChars_escaped`). A number has no
  end of its own and is read back where a comma, a line break or nothing follows
  (`readNumber_signed`, `readNumber_text`). The text chosen for a float and the float nearest
  to a text are not fixed here.
-/
import Mathlib.Algebra.Order.Ring.Rat
import NeuroForge.Lib.Json
import NeuroForge.Lib.NumberedText

namespace JsonText

open NumberedText

variable {α : Type}

abbrev Reader (α : Type) := List Char → Option (α × List Char)

/-- What may follow a number. -/
def Ends (rest : List Char) : Prop := rest.head? = none ∨ rest.head? = some ',' ∨
  rest.head? = some '\n'

/-! ## Strings -/

def quote : Char := '\x22'
def backslash : Char := '\x5c'

/-- The characters that are escaped by a letter, with the letter. -/
def shortEscapes : Dict Char Char :=
  [(quote, quote), (backslash, backslash), ('\x08', 'b'), ('\x0c', 'f'), ('\n', 'n'), ('\r', 'r'),
    ('\t', 't')]

def escape (c : Char) : List Char :=
  match Dict.get? shortEscapes c with
  | some letter => [backslash, letter]
  | none =>
      if c.toNat < 32 then
        [backslash, 'u', '0', '0', Nat.digitChar (c.toNat / 16), Nat.digitChar (c.toNat % 16)]
      else [c]

def hexValue (c : Char) : Option ℕ :=
  if '0' ≤ c ∧ c ≤ '9' then some (c.toNat - '0'.toNat)
  else if 'a' ≤ c ∧ c ≤ 'f' then some (c.toNat - 'a'.toNat + 10)
  else if 'A' ≤ c ∧ c ≤ 'F' then some (c.toNat - 'A'.toNat + 10)
  else none

/-- The character of four hexadecimal digits; no character is a surrogate. -/
def hexChar (digits : List Char) : Option Char := do
  let values ← digits.mapM hexValue
  let code := values.foldl (fun code v => 16 * code + v) 0
  if code.isValidChar then some (Char.ofNat code) else none

def unescape (letter : Char) : Option Char :=
  if letter = '/' then some '/' else (shortEscapes.find? fun e => e.2 = letter).map Prod.fst

/-- The characters up to the closing quote. -/
def readChars : Reader (List Char)
  | [] => none
  | c :: text =>
      if c = quote then some ([], text)
      else if c = backslash then
        match text with
        | letter :: text =>
            if letter = 'u' then
              match text with
              | p :: q :: r :: s :: text => do
                  let c ← hexChar [p, q, r, s]
                  let (cs, rest) ← readChars text
                  return (c :: cs, rest)
              | _ => none
            else do
              let c ← unescape letter
              let (cs, rest) ← readChars text
              return (c :: cs, rest)
        | [] => none
      else if c.toNat < 32 then none
      else do
        let (cs, rest) ← readChars text
        return (c :: cs, rest)

theorem hexChar_control {n : ℕ} (h : n < 32) :
    hexChar ['0', '0', Nat.digitChar (n / 16), Nat.digitChar (n % 16)] = some (Char.ofNat n) := by
  revert n
  decide

theorem readChars_escape (c : Char) {text cs rest : List Char}
    (h : readChars text = some (cs, rest)) :
    readChars (escape c ++ text) = some (c :: cs, rest) := by
  unfold escape
  cases hshort : Dict.get? shortEscapes c with
  | some letter =>
      have hmem := Dict.mem_of_get? hshort
      simp only [shortEscapes, List.mem_cons, Prod.mk.injEq, List.not_mem_nil, or_false] at hmem
      rcases hmem with ⟨rfl, rfl⟩ | ⟨rfl, rfl⟩ | ⟨rfl, rfl⟩ | ⟨rfl, rfl⟩ | ⟨rfl, rfl⟩ | ⟨rfl, rfl⟩ |
        ⟨rfl, rfl⟩
      all_goals
        show readChars (backslash :: _ :: text) = _
        rw [readChars.eq_def]
        simp [h, quote, backslash, unescape, shortEscapes]
  | none =>
      have hkeys := Dict.get?_eq_none.mp hshort
      by_cases hcontrol : c.toNat < 32
      · have hcode := hexChar_control hcontrol
        rw [Char.ofNat_toNat] at hcode
        simp only [hcontrol, if_true, List.cons_append, List.nil_append]
        rw [readChars.eq_def]
        simp [h, quote, backslash, hcode]
      · have hquote : c ≠ quote := by
          rintro rfl
          exact hkeys (by decide)
        have hbackslash : c ≠ backslash := by
          rintro rfl
          exact hkeys (by decide)
        simp only [hcontrol, if_false, List.cons_append, List.nil_append]
        rw [readChars.eq_def]
        simp [hcontrol, h, hquote, hbackslash]

theorem readChars_escaped (cs rest : List Char) :
    readChars (cs.flatMap escape ++ quote :: rest) = some (cs, rest) := by
  induction cs with
  | nil =>
      show readChars (quote :: rest) = _
      rw [readChars.eq_def]
      exact if_pos rfl
  | cons c cs ih =>
      rw [List.flatMap_cons, List.append_assoc]
      exact readChars_escape c ih

/-! ## Numbers -/

/-- The text of a float: it has a fraction or an exponent. -/
structure Decimal where
  negative : Bool
  whole : ℕ
  fraction : List Char
  exponent : Option ℤ
  digits : AllDigits fraction
  float : fraction ≠ [] ∨ exponent.isSome

def signText (negative : Bool) : List Char := if negative then ['-'] else []

def Decimal.text (d : Decimal) : List Char :=
  signText d.negative ++ (Nat.toDigits 10 d.whole ++
    ((if d.fraction = [] then [] else '.' :: d.fraction) ++
      d.exponent.elim [] fun z => 'e' :: signed z))

/-- The number that the parts of a text stand for. -/
def decimalValue (negative : Bool) (whole : ℕ) (fraction : List Char) (exponent : Option ℤ) : ℚ :=
  (if negative then -1 else 1) *
    (whole + Nat.ofDigitChars 10 fraction 0 / 10 ^ fraction.length) * 10 ^ exponent.getD 0

def Decimal.value (d : Decimal) : ℚ :=
  decimalValue d.negative d.whole d.fraction d.exponent

def readSign (text : List Char) : Bool × List Char :=
  match text with
  | '-' :: rest => (true, rest)
  | _ => (false, text)

/-- `0` or digits that do not begin with it. -/
def readWhole (text : List Char) : Option (ℕ × List Char) :=
  match text with
  | '0' :: rest => some (0, rest)
  | _ =>
      if text.takeWhile Char.isDigit = [] then none
      else some (Nat.ofDigitChars 10 (text.takeWhile Char.isDigit) 0,
        text.dropWhile Char.isDigit)

/-- A point with digits behind it. -/
def readFraction (text : List Char) : List Char × List Char :=
  match text with
  | '.' :: rest =>
      if rest.takeWhile Char.isDigit = [] then ([], text)
      else (rest.takeWhile Char.isDigit, rest.dropWhile Char.isDigit)
  | _ => ([], text)

def readPlusMinus (text : List Char) : Bool × List Char :=
  match text with
  | '+' :: rest => (false, rest)
  | _ => readSign text

/-- `e` or `E` with a signed number behind it. -/
def readExponent (text : List Char) : Option ℤ × List Char :=
  match text with
  | c :: rest =>
      if c = 'e' ∨ c = 'E' then
        let (negative, rest) := readPlusMinus rest
        if rest.takeWhile Char.isDigit = [] then (none, text)
        else
          let n : ℤ := Nat.ofDigitChars 10 (rest.takeWhile Char.isDigit) 0
          (some (if negative then -n else n), rest.dropWhile Char.isDigit)
      else (none, text)
  | [] => (none, text)

/-- A number is an integer unless it has a fraction or an exponent. -/
def readNumber (nearest : ℚ → ℚ) : Reader Json := fun text => do
  let (negative, text) := readSign text
  let (whole, text) ← readWhole text
  let (fraction, text) := readFraction text
  let (exponent, text) := readExponent text
  if fraction = [] ∧ exponent = none then
    return (.int (if negative then -whole else whole), text)
  else
    return (.float (nearest (decimalValue negative whole fraction exponent)), text)

/-- No digit comes next. -/
def Stops (rest : List Char) : Prop := ∀ c ∈ rest.head?, c.isDigit = false

theorem takeWhile_digits {ds rest : List Char} (hds : AllDigits ds) (hrest : Stops rest) :
    (ds ++ rest).takeWhile Char.isDigit = ds := by
  rw [List.takeWhile_append_of_pos hds]
  cases rest with
  | nil => simp
  | cons c rest => simp [hrest c rfl]

theorem dropWhile_digits {ds rest : List Char} (hds : AllDigits ds) (hrest : Stops rest) :
    (ds ++ rest).dropWhile Char.isDigit = rest := by
  rw [List.dropWhile_append_of_pos hds]
  cases rest with
  | nil => rfl
  | cons c rest => simp [hrest c rfl]

theorem head?_toDigits {n : ℕ} (h : n ≠ 0) : (Nat.toDigits 10 n).head? ≠ some '0' := by
  have hdigit : ∀ n < 10, n ≠ 0 → [Nat.digitChar n].head? ≠ some '0' := by decide
  induction n using Nat.strong_induction_on with
  | _ n ih =>
      by_cases hsmall : n < 10
      · rw [Nat.toDigits_of_lt_base hsmall]
        exact hdigit n hsmall h
      · rw [Nat.toDigits_of_base_le (by omega) (by omega),
          List.head?_append_of_ne_nil _ Nat.toDigits_ne_nil]
        exact ih (n / 10) (by omega) (by omega)

theorem readWhole_toDigits (n : ℕ) {rest : List Char} (hrest : Stops rest) :
    readWhole (Nat.toDigits 10 n ++ rest) = some (n, rest) := by
  by_cases hzero : n = 0
  · rw [hzero]
    rfl
  · have hhead := head?_toDigits hzero
    rw [readWhole]
    · rw [takeWhile_digits (allDigits_toDigits n) hrest,
        dropWhile_digits (allDigits_toDigits n) hrest, if_neg Nat.toDigits_ne_nil,
        Nat.ofDigitChars_ten_toDigits]
    · intro more heq
      have heads := congrArg List.head? heq
      rw [List.head?_append_of_ne_nil _ Nat.toDigits_ne_nil] at heads
      exact hhead heads

theorem readSign_text (negative : Bool) {text : List Char} (h : text.head? ≠ some '-') :
    readSign (signText negative ++ text) = (negative, text) := by
  cases negative with
  | true => rfl
  | false =>
      rw [readSign]
      · rfl
      · rintro rest rfl
        exact h rfl

theorem readFraction_text {fraction rest : List Char} (hdigits : AllDigits fraction)
    (hrest : Stops rest) (hpoint : rest.head? ≠ some '.') :
    readFraction ((if fraction = [] then [] else '.' :: fraction) ++ rest) = (fraction, rest) := by
  split_ifs with h
  · rw [h, readFraction]
    · rfl
    · rintro more rfl
      exact hpoint rfl
  · show (if (fraction ++ rest).takeWhile Char.isDigit = [] then ([], '.' :: (fraction ++ rest))
      else ((fraction ++ rest).takeWhile Char.isDigit,
        (fraction ++ rest).dropWhile Char.isDigit)) = (fraction, rest)
    rw [takeWhile_digits hdigits hrest, dropWhile_digits hdigits hrest, if_neg h]

/-- The digits of a number, behind its sign. -/
theorem signed_eq (z : ℤ) : signed z = signText (z < 0) ++ Nat.toDigits 10 z.natAbs := by
  cases z with
  | ofNat n => rfl
  | negSucc n =>
      rw [decide_eq_true (Int.negSucc_lt_zero n)]
      rfl

theorem head?_digits_append {c : Char} (hc : c.isDigit = false) (n : ℕ) (rest : List Char) :
    (Nat.toDigits 10 n ++ rest).head? ≠ some c := by
  intro h
  rw [List.head?_append_of_ne_nil _ Nat.toDigits_ne_nil] at h
  have hdigit := allDigits_toDigits n c (List.mem_of_mem_head? h)
  rw [hc] at hdigit
  cases hdigit

theorem readPlusMinus_text (negative : Bool) (n : ℕ) (rest : List Char) :
    readPlusMinus (signText negative ++ (Nat.toDigits 10 n ++ rest)) =
      (negative, Nat.toDigits 10 n ++ rest) := by
  rw [readPlusMinus]
  · exact readSign_text negative (head?_digits_append rfl n rest)
  · intro more heq
    cases negative with
    | true => cases heq
    | false => exact head?_digits_append rfl n rest (congrArg List.head? heq)

theorem readExponent_text (exponent : Option ℤ) {rest : List Char} (hrest : Stops rest)
    (he : rest.head? ≠ some 'e') (hE : rest.head? ≠ some 'E') :
    readExponent ((exponent.elim [] fun z => 'e' :: signed z) ++ rest) = (exponent, rest) := by
  cases exponent with
  | none =>
      cases rest with
      | nil => rfl
      | cons c rest =>
          have hc : ¬(c = 'e' ∨ c = 'E') := by
            rintro (rfl | rfl)
            · exact he rfl
            · exact hE rfl
          exact if_neg hc
  | some z =>
      have hdigits := allDigits_toDigits z.natAbs
      show readExponent ('e' :: (signed z ++ rest)) = _
      rw [signed_eq, List.append_assoc, readExponent, if_pos (Or.inl rfl), readPlusMinus_text]
      dsimp only
      rw [takeWhile_digits hdigits hrest, dropWhile_digits hdigits hrest,
        if_neg Nat.toDigits_ne_nil, Nat.ofDigitChars_ten_toDigits]
      by_cases hz : z < 0
      · rw [decide_eq_true hz, if_pos rfl]
        congr 2
        omega
      · rw [decide_eq_false hz, if_neg Bool.false_ne_true]
        congr 2
        omega

/-! ### Where a number ends -/

theorem Ends.stops {rest : List Char} (h : Ends rest) : Stops rest := by
  intro c hc
  rcases h with h | h | h
  all_goals
    rw [h] at hc
    cases hc
  · rfl
  · rfl

theorem Ends.head_ne {rest : List Char} (h : Ends rest) {c : Char} (hcomma : c ≠ ',')
    (hbreak : c ≠ '\n') : rest.head? ≠ some c := by
  rcases h with h | h | h
  all_goals
    rw [h]
    intro heq
    cases heq
  · exact hcomma rfl
  · exact hbreak rfl

theorem Stops.cons {c : Char} (hc : c.isDigit = false) (rest : List Char) : Stops (c :: rest) := by
  rintro c' hc'
  cases hc'
  exact hc

variable (nearest : ℚ → ℚ)

theorem stops_exponent (exponent : Option ℤ) {rest : List Char} (h : Stops rest) :
    Stops ((exponent.elim [] fun z => 'e' :: signed z) ++ rest) := by
  cases exponent with
  | none => exact h
  | some z => exact .cons rfl _

theorem stops_fraction (fraction : List Char) {rest : List Char} (h : Stops rest) :
    Stops ((if fraction = [] then [] else '.' :: fraction) ++ rest) := by
  split_ifs
  · exact h
  · exact .cons rfl _

theorem readNumber_parts (negative : Bool) (whole : ℕ) {fraction : List Char}
    (hdigits : AllDigits fraction) (exponent : Option ℤ) {rest : List Char} (h : Ends rest) :
    readNumber nearest (signText negative ++ (Nat.toDigits 10 whole ++
      ((if fraction = [] then [] else '.' :: fraction) ++
        ((exponent.elim [] fun z => 'e' :: signed z) ++ rest)))) =
      if fraction = [] ∧ exponent = none then
        some (.int (if negative then -whole else whole), rest)
      else some (.float (nearest (decimalValue negative whole fraction exponent)), rest) := by
  have hstops := stops_exponent exponent h.stops
  have hpoint : ((exponent.elim [] fun z => 'e' :: signed z) ++ rest).head? ≠ some '.' := by
    cases exponent with
    | none => exact h.head_ne (by decide) (by decide)
    | some z => exact fun heq => by cases heq
  have hexponent := readExponent_text exponent h.stops
    (h.head_ne (by decide) (by decide)) (h.head_ne (by decide) (by decide))
  rw [readNumber, readSign_text _ (head?_digits_append rfl whole _)]
  dsimp only
  rw [readWhole_toDigits _ (stops_fraction fraction hstops), Option.bind_eq_bind,
    Option.bind_some, readFraction_text hdigits hstops hpoint, hexponent]
  rfl

theorem allDigits_nil : AllDigits [] := nofun

theorem readNumber_signed (z : ℤ) {rest : List Char} (h : Ends rest) :
    readNumber nearest (signed z ++ rest) = some (.int z, rest) := by
  have hparts := readNumber_parts nearest (z < 0) z.natAbs allDigits_nil none h
  have hz : (if decide (z < 0) = true then -(z.natAbs : ℤ) else z.natAbs) = z := by
    split_ifs with hneg
    · have := of_decide_eq_true hneg
      omega
    · have := of_decide_eq_false (Bool.eq_false_of_not_eq_true hneg)
      omega
  have hint : ([] : List Char) = [] ∧ (none : Option ℤ) = none := ⟨rfl, rfl⟩
  rw [if_pos hint, hz] at hparts
  rw [signed_eq, List.append_assoc]
  exact hparts

theorem readNumber_text (d : Decimal) {rest : List Char} (h : Ends rest) :
    readNumber nearest (d.text ++ rest) = some (.float (nearest d.value), rest) := by
  have hparts := readNumber_parts nearest d.negative d.whole d.digits d.exponent h
  have hfloat : ¬(d.fraction = [] ∧ d.exponent = none) := by
    rintro ⟨hfraction, hexponent⟩
    rcases d.float with hne | hsome
    · exact hne hfraction
    · rw [hexponent] at hsome
      cases hsome
  rw [if_neg hfloat] at hparts
  unfold Decimal.text
  rw [List.append_assoc, List.append_assoc, List.append_assoc]
  exact hparts

end JsonText
