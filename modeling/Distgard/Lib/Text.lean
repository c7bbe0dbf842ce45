import Mathlib.Data.List.TakeWhile

/-!
# Lines and decimal numbers

A text is a list of characters. `lines` cuts it into lines, `writeln` is one line with a
number in it, and `parseUint` reads a number below a bound: an optional plus sign, then
digits and nothing else. `parseUint_toDigits` is the round trip of the three.

`words` cuts a line into words, and `lines_writelns` and `words_pair` say how lines and words that
were written are read.

`debugInt` and `debugString` are numbers and strings as they are shown to a programmer;
`parseInt` reads a number with a sign, and `parseInt_debugInt` is its round trip.
-/

namespace Distgard.Lib.Text

/-- A line without the carriage return at its end. -/
def stripCr (line : List Char) : List Char := if line.getLast? = some '\r' then line.dropLast else line

/-- The lines of a text, of whose first line `acc` has been read, backwards. -/
def linesFrom (acc : List Char) : List Char → List (List Char)
  | [] => if acc = [] then [] else [acc.reverse]
  | c :: text => if c = '\n' then stripCr acc.reverse :: linesFrom [] text else linesFrom (c :: acc) text

/-- The lines of a text; the last may lack its end. -/
def lines (text : List Char) : List (List Char) := linesFrom [] text

/-- What a line holds before its first space. -/
def firstWord (line : List Char) : List Char := line.takeWhile (· ≠ ' ')

/-- A number, alone in a line. -/
def writeln (n : ℕ) : List Char := Nat.toDigits 10 n ++ ['\n']

/-- Read a number below the bound. -/
def parseUint (bound : ℕ) (word : List Char) : Option ℕ :=
  let digits := if word.head? = some '+' then word.tail else word
  if digits ≠ [] ∧ digits.all Char.isDigit ∧ Nat.ofDigitChars 10 digits 0 < bound then
    some (Nat.ofDigitChars 10 digits 0)
  else none

/-- The digits of a number are digits. -/
theorem isDigit_of_mem {n : ℕ} {c : Char} (h : c ∈ Nat.toDigits 10 n) : c.isDigit = true :=
  Nat.isDigit_of_mem_toDigits (by decide) (by decide) h

/-- A character that is no digit is not in a number. -/
theorem notMem_toDigits {n : ℕ} {c : Char} (h : c.isDigit = false) : c ∉ Nat.toDigits 10 n := fun hc => by
  rw [isDigit_of_mem hc] at h
  cases h

/-- A text that ends its first line with a number's line starts with that line. -/
theorem linesFrom_append {l : List Char} (h : '\n' ∉ l) (acc text : List Char) :
    linesFrom acc (l ++ '\n' :: text) = stripCr (acc.reverse ++ l) :: lines text := by
  induction l generalizing acc with
  | nil => simp [linesFrom, lines]
  | cons c l ih =>
    obtain ⟨hc, hl⟩ := not_or.mp (mt List.mem_cons.mpr h)
    rw [List.cons_append, linesFrom, if_neg (Ne.symm hc), ih hl, List.reverse_cons, List.append_assoc]
    rfl

/-- What `writeln` writes is one line. -/
theorem lines_writeln (n : ℕ) : lines (writeln n) = [Nat.toDigits 10 n] := by
  have hstrip : stripCr (Nat.toDigits 10 n) = Nat.toDigits 10 n := by
    rw [stripCr, if_neg]
    exact fun hr => notMem_toDigits (by decide) (List.mem_of_getLast? hr)
  rw [lines, writeln, linesFrom_append (notMem_toDigits (by decide))]
  exact congrArg (· :: []) hstrip

theorem firstWord_toDigits (n : ℕ) : firstWord (Nat.toDigits 10 n) = Nat.toDigits 10 n := by
  refine List.takeWhile_eq_self_iff.mpr fun c hc => decide_eq_true ?_
  rintro rfl
  exact notMem_toDigits (by decide) hc

/-- **The round trip**: a number that was written is read. -/
theorem parseUint_toDigits {bound n : ℕ} (h : n < bound) :
    parseUint bound (firstWord (Nat.toDigits 10 n)) = some n := by
  have hplus : (Nat.toDigits 10 n).head? ≠ some '+' := fun hp =>
    notMem_toDigits (by decide) (List.mem_of_mem_head? (Option.mem_def.mpr hp))
  have hall : (Nat.toDigits 10 n).all Char.isDigit = true := List.all_eq_true.mpr fun c hc => isDigit_of_mem hc
  rw [firstWord_toDigits, parseUint, if_neg hplus, Nat.ofDigitChars_ten_toDigits,
    if_pos ⟨Nat.toDigits_ne_nil, hall, h⟩]

/-! ### Lines and words -/

/-- Lines with their ends. -/
def writelns (ls : List (List Char)) : List Char := ls.flatMap (· ++ ['\n'])

/-- Lines that were written are read, if none has a line feed in it or a carriage return at its end. -/
theorem lines_writelns {ls : List (List Char)} (h : ∀ l ∈ ls, '\n' ∉ l ∧ l.getLast? ≠ some '\r') :
    lines (writelns ls) = ls := by
  induction ls with
  | nil => rfl
  | cons l ls ih =>
    obtain ⟨hfeed, hreturn⟩ := h l (List.mem_cons_self ..)
    have hrest := ih fun l' hl' => h l' (List.mem_cons_of_mem l hl')
    have htext : writelns (l :: ls) = l ++ '\n' :: writelns ls := by simp [writelns]
    rw [htext, lines, linesFrom_append hfeed, hrest]
    exact congrArg (· :: ls) (if_neg hreturn)

/-- The words of a line: what is left between separators. -/
def words (sep : Char → Bool) (line : List Char) : List (List Char) := (line.splitOnP sep).filter (· ≠ [])

/-- Two words with a separator between them. -/
theorem words_pair {sep : Char → Bool} {w w' : List Char} {c : Char} (hw : ∀ x ∈ w, sep x = false) (hne : w ≠ [])
    (hw' : ∀ x ∈ w', sep x = false) (hne' : w' ≠ []) (hc : sep c = true) : words sep (w ++ c :: w') = [w, w'] := by
  rw [words, List.splitOnP_append_cons_of_forall_mem hw c hc, List.splitOnP_eq_singleton hw']
  simp [hne, hne']

/-! ### Numbers with a sign, and strings in quotes -/

/-- A whole number in decimal. -/
def debugInt : ℤ → List Char
  | .ofNat n => Nat.toDigits 10 n
  | .negSucc n => '-' :: Nat.toDigits 10 (n + 1)

/-- Read a whole number: an optional sign, then digits and nothing else. -/
def parseInt (word : List Char) : Option ℤ :=
  let digits := if word.head? = some '-' ∨ word.head? = some '+' then word.tail else word
  if digits ≠ [] ∧ digits.all Char.isDigit then
    some (if word.head? = some '-' then -(Nat.ofDigitChars 10 digits 0 : ℤ) else Nat.ofDigitChars 10 digits 0)
  else none

/-- A character of a string in quotes; `plain` are the characters that are shown as they are,
unless they have an escape of their own. -/
def escapeDebug (plain : Char → Bool) (c : Char) : List Char :=
  if c = Char.ofNat 0 then ['\\', '0']
  else if c = '\t' then ['\\', 't']
  else if c = '\n' then ['\\', 'n']
  else if c = '\r' then ['\\', 'r']
  else if c = '"' then ['\\', '"']
  else if c = '\\' then ['\\', '\\']
  else if plain c then [c]
  else ['\\', 'u', Char.ofNat 0x7b] ++ Nat.toDigits 16 c.toNat ++ [Char.ofNat 0x7d]

/-- A string in quotes. -/
def debugString (plain : Char → Bool) (s : String) : List Char :=
  '"' :: s.toList.flatMap (escapeDebug plain) ++ ['"']

/-- The digits of a number begin with a digit. -/
theorem isDigit_of_head? {n : ℕ} {c : Char} (h : (Nat.toDigits 10 n).head? = some c) : c.isDigit = true :=
  isDigit_of_mem (List.mem_of_mem_head? (Option.mem_def.mpr h))

/-- **The round trip** with a sign: a number that is shown is read. -/
theorem parseInt_debugInt (n : ℤ) : parseInt (debugInt n) = some n := by
  have hall : ∀ n, (Nat.toDigits 10 n).all Char.isDigit = true := fun n =>
    List.all_eq_true.mpr fun c hc => isDigit_of_mem hc
  cases n with
  | ofNat n =>
    have hsign : ∀ c : Char, c.isDigit = false → (Nat.toDigits 10 n).head? ≠ some c := by
      intro c hc hh
      rw [isDigit_of_head? hh] at hc
      cases hc
    have hminus := hsign '-' (by decide)
    have hplus := hsign '+' (by decide)
    simp only [debugInt, parseInt, hminus, hplus, or_self, if_false]
    rw [if_pos ⟨Nat.toDigits_ne_nil, hall n⟩, Nat.ofDigitChars_ten_toDigits]
    rfl
  | negSucc n =>
    simp only [debugInt, parseInt, List.head?_cons, true_or, if_true, List.tail_cons]
    rw [if_pos ⟨Nat.toDigits_ne_nil, hall (n + 1)⟩, Nat.ofDigitChars_ten_toDigits]
    rfl

/-- A number that is shown begins with a digit or a minus sign. -/
theorem head?_debugInt {n : ℤ} {c : Char} (h : (debugInt n).head? = some c) : c = '-' ∨ c.isDigit = true := by
  cases n with
  | ofNat n => exact Or.inr (isDigit_of_head? h)
  | negSucc n =>
    rw [debugInt, List.head?_cons, Option.some.injEq] at h
    exact Or.inl h.symm

/-- A string in quotes is no number. -/
theorem parseInt_debugString (plain : Char → Bool) (s : String) : parseInt (debugString plain s) = none := by
  rw [debugString, List.cons_append, parseInt]
  simp only [List.head?_cons, Option.some.injEq]
  rw [if_neg]
  rw [if_neg (by decide)]
  rintro ⟨-, hall⟩
  rw [List.all_cons, Bool.and_eq_true] at hall
  exact absurd hall.1 (by decide)

end Distgard.Lib.Text
