import Mathlib

/-!
# `std::istringstream` and `operator>>(int&)`

`parse_version` reads a version through a `std::istringstream`: `get()` for each dot
and `>>` for each number. A stream is the text not read yet and its two state bits.
`>>` is modelled as libstdc++ runs it: the sentry skips white space, `num_get` reads an
optional sign and the longest run of decimal digits into a `long`, and the `long` is
clamped to `int` with `failbit` when it does not fit. Its spec (`extractInt_numeral`,
`extractInt_inv`) says which prefixes of the text it accepts: white space, a sign and
digits (`Numeral`) whose value fits in an `int`, followed by a non-digit or the end.
-/

namespace JsonConfig.Stream

def INT_MIN : Int := -2 ^ 31
def INT_MAX : Int := 2 ^ 31 - 1
def LONG_MIN : Int := -2 ^ 63
def LONG_MAX : Int := 2 ^ 63 - 1

/-- `isspace` in the "C" locale: space, tab, newline, vertical tab, form feed, return. -/
def isSpace (c : Char) : Bool :=
  c = ' ' || c = '\t' || c = '\n' || c = '\x0b' || c = '\x0c' || c = '\r'

/-- The value of a run of decimal digits. -/
def digitsValue (ds : List Char) : Nat :=
  ds.foldl (fun v c => 10 * v + (c.toNat - 48)) 0

/-- The sign in front of the digits of a number. -/
inductive Sign where
  | none | plus | minus
deriving DecidableEq, Repr

def Sign.text : Sign → List Char
  | .none => []
  | .plus => ['+']
  | .minus => ['-']

/-- A number as `>>` reads it: white space, an optional sign, decimal digits. -/
structure Numeral where
  space : List Char
  sign : Sign
  digits : List Char
deriving DecidableEq, Repr

def Numeral.text (f : Numeral) : List Char := f.space ++ f.sign.text ++ f.digits

/-- The value of a number: its digits, negated after a minus sign. -/
def Numeral.value (f : Numeral) : Int :=
  if f.sign = .minus then -(digitsValue f.digits : Int) else digitsValue f.digits

/-- The shape `>>` accepts: only white space before the sign, at least one digit. -/
structure Numeral.Valid (f : Numeral) : Prop where
  spaces : ∀ c ∈ f.space, isSpace c = true
  nonempty : f.digits ≠ []
  decimal : ∀ c ∈ f.digits, c.isDigit = true

/-- A `std::istringstream`: the characters not read yet, `eofbit` and `failbit`
    (`badbit` is never set on a string buffer). -/
structure Istringstream where
  rest : List Char
  eofbit : Bool
  failbit : Bool
deriving DecidableEq, Repr

namespace Istringstream

/-- `std::istringstream parser(str)`. -/
def ofString (str : String) : Istringstream := ⟨str.toList, false, false⟩

def good (s : Istringstream) : Bool := !s.eofbit && !s.failbit

/-- `get()`: the next character, or `EOF` (`none`) with `eofbit | failbit` at the end;
    on a stream that is not `good()` the sentry fails, sets `failbit` and gives `EOF`. -/
def get (s : Istringstream) : Option Char × Istringstream :=
  if s.good then
    match s.rest with
    | [] => (none, { s with eofbit := true, failbit := true })
    | c :: rest => (some c, { s with rest := rest })
  else (none, { s with failbit := true })

/-- The sign `num_get` reads before the digits, and the text after it. -/
def readSign : List Char → Sign × List Char
  | '-' :: r => (.minus, r)
  | '+' :: r => (.plus, r)
  | r => (.none, r)

/-- Stage 2 of `num_get::do_get` for a `long` in base 10, "C" locale: an optional sign,
    then the longest run of digits. Gives the value stored, whether `failbit` is set, and
    the text after the run: `0` and `failbit` without digits, the bound and `failbit` on
    overflow. -/
def numGetLong (input : List Char) : Int × Bool × List Char :=
  let (sign, afterSign) := readSign input
  let digits := afterSign.takeWhile Char.isDigit
  let rest := afterSign.dropWhile Char.isDigit
  if digits = [] then (0, true, rest)
  else
    let value := (⟨[], sign, digits⟩ : Numeral).value
    if value < LONG_MIN then (LONG_MIN, true, rest)
    else if LONG_MAX < value then (LONG_MAX, true, rest)
    else (value, false, rest)

/-- `s >> n` for an `int n` (libstdc++): the sentry fails on a stream that is not
    `good()`, and with `eofbit | failbit` when only white space is left, leaving `n`
    alone; otherwise `num_get` reads a `long`, `eofbit` is set when it reached the end,
    and the `long` is clamped to `int`, setting `failbit` when it does not fit. -/
def extractInt (s : Istringstream) (n : Int) : Int × Istringstream :=
  if !s.good then (n, { s with failbit := true }) else
  match s.rest.dropWhile isSpace with
  | [] => (n, ⟨[], true, true⟩)
  | input@(_ :: _) =>
    let (l, failed, rest) := numGetLong input
    if l < INT_MIN then (INT_MIN, ⟨rest, rest.isEmpty, true⟩)
    else if INT_MAX < l then (INT_MAX, ⟨rest, rest.isEmpty, true⟩)
    else (l, ⟨rest, rest.isEmpty, failed⟩)

end Istringstream

open Istringstream

/-! ### What `>>` accepts -/

theorem isSpace_of_isDigit {c : Char} (digit : c.isDigit = true) : isSpace c = false := by
  revert digit
  simp only [Char.isDigit, isSpace, Bool.and_eq_true, decide_eq_true_eq, Bool.or_eq_false_iff,
    decide_eq_false_iff_not]
  intro ⟨lo, hi⟩
  refine ⟨⟨⟨⟨⟨?_, ?_⟩, ?_⟩, ?_⟩, ?_⟩, ?_⟩ <;> intro same <;> subst same <;> simp_all

private theorem sign_text_dropWhile_space (sg : Sign) (ds : List Char) (digit : ∀ c ∈ ds.head?, c.isDigit = true) :
    (sg.text ++ ds).dropWhile isSpace = sg.text ++ ds := by
  cases sg with
  | none =>
    cases ds with
    | nil => rfl
    | cons d ds => simp [Sign.text, isSpace_of_isDigit (digit d rfl)]
  | plus => simp [Sign.text, isSpace]
  | minus => simp [Sign.text, isSpace]

private theorem digits_takeWhile {ds r : List Char} (decimal : ∀ c ∈ ds, c.isDigit = true)
    (stop : ∀ c ∈ r.head?, c.isDigit = false) : (ds ++ r).takeWhile Char.isDigit = ds := by
  rw [List.takeWhile_append_of_pos decimal]
  cases r with
  | nil => simp
  | cons c r => simp [stop c rfl]

private theorem digits_dropWhile {ds r : List Char} (decimal : ∀ c ∈ ds, c.isDigit = true)
    (stop : ∀ c ∈ r.head?, c.isDigit = false) : (ds ++ r).dropWhile Char.isDigit = r := by
  rw [List.dropWhile_append_of_pos decimal]
  cases r with
  | nil => simp
  | cons c r => simp [stop c rfl]

theorem readSign_text (sg : Sign) {ds : List Char} (digit : ∀ c ∈ ds.head?, c.isDigit = true) :
    readSign (sg.text ++ ds) = (sg, ds) := by
  cases sg with
  | none =>
    cases ds with
    | nil => rfl
    | cons d ds =>
      have digit := digit d rfl
      have minus : d ≠ '-' := by rintro rfl; simp at digit
      have plus : d ≠ '+' := by rintro rfl; simp at digit
      show readSign (d :: ds) = _
      unfold readSign
      split <;> simp_all
  | plus => rfl
  | minus => rfl

theorem readSign_inv {input r : List Char} {sg : Sign} (read : readSign input = (sg, r)) :
    input = sg.text ++ r := by
  unfold readSign at read
  split at read <;> cases read <;> rfl

/-- `num_get` reads exactly the sign and digits of a number that fits in an `int`. -/
theorem numGetLong_numeral (sg : Sign) {ds r : List Char} (nonempty : ds ≠ [])
    (decimal : ∀ c ∈ ds, c.isDigit = true) (stop : ∀ c ∈ r.head?, c.isDigit = false)
    (lo : INT_MIN ≤ (⟨[], sg, ds⟩ : Numeral).value) (hi : (⟨[], sg, ds⟩ : Numeral).value ≤ INT_MAX) :
    numGetLong (sg.text ++ ds ++ r) = ((⟨[], sg, ds⟩ : Numeral).value, false, r) := by
  have digit : ∀ c ∈ (ds ++ r).head?, c.isDigit = true := by
    cases ds with
    | nil => exact absurd rfl nonempty
    | cons d ds => exact fun c mem => decimal c (by simp_all)
  have lo' : ¬ (⟨[], sg, ds⟩ : Numeral).value < LONG_MIN := by
    simp only [INT_MIN, LONG_MIN] at *; omega
  have hi' : ¬ LONG_MAX < (⟨[], sg, ds⟩ : Numeral).value := by
    simp only [INT_MAX, LONG_MAX] at *; omega
  simp only [numGetLong, List.append_assoc, readSign_text sg digit, digits_takeWhile decimal stop,
    digits_dropWhile decimal stop, nonempty, lo', hi', if_false]

private theorem dropWhile_stop (p : Char → Bool) (l : List Char) : ∀ c ∈ (l.dropWhile p).head?, p c = false := by
  have stop := List.head?_dropWhile_not p l
  intro c mem
  rw [Option.mem_def] at mem
  simpa [mem] using stop

/-- What `num_get` reads when it sets no `failbit`: a sign and a run of digits that
    ends the run, with a value in the range of a `long`. -/
theorem numGetLong_inv {input rest : List Char} {l : Int} (read : numGetLong input = (l, false, rest)) :
    ∃ sg ds, input = sg.text ++ ds ++ rest ∧ ds ≠ [] ∧ (∀ c ∈ ds, c.isDigit = true) ∧
      (∀ c ∈ rest.head?, c.isDigit = false) ∧ l = (⟨[], sg, ds⟩ : Numeral).value := by
  rcases hsign : readSign input with ⟨sg, after⟩
  simp only [numGetLong, hsign] at read
  split_ifs at read with none <;> cases read
  refine ⟨sg, after.takeWhile Char.isDigit, ?_, none, fun c mem => List.mem_takeWhile_imp mem,
    dropWhile_stop _ _, rfl⟩
  rw [readSign_inv hsign, List.append_assoc, List.takeWhile_append_dropWhile]

/-- `>>` reads a number that fits in an `int` and stops before the next non-digit. -/
theorem extractInt_numeral {f : Numeral} {r : List Char} (n : Int) (valid : f.Valid)
    (lo : INT_MIN ≤ f.value) (hi : f.value ≤ INT_MAX) (stop : ∀ c ∈ r.head?, c.isDigit = false) :
    extractInt ⟨f.text ++ r, false, false⟩ n = (f.value, ⟨r, r.isEmpty, false⟩) := by
  obtain ⟨space, sg, ds⟩ := f
  obtain ⟨spaces, nonempty, decimal⟩ := valid
  have digit : ∀ c ∈ (ds ++ r).head?, c.isDigit = true := by
    cases ds with
    | nil => exact absurd rfl nonempty
    | cons d ds => exact fun c mem => decimal c (by simp_all)
  have input : (space ++ sg.text ++ ds ++ r).dropWhile isSpace = sg.text ++ ds ++ r := by
    rw [List.append_assoc, List.append_assoc, List.dropWhile_append_of_pos spaces,
      sign_text_dropWhile_space sg _ digit, List.append_assoc]
  have nonnil : sg.text ++ ds ++ r ≠ [] := by simp [nonempty]
  obtain ⟨c, cs, cons⟩ := List.exists_cons_of_ne_nil nonnil
  have read := numGetLong_numeral sg nonempty decimal stop lo hi
  rw [cons] at input read
  have lo' : ¬ (⟨[], sg, ds⟩ : Numeral).value < INT_MIN := Int.not_lt.mpr lo
  have hi' : ¬ INT_MAX < (⟨[], sg, ds⟩ : Numeral).value := Int.not_lt.mpr hi
  simp only [extractInt, good, Numeral.text, input, read, lo', hi', if_false, Bool.not_false,
    Bool.and_self, Bool.not_true]
  rfl

/-- Everything `>>` can do without setting `failbit`: read white space, a sign and the
    digits of a number that fits in an `int`, up to a non-digit or the end. -/
theorem extractInt_inv {s s' : Istringstream} {n v : Int} (good : s.good = true)
    (run : extractInt s n = (v, s')) (ok : s'.failbit = false) :
    ∃ f : Numeral, ∃ r, f.Valid ∧ INT_MIN ≤ f.value ∧ f.value ≤ INT_MAX ∧ s.rest = f.text ++ r ∧
      (∀ c ∈ r.head?, c.isDigit = false) ∧ v = f.value ∧ s' = ⟨r, r.isEmpty, false⟩ := by
  simp only [extractInt, good, Bool.not_true, Bool.false_eq_true, if_false] at run
  rcases cons : s.rest.dropWhile isSpace with _ | ⟨c, cs⟩ <;> simp only [cons] at run
  · cases run; cases ok
  · rcases read : numGetLong (c :: cs) with ⟨l, failed, rest⟩
    simp only [read] at run
    split_ifs at run with lo hi <;> cases run
    · cases ok
    · cases ok
    cases ok
    obtain ⟨sg, ds, split, nonempty, decimal, stop, value⟩ := numGetLong_inv read
    subst value
    refine ⟨⟨s.rest.takeWhile isSpace, sg, ds⟩, rest, ⟨fun c mem => List.mem_takeWhile_imp mem,
      nonempty, decimal⟩, Int.not_lt.mp lo, Int.not_lt.mp hi, ?_, stop, rfl, rfl⟩
    have whole := List.takeWhile_append_dropWhile isSpace s.rest
    rw [cons, split] at whole
    exact whole.symm.trans (by simp [Numeral.text])

end JsonConfig.Stream
