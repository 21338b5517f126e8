import JsonConfig.Stream

/-!
# `sscanf` with `"%" SCNi32 "%c"`

The partition of a `<kafka>` output is read with `sscanf(text, "%" SCNi32 "%c", &value,
&aux)` and taken only when the call returns 1. `SCNi32` is `"i"`: glibc's `vfscanf`
skips white space, reads an optional sign, takes `0x` or `0X` as a hexadecimal prefix and
another leading `0` as octal, collects the digits of that base, converts them with
`strtol` (clamped to the range of a `long`) and stores the `long` into the `int`, which
GCC does modulo `2^32`. `%c` then returns 1 only at the end of the text. So the call
returns 1 exactly on a whole text that is one C integer constant (`CInteger`), and then
`value` is that constant's value when it fits in an `int` (`sscanf_one_iff`).

This is the `%i` of a glibc before 2.38, or of a build without the C23 features. From
2.38 on, a g++ build (which defines `_GNU_SOURCE`, and with it the C23 `scanf`) also takes
`0b` or `0B` as a binary prefix. The model reads `"0b1"` as the octal `0` followed by `b`,
which `%c` then takes, so the call returns 2 where such a glibc returns 1 with value 1.
-/

namespace JsonConfig.Scanf
open JsonConfig.Stream Istringstream

/-- `EOF`, which `sscanf` returns on an input failure before the first conversion. -/
def EOF : Int := -1

/-- Whether `c` is a digit of `base`: `isxdigit` for 16, `isdigit` below `base` otherwise. -/
def isBaseDigit (base : Nat) (c : Char) : Bool :=
  if base = 16 then c.isDigit || ('a' ≤ c && c ≤ 'f') || ('A' ≤ c && c ≤ 'F')
  else c.isDigit && decide (c.toNat - 48 < base)

/-- The value of a digit of a base up to 16. -/
def baseDigitValue (c : Char) : Nat :=
  if c.isDigit then c.toNat - 48 else if 'a' ≤ c ∧ c ≤ 'f' then c.toNat - 87 else c.toNat - 55

/-- The value of a run of digits of `base`. -/
def baseValue (base : Nat) (ds : List Char) : Nat :=
  ds.foldl (fun v c => base * v + baseDigitValue c) 0

/-- The base `%i` reads in, the characters of the prefix it keeps, and the text after
    the prefix: after `0x` or `0X` base 16 (the `x` is not kept), after another `0`
    base 8 (the `0` is kept), otherwise base 10. -/
def readBase : List Char → Nat × List Char × List Char
  | '0' :: c :: r => if c = 'x' ∨ c = 'X' then (16, ['0'], r) else (8, ['0'], c :: r)
  | ['0'] => (8, ['0'], [])
  | r => (10, [], r)

/-- `%i` after the white space it skips: the buffer it builds (sign, kept prefix, digits),
    the base, and the text after the digits. -/
def scanI (input : List Char) : List Char × Nat × List Char :=
  let (sign, r) := readSign input
  let (base, zero, r) := readBase r
  (sign.text ++ zero ++ r.takeWhile (isBaseDigit base), base, r.dropWhile (isBaseDigit base))

/-- `strtol(buffer, &tw, base)` on that buffer: its sign and digits, clamped to the range
    of a `long`. -/
def strtol (buffer : List Char) (base : Nat) : Int :=
  let (sign, ds) := readSign buffer
  let value : Int := if sign = .minus then -(baseValue base ds : Int) else baseValue base ds
  max LONG_MIN (min LONG_MAX value)

/-- `*ARG (int *) = num.l`: a `long` stored into an `int`, modulo `2^32` (GCC). -/
def toInt32 (l : Int) : Int :=
  if l % 2 ^ 32 < 2 ^ 31 then l % 2 ^ 32 else l % 2 ^ 32 - 2 ^ 32

/-- `sscanf(str, "%" SCNi32 "%c", &value, &aux)`: the count it returns and the value it
    stores into `value`, if any. No number after the white space is a matching failure
    (0); a character after the number fills `aux` (2). -/
def sscanfIntChar (str : String) : Int × Option Int :=
  match str.toList.dropWhile isSpace with
  | [] => (EOF, none)
  | c :: cs =>
    let (buffer, base, rest) := scanI (c :: cs)
    if buffer = [] ∨ buffer = ['+'] ∨ buffer = ['-'] then (0, none)
    else
      let value := toInt32 (strtol buffer base)
      if rest = [] then (1, some value) else (2, some value)

/-! ### C integer constants -/

/-- How a C integer constant is written: decimal, octal after a `0`, or hexadecimal
    after `0x` or `0X` (the character `x` kept to give back the text). -/
inductive Radix where
  | decimal
  | octal
  | hex (x : Char)
deriving DecidableEq, Repr

def Radix.base : Radix → Nat
  | .decimal => 10
  | .octal => 8
  | .hex _ => 16

def Radix.leadText : Radix → List Char
  | .decimal => []
  | .octal => ['0']
  | .hex x => ['0', x]

/-- A whole text that `%i` reads: white space, a sign, a prefix, digits. -/
structure CInteger where
  space : List Char
  sign : Sign
  radix : Radix
  digits : List Char
deriving DecidableEq, Repr

def CInteger.text (c : CInteger) : List Char :=
  c.space ++ c.sign.text ++ c.radix.leadText ++ c.digits

/-- The value of a constant: its digits in its base, negated after a minus sign. -/
def CInteger.value (c : CInteger) : Int :=
  if c.sign = .minus then -(baseValue c.radix.base c.digits : Int) else baseValue c.radix.base c.digits

/-- The constants glibc's `%i` reads whole: a decimal one has a first digit other than
    `0`; after `0x` or `0X` there may be no hexadecimal digit at all (the value is then 0). -/
structure CInteger.Valid (c : CInteger) : Prop where
  spaces : ∀ ch ∈ c.space, isSpace ch = true
  digits : ∀ ch ∈ c.digits, isBaseDigit c.radix.base ch = true
  decimal : c.radix = .decimal → ∃ d ds, c.digits = d :: ds ∧ d ≠ '0'
  hex : ∀ x, c.radix = .hex x → x = 'x' ∨ x = 'X'

/-- The prefix `%i` keeps in its buffer: the `0` of an octal or hexadecimal constant. -/
def Radix.kept : Radix → List Char
  | .decimal => []
  | _ => ['0']

/-! ### What `%i` reads -/

private theorem baseValue_zero_cons (base : Nat) (ds : List Char) : baseValue base ('0' :: ds) = baseValue base ds := by
  simp [baseValue, baseDigitValue]

private theorem readBase_prefix {r : Radix} {ds : List Char}
    (decimal : r = .decimal → ∃ d rest, ds = d :: rest ∧ d ≠ '0')
    (octal : r = .octal → ∀ ch ∈ ds.head?, ch ≠ 'x' ∧ ch ≠ 'X')
    (hex : ∀ x, r = .hex x → x = 'x' ∨ x = 'X') :
    readBase (r.leadText ++ ds) = (r.base, r.kept, ds) := by
  cases r with
  | decimal =>
    obtain ⟨d, rest, rfl, nonzero⟩ := decimal rfl
    unfold readBase
    split <;> simp_all [Radix.leadText, Radix.base, Radix.kept]
  | octal =>
    cases ds with
    | nil => rfl
    | cons d rest =>
      have ⟨notX, notX'⟩ := octal rfl d rfl
      simp [readBase, Radix.leadText, Radix.base, Radix.kept, notX, notX']
  | hex x =>
    rcases hex x rfl with rfl | rfl <;> rfl

/-- Everything `readBase` can do: read the prefix of a decimal, octal or hexadecimal
    constant, a decimal one not starting with `0`. -/
theorem readBase_inv {r : List Char} {base : Nat} {zero rest : List Char}
    (read : readBase r = (base, zero, rest)) :
    ∃ radix : Radix, r = radix.leadText ++ rest ∧ base = radix.base ∧ zero = radix.kept ∧
      (radix = .decimal → ∀ ch ∈ rest.head?, ch ≠ '0') ∧ (∀ x, radix = .hex x → x = 'x' ∨ x = 'X') := by
  unfold readBase at read
  split at read
  · rename_i c r
    split_ifs at read with x
    · cases read
      exact ⟨.hex c, rfl, rfl, rfl, by simp, by simpa using x⟩
    · cases read
      exact ⟨.octal, rfl, rfl, rfl, by simp, by simp⟩
  · cases read
    exact ⟨.octal, rfl, rfl, rfl, by simp, by simp⟩
  · cases read
    rename_i notPair notSingle
    refine ⟨.decimal, rfl, rfl, rfl, fun _ ch mem => ?_, by simp⟩
    rintro rfl
    rcases r with _ | ⟨d, _ | ⟨e, r⟩⟩ <;> simp_all

private theorem not_space_of_isDigit_head {l : List Char} (head : ∀ ch ∈ l.head?, ch.isDigit = true) :
    ∀ ch ∈ l.head?, isSpace ch = false :=
  fun ch mem => isSpace_of_isDigit (head ch mem)

namespace CInteger
variable {c : CInteger}

private theorem Valid.prefix_head (valid : c.Valid) :
    ∀ ch ∈ (c.radix.leadText ++ c.digits).head?, ch.isDigit = true := by
  obtain ⟨space, sg, radix, ds⟩ := c
  cases radix with
  | decimal =>
    obtain ⟨d, rest, rfl, -⟩ := valid.decimal rfl
    have digit := valid.digits d (.head _)
    simp only [isBaseDigit, Radix.base] at digit
    simp_all [Radix.leadText]
  | octal => simp [Radix.leadText]
  | hex x => simp [Radix.leadText]

private theorem Valid.kept_head (valid : c.Valid) :
    ∀ ch ∈ (c.radix.kept ++ c.digits).head?, ch.isDigit = true := by
  have head := valid.prefix_head
  cases h : c.radix <;> simp_all [Radix.kept, Radix.leadText]

private theorem Valid.readBase (valid : c.Valid) :
    readBase (c.radix.leadText ++ c.digits) = (c.radix.base, c.radix.kept, c.digits) := by
  refine readBase_prefix valid.decimal (fun octal ch mem => ?_) valid.hex
  have digit := valid.digits ch (List.mem_of_mem_head? mem)
  rw [octal] at digit
  constructor <;> rintro rfl <;> simp [isBaseDigit, Radix.base] at digit

theorem Valid.nonempty (valid : c.Valid) : c.radix.kept ++ c.digits ≠ [] := by
  cases h : c.radix with
  | decimal => obtain ⟨d, rest, digits, -⟩ := valid.decimal h; simp [Radix.kept, digits]
  | octal => simp [Radix.kept]
  | hex x => simp [Radix.kept]

private theorem Valid.body_head (valid : c.Valid) :
    ∀ ch ∈ (c.sign.text ++ c.radix.leadText ++ c.digits).head?, isSpace ch = false := by
  obtain ⟨space, sg, radix, ds⟩ := c
  cases sg with
  | none => simpa [Sign.text] using not_space_of_isDigit_head valid.prefix_head
  | plus => simp [Sign.text, isSpace]
  | minus => simp [Sign.text, isSpace]

private theorem Valid.body_nonempty (valid : c.Valid) : c.sign.text ++ c.radix.leadText ++ c.digits ≠ [] := by
  have := valid.nonempty
  cases h : c.radix <;> simp_all [Radix.kept, Radix.leadText]

/-- `sscanf` skips exactly the white space of a constant. -/
private theorem Valid.dropWhile_space (valid : c.Valid) :
    c.text.dropWhile isSpace = c.sign.text ++ c.radix.leadText ++ c.digits := by
  have head := valid.body_head
  rw [CInteger.text, List.append_assoc, List.append_assoc, List.dropWhile_append_of_pos valid.spaces,
    ← List.append_assoc]
  generalize c.sign.text ++ c.radix.leadText ++ c.digits = body at head
  cases body with
  | nil => rfl
  | cons ch rest => simp [head ch rfl]

/-- `%i` reads the whole rest of a constant into its buffer. -/
theorem Valid.scan (valid : c.Valid) :
    scanI (c.sign.text ++ c.radix.leadText ++ c.digits) =
      (c.sign.text ++ c.radix.kept ++ c.digits, c.radix.base, []) := by
  simp only [scanI, List.append_assoc, readSign_text c.sign valid.prefix_head, valid.readBase,
    List.takeWhile_eq_self_iff.mpr valid.digits, List.dropWhile_eq_nil_iff.mpr valid.digits]

/-- The buffer of a constant holds a digit. -/
theorem Valid.buffer (valid : c.Valid) :
    ¬ (c.sign.text ++ (c.radix.kept ++ c.digits) = [] ∨ c.sign.text ++ (c.radix.kept ++ c.digits) = ['+'] ∨
      c.sign.text ++ (c.radix.kept ++ c.digits) = ['-']) := by
  obtain ⟨d, rest, split⟩ := List.exists_cons_of_ne_nil valid.nonempty
  have digit : d.isDigit = true := valid.kept_head d (by simp [split])
  have mem : d ∈ c.sign.text ++ (c.radix.kept ++ c.digits) := by simp [split]
  rintro (e | e | e) <;> rw [e] at mem <;> simp at mem <;> subst mem <;> simp at digit

end CInteger

/-- `strtol` on a buffer of a sign and digits gives their value, clamped. -/
theorem strtol_digits (sg : Sign) (base : Nat) {ds : List Char} (head : ∀ ch ∈ ds.head?, ch.isDigit = true) :
    strtol (sg.text ++ ds) base =
      max LONG_MIN (min LONG_MAX (if sg = .minus then -(baseValue base ds : Int) else baseValue base ds)) := by
  simp [strtol, readSign_text sg head]

theorem baseValue_kept (r : Radix) (base : Nat) (ds : List Char) :
    baseValue base (r.kept ++ ds) = baseValue base ds := by
  cases r <;> simp [Radix.kept, baseValue_zero_cons]

/-- `sscanf` reads a whole C integer constant, stores `strtol`'s value of it modulo
    `2^32`, and returns 1. -/
theorem sscanf_cinteger {c : CInteger} {str : String} (valid : c.Valid) (text : str.toList = c.text) :
    sscanfIntChar str = (1, some (toInt32 (max LONG_MIN (min LONG_MAX c.value)))) := by
  obtain ⟨ch, rest, cons⟩ := List.exists_cons_of_ne_nil valid.body_nonempty
  simp only [sscanfIntChar, text, valid.dropWhile_space, cons]
  rw [← cons, valid.scan]
  simp only [List.append_assoc, valid.buffer, if_false, strtol_digits c.sign _ valid.kept_head,
    baseValue_kept, CInteger.value, if_true]

/-- Everything `sscanf` can do when it returns 1: read a whole C integer constant and
    store `strtol`'s value of it modulo `2^32`. -/
private theorem sscanf_one_inv {str : String} {v : Int} (one : sscanfIntChar str = (1, some v)) :
    ∃ c : CInteger, c.Valid ∧ str.toList = c.text ∧ v = toInt32 (max LONG_MIN (min LONG_MAX c.value)) := by
  unfold sscanfIntChar at one
  rcases drop : str.toList.dropWhile isSpace with _ | ⟨ch, rest⟩ <;> rw [drop] at one
  · cases one
  rcases sign : readSign (ch :: rest) with ⟨sg, r1⟩
  rcases base : readBase r1 with ⟨b, zero, r2⟩
  obtain ⟨radix, rfl, rfl, rfl, decimal, hex⟩ := readBase_inv base
  simp only [scanI, sign, base] at one
  split_ifs at one with trivial ends <;> cases one
  have whole : r2 = r2.takeWhile (isBaseDigit radix.base) := by
    simpa [ends] using (List.takeWhile_append_dropWhile (isBaseDigit radix.base) r2).symm
  set ds := r2.takeWhile (isBaseDigit radix.base) with digits
  have nonempty : radix = .decimal → ∃ d rest, ds = d :: rest ∧ d ≠ '0' := by
    intro dec
    subst dec
    cases h : ds with
    | nil => simp [h, Radix.kept] at trivial; cases sg <;> simp [Sign.text] at trivial
    | cons d rest => exact ⟨d, rest, rfl, decimal rfl d (by rw [whole, h]; rfl)⟩
  let c : CInteger := ⟨str.toList.takeWhile isSpace, sg, radix, ds⟩
  have valid : c.Valid :=
    ⟨fun _ mem => List.mem_takeWhile_imp mem, fun _ mem => List.mem_takeWhile_imp mem, nonempty, hex⟩
  refine ⟨c, valid, ?_, ?_⟩
  · have split := List.takeWhile_append_dropWhile isSpace str.toList
    rw [drop, readSign_inv sign, whole] at split
    simpa [CInteger.text, c] using split.symm
  · have head : ∀ ch ∈ (radix.kept ++ ds).head?, ch.isDigit = true := valid.kept_head
    rw [List.append_assoc, strtol_digits sg _ head, baseValue_kept]
    rfl

/-- A value that fits in an `int` goes through `strtol` and the store unchanged. -/
theorem toInt32_clamp {v : Int} (lo : INT_MIN ≤ v) (hi : v ≤ INT_MAX) :
    toInt32 (max LONG_MIN (min LONG_MAX v)) = v := by
  simp only [INT_MIN, INT_MAX, LONG_MIN, LONG_MAX] at *
  rw [min_eq_right (by omega), max_eq_right (by omega), toInt32]
  split_ifs <;> omega

/-- A value stored into an `int` fits in it. -/
theorem toInt32_range (l : Int) : INT_MIN ≤ toInt32 l ∧ toInt32 l ≤ INT_MAX := by
  simp only [toInt32, INT_MIN, INT_MAX]
  split_ifs <;> omega

/-- `sscanf` returns 1 exactly on a whole C integer constant. -/
theorem sscanf_one_iff (str : String) (v : Int) :
    sscanfIntChar str = (1, some v) ↔
      ∃ c : CInteger, c.Valid ∧ str.toList = c.text ∧ v = toInt32 (max LONG_MIN (min LONG_MAX c.value)) :=
  ⟨sscanf_one_inv, fun ⟨_, valid, text, value⟩ => value ▸ sscanf_cinteger valid text⟩

end JsonConfig.Scanf
