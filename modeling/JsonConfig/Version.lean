import JsonConfig.Stream

/-!
# `parse_version`

The broker fallback version of a `<kafka>` output must pass `parse_version`, which
reads up to four numbers with `>>`, a `get()` of a dot before each but the first, and
accepts when the stream is at its end after at least two. What it accepts is exactly
two to four numbers as `>>` reads them (`Numeral`: white space, a sign, digits) joined
by dots, each with a value in `0..INT_MAX`; the array then holds their values and zeros
(`parseVersion_ok_iff`). In particular it inverts the dotted decimal rendering.
-/

namespace JsonConfig.Version
open JsonConfig.Stream Istringstream

/-- The codes `parse_version` returns. -/
inductive Status where
  | ipxOk | ipxErrFormat
deriving DecidableEq, Repr

def FIELDS_MIN : Nat := 2
def FIELDS_MAX : Nat := 4

/-- The loop `for (idx = ...; idx < FIELDS_MAX && !parser.eof(); idx++)` from `idx`,
    with `fuel` rounds left before `idx` reaches `FIELDS_MAX`. A `return
    IPX_ERR_FORMAT` inside it ends it with the array as it stands (`.error`). -/
def versionLoop : (fuel idx : Nat) → Istringstream → List Int →
    Except (List Int) (Nat × Istringstream × List Int)
  | 0, idx, parser, version => .ok (idx, parser, version)
  | fuel + 1, idx, parser, version =>
    if idx < FIELDS_MAX && !parser.eofbit then
      let dot : Option Istringstream :=
        if idx ≠ 0 then
          let (c, parser) := parser.get
          if c ≠ some '.' then none else some parser
        else some parser
      match dot with
      | none => .error version
      | some parser =>
        let (n, parser) := parser.extractInt (version.getD idx 0)
        let version := version.set idx n
        if parser.failbit || n < 0 then .error version
        else versionLoop fuel (idx + 1) parser version
    else .ok (idx, parser, version)

/-- `parse_version(str, version)`: the code it returns and the array `version` after it. -/
def parseVersion (str : String) : Status × List Int :=
  match versionLoop FIELDS_MAX 0 (.ofString str) [0, 0, 0, 0] with
  | .error version => (.ipxErrFormat, version)
  | .ok (idx, parser, version) =>
    if !parser.eofbit || idx < FIELDS_MIN then (.ipxErrFormat, version) else (.ipxOk, version)

/-- The text of numbers, each after a dot. -/
def dots : List Numeral → List Char
  | [] => []
  | f :: fs => '.' :: (f.text ++ dots fs)

/-- The text of numbers joined by dots. -/
def joinDots : List Numeral → List Char
  | [] => []
  | f :: fs => f.text ++ dots fs

/-- A number `parse_version` takes: the shape `>>` reads, a value in `0..INT_MAX`. -/
def Accepted (f : Numeral) : Prop := f.Valid ∧ 0 ≤ f.value ∧ f.value ≤ INT_MAX

private theorem dots_stop (fs : List Numeral) : ∀ c ∈ (dots fs).head?, c.isDigit = false := by
  cases fs <;> simp [dots]

private theorem set_replicate (pre : List Int) (n : Int) (k : Nat) :
    (pre ++ List.replicate (k + 1) 0).set pre.length n = (pre ++ [n]) ++ List.replicate k 0 := by
  simp [List.set_append_right, List.replicate_succ]

/-! ### The loop of `parse_version` -/

/-- The first round reads a number. -/
private theorem versionLoop_first {fuel : Nat} {rest : List Char} {version : List Int} :
    versionLoop (fuel + 1) 0 ⟨rest, false, false⟩ version =
      let (n, parser) := extractInt ⟨rest, false, false⟩ (version.getD 0 0)
      if parser.failbit || n < 0 then .error (version.set 0 n)
      else versionLoop fuel 1 parser (version.set 0 n) := by
  simp [versionLoop, FIELDS_MAX]

/-- A later round reads a dot, then a number. -/
private theorem versionLoop_dot {fuel idx : Nat} {c : Char} {r : List Char} {version : List Int}
    (guard : idx < FIELDS_MAX) (notFirst : idx ≠ 0) :
    versionLoop (fuel + 1) idx ⟨c :: r, false, false⟩ version =
      if c = '.' then
        let (n, parser) := extractInt ⟨r, false, false⟩ (version.getD idx 0)
        if parser.failbit || n < 0 then .error (version.set idx n)
        else versionLoop fuel (idx + 1) parser (version.set idx n)
      else .error version := by
  by_cases dot : c = '.' <;> simp [versionLoop, guard, notFirst, Istringstream.get, good, dot]

/-- At the end of the text the loop stops. -/
private theorem versionLoop_eof (fuel idx : Nat) (version : List Int) :
    versionLoop fuel idx ⟨[], true, false⟩ version = .ok (idx, ⟨[], true, false⟩, version) := by
  cases fuel <;> simp [versionLoop]

/-- A round that reads a number `parse_version` takes goes on with the rest of the text. -/
private theorem round_numeral {f : Numeral} {r : List Char} (n : Int) (accepted : Accepted f)
    (stop : ∀ c ∈ r.head?, c.isDigit = false) :
    extractInt ⟨f.text ++ r, false, false⟩ n = (f.value, ⟨r, r.isEmpty, false⟩) ∧
      (false || decide (f.value < 0)) = false := by
  obtain ⟨valid, nonneg, hi⟩ := accepted
  have lo : INT_MIN ≤ f.value := by simp only [INT_MIN]; omega
  exact ⟨extractInt_numeral n valid lo hi stop, by simp [Int.not_lt.mpr nonneg]⟩

/-- A round that goes on read a number `parse_version` takes. -/
theorem round_inv {rest : List Char} {n v : Int} {p : Istringstream}
    (read : extractInt ⟨rest, false, false⟩ n = (v, p)) (ok : (p.failbit || decide (v < 0)) = false) :
    ∃ f r, Accepted f ∧ rest = f.text ++ r ∧ v = f.value ∧ p = ⟨r, r.isEmpty, false⟩ := by
  simp only [Bool.or_eq_false_iff, decide_eq_false_iff_not, Int.not_lt] at ok
  obtain ⟨f, r, valid, -, hi, split, -, rfl, rfl⟩ := extractInt_inv (show (⟨rest, false, false⟩ : Istringstream).good = true from rfl) read ok.1
  exact ⟨f, r, ⟨valid, ok.2, hi⟩, split, rfl, rfl⟩

/-- A run of the loop after the first number that ends at the end of the text read
    dot-separated numbers that `parse_version` takes, and stored their values. -/
theorem versionLoop_inv {fuel idx idx' : Nat} {rest : List Char} {pre v' : List Int} {p' : Istringstream}
    (first : 1 ≤ idx) (len : pre.length = idx) (bound : idx + fuel = FIELDS_MAX)
    (run : versionLoop fuel idx ⟨rest, rest.isEmpty, false⟩ (pre ++ List.replicate fuel 0) = .ok (idx', p', v'))
    (eof : p'.eofbit = true) :
    ∃ fs, rest = dots fs ∧ (∀ f ∈ fs, Accepted f) ∧ fs.length ≤ fuel ∧ idx' = idx + fs.length ∧
      v' = pre ++ fs.map Numeral.value ++ List.replicate (fuel - fs.length) 0 := by
  induction fuel generalizing idx rest pre with
  | zero =>
    cases run
    exact ⟨[], by simpa using eof, by simp, le_rfl, rfl, by simp⟩
  | succ fuel ih =>
    cases rest with
    | nil =>
      rw [List.isEmpty_nil, versionLoop_eof] at run
      cases run
      exact ⟨[], rfl, by simp, Nat.zero_le _, rfl, by simp⟩
    | cons c r =>
      rw [List.isEmpty_cons, versionLoop_dot (by omega) (by omega)] at run
      by_cases dot : c = '.'
      · subst dot
        rcases read : extractInt ⟨r, false, false⟩ ((pre ++ List.replicate (fuel + 1) 0).getD idx 0) with ⟨n, p⟩
        simp only [read, if_true] at run
        cases ok : (p.failbit || decide (n < 0))
        · rw [ok] at run
          obtain ⟨f, r', accepted, split, rfl, rfl⟩ := round_inv read ok
          rw [← len, set_replicate, len] at run
          obtain ⟨fs, rfl, rest, fits, rfl, rfl⟩ := ih (by omega) (by simp [len]) (by omega) run
          exact ⟨f :: fs, by simp [dots, split], List.forall_mem_cons.mpr ⟨accepted, rest⟩,
            by simp; omega, by simp; omega, by simp⟩
        · simp [ok] at run
      · simp [dot] at run

/-- The loop after the first number reads dot-separated numbers `parse_version` takes
    to the end of the text. -/
theorem versionLoop_dots {fs : List Numeral} {fuel idx : Nat} {pre : List Int}
    (first : 1 ≤ idx) (len : pre.length = idx) (bound : idx + fuel = FIELDS_MAX)
    (fits : fs.length ≤ fuel) (accepted : ∀ f ∈ fs, Accepted f) :
    versionLoop fuel idx ⟨dots fs, (dots fs).isEmpty, false⟩ (pre ++ List.replicate fuel 0) =
      .ok (idx + fs.length, ⟨[], true, false⟩,
        pre ++ fs.map Numeral.value ++ List.replicate (fuel - fs.length) 0) := by
  induction fs generalizing fuel idx pre with
  | nil => simp [dots, versionLoop_eof]
  | cons f fs ih =>
    obtain ⟨fuel, rfl⟩ : ∃ k, fuel = k + 1 := ⟨fuel - 1, by simp at fits; omega⟩
    obtain ⟨head, rest⟩ := List.forall_mem_cons.mp accepted
    obtain ⟨read, ok⟩ := round_numeral ((pre ++ List.replicate (fuel + 1) 0).getD idx 0) head (dots_stop fs)
    have step : versionLoop fuel (idx + 1) ⟨dots fs, (dots fs).isEmpty, false⟩
        ((pre ++ [f.value]) ++ List.replicate fuel 0) = _ :=
      ih (by omega) (by simp [len]) (by omega) (by simp at fits; omega) rest
    rw [dots, List.isEmpty_cons, versionLoop_dot (by omega) (by omega), if_pos rfl]
    simp only [read, ok, Bool.false_eq_true, if_false]
    rw [← len, set_replicate, len, step]
    simp only [List.length_cons, List.map_cons, List.append_assoc, List.singleton_append,
      Nat.add_sub_add_right]
    congr 2
    omega

/-- A run of the whole loop that ends at the end of the text read one to four numbers
    `parse_version` takes, joined by dots, and stored their values. -/
theorem versionLoop_joinDots_inv {str : String} {idx : Nat} {p' : Istringstream} {v : List Int}
    (run : versionLoop FIELDS_MAX 0 (.ofString str) [0, 0, 0, 0] = .ok (idx, p', v))
    (eof : p'.eofbit = true) :
    ∃ fs : List Numeral, fs.length ≤ FIELDS_MAX ∧ idx = fs.length ∧ (∀ f ∈ fs, Accepted f) ∧
      str.toList = joinDots fs ∧ v = fs.map Numeral.value ++ List.replicate (FIELDS_MAX - fs.length) 0 := by
  rw [show FIELDS_MAX = 3 + 1 from rfl] at run ⊢
  rw [Istringstream.ofString, versionLoop_first] at run
  rcases read : extractInt ⟨str.toList, false, false⟩ (([0, 0, 0, 0] : List Int).getD 0 0) with ⟨n, p⟩
  simp only [read] at run
  cases ok : (p.failbit || decide (n < 0))
  · obtain ⟨f, r, accepted, split, rfl, rfl⟩ := round_inv read ok
    have set : ([0, 0, 0, 0] : List Int).set 0 f.value = [f.value] ++ List.replicate 3 0 := rfl
    simp only [ok, set, Bool.false_eq_true, if_false] at run
    obtain ⟨fs, rfl, rest, fits, rfl, rfl⟩ :=
      versionLoop_inv le_rfl (rfl : [f.value].length = 1) (rfl : 1 + 3 = FIELDS_MAX) run eof
    exact ⟨f :: fs, by simp; omega, by simp; omega, List.forall_mem_cons.mpr ⟨accepted, rest⟩,
      by rw [joinDots, split], by simp⟩
  · simp [ok] at run

/-- The whole loop reads one to four numbers `parse_version` takes, joined by dots, to
    the end of the text. -/
theorem versionLoop_joinDots {fs : List Numeral} (nonempty : fs ≠ []) (fits : fs.length ≤ FIELDS_MAX)
    (accepted : ∀ f ∈ fs, Accepted f) :
    versionLoop FIELDS_MAX 0 ⟨joinDots fs, false, false⟩ [0, 0, 0, 0] =
      .ok (fs.length, ⟨[], true, false⟩,
        fs.map Numeral.value ++ List.replicate (FIELDS_MAX - fs.length) 0) := by
  obtain ⟨f, fs, rfl⟩ := List.exists_cons_of_ne_nil nonempty
  obtain ⟨head, rest⟩ := List.forall_mem_cons.mp accepted
  obtain ⟨read, ok⟩ := round_numeral (([0, 0, 0, 0] : List Int).getD 0 0) head (dots_stop fs)
  have run : versionLoop 3 1 ⟨dots fs, (dots fs).isEmpty, false⟩ ([f.value] ++ List.replicate 3 0) = _ :=
    versionLoop_dots le_rfl rfl rfl (by simp [FIELDS_MAX] at fits; omega) rest
  have set : ([0, 0, 0, 0] : List Int).set 0 f.value = [f.value] ++ List.replicate 3 0 := rfl
  rw [show FIELDS_MAX = 3 + 1 from rfl, versionLoop_first, joinDots]
  simp only [read, ok, set, run, Bool.false_eq_true, if_false]
  simp [Nat.add_comm]

/-! ### What `parse_version` accepts -/

/-- `parse_version` accepts exactly two to four numbers that `>>` reads, joined by
    dots, each with a value in `0..INT_MAX`; the array then holds their values and zeros. -/
theorem parseVersion_ok_iff (str : String) (v : List Int) :
    parseVersion str = (.ipxOk, v) ↔
      ∃ fs : List Numeral, FIELDS_MIN ≤ fs.length ∧ fs.length ≤ FIELDS_MAX ∧
        (∀ f ∈ fs, Accepted f) ∧ str.toList = joinDots fs ∧
        v = fs.map Numeral.value ++ List.replicate (FIELDS_MAX - fs.length) 0 := by
  unfold parseVersion
  constructor
  · intro accept
    split at accept
    · cases accept
    · next idx p v' run =>
      split_ifs at accept with bad
      · cases accept
      · cases accept
        have ⟨eof, two⟩ : p.eofbit = true ∧ FIELDS_MIN ≤ idx := by simpa using bad
        obtain ⟨fs, fits, rfl, accepted, text, rfl⟩ := versionLoop_joinDots_inv run eof
        exact ⟨fs, two, fits, accepted, text, rfl⟩
  · rintro ⟨fs, two, four, accepted, text, rfl⟩
    have nonempty : fs ≠ [] := by rintro rfl; simp [FIELDS_MIN] at two
    rw [Istringstream.ofString, text, versionLoop_joinDots nonempty four accepted]
    simp [Nat.not_lt.mpr two]

private theorem intercalate_go_toList (acc : String) (ds : List String) :
    (String.intercalate.go acc "." ds).toList = acc.toList ++ (ds.map fun d => '.' :: d.toList).flatten := by
  induction ds generalizing acc with
  | nil => simp [String.intercalate.go]
  | cons d ds ih =>
    rw [String.intercalate.go, ih]
    simp

/-- A digit string as a number with nothing around its digits. -/
def plain (d : String) : Numeral := ⟨[], .none, d.toList⟩

theorem joinDots_plain (ds : List String) :
    joinDots (ds.map plain) = (String.intercalate "." ds).toList := by
  cases ds with
  | nil => rfl
  | cons d ds =>
    have dots_plain : ∀ ds : List String, dots (ds.map plain) = (ds.map fun d => '.' :: d.toList).flatten := by
      intro ds; induction ds with
      | nil => rfl
      | cons d ds ih => simp [dots, ih, plain, Numeral.text, Sign.text]
    rw [List.map_cons, joinDots, dots_plain, String.intercalate, intercalate_go_toList]
    simp [plain, Numeral.text, Sign.text]

private theorem digitsValue_append (ds : List Char) (c : Char) :
    digitsValue (ds ++ [c]) = 10 * digitsValue ds + (c.toNat - 48) := by
  simp [digitsValue, List.foldl_append]

private theorem digitChar_digit : ∀ k < 10, (Nat.digitChar k).isDigit = true ∧ (Nat.digitChar k).toNat - 48 = k := by
  decide

theorem toDigitsCore_digits (fuel n : Nat) (ds : List Char) (enough : n < fuel) :
    ∃ D, Nat.toDigitsCore 10 fuel n ds = D ++ ds ∧ D ≠ [] ∧ (∀ c ∈ D, c.isDigit = true) ∧
      digitsValue D = n := by
  induction fuel generalizing n ds with
  | zero => omega
  | succ fuel ih =>
    obtain ⟨digit, value⟩ := digitChar_digit (n % 10) (Nat.mod_lt _ (by omega))
    unfold Nat.toDigitsCore
    dsimp only
    split_ifs with last
    · refine ⟨[Nat.digitChar (n % 10)], rfl, by simp, by simpa using digit, ?_⟩
      simp only [digitsValue, List.foldl_cons, List.foldl_nil, value]
      omega
    · obtain ⟨D, run, nonempty, decimal, rest⟩ := ih (n / 10) (Nat.digitChar (n % 10) :: ds) (by omega)
      refine ⟨D ++ [Nat.digitChar (n % 10)], by simpa using run, by simp, ?_, ?_⟩
      · intro c mem
        rcases List.mem_append.mp mem with mem | mem
        · exact decimal c mem
        · rw [List.mem_singleton.mp mem]; exact digit
      · rw [digitsValue_append, rest, value]; omega

/-- `toString n` is a run of digits whose value is `n`. -/
theorem toString_digits (n : Nat) :
    (toString n).toList ≠ [] ∧ (∀ c ∈ (toString n).toList, c.isDigit = true) ∧
      digitsValue (toString n).toList = n := by
  obtain ⟨D, run, nonempty, decimal, value⟩ := toDigitsCore_digits (n + 1) n [] (by omega)
  have text : (toString n).toList = D := by
    show (Nat.toDigits 10 n).asString.toList = D
    simp [List.asString, Nat.toDigits, run]
  exact ⟨text ▸ nonempty, text ▸ decimal, text ▸ value⟩

private theorem mem_intercalate {c : Char} {ds : List String} (mem : c ∈ (String.intercalate "." ds).toList) :
    c = '.' ∨ ∃ d ∈ ds, c ∈ d.toList := by
  cases ds with
  | nil => simp [String.intercalate] at mem
  | cons d ds =>
    rw [String.intercalate, intercalate_go_toList] at mem
    simp only [List.mem_append, List.mem_flatten, List.mem_map] at mem
    rcases mem with mem | ⟨_, ⟨d', mem', rfl⟩, inner⟩
    · exact .inr ⟨d, .head _, mem⟩
    · rcases List.mem_cons.mp inner with dot | inner
      · exact .inl dot
      · exact .inr ⟨d', .tail _ mem', inner⟩

/-! ### The contract of `parse_version` -/

/-- An accepted version is two to four numbers joined by dots, each as `>>` reads it:
    white space and a sign may stand before its digits, and its value is in
    `0..INT_MAX`. The array holds the values, then zeros. -/
theorem parseVersion_ok_numerals (str : String) (v : List Int) (ok : parseVersion str = (.ipxOk, v)) :
    ∃ fs : List Numeral, 2 ≤ fs.length ∧ fs.length ≤ 4 ∧
      (∀ f ∈ fs, f.Valid ∧ 0 ≤ f.value ∧ f.value ≤ INT_MAX) ∧ str.toList = joinDots fs ∧
      v = fs.map Numeral.value ++ List.replicate (4 - fs.length) 0 :=
  (parseVersion_ok_iff str v).mp ok

theorem parseVersion_ok_numerals_blank_sign :
    parseVersion " 1.+2" = (.ipxOk, [1, 2, 0, 0]) ∧
      ∃ fs : List Numeral, 2 ≤ fs.length ∧ fs.length ≤ 4 ∧
        (∀ f ∈ fs, f.Valid ∧ 0 ≤ f.value ∧ f.value ≤ INT_MAX) ∧ " 1.+2".toList = joinDots fs ∧
        [1, 2, 0, 0] = fs.map Numeral.value ++ List.replicate (4 - fs.length) 0 :=
  ⟨by decide, parseVersion_ok_numerals " 1.+2" [1, 2, 0, 0] (by decide)⟩

/-- `parse_version` accepts a field with white space before its digits, so an accepted
    string need not be digit strings joined by dots. -/
theorem parseVersion_accepts_blank :
    parseVersion "1. 2" = (.ipxOk, [1, 2, 0, 0]) ∧
      ¬ ∃ ds : List String, "1. 2" = String.intercalate "." ds ∧
        ∀ d ∈ ds, ∀ c ∈ d.toList, c.isDigit = true := by
  refine ⟨by decide, ?_⟩
  rintro ⟨ds, text, digits⟩
  have blank : ' ' ∈ (String.intercalate "." ds).toList := by rw [← text]; decide
  rcases mem_intercalate blank with dot | ⟨d, mem, inner⟩
  · cases dot
  · cases digits d mem ' ' inner

/-- `parse_version` accepts every two to four digit strings joined by dots whose values
    fit in an `int`, and stores their values followed by zeros. -/
theorem parseVersion_digit_strings (ds : List String) (two : 2 ≤ ds.length) (four : ds.length ≤ 4)
    (digits : ∀ d ∈ ds, d.toList ≠ [] ∧ (∀ c ∈ d.toList, c.isDigit = true) ∧
      digitsValue d.toList ≤ 2 ^ 31 - 1) :
    parseVersion (String.intercalate "." ds) =
      (.ipxOk, ds.map (fun d => (digitsValue d.toList : Int)) ++ List.replicate (4 - ds.length) 0) := by
  refine (parseVersion_ok_iff _ _).mpr ⟨ds.map plain, by simpa [FIELDS_MIN] using two,
    by simpa [FIELDS_MAX] using four, ?_, (joinDots_plain ds).symm,
    by simp [plain, Numeral.value, FIELDS_MAX]⟩
  simp only [List.mem_map, forall_exists_index, and_imp]
  rintro _ d mem rfl
  obtain ⟨nonempty, decimal, small⟩ := digits d mem
  have value : (plain d).value = digitsValue d.toList := rfl
  refine ⟨⟨by simp [plain], nonempty, decimal⟩, ?_, ?_⟩
  · rw [value]; omega
  · rw [value, INT_MAX]; omega

/-- `parse_version` accepts every two to four digit strings joined by dots whose values
    fit in an `int`, and stores their values followed by zeros; in particular it inverts
    the dotted decimal rendering of every two to four non-negative `int` values. -/
theorem parseVersion_dotted_digits :
    (∀ ds : List String, 2 ≤ ds.length → ds.length ≤ 4 →
      (∀ d ∈ ds, d.toList ≠ [] ∧ (∀ c ∈ d.toList, c.isDigit = true) ∧
        digitsValue d.toList ≤ 2 ^ 31 - 1) →
      parseVersion (String.intercalate "." ds) =
        (.ipxOk, ds.map (fun d => (digitsValue d.toList : Int)) ++ List.replicate (4 - ds.length) 0)) ∧
    (∀ ns : List Nat, 2 ≤ ns.length → ns.length ≤ 4 → (∀ n ∈ ns, n ≤ 2 ^ 31 - 1) →
      parseVersion (String.intercalate "." (ns.map toString)) =
        (.ipxOk, ns.map (fun n : Nat => (n : Int)) ++ List.replicate (4 - ns.length) 0)) := by
  refine ⟨parseVersion_digit_strings, fun ns two four small => ?_⟩
  have rendered := parseVersion_digit_strings (ns.map toString) (by simpa using two)
    (by simpa using four) (by
      simp only [List.mem_map, forall_exists_index, and_imp]
      rintro _ n mem rfl
      obtain ⟨nonempty, decimal, value⟩ := toString_digits n
      exact ⟨nonempty, decimal, by rw [value]; exact small n mem⟩)
  rw [rendered, List.length_map, List.map_map]
  congr 2
  exact List.map_congr_left fun n _ => by simp only [Function.comp_apply, (toString_digits n).2.2]

theorem parseVersion_dotted_ten_zero_three :
    (2 ≤ [10, 0, 3].length ∧ [10, 0, 3].length ≤ 4 ∧ ∀ n ∈ [10, 0, 3], n ≤ 2 ^ 31 - 1) ∧
      parseVersion (String.intercalate "." ([10, 0, 3].map toString)) = (.ipxOk, [10, 0, 3, 0]) :=
  ⟨by decide, parseVersion_dotted_digits.2 [10, 0, 3] (by decide) (by decide) (by decide)⟩

end JsonConfig.Version
