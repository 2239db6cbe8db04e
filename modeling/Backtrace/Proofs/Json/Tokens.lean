import Mathlib.Data.List.Basic
import Mathlib.Data.List.TakeDrop
import Backtrace.Json.Reader
import Backtrace.Json.Writer

/-!
What is written is read back, token by token: strings with their escapes, and the decimal digits of natural numbers
that fit in 64 bits.
-/
namespace Backtrace.Json

/-! ### Marks -/

inductive Mark : Char → Token → Prop
  | openArray : Mark '[' .openArray
  | closeArray : Mark ']' .closeArray
  | openObject : Mark '\x7b' .openObject
  | closeObject : Mark '\x7d' .closeObject
  | comma : Mark ',' .comma
  | colon : Mark ':' .colon

theorem token?_of_mark {c : Char} {token : Token} (mark : Mark c token) (cs : List Char) :
    token? (c :: cs) = some (token, cs) := by
  cases mark <;> rfl

/-! ### Strings -/

theorem codeUnit_append {digits rest : List Char} {unit : Nat} (found : codeUnit digits = .ok (unit, rest))
    (behind : List Char) : codeUnit (digits ++ behind) = .ok (unit, rest ++ behind) := by
  match digits with
  | a :: b :: c :: d :: more =>
    simp only [codeUnit, List.cons_append] at found ⊢
    cases read : hexValue? [a, b, c, d] with
    | some value =>
      rw [read] at found
      cases found
      rfl
    | none =>
      rw [read] at found
      cases found
  | [] | [_] | [_, _] | [_, _, _] => simp [codeUnit] at found

theorem codeUnit_hexPadded {unit : Nat} (control : unit < 0x20) (behind : List Char) :
    codeUnit (Text.hexPadded 4 unit ++ behind) = .ok (unit, behind) := by
  have each : ∀ unit < 0x20, codeUnit (Text.hexPadded 4 unit) = .ok (unit, []) := by decide +kernel
  exact codeUnit_append (each unit control) behind

theorem quoted_plain {c : Char} (mark : c ≠ '"') (slash : c ≠ '\\') (printed : ¬c.toNat < 0x20) (p : Partial)
    (behind : List Char) : quoted p (c :: behind) = quoted (p.push c) behind := by
  rw [quoted, if_neg mark, if_neg slash, if_neg printed]

theorem quoted_escaped {p q : Partial} {cs rest : List Char} (read : escaped p cs = .ok (q, rest)) :
    quoted p ('\\' :: cs) = quoted q rest := by
  rw [quoted, if_neg (by decide), if_pos rfl]
  split
  · next failed =>
    rw [read] at failed
    cases failed
  · next found =>
    rw [read] at found
    cases found
    rfl

theorem escaped_control {c : Char} (control : c.toNat < 0x20) (p : Partial) (behind : List Char) :
    escaped p ('u' :: (Text.hexPadded 4 c.toNat ++ behind)) = .ok (p.push c, behind) := by
  have leading : isLeading c.toNat = false := by
    simp only [isLeading, Bool.and_eq_false_imp, decide_eq_true_eq, decide_eq_false_iff_not]
    omega
  have trailing : isTrailing c.toNat = false := by
    simp only [isTrailing, Bool.and_eq_false_imp, decide_eq_true_eq, decide_eq_false_iff_not]
    omega
  simp only [escaped, codeUnit_hexPadded control, leading, trailing, Bool.false_eq_true, if_false, Char.ofNat_toNat]

/-- A character of a string is read back from the way it is written. -/
theorem quoted_escape (c : Char) (p : Partial) (behind : List Char) :
    quoted p (escape c ++ behind) = quoted (p.push c) behind := by
  unfold escape
  -- The characters with a short escape come first, then the other control characters.
  iterate 7
    split
    · subst c
      exact quoted_escaped rfl
  split
  · next control => exact quoted_escaped (escaped_control control p behind)
  · next mark slash _ _ _ _ _ printed => exact quoted_plain mark slash printed p behind

theorem quoted_flatMap_escape (cs : List Char) (p : Partial) (rest : List Char) :
    quoted p (cs.flatMap escape ++ '"' :: rest) = .ok ((cs.foldl Partial.push p).text, rest) := by
  induction cs generalizing p with
  | nil => rw [List.flatMap_nil, List.nil_append, quoted, if_pos rfl, List.foldl_nil]
  | cons c cs ih => rw [List.flatMap_cons, List.append_assoc, quoted_escape, ih, List.foldl_cons]

theorem foldl_push (cs before : List Char) : cs.foldl Partial.push (some before) = some (cs.reverse ++ before) := by
  induction cs generalizing before with
  | nil => rfl
  | cons c cs ih => rw [List.foldl_cons, Partial.push, Option.map_some, ih]; simp

theorem token?_writeString (text : String) (rest : List Char) :
    token? (writeString text rest) = some (.string (some text), rest) := by
  have read : quoted (some []) (text.toList.flatMap escape ++ '"' :: rest) = .ok (some text, rest) := by
    rw [quoted_flatMap_escape, foldl_push]
    simp [Partial.text]
  change some (tokenFrom '"' (text.toList.flatMap escape ++ '"' :: rest)) = _
  simp only [tokenFrom, read]

/-! ### Numbers -/

def Ends (rest : List Char) : Prop := ∀ c ∈ rest.head?, c = ',' ∨ c = ']' ∨ c = '\x7d'

theorem ends_nil : Ends [] := by simp [Ends]

theorem ends_cons {c : Char} (mark : c = ',' ∨ c = ']' ∨ c = '\x7d') (rest : List Char) : Ends (c :: rest) := by
  rintro _ ⟨⟩
  exact mark

theorem Ends.head {rest : List Char} (ends : Ends rest) :
    ∀ c ∈ rest.head?, c.isDigit = false ∧ c ≠ '.' ∧ c ≠ 'e' ∧ c ≠ 'E' := by
  intro c found
  rcases ends c found with rfl | rfl | rfl <;> decide

theorem digits_append {ds rest : List Char} (all : ∀ d ∈ ds, d.isDigit = true) (ends : Ends rest) :
    digits (ds ++ rest) = (ds, rest) := by
  have stop : rest.takeWhile Char.isDigit = [] ∧ rest.dropWhile Char.isDigit = rest := by
    cases rest with
    | nil => exact ⟨rfl, rfl⟩
    | cons c rest =>
      have other := (ends.head c rfl).1
      exact ⟨List.takeWhile_cons_of_neg (by simp [other]), List.dropWhile_cons_of_neg (by simp [other])⟩
  rw [digits, List.span_eq_takeWhile_dropWhile, List.takeWhile_append_of_pos all, List.dropWhile_append_of_pos all,
    stop.1, stop.2, List.append_nil]

theorem head_toDigits {n : Nat} (positive : 0 < n) : ∀ c ∈ (Nat.toDigits 10 n).head?, c ≠ '0' := by
  induction n using Nat.strongRecOn with
  | ind n ih =>
    rcases Nat.lt_or_ge n 10 with small | large
    · rw [Nat.toDigits_of_lt_base small]
      rintro _ ⟨⟩ zero
      exact Nat.ne_of_gt positive (Nat.digitChar_eq_zero.1 zero)
    · rw [Nat.toDigits_of_base_le (by decide) large, List.head?_append_of_ne_nil _ Nat.toDigits_ne_nil]
      exact ih (n / 10) (by omega) (by omega)

theorem integer_toDigits (n : Nat) {rest : List Char} (ends : Ends rest) :
    integer (Nat.toDigits 10 n ++ rest) = .ok (Nat.toDigits 10 n, rest) := by
  rw [integer, digits_append (fun c member => Nat.isDigit_of_mem_toDigits (by decide) (by decide) member) ends]
  split
  · next none => exact absurd (congrArg Prod.fst none) Nat.toDigits_ne_nil
  · next c more _ zero =>
    have written : Nat.toDigits 10 n = '0' :: c :: more := congrArg Prod.fst zero
    rcases Nat.eq_zero_or_pos n with rfl | positive
    · cases written
    · exact absurd rfl (head_toDigits positive '0' (by simp [written]))
  · next found => rw [found]

theorem le_ofDigitChars (ds : List Char) (value : Nat) : value ≤ Nat.ofDigitChars 10 ds value := by
  induction ds generalizing value with
  | nil => exact Nat.le_refl _
  | cons d ds ih =>
    rw [Nat.ofDigitChars_cons]
    exact Nat.le_trans (by omega) (ih _)

theorem whole_digits {ds : List Char} {value : Nat} (fits : Nat.ofDigitChars 10 ds value < Scaled.room) :
    Scaled.whole ⟨value, 0⟩ ds = ⟨Nat.ofDigitChars 10 ds value, 0⟩ := by
  induction ds generalizing value with
  | nil => rfl
  | cons d ds ih =>
    rw [Nat.ofDigitChars_cons] at fits ⊢
    have room : 10 * value + Scaled.digit d < Scaled.room := Nat.lt_of_le_of_lt (le_ofDigitChars ds _) fits
    rw [Scaled.whole, if_pos ⟨rfl, room⟩]
    exact ih fits

theorem number_toDigits {n : Nat} (small : n < UInt64.size) {rest : List Char} (ends : Ends rest) :
    number (Nat.toDigits 10 n ++ rest) = .ok (.natural n, rest) := by
  have value : Scaled.whole {} (Nat.toDigits 10 n) = ⟨n, 0⟩ := by
    rw [whole_digits (by rwa [Nat.ofDigitChars_ten_toDigits]), Nat.ofDigitChars_ten_toDigits]
  have noDecimals : decimals rest = .ok (none, rest) := by
    unfold decimals
    split
    · next more => exact absurd rfl (ends.head '.' rfl).2.1
    · rfl
  have noExponent : exponent rest = .ok (none, rest) := by
    cases rest with
    | nil => rfl
    | cons c rest =>
      obtain ⟨-, -, lower, upper⟩ := ends.head c rfl
      simp [exponent, lower, upper]
  have unsigned (more : List Char) : Nat.toDigits 10 n ++ rest ≠ '-' :: more := by
    intro same
    have first : (Nat.toDigits 10 n ++ rest).head? = some '-' := by rw [same, List.head?_cons]
    rw [List.head?_append_of_ne_nil _ Nat.toDigits_ne_nil] at first
    exact absurd (Nat.isDigit_of_mem_toDigits (by decide) (by decide) (List.mem_of_head? first)) (by decide)
  unfold number
  split
  next negative all cut =>
  obtain ⟨rfl, rfl⟩ : false = negative ∧ Nat.toDigits 10 n ++ rest = all := by
    split at cut
    · next more same => exact absurd same (unsigned more)
    · exact Prod.mk.inj cut
  simp [integer_toDigits n ends, noDecimals, noExponent, value, bind, Except.bind, pure, Except.pure]

theorem tokenFrom_digit {d : Char} (digit : d.isDigit = true) {cs rest : List Char} {value : Number}
    (read : number (d :: cs) = .ok (value, rest)) (shorter : rest.length ≤ cs.length) :
    tokenFrom d cs = (.number value, rest) := by
  unfold tokenFrom
  split
  case h_11 =>
    rw [if_pos (.inr digit), read]
    simp [shorter]
  all_goals exact absurd digit (by decide)

theorem token?_writeNumber {n : Nat} (small : n < UInt64.size) {rest : List Char} (ends : Ends rest) :
    token? (writeNumber (.natural n) ++ rest) = some (.number (.natural n), rest) := by
  obtain ⟨d, ds, written⟩ := List.exists_cons_of_ne_nil (Nat.toDigits_ne_nil (n := n) (b := 10))
  have digit : d.isDigit = true :=
    Nat.isDigit_of_mem_toDigits (by decide) (by decide) (written ▸ List.mem_cons_self : d ∈ Nat.toDigits 10 n)
  have read := number_toDigits small ends
  have space : ¬isSpace d = true := by
    intro blank
    simp only [isSpace, Bool.or_eq_true, decide_eq_true_eq] at blank
    rcases blank with ((rfl | rfl) | rfl) | rfl <;> exact absurd digit (by decide)
  rw [writeNumber, written, List.cons_append, token?, List.dropWhile_cons_of_neg space]
  rw [written] at read
  exact congrArg some (tokenFrom_digit digit read (by simp))

end Backtrace.Json
