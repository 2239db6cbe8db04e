import Mathlib.Data.List.DropRight
import Mathlib.Data.Nat.Digits.Defs
import Backtrace.Text

/-!
Words that are read without regard to case, texts that are read without the blanks around them, and decimal numerals.
Where the words of a table are all different, a text names at most one entry of it. A numeral stands for the sum of its
digits, each with the weight of its place: zeros in front weigh nothing, and a number that is not below the bound is not
cut down to it.
-/
namespace Backtrace.Text

/-! ### Words and blanks -/

def Spells (word : String) (letters : List Char) : Prop := letters.map lowerAscii = word.toList

/-- Letters with nothing but blanks around them. -/
def Pads (inner letters : List Char) : Prop :=
  ∃ before after, letters = before ++ inner ++ after ∧ ∀ c ∈ before ++ after, isBlank c = true

theorem isBlank_eq_false_of_ascii {c : Char} (low : 33 ≤ c.toNat) (high : c.toNat ≤ 126) : isBlank c = false := by
  by_contra blank
  simp only [isBlank, blankRanges, List.any_cons, List.any_nil, Bool.not_eq_false, Bool.or_eq_true, Bool.and_eq_true,
    decide_eq_true_eq, Bool.false_eq_true, or_false] at blank
  omega

theorem lowerAscii_of_blank {c : Char} (blank : isBlank c = true) : lowerAscii c = c := by
  have unlettered : ¬(c.val ≥ 'A'.val ∧ c.val ≤ 'Z'.val) := by
    intro ⟨low, high⟩
    have solid := isBlank_eq_false_of_ascii (le_trans (by decide) low) (le_trans high (by decide))
    exact Bool.false_ne_true (solid.symm.trans blank)
  rw [lowerAscii, if_neg (by rintro rfl; revert blank; decide)]
  exact dif_neg unlettered

theorem isOneOf_eq_true_iff {words : List String} {text : String} :
    isOneOf words text = true ↔ ∃ word ∈ words, Spells word text.toList := by
  simp only [isOneOf, List.any_eq_true, beq_iff_eq, Spells]

/-- An entry is found by any of its words, as long as other entries do not share them. -/
theorem lookUp?_eq_some_iff {α : Type} {table : List (List String × α)} {text : String} {value : α}
    (apart : ∀ first ∈ table, ∀ second ∈ table, ∀ word ∈ first.1, word ∈ second.1 → first.2 = second.2) :
    lookUp? table text = some value ↔
      ∃ entry ∈ table, entry.2 = value ∧ ∃ word ∈ entry.1, Spells word text.toList := by
  have found_spells {entry : List String × α} (found : table.find? (isOneOf ·.1 text) = some entry) :
      ∃ word ∈ entry.1, Spells word text.toList :=
    isOneOf_eq_true_iff.1 (@List.find?_some _ (isOneOf ·.1 text) entry table found)
  rw [lookUp?, Option.map_eq_some_iff]
  constructor
  · rintro ⟨entry, found, same⟩
    exact ⟨entry, List.mem_of_find?_eq_some found, same, found_spells found⟩
  · rintro ⟨entry, member, rfl, word, also, spelled⟩
    have named : (table.find? (isOneOf ·.1 text)).isSome = true :=
      List.find?_isSome.2 ⟨entry, member, isOneOf_eq_true_iff.2 ⟨word, also, spelled⟩⟩
    obtain ⟨first, found⟩ := Option.isSome_iff_exists.1 named
    obtain ⟨other, otherMember, otherSpelled⟩ := found_spells found
    obtain rfl : word = other := String.toList_inj.1 (spelled.symm.trans otherSpelled)
    exact ⟨first, found, apart first (List.mem_of_find?_eq_some found) entry member word otherMember also⟩

theorem Spells.solid {word : String} {letters : List Char} (spelled : Spells word letters)
    (plain : word.toList.any isBlank = false) : ∀ c ∈ letters, isBlank c = false := by
  intro c member
  by_contra blank
  rw [Bool.not_eq_false] at blank
  have inside : lowerAscii c ∈ word.toList := spelled ▸ List.mem_map_of_mem member
  rw [lowerAscii_of_blank blank] at inside
  exact List.any_eq_false.1 plain c inside blank

theorem trim_eq_rdropWhile (letters : List Char) : trim letters = (letters.dropWhile isBlank).rdropWhile isBlank := rfl

theorem pads_trim (letters : List Char) : Pads (trim letters) letters := by
  refine ⟨letters.takeWhile isBlank, (letters.dropWhile isBlank).rtakeWhile isBlank, ?_, ?_⟩
  · rw [trim_eq_rdropWhile, List.append_assoc, List.rdropWhile_append_rtakeWhile, List.takeWhile_append_dropWhile]
  · rw [List.forall_mem_append]
    exact ⟨fun c member => List.mem_takeWhile_imp member, fun c member => List.mem_rtakeWhile_imp member⟩

theorem dropWhile_of_solid {inner rest : List Char} (solid : ∀ c ∈ inner, isBlank c = false) (filled : inner ≠ []) :
    (inner ++ rest).dropWhile isBlank = inner ++ rest := by
  obtain ⟨c, cs, rfl⟩ := List.exists_cons_of_ne_nil filled
  exact List.dropWhile_cons_of_neg (by simp [solid c List.mem_cons_self])

/-- Letters without blanks among them are all that is left of a text. -/
theorem trim_eq_iff_pads {inner letters : List Char} (solid : ∀ c ∈ inner, isBlank c = false) :
    trim letters = inner ↔ Pads inner letters := by
  refine ⟨fun same => same ▸ pads_trim letters, ?_⟩
  rintro ⟨before, after, rfl, blank⟩
  rw [List.forall_mem_append] at blank
  rw [trim_eq_rdropWhile, List.append_assoc, List.dropWhile_append_of_pos blank.1]
  by_cases filled : inner = []
  · subst filled
    rw [List.nil_append, List.dropWhile_eq_nil_iff.2 blank.2, List.rdropWhile_nil]
  · have behind : ∀ c ∈ after.reverse, isBlank c = true := fun c member => blank.2 c (List.mem_reverse.1 member)
    have turned : inner.reverse.dropWhile isBlank = inner.reverse := by
      rw [← List.append_nil inner.reverse]
      exact dropWhile_of_solid (fun c member => solid c (List.mem_reverse.1 member)) (by simpa using filled)
    rw [dropWhile_of_solid solid filled, List.rdropWhile, List.reverse_append, List.dropWhile_append_of_pos behind,
      turned, List.reverse_reverse]

/-! ### Numerals -/

def decimalValue (digits : List Char) : Nat :=
  Nat.ofDigits 10 (digits.map fun c => c.toNat - '0'.toNat).reverse

/-- One or more decimal digits of a value, perhaps behind a plus sign. -/
def Numeral (cs : List Char) (value : Nat) : Prop :=
  ∃ digits, (cs = digits ∨ cs = '+' :: digits) ∧ digits ≠ [] ∧ (∀ c ∈ digits, c.isDigit = true) ∧
    decimalValue digits = value

theorem decimalValue_cons (c : Char) (cs : List Char) :
    decimalValue (c :: cs) = (c.toNat - '0'.toNat) * 10 ^ cs.length + decimalValue cs := by
  rw [decimalValue, List.map_cons, Nat.ofDigits_reverse_cons, List.length_map, decimalValue, Nat.mul_comm,
    Nat.add_comm]

theorem foldlM_decimalStep_eq_some_iff {cs : List Char} {before value : Nat} :
    cs.foldlM decimalStep before = some value ↔
      (∀ c ∈ cs, c.isDigit = true) ∧ before * 10 ^ cs.length + decimalValue cs = value := by
  induction cs generalizing before with
  | nil => simp [decimalValue]
  | cons c cs ih =>
    rw [List.foldlM_cons, decimalStep, List.forall_mem_cons, decimalValue_cons, List.length_cons]
    by_cases digit : c.isDigit = true
    · have weights : (10 * before + (c.toNat - '0'.toNat)) * 10 ^ cs.length + decimalValue cs =
          before * 10 ^ (cs.length + 1) + ((c.toNat - '0'.toNat) * 10 ^ cs.length + decimalValue cs) := by
        ring
      rw [if_pos digit]
      change List.foldlM decimalStep _ cs = some value ↔ _
      rw [ih, weights, and_assoc, and_iff_right digit]
    · rw [if_neg digit]
      exact iff_of_false (by rintro ⟨⟩) fun all => digit all.1.1

theorem decimal?_eq_some_iff {cs : List Char} {value : Nat} :
    decimal? cs = some value ↔ cs ≠ [] ∧ (∀ c ∈ cs, c.isDigit = true) ∧ decimalValue cs = value := by
  cases cs with
  | nil => simp [decimal?]
  | cons c cs =>
    rw [decimal?, foldlM_decimalStep_eq_some_iff, Nat.zero_mul, Nat.zero_add,
      and_iff_right (List.cons_ne_nil c cs)]

/-- A numeral is read as its value, as long as that is below the bound. -/
theorem numeral?_eq_some_iff {bound value : Nat} {cs : List Char} :
    numeral? bound cs = some value ↔ value < bound ∧ Numeral cs value := by
  unfold numeral?
  rw [Option.filter_eq_some_iff, decimal?_eq_some_iff, decide_eq_true_iff, and_comm]
  refine and_congr_right fun _ => ?_
  split
  · next digits =>
    constructor
    · exact fun read => ⟨digits, .inr rfl, read⟩
    · rintro ⟨_, rfl | same, filled, all, value⟩
      · exact absurd (all '+' List.mem_cons_self) (by decide)
      · obtain rfl := (List.cons.inj same).2
        exact ⟨filled, all, value⟩
  · next unsigned =>
    constructor
    · exact fun read => ⟨cs, .inl rfl, read⟩
    · rintro ⟨digits, rfl | rfl, read⟩
      · exact read
      · exact absurd rfl (unsigned digits)

theorem Numeral.underscore_not_mem {cs : List Char} {value : Nat} (numeral : Numeral cs value) : '_' ∉ cs := by
  obtain ⟨digits, rfl | rfl, -, all, -⟩ := numeral
  · exact fun member => absurd (all '_' member) (by decide)
  · rw [List.mem_cons, not_or]
    exact ⟨by decide, fun member => absurd (all '_' member) (by decide)⟩

end Backtrace.Text
