import Backtrace.Line
import Backtrace.Text

/-!
Texts over an alphabet. Every alphabet has the characters of the fixed texts that are put between those
of a trace, so that what is composed of texts over an alphabet is again over it.
-/
namespace Backtrace

/-- The characters of the texts that are put between those of a trace. -/
def isFixed (c : Char) : Bool := (' ' ≤ c && c ≤ '~') || c = '…'

structure Alphabet where
  has : Char → Prop
  fixed : ∀ c, isFixed c = true → has c

theorem sentinel_not_fixed {c : Char} (fixed : isFixed c = true) (marker : Marker) : c ≠ marker.sentinel := by
  rintro rfl
  cases marker <;> revert fixed <;> decide

theorem isSentinel_eq_false_iff {c : Char} : isSentinel c = false ↔ ∀ marker : Marker, c ≠ marker.sentinel := by
  constructor
  · rintro free marker rfl
    simp [isSentinel, Marker.ofSentinel?_sentinel] at free
  · intro different
    cases found : Marker.ofSentinel? c with
    | none => simp [isSentinel, found]
    | some marker => exact absurd (Marker.sentinel_of_ofSentinel? found).symm (different marker)

theorem isSentinel_of_isFixed {c : Char} (fixed : isFixed c = true) : isSentinel c = false :=
  isSentinel_eq_false_iff.2 (sentinel_not_fixed fixed)

namespace Alphabet

def unmarked : Alphabet where
  has c := isSentinel c = false
  fixed _ fixed := isSentinel_of_isFixed fixed

def line : Alphabet where
  has c := isSentinel c = false ∧ c ≠ '\n'
  fixed c fixed := ⟨isSentinel_of_isFixed fixed, by rintro rfl; revert fixed; decide⟩

/-- The characters of a single line that no end of line can take to itself. -/
def inline : Alphabet where
  has c := isSentinel c = false ∧ c ≠ '\n' ∧ c ≠ '\r'
  fixed c fixed := ⟨isSentinel_of_isFixed fixed, by rintro rfl; revert fixed; decide,
    by rintro rfl; revert fixed; decide⟩

def Over (alphabet : Alphabet) (text : String) : Prop := ∀ c ∈ text.toList, alphabet.has c

def Each (alphabet : Alphabet) (texts : List String) : Prop := ∀ text ∈ texts, alphabet.Over text

theorem over_unmarked_of_all {text : String} (free : text.toList.all (!isSentinel ·) = true) :
    unmarked.Over text := by
  intro c member
  have absent := List.all_eq_true.1 free c member
  rwa [Bool.not_eq_true'] at absent

variable {alphabet : Alphabet}

theorem Over.unmarked_of_line {text : String} (clean : line.Over text) : unmarked.Over text :=
  fun c member => (clean c member).1

theorem Over.line_of_inline {text : String} (clean : inline.Over text) : line.Over text :=
  fun c member => ⟨(clean c member).1, (clean c member).2.1⟩

theorem over_of_fixed {text : String} (fixed : text.toList.all isFixed = true) : alphabet.Over text :=
  fun c member => alphabet.fixed c (List.all_eq_true.1 fixed c member)

theorem over_of_subset {text : String} {cs : List Char} (clean : alphabet.Over text)
    (subset : ∀ c ∈ cs, c ∈ text.toList) : alphabet.Over (String.ofList cs) := by
  intro c member
  rw [String.toList_ofList] at member
  exact clean c (subset c member)

@[simp] theorem over_append {first second : String} :
    alphabet.Over (first ++ second) ↔ alphabet.Over first ∧ alphabet.Over second := by
  simp only [Over, String.toList_append, List.forall_mem_append]

@[simp] theorem over_empty : alphabet.Over "" := over_of_fixed (by decide)

theorem over_ofList {cs : List Char} : alphabet.Over (String.ofList cs) ↔ ∀ c ∈ cs, alphabet.has c := by
  rw [Over, String.toList_ofList]

theorem over_singleton {c : Char} : alphabet.Over (String.singleton c) ↔ alphabet.has c := by
  rw [Over, String.toList_singleton, List.forall_mem_singleton]

@[simp] theorem each_nil : alphabet.Each [] := by
  intro text member
  cases member

@[simp] theorem each_cons {text : String} {texts : List String} :
    alphabet.Each (text :: texts) ↔ alphabet.Over text ∧ alphabet.Each texts := List.forall_mem_cons

theorem each_of_fixed {texts : List String} (fixed : texts.all (·.toList.all isFixed) = true) : alphabet.Each texts :=
  fun text member => over_of_fixed (List.all_eq_true.1 fixed text member)

@[simp] theorem each_append {first second : List String} :
    alphabet.Each (first ++ second) ↔ alphabet.Each first ∧ alphabet.Each second := List.forall_mem_append

@[simp] theorem each_toList {text : Option String} :
    alphabet.Each text.toList ↔ ∀ value, text = some value → alphabet.Over value := by
  cases text <;> simp

@[simp] theorem each_flatMap {α : Type} {values : List α} {texts : α → List String} :
    alphabet.Each (values.flatMap texts) ↔ ∀ value ∈ values, alphabet.Each (texts value) := by
  constructor
  · intro each value member text part
    exact each text (List.mem_flatMap.2 ⟨value, member, part⟩)
  · intro each text member
    obtain ⟨value, found, part⟩ := List.mem_flatMap.1 member
    exact each value found text part

@[simp] theorem over_join {texts : List String} : alphabet.Over (String.join texts) ↔ alphabet.Each texts := by
  induction texts with
  | nil => simp
  | cons text texts ih => rw [String.join_cons, over_append, ih, each_cons]

theorem over_intercalate {separator : String} {texts : List String} (fixed : alphabet.Over separator) :
    alphabet.Over (separator.intercalate texts) ↔ alphabet.Each texts := by
  induction texts with
  | nil => simp
  | cons text texts ih =>
    by_cases last : texts = []
    · simp [last]
    · rw [String.intercalate_cons_of_ne_nil last, over_append, over_append, ih, each_cons]
      simp only [fixed, and_true]

theorem over_decimalText (n : Nat) : alphabet.Over (Text.decimalText n) := by
  intro c member
  rw [Text.decimalText, Nat.toList_repr] at member
  have digit := Nat.isDigit_of_mem_toDigits (by decide) (by decide) member
  apply alphabet.fixed
  simp only [Char.isDigit, Bool.and_eq_true, decide_eq_true_eq] at digit
  simp only [isFixed, Bool.or_eq_true, Bool.and_eq_true, decide_eq_true_eq]
  refine .inl ⟨UInt32.le_trans (by decide) digit.1, UInt32.le_trans digit.2 (by decide)⟩

end Alphabet

end Backtrace
