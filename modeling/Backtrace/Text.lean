/-! Texts as lists of characters: blanks at their ends, cuts, keywords in any case, and numerals. -/
namespace Backtrace.Text

/-! ### Blanks -/

/-- The twenty-five code points with the property White_Space, as closed ranges. -/
def blankRanges : List (Nat × Nat) :=
  [(0x09, 0x0d), (0x20, 0x20), (0x85, 0x85), (0xa0, 0xa0), (0x1680, 0x1680), (0x2000, 0x200a),
    (0x2028, 0x2029), (0x202f, 0x202f), (0x205f, 0x205f), (0x3000, 0x3000)]

def isBlank (c : Char) : Bool := blankRanges.any fun range => range.1 ≤ c.toNat && c.toNat ≤ range.2

def trimStart (cs : List Char) : List Char := cs.dropWhile isBlank

def trim (cs : List Char) : List Char := (trimStart (trimStart cs).reverse).reverse

theorem trimStart_eq_nil_or_head {cs : List Char} : trimStart cs = [] ∨
    ∃ c rest, trimStart cs = c :: rest ∧ isBlank c = false := by
  have head := List.head?_dropWhile_not isBlank cs
  rw [trimStart]
  cases found : cs.dropWhile isBlank with
  | nil => exact .inl rfl
  | cons c rest =>
    rw [found] at head
    exact .inr ⟨c, rest, rfl, head⟩

/-! ### Cuts -/

def around? (mark : Char) : List Char → Option (List Char × List Char)
  | [] => none
  | c :: cs => if c = mark then some ([], cs) else (around? mark cs).map fun (l, r) => (c :: l, r)

def before (mark : Char) (cs : List Char) : List Char := cs.takeWhile (· ≠ mark)

abbrev startsWith (start cs : List Char) : Bool := start.isPrefixOf cs

def holds (part : List Char) : List Char → Bool
  | [] => part.isEmpty
  | c :: cs => startsWith part (c :: cs) || holds part cs

theorem around?_eq_some_iff {mark : Char} {cs l r : List Char} :
    around? mark cs = some (l, r) ↔ cs = l ++ mark :: r ∧ mark ∉ l := by
  induction cs generalizing l with
  | nil => simp [around?]
  | cons c cs ih =>
    by_cases h : c = mark
    · subst h
      cases l with
      | nil => simp [around?, eq_comm]
      | cons a l => simp [around?]; intro e; simp [e]
    · cases l with
      | nil => simp [around?, h]
      | cons a l =>
        simp only [around?, h, if_false, Option.map_eq_some_iff, Prod.exists, Prod.mk.injEq,
          List.cons.injEq, List.cons_append, List.mem_cons, not_or]
        constructor
        · rintro ⟨l', r', e, ⟨rfl, rfl⟩, rfl⟩
          exact ⟨⟨rfl, (ih.1 e).1⟩, fun e => h e.symm, (ih.1 e).2⟩
        · rintro ⟨⟨rfl, e⟩, -, hl⟩
          exact ⟨l, r, ih.2 ⟨e, hl⟩, ⟨rfl, rfl⟩, rfl⟩

theorem around?_eq_none_iff {mark : Char} {cs : List Char} : around? mark cs = none ↔ mark ∉ cs := by
  induction cs with
  | nil => simp [around?]
  | cons c cs ih =>
    by_cases h : c = mark
    · simp [around?, h]
    · simp [around?, h, ih, Ne.symm h]

/-! ### Keywords -/

/-- The lower case of a character where that is ASCII, else some character that is not ASCII. -/
def lowerAscii (c : Char) : Char := if c = '\u212a' then 'k' else c.toLower

def isOneOf (words : List String) (text : String) : Bool :=
  words.any fun word => text.toList.map lowerAscii == word.toList

def lookUp? (table : List (List String × α)) (text : String) : Option α :=
  (table.find? fun entry => isOneOf entry.1 text).map (·.2)

/-! ### Numerals -/

def decimalStep (value : Nat) (c : Char) : Option Nat :=
  if c.isDigit then some (10 * value + (c.toNat - '0'.toNat)) else none

def decimal? : List Char → Option Nat
  | [] => none
  | c :: cs => (c :: cs).foldlM decimalStep 0

def numeral? (bound : Nat) (cs : List Char) : Option Nat :=
  let digits := match cs with
    | '+' :: rest => rest
    | _ => cs
  (decimal? digits).filter (· < bound)

def hex (n : Nat) : List Char := Nat.toDigits 16 n

def hexPadded (width n : Nat) : List Char := List.replicate (width - (hex n).length) '0' ++ hex n

def lowerHexDigit? (c : Char) : Option Nat :=
  if c.isDigit then some (c.toNat - '0'.toNat)
  else if 'a' ≤ c ∧ c ≤ 'f' then some (c.toNat - 'a'.toNat + 10)
  else none

def hexDigit? (c : Char) : Option Nat :=
  if 'A' ≤ c ∧ c ≤ 'F' then some (c.toNat - 'A'.toNat + 10) else lowerHexDigit? c

def decimalText (n : Nat) : String := n.repr

end Backtrace.Text
