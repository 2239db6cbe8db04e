import Backtrace.Method.Origin
import Backtrace.Proofs.Text
import Mathlib.Data.List.Infix

/-!
How generated names are read. The host is what stands up to the bracket that closes the first one: a text in which
every bracket that is opened is closed, and none is closed that was not opened in it. A count of the brackets that are
open finds its end where it first comes down to zero. The suffix of a lambda may spell a number, that of a local
function its name.
-/
namespace Backtrace

/-- A text that closes what it opens and, behind that, `depth` brackets that stand open in front of it. -/
def Closes (depth : Nat) (cs : List Char) : Prop :=
  cs.count '>' = cs.count '<' + depth ∧ ∀ front, front <+: cs → front.count '>' ≤ front.count '<' + depth

/-- As many brackets are opened as are closed, and nowhere more are closed than were opened up to there. -/
def BalancedBrackets (cs : List Char) : Prop :=
  cs.count '<' = cs.count '>' ∧ ∀ front, front <+: cs → front.count '>' ≤ front.count '<'

theorem closes_zero_iff {cs : List Char} : Closes 0 cs ↔ BalancedBrackets cs := and_congr_left fun _ => eq_comm

theorem closes_nil_iff {depth : Nat} : Closes depth [] ↔ depth = 0 := by
  simp [Closes, List.prefix_nil, eq_comm]

theorem closes_cons_iff {depth : Nat} {c : Char} {cs : List Char} : Closes depth (c :: cs) ↔
    (c :: cs).count '>' = (c :: cs).count '<' + depth ∧
      ∀ front, front <+: cs → (c :: front).count '>' ≤ (c :: front).count '<' + depth := by
  refine and_congr_right fun _ => ⟨fun bounded front start => ?_, fun bounded front start => ?_⟩
  · exact bounded (c :: front) (List.cons_prefix_cons.2 ⟨rfl, start⟩)
  · rcases List.prefix_cons_iff.1 start with rfl | ⟨front, rfl, inner⟩
    · exact Nat.zero_le _
    · exact bounded front inner

theorem closes_open_iff {depth : Nat} {cs : List Char} : Closes depth ('<' :: cs) ↔ Closes (depth + 1) cs := by
  rw [closes_cons_iff, Closes]
  simp [Nat.add_right_comm, Nat.add_assoc]

theorem closes_close_iff {depth : Nat} {cs : List Char} : Closes (depth + 1) ('>' :: cs) ↔ Closes depth cs := by
  rw [closes_cons_iff, Closes]
  simp [← Nat.add_assoc]

theorem not_closes_zero_close {cs : List Char} : ¬Closes 0 ('>' :: cs) := fun closes => by
  simpa using (closes_cons_iff.1 closes).2 [] List.nil_prefix

theorem closes_other_iff {depth : Nat} {c : Char} {cs : List Char} (notOpen : c ≠ '<') (notClose : c ≠ '>') :
    Closes depth (c :: cs) ↔ Closes depth cs := by
  rw [closes_cons_iff, Closes]
  simp [notOpen, notClose]

theorem cut_behind_iff {depth : Nat} {c : Char} {cs front rest : List Char} (later : c = '>' → depth ≠ 0) :
    (c :: cs = front ++ '>' :: rest ∧ Closes depth front) ↔
      ∃ inner, front = c :: inner ∧ cs = inner ++ '>' :: rest ∧ Closes depth (c :: inner) := by
  constructor
  · rintro ⟨whole, closes⟩
    cases front with
    | nil => exact absurd (closes_nil_iff.1 closes) (later (List.cons.inj whole).1)
    | cons first inner =>
      obtain ⟨rfl, behind⟩ := List.cons.inj whole
      exact ⟨inner, rfl, behind, closes⟩
  · rintro ⟨inner, rfl, rfl, closes⟩
    exact ⟨rfl, closes⟩

theorem map_cons_eq_some_iff {c : Char} {found : Option (List Char × List Char)} {front rest : List Char} :
    found.map (fun (l, r) => (c :: l, r)) = some (front, rest) ↔
      ∃ inner, front = c :: inner ∧ found = some (inner, rest) := by
  rw [Option.map_eq_some_iff]
  constructor
  · rintro ⟨⟨inner, _⟩, rfl, ⟨⟩⟩
    exact ⟨inner, rfl, rfl⟩
  · rintro ⟨inner, rfl, rfl⟩
    exact ⟨(inner, rest), rfl, rfl⟩

/-- A text is cut at the first bracket in front of which `depth` brackets, and all that are opened, are closed. -/
theorem atClosing?_eq_some_iff {depth : Nat} {cs front rest : List Char} :
    atClosing? depth cs = some (front, rest) ↔ cs = front ++ '>' :: rest ∧ Closes depth front := by
  fun_induction atClosing? depth cs generalizing front with
  | case1 depth => simp
  | case2 depth cs ih =>
    rw [map_cons_eq_some_iff, cut_behind_iff fun same => absurd same (by decide)]
    simp only [ih, closes_open_iff]
  | case3 cs notOpen =>
    constructor
    · rintro ⟨⟩
      exact ⟨rfl, closes_nil_iff.2 rfl⟩
    · rintro ⟨whole, closes⟩
      cases front with
      | nil => rw [(List.cons.inj whole).2]
      | cons first inner =>
        obtain ⟨rfl, -⟩ := List.cons.inj whole
        exact absurd closes not_closes_zero_close
  | case4 cs depth notOpen ih =>
    rw [map_cons_eq_some_iff, cut_behind_iff fun _ => Nat.succ_ne_zero depth]
    simp only [ih, closes_close_iff]
  | case5 depth c cs notOpen notClose ih =>
    rw [map_cons_eq_some_iff, cut_behind_iff fun same => absurd same notClose]
    simp only [ih, closes_other_iff notOpen notClose]

/-! ### The depth of a scan -/

def depthChange (c : Char) : Int := if c = '<' then 1 else if c = '>' then -1 else 0

/-- The numbers of open brackets that a scan counts from `depth` on, one behind each character, up to the first
behind which none is open. -/
def depths (depth : Int) : List Char → List Int
  | [] => []
  | c :: cs =>
    let next := depth + depthChange c
    next :: if next = 0 then [] else depths next cs

/-- The parts of a text before and behind the character where the count comes down to zero. -/
def cutAtZero? (depth : Int) (cs : List Char) : Option (List Char × List Char) :=
  ((depths depth cs).idxOf? 0).map fun place => (cs.take place, cs.drop (place + 1))

theorem depth_step_nonneg {depth : Int} (opened : 0 < depth) (c : Char) : 0 ≤ depth + depthChange c := by
  unfold depthChange
  split_ifs <;> omega

theorem depths_nonneg {depth : Int} {cs : List Char} (opened : 0 < depth) : ∀ next ∈ depths depth cs, 0 ≤ next := by
  induction cs generalizing depth with
  | nil => exact List.forall_mem_nil _
  | cons c cs ih =>
    have step := depth_step_nonneg opened c
    refine List.forall_mem_cons.2 ⟨step, ?_⟩
    split_ifs with closed
    · exact List.forall_mem_nil _
    · exact ih (by omega)

theorem cutAtZero?_cons_zero {depth : Int} {c : Char} (cs : List Char) (step : depth + depthChange c = 0) :
    cutAtZero? depth (c :: cs) = some ([], cs) := by
  simp [cutAtZero?, depths, step, List.idxOf?_cons]

theorem cutAtZero?_cons_pos {depth next : Int} {c : Char} (cs : List Char) (step : depth + depthChange c = next)
    (opened : 0 < next) : cutAtZero? depth (c :: cs) = (cutAtZero? next cs).map fun (l, r) => (c :: l, r) := by
  have goesOn : next ≠ 0 := Int.ne_of_gt opened
  have later : (depths depth (c :: cs)).idxOf? 0 = ((depths next cs).idxOf? 0).map (· + 1) := by
    simp [depths, step, goesOn, List.idxOf?_cons]
  rw [cutAtZero?, later, cutAtZero?, Option.map_map, Option.map_map]
  rfl

/-- The scan for the closing bracket cuts where the count of open brackets comes down to zero. -/
theorem atClosing?_eq_cutAtZero? (depth : Nat) (cs : List Char) :
    atClosing? depth cs = cutAtZero? (depth + 1) cs := by
  fun_induction atClosing? depth cs with
  | case1 depth => rfl
  | case2 depth cs ih =>
    have step : (depth : Int) + 1 + depthChange '<' = (depth + 1 : Nat) + 1 := by
      change (depth : Int) + 1 + 1 = (depth + 1 : Nat) + 1
      omega
    rw [ih]
    exact (cutAtZero?_cons_pos cs step (by omega)).symm
  | case3 cs notOpen => exact (cutAtZero?_cons_zero cs rfl).symm
  | case4 cs depth notOpen ih =>
    have step : ((depth + 1 : Nat) : Int) + 1 + depthChange '>' = depth + 1 := by
      change ((depth + 1 : Nat) : Int) + 1 + -1 = depth + 1
      omega
    rw [ih]
    exact (cutAtZero?_cons_pos cs step (by omega)).symm
  | case5 depth c cs notOpen notClose ih =>
    have step : (depth : Int) + 1 + depthChange c = depth + 1 := by
      rw [depthChange, if_neg notOpen, if_neg notClose, Int.add_zero]
    rw [ih]
    exact (cutAtZero?_cons_pos cs step (by omega)).symm

/-! ### The parts of a name -/

namespace GeneratedName

inductive Tail : List Char → Option GeneratedKind → String → Prop
  | bare : Tail [] none ""
  | lettered (letter : Char) (suffix : String) : Tail (letter :: suffix.toList) (some (.ofLetter letter)) suffix

theorem Tail.eq_letter {tail : List Char} {kind : GeneratedKind} {suffix : String}
    (behind : Tail tail (some kind) suffix) : tail = kind.letter :: suffix.toList := by
  cases behind with
  | lettered letter => rw [GeneratedKind.letter_ofLetter]

/-- A name is read as a host in brackets and what stands behind it, where every bracket of the host is closed
in it. -/
theorem ofText?_eq_some_iff {name : String} {parts : GeneratedName} :
    ofText? name = some parts ↔ ∃ tail, name.toList = '<' :: parts.host.toList ++ '>' :: tail ∧
      BalancedBrackets parts.host.toList ∧ Tail tail parts.kind parts.suffix := by
  unfold ofText?
  constructor
  · intro found
    split at found
    · next rest start =>
      obtain ⟨⟨host, tail⟩, cut, rfl⟩ := Option.map_eq_some_iff.1 found
      obtain ⟨rfl, closes⟩ := atClosing?_eq_some_iff.1 cut
      cases tail with
      | nil => exact ⟨[], by simpa using start, by simpa using closes_zero_iff.1 closes, .bare⟩
      | cons letter suffix =>
        have behind := Tail.lettered letter (String.ofList suffix)
        rw [String.toList_ofList] at behind
        exact ⟨letter :: suffix, by simpa using start, by simpa using closes_zero_iff.1 closes, behind⟩
    · cases found
  · obtain ⟨host, kind, suffix⟩ := parts
    rintro ⟨tail, whole, balanced, behind⟩
    have cut : atClosing? 0 (host.toList ++ '>' :: tail) = some (host.toList, tail) :=
      atClosing?_eq_some_iff.2 ⟨rfl, closes_zero_iff.2 balanced⟩
    rw [whole]
    simp only [List.cons_append, cut, Option.map_some]
    cases behind <;> simp

theorem ofText?_of_letter {name host suffix : String} (balanced : BalancedBrackets host.toList) (letter : Char)
    (whole : name.toList = '<' :: host.toList ++ '>' :: letter :: suffix.toList) :
    ofText? name = some ⟨host, some (.ofLetter letter), suffix⟩ :=
  ofText?_eq_some_iff.2 ⟨letter :: suffix.toList, whole, balanced, .lettered letter suffix⟩

theorem Tail.exists_parts (tail : List Char) : ∃ kind suffix, Tail tail kind suffix := by
  cases tail with
  | nil => exact ⟨none, "", .bare⟩
  | cons letter suffix =>
    have behind := Tail.lettered letter (String.ofList suffix)
    rw [String.toList_ofList] at behind
    exact ⟨_, _, behind⟩

theorem host_ofText? {name : String} {rest : List Char} (start : name.toList = '<' :: rest) :
    (ofText? name).map (·.host.toList) = (atClosing? 0 rest).map Prod.fst := by
  unfold ofText?
  rw [start]
  change Option.map _ (Option.map _ (atClosing? 0 rest)) = _
  cases atClosing? 0 rest with
  | none => rfl
  | some parts =>
    obtain ⟨host, tail⟩ := parts
    cases tail <;> exact congrArg some String.toList_ofList

theorem ofText?_eq_some_iff_append {name host suffix : String} {kind : Option GeneratedKind} :
    ofText? name = some ⟨host, kind, suffix⟩ ↔
      ∃ tail, name = "<" ++ host ++ ">" ++ tail ∧ BalancedBrackets host.toList ∧ Tail tail.toList kind suffix := by
  rw [ofText?_eq_some_iff]
  constructor
  · rintro ⟨tail, whole, balanced, behind⟩
    refine ⟨String.ofList tail, ?_, balanced, by simpa using behind⟩
    rw [← String.toList_inj, whole]
    simp
  · rintro ⟨tail, rfl, balanced, behind⟩
    exact ⟨tail.toList, by simp, balanced, behind⟩

/-- A text has a balanced host in one way only: both hosts are what is read. -/
theorem host_tail_unique {name host tail other behind : String} (whole : name = "<" ++ host ++ ">" ++ tail)
    (balanced : BalancedBrackets host.toList) (whole' : name = "<" ++ other ++ ">" ++ behind)
    (balanced' : BalancedBrackets other.toList) : host = other ∧ tail = behind := by
  obtain ⟨kind, suffix, read⟩ := Tail.exists_parts tail.toList
  obtain ⟨kind', suffix', read'⟩ := Tail.exists_parts behind.toList
  have found : ofText? name = some ⟨host, kind, suffix⟩ :=
    ofText?_eq_some_iff_append.2 ⟨tail, whole, balanced, read⟩
  have found' : ofText? name = some ⟨other, kind', suffix'⟩ :=
    ofText?_eq_some_iff_append.2 ⟨behind, whole', balanced', read'⟩
  obtain rfl : host = other := congrArg GeneratedName.host (Option.some.inj (found.symm.trans found'))
  exact ⟨rfl, (String.append_right_inj _).1 (whole.symm.trans whole')⟩

/-- A generated name is read as its host, in brackets, with what stands behind it, where the host closes every
bracket that it opens and none that it does not; nothing else is read as one. There is one way to take a name apart
so, a name that is put together is read as its parts, and the count of open brackets that finds the end of the host
never falls below zero. -/
theorem generated_name_grammar (name : String) :
    (∀ host kind suffix, ofText? name = some ⟨host, kind, suffix⟩ ↔
      ∃ tail, name = "<" ++ host ++ ">" ++ tail ∧ BalancedBrackets host.toList ∧ Tail tail.toList kind suffix) ∧
    (∀ host tail other behind, name = "<" ++ host ++ ">" ++ tail → BalancedBrackets host.toList →
      name = "<" ++ other ++ ">" ++ behind → BalancedBrackets other.toList → host = other ∧ tail = behind) ∧
    (∀ host letter suffix, name = "<" ++ host ++ ">" ++ String.singleton letter ++ suffix →
      BalancedBrackets host.toList → ofText? name = some ⟨host, some (.ofLetter letter), suffix⟩) ∧
    ∀ rest, name.toList = '<' :: rest → (∀ depth ∈ depths 1 rest, 0 ≤ depth) ∧
      (ofText? name).map (·.host.toList) = ((depths 1 rest).idxOf? 0).map fun place => rest.take place := by
  refine ⟨fun _ _ _ => ofText?_eq_some_iff_append, ?_, ?_, ?_⟩
  · intro host tail other behind whole balanced whole' balanced'
    exact host_tail_unique whole balanced whole' balanced'
  · intro host letter suffix whole balanced
    apply ofText?_of_letter balanced letter
    simp [whole]
  · intro rest start
    refine ⟨depths_nonneg (by decide), ?_⟩
    rw [host_ofText? start, atClosing?_eq_cutAtZero?, cutAtZero?, Option.map_map]
    rfl

/-- The type of the state machine of an asynchronous lambda: its host is a generated name, too. -/
theorem generated_name_grammar_nested :
    let name := "<<Start>b__0_2>d__0"
    let host := "<Start>b__0_2"
    BalancedBrackets host.toList ∧ ofText? name = some ⟨host, some .stateMachine, "__0"⟩ ∧
      (∀ other behind, name = "<" ++ other ++ ">" ++ behind → BalancedBrackets other.toList →
        host = other ∧ "d__0" = behind) ∧
      ∀ depth ∈ depths 1 "<Start>b__0_2>d__0".toList, 0 ≤ depth := by
  intro name host
  have read : ofText? "<<Start>b__0_2>" = some ⟨"<Start>b__0_2", none, ""⟩ := by rfl
  have balanced : BalancedBrackets host.toList := by
    obtain ⟨tail, -, balanced, -⟩ := ofText?_eq_some_iff.1 read
    exact balanced
  obtain ⟨-, alone, composed, counted⟩ := generated_name_grammar name
  have whole : name = "<" ++ host ++ ">" ++ "d__0" := by decide
  exact ⟨balanced, composed host 'd' "__0" (by decide) balanced,
    fun other behind whole' balanced' => alone host "d__0" other behind whole balanced whole' balanced',
    (counted "<Start>b__0_2>d__0".toList (by decide)).1⟩

end GeneratedName

/-! ### Suffixes -/

/-- The number that a lambda's suffix ends in: behind two underscores, or behind the first underscore after those. -/
def SpellsOrdinal (suffix : String) (number : Nat) : Prop :=
  ∃ digits, Text.Numeral digits number ∧ (suffix.toList = '_' :: '_' :: digits ∨
    ∃ front, '_' ∉ front ∧ suffix.toList = '_' :: '_' :: front ++ '_' :: digits)

/-- The name that a local function has in its suffix: between two underscores and the first bar. -/
def SpellsFunction (suffix called : String) : Prop :=
  called ≠ "" ∧ '|' ∉ called.toList ∧ ∃ rest, suffix.toList = '_' :: '_' :: called.toList ++ '|' :: rest

def ordinalDigits (cs : List Char) : List Char :=
  match Text.around? '_' cs with
  | some (_, tail) => tail
  | none => cs

theorem lambdaOrdinal?_eq (suffix : String) : lambdaOrdinal? suffix =
    (['_', '_'].isPrefixOf? suffix.toList).bind fun body =>
      (Text.numeral? UInt32.size (ordinalDigits body)).map UInt32.ofNat := by
  unfold lambdaOrdinal?
  simp only [Option.map_eq_bind]
  rfl

theorem numeral_ordinalDigits_iff {body : List Char} {number : Nat} :
    Text.Numeral (ordinalDigits body) number ↔ ∃ digits, Text.Numeral digits number ∧
      (body = digits ∨ ∃ front, '_' ∉ front ∧ body = front ++ '_' :: digits) := by
  unfold ordinalDigits
  cases cut : Text.around? '_' body with
  | none =>
    constructor
    · exact fun numeral => ⟨body, numeral, .inl rfl⟩
    · rintro ⟨digits, numeral, rfl | ⟨front, -, rfl⟩⟩
      · exact numeral
      · exact absurd (by simp) (Text.around?_eq_none_iff.1 cut)
  | some parts =>
    obtain ⟨front, digits⟩ := parts
    obtain ⟨whole, clean⟩ := Text.around?_eq_some_iff.1 cut
    constructor
    · exact fun numeral => ⟨digits, numeral, .inr ⟨front, clean, whole⟩⟩
    · rintro ⟨other, numeral, rfl | ⟨before, clean', whole'⟩⟩
      · exact absurd (by simp [whole]) numeral.underscore_not_mem
      · have same := cut.symm.trans (Text.around?_eq_some_iff.2 ⟨whole', clean'⟩)
        cases same
        exact numeral

theorem spellsOrdinal_iff {suffix : String} {number : Nat} : SpellsOrdinal suffix number ↔
    ∃ body, suffix.toList = '_' :: '_' :: body ∧ Text.Numeral (ordinalDigits body) number := by
  constructor
  · rintro ⟨digits, numeral, whole | ⟨front, clean, whole⟩⟩
    · exact ⟨digits, whole, numeral_ordinalDigits_iff.2 ⟨digits, numeral, .inl rfl⟩⟩
    · exact ⟨_, whole, numeral_ordinalDigits_iff.2 ⟨digits, numeral, .inr ⟨front, clean, rfl⟩⟩⟩
  · rintro ⟨body, whole, spelled⟩
    obtain ⟨digits, numeral, rfl | ⟨front, clean, rfl⟩⟩ := numeral_ordinalDigits_iff.1 spelled
    · exact ⟨body, numeral, .inl whole⟩
    · exact ⟨digits, numeral, .inr ⟨front, clean, whole⟩⟩

/-- A lambda has the number that its suffix spells, as long as that fits in 32 bits. -/
theorem ordinal_eq_some_iff {suffix : String} {number : Nat} :
    (lambdaOrdinal? suffix).map UInt32.toNat = some number ↔ number < UInt32.size ∧ SpellsOrdinal suffix number := by
  rw [lambdaOrdinal?_eq, Option.map_eq_some_iff, spellsOrdinal_iff]
  constructor
  · rintro ⟨ordinal, found, rfl⟩
    obtain ⟨body, start, found⟩ := Option.bind_eq_some_iff.1 found
    obtain ⟨number, read, rfl⟩ := Option.map_eq_some_iff.1 found
    obtain ⟨small, numeral⟩ := Text.numeral?_eq_some_iff.1 read
    rw [UInt32.toNat_ofNat_of_lt' small]
    exact ⟨small, body, (List.isPrefixOf?_eq_some_iff_append_eq.1 start).symm, numeral⟩
  · rintro ⟨small, body, whole, numeral⟩
    refine ⟨UInt32.ofNat number, ?_, UInt32.toNat_ofNat_of_lt' small⟩
    have start : ['_', '_'].isPrefixOf? suffix.toList = some body :=
      List.isPrefixOf?_eq_some_iff_append_eq.2 whole.symm
    have read : Text.numeral? UInt32.size (ordinalDigits body) = some number :=
      Text.numeral?_eq_some_iff.2 ⟨small, numeral⟩
    rw [start, Option.bind_some, read, Option.map_some]

example : lambdaOrdinal? "__4294967295" = some 4294967295 ∧ lambdaOrdinal? "__4294967296" = none := by decide

theorem localFunctionName?_eq_some_iff {suffix called : String} :
    localFunctionName? suffix = some called ↔ SpellsFunction suffix called := by
  unfold localFunctionName?
  simp only [Option.bind_eq_bind, Option.bind_eq_some_iff]
  constructor
  · rintro ⟨body, start, ⟨front, rest⟩, cut, named⟩
    obtain ⟨whole, clean⟩ := Text.around?_eq_some_iff.1 cut
    split at named
    · cases named
    · next filled =>
      cases named
      refine ⟨?_, by simpa using clean, rest, ?_⟩
      · exact fun empty => filled (by simpa using empty)
      · rw [← List.isPrefixOf?_eq_some_iff_append_eq.1 start, whole]
        simp
  · rintro ⟨filled, clean, rest, whole⟩
    have start : ['_', '_'].isPrefixOf? suffix.toList = some (called.toList ++ '|' :: rest) :=
      List.isPrefixOf?_eq_some_iff_append_eq.2 whole.symm
    refine ⟨_, start, (called.toList, rest), Text.around?_eq_some_iff.2 ⟨rfl, clean⟩, ?_⟩
    rw [if_neg (by simpa using filled), String.ofList_toList]

end Backtrace
