import Backtrace.Proofs.Markup.ShownLines
import Mathlib.Data.List.Infix

/-!
Tags in one another. The regions of the return type and of the name are kept apart from each other but not from the
file region, so that the tags of a line that is emitted may cross. They do not exactly where whatever stands in a file
region is there as a whole.
-/
namespace Backtrace

namespace Marker

/-- Markers of which each closing one closes the region that was opened last of those still open. The open regions are
listed, the latest first; none is open behind the last marker. -/
inductive Nests : List Region → List Marker → Prop
  | done : Nests [] []
  | opens {around : List Region} {markers : List Marker} (region : Region) (rest : Nests (region :: around) markers) :
      Nests around (region.opening :: markers)
  | closes {around : List Region} {markers : List Marker} (region : Region) (rest : Nests around markers) :
      Nests (region :: around) (region.closing :: markers)

/-- No region is in a file region but as a whole. -/
def FilesHoldWhole (markers : List Marker) : Prop :=
  ∀ inside, .fileStart :: inside ++ [.fileEnd] <:+: markers → .fileEnd ∉ inside → Pairs (· ≠ .file) inside

theorem nests_opening_iff {around : List Region} {region : Region} {markers : List Marker} :
    Nests around (region.opening :: markers) ↔ Nests (region :: around) markers := by
  constructor
  · intro nests
    generalize same : region.opening :: markers = whole at nests
    cases nests with
    | done => cases same
    | opens other rest =>
      obtain ⟨first, rfl⟩ := List.cons.inj same
      cases region <;> cases other <;> first | exact rest | cases first
    | closes other rest =>
      obtain ⟨first, -⟩ := List.cons.inj same
      cases region <;> cases other <;> cases first
  · exact .opens region

theorem nests_closing_iff {around : List Region} {region : Region} {markers : List Marker} :
    Nests around (region.closing :: markers) ↔ ∃ outer, around = region :: outer ∧ Nests outer markers := by
  constructor
  · intro nests
    generalize same : region.closing :: markers = whole at nests
    cases nests with
    | done => cases same
    | opens other rest =>
      obtain ⟨first, -⟩ := List.cons.inj same
      cases region <;> cases other <;> cases first
    | closes other rest =>
      obtain ⟨first, rfl⟩ := List.cons.inj same
      cases region <;> cases other <;> first | exact ⟨_, rfl, rest⟩ | cases first
  · rintro ⟨outer, rfl, rest⟩
    exact .closes region rest

theorem opening_or_closing (marker : Marker) :
    ∃ region : Region, marker = region.opening ∨ marker = region.closing := by
  cases marker
  case returnStart => exact ⟨.returnType, .inl rfl⟩
  case returnEnd => exact ⟨.returnType, .inr rfl⟩
  case nameStart => exact ⟨.name, .inl rfl⟩
  case nameEnd => exact ⟨.name, .inr rfl⟩
  case fileStart => exact ⟨.file, .inl rfl⟩
  case fileEnd => exact ⟨.file, .inr rfl⟩

theorem nests_of_pairs {kinds : Region → Prop} {markers : List Marker} (pairs : Pairs kinds markers) :
    Nests [] markers := by
  induction pairs with
  | nil => exact .done
  | pair kind _ ih => exact .opens _ (.closes _ ih)

theorem nests_nil_iff {around : List Region} : Nests around [] ↔ around = [] := by
  constructor
  · intro nests
    generalize same : [] = markers at nests
    cases nests with
    | done => rfl
    | opens => cases same
    | closes => cases same
  · rintro rfl
    exact .done

theorem file_ne_of_plain {region : Region} {marker : Marker}
    (either : marker = region.opening ∨ marker = region.closing) (plain : isFile marker = false) : region ≠ .file := by
  rintro rfl
  rcases either with rfl | rfl <;> cases plain

/-- What stands in a file region is nested in itself, and what stands behind it goes on with what was open before. -/
theorem nests_file_iff {inside behind : List Marker} {around opened : List Region}
    (plain : ∀ marker ∈ inside, isFile marker = false) (sides : .file ∉ opened) :
    Nests (opened ++ .file :: around) (inside ++ .fileEnd :: behind) ↔
      Nests opened inside ∧ Nests around behind := by
  induction inside generalizing opened with
  | nil =>
    have ends : Nests (opened ++ .file :: around) (.fileEnd :: behind) ↔
        ∃ outer, opened ++ .file :: around = .file :: outer ∧ Nests outer behind := @nests_closing_iff _ .file _
    rw [List.nil_append, ends, nests_nil_iff]
    cases opened with
    | nil => simp
    | cons region opened =>
      have different : region ≠ .file := fun same => sides (same ▸ List.mem_cons_self)
      simp [different]
  | cons marker inside ih =>
    obtain ⟨first, others⟩ := List.forall_mem_cons.1 plain
    obtain ⟨region, either⟩ := opening_or_closing marker
    have different := file_ne_of_plain either first
    rcases either with rfl | rfl
    · have still : .file ∉ region :: opened := by simp [different.symm, sides]
      rw [List.cons_append, nests_opening_iff, nests_opening_iff]
      exact ih others still
    · rw [List.cons_append, nests_closing_iff, nests_closing_iff]
      cases opened with
      | nil => simp [different.symm]
      | cons other opened =>
        have still : .file ∉ opened := fun member => sides (List.mem_cons_of_mem _ member)
        simp only [List.cons_append, List.cons.injEq, and_assoc, exists_and_left, exists_eq_left']
        rw [ih others still]

/-! What stands in a file region, where the other regions are side by side. -/

def PairsBehind : Option Region → List Marker → Prop
  | none, markers => Pairs (· ≠ .file) markers
  | some region, markers => ∃ rest, markers = region.closing :: rest ∧ Pairs (· ≠ .file) rest

theorem pairs_of_nests {kinds : Region → Prop} {inside behind : List Marker} (pairs : Pairs kinds (inside ++ behind))
    (nests : Nests [] inside) : Pairs kinds inside := by
  generalize same : inside ++ behind = markers at pairs
  induction pairs generalizing inside with
  | nil =>
    rw [(List.append_eq_nil_iff.1 same).1]
    exact .nil
  | @pair region markers kind _ ih =>
    match inside, nests, same with
    | [], _, _ => exact .nil
    | [marker], nests, same =>
      obtain rfl : marker = region.opening := (List.cons.inj same).1
      cases nests_nil_iff.1 (nests_opening_iff.1 nests)
    | opening :: closing :: inside, nests, same =>
      obtain ⟨rfl, tail⟩ := List.cons.inj same
      obtain ⟨rfl, rest⟩ := List.cons.inj tail
      obtain ⟨outer, only, within⟩ := nests_closing_iff.1 (nests_opening_iff.1 nests)
      obtain rfl := (List.cons.inj only).2
      exact .pair kind (ih within rest)

theorem pairs_of_append {kinds : Region → Prop} {inside behind : List Marker} (pairs : Pairs kinds inside)
    (whole : Pairs kinds (inside ++ behind)) : Pairs kinds behind := by
  induction pairs with
  | nil => exact whole
  | @pair region markers _ _ ih =>
    obtain ⟨other, -, -, rest, same, pairs⟩ := pairs_cons_iff.1 whole
    obtain rfl := (List.cons.inj same).2
    exact ih pairs

variable {open_ : Option Region} {inside behind : List Marker}

theorem eq_nil_of_nests {region : Region} (order : PairsBehind (some region) (inside ++ behind))
    (nests : Nests [] inside) : inside = [] := by
  obtain ⟨rest, whole, -⟩ := order
  cases inside with
  | nil => rfl
  | cons marker inside =>
    obtain ⟨rfl, -⟩ := List.cons.inj whole
    obtain ⟨outer, absurd_, -⟩ := nests_closing_iff.1 nests
    cases absurd_

/-- Among regions side by side, those are nested that are there as a whole. -/
theorem nests_inside_iff (order : PairsBehind open_ (inside ++ behind)) :
    Nests [] inside ↔ Pairs (· ≠ .file) inside := by
  refine ⟨fun nests => ?_, nests_of_pairs⟩
  cases open_ with
  | none => exact pairs_of_nests order nests
  | some region =>
    rw [eq_nil_of_nests order nests]
    exact .nil

theorem pairsBehind_of_pairs (order : PairsBehind open_ (inside ++ behind)) (pairs : Pairs (· ≠ .file) inside) :
    PairsBehind open_ behind := by
  cases open_ with
  | none => exact pairs_of_append pairs order
  | some region =>
    rw [eq_nil_of_nests order (nests_of_pairs pairs)] at order
    exact order

/-! File regions, one after the other. -/

theorem filesHoldWhole_nil : FilesHoldWhole [] := by
  intro inside part
  cases List.eq_nil_of_infix_nil part

theorem filesHoldWhole_cons_iff {marker : Marker} {markers : List Marker} (other : marker ≠ .fileStart) :
    FilesHoldWhole (marker :: markers) ↔ FilesHoldWhole markers := by
  constructor
  · intro hold inside part
    exact hold inside (List.infix_cons part)
  · intro hold inside part
    rcases List.infix_cons_iff.1 part with front | later
    · exact absurd (List.cons_prefix_cons.1 front).1.symm other
    · exact hold inside later

theorem filesHoldWhole_append_iff {front markers : List Marker} (others : ∀ marker ∈ front, marker ≠ .fileStart) :
    FilesHoldWhole (front ++ markers) ↔ FilesHoldWhole markers := by
  induction front with
  | nil => rfl
  | cons marker front ih =>
    obtain ⟨first, rest⟩ := List.forall_mem_cons.1 others
    rw [List.cons_append, filesHoldWhole_cons_iff first, ih rest]

theorem ne_of_plain {marker bound : Marker} (plain : isFile marker = false) (file : isFile bound = true) :
    marker ≠ bound := by
  rintro rfl
  rw [file] at plain
  cases plain

theorem inside_unique {first second behind rest : List Marker} (absent : .fileEnd ∉ first)
    (alsoAbsent : .fileEnd ∉ second) (same : first ++ .fileEnd :: behind = second ++ .fileEnd :: rest) :
    first = second := by
  rcases List.append_eq_append_iff.1 same with ⟨more, rfl, tail⟩ | ⟨more, rfl, tail⟩
  · cases more with
    | nil => rw [List.append_nil]
    | cons marker more =>
      obtain ⟨rfl, -⟩ := List.cons.inj tail
      exact absurd (by simp) alsoAbsent
  · cases more with
    | nil => rw [List.append_nil]
    | cons marker more =>
      obtain ⟨rfl, -⟩ := List.cons.inj tail
      exact absurd (by simp) absent

theorem filesHoldWhole_file_iff (plain : ∀ marker ∈ inside, isFile marker = false) :
    FilesHoldWhole (.fileStart :: (inside ++ .fileEnd :: behind)) ↔
      Pairs (· ≠ .file) inside ∧ FilesHoldWhole behind := by
  have absent : .fileEnd ∉ inside := fun member => ne_of_plain (plain _ member) rfl rfl
  have others : ∀ marker ∈ inside ++ [.fileEnd], marker ≠ .fileStart := by
    rw [List.forall_mem_append, List.forall_mem_singleton]
    exact ⟨fun marker member => ne_of_plain (plain marker member) rfl, by decide⟩
  have later : FilesHoldWhole (inside ++ .fileEnd :: behind) ↔ FilesHoldWhole behind := by
    rw [List.append_cons inside .fileEnd behind, filesHoldWhole_append_iff others]
  rw [← later]
  constructor
  · intro hold
    refine ⟨hold inside (List.IsPrefix.isInfix ⟨behind, by simp⟩) absent, fun other part => ?_⟩
    exact hold other (List.infix_cons part)
  · rintro ⟨pairs, hold⟩ other part alsoAbsent
    rcases List.infix_cons_iff.1 part with front | behind_
    · obtain ⟨rest, whole⟩ := (List.cons_prefix_cons.1 front).2
      have upTo : other ++ .fileEnd :: rest = inside ++ .fileEnd :: behind := by
        rw [List.append_cons, ← whole]
        rfl
      rwa [inside_unique alsoAbsent absent upTo]
    · exact hold other behind_ alsoAbsent

theorem exists_inside {markers : List Marker} (closed : Pairs (· = .file) (files (.fileStart :: markers))) :
    ∃ inside behind, markers = inside ++ .fileEnd :: behind ∧ (∀ marker ∈ inside, isFile marker = false) ∧
      Pairs (· = .file) (files behind) := by
  change Pairs _ (.fileStart :: files markers) at closed
  obtain ⟨region, rfl, -, rest, found, pairs⟩ := pairs_cons_iff.1 closed
  obtain ⟨inside, behind, rfl, plain, -, rfl⟩ := List.filter_eq_cons_iff.1 found
  exact ⟨inside, behind, rfl, fun marker member => Bool.eq_false_iff.2 (plain marker member), pairs⟩

theorem sides_inside (plain : ∀ marker ∈ inside, isFile marker = false) :
    sides (inside ++ .fileEnd :: behind) = inside ++ sides behind := by
  have kept : sides inside = inside := List.filter_eq_self.2 fun marker member => by simp [plain marker member]
  rw [sides, List.filter_append]
  exact congrArg₂ (· ++ ·) kept rfl

theorem exists_behind {marker : Marker} {rest : List Marker} (order : PairsBehind open_ (marker :: rest)) :
    ∃ next, PairsBehind next rest ∧ ∀ markers, Nests open_.toList (marker :: markers) ↔ Nests next.toList markers := by
  cases open_ with
  | none =>
    obtain ⟨region, -, rfl, closing⟩ := pairs_cons_iff.1 order
    exact ⟨some region, closing, fun markers => nests_opening_iff⟩
  | some region =>
    obtain ⟨behind, same, pairs⟩ := order
    obtain ⟨rfl, rfl⟩ := List.cons.inj same
    refine ⟨none, pairs, fun markers => nests_closing_iff.trans ?_⟩
    simp

/-- Where regions are side by side, and file regions one after the other, those are nested of which each file region
holds the others as a whole. -/
theorem nests_iff {markers : List Marker} (order : PairsBehind open_ (sides markers))
    (closed : Pairs (· = .file) (files markers)) : Nests open_.toList markers ↔ FilesHoldWhole markers := by
  -- over the length, since a file region is left behind as a whole
  induction length : markers.length using Nat.strong_induction_on generalizing markers open_ with
  | h count ih =>
    subst length
    cases markers with
    | nil =>
      have shut : open_.toList = [] := by
        cases open_ with
        | none => rfl
        | some region =>
          obtain ⟨rest, absurd_, -⟩ := order
          cases absurd_
      simp [nests_nil_iff, shut, filesHoldWhole_nil]
    | cons marker markers =>
      by_cases file : isFile marker = true
      · obtain ⟨region, rfl, rfl, -⟩ := pairs_cons_iff.1 (by simpa [files_cons, file] using closed)
        obtain ⟨inside, behind, rfl, plain, pairs⟩ := exists_inside closed
        replace order : PairsBehind open_ (inside ++ sides behind) := by
          rwa [sides_cons, if_pos file, sides_inside plain] at order
        have shorter : behind.length < (Region.file.opening :: (inside ++ .fileEnd :: behind)).length := by
          simp only [List.length_cons, List.length_append]
          omega
        have parted := @nests_file_iff inside behind open_.toList [] plain List.not_mem_nil
        refine nests_opening_iff.trans (parted.trans (Iff.trans ?_ (filesHoldWhole_file_iff plain).symm))
        rw [nests_inside_iff order]
        exact and_congr_right fun whole => ih _ shorter (pairsBehind_of_pairs order whole) pairs rfl
      · rw [sides_cons, if_neg file] at order
        rw [files_cons, if_neg file] at closed
        obtain ⟨next, order, step⟩ := exists_behind order
        have other : marker ≠ .fileStart := ne_of_plain (Bool.eq_false_iff.2 file) rfl
        rw [step, ih _ (Nat.lt_succ_self _) order closed rfl, filesHoldWhole_cons_iff other]

theorem nests_iff_of_balanced {markers : List Marker} (balanced : Balanced markers) :
    Nests [] markers ↔ FilesHoldWhole markers := @nests_iff none markers balanced.sides balanced.files

end Marker

open Marker

namespace Processor

variable (processor : Processor)

/-- In lines that are taken, those that are shown have their markers in order. -/
theorem inOrder_of_lines {lines : List TextLine} {number : Nat} {out : List Char}
    (taken : processor.lines number lines = .ok out) :
    ∀ line ∈ processor.shown lines, InOrder (ofText (withNameStart line.body)) := by
  induction lines generalizing number out with
  | nil => exact List.forall_mem_nil _
  | cons line lines ih =>
    obtain ⟨body, ending⟩ := line
    rw [shown_cons]
    by_cases stops : processor.stopsAt body = true
    · rw [if_pos stops]
      exact List.forall_mem_nil _
    · rw [if_neg stops]
      by_cases filled : body = []
      · subst filled
        exact ih taken
      · rw [if_neg filled, List.forall_mem_cons]
        rw [processor.lines_cons filled (Bool.not_eq_true _ ▸ stops)] at taken
        by_cases order : InOrder (ofText (withNameStart body))
        · rw [processor.line_of_inOrder order] at taken
          cases later : processor.lines (number + 1) lines with
          | error failure =>
            rw [later] at taken
            cases taken
          | ok more => exact ⟨order, ih later⟩
        · obtain ⟨fault, refused⟩ := processor.line_of_not_inOrder order
          rw [refused] at taken
          cases taken

end Processor

/-- A text that is accepted. Its final form is that of the lines shown, in each of which tags stand for the markers of
one text, file region closed. These are nested exactly where no other region is in a file region but as a whole. -/
theorem tags_nested_iff (options : Options) {text final : String}
    (processed : (Processor.ofOptions options).process? text = .ok final) :
    let processor := Processor.ofOptions options
    let shown := processor.shown (TextLine.all text.toList)
    final = String.ofList (shown.flatMap processor.finalLine) ∧
      ∀ line ∈ shown,
        let marked := (closeFile (withNameStart line.body)).map processor.pathStyle.normalize
        processor.finalLine line = processor.continuation.toList ++ marked.flatMap processor.tags.put ++ line.ending ∧
          (Nests [] (ofText marked) ↔ FilesHoldWhole (ofText marked)) := by
  intro processor shown
  cases taken : processor.lines 0 (TextLine.all text.toList) with
  | error failure =>
    rw [Processor.process?, taken] at processed
    cases processed
  | ok out =>
    have order := processor.inOrder_of_lines taken
    rw [Processor.process?, options.lines_eq_of_inOrder 0 order] at processed
    refine ⟨(Except.ok.inj processed).symm, fun line member => ⟨rfl, ?_⟩⟩
    rw [ofText_normalize]
    exact nests_iff_of_balanced (balanced_closeFile (order line member))

/-- A file region in the return type, and behind it a name. -/
theorem tags_nested_in_return :
    (Processor.ofOptions {}).process? "\ue000int \ue004(at a.cs)\ue005\ue001 \ue002Run\ue003()" =
        .ok "│ <i>int <size=8>(at a.cs)</size></i> <b><i>Run</i></b>()" ∧
      Nests [] (ofText "\ue000int \ue004(at a.cs)\ue005\ue001 \ue002Run\ue003()".toList) := by
  have processed : (Processor.ofOptions {}).process? "\ue000int \ue004(at a.cs)\ue005\ue001 \ue002Run\ue003()" =
      .ok "│ <i>int <size=8>(at a.cs)</size></i> <b><i>Run</i></b>()" := by rfl
  have shown : (Processor.ofOptions {}).shown
      (TextLine.all "\ue000int \ue004(at a.cs)\ue005\ue001 \ue002Run\ue003()".toList) =
      [⟨"\ue000int \ue004(at a.cs)\ue005\ue001 \ue002Run\ue003()".toList, []⟩] := by rfl
  have markers : ofText "\ue000int \ue004(at a.cs)\ue005\ue001 \ue002Run\ue003()".toList =
      [.returnStart, .fileStart, .fileEnd, .returnEnd, .nameStart, .nameEnd] := by rfl
  have hold : FilesHoldWhole [.returnStart, .fileStart, .fileEnd, .returnEnd, .nameStart, .nameEnd] := by
    rw [filesHoldWhole_cons_iff (by decide)]
    refine (@filesHoldWhole_file_iff [] _ (List.forall_mem_nil _)).2 ⟨.nil, ?_⟩
    exact (@filesHoldWhole_append_iff [.returnEnd, .nameStart, .nameEnd] [] (by decide)).2 filesHoldWhole_nil
  obtain ⟨-, lines⟩ := tags_nested_iff {} processed
  obtain ⟨-, nested⟩ := lines _ (shown ▸ List.mem_singleton_self _)
  rw [ofText_normalize] at nested
  exact ⟨processed, nested.2 (markers.symm ▸ hold)⟩

/-- A return type that is opened in a file region and closed behind it. -/
theorem tags_cross_behind_file :
    (Processor.ofOptions {}).process? "\ue004(at \ue000int\ue005)\ue001 Run" =
        .ok "│ <size=8>(at <i>int</size>)</i> Run" ∧
      ¬Nests [] (ofText "\ue004(at \ue000int\ue005)\ue001 Run".toList) := by
  have markers : ofText "\ue004(at \ue000int\ue005)\ue001 Run".toList =
      [Region.file.opening, Region.returnType.opening, Region.file.closing, Region.returnType.closing] := by rfl
  refine ⟨by rfl, fun nests => ?_⟩
  rw [markers, nests_opening_iff, nests_opening_iff, nests_closing_iff] at nests
  obtain ⟨outer, other, -⟩ := nests
  cases other

end Backtrace
