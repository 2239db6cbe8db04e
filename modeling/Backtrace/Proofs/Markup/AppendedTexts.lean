import Backtrace.Proofs.Markup.ShownLines

/-!
The final form of a text in two parts, the first of which ends with a line. The lines in front of the
first one that is refused or at the boundary pass; what stands behind that one does not matter. Where
every line of the first part passes, the final forms of the parts are put together, and a line that is
refused in the second one is counted on from the first.
-/
namespace Backtrace

namespace TextLine

def Ended (text : List Char) : Prop := text = [] ∨ text.getLast? = some '\n'

theorem cons_append (c : Char) {lines : List (List Char)} (filled : lines ≠ []) (more : List (List Char)) :
    cons c (lines ++ more) = cons c lines ++ more := by
  obtain ⟨line, lines, rfl⟩ := List.exists_cons_of_ne_nil filled
  rw [List.cons_append, cons, cons]
  split <;> rfl

theorem cons_ne_nil (c : Char) (lines : List (List Char)) : cons c lines ≠ [] := by
  cases lines with
  | nil => exact List.cons_ne_nil _ _
  | cons line lines =>
    rw [cons]
    split <;> exact List.cons_ne_nil _ _

theorem split_ne_nil {text : List Char} (filled : text ≠ []) : split text ≠ [] := by
  obtain ⟨c, cs, rfl⟩ := List.exists_cons_of_ne_nil filled
  exact cons_ne_nil c (split cs)

theorem split_feed_append (front rest : List Char) :
    split (front ++ '\n' :: rest) = split (front ++ ['\n']) ++ split rest := by
  induction front with
  | nil => exact cons_feed (split rest)
  | cons c front ih =>
    have filled : split (front ++ ['\n']) ≠ [] := split_ne_nil (by simp)
    calc
      split (c :: front ++ '\n' :: rest) = cons c (split (front ++ '\n' :: rest)) := rfl
      _ = cons c (split (front ++ ['\n']) ++ split rest) := by rw [ih]
      _ = split (c :: front ++ ['\n']) ++ split rest := cons_append c filled (split rest)

theorem all_append {text : List Char} (ended : Ended text) (rest : List Char) :
    all (text ++ rest) = all text ++ all rest := by
  rcases ended with rfl | feed
  · rfl
  · obtain ⟨front, rfl⟩ := List.getLast?_eq_some_iff.1 feed
    rw [all, all, all, ← List.map_append, ← split_feed_append, List.append_assoc]
    rfl

def counted (lines : List TextLine) : Nat := lines.countP (·.body ≠ [])

theorem counted_cons_of_filled {line : TextLine} (filled : line.body ≠ []) (lines : List TextLine) :
    counted (line :: lines) = counted lines + 1 := List.countP_cons_of_pos (by simpa using filled)

theorem counted_cons_of_blank {line : TextLine} (blank : line.body = []) (lines : List TextLine) :
    counted (line :: lines) = counted lines := List.countP_cons_of_neg (by simp [blank])

end TextLine

namespace Processor

variable {processor : Processor}

/-- A line that neither ends the text nor is refused. -/
def Passes (processor : Processor) (line : TextLine) : Prop :=
  line.body = [] ∨ processor.stopsAt line.body = false ∧ ∃ out, processor.line line.body = .ok out

/-- A line at the boundary, behind lines that pass. -/
def ReachesBoundary (processor : Processor) (lines : List TextLine) : Prop :=
  ∃ before line behind, lines = before ++ line :: behind ∧ (∀ earlier ∈ before, processor.Passes earlier) ∧
    line.body ≠ [] ∧ processor.stopsAt line.body = true

theorem lines_blank {line : TextLine} (blank : line.body = []) (number : Nat) (lines : List TextLine) :
    processor.lines number (line :: lines) = processor.lines number lines := by
  obtain ⟨body, ending⟩ := line
  obtain rfl : body = [] := blank
  rfl

theorem lines_stop {line : TextLine} (filled : line.body ≠ []) (stops : processor.stopsAt line.body = true)
    (number : Nat) (behind : List TextLine) : processor.lines number (line :: behind) = .ok [] := by
  obtain ⟨body, ending⟩ := line
  obtain ⟨c, body, rfl⟩ := List.exists_cons_of_ne_nil filled
  exact if_pos stops

theorem lines_append_of_passes {before : List TextLine} (pass : ∀ line ∈ before, processor.Passes line) :
    ∃ out, ∀ number rest, processor.lines number (before ++ rest) =
      (out ++ ·) <$> processor.lines (number + TextLine.counted before) rest := by
  induction before with
  | nil => exact ⟨[], fun number rest => (id_map (processor.lines number rest)).symm⟩
  | cons line before ih =>
    obtain ⟨first, others⟩ := List.forall_mem_cons.1 pass
    obtain ⟨out, shown⟩ := ih others
    by_cases blank : line.body = []
    · refine ⟨out, fun number rest => ?_⟩
      rw [List.cons_append, lines_blank blank, shown, TextLine.counted_cons_of_blank blank]
    · obtain ⟨inside, final, made⟩ := first.resolve_left blank
      refine ⟨final ++ line.ending ++ out, fun number rest => ?_⟩
      rw [List.cons_append, processor.lines_cons blank inside, made, TextLine.counted_cons_of_filled blank, shown,
        Nat.add_assoc, Nat.add_comm 1]
      cases processor.lines (number + (TextLine.counted before + 1)) rest with
      | error failure => rfl
      | ok more => exact congrArg Except.ok (List.append_assoc _ out more).symm

/-- Either all lines pass, or there is a first one that does not. -/
theorem passes_or_first (processor : Processor) (lines : List TextLine) :
    (∀ line ∈ lines, processor.Passes line) ∨ ∃ before line behind, lines = before ++ line :: behind ∧
      (∀ earlier ∈ before, processor.Passes earlier) ∧ ¬processor.Passes line := by
  induction lines with
  | nil => exact .inl (by simp)
  | cons line lines ih =>
    by_cases first : processor.Passes line
    · rcases ih with all | ⟨before, other, behind, rfl, pass, refused⟩
      · exact .inl (List.forall_mem_cons.2 ⟨first, all⟩)
      · exact .inr ⟨line :: before, other, behind, rfl, List.forall_mem_cons.2 ⟨first, pass⟩, refused⟩
    · exact .inr ⟨[], line, lines, rfl, by simp, first⟩

theorem lines_of_not_passes {line : TextLine} (refused : ¬processor.Passes line) :
    (line.body ≠ [] ∧ processor.stopsAt line.body = true) ∨
      ∃ fault, ∀ number behind, processor.lines number (line :: behind) = .error (.region (number + 1) fault) := by
  obtain ⟨filled, bad⟩ := not_or.1 refused
  by_cases stops : processor.stopsAt line.body = true
  · exact .inl ⟨filled, stops⟩
  · have inside := Bool.not_eq_true _ ▸ stops
    cases made : processor.line line.body with
    | ok out => exact absurd ⟨inside, out, made⟩ bad
    | error fault =>
      refine .inr ⟨fault, fun number behind => ?_⟩
      rw [processor.lines_cons filled inside, made]

theorem lines_of_reachesBoundary {lines : List TextLine} (reached : processor.ReachesBoundary lines) :
    ∃ out, ∀ number rest, processor.lines number (lines ++ rest) = .ok out := by
  obtain ⟨before, line, behind, rfl, pass, filled, stops⟩ := reached
  obtain ⟨out, shown⟩ := lines_append_of_passes pass
  refine ⟨out ++ [], fun number rest => ?_⟩
  rw [List.append_assoc, List.cons_append, shown, lines_stop filled stops]
  rfl

/-- All lines pass, or a boundary is reached, or a line is refused: then what stands behind it does not
matter either. -/
theorem lines_cases (processor : Processor) (lines : List TextLine) :
    (∀ line ∈ lines, processor.Passes line) ∨ processor.ReachesBoundary lines ∨
      ∃ line fault, ∀ number rest, processor.lines number (lines ++ rest) = .error (.region (number + line) fault) := by
  rcases processor.passes_or_first lines with pass | ⟨before, line, behind, rfl, pass, refused⟩
  · exact .inl pass
  · rcases lines_of_not_passes refused with ⟨filled, stops⟩ | ⟨fault, failed⟩
    · exact .inr (.inl ⟨before, line, behind, rfl, pass, filled, stops⟩)
    · obtain ⟨out, shown⟩ := lines_append_of_passes pass
      refine .inr (.inr ⟨TextLine.counted before + 1, fault, fun number rest => ?_⟩)
      rw [List.append_assoc, List.cons_append, shown, failed]
      rfl

/-- How many lines were counted before changes only the number that a failure tells. -/
theorem lines_outcome (processor : Processor) (lines : List TextLine) :
    (∃ out, ∀ number, processor.lines number lines = .ok out) ∨
      ∃ line fault, ∀ number, processor.lines number lines = .error (.region (number + line) fault) := by
  rcases processor.lines_cases lines with pass | reached | ⟨line, fault, failed⟩
  · obtain ⟨out, shown⟩ := lines_append_of_passes pass
    exact .inl ⟨out ++ [], fun number => by rw [← List.append_nil lines, shown]; rfl⟩
  · obtain ⟨out, shown⟩ := lines_of_reachesBoundary reached
    exact .inl ⟨out, fun number => by rw [← List.append_nil lines, shown]⟩
  · exact .inr ⟨line, fault, fun number => by rw [← failed number [], List.append_nil]⟩

theorem lines_append_of_error {lines : List TextLine} {number : Nat} {failure : Failure}
    (failed : processor.lines number lines = .error failure) (rest : List TextLine) :
    processor.lines number (lines ++ rest) = .error failure := by
  rw [← List.append_nil lines] at failed
  rcases processor.lines_cases lines with pass | reached | ⟨line, fault, refused⟩
  · obtain ⟨out, shown⟩ := lines_append_of_passes pass
    rw [shown] at failed
    cases failed
  · obtain ⟨out, shown⟩ := lines_of_reachesBoundary reached
    rw [shown] at failed
    cases failed
  · rw [refused] at failed ⊢
    exact failed

theorem passes_of_ok {lines : List TextLine} {number : Nat} {out : List Char}
    (made : processor.lines number lines = .ok out) (inside : ¬processor.ReachesBoundary lines) :
    ∀ line ∈ lines, processor.Passes line := by
  rcases processor.lines_cases lines with pass | reached | ⟨line, fault, refused⟩
  · exact pass
  · exact absurd reached inside
  · rw [← List.append_nil lines, refused] at made
    cases made

/-- What is shown of lines that pass stands in front of what is shown of those behind them. -/
theorem lines_append_of_ok {lines : List TextLine} {number : Nat} {out : List Char}
    (made : processor.lines number lines = .ok out) (inside : ¬processor.ReachesBoundary lines)
    (rest : List TextLine) : processor.lines number (lines ++ rest) =
      (out ++ ·) <$> processor.lines (number + TextLine.counted lines) rest := by
  obtain ⟨front, shown⟩ := lines_append_of_passes (passes_of_ok made inside)
  have same : Except.ok out = Except.ok (ε := Failure) (front ++ []) := by
    rw [← made, ← List.append_nil lines, shown]
    rfl
  rw [shown, Except.ok.inj same, List.append_nil]

theorem process_eq_lines (processor : Processor) (text : String) :
    processor.process? text = String.ofList <$> processor.lines 0 (TextLine.all text.toList) := rfl

theorem process_append_eq (processor : Processor) {first : String} (ended : TextLine.Ended first.toList)
    (second : String) : processor.process? (first ++ second) =
      String.ofList <$> processor.lines 0 (TextLine.all first.toList ++ TextLine.all second.toList) := by
  rw [process_eq_lines, String.toList_append, TextLine.all_append ended]

end Processor

/-- The final form of a text whose first part ends with a line. A failure of the first part is that of
the whole. So is its final form, if it reaches a boundary, whatever the second part holds. Otherwise the
final forms of the parts are put together, and a failure of the second part is told behind the lines of
the first that are not empty. -/
theorem process_append (processor : Processor) (first second : String) (ended : TextLine.Ended first.toList) :
    (∀ failure, processor.process? first = .error failure →
      processor.process? (first ++ second) = .error failure) ∧
    (processor.ReachesBoundary (TextLine.all first.toList) →
      ∃ out, processor.process? first = .ok out ∧ processor.process? (first ++ second) = .ok out) ∧
    (∀ out, processor.process? first = .ok out → ¬processor.ReachesBoundary (TextLine.all first.toList) →
      (∀ more, processor.process? second = .ok more → processor.process? (first ++ second) = .ok (out ++ more)) ∧
      (∀ failure, processor.process? second = .error failure → ∃ line fault, failure = .region line fault ∧
        processor.process? (first ++ second) =
          .error (.region (line + TextLine.counted (TextLine.all first.toList)) fault))) := by
  rw [processor.process_append_eq ended, processor.process_eq_lines first, processor.process_eq_lines second]
  refine ⟨fun failure failed => ?_, fun reached => ?_, fun out made inside => ?_⟩
  · cases refused : processor.lines 0 (TextLine.all first.toList) with
    | ok out => rw [refused] at failed; cases failed
    | error other =>
      rw [refused] at failed
      rw [Processor.lines_append_of_error refused]
      exact failed
  · obtain ⟨out, shown⟩ := Processor.lines_of_reachesBoundary reached
    refine ⟨String.ofList out, ?_, by rw [shown]; rfl⟩
    rw [← List.append_nil (TextLine.all first.toList), shown]
    rfl
  · cases shown : processor.lines 0 (TextLine.all first.toList) with
    | error failure => rw [shown] at made; cases made
    | ok front =>
      rw [shown] at made
      cases made
      rw [Processor.lines_append_of_ok shown inside]
      rcases processor.lines_outcome (TextLine.all second.toList) with ⟨back, same⟩ | ⟨line, fault, same⟩
      · rw [same, same]
        refine ⟨fun more told => ?_, fun failure told => (by cases told)⟩
        cases told
        exact congrArg Except.ok String.ofList_append
      · rw [same, same]
        refine ⟨fun more told => (by cases told), fun failure told => ?_⟩
        cases told
        exact ⟨0 + line, fault, rfl, by rw [Nat.add_right_comm]; rfl⟩

/-- Empty lines are not counted, and nothing is refused behind a boundary. -/
theorem process_append_open_region :
    let processor := Processor.ofOptions { boundary := some "Host" }
    let refused := "c\n\ue000int"
    TextLine.Ended "a\n\r\nb\r\n".toList ∧ TextLine.Ended "a\nat Host.Run()\n".toList ∧
      processor.process? ("a\n\r\nb\r\n" ++ refused) = .error (.region 4 .returnOpen) ∧
      processor.process? ("a\nat Host.Run()\n" ++ refused) = .ok "│ a\n" := by
  -- closed terms, which the kernel evaluates
  have shown : (Processor.ofOptions { boundary := some "Host" }).process? "a\n\r\nb\r\n" = .ok "│ a\n│ b\r\n" := by
    rfl
  have failed : (Processor.ofOptions { boundary := some "Host" }).process? "c\n\ue000int" =
      .error (.region 2 .returnOpen) := by rfl
  have stops : (Processor.ofOptions { boundary := some "Host" }).process? "a\nat Host.Run()\n" = .ok "│ a\n" := by rfl
  intro processor refused
  have ended : TextLine.Ended "a\n\r\nb\r\n".toList := .inr rfl
  have alsoEnded : TextLine.Ended "a\nat Host.Run()\n".toList := .inr rfl
  obtain ⟨-, -, onward⟩ := process_append processor "a\n\r\nb\r\n" refused ended
  obtain ⟨-, stopped, -⟩ := process_append processor "a\nat Host.Run()\n" refused alsoEnded
  refine ⟨ended, alsoEnded, ?_, ?_⟩
  · have inside : ¬processor.ReachesBoundary (TextLine.all "a\n\r\nb\r\n".toList) := by
      rintro ⟨before, line, behind, same, -, -, stops⟩
      have none_ : ∀ line ∈ TextLine.all "a\n\r\nb\r\n".toList, processor.stopsAt line.body = false := by decide
      rw [none_ line (same ▸ List.mem_append_right _ List.mem_cons_self)] at stops
      cases stops
    obtain ⟨line, fault, same, told⟩ := (onward _ shown inside).2 _ failed
    cases same
    exact told
  · have reached : processor.ReachesBoundary (TextLine.all "a\nat Host.Run()\n".toList) :=
      ⟨[⟨['a'], ['\n']⟩], ⟨"at Host.Run()".toList, ['\n']⟩, [], rfl,
        List.forall_mem_singleton.2 (.inr ⟨rfl, _, rfl⟩), by decide, rfl⟩
    obtain ⟨out, same, told⟩ := stopped reached
    rw [told, ← same]
    exact stops

end Backtrace
