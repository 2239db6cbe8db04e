import Backtrace.Proofs.Markup.AppendedTexts
import Backtrace.Proofs.Render.Spans

/-!
Lines that name the boundary. Blanks in front of a line are passed over before the boundary is looked for, so that a
boundary with a blank in front is found behind an `at` only. Where it is found, neither that line nor any behind it is
shown.
-/
namespace Backtrace

namespace Text

theorem trimStart_of_not_blank {c : Char} {cs : List Char} (solid : isBlank c = false) :
    trimStart (c :: cs) = c :: cs := List.dropWhile_cons_of_neg (by simp [solid])

theorem not_blank_of_prefix_trimStart {c : Char} {start cs : List Char} (first : c :: start <+: trimStart cs) :
    isBlank c = false := by
  obtain ⟨rest, whole⟩ := first
  rcases @trimStart_eq_nil_or_head cs with blank | ⟨other, behind, found, solid⟩
  · rw [blank] at whole
    cases whole
  · rw [found] at whole
    exact (List.cons.inj whole).1 ▸ solid

end Text

/-- A text that starts with the boundary, or with the boundary behind an `at`. -/
def NamesBoundary (boundary text : List Char) : Prop := boundary <+: text ∨ ['a', 't', ' '] ++ boundary <+: text

/-- What is looked at in a line: all of it, and what stands behind its return type. -/
inductive FrameText (body : List Char) : List Char → Prop
  | whole : FrameText body body
  | behindReturn {front rest : List Char} (parts : body = front ++ Marker.returnEnd.sentinel :: rest)
      (first : Marker.returnEnd.sentinel ∉ front) : FrameText body rest

/-- A line that has the boundary behind an `at`, with or without blanks in front of that. -/
def NamesBehindAt (boundary body : List Char) : Prop :=
  ∃ text, FrameText body text ∧ ['a', 't', ' '] ++ boundary <+: Text.trimStart (withoutSentinels text)

def BlankLed (boundary : List Char) : Prop := ∃ c rest, boundary = c :: rest ∧ Text.isBlank c = true

variable {boundary body : List Char}

theorem frameStartsWith_iff :
    frameStartsWith boundary body = true ↔ NamesBoundary boundary (Text.trimStart (withoutSentinels body)) := by
  rw [frameStartsWith, Bool.or_eq_true, List.isPrefixOf_iff_prefix]
  refine or_congr_right ?_
  cases found : ['a', 't', ' '].isPrefixOf? (Text.trimStart (withoutSentinels body)) with
  | none =>
    refine iff_of_false Bool.false_ne_true fun ⟨rest, whole⟩ => ?_
    rw [List.append_assoc] at whole
    cases found.symm.trans (List.isPrefixOf?_eq_some_iff_append_eq.2 whole)
  | some rest =>
    rw [← List.isPrefixOf?_eq_some_iff_append_eq.1 found, List.prefix_append_right_inj]
    exact List.isPrefixOf_iff_prefix

theorem atBoundary_iff : atBoundary boundary body = true ↔
    ∃ text, FrameText body text ∧ NamesBoundary boundary (Text.trimStart (withoutSentinels text)) := by
  rw [atBoundary, Bool.or_eq_true, frameStartsWith_iff]
  constructor
  · rintro (whole | behind)
    · exact ⟨body, .whole, whole⟩
    · split at behind
      · next front rest found =>
        obtain ⟨parts, first⟩ := Text.around?_eq_some_iff.1 found
        exact ⟨rest, .behindReturn parts first, frameStartsWith_iff.1 behind⟩
      · cases behind
  · rintro ⟨text, part, names⟩
    cases part with
    | whole => exact .inl names
    | behindReturn parts first =>
      rw [Text.around?_eq_some_iff.2 ⟨parts, first⟩]
      exact .inr (frameStartsWith_iff.2 names)

/-- A line that names the boundary is at it, unless the blank in front of the boundary is passed over. -/
theorem atBoundary_iff_of_names (filled : boundary ≠ [])
    (names : NamesBoundary boundary (withoutSentinels body)) :
    atBoundary boundary body = true ↔ (BlankLed boundary → NamesBehindAt boundary body) := by
  obtain ⟨c, rest, rfl⟩ := List.exists_cons_of_ne_nil filled
  constructor
  · rintro stops ⟨_, _, same, blank⟩
    obtain ⟨rfl, rfl⟩ := List.cons.inj same
    obtain ⟨text, part, directly | behindAt⟩ := atBoundary_iff.1 stops
    · rw [Text.not_blank_of_prefix_trimStart directly] at blank
      cases blank
    · exact ⟨text, part, behindAt⟩
  · intro found
    rw [atBoundary_iff]
    cases blank : Text.isBlank c with
    | true =>
      obtain ⟨text, part, behindAt⟩ := found ⟨c, rest, rfl, blank⟩
      exact ⟨text, part, .inr behindAt⟩
    | false =>
      -- neither the boundary nor an `at` starts with a blank, so that there is nothing to pass over
      have solid : Text.trimStart (withoutSentinels body) = withoutSentinels body := by
        rcases names with ⟨behind, whole⟩ | ⟨behind, whole⟩
        · rw [← whole]
          exact Text.trimStart_of_not_blank blank
        · rw [← whole]
          exact Text.trimStart_of_not_blank (by decide)
      exact ⟨body, .whole, solid.symm ▸ names⟩

theorem NameMarked.subset {body marked : List Char} (relation : NameMarked body marked) :
    ∀ c ∈ body, c ∈ marked := by
  intro c member
  cases relation with
  | kept => exact member
  | inserted parts =>
    rw [parts] at member
    simp only [List.mem_append, List.mem_cons] at member ⊢
    tauto

namespace Processor

variable {processor : Processor}

theorem line_ne_nil {body out : List Char} (made : processor.line body = .ok out) {c : Char} (member : c ∈ body)
    (plain : isSentinel c = false) : out ≠ [] := by
  by_cases order : Marker.InOrder (Marker.ofText (withNameStart body))
  · rw [processor.line_of_inOrder order] at made
    cases made
    have marked : c ∈ withNameStart body := (nameMarked_iff.2 rfl).subset c member
    have put : processor.tags.put (processor.pathStyle.normalize c) = [processor.pathStyle.normalize c] :=
      put_of_unmarked _ (by rwa [isSentinel_normalize])
    have shown : processor.pathStyle.normalize c ∈ processor.finalForm (withNameStart body) := by
      rw [finalForm, flatMap_put_closeFile]
      refine List.mem_append_right _ (List.mem_append_left _ ?_)
      refine List.mem_flatMap.2 ⟨_, List.mem_map_of_mem marked, ?_⟩
      rw [put]
      exact List.mem_singleton_self _
    exact List.ne_nil_of_mem shown
  · obtain ⟨fault, refused⟩ := processor.line_of_not_inOrder order
    rw [refused] at made
    cases made

theorem lines_append_of_not_passes {before : List TextLine} (stuck : ¬∀ line ∈ before, processor.Passes line)
    (number : Nat) (rest : List TextLine) :
    processor.lines number (before ++ rest) = processor.lines number before := by
  rcases processor.lines_cases before with pass | reached | ⟨line, fault, refused⟩
  · exact absurd pass stuck
  · obtain ⟨out, shown⟩ := lines_of_reachesBoundary reached
    rw [shown, ← shown number [], List.append_nil]
  · rw [refused, ← refused number [], List.append_nil]

theorem lines_of_passes {before : List TextLine} (pass : ∀ line ∈ before, processor.Passes line) (number : Nat) :
    ∃ out, processor.lines number before = .ok out ∧ ∀ rest, processor.lines number (before ++ rest) =
      (out ++ ·) <$> processor.lines (number + TextLine.counted before) rest := by
  obtain ⟨out, shown⟩ := lines_append_of_passes pass
  refine ⟨out, ?_, shown number⟩
  rw [← List.append_nil before, shown]
  exact congrArg Except.ok (List.append_nil out)

/-- A line at the boundary is not shown, and no line behind it is. -/
theorem lines_append_of_stops {line : TextLine} (filled : line.body ≠ []) (stops : processor.stopsAt line.body = true)
    (number : Nat) (before behind : List TextLine) :
    processor.lines number (before ++ line :: behind) = processor.lines number before := by
  by_cases pass : ∀ earlier ∈ before, processor.Passes earlier
  · obtain ⟨out, alone, shown⟩ := lines_of_passes pass number
    rw [shown, alone, lines_stop filled stops]
    exact congrArg Except.ok (List.append_nil out)
  · exact lines_append_of_not_passes pass number (line :: behind)

/-- Behind lines that pass, a line with a text is seen in the final form unless it is at the boundary. -/
theorem lines_append_ne {before behind : List TextLine} {line : TextLine}
    (pass : ∀ earlier ∈ before, processor.Passes earlier) {c : Char} (member : c ∈ line.body)
    (plain : isSentinel c = false) (inside : processor.stopsAt line.body = false) (number : Nat) :
    processor.lines number (before ++ line :: behind) ≠ processor.lines number before := by
  obtain ⟨out, alone, shown⟩ := lines_of_passes pass number
  rw [shown, alone, processor.lines_cons (List.ne_nil_of_mem member) inside]
  cases made : processor.line line.body with
  | error fault => exact fun same => (by cases same)
  | ok final =>
    cases processor.lines (number + TextLine.counted before + 1) behind with
    | error failure => exact fun same => (by cases same)
    | ok more =>
      intro same
      have nothing : final ++ line.ending ++ more = [] := List.append_right_eq_self.1 (Except.ok.inj same)
      have blank : final = [] := (List.append_eq_nil_iff.1 (List.append_eq_nil_iff.1 nothing).1).1
      exact line_ne_nil made member plain blank

theorem map_ofList_inj {first second : Except Failure (List Char)} :
    String.ofList <$> first = String.ofList <$> second ↔ first = second := by
  have back (outcome : Except Failure (List Char)) : String.toList <$> String.ofList <$> outcome = outcome := by
    cases outcome with
    | error failure => rfl
    | ok out => exact congrArg Except.ok String.toList_ofList
  exact ⟨fun same => by rw [← back first, same, back], congrArg _⟩

end Processor

/-- A line that names the boundary. What is shown of a text is what is shown of the lines in front of it, exactly
where it is reached by none, or where the boundary has no blank in front or stands behind an `at`. -/
theorem silent_from_boundary_iff (processor : Processor) {boundary text : String} {before behind : List TextLine}
    {line : TextLine} (bounded : processor.boundary = some boundary) (filled : boundary ≠ "")
    (lines : TextLine.all text.toList = before ++ line :: behind)
    (names : NamesBoundary boundary.toList (withoutSentinels line.body)) :
    processor.process? text = String.ofList <$> processor.lines 0 before ↔
      ((∀ earlier ∈ before, processor.Passes earlier) → BlankLed boundary.toList →
        NamesBehindAt boundary.toList line.body) := by
  obtain ⟨c, rest, letters⟩ : ∃ c rest, boundary.toList = c :: rest := by
    apply List.exists_cons_of_ne_nil
    rwa [Ne, String.toList_eq_nil_iff]
  have named : c ∈ withoutSentinels line.body := by
    rcases names with ⟨behind, whole⟩ | ⟨behind, whole⟩ <;> rw [← whole, letters] <;> simp
  obtain ⟨member, plain⟩ := List.mem_filter.1 named
  have stops : processor.stopsAt line.body = true ↔
      (BlankLed boundary.toList → NamesBehindAt boundary.toList line.body) := by
    rw [Processor.stopsAt, bounded]
    exact atBoundary_iff_of_names (by simp [letters]) names
  rw [processor.process_eq_lines, lines, Processor.map_ofList_inj, ← stops]
  constructor
  · intro silent pass
    by_contra inside
    exact Processor.lines_append_ne pass member (by simpa using plain) (Bool.not_eq_true _ ▸ inside) 0 silent
  · intro reached
    by_cases pass : ∀ earlier ∈ before, processor.Passes earlier
    · exact Processor.lines_append_of_stops (List.ne_nil_of_mem member) (reached pass) 0 before behind
    · exact Processor.lines_append_of_not_passes pass 0 (line :: behind)

/-- A frame whose name is marked stands at the boundary behind an `at`. The markers of the line behind it, which are
not in order, are not looked at. -/
theorem silent_from_marked_frame :
    let processor := Processor.ofOptions { boundary := some "Host" }
    let before : List TextLine := [⟨"at A".toList, ['\n']⟩]
    let line : TextLine := ⟨"at \ue002Host\ue003.Run()".toList, ['\n']⟩
    let behind : List TextLine := [⟨['\ue003'], []⟩]
    let text := "at A\nat \ue002Host\ue003.Run()\n\ue003"
    processor.boundary = some "Host" ∧ "Host" ≠ "" ∧ TextLine.all text.toList = before ++ line :: behind ∧
      NamesBoundary "Host".toList (withoutSentinels line.body) ∧ processor.process? text = .ok "│ at A\n" := by
  -- closed terms, which are evaluated apart
  have lines : TextLine.all "at A\nat \ue002Host\ue003.Run()\n\ue003".toList =
      [⟨"at A".toList, ['\n']⟩, ⟨"at \ue002Host\ue003.Run()".toList, ['\n']⟩, ⟨['\ue003'], []⟩] := by rfl
  have front : (Processor.ofOptions { boundary := some "Host" }).lines 0 [⟨"at A".toList, ['\n']⟩] =
      .ok "│ at A\n".toList := by rfl
  have names : NamesBoundary "Host".toList (withoutSentinels "at \ue002Host\ue003.Run()".toList) :=
    .inr ⟨".Run()".toList, by rfl⟩
  have filled : "Host" ≠ "" := by decide
  have solid : ¬BlankLed "Host".toList := by
    rintro ⟨c, rest, same, blank⟩
    obtain ⟨rfl, -⟩ := List.cons.inj same
    revert blank
    decide
  intro processor before line behind text
  have silent := (@silent_from_boundary_iff processor "Host" text before behind line rfl filled lines names).2
    fun _ led => absurd led solid
  refine ⟨rfl, filled, lines, names, silent.trans ?_⟩
  rw [front]
  rfl

/-- The banner of a cause starts with a blank. A boundary that is the start of the banner is not found. -/
theorem blank_boundary_passes :
    let processor := Processor.ofOptions { boundary := some " ---> Inner" }
    NamesBoundary " ---> Inner".toList (withoutSentinels " ---> Inner: x".toList) ∧
      processor.process? "at A\n ---> Inner: x\nat B" = .ok "│ at A\n│  ---> Inner: x\n│ at B" := by
  exact ⟨.inl ⟨": x".toList, rfl⟩, rfl⟩

end Backtrace
