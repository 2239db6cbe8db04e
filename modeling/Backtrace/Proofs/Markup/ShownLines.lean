import Backtrace.Proofs.Markup.LineGrammar

/-!
The lines of a text that are shown in its final form: those in front of the first one at the boundary,
the empty ones aside. Where the markers of these are in order, the final form is theirs, one after the
other.
-/
namespace Backtrace
open Marker

namespace TextLine

def ofTexts : List String → List TextLine
  | [] => []
  | [text] => [ofLine text.toList]
  | text :: texts => ofLine (text.toList ++ ['\n']) :: ofTexts texts

theorem ofTexts_cons {text : String} {texts : List String} (more : texts ≠ []) :
    ofTexts (text :: texts) = ofLine (text.toList ++ ['\n']) :: ofTexts texts := by
  obtain ⟨next, texts, rfl⟩ := List.exists_cons_of_ne_nil more
  rfl

theorem cons_feed (lines : List (List Char)) : cons '\n' lines = ['\n'] :: lines := by
  cases lines <;> rfl

theorem split_append_feed {cs : List Char} (single : '\n' ∉ cs) (rest : List Char) :
    split (cs ++ '\n' :: rest) = (cs ++ ['\n']) :: split rest := by
  induction cs with
  | nil => exact cons_feed (split rest)
  | cons c cs ih =>
    obtain ⟨different, others⟩ := not_or.1 (mt List.mem_cons.2 single)
    have tail := ih others
    rw [split] at tail
    rw [List.cons_append, split, List.foldr_cons, tail, cons, if_neg (Ne.symm different)]
    rfl

theorem split_of_single {cs : List Char} (single : '\n' ∉ cs) : split cs = if cs = [] then [] else [cs] := by
  induction cs with
  | nil => rfl
  | cons c cs ih =>
    obtain ⟨different, others⟩ := not_or.1 (mt List.mem_cons.2 single)
    have tail := ih others
    rw [split] at tail
    rw [split, List.foldr_cons, tail, if_neg (List.cons_ne_nil c cs)]
    by_cases last : cs = []
    · rw [if_pos last, cons, last]
    · rw [if_neg last, cons, if_neg (Ne.symm different)]

theorem ofLine_of_single {cs : List Char} (single : '\n' ∉ cs) : ofLine cs = ⟨cs, []⟩ := by
  unfold ofLine
  split
  · next body found => exact absurd (List.mem_reverse.1 (found ▸ List.mem_cons_self)) single
  · next body found => exact absurd (List.mem_reverse.1 (found ▸ List.mem_cons_self)) single
  · rfl

theorem ofLine_append_feed {cs : List Char} (plain : cs.getLast? ≠ some '\r') :
    ofLine (cs ++ ['\n']) = ⟨cs, ['\n']⟩ := by
  unfold ofLine
  rw [List.reverse_append]
  cases last : cs.reverse with
  | nil => rw [List.reverse_eq_nil_iff.1 last]; rfl
  | cons c front =>
    have whole : cs = front.reverse ++ [c] := by rw [← List.reverse_reverse cs, last, List.reverse_cons]
    have different : c ≠ '\r' := by
      rintro rfl
      exact plain (by rw [whole, List.getLast?_concat])
    rw [whole]
    split
    · next body found => exact absurd (List.cons.inj (List.cons.inj found).2).1 different
    · next body _ found =>
      rw [← (List.cons.inj found).2]
      exact congrArg (mk · ['\n']) List.reverse_cons
    · next _ other => exact absurd rfl (other (c :: front))

theorem body_subset (cs : List Char) : ∀ c ∈ (ofLine cs).body, c ∈ cs := by
  intro c member
  unfold ofLine at member
  split at member
  · next body found =>
    rw [← List.mem_reverse, found]
    exact List.mem_cons_of_mem _ (List.mem_cons_of_mem _ (List.mem_reverse.1 member))
  · next body _ found =>
    rw [← List.mem_reverse, found]
    exact List.mem_cons_of_mem _ (List.mem_reverse.1 member)
  · exact member

def feedBefore (texts : List String) : List Char := if texts = [] then [] else ['\n']

theorem feedBefore_map {α : Type} (values : List α) (first second : α → String) :
    feedBefore (values.map first) = feedBefore (values.map second) := by
  simp only [feedBefore, List.map_eq_nil_iff]

theorem ofTexts_cons_eq (text : String) (texts : List String) :
    ofTexts (text :: texts) = ofLine (text.toList ++ feedBefore texts) :: ofTexts texts := by
  unfold feedBefore
  split
  · next last => rw [last, List.append_nil]; rfl
  · next more => exact ofTexts_cons more

theorem mem_ofTexts {line : TextLine} {texts : List String} (member : line ∈ ofTexts texts) :
    ∃ text ∈ texts, ∃ rest : List String, line = ofLine (text.toList ++ feedBefore rest) := by
  induction texts with
  | nil => cases member
  | cons text texts ih =>
    rw [ofTexts_cons_eq] at member
    rcases List.mem_cons.1 member with rfl | later
    · exact ⟨text, List.mem_cons_self, texts, rfl⟩
    · obtain ⟨other, found, rest, same⟩ := ih later
      exact ⟨other, List.mem_cons_of_mem _ found, rest, same⟩

theorem ofLine_feedBefore {cs : List Char} (single : '\n' ∉ cs) (plain : cs.getLast? ≠ some '\r')
    (texts : List String) : ofLine (cs ++ feedBefore texts) = ⟨cs, feedBefore texts⟩ := by
  unfold feedBefore
  split
  · rw [List.append_nil, ofLine_of_single single]
  · exact ofLine_append_feed plain

end TextLine

namespace Processor

variable (processor : Processor)

def shown (lines : List TextLine) : List TextLine :=
  (lines.takeWhile fun line => !processor.stopsAt line.body).filter fun line => line.body ≠ []

def finalLine (line : TextLine) : List Char := processor.finalForm (withNameStart line.body) ++ line.ending

theorem shown_cons (line : TextLine) (lines : List TextLine) : processor.shown (line :: lines) =
    if processor.stopsAt line.body then [] else if line.body = [] then processor.shown lines
    else line :: processor.shown lines := by
  unfold shown
  rw [List.takeWhile_cons]
  by_cases stops : processor.stopsAt line.body = true
  · simp [stops]
  · simp only [stops, Bool.not_false, if_true, Bool.false_eq_true, if_false]
    by_cases blank : line.body = [] <;> simp [blank]

theorem lines_congr {line : TextLine} {first second : List TextLine}
    (same : ∀ number, processor.lines number first = processor.lines number second) (number : Nat) :
    processor.lines number (line :: first) = processor.lines number (line :: second) := by
  obtain ⟨body, ending⟩ := line
  cases body with
  | nil => simp only [lines, same]
  | cons c body => simp only [lines, same]

/-- A text that is written line by line is read line by line. -/
theorem lines_all {texts : List String} (single : ∀ text ∈ texts, '\n' ∉ text.toList) (number : Nat) :
    processor.lines number (TextLine.all ("\n".intercalate texts).toList) =
      processor.lines number (TextLine.ofTexts texts) := by
  induction texts generalizing number with
  | nil => rfl
  | cons text texts ih =>
    obtain ⟨first, others⟩ := List.forall_mem_cons.1 single
    by_cases more : texts = []
    · rw [more, String.intercalate_singleton, TextLine.all, TextLine.split_of_single first, TextLine.ofTexts]
      split
      · next blank => rw [blank]; rfl
      · rfl
    · rw [String.intercalate_cons_of_ne_nil more, String.toList_append, String.toList_append, List.append_assoc,
        TextLine.ofTexts_cons more]
      have cut := TextLine.split_append_feed first ("\n".intercalate texts).toList
      rw [TextLine.all, show "\n".toList ++ ("\n".intercalate texts).toList =
        '\n' :: ("\n".intercalate texts).toList from rfl, cut]
      exact processor.lines_congr (ih others) number

end Processor

namespace Options

variable (options : Options)

theorem stopsAt_nil : (Processor.ofOptions options).stopsAt [] = false := by
  unfold Processor.stopsAt
  cases found : (Processor.ofOptions options).boundary with
  | none => rfl
  | some boundary =>
    have filled : boundary ≠ "" := by simpa using (Option.filter_eq_some_iff.1 found).2
    obtain ⟨c, cs, letters⟩ : ∃ c cs, boundary.toList = c :: cs := by
      apply List.exists_cons_of_ne_nil
      rwa [Ne, String.toList_eq_nil_iff]
    simp only [letters]
    rfl

/-- Where the markers of every line that is shown are in order, the final form of the lines is that of
the ones shown. -/
theorem lines_eq_of_inOrder {lines : List TextLine} (number : Nat)
    (order : ∀ line ∈ (Processor.ofOptions options).shown lines, InOrder (ofText (withNameStart line.body))) :
    (Processor.ofOptions options).lines number lines =
      .ok (((Processor.ofOptions options).shown lines).flatMap (Processor.ofOptions options).finalLine) := by
  induction lines generalizing number with
  | nil => rfl
  | cons line lines ih =>
    obtain ⟨body, ending⟩ := line
    rw [Processor.shown_cons] at order ⊢
    by_cases filled : body = []
    · subst filled
      rw [options.stopsAt_nil, if_neg Bool.false_ne_true, if_pos rfl] at order ⊢
      exact ih number order
    · by_cases stops : (Processor.ofOptions options).stopsAt body = true
      · obtain ⟨c, cs, rfl⟩ := List.exists_cons_of_ne_nil filled
        simp [Processor.lines, stops]
      · rw [if_neg stops, if_neg filled] at order ⊢
        obtain ⟨first, others⟩ := List.forall_mem_cons.1 order
        rw [Processor.lines_cons _ filled (Bool.not_eq_true _ ▸ stops), Processor.line_of_inOrder _ first,
          ih (number + 1) others]
        rfl

theorem process_eq {text final : String} (enabled : options.postprocess = true)
    (processed : (Processor.ofOptions options).process? text = .ok final) :
    (Processor.ofOptions options).process text = final := by
  rw [Processor.process, processed]
  exact if_pos enabled

end Options

end Backtrace
