import Backtrace.Proofs.Markup.MarkerGrammar
import Backtrace.Proofs.Markup.NameStart
import Backtrace.Proofs.Text.Alphabet

/-!
The final form of a line. A line is emitted exactly where its markers, the one in front of its name
included, are a word of the grammar; every tag that is opened in it is then closed in it.
-/
namespace Backtrace

namespace Marker

/-- Regions side by side, and file regions one after the other, with nothing left open. -/
structure Balanced (markers : List Marker) : Prop where
  sides : Pairs (· ≠ .file) (sides markers)
  files : Pairs (· = .file) (files markers)

def closeFile (line : List Char) : List Char :=
  if leavesFileOpen (ofText line) then line ++ [Marker.fileEnd.sentinel] else line

theorem ofText_closeFile (line : List Char) :
    ofText (closeFile line) = if leavesFileOpen (ofText line) then ofText line ++ [.fileEnd] else ofText line := by
  unfold closeFile
  split
  · rw [ofText, List.filterMap_append]
    rfl
  · rfl

theorem balanced_closeFile {line : List Char} (order : InOrder (ofText line)) :
    Balanced (ofText (closeFile line)) := by
  have closed := pairs_of_alternating order.files
  rw [ofText_closeFile]
  by_cases left : (files (ofText line)).getLast? = some .fileStart
  · rw [if_pos (by simpa [leavesFileOpen] using left)]
    rw [if_pos left] at closed
    refine ⟨?_, ?_⟩
    · simpa [sides, isFile] using order.sides
    · rw [files, List.filter_append]
      exact closed
  · rw [if_neg (by simpa [leavesFileOpen] using left)]
    rw [if_neg left] at closed
    exact ⟨order.sides, closed⟩

theorem ofSentinel?_normalize (style : PathStyle) (c : Char) : ofSentinel? (style.normalize c) = ofSentinel? c := by
  cases style with
  | preserve => rfl
  | unix =>
    simp only [PathStyle.normalize]
    split
    · next back => rw [back]; rfl
    · rfl
  | windows =>
    simp only [PathStyle.normalize]
    split
    · next slash => rw [slash]; rfl
    · rfl

theorem ofText_normalize (style : PathStyle) (line : List Char) :
    ofText (line.map style.normalize) = ofText line := by
  rw [ofText, List.filterMap_map]
  exact congrArg (List.filterMap · line) (funext (ofSentinel?_normalize style))

end Marker

open Marker

namespace Tags

theorem ofStyle_unmarked (style : MarkupStyle) (fontSize : UInt32) (marker : Marker) :
    Alphabet.unmarked.Over ((ofStyle style fontSize).tag marker) := by
  cases style with
  | rich =>
    have size : Alphabet.unmarked.Over ("<size=" ++ Text.decimalText fontSize.toNat ++ ">") := by
      rw [Alphabet.over_append, Alphabet.over_append]
      exact ⟨⟨Alphabet.over_of_fixed (by decide), Alphabet.over_decimalText _⟩, Alphabet.over_of_fixed (by decide)⟩
    cases marker <;> dsimp only [ofStyle, tag]
    case fileStart => exact size
    all_goals exact Alphabet.over_of_fixed (by decide)
  | ansi =>
    -- the escape is not one of the fixed characters
    cases marker <;> dsimp only [ofStyle, tag] <;> exact Alphabet.over_unmarked_of_all (by decide)

/-- No marker survives where tags are put. -/
theorem put_unmarked (style : MarkupStyle) (fontSize : UInt32) (line : List Char) :
    ∀ c ∈ line.flatMap (ofStyle style fontSize).put, isSentinel c = false := by
  intro c member
  obtain ⟨source, -, shown⟩ := List.mem_flatMap.1 member
  unfold put at shown
  cases found : ofSentinel? source with
  | some marker =>
    rw [found] at shown
    exact ofStyle_unmarked style fontSize marker c shown
  | none =>
    rw [found] at shown
    obtain rfl := List.mem_singleton.1 shown
    simp [isSentinel, found]

theorem put_sentinel (tags : Tags) (marker : Marker) : tags.put marker.sentinel = (tags.tag marker).toList := by
  unfold put
  rw [ofSentinel?_sentinel]

end Tags

namespace Processor

variable (processor : Processor)

/-- The final form of a line whose markers are in order: tags for markers, and the last one closed. -/
def finalForm (marked : List Char) : List Char :=
  processor.continuation.toList ++ ((closeFile marked).map processor.pathStyle.normalize).flatMap processor.tags.put

theorem flatMap_put_closeFile (marked : List Char) :
    ((closeFile marked).map processor.pathStyle.normalize).flatMap processor.tags.put =
      (marked.map processor.pathStyle.normalize).flatMap processor.tags.put ++
        if leavesFileOpen (ofText marked) then processor.tags.file.2.toList else [] := by
  unfold closeFile
  split
  · rw [List.map_append, List.flatMap_append, List.map_singleton, PathStyle.normalize_sentinel,
      List.flatMap_singleton, Tags.put_sentinel]
    rfl
  · rw [List.append_nil]

theorem line_of_inOrder {body : List Char} (order : InOrder (ofText (withNameStart body))) :
    processor.line body = .ok (processor.finalForm (withNameStart body)) := by
  have same := ofText_normalize processor.pathStyle (withNameStart body)
  obtain ⟨left, taken⟩ := (Regions.ofLine_ok_iff ((withNameStart body).map processor.pathStyle.normalize)).2
    (same ▸ order)
  have leaves := Regions.left_of_ofLine taken
  unfold line tagged finalForm
  rw [withNameStart_normalize, taken, flatMap_put_closeFile, leaves, same]
  rfl

theorem line_of_not_inOrder {body : List Char} (refused : ¬InOrder (ofText (withNameStart body))) :
    ∃ fault, processor.line body = .error fault := by
  rw [← ofText_normalize processor.pathStyle, ← withNameStart_normalize, ← Regions.ofLine_ok_iff] at refused
  unfold line tagged
  cases taken : Regions.ofLine (withNameStart (body.map processor.pathStyle.normalize)) with
  | ok left => exact absurd ⟨left, taken⟩ refused
  | error fault => exact ⟨fault, rfl⟩

theorem lines_cons {number : Nat} {body ending : List Char} {rest : List TextLine} (filled : body ≠ [])
    (inside : processor.stopsAt body = false) :
    processor.lines number (⟨body, ending⟩ :: rest) =
      match processor.line body with
      | .error fault => .error (.region (number + 1) fault)
      | .ok out => (out ++ ending ++ ·) <$> processor.lines (number + 1) rest := by
  obtain ⟨c, cs, rfl⟩ := List.exists_cons_of_ne_nil filled
  rw [lines, if_neg (by simp [inside])]
  cases processor.line (c :: cs) with
  | error fault => rfl
  | ok out => cases processor.lines (number + 1) rest <;> rfl

end Processor

/-- The marker grammar of lines. There is one way to mark where the name of a line starts. The line so
marked is emitted, with every tag closed and no marker left, exactly where its markers are a word of
the grammar; otherwise the whole text is refused. -/
theorem emitted_iff_inOrder (options : Options) (number : Nat) (body ending : List Char) (rest : List TextLine)
    (filled : body ≠ []) (inside : (Processor.ofOptions options).stopsAt body = false) :
    ∃ marked, (∀ other, NameMarked body other ↔ other = marked) ∧
      (InOrder (ofText marked) →
        (Processor.ofOptions options).lines number (⟨body, ending⟩ :: rest) =
          ((Processor.ofOptions options).finalForm marked ++ ending ++ ·) <$>
            (Processor.ofOptions options).lines (number + 1) rest ∧
        Balanced (ofText (closeFile marked)) ∧
        (Alphabet.unmarked.Over options.continuation →
          ∀ c ∈ (Processor.ofOptions options).finalForm marked, isSentinel c = false)) ∧
      (¬InOrder (ofText marked) →
        ∃ failure, (Processor.ofOptions options).lines number (⟨body, ending⟩ :: rest) = .error failure ∧
          failure.stage = .transform (number + 1)) := by
  refine ⟨withNameStart body, fun other => nameMarked_iff, fun order => ⟨?_, balanced_closeFile order, ?_⟩,
    fun refused => ?_⟩
  · rw [Processor.lines_cons _ filled inside, Processor.line_of_inOrder _ order]
  · intro continued c member
    rcases List.mem_append.1 member with before | behind
    · exact continued c before
    · exact Tags.put_unmarked options.markupStyle options.fontSize _ c behind
  · obtain ⟨fault, failed⟩ := (Processor.ofOptions options).line_of_not_inOrder refused
    exact ⟨.region (number + 1) fault, by rw [Processor.lines_cons _ filled inside, failed], rfl⟩

/-- A line that only tells where its name ends, and leaves its file region open. -/
theorem emitted_half_marked :
    let body := ['A', '.', 'B', Marker.nameEnd.sentinel, Marker.fileStart.sentinel, 'C', '\\', 'D']
    body ≠ [] ∧ (Processor.ofOptions {}).stopsAt body = false ∧
      (Processor.ofOptions {}).lines 0 [⟨body, []⟩] = .ok "│ A.<b><i>B</i></b><size=8>C/D</size>".toList := by
  intro body
  have filled : body ≠ [] := by decide
  have inside : (Processor.ofOptions {}).stopsAt body = false := rfl
  obtain ⟨marked, only, emitted, -⟩ := emitted_iff_inOrder {} 0 body [] [] filled inside
  obtain rfl := (only (withNameStart body)).1 (nameMarked_iff.2 rfl)
  have order : InOrder (ofText (withNameStart body)) :=
    ⟨@Pairs.pair _ .name [] (by decide) .nil, Alternating.open_⟩
  exact ⟨filled, inside, (emitted order).1.trans rfl⟩

end Backtrace
