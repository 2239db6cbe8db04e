import Backtrace.Proofs.Markup.AppendedTexts

/-!
In which of several texts, written one after the other, a boundary is reached. Texts may have more than one line
each. Where some of them are exchanged for others, a boundary is reached in the same one exactly if those up to
there are taken in the same way.
-/
namespace Backtrace

namespace TextLine

theorem flatten_cons (c : Char) (lines : List (List Char)) : (cons c lines).flatten = c :: lines.flatten := by
  cases lines with
  | nil => rfl
  | cons line lines =>
    rw [cons]
    split <;> rfl

theorem flatten_split (cs : List Char) : (split cs).flatten = cs := by
  induction cs with
  | nil => rfl
  | cons c cs ih => exact (flatten_cons c (split cs)).trans (congrArg (c :: ·) ih)

theorem mem_of_mem_body {cs : List Char} {line : TextLine} (member : line ∈ all cs) : ∀ c ∈ line.body, c ∈ cs := by
  obtain ⟨part, found, rfl⟩ := List.mem_map.1 member
  intro c inside
  rw [← flatten_split cs]
  exact List.mem_flatten_of_mem found (body_subset part c inside)

theorem all_feedBefore {cs : List Char} (filled : cs ≠ []) (single : '\n' ∉ cs) (plain : cs.getLast? ≠ some '\r')
    (texts : List String) : all (cs ++ feedBefore texts) = [⟨cs, feedBefore texts⟩] := by
  have one : split (cs ++ feedBefore texts) = [cs ++ feedBefore texts] := by
    unfold feedBefore
    split
    · rw [List.append_nil, split_of_single single, if_neg filled]
    · exact split_append_feed single []
  rw [all, one, List.map_singleton, ofLine_feedBefore single plain]

def groups : List String → List (List TextLine)
  | [] => []
  | text :: texts => all (text.toList ++ feedBefore texts) :: groups texts

theorem all_intercalate (texts : List String) : all ("\n".intercalate texts).toList = (groups texts).flatten := by
  induction texts with
  | nil => rfl
  | cons text texts ih =>
    rw [groups, List.flatten_cons, ← ih]
    by_cases more : texts = []
    · simp [more, feedBefore, all, split]
    · have ended : Ended (text.toList ++ ['\n']) := .inr List.getLast?_concat
      rw [String.intercalate_cons_of_ne_nil more, feedBefore, if_neg more, ← all_append ended, String.toList_append,
        String.toList_append]
      rfl

theorem groups_length (texts : List String) : (groups texts).length = texts.length := by
  induction texts with
  | nil => rfl
  | cons text texts ih => rw [groups, List.length_cons, List.length_cons, ih]

/-- The lines of a text depend on the others only by whether it is the last one. -/
theorem groups_getElem?_congr {first second : List String} (length : first.length = second.length) {index : Nat}
    (same : first[index]? = second[index]?) : (groups first)[index]? = (groups second)[index]? := by
  induction first generalizing second index with
  | nil => rw [List.length_eq_zero_iff.1 length.symm]
  | cons text first ih =>
    obtain ⟨other, second, rfl⟩ := List.exists_cons_of_length_eq_add_one length.symm
    have behind : first.length = second.length := Nat.succ.inj length
    cases index with
    | zero =>
      obtain rfl : text = other := Option.some.inj same
      have last : first = [] ↔ second = [] := by rw [← List.length_eq_zero_iff, behind, List.length_eq_zero_iff]
      simp only [groups, feedBefore, last, List.getElem?_cons_zero]
    | succ index => exact ih behind same

theorem feedBefore_subset (texts : List String) : ∀ c ∈ feedBefore texts, c ∈ "\n".toList := by
  intro c member
  unfold feedBefore at member
  split at member
  · cases member
  · exact member

theorem getElem?_groups {texts : List String} {index : Nat} {lines : List TextLine}
    (found : (groups texts)[index]? = some lines) :
    ∃ text rest, texts[index]? = some text ∧ lines = all (text.toList ++ feedBefore rest) := by
  induction texts generalizing index with
  | nil => cases found
  | cons text texts ih =>
    cases index with
    | zero => exact ⟨text, texts, rfl, (Option.some.inj found).symm⟩
    | succ index => exact ih found

end TextLine

namespace Processor

variable {processor : Processor} {first second : List TextLine}

theorem ReachesBoundary.not_passes (reached : processor.ReachesBoundary first) :
    ¬∀ line ∈ first, processor.Passes line := by
  obtain ⟨before, line, behind, rfl, -, filled, stops⟩ := reached
  intro pass
  rcases pass line (List.mem_append_right _ List.mem_cons_self) with blank | ⟨inside, -⟩
  · exact filled blank
  · rw [stops] at inside
    cases inside

theorem reachesBoundary_append_iff : processor.ReachesBoundary (first ++ second) ↔
    processor.ReachesBoundary first ∨ (∀ line ∈ first, processor.Passes line) ∧ processor.ReachesBoundary second := by
  constructor
  · rintro ⟨before, line, behind, parts, pass, filled, stops⟩
    rcases List.append_eq_append_iff.1 parts with ⟨rest, rfl, same⟩ | ⟨rest, rfl, same⟩
    · rw [List.forall_mem_append] at pass
      exact .inr ⟨pass.1, rest, line, behind, same, pass.2, filled, stops⟩
    · cases rest with
      | nil =>
        rw [List.append_nil]
        exact .inr ⟨pass, [], line, behind, same.symm, by simp, filled, stops⟩
      | cons front rest =>
        obtain ⟨rfl, -⟩ := List.cons.inj same
        exact .inl ⟨before, line, rest, rfl, pass, filled, stops⟩
  · rintro (⟨before, line, behind, rfl, pass, filled, stops⟩ | ⟨pass, before, line, behind, rfl, also, filled, stops⟩)
    · exact ⟨before, line, behind ++ second, by simp, pass, filled, stops⟩
    · exact ⟨first ++ before, line, behind, by simp, List.forall_mem_append.2 ⟨pass, also⟩, filled, stops⟩

/-- The boundary is reached in the group of lines at an index. -/
def StopsIn (processor : Processor) (groups : List (List TextLine)) (index : Nat) : Prop :=
  (∃ lines, groups[index]? = some lines ∧ processor.ReachesBoundary lines) ∧
    ∀ earlier < index, ∀ lines, groups[earlier]? = some lines → ∀ line ∈ lines, processor.Passes line

theorem stopsIn_cons_zero {groups : List (List TextLine)} :
    processor.StopsIn (first :: groups) 0 ↔ processor.ReachesBoundary first := by
  simp [StopsIn]

theorem stopsIn_cons_succ {groups : List (List TextLine)} {index : Nat} :
    processor.StopsIn (first :: groups) (index + 1) ↔
      (∀ line ∈ first, processor.Passes line) ∧ processor.StopsIn groups index := by
  constructor
  · rintro ⟨reached, pass⟩
    exact ⟨pass 0 (Nat.succ_pos index) first rfl, reached, fun earlier before =>
      pass (earlier + 1) (Nat.succ_lt_succ before)⟩
  · rintro ⟨pass, reached, others⟩
    refine ⟨reached, fun earlier before lines found => ?_⟩
    cases earlier with
    | zero => exact Option.some.inj found ▸ pass
    | succ earlier => exact others earlier (Nat.lt_of_succ_lt_succ before) lines found

/-- A boundary is reached in lines exactly where it is reached in one of their groups. -/
theorem reachesBoundary_flatten_iff {groups : List (List TextLine)} :
    processor.ReachesBoundary groups.flatten ↔ ∃ index, processor.StopsIn groups index := by
  induction groups with
  | nil =>
    refine iff_of_false (fun ⟨before, line, behind, parts, _⟩ => ?_) (fun ⟨index, ⟨lines, found, _⟩, _⟩ => ?_)
    · cases before <;> cases parts
    · cases found
  | cons lines groups ih =>
    rw [List.flatten_cons, reachesBoundary_append_iff, ih]
    constructor
    · rintro (here | ⟨pass, index, later⟩)
      · exact ⟨0, stopsIn_cons_zero.2 here⟩
      · exact ⟨index + 1, stopsIn_cons_succ.2 ⟨pass, later⟩⟩
    · rintro ⟨index, stops⟩
      cases index with
      | zero => exact .inl (stopsIn_cons_zero.1 stops)
      | succ index =>
        obtain ⟨pass, later⟩ := stopsIn_cons_succ.1 stops
        exact .inr ⟨pass, index, later⟩

/-- Two groups of lines that are taken in the same way: both pass, both reach the boundary, or neither does either. -/
structure Alike (processor : Processor) (first second : List TextLine) : Prop where
  passes : (∀ line ∈ first, processor.Passes line) ↔ ∀ line ∈ second, processor.Passes line
  reaches : processor.ReachesBoundary first ↔ processor.ReachesBoundary second

theorem Alike.refl (processor : Processor) (lines : List TextLine) : processor.Alike lines lines := ⟨.rfl, .rfl⟩

theorem Alike.symm (alike : processor.Alike first second) : processor.Alike second first :=
  ⟨alike.passes.symm, alike.reaches.symm⟩

theorem Alike.of_passes (pass : ∀ line ∈ first, processor.Passes line) (also : ∀ line ∈ second, processor.Passes line) :
    processor.Alike first second :=
  ⟨iff_of_true pass also, iff_of_false (fun reached => reached.not_passes pass) fun reached => reached.not_passes also⟩

theorem Alike.of_reachesBoundary (reached : processor.ReachesBoundary first)
    (also : processor.ReachesBoundary second) : processor.Alike first second :=
  ⟨iff_of_false reached.not_passes also.not_passes, iff_of_true reached also⟩

def AlikeAt (processor : Processor) (first second : List (List TextLine)) (index : Nat) : Prop :=
  ∀ lines others, first[index]? = some lines → second[index]? = some others → processor.Alike lines others

section Groups

variable {first second : List (List TextLine)} {index : Nat}

theorem AlikeAt.of_eq (same : first[index]? = second[index]?) : processor.AlikeAt first second index := by
  intro lines others found also
  rw [← same, found] at also
  cases also
  exact .refl processor lines

theorem AlikeAt.symm (alike : processor.AlikeAt first second index) : processor.AlikeAt second first index :=
  fun others lines also found => (alike lines others found also).symm

theorem StopsIn.of_alike (stops : processor.StopsIn first index) (length : first.length = second.length)
    (alike : ∀ earlier ≤ index, processor.AlikeAt first second earlier) : processor.StopsIn second index := by
  have partner {place : Nat} {lines : List TextLine} (found : first[place]? = some lines) :
      ∃ others, second[place]? = some others :=
    ⟨_, List.getElem?_eq_getElem (length ▸ (List.getElem?_eq_some_iff.1 found).1)⟩
  have source {place : Nat} {others : List TextLine} (found : second[place]? = some others) :
      ∃ lines, first[place]? = some lines :=
    ⟨_, List.getElem?_eq_getElem (length ▸ (List.getElem?_eq_some_iff.1 found).1)⟩
  obtain ⟨⟨lines, found, reached⟩, pass⟩ := stops
  refine ⟨?_, fun earlier before others also => ?_⟩
  · obtain ⟨others, also⟩ := partner found
    exact ⟨others, also, (alike index (Nat.le_refl _) lines others found also).reaches.1 reached⟩
  · obtain ⟨lines, found⟩ := source also
    exact (alike earlier (Nat.le_of_lt before) lines others found also).passes.1 (pass earlier before lines found)

theorem StopsIn.alike (stops : processor.StopsIn first index) (also : processor.StopsIn second index) {earlier : Nat}
    (upTo : earlier ≤ index) : processor.AlikeAt first second earlier := by
  intro lines others found found'
  rcases Nat.lt_or_eq_of_le upTo with before | rfl
  · exact .of_passes (stops.2 earlier before lines found) (also.2 earlier before others found')
  · obtain ⟨⟨_, here, reached⟩, -⟩ := stops
    obtain ⟨⟨_, there, alsoReached⟩, -⟩ := also
    cases here.symm.trans found
    cases there.symm.trans found'
    exact .of_reachesBoundary reached alsoReached

/-- A boundary is reached in the same group, or in none, exactly if the groups up to it that are not the same in both
lists are taken in the same way. -/
theorem stopsIn_iff_alikeAt (length : first.length = second.length) {changed : Nat → Prop}
    (same : ∀ index, ¬changed index → first[index]? = second[index]?) :
    (∀ index, processor.StopsIn first index ↔ processor.StopsIn second index) ↔
      ∀ index, processor.StopsIn first index ∨ processor.StopsIn second index →
        ∀ earlier ≤ index, changed earlier → processor.AlikeAt first second earlier := by
  constructor
  · rintro agree index (stops | stops) earlier upTo -
    · exact stops.alike ((agree index).1 stops) upTo
    · exact ((agree index).2 stops).alike stops upTo
  · intro alike index
    have whole (stops : processor.StopsIn first index ∨ processor.StopsIn second index) :
        ∀ earlier ≤ index, processor.AlikeAt first second earlier := by
      intro earlier upTo
      by_cases different : changed earlier
      · exact alike index stops earlier upTo different
      · exact .of_eq (same earlier different)
    constructor
    · intro stops
      exact stops.of_alike length (whole (.inl stops))
    · intro stops
      exact stops.of_alike length.symm fun earlier upTo => (whole (.inr stops) earlier upTo).symm

end Groups

end Processor

end Backtrace
