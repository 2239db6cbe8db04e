import Backtrace.Options
import Backtrace.Proofs.Outcomes
import Backtrace.Proofs.Text

/-!
Options in layers. Each option has a flag, a variable of the environment, both or none, and a default; what is given
by the flag counts before what the variable holds, and that before the default. A variable that has to be readable is
read even where a flag is given.
-/
namespace Backtrace

theorem Text.Numeral.solid {letters : List Char} {number : Nat} (numeral : Text.Numeral letters number) :
    ∀ c ∈ letters, Text.isBlank c = false := by
  obtain ⟨digits, spelled, -, all, -⟩ := numeral
  have solid : ∀ c ∈ digits, Text.isBlank c = false := by
    intro c member
    have digit := all c member
    simp only [Char.isDigit, Bool.and_eq_true, decide_eq_true_eq] at digit
    exact Text.isBlank_eq_false_of_ascii (le_trans (by decide) digit.1) (le_trans digit.2 (by decide))
  cases spelled with
  | inl bare => exact bare ▸ solid
  | inr signed => exact signed ▸ List.forall_mem_cons.2 ⟨by decide, solid⟩

inductive Setting
  | markup
  | fullParameters
  | cache
  | postprocess
  | boundary
  | pathStyle
  | markupStyle
  | fontSize
  | continuation
  | cacheCapacity
  | maxDepth

namespace Setting

abbrev Value : Setting → Type
  | .markup | .fullParameters | .cache | .postprocess => Bool
  | .boundary => Option String
  | .pathStyle => PathStyle
  | .markupStyle => MarkupStyle
  | .fontSize => UInt32
  | .continuation => String
  | .cacheCapacity | .maxDepth => Nat

def value (options : Options) : (setting : Setting) → setting.Value
  | .markup => options.markup
  | .fullParameters => options.fullParameters
  | .cache => options.cache
  | .postprocess => options.postprocess
  | .boundary => options.boundary
  | .pathStyle => options.pathStyle
  | .markupStyle => options.markupStyle
  | .fontSize => options.fontSize
  | .continuation => options.continuation
  | .cacheCapacity => options.cacheCapacity
  | .maxDepth => options.maxDepth

def key? : Setting → Option String
  | .markup => some "DEMYST_NO_MARKUP"
  | .fullParameters => some "DEMYST_FULL_PARAMS"
  | .cache => some "DEMYST_NO_CACHE"
  | .postprocess => some "DEMYST_NO_POSTPROCESS"
  | .boundary => some "DEMYST_BOUNDARY"
  | .pathStyle => some "DEMYST_PATH_STYLE"
  | .markupStyle => some "DEMYST_MARKUP"
  | .fontSize => some "DEMYST_FONT_SIZE"
  | .continuation | .cacheCapacity | .maxDepth => none

def text? (setting : Setting) (environment : Environment) : Option String := setting.key?.bind environment

def given? (flags : RenderFlags) : (setting : Setting) → Option setting.Value
  | .markup => if flags.plain then some false else none
  | .fullParameters => if flags.fullParameters then some true else none
  | .cache => if flags.noCache then some false else none
  | .postprocess => if flags.noPostprocess then some false else none
  | .boundary => flags.boundary.map some
  | .pathStyle => flags.pathStyle
  | .markupStyle => flags.markupStyle
  | .fontSize => flags.fontSize
  | .continuation => flags.continuation
  | .cacheCapacity | .maxDepth => none

def Affirms (text : String) : Prop :=
  ∃ word ∈ ["1", "true", "yes", "on"], ∃ inner, Text.Pads inner text.toList ∧ Text.Spells word inner

/-- Which values the texts of a setting's variable stand for. -/
def Reads : (setting : Setting) → String → setting.Value → Prop
  | .markup, text, value => Affirms text ∧ value = false
  | .fullParameters, text, value => Affirms text ∧ value = true
  | .cache, text, value => Affirms text ∧ value = false
  | .postprocess, text, value => Affirms text ∧ value = false
  | .boundary, text, value => text ≠ "" ∧ value = some text
  | .pathStyle, text, value =>
    ∃ entry ∈ PathStyle.synonyms, entry.2 = value ∧ ∃ word ∈ entry.1, Text.Spells word text.toList
  | .markupStyle, text, value =>
    ∃ entry ∈ MarkupStyle.synonyms, entry.2 = value ∧ ∃ word ∈ entry.1, Text.Spells word text.toList
  | .fontSize, text, value => ∃ inner, Text.Pads inner text.toList ∧ Text.Numeral inner value.toNat
  | .continuation, _, _ | .cacheCapacity, _, _ | .maxDepth, _, _ => False

def refusal? : Setting → String → Option Failure
  | .pathStyle, text => some (.unknownPathStyle text)
  | .markupStyle, text => some (.unknownMarkupStyle text)
  | .fontSize, text => some (.badFontSize text)
  | _, _ => none

/-- What a setting is set to: what its flag gives, else what its variable stands for, else the default. -/
inductive Layered (environment : Environment) (flags : RenderFlags) (setting : Setting) : setting.Value → Prop
  | flag {value : setting.Value} (given : setting.given? flags = some value) : Layered environment flags setting value
  | held {text : String} {value : setting.Value} (absent : setting.given? flags = none)
      (held : setting.text? environment = some text) (reads : setting.Reads text value) :
      Layered environment flags setting value
  | default (absent : setting.given? flags = none)
      (silent : ∀ text, setting.text? environment = some text → ∀ value, ¬setting.Reads text value) :
      Layered environment flags setting (setting.value {})

/-- A variable that has to be readable, and is not. -/
def Refuses (environment : Environment) (setting : Setting) (failure : Failure) : Prop :=
  ∃ text, setting.text? environment = some text ∧ (∀ value, ¬setting.Reads text value) ∧
    setting.refusal? text = some failure

/-- The first of the settings whose variables have to be readable, in the order in which they are read. -/
def FirstRefuses (environment : Environment) (failure : Failure) : Prop :=
  ∃ before setting behind, [Setting.pathStyle, .markupStyle, .fontSize] = before ++ setting :: behind ∧
    (∀ earlier ∈ before, ∀ other, ¬Refuses environment earlier other) ∧ Refuses environment setting failure

def switched? (effect : Bool) (text : String) : Option Bool :=
  if Text.isOneOf ["1", "true", "yes", "on"] (String.ofList (Text.trim text.toList)) then some effect else none

def read? : (setting : Setting) → String → Option setting.Value
  | .markup => switched? false
  | .fullParameters => switched? true
  | .cache => switched? false
  | .postprocess => switched? false
  | .boundary => fun text => if text = "" then none else some (some text)
  | .pathStyle => Text.lookUp? PathStyle.synonyms
  | .markupStyle => Text.lookUp? MarkupStyle.synonyms
  | .fontSize => fun text => (Text.numeral? UInt32.size (Text.trim text.toList)).map UInt32.ofNat
  | .continuation | .cacheCapacity | .maxDepth => fun _ => none

theorem switched?_eq_some_iff {effect value : Bool} {text : String} :
    switched? effect text = some value ↔ Affirms text ∧ value = effect := by
  have affirms : Text.isOneOf ["1", "true", "yes", "on"] (String.ofList (Text.trim text.toList)) = true ↔
      Affirms text := by
    rw [Text.isOneOf_eq_true_iff, String.toList_ofList]
    refine exists_congr fun word => and_congr_right fun member => ?_
    have plain : ∀ word ∈ ["1", "true", "yes", "on"], word.toList.any Text.isBlank = false := by decide
    constructor
    · intro spelled
      exact ⟨_, Text.pads_trim _, spelled⟩
    · intro ⟨inner, pads, spelled⟩
      rwa [(Text.trim_eq_iff_pads (spelled.solid (plain word member))).2 pads]
  rw [switched?]
  by_cases read : Affirms text
  · rw [if_pos (affirms.2 read), Option.some_inj, and_iff_right read, eq_comm]
  · rw [if_neg (mt affirms.1 read)]
    exact iff_of_false nofun fun both => read both.1

theorem fontSize_eq_some_iff {text : String} {size : UInt32} :
    (Text.numeral? UInt32.size (Text.trim text.toList)).map UInt32.ofNat = some size ↔
      ∃ inner, Text.Pads inner text.toList ∧ Text.Numeral inner size.toNat := by
  rw [Option.map_eq_some_iff]
  constructor
  · intro ⟨number, found, same⟩
    obtain ⟨small, numeral⟩ := Text.numeral?_eq_some_iff.1 found
    rw [← same, UInt32.toNat_ofNat_of_lt' small]
    exact ⟨_, Text.pads_trim _, numeral⟩
  · intro ⟨inner, pads, numeral⟩
    rw [(Text.trim_eq_iff_pads numeral.solid).2 pads]
    exact ⟨size.toNat, Text.numeral?_eq_some_iff.2 ⟨size.toNat_lt, numeral⟩, UInt32.ofNat_toNat⟩

/-- Texts are read as the values that they stand for. -/
theorem read?_eq_some_iff {setting : Setting} {text : String} {value : setting.Value} :
    setting.read? text = some value ↔ setting.Reads text value := by
  cases setting with
  | markup => exact switched?_eq_some_iff
  | fullParameters => exact switched?_eq_some_iff
  | cache => exact switched?_eq_some_iff
  | postprocess => exact switched?_eq_some_iff
  | boundary =>
    change (if text = "" then none else some (some text)) = some value ↔ text ≠ "" ∧ value = some text
    by_cases empty : text = ""
    · simp [empty]
    · rw [if_neg empty, Option.some_inj, and_iff_right empty, eq_comm]
  | pathStyle => exact Text.lookUp?_eq_some_iff (by decide)
  | markupStyle => exact Text.lookUp?_eq_some_iff (by decide)
  | fontSize => exact fontSize_eq_some_iff
  | continuation => exact iff_of_false nofun id
  | cacheCapacity => exact iff_of_false nofun id
  | maxDepth => exact iff_of_false nofun id

def chosen (environment : Environment) (flags : RenderFlags) (setting : Setting) : setting.Value :=
  ((setting.given? flags).or ((setting.text? environment).bind setting.read?)).getD (setting.value {})

def outcome (environment : Environment) : (setting : Setting) → Except Failure setting.Value
  | .pathStyle => environment.read "DEMYST_PATH_STYLE" PathStyle.unix PathStyle.ofText
  | .markupStyle => environment.read "DEMYST_MARKUP" MarkupStyle.rich MarkupStyle.ofText
  | .fontSize => environment.read "DEMYST_FONT_SIZE" 8 Options.fontSizeOfText
  | setting => .ok (setting.chosen environment {})

theorem layered_iff {environment : Environment} {flags : RenderFlags} {setting : Setting} {value : setting.Value} :
    Layered environment flags setting value ↔ value = setting.chosen environment flags := by
  have unread {text : String} : (∀ value, ¬setting.Reads text value) ↔ setting.read? text = none := by
    rw [Option.eq_none_iff_forall_ne_some]
    exact forall_congr' fun value => not_congr read?_eq_some_iff.symm
  rw [chosen]
  constructor
  · intro layered
    cases layered with
    | flag given => rw [given]; rfl
    | held absent held reads => rw [absent, held, Option.bind_some, read?_eq_some_iff.2 reads]; rfl
    | default absent silent =>
      rw [absent]
      cases held : setting.text? environment with
      | none => rfl
      | some text => rw [Option.bind_some, unread.1 (silent text held)]; rfl
  · intro same
    subst same
    cases given : setting.given? flags with
    | some value => exact .flag given
    | none =>
      cases held : setting.text? environment with
      | none => exact .default given fun text other => by cases held.symm.trans other
      | some text =>
        rw [Option.none_or, Option.bind_some]
        cases found : setting.read? text with
        | some value => exact .held given held (read?_eq_some_iff.1 found)
        | none =>
          refine .default given fun other also => ?_
          obtain rfl := Option.some.inj (held.symm.trans also)
          exact unread.2 found

theorem refuses_iff {environment : Environment} {setting : Setting} {failure : Failure} :
    Refuses environment setting failure ↔ ∃ text, setting.text? environment = some text ∧
      setting.read? text = none ∧ setting.refusal? text = some failure := by
  refine exists_congr fun text => and_congr_right fun _ => and_congr_left fun _ => ?_
  rw [Option.eq_none_iff_forall_ne_some]
  exact forall_congr' fun value => not_congr read?_eq_some_iff.symm

end Setting

namespace Environment

variable {α : Type} {environment : Environment} {key : String} {fallback value : α} {read? : String → Option α}
  {refusal : String → Failure} {ofText : String → Except Failure α}

theorem read_eq_error_iff (reads : ∀ text, ofText text = (read? text).elim (.error (refusal text)) .ok)
    {failure : Failure} : environment.read key fallback ofText = .error failure ↔
      ∃ text, environment key = some text ∧ read? text = none ∧ some (refusal text) = some failure := by
  rw [read]
  cases environment key with
  | none => exact iff_of_false nofun nofun
  | some text => cases found : read? text <;> simp [reads, found]

theorem getD_read (reads : ∀ text, ofText text = (read? text).elim (.error (refusal text)) .ok)
    (found : environment.read key fallback ofText = .ok value) (given : Option α) :
    given.getD value = (given.or ((environment key).bind read?)).getD fallback := by
  have held : value = ((environment key).bind read?).getD fallback := by
    rw [read] at found
    cases held : environment key with
    | none =>
      rw [held] at found
      exact (Except.ok.inj found).symm
    | some text =>
      simp only [held, reads] at found
      cases text_ : read? text with
      | none =>
        rw [text_] at found
        cases found
      | some other =>
        rw [text_] at found
        rw [Option.bind_some, text_]
        exact (Except.ok.inj found).symm
  cases given with
  | none => exact held
  | some value => rfl

end Environment

theorem PathStyle.ofText_eq (text : String) : ofText text =
    (Text.lookUp? synonyms text).elim (.error (.unknownPathStyle text)) .ok := by
  rw [ofText]
  cases Text.lookUp? synonyms text <;> rfl

theorem MarkupStyle.ofText_eq (text : String) : ofText text =
    (Text.lookUp? synonyms text).elim (.error (.unknownMarkupStyle text)) .ok := by
  rw [ofText]
  cases Text.lookUp? synonyms text <;> rfl

theorem Options.fontSizeOfText_eq (text : String) : fontSizeOfText text =
    ((Text.numeral? UInt32.size (Text.trim text.toList)).map UInt32.ofNat).elim (.error (.badFontSize text)) .ok := by
  rw [fontSizeOfText]
  cases Text.numeral? UInt32.size (Text.trim text.toList) <;> rfl

namespace Options

open Setting

variable {environment : Environment} {flags : RenderFlags} {options : Options}

theorem bind_switched? {key : String} {effect : Bool} : (environment key).bind (switched? effect) =
    if environment.isOn key then some effect else none := by
  rw [Environment.isOn]
  cases environment key with
  | none => rfl
  | some text => rw [Option.bind_some, switched?]

theorem switch_on {key : String} {flag : Bool} : (environment.isOn key || flag) =
    ((if flag then some true else none).or ((environment key).bind (switched? true))).getD false := by
  rw [bind_switched?]
  cases flag <;> cases environment.isOn key <;> rfl

theorem switch_off {key : String} {flag : Bool} : (!environment.isOn key && !flag) =
    ((if flag then some false else none).or ((environment key).bind (switched? false))).getD true := by
  rw [bind_switched?]
  cases flag <;> cases environment.isOn key <;> rfl

theorem boundary_eq (given held : Option String) : given.or (held.filter (· ≠ "")) =
    ((given.map some).or (held.bind fun text => if text = "" then none else some (some text))).getD none := by
  cases given with
  | some marker => rfl
  | none =>
    cases held with
    | none => rfl
    | some text => by_cases empty : text = "" <;> simp [empty]

theorem value_of_build (built : build environment flags = .ok options) (setting : Setting) :
    setting.value options = setting.chosen environment flags := by
  obtain ⟨read, readable, same⟩ := bind_eq_ok_iff.1 built
  obtain ⟨pathStyle, pathStyleRead, rest⟩ := bind_eq_ok_iff.1 readable
  obtain ⟨markupStyle, markupStyleRead, rest⟩ := bind_eq_ok_iff.1 rest
  obtain ⟨fontSize, fontSizeRead, rest⟩ := bind_eq_ok_iff.1 rest
  cases same
  cases rest
  cases setting with
  | markup => exact switch_off
  | fullParameters => exact switch_on
  | cache => exact switch_off
  | postprocess => exact switch_off
  | boundary => exact boundary_eq _ _
  | pathStyle => exact Environment.getD_read PathStyle.ofText_eq pathStyleRead _
  | markupStyle => exact Environment.getD_read MarkupStyle.ofText_eq markupStyleRead _
  | fontSize => exact Environment.getD_read fontSizeOfText_eq fontSizeRead _
  | continuation => cases given : flags.continuation <;> simp [chosen, value, given?, text?, key?, withFlags, given]
  | cacheCapacity => rfl
  | maxDepth => rfl

theorem refuses_iff_outcome {setting : Setting} {failure : Failure} :
    Refuses environment setting failure ↔ setting.outcome environment = .error failure := by
  cases setting with
  | pathStyle => exact refuses_iff.trans (Environment.read_eq_error_iff PathStyle.ofText_eq).symm
  | markupStyle => exact refuses_iff.trans (Environment.read_eq_error_iff MarkupStyle.ofText_eq).symm
  | fontSize => exact refuses_iff.trans (Environment.read_eq_error_iff fontSizeOfText_eq).symm
  | _ => exact iff_of_false (fun ⟨text, held, unread, refused⟩ => nomatch refused) nofun

theorem readable_iff {setting : Setting} : (∀ failure, ¬Refuses environment setting failure) ↔
    ∃ value, setting.outcome environment = .ok value := by
  simp only [refuses_iff_outcome]
  cases setting.outcome environment <;> simp

theorem build_eq_error_iff {failure : Failure} :
    build environment flags = .error failure ↔ FirstRefuses environment failure := by
  rw [FirstRefuses, exists_first_cons_iff, exists_first_cons_iff, exists_first_cons_iff,
    or_iff_left (mt And.right not_exists_first_nil), readable_iff, readable_iff]
  simp only [refuses_iff_outcome, outcome]
  rw [build, ofEnvironment]
  simp only [bind_eq_error_iff, exists_and_right, pure, Except.pure, reduceCtorEq, and_false, or_false, exists_false]

/-- Nothing else fails than the variables that have to be readable. -/
theorem exists_build_iff : (∃ options, build environment flags = .ok options) ↔
    ∀ setting failure, ¬Refuses environment setting failure := by
  simp only [readable_iff]
  constructor
  · intro ⟨options, built⟩ setting
    obtain ⟨read, readable, -⟩ := bind_eq_ok_iff.1 built
    obtain ⟨pathStyle, pathStyleRead, rest⟩ := bind_eq_ok_iff.1 readable
    obtain ⟨markupStyle, markupStyleRead, rest⟩ := bind_eq_ok_iff.1 rest
    obtain ⟨fontSize, fontSizeRead, -⟩ := bind_eq_ok_iff.1 rest
    cases setting with
    | pathStyle => exact ⟨pathStyle, pathStyleRead⟩
    | markupStyle => exact ⟨markupStyle, markupStyleRead⟩
    | fontSize => exact ⟨fontSize, fontSizeRead⟩
    | _ => exact ⟨_, rfl⟩
  · intro readable
    obtain ⟨pathStyle, pathStyleRead⟩ := readable .pathStyle
    obtain ⟨markupStyle, markupStyleRead⟩ := readable .markupStyle
    obtain ⟨fontSize, fontSizeRead⟩ := readable .fontSize
    rw [build, ofEnvironment]
    simp only [bind_eq_ok_iff, pure, Except.pure, Except.ok.injEq]
    exact ⟨_, _, ⟨pathStyle, pathStyleRead, markupStyle, markupStyleRead, fontSize, fontSizeRead, rfl⟩, rfl⟩

theorem ext_value {other : Options} (same : ∀ setting : Setting, setting.value options = setting.value other) :
    options = other := by
  cases options
  cases other
  congr
  · exact same .markup
  · exact same .fullParameters
  · exact same .cache
  · exact same .postprocess
  · exact same .boundary
  · exact same .pathStyle
  · exact same .markupStyle
  · exact same .fontSize
  · exact same .continuation
  · exact same .cacheCapacity
  · exact same .maxDepth

end Options

open Setting

/-- Options in layers. They cannot be made exactly where a variable that has to be readable is not, whatever the flags
are, and the first such variable is told. Otherwise each of them is what its flag gives, else what its own variable
stands for, else its default; so two runs that agree on the flag and the variable of an option agree on the option. -/
theorem options_layered (environment : Environment) (flags : RenderFlags) :
    (∀ failure, Options.build environment flags = .error failure ↔ FirstRefuses environment failure) ∧
    (∀ options, Options.build environment flags = .ok options ↔
      (∀ setting failure, ¬Refuses environment setting failure) ∧
        ∀ setting, Layered environment flags setting (setting.value options)) ∧
    ∀ options other others otherFlags, Options.build environment flags = .ok options →
      Options.build other otherFlags = .ok others → ∀ setting : Setting,
        setting.text? other = setting.text? environment → setting.given? otherFlags = setting.given? flags →
          setting.value others = setting.value options := by
  refine ⟨fun failure => Options.build_eq_error_iff, fun options => ?_, ?_⟩
  · constructor
    · intro built
      refine ⟨Options.exists_build_iff.1 ⟨options, built⟩, fun setting => ?_⟩
      exact layered_iff.2 (Options.value_of_build built setting)
    · intro ⟨readable, layered⟩
      obtain ⟨others, built⟩ := Options.exists_build_iff.2 readable
      rw [built]
      apply congrArg
      apply Options.ext_value
      intro setting
      rw [Options.value_of_build built setting, layered_iff.1 (layered setting)]
  · intro options other others otherFlags built otherBuilt setting sameText sameFlag
    rw [Options.value_of_build built, Options.value_of_build otherBuilt, chosen, chosen, sameText, sameFlag]

/-- A size with blanks around it, a style that gives way to a flag, and a marker that is empty. Without the size nothing
can be made of a style that does not exist, whatever the flag says. -/
theorem options_layered_of_both :
    let environment : Environment := ([("DEMYST_FONT_SIZE", " +12\n"), ("DEMYST_NO_MARKUP", "Yes"),
      ("DEMYST_MARKUP", "TERM"), ("DEMYST_BOUNDARY", "")].lookup ·)
    let other : Environment := ([("DEMYST_FONT_SIZE", " +12\n"), ("DEMYST_PATH_STYLE", "posix")].lookup ·)
    let bad : Environment := ([("DEMYST_FONT_SIZE", "x"), ("DEMYST_MARKUP", "bold")].lookup ·)
    let flags : RenderFlags := { markupStyle := some .rich, fullParameters := true, boundary := some "" }
    let options : Options := { markup := false, fullParameters := true, boundary := some "", fontSize := 12 }
    Options.build environment flags = .ok options ∧ Layered environment flags .fontSize (12 : UInt32) ∧
      (∀ others, Options.build other {} = .ok others → others.fontSize = 12) ∧
      FirstRefuses bad (.unknownMarkupStyle "bold") := by
  intro environment other bad flags options
  have built : Options.build environment flags = .ok options := by decide +kernel
  have refused : Options.build bad flags = .error (.unknownMarkupStyle "bold") := by decide +kernel
  obtain ⟨-, layered, apart⟩ := options_layered environment flags
  refine ⟨built, ((layered options).1 built).2 .fontSize, fun others otherBuilt => ?_, ?_⟩
  · exact apart options other others {} built otherBuilt .fontSize rfl rfl
  · exact ((options_layered bad flags).1 _).1 refused

end Backtrace
