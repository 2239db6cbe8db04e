import Backtrace.Failure
import Backtrace.Text

/-! The options of a trace: their defaults, and what the environment and the command line make of them. -/
namespace Backtrace

inductive PathStyle
  | unix
  | windows
  | preserve
deriving DecidableEq

namespace PathStyle

def synonyms : List (List String × PathStyle) :=
  [(["unix", "posix", "forward"], .unix), (["windows", "win", "backward"], .windows),
    (["preserve", "none", "native"], .preserve)]

def ofText (text : String) : Except Failure PathStyle :=
  match Text.lookUp? synonyms text with
  | some style => .ok style
  | none => .error (.unknownPathStyle text)

def name : PathStyle → String
  | .unix => "unix"
  | .windows => "windows"
  | .preserve => "preserve"

end PathStyle

inductive MarkupStyle
  | rich
  | ansi
deriving DecidableEq

namespace MarkupStyle

def synonyms : List (List String × MarkupStyle) :=
  [(["rich", "tags", "unity"], .rich), (["ansi", "terminal", "term"], .ansi)]

def ofText (text : String) : Except Failure MarkupStyle :=
  match Text.lookUp? synonyms text with
  | some style => .ok style
  | none => .error (.unknownMarkupStyle text)

def name : MarkupStyle → String
  | .rich => "rich"
  | .ansi => "ansi"

end MarkupStyle

structure Options where
  /-- Lines carry the marks of their regions. -/
  markup : Bool := true
  /-- Parameters are written with type and name. -/
  fullParameters : Bool := false
  /-- Resolved methods are kept for later frames. -/
  cache : Bool := true
  /-- Decorated text is turned into final text. -/
  postprocess : Bool := true
  /-- Lines are dropped from the first frame that starts with this. -/
  boundary : Option String := none
  pathStyle : PathStyle := .unix
  markupStyle : MarkupStyle := .rich
  /-- The size of the file region in rich markup. -/
  fontSize : UInt32 := 8
  /-- What each final line starts with. -/
  continuation : String := "│ "
  cacheCapacity : Nat := 256
  /-- How many exceptions a chain may have. -/
  maxDepth : Nat := 64
deriving DecidableEq

abbrev Environment := String → Option String

namespace Environment

def isOn (environment : Environment) (key : String) : Bool :=
  match environment key with
  | some value => Text.isOneOf ["1", "true", "yes", "on"] (String.ofList (Text.trim value.toList))
  | none => false

def read (environment : Environment) (key : String) (fallback : α) (ofText : String → Except Failure α) :
    Except Failure α :=
  match environment key with
  | some text => ofText text
  | none => .ok fallback

end Environment

namespace Options

def fontSizeOfText (text : String) : Except Failure UInt32 :=
  match Text.numeral? UInt32.size (Text.trim text.toList) with
  | some size => .ok (UInt32.ofNat size)
  | none => .error (.badFontSize text)

/-- The defaults with what the environment sets. The first unreadable variable is reported. -/
def ofEnvironment (environment : Environment) : Except Failure Options := do
  let pathStyle ← environment.read "DEMYST_PATH_STYLE" PathStyle.unix PathStyle.ofText
  let markupStyle ← environment.read "DEMYST_MARKUP" MarkupStyle.rich MarkupStyle.ofText
  let fontSize ← environment.read "DEMYST_FONT_SIZE" 8 fontSizeOfText
  return {
    markup := !environment.isOn "DEMYST_NO_MARKUP"
    fullParameters := environment.isOn "DEMYST_FULL_PARAMS"
    cache := !environment.isOn "DEMYST_NO_CACHE"
    postprocess := !environment.isOn "DEMYST_NO_POSTPROCESS"
    boundary := (environment "DEMYST_BOUNDARY").filter (· ≠ "")
    pathStyle, markupStyle, fontSize }

end Options

structure RenderFlags where
  fullParameters : Bool := false
  plain : Bool := false
  noCache : Bool := false
  noPostprocess : Bool := false
  boundary : Option String := none
  pathStyle : Option PathStyle := none
  markupStyle : Option MarkupStyle := none
  fontSize : Option UInt32 := none
  continuation : Option String := none

namespace Options

/-- Flags win over what was set before. -/
def withFlags (options : Options) (flags : RenderFlags) : Options :=
  { options with
    markup := options.markup && !flags.plain
    fullParameters := options.fullParameters || flags.fullParameters
    cache := options.cache && !flags.noCache
    postprocess := options.postprocess && !flags.noPostprocess
    boundary := flags.boundary.or options.boundary
    pathStyle := flags.pathStyle.getD options.pathStyle
    markupStyle := flags.markupStyle.getD options.markupStyle
    fontSize := flags.fontSize.getD options.fontSize
    continuation := flags.continuation.getD options.continuation }

def build (environment : Environment) (flags : RenderFlags) : Except Failure Options := do
  return (← ofEnvironment environment).withFlags flags

end Options

end Backtrace
