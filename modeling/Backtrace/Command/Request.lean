import Backtrace.Options

/-!
What a command line asks for: its flags, and the command between them. A flag may stand on either side of the command
and once on each side; behind a separator there are only words.
-/
namespace Backtrace

/-! ### The log -/

inductive LogFormat
  | pretty
  | json
deriving DecidableEq

namespace LogFormat

def synonyms : List (List String × LogFormat) :=
  [(["pretty", "dev", "development"], .pretty), (["json", "prod", "production"], .json)]

def ofText? (text : String) : Option LogFormat := Text.lookUp? synonyms text

def name : LogFormat → String
  | .pretty => "pretty"
  | .json => "json"

def refusal (text : String) : String := "Unknown log format: " ++ text ++ ". Use 'pretty' or 'json'"

end LogFormat

inductive LogLevel
  | error
  | warn
  | info
  | debug
  | trace
deriving DecidableEq

namespace LogLevel

def synonyms : List (List String × LogLevel) :=
  [(["error", "err"], .error), (["warn", "warning"], .warn), (["info"], .info), (["debug", "dbg"], .debug),
    (["trace"], .trace)]

def ofText? (text : String) : Option LogLevel := Text.lookUp? synonyms text

def name : LogLevel → String
  | .error => "error"
  | .warn => "warn"
  | .info => "info"
  | .debug => "debug"
  | .trace => "trace"

def refusal (text : String) : String :=
  "Unknown log level: " ++ text ++ ". Use 'error', 'warn', 'info', 'debug', or 'trace'"

end LogLevel

/-! ### Flags -/

inductive Flag
  | fullParameters
  | plain
  | noCache
  | noPostprocess
  | boundary (marker : String)
  | pathStyle (style : PathStyle)
  | markup (style : MarkupStyle)
  | fontSize (size : UInt32)
  | continuation (marker : String)
  | logLevel (level : LogLevel)
  | logFormat (format : LogFormat)
deriving DecidableEq

namespace Flag

def name : Flag → String
  | .fullParameters => "full-params"
  | .plain => "plain"
  | .noCache => "no-cache"
  | .noPostprocess => "no-postprocess"
  | .boundary _ => "boundary"
  | .pathStyle _ => "path-style"
  | .markup _ => "markup"
  | .fontSize _ => "font-size"
  | .continuation _ => "continuation"
  | .logLevel _ => "log-level"
  | .logFormat _ => "log-format"

def switch? (name : String) : Option Flag :=
  [Flag.fullParameters, .plain, .noCache, .noPostprocess].find? (·.name = name)

/-- A whole number below 2^32, perhaps with a sign; minus zero is zero. -/
def size? (text : String) : Option UInt32 :=
  let value := match text.toList with
    | '-' :: digits => (Text.decimal? digits).filter (· = 0)
    | numeral => Text.numeral? UInt32.size numeral
  value.map UInt32.ofNat

def settings : List (String × (String → Option Flag)) := [
  ("boundary", fun value => some (.boundary value)),
  ("path-style", fun value => (Text.lookUp? PathStyle.synonyms value).map .pathStyle),
  ("markup", fun value => (Text.lookUp? MarkupStyle.synonyms value).map .markup),
  ("font-size", fun value => (size? value).map .fontSize),
  ("continuation", fun value => some (.continuation value)),
  ("log-level", fun value => (LogLevel.ofText? value).map .logLevel),
  ("log-format", fun value => (LogFormat.ofText? value).map .logFormat)]

def apply (flags : RenderFlags) : Flag → RenderFlags
  | .fullParameters => { flags with fullParameters := true }
  | .plain => { flags with plain := true }
  | .noCache => { flags with noCache := true }
  | .noPostprocess => { flags with noPostprocess := true }
  | .boundary marker => { flags with boundary := some marker }
  | .pathStyle style => { flags with pathStyle := some style }
  | .markup style => { flags with markupStyle := some style }
  | .fontSize size => { flags with fontSize := some size }
  | .continuation marker => { flags with continuation := some marker }
  | .logLevel _ => flags
  | .logFormat _ => flags

end Flag

def RenderFlags.ofFlags (flags : List Flag) : RenderFlags := flags.foldl Flag.apply {}

inductive Argument
  | separator
  | long (name : String) (value : Option String)
  | short (letter : Char)
  | word

namespace Argument

def ofText (text : String) : Argument :=
  match text.toList with
  | ['-', '-'] => .separator
  | '-' :: '-' :: rest =>
    match Text.around? '=' rest with
    | some (name, value) => .long (String.ofList name) (some (String.ofList value))
    | none => .long (String.ofList rest) none
  | '-' :: letter :: _ => .short letter
  | _ => .word

end Argument

/-! ### Commands -/

inductive Command
  | render (file : String)
  | frames (file : String)
  | postprocess (input : String)
deriving DecidableEq

inductive UsageFault
  | unknownFlag (text : String)
  | missingValue (flag : String)
  | badValue (flag value : String)
  | needlessValue (flag : String)
  | repeatedFlag (flag : String)
  | noCommand
  | unknownCommand (text : String)
  | noOperand
  | badOperand
  | extraOperand (text : String)
deriving DecidableEq

namespace UsageFault

def message : UsageFault → String
  | .unknownFlag text => "unknown flag " ++ text
  | .missingValue flag => "a value is missing for --" ++ flag
  | .badValue flag value => "invalid value " ++ value ++ " for --" ++ flag
  | .needlessValue flag => "--" ++ flag ++ " takes no value"
  | .repeatedFlag flag => "--" ++ flag ++ " is given more than once"
  | .noCommand => "a command is missing"
  | .unknownCommand text => "unknown command " ++ text
  | .noOperand => "a file is missing"
  | .badOperand => "the name of a file is empty"
  | .extraOperand text => "unexpected argument " ++ text

end UsageFault

/-- A part of a command line. What stands behind a fault counts for nothing. -/
inductive Item
  | flag (flag : Flag)
  | word (text : String)
  | separator
  | help
  | version
  | fault (fault : UsageFault)
deriving DecidableEq

namespace Item

def ofSetting (name : String) (read : String → Option Flag) (value : String) : Item :=
  match read value with
  | some given => .flag given
  | none => .fault (.badValue name value)

def ofName (name : String) : Item :=
  match name with
  | "help" => .help
  | "version" => .version
  | _ =>
    match Flag.switch? name with
    | some switch => .flag switch
    | none => .fault (.unknownFlag ("--" ++ name))

def ofAssigned (name value : String) : Item :=
  match Flag.settings.lookup name with
  | some read => ofSetting name read value
  | none =>
    match ofName name with
    | .fault unknown => .fault unknown
    | _ => .fault (.needlessValue name)

def ofLetter : Char → Item
  | 'h' => .help
  | 'V' => .version
  | letter => .fault (.unknownFlag (String.ofList ['-', letter]))

end Item

/-- The items of a command line. A value that is an argument of its own does not look like a flag. -/
def items : List String → List Item
  | [] => []
  | text :: rest =>
    match Argument.ofText text with
    | .separator => .separator :: rest.map .word
    | .word => .word text :: items rest
    | .short letter => .ofLetter letter :: items rest
    | .long name (some value) => .ofAssigned name value :: items rest
    | .long name none =>
      match Flag.settings.lookup name with
      | none => .ofName name :: items rest
      | some read =>
        match rest with
        | [] => [.fault (.missingValue name)]
        | value :: rest =>
          match Argument.ofText value with
          | .word => .ofSetting name read value :: items rest
          | _ => [.fault (.missingValue name)]

structure Invocation where
  command : Command
  flags : List Flag
deriving DecidableEq

inductive Request
  | run (invocation : Invocation)
  | help
  | version
deriving DecidableEq

namespace Command

def onFile (command : String → Command) (file : String) : Except UsageFault Command :=
  if file = "" then .error .badOperand else .ok (command file)

def named : List (String × (String → Except UsageFault Command)) := [
  ("render", onFile .render),
  ("frames", onFile .frames),
  ("postprocess", fun input => .ok (.postprocess input))]

end Command

namespace Request

def addFlag (side : List Flag) (flag : Flag) : Except UsageFault (List Flag) :=
  if side.any (·.name = flag.name) then .error (.repeatedFlag flag.name) else .ok (side ++ [flag])

/-- Reads what follows a command: `before` and `side` are the flags on its two sides so far, and `asked`
is the command once it has its operand. -/
def afterCommand (command : String → Except UsageFault Command) (before : List Flag) :
    (side : List Flag) → (asked : Option Command) → List Item → Except UsageFault Request
  | _, none, [] => .error .noOperand
  | side, some asked, [] => .ok (.run ⟨asked, before ++ side⟩)
  | side, asked, .flag flag :: rest => do afterCommand command before (← addFlag side flag) asked rest
  | side, none, .word text :: rest => do afterCommand command before side (some (← command text)) rest
  | _, some _, .word text :: _ => .error (.extraOperand text)
  | side, asked, .separator :: rest => afterCommand command before side asked rest
  | _, _, .help :: _ => .ok .help
  | _, _, .version :: _ => .error (.unknownFlag "version")
  | _, _, .fault fault :: _ => .error fault

def onHelp : List Item → Except UsageFault Request
  | [] => .ok .help
  | [.word text] =>
    if text = "help" ∨ (Command.named.lookup text).isSome then .ok .help else .error (.unknownCommand text)
  | _ => .error .noCommand

def beforeCommand (side : List Flag) : List Item → Except UsageFault Request
  | [] => .error .noCommand
  | .flag flag :: rest => do beforeCommand (← addFlag side flag) rest
  | .word text :: rest =>
    match Command.named.lookup text with
    | some command => afterCommand command side [] none rest
    | none => if text = "help" then onHelp rest else .error (.unknownCommand text)
  | .separator :: _ => .error .noCommand
  | .help :: _ => .ok .help
  | .version :: _ => .ok .version
  | .fault fault :: _ => .error fault

def ofArguments (arguments : List String) : Except UsageFault Request := beforeCommand [] (items arguments)

end Request

end Backtrace
