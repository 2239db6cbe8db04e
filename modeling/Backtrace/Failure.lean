import Backtrace.Method
import Backtrace.Line

/-! What can go wrong between a recorded trace and its text, and how it is told. -/
namespace Backtrace

inductive Stage
  | resolution (method : MethodId)
  | formatting
  | transform (line : Nat)
  | aggregation
  | argument

namespace Stage

def tell (detail : String) : Stage → String
  | .resolution method => "Failed to resolve method " ++ method.text ++ ": " ++ detail
  | .formatting => "Failed to format frame: " ++ detail
  | .transform line => "Failed to post-process line " ++ Text.decimalText line ++ ": " ++ detail
  | .aggregation => "Failed to aggregate exception chain: " ++ detail
  | .argument => "Invalid argument: " ++ detail

end Stage

inductive Failure
  | stripped (method : MethodId)
  | repeatedMethod (method : MethodId)
  | unknownMethod (method : MethodId)
  | linkCycle (method : MethodId)
  | unknownFrameMethod (method : MethodId)
  | unknownPathStyle (text : String)
  | unknownMarkupStyle (text : String)
  | badFontSize (text : String)
  | region (line : Nat) (fault : RegionFault)
  | longChain (type : String) (limit : Nat)
deriving DecidableEq

namespace Failure

def stage : Failure → Stage
  | .stripped method => .resolution method
  | .region line _ => .transform line
  | .longChain _ _ => .aggregation
  | .repeatedMethod _ | .unknownMethod _ | .linkCycle _ | .unknownFrameMethod _ => .argument
  | .unknownPathStyle _ | .unknownMarkupStyle _ | .badFontSize _ => .argument

def detail : Failure → String
  | .stripped _ => "parameter metadata stripped"
  | .repeatedMethod method => "Duplicate method id " ++ method.text
  | .unknownMethod method => "Unknown method id " ++ method.text
  | .linkCycle method => "Method link cycle through " ++ method.text
  | .unknownFrameMethod method => "Frame refers to unknown method " ++ method.text
  | .unknownPathStyle text => "Unknown path style: " ++ text ++ ". Use 'unix', 'windows' or 'preserve'"
  | .unknownMarkupStyle text => "Unknown markup style: " ++ text ++ ". Use 'rich' or 'ansi'"
  | .badFontSize text => "Invalid font size: " ++ text
  | .region _ fault => fault.reason
  | .longChain type limit =>
    "cause chain of " ++ type ++ " exceeds " ++ Text.decimalText limit ++ " exceptions"

def message (failure : Failure) : String := failure.stage.tell failure.detail

end Failure

end Backtrace
