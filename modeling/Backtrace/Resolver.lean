import Backtrace.Cache
import Backtrace.Resolved
import Backtrace.Options

/-! Resolving frames, with or without a cache of resolved methods. -/
namespace Backtrace

/-- Without a cache each method is resolved anew, and each result is a value of its own. -/
inductive Resolver
  | cached (cache : Cache MethodId ResolvedMethod)
  | direct (next : Nat)

namespace Resolver

def ofOptions (options : Options) : Resolver :=
  if options.cache then .cached (.ofCapacity options.cacheCapacity) else .direct 0

def cache? : Resolver → Option (Cache MethodId ResolvedMethod)
  | .cached cache => some cache
  | .direct _ => none

def clear : Resolver → Resolver
  | .cached cache => .cached cache.clear
  | .direct next => .direct next

def method (resolver : Resolver) (held : List Nat) (method : Method) :
    Except Failure (Cell ResolvedMethod) × Resolver :=
  match resolver with
  | .cached cache =>
    let (result, cache) := cache.fetch held method.id fun _ => method.resolve
    (result, .cached cache)
  | .direct next =>
    match method.resolve with
    | .ok shown => (.ok ⟨next, shown⟩, .direct (next + 1))
    | .error failure => (.error failure, .direct next)

/-- Resolves a frame; one without a method, or whose method cannot be resolved, is shown by its raw
text. Gives the token that the frame holds, if any. -/
def frame (resolver : Resolver) (held : List Nat) (raw : RawFrame) : ResolvedFrame × List Nat × Resolver :=
  match raw.method, raw.unresolved with
  | some method, false =>
    match resolver.method held method with
    | (.ok cell, resolver) => (.method cell.value raw.location, [cell.token], resolver)
    | (.error _, resolver) => (.raw raw.text, [], resolver)
  | _, _ => (.raw raw.text, [], resolver)

/-- Resolves frames in order. The methods of the earlier ones are held meanwhile. Gives the tokens that
the frames hold. -/
def frames (resolver : Resolver) (held : List Nat) : List RawFrame → List ResolvedFrame × List Nat × Resolver
  | [] => ([], [], resolver)
  | raw :: raws =>
    let (shown, token, resolver) := resolver.frame held raw
    let (rest, tokens, resolver) := frames resolver (token ++ held) raws
    (shown :: rest, token ++ tokens, resolver)

end Resolver

end Backtrace
