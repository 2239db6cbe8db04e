import Mathlib.Data.List.Basic
import Backtrace.Method.Table
import Backtrace.Render
import Backtrace.Resolved

/-!
The kinds of members. A constructor is known by the name of its host, on every way on which that is found: the
method's own name, a link, the name of a machine's type. A closure has no kind of its own, so one in a constructor is
shown as a closure of a method.
-/
namespace Backtrace

namespace MemberKind

/-- Whether a kind is that of a host of a name. -/
def Fits (kind : MemberKind) (name : String) : Prop :=
  (kind = .constructor ↔ name = ".ctor") ∧ (kind = .staticConstructor ↔ name = ".cctor") ∧
    (kind = .method ↔ name ≠ ".ctor" ∧ name ≠ ".cctor")

theorem fits_iff {kind : MemberKind} {name : String} : kind.Fits name ↔ kind = .ofName name := by
  unfold Fits ofName
  by_cases instance_ : name = ".ctor"
  · subst instance_
    cases kind <;> simp
  · by_cases static : name = ".cctor"
    · subst static
      cases kind <;> simp
    · cases kind <;> simp [instance_, static]

end MemberKind

namespace Method

variable {method : Method} {shown : ResolvedMethod}

/-- What the source of a method settles of what is shown: the host's name, whether there is a closure in it, and its
kind. -/
theorem resolve_host (resolved : method.resolve = .ok shown) :
    shown.name = (Origin.of method).name ∧ shown.isLambda = (Origin.of method).closure.isSome ∧
      shown.kind = if shown.isLambda then .method else .ofName shown.name := by
  unfold resolve at resolved
  cases parameters : targetParameters? (Origin.of method) with
  | error failure => simp [parameters, bind, Except.bind] at resolved
  | ok parameters' =>
    simp only [parameters, bind, Except.bind] at resolved
    cases closure : (Origin.of method).closure with
    | some closure' =>
      simp only [closure, pure, Except.pure] at resolved
      cases resolved
      exact ⟨rfl, rfl, rfl⟩
    | none =>
      simp only [closure, pure, Except.pure] at resolved
      cases resolved
      exact ⟨rfl, rfl, rfl⟩

theorem fits_of_resolve (resolved : method.resolve = .ok shown) :
    shown.kind.Fits shown.name ↔ (shown.isLambda = true → shown.name ≠ ".ctor" ∧ shown.name ≠ ".cctor") := by
  obtain ⟨-, -, kind⟩ := resolve_host resolved
  cases lambda : shown.isLambda with
  | false =>
    rw [lambda, if_neg Bool.false_ne_true] at kind
    exact iff_of_true (MemberKind.fits_iff.2 kind) (by simp)
  | true =>
    rw [lambda, if_pos rfl] at kind
    rw [MemberKind.Fits, kind]
    simp only [reduceCtorEq, false_iff, true_iff, forall_const]
    exact ⟨And.right ∘ And.right, fun plain => ⟨plain.1, plain.2, plain⟩⟩

theorem memberPieces_of_closure (resolved : method.resolve = .ok shown) (lambda : shown.isLambda = true)
    (filled : shown.name ≠ "") (renderer : Renderer) : Span.text shown.name ∈ renderer.memberPieces shown := by
  obtain ⟨-, -, kind⟩ := resolve_host resolved
  rw [lambda, if_pos rfl] at kind
  have called : orPlaceholder shown.name = shown.name := if_neg filled
  simp [Renderer.memberPieces, kind, Renderer.methodPieces, called]

theorem memberPieces_of_constructor (resolved : method.resolve = .ok shown) (plain : shown.isLambda = false)
    (constructor_ : shown.name = ".ctor" ∨ shown.name = ".cctor") (renderer : Renderer) :
    ∃ word, renderer.memberPieces shown = renderer.constructorPieces word shown := by
  obtain ⟨-, -, kind⟩ := resolve_host resolved
  rw [plain, if_neg Bool.false_ne_true] at kind
  rcases constructor_ with called | called
  · refine ⟨"new ", ?_⟩
    simp [Renderer.memberPieces, kind, called, MemberKind.ofName]
  · refine ⟨"static ", ?_⟩
    simp [Renderer.memberPieces, kind, called, MemberKind.ofName]

end Method

/-- The kind of a member fits the name of its host exactly where no closure in a constructor runs. A constructor is
then shown by its type; with a closure it is shown by the name that its metadata has. -/
theorem kind_fits_host_iff {method : Method} {shown : ResolvedMethod} (resolved : method.resolve = .ok shown) :
    (shown.kind.Fits shown.name ↔ (shown.isLambda = true → shown.name ≠ ".ctor" ∧ shown.name ≠ ".cctor")) ∧
    ∀ renderer : Renderer, shown.name = ".ctor" ∨ shown.name = ".cctor" →
      (shown.isLambda = false → ∃ word, renderer.memberPieces shown = renderer.constructorPieces word shown) ∧
      (shown.isLambda = true → Span.text shown.name ∈ renderer.memberPieces shown) := by
  refine ⟨Method.fits_of_resolve resolved, fun renderer host => ⟨fun plain => ?_, fun lambda => ?_⟩⟩
  · exact Method.memberPieces_of_constructor resolved plain host renderer
  · refine Method.memberPieces_of_closure resolved lambda ?_ renderer
    rcases host with called | called <;> simp [called]

/-- A type initializer that is led back to from the type of its state machine. -/
theorem kind_fits_initializer :
    let machine := (TypeRef.named "<.cctor>d__1").nestedIn (.qualified "App" "Widget")
    let method : Method := {
      id := ⟨1⟩, name := "MoveNext", declaringType := some machine, synthesis := .iteratorMachine none }
    let shown : ResolvedMethod := { declaringType := some "App.Widget", name := ".cctor", kind := .staticConstructor }
    method.resolve = .ok shown ∧ shown.kind.Fits shown.name := by
  intro machine method shown
  have resolved : method.resolve = .ok shown := by decide +kernel
  exact ⟨resolved, (kind_fits_host_iff resolved).1.2 (by simp [shown])⟩

/-- A lambda in a constructor. -/
theorem closure_in_constructor_is_method :
    let record : MethodRecord := { id := ⟨1⟩, name := "<.ctor>b__0_0", declaringType := some (.named "Widget") }
    let lambda : Method := { record with }
    let shown : ResolvedMethod := {
      declaringType := some "Widget", name := ".ctor", isLambda := true, ordinal := some 0
      subName := some "<.ctor>b__0_0", subParameters := some [] }
    MethodTable.build [record] = .ok ⟨[lambda]⟩ ∧ lambda.resolve = .ok shown ∧ shown.kind = .method ∧
      (Renderer.mk false false).plain (.method shown none) = "Widget..ctor()+<.ctor>b__0_0()=>\x7b…\x7d [0]" := by
  intro record lambda shown
  exact ⟨by cbv, by decide +kernel, rfl, by decide⟩

end Backtrace
