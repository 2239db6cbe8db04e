import Backtrace.Proofs.Cache
import Backtrace.Resolver
import Mathlib.Data.List.Forall2

/-!
What is known of every method that a resolver gives. A cache gives back what was put into it, so what
holds of each result of resolving holds of each frame that is resolved, whatever was asked for before.
-/
namespace Backtrace

namespace Cache

variable {κ α : Type}

def Holds (P : α → Prop) (cache : Cache κ α) : Prop := ∀ entry ∈ cache.entries, P entry.2.value

end Cache

namespace Resolver

variable {P : ResolvedMethod → Prop} {resolver : Resolver}

def Keeps (R : MethodId → ResolvedMethod → Prop) : Resolver → Prop
  | .cached cache => cache.Keeps R
  | .direct _ => True

def Holds (P : ResolvedMethod → Prop) : Resolver → Prop
  | .cached cache => cache.Holds P
  | .direct _ => True

theorem Holds.keeps (kept : resolver.Holds P) : resolver.Keeps fun _ => P := by
  cases resolver <;> exact kept

theorem Keeps.holds (keeps : resolver.Keeps fun _ => P) : resolver.Holds P := by
  cases resolver <;> exact keeps

theorem keeps_ofOptions {R : MethodId → ResolvedMethod → Prop} (options : Options) : (ofOptions options).Keeps R := by
  unfold ofOptions
  split
  · exact Cache.keeps_ofCapacity _
  · trivial

theorem holds_of_forall (resolver : Resolver) (all : ∀ shown, P shown) : resolver.Holds P := by
  cases resolver with
  | cached cache => exact fun entry _ => all entry.2.value
  | direct next => trivial

theorem holds_ofOptions (options : Options) : (ofOptions options).Holds P := (keeps_ofOptions options).holds

/-- A raw frame whose method, if it can be resolved, is shown as it should be. -/
def Suits (P : ResolvedMethod → Prop) (raw : RawFrame) : Prop :=
  ∀ method shown, raw.method = some method → method.resolve = .ok shown → P shown

inductive Shows (P : ResolvedMethod → Prop) (raw : RawFrame) : ResolvedFrame → Prop
  | raw : Shows P raw (.raw raw.text)
  | method {shown : ResolvedMethod} (good : P shown) : Shows P raw (.method shown raw.location)

theorem Keeps.method {R : MethodId → ResolvedMethod → Prop} {method : Method} (keeps : resolver.Keeps R)
    (held : List Nat) (right : ∀ shown, method.resolve = .ok shown → R method.id shown) :
    (∀ cell, (resolver.method held method).1 = .ok cell → R method.id cell.value) ∧
      (resolver.method held method).2.Keeps R := by
  unfold Resolver.method
  cases resolver with
  | cached cache => exact Cache.Keeps.fetch keeps held method.id right
  | direct next =>
    cases resolved : method.resolve with
    | error failure => exact ⟨fun _ same => (by cases same), trivial⟩
    | ok shown => exact ⟨fun _ same => Except.ok.inj same ▸ right shown resolved, trivial⟩

theorem Holds.method {method : Method} (kept : resolver.Holds P) (held : List Nat)
    (good : ∀ shown, method.resolve = .ok shown → P shown) :
    (∀ cell, (resolver.method held method).1 = .ok cell → P cell.value) ∧
      (resolver.method held method).2.Holds P :=
  (kept.keeps.method held good).imp id Keeps.holds

theorem Holds.frame {raw : RawFrame} (kept : resolver.Holds P) (held : List Nat) (suits : Suits P raw) :
    Shows P raw (resolver.frame held raw).1 ∧ (resolver.frame held raw).2.2.Holds P := by
  unfold Resolver.frame
  split
  · next method present _ =>
    obtain ⟨shown, rest⟩ := Holds.method kept held fun result => suits method result present
    split
    · next cell after found =>
      rw [found] at shown rest
      exact ⟨.method (shown cell rfl), rest⟩
    · next failure after found =>
      rw [found] at rest
      exact ⟨.raw, rest⟩
  · exact ⟨.raw, kept⟩

/-- Each frame of a list is shown as it should be, in order, and so are those that are asked for later. -/
theorem Holds.frames {raws : List RawFrame} (kept : resolver.Holds P) (held : List Nat)
    (suits : ∀ raw ∈ raws, Suits P raw) :
    List.Forall₂ (Shows P) raws (resolver.frames held raws).1 ∧ (resolver.frames held raws).2.2.Holds P := by
  induction raws generalizing resolver held with
  | nil => exact ⟨.nil, kept⟩
  | cons raw raws ih =>
    obtain ⟨first, others⟩ := List.forall_mem_cons.1 suits
    obtain ⟨shown, next⟩ := Holds.frame kept held first
    obtain ⟨rest, last⟩ := ih next ((resolver.frame held raw).2.1 ++ held) others
    exact ⟨.cons shown rest, last⟩

end Resolver

end Backtrace
