import Bundler.Fault.Basic
import Bundler.Hook.Phase

/-!
# Hooks

A hook holds callbacks under labels and calls them in the order in which they were added. A call that
is under way does not see callbacks added by it. What a callback does is up to whoever calls the hook.
-/

namespace Bundler

structure Tap (κ : Type) where
  label : String
  callback : κ
  deriving DecidableEq, Repr

/-- An ordered list of callbacks, and the names of what a call hands to them. -/
structure Hook (κ : Type) where
  name : String
  arguments : List String
  taps : List (Tap κ) := []
  deriving DecidableEq, Repr

namespace Hook

variable {κ α σ ε : Type}

def tap (hook : Hook κ) (label : String) (callback : κ) : Hook κ :=
  { hook with taps := hook.taps ++ [⟨label, callback⟩] }

def labels (hook : Hook κ) : List String := hook.taps.map (·.label)

def shown (hook : Hook κ) : String :=
  s!"SyncHook({Text.quotedString hook.name}, taps={hook.taps.length})"

/-- Calls every callback, if the number of arguments is the right one. -/
def call (fault : ArgumentFault → ε) (perform : κ → List α → Attempt σ ε Unit) (hook : Hook κ)
    (arguments : List α) : Attempt σ ε Unit :=
  if arguments.length ≠ hook.arguments.length then
    throw (fault ⟨hook.name, hook.arguments, arguments.length⟩)
  else hook.taps.forM fun tap => perform tap.callback arguments

end Hook

abbrev Hooks (κ : Type) := Phase → Hook κ

namespace Hooks

variable {κ : Type}

def empty : Hooks κ := fun phase => { name := phase.name, arguments := phase.arguments }

def tap (hooks : Hooks κ) (phase : Phase) (label : String) (callback : κ) : Hooks κ := fun other =>
  if other = phase then (hooks other).tap label callback else hooks other

def get (hooks : Hooks κ) (text : String) : Except UnknownPhase (Hook κ) :=
  (Phase.ofSpelling text).map hooks

end Hooks
end Bundler
