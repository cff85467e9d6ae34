import Splice.Settings

/-!
# The settings in force

Where a run is given no settings of its own, those in force are used. They can be set, or replaced
for the time of a scope: leaving the scope brings back what was in force when it was entered, in
whatever order scopes are left.
-/

namespace Splice

/-- The settings in force, and for each scope that is open those that were in force before it, in
the order in which the scopes were entered. -/
structure Context where
  active : Settings
  saved : List Settings

namespace Context

/-- The context at the start: default settings and no open scope. -/
def initial : Context :=
  ⟨.default, []⟩

/-- Puts other settings in force. -/
def set (context : Context) (settings : Settings) : Context :=
  ⟨settings, context.saved⟩

/-- Puts the default settings in force. -/
def reset (context : Context) : Context :=
  context.set .default

/-- Enters a scope in which other settings are in force. -/
def enter (context : Context) (settings : Settings) : Context :=
  ⟨settings, context.saved ++ [context.active]⟩

/-- Leaves the scope with the given number, counted from zero, or from the last one backwards when
negative; none if there is no such scope. -/
def leave? (context : Context) (index : Int) : Option Context :=
  let number := if index < 0 then context.saved.length + index else index
  if number < 0 then none
  else
    context.saved[number.toNat]?.map fun settings =>
      ⟨settings, context.saved.eraseIdx number.toNat⟩

end Context

end Splice
