import FragmentCompiler.Analysis.Basic

/-!
# Switching dynamic lookup

The analysis has one slot for a resolver.  The switch of a session fills and
empties it, and refuses to fill it when it is taken.
-/

namespace FragmentCompiler

structure LookupSwitch where
  current : Option Resolver := none
  deriving DecidableEq, Repr, Inhabited

namespace LookupSwitch

def isOn (switch : LookupSwitch) : Bool := switch.current.isSome

/-- Installs a resolver into a slot; none when it is already on or the slot is
taken. -/
def enable (switch : LookupSwitch) (slot : Option Resolver) (fresh : Resolver) :
    Option (LookupSwitch × Option Resolver) :=
  if switch.isOn || slot.isSome then none else some ({ current := some fresh }, some fresh)

def disable (switch : LookupSwitch) (slot : Option Resolver) : LookupSwitch × Option Resolver :=
  if switch.isOn then ({}, none) else (switch, slot)

/-- Turns it on or off; what is so already stays. -/
def set (switch : LookupSwitch) (slot : Option Resolver) (fresh : Resolver) (on : Bool) :
    Option (LookupSwitch × Option Resolver) :=
  if !on then some (switch.disable slot)
  else if switch.isOn then some (switch, slot)
  else switch.enable slot fresh

def ask (switch : LookupSwitch) (name : Text) : Option Bool × LookupSwitch :=
  match switch.current with
  | none => (none, switch)
  | some resolver =>
    let (deferred, resolver) := resolver.ask name Span.none
    (some deferred, { current := some resolver })

end LookupSwitch

end FragmentCompiler
