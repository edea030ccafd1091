import Resumable.Machine.Value
import Resumable.Syntax.Basic

/-!
Frames and stacks.

A frame is what is left of a paused call.  A stack lists frames from the innermost paused call to
the outermost; it is built up again from its outer end.
-/

namespace Resumable

/-- Something to be done by the machine, kept for later. -/
inductive Action where
  /-- Deliver a value. -/
  | value (value : Value)
  /-- Raise a guest exception. -/
  | throw (value : Value)
  /-- Call any value. -/
  | call (func this : Value) (args : List Value)
  /-- Enter a closure. -/
  | enter (closure : ClosureId) (this : Value) (args : List Value) (newTarget : Value)
  /-- Run the top level of a program. -/
  | enterTop (top : Func)
  /-- Construct an object. -/
  | construct (callee : Value) (args : List Value)
  /-- Construct an object that is kept in a frame of its own. -/
  | handleNew (callee : Value) (args : List Value)
  /-- Yield to the host, if it is time. -/
  | safePoint
  /-- Enter the outermost frame of the saved stack. -/
  | reenterNext
  /-- One after the other; the result is the last one's. -/
  | sequence (actions : List Action)
  deriving Inhabited

/-- A paused call. -/
structure CallFrame where
  /-- Enters the function, or the construction, again. -/
  resume : Action
  function : String
  /-- The locals in the order of the layout. -/
  locals : List Value
  /-- Where to continue. -/
  label : Nat
  /-- The parameters, where they are saved. -/
  formals : Option (List Value) := none
  /-- The number of arguments, where it is saved. -/
  argCount : Option Nat := none

inductive Frame where
  /-- What to do once all calls are entered again. -/
  | top (action : Action)
  | call (frame : CallFrame)
  deriving Inhabited

namespace Frame

def label? : Frame → Option Nat
  | .top _ => none
  | .call frame => some frame.label

def function? : Frame → Option String
  | .top _ => none
  | .call frame => some frame.function

/-- What the frame does when it is entered. -/
def action : Frame → Action
  | .top action => action
  | .call frame => frame.resume

end Frame

/-- Frames from the innermost to the outermost. -/
structure Stack where
  frames : List Frame := []
  deriving Inhabited

namespace Stack

def empty : Stack :=
  {}

def length (s : Stack) : Nat :=
  s.frames.length

def isEmpty (s : Stack) : Bool :=
  s.frames.isEmpty

def pushInner (s : Stack) (frame : Frame) : Stack :=
  ⟨frame :: s.frames⟩

def pushOuter (s : Stack) (frame : Frame) : Stack :=
  ⟨s.frames ++ [frame]⟩

def innermost? (s : Stack) : Option Frame :=
  s.frames.head?

def outermost? (s : Stack) : Option Frame :=
  s.frames.getLast?

/-- The stack without its innermost frame. -/
def dropInner (s : Stack) : Stack :=
  ⟨s.frames.tail⟩

/-- The stack with another innermost frame, if it has one at all. -/
def replaceInner (s : Stack) (frame : Frame) : Stack :=
  if s.isEmpty then s else s.dropInner.pushInner frame

/-- The stack without its outermost frame. -/
def dropOuter (s : Stack) : Stack :=
  ⟨s.frames.dropLast⟩

/-- The innermost `keep` frames, and those beyond them. -/
def splitOuter (s : Stack) (keep : Nat) : Stack × Stack :=
  (⟨s.frames.take keep⟩, ⟨s.frames.drop keep⟩)

/-- The stack with `outer` beyond its outermost frame. -/
def appendOuter (s outer : Stack) : Stack :=
  ⟨s.frames ++ outer.frames⟩

end Stack

end Resumable
