import Resumable.Proofs.Sessions
import Resumable.Proofs.Walk

/-!
Captures that unwind.

From the point where a capture is raised to the driver that takes it nothing happens but the passing
of the guards that compilation puts at the head of handlers and around `finally` parts.  The machine
that the driver gets is the one on which the capture was raised, and the stack has one frame for
every call and every construction that was in progress, whether the frames were kept beforehand or
collected on the way.
-/

namespace Resumable

/-- A turn begins without frames for calls in progress, so that none are left when a signal ends it.
-/
theorem Eval.start_shadow {bound : Nat} {next : Next} {m m' : Machine} {signal : Signal}
    (ends : Eval.start (engine bound) next m = .unwind (.signal signal) m') :
    m'.shadow = .empty := by
  cases isVoid : next.isVoid with
  | true =>
    rw [Eval.start_void isVoid] at ends
    cases ends
  | false =>
    have course := Machine.start_course bound isVoid m
    rw [ends] at course
    have same : m'.shadow = (m.begin next).shadow := congrArg (·.2.2.1) course.fixed_eq
    rw [same]
    cases next <;> rfl

section Captures

variable {strategy : Strategy} {m : Machine}

/-- Where captures unwind, a stack that has come to the driver has a frame for every call. -/
theorem Stack.Tells.points {raised : Context} {stack : Stack} (unwinds : strategy.unwinds = true)
    (tells : stack.Tells strategy [] raised) : stack.points = raised.map some := by
  cases strategy with
  | eager => exact tells
  | «lazy» => exact (tells.trans (List.append_nil _)).symm
  | retval => cases unwinds
  | fudge => cases unwinds

/-- **Captures unwind silently and completely.**  After a capture is raised only guards are passed.
The driver gets it with its handler, on the machine on which it was raised, and with a stack of one
frame for each call and construction in progress, from the innermost to the outermost, each with the
function and the label of its point.  The frames that are kept for calls in progress are the same
before and after every statement. -/
theorem Session.captures_delivered (session : Session strategy m)
    (unwinds : strategy.unwinds = true) : (∀ next m', m.Reaches strategy next m' →
      ∀ bound before context handler raised after, m'.chronicle bound next = before ++
      .raise context handler raised :: after →
      (∀ event ∈ after, event.isGuard = true) ∧
      ∃ stack : Stack, stack.points = context.map some ∧
        Eval.start (engine bound) next m' = .unwind (.signal (.capture handler stack))
          { raised with capturing := true, shadow := .empty }) ∧
    ∀ bound depth (s : Stmt) l, (s.exec ⟨bound, perform bound depth⟩ l).Meets
      (fun _ l' => l'.machine.shadow = l.machine.shadow)
      (fun _ l' => l'.machine.shadow = l.machine.shadow) := by
  refine ⟨?_, fun bound depth s => s.exec_shadow bound depth⟩
  intro next m' reaches bound before context handler raised after told
  obtain ⟨coherent, fits⟩ := reaches.coherent session.coherent
  have meets := coherent.observed_meets fits bound
  obtain ⟨guards, reason, m₁, ends, stack, shadow, rfl, rfl, tells⟩ :=
    meets.raised unwinds before context handler raised after told
  rw [Machine.erase_observed] at ends
  have noneKept : shadow = .empty := Eval.start_shadow ends
  subst noneKept
  exact ⟨guards, stack, tells.points unwinds, ends⟩

/-- A program whose call is inside of a handler and a `finally` part. -/
def Program.guardedCall : Program :=
  { body := [.decl { name := some "f", body := [.returnS (some (.bool true))] },
      .letS "x" none,
      .tryS (.block [.assign (.ident "x") (.call (.ident "f") [])])
        (some ⟨"e", .block [.assign (.ident "x") (.bool false)]⟩)
        (some (.block [.assign (.ident "x") (.null)])),
      .returnS (some (.ident "x"))] }

theorem Program.guardedCall_raises :
    ((Program.guardedCall.compile { yieldInterval := some 2 }).toOption.map fun compiled =>
      match (Machine.chronicle 8 (.run (.enterTop (Machine.top compiled.load)))
          ((Machine.new .lazy {}).setInterval compiled.load)).dropWhile (!·.isRaise) with
      | .raise [_, _] _ _ :: _ :: _ => true
      | _ => false) = some true := by decide +kernel

/-- The capture at the safe point inside of the call passes both of them, with two calls in
progress. -/
theorem Session.captures_delivered_of_guardedCall :
    ∃ compiled, Program.guardedCall.compile { yieldInterval := some 2 } = .ok compiled ∧
      ∃ before inner outer handler raised guard after stack, Machine.chronicle 8
          (.run (.enterTop (Machine.top compiled.load)))
          ((Machine.new .lazy {}).setInterval compiled.load) =
            before ++ .raise [inner, outer] handler raised :: guard :: after ∧
        (∀ event ∈ guard :: after, event.isGuard = true) ∧ stack.points = [some inner, some outer] ∧
        Eval.start (engine 8) (.run (.enterTop (Machine.top compiled.load)))
          ((Machine.new .lazy {}).setInterval compiled.load) =
            .unwind (.signal (.capture handler stack)) { raised with
              capturing := true, shadow := .empty } := by
  obtain ⟨compiled, ok, split⟩ := Option.map_eq_some_iff.mp Program.guardedCall_raises
  replace ok := Program.compile_of_toOption ok
  have session : Session .lazy (Machine.new .lazy {}) := .new rfl
  have reaches : (Machine.new .lazy {}).Reaches .lazy (.run (.enterTop (Machine.top compiled.load)))
      ((Machine.new .lazy {}).setInterval compiled.load) :=
    .run ⟨Program.guardedCall, compiled, _, Program.firstSite, ok, rfl, rfl⟩
  split at split
  · rename_i inner outer handler raised guard after rest
    have told := (List.takeWhile_append_dropWhile (p := fun event : Event =>
      !event.isRaise)).symm.trans (congrArg _ rest)
    obtain ⟨guards, stack, points, ends⟩ :=
      (session.captures_delivered rfl).1 _ _ reaches 8 _ _ _ _ _ told
    exact ⟨compiled, ok, _, inner, outer, handler, raised, guard, after, stack, told, guards,
      points, ends⟩
  · cases split

end Captures

end Resumable
