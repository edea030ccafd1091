import Resumable.Proofs.Heeding
import Resumable.Proofs.Sessions

/-!
Signals and faults of compiled programs.

A call of a continuation, a discard and a fault come to the driver as they were raised, whatever
handlers they pass.  Only a `finally` part that ends abruptly stands in their way: it is run for
them as for any other exit, and its own end counts.
-/

namespace Resumable

section Passing

variable {strategy : Strategy} {m m' : Machine}

/-- The turn is given up for the reason, which the driver gets as it is: a signal decides what is
done next, and a fault is how the slice ends. -/
structure Machine.GivenUp (bound : Nat) (next : Next) (m : Machine) (reason : Unwind)
    (m' : Machine) : Prop where
  unwound : Eval.start (engine bound) next m = .unwind reason m'
  signal : ∀ signal, reason = .signal signal → m.turn bound next = some (m'.afterSignal signal)
  fault : ∀ fault, reason = .fault fault → ∀ turns, m.drive bound (turns + 1) next =
    some (.error fault, m')

theorem Machine.GivenUp.of_unwound {bound : Nat} {next : Next} {reason : Unwind}
    (unwound : Eval.start (engine bound) next m = .unwind reason m') :
    m.GivenUp bound next reason m' where
  unwound := unwound
  signal signal h := by
    rw [Machine.turn, unwound, h]
  fault fault h turns := by
    have ended : m.turn bound next = some (.ended (.error fault), m') := by
      rw [Machine.turn, unwound, h]
    rw [Machine.drive, ended]

/-- **Signals and faults pass handlers.**  Where an action in a turn is given up by a call of a
continuation, by a discard or by a fault, the whole turn is, and the driver gets the same stack,
replacement or fault, unless the `finally` part of a `try` statement around the action, to whose end
the reason had come unchanged, ended abruptly. -/
theorem Session.signals_pass (session : Session strategy m) {next : Next}
    (reaches : m.Reaches strategy next m') {bound depth : Nat} {before after : List Event}
    {action : Action} {begun given : Machine} {reason : Unwind}
    (told : m'.chronicle bound next = before ++ .action action begun :: after)
    (raised : perform bound depth action begun = .unwind reason given)
    (abandons : reason.abandons = true)
    (ended : Eval.start (engine bound) next m' ≠ .cutOff) :
    (∃ m'', m'.GivenUp bound next reason m'') ∨ Overridden bound reason (.action action begun)
    before after := by
  obtain ⟨coherent, fits⟩ := reaches.coherent session.coherent
  have heeded : Heeded bound _ (m'.chronicle bound next) := m'.observed_heeds bound next
  rw [Machine.erase_observed] at heeded
  have pass : SignalsPass (m'.chronicle bound next) := fun _ _ _ _ mem =>
    ((coherent.observed_meets fits bound).told _ mem).2
  rcases heeded pass _ _ _ _ told depth reason given raised abandons with cut | ⟨m'',
    unwound⟩ | overridden
  · exact absurd cut ended
  · exact .inl ⟨m'', .of_unwound unwound⟩
  · exact .inr overridden

def Event.isDiscard : Event → Bool
  | .action (.call (.native .abortCC) ..) _ => true
  | _ => false

/-- The first turn of a program on a new machine. -/
abbrev Program.firstTurn (program : Program) : Next × Machine :=
  (.run (.enterTop (Machine.top program)), (Machine.new .lazy {}).setInterval program)

/-- A program that discards inside of a handler and a `finally` part. -/
def Program.guardedDiscard : Program :=
  { body := [.decl { name := some "f", body := [.expr (.call (.ident "abortCC") [.num 1])] },
      .letS "x" none,
      .tryS (.block [.expr (.call (.ident "f") [])])
        (some ⟨"e", .block [.assign (.ident "x") (.bool false)]⟩)
        (some (.block [.assign (.ident "x") (.bool true)])),
      .returnS (some (.ident "x"))] }

theorem Program.guardedDiscard_unwinds :
    ((Program.guardedDiscard.compile {}).toOption.map fun compiled =>
      match (Machine.chronicle 8 compiled.load.firstTurn.1 compiled.load.firstTurn.2).dropWhile
          (!·.isDiscard), Eval.start (engine 8) compiled.load.firstTurn.1
              compiled.load.firstTurn.2 with
      | .action (.call (.native .abortCC) .undefined [.num given]) _ :: _,
          .unwind (.signal (.discard (.num taken))) _ => decide (given = 1 ∧ taken = 1)
      | _, _ => false) = some true := by decide +kernel

/-- The discard passes both of them. -/
theorem Session.signals_pass_of_guardedDiscard :
    ∃ compiled, Program.guardedDiscard.compile {} = .ok compiled ∧
      ∃ before begun after, Machine.chronicle 8 compiled.load.firstTurn.1
          compiled.load.firstTurn.2 = before ++ .action (.call (.native .abortCC) .undefined
            [.num 1]) begun :: after ∧
        perform 8 1 (.call (.native .abortCC) .undefined [.num 1]) begun =
          .unwind (.signal (.discard (.num 1))) begun ∧
        (∃ m', Eval.start (engine 8) compiled.load.firstTurn.1 compiled.load.firstTurn.2 =
          .unwind (.signal (.discard (.num 1))) m') ∧
        ((∃ m', compiled.load.firstTurn.2.GivenUp 8 compiled.load.firstTurn.1
          (.signal (.discard (.num 1))) m') ∨ Overridden 8 (.signal (.discard (.num 1)))
            (.action (.call (.native .abortCC) .undefined [.num 1]) begun) before after) := by
  obtain ⟨compiled, ok, run⟩ := Option.map_eq_some_iff.mp Program.guardedDiscard_unwinds
  replace ok := Program.compile_of_toOption ok
  have session : Session .lazy (Machine.new .lazy {}) := .new rfl
  have reaches : (Machine.new .lazy {}).Reaches .lazy compiled.load.firstTurn.1
      compiled.load.firstTurn.2 :=
    .run ⟨Program.guardedDiscard, compiled, _, Program.firstSite, ok, rfl, rfl⟩
  split at run
  · rename_i given begun after taken m' rest unwound
    obtain ⟨rfl, rfl⟩ := of_decide_eq_true run
    have told := (List.takeWhile_append_dropWhile (p := fun event : Event =>
      !event.isDiscard)).symm.trans (congrArg _ rest)
    have raised : perform 8 1 (.call (.native .abortCC) .undefined [.num 1]) begun =
        .unwind (.signal (.discard (.num 1))) begun := rfl
    refine ⟨compiled, ok, _, begun, after, told, raised, ⟨m', unwound⟩, ?_⟩
    exact session.signals_pass reaches told raised rfl (by simp [unwound])
  · cases run

/-- A program that discards where a `finally` part returns. -/
def Program.returningFinal : Program :=
  { body := [.tryS (.block [.expr (.call (.ident "abortCC") [.num 1])]) none
      (some (.block [.returnS (some (.num 2))]))] }

theorem Program.returningFinal_returns :
    ((Program.returningFinal.compile {}).toOption.map fun compiled =>
      match (Machine.chronicle 8 compiled.load.firstTurn.1 compiled.load.firstTurn.2).dropWhile
          (!·.isDiscard), Eval.start (engine 8) compiled.load.firstTurn.1 compiled.load.firstTurn.2,
          (Machine.new .lazy {}).run 8 compiled.load with
      | .action (.call (.native .abortCC) .undefined [.num given]) _ :: _, .ok _ _,
          some (.ok (.done (.num result)), m') => decide (given = 1 ∧ result = 2 ∧
            m'.stats.discards = 0)
      | _, _, _ => false) = some true := by decide +kernel

/-- **A discard can get lost.**  It is raised, but the `finally` part around it returns: the driver
does not get it, and the program is done with the other result. -/
theorem Session.discard_lost : ∃ compiled, Program.returningFinal.compile {} = .ok compiled ∧
      ∃ before begun after m', Machine.chronicle 8 compiled.load.firstTurn.1
          compiled.load.firstTurn.2 = before ++ .action (.call (.native .abortCC) .undefined
            [.num 1]) begun :: after ∧
        (engine 8).perform (.call (.native .abortCC) .undefined [.num 1]) begun =
          .unwind (.signal (.discard (.num 1))) begun ∧
        (∀ m'', ¬ compiled.load.firstTurn.2.GivenUp 8 compiled.load.firstTurn.1
          (.signal (.discard (.num 1))) m'') ∧
        (Machine.new .lazy {}).run 8 compiled.load = some (.ok (.done (.num 2)), m') ∧
            m'.stats.discards = 0 := by
  obtain ⟨compiled, ok, run⟩ := Option.map_eq_some_iff.mp Program.returningFinal_returns
  split at run
  · rename_i given begun after value m₁ result m' rest returned done
    obtain ⟨rfl, rfl, discards⟩ := of_decide_eq_true run
    have told := (List.takeWhile_append_dropWhile (p := fun event : Event =>
      !event.isDiscard)).symm.trans (congrArg _ rest)
    refine ⟨compiled, Program.compile_of_toOption ok, _, begun, after, m', told, rfl,
      fun m'' givenUp => ?_, done, discards⟩
    have unwound := givenUp.unwound
    rw [returned] at unwound
    cases unwound
  · cases run

end Passing

end Resumable
