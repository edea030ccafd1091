import Resumable.Proofs.Code

/-!
Code in which calls are counted evenly.

A compiled function takes one from the depth where it is entered, and gives it back where it is
left.  It does both once if the depth is given back only right before a plain `return` that no `try`
statement surrounds, or at the end of the body: nothing that could call, throw to a handler or be
overridden follows.  `Func.Measured` are the functions for which that holds, with the functions
inside of them.
-/

namespace Resumable

/-- A `return` whose value is no application. -/
def Stmt.isPlainReturn : Stmt → Bool
  | .returnS none => true
  | .returnS (some e) => !e.isApplication
  | _ => false

def Stmt.isStackInc : Stmt → Bool
  | .stackInc => true
  | _ => false

mutual

/-- The depth of the call is given back only right before a plain `return` outside of all `try`
statements. -/
def Stmt.settlesLast (inTry : Bool) : Stmt → Bool
  | .stackInc => false
  | .block body => Stmt.settlesLastList inTry body
  | .ifS _ thenS elseS => thenS.settlesLast inTry && Stmt.settlesLastOption inTry elseS
  | .whileS _ body | .labeled _ body | .recordOnCapture _ body | .shadowFrame _ body =>
    body.settlesLast inTry
  | .tryS body handler final =>
    body.settlesLast true && Handler.settlesLastOption handler && Stmt.settlesLastOption true final
  | _ => true

def Stmt.settlesLastList (inTry : Bool) : List Stmt → Bool
  | [] => true
  | s :: rest =>
    (s.settlesLast inTry || !inTry && s.isStackInc && rest.head?.any (·.isPlainReturn)) &&
      Stmt.settlesLastList inTry rest

def Stmt.settlesLastOption (inTry : Bool) : Option Stmt → Bool
  | none => true
  | some s => s.settlesLast inTry

def Handler.settlesLastOption : Option Handler → Bool
  | none => true
  | some ⟨_, body⟩ => body.settlesLast true

end

/-- Functions in two modes that count their calls evenly. -/
inductive Func.Measured (strategy : Strategy) : Func → Prop
  | intro {f : Func} {opening body closing : List Stmt} :
      (opening = [] ∨ opening = [.letS newTargetLocal (some .newTarget)]) →
      (closing = [] ∨ closing = [.guarded (.ident newTargetLocal) (.returnS (some .this))]) →
      f.body = opening ++ .stackDec :: .restoreFrame :: (body ++ .stackInc :: closing) →
      (∀ s ∈ body, Stmt.Dual strategy (Func.Measured strategy) false s) →
      Stmt.settlesLastList false body = true → Func.Measured strategy f

/-- Where the depth is given back in a list, a plain `return` follows. -/
theorem Stmt.settlesLastList_cons {inTry : Bool} {s : Stmt} {rest : List Stmt}
    (settles : Stmt.settlesLastList inTry (s :: rest) = true) :
    (s.settlesLast inTry = true ∨ inTry = false ∧ s = .stackInc ∧ ∃ value rest',
      rest = .returnS value :: rest' ∧ ∀ e ∈ value, e.isApplication = false) ∧
      Stmt.settlesLastList inTry rest = true := by
  simp only [Stmt.settlesLastList, Bool.and_eq_true, Bool.or_eq_true] at settles
  obtain ⟨first, last⟩ := settles
  refine ⟨first.imp_right fun given => ?_, last⟩
  obtain ⟨⟨notTry, isInc⟩, returns⟩ := given
  refine ⟨by simpa using notTry, ?_, ?_⟩
  · cases s with
    | stackInc => rfl
    | _ => cases isInc
  · cases rest with
    | nil => cases returns
    | cons next rest' =>
      cases next with
      | returnS value =>
        refine ⟨value, rest', rfl, fun e mem => ?_⟩
        cases mem
        simpa [Stmt.isPlainReturn] using returns
      | _ => cases returns

end Resumable
