import Resumable.Proofs.ErasedRun
import Resumable.Syntax.Load

/-!
Insertion of safe points.

`Stmt.spaced` says where safe points stand: first in functions and in the bodies of loops, and
nowhere else.  Insertion puts them there, and erasing them gives the program back, up to blocks
around the bodies of loops: for every part of a program `SafePoint.Inserts` says both.  Without a
yield interval the program does what it did before (`SafePoint.insert_conservative`).
-/

namespace Resumable

open SafePoint

/-! ## Places -/

mutual

/-- Safe points stand first in functions and in the bodies of loops and nowhere else, or nowhere at
all. -/
def Expr.spaced (safe : Bool) : Expr → Bool
  | .suspend => false
  | .binary _ left right | .index left right => left.spaced safe && right.spaced safe
  | .unary _ arg | .member arg _ => arg.spaced safe
  | .cond test thenE elseE => test.spaced safe && (thenE.spaced safe && elseE.spaced safe)
  | .call callee args | .new callee args | .handleNew callee args =>
    callee.spaced safe && Expr.spacedList safe args
  | .func f => f.spaced safe
  | .array elements => Expr.spacedList safe elements
  | .object props => Expr.spacedProps safe props
  | _ => true

def Expr.spacedList (safe : Bool) : List Expr → Bool
  | [] => true
  | e :: rest => e.spaced safe && Expr.spacedList safe rest

def Expr.spacedProps (safe : Bool) : List (String × Expr) → Bool
  | [] => true
  | (_, e) :: rest => e.spaced safe && Expr.spacedProps safe rest

def Expr.spacedOption (safe : Bool) : Option Expr → Bool
  | none => true
  | some e => e.spaced safe

def Target.spaced (safe : Bool) : Target → Bool
  | .ident _ => true
  | .member base _ => base.spaced safe
  | .index base key => base.spaced safe && key.spaced safe

def Stmt.spaced (safe : Bool) : Stmt → Bool
  | .block body => Stmt.spacedList safe body
  | .letS _ value | .returnS value => Expr.spacedOption safe value
  | .assign target value => target.spaced safe && value.spaced safe
  | .expr e | .throwS e => e.spaced safe
  | .ifS test thenS elseS => test.spaced safe && (thenS.spaced safe && Stmt.spacedOption safe elseS)
  | .whileS test (.block (.expr .suspend :: body)) =>
    test.spaced safe && (safe && Stmt.spacedList safe body)
  | .whileS test body => test.spaced safe && (!safe && body.spaced safe)
  | .labeled _ body | .recordOnCapture _ body | .shadowFrame _ body => body.spaced safe
  | .tryS body handler final =>
    body.spaced safe && (Handler.spacedOption safe handler && Stmt.spacedOption safe final)
  | .decl f => f.spaced safe
  | _ => true

def Stmt.spacedList (safe : Bool) : List Stmt → Bool
  | [] => true
  | s :: rest => s.spaced safe && Stmt.spacedList safe rest

def Stmt.spacedOption (safe : Bool) : Option Stmt → Bool
  | none => true
  | some s => s.spaced safe

def Handler.spacedOption (safe : Bool) : Option Handler → Bool
  | none => true
  | some ⟨_, body⟩ => body.spaced safe

def Func.spaced (safe : Bool) : Func → Bool
  | ⟨_, _, .expr .suspend :: body, _, _⟩ => safe && Stmt.spacedList safe body
  | ⟨_, _, body, _, _⟩ => !safe && Stmt.spacedList safe body

end

/-! ## Insertion -/

variable {d w : Bool} {k : Erasure}

namespace SafePoint

variable {α β γ δ : Type}

/-- What becomes of a part: its safe points are where they belong, and without them it is as it was.
-/
structure Inserts (spaced : Bool) (x y : α) : Prop where
  spaced : spaced = true
  same : x = y

section

variable {b b' b'' : Bool} {x y : α} {x' y' : β} {x'' y'' : γ}

theorem Inserts.map (f : α → β) (part : Inserts b x y) : Inserts b (f x) (f y) :=
  ⟨part.1, congrArg f part.2⟩

theorem Inserts.map₂ {p p' : Bool} (f : α → β → γ) (free : (p && p') = true) (part : p = true →
    Inserts b x y) (part' : p' = true → Inserts b' x' y') : Inserts (b && b') (f x x')
    (f y y') := by
  rw [Bool.and_eq_true] at free
  exact ⟨Bool.and_eq_true_iff.mpr ⟨(part free.1).1, (part' free.2).1⟩, congrArg₂ f (part free.1).2
    (part' free.2).2⟩

theorem Inserts.map₃ {p p' p'' : Bool} (f : α → β → γ → δ) (free : (p && (p' && p'')) = true)
    (part : p = true → Inserts b x y) (part' : p' = true → Inserts b' x' y') (part'' : p'' = true →
      Inserts b'' x'' y'') :
    Inserts (b && (b' && b'')) (f x x' x'') (f y y' y'') :=
  .map₂ (fun a parts => f a parts.1 parts.2) free part fun rest => .map₂ Prod.mk rest part' part''

end

theorem isPoint_of_spaced {safe : Bool} {s : Stmt} (spaced : s.spaced safe = true) :
    isPoint s = false := by
  cases point : isPoint s with
  | false => rfl
  | true =>
    rw [eq_of_isPoint point] at spaced
    cases spaced

theorem clear_cons {s : Stmt} (plain : isPoint s = false) (deletes : Bool) (rest : List Stmt) :
    clear deletes (s :: rest) = s :: clear deletes rest := by
  simp [clear, plain]

/-- The body of a loop is a block, with a safe point first. -/
theorem inLoop_spaced {test : Expr} {s : Stmt} (body : s.spaced true = true) :
    (Stmt.whileS test (inLoop s)).spaced true = test.spaced true := by
  cases s with
  | block stmts => simp_all [inLoop, stmt, Stmt.spaced]
  | _ => simp_all [inLoop, stmt, Stmt.spaced, Stmt.spacedList]

theorem inLoop_erased {s : Stmt} (plain : isPoint s = false) :
    (bif w then asBlock ((inLoop s).transform (erasing true w) ()) else (inLoop s).transform
      (erasing true w) ()) = asBlock (s.transform (erasing true w) ()) := by
  have single {s : Stmt} (plain : isPoint s = false) :
      (inLoop s).transform (erasing true w) () = asBlock (s.transform (erasing true w) ()) := by
    cases s with
    | block body => rfl
    | expr e =>
      cases e with
      | suspend => cases plain
      | _ => rfl
    | _ => rfl
  rw [single plain]
  cases w with
  | false => rfl
  | true => cases s <;> rfl

theorem loop_free {test : Expr} {s : Stmt} (free : (Stmt.whileS test s).spaced false = true) :
    test.spaced false = true ∧ s.spaced false = true := by
  unfold Stmt.spaced at free
  split at free <;> simp_all

end SafePoint

mutual

theorem Expr.inserted : (e : Expr) → e.spaced false = true →
    Inserts ((e.transform inserting ()).spaced true)
    ((e.transform inserting ()).transform (erasing true w) ()) (e.transform (erasing d true) ())
  | .num _, _ | .str _, _ | .bool _, _ | .null, _ | .undefined, _ | .ident _, _ | .this,
      _ | .arguments, _ | .isNormal, _
  | .isRestoring, _ | .targetIn _, _ | .capturing, _ | .reenterNext, _ | .newTarget, _ => ⟨rfl, rfl⟩
  | .binary op left right, free => .map₂ (Expr.binary op) free left.inserted right.inserted
  | .index base key, free => .map₂ Expr.index free base.inserted key.inserted
  | .unary op arg, free => (arg.inserted free).map (Expr.unary op)
  | .member base name, free => (base.inserted free).map (Expr.member · name)
  | .cond test thenE elseE, free => .map₃ Expr.cond free test.inserted thenE.inserted elseE.inserted
  | .call callee args, free => .map₂ Expr.call free callee.inserted (Expr.insertedList args)
  | .new callee args, free => .map₂ Expr.new free callee.inserted (Expr.insertedList args)
  | .handleNew callee args, free =>
    .map₂ Expr.handleNew free callee.inserted (Expr.insertedList args)
  | .func f, free => (f.inserted free).map Expr.func
  | .array elements, free => (Expr.insertedList elements free).map Expr.array
  | .object props, free => (Expr.insertedProps props free).map Expr.object

theorem Expr.insertedList : (es : List Expr) → Expr.spacedList false es = true →
    Inserts (Expr.spacedList true (Expr.transformList inserting () es))
      (Expr.transformList (erasing true w) () (Expr.transformList inserting () es))
      (Expr.transformList (erasing d true) () es)
  | [], _ => ⟨rfl, rfl⟩
  | e :: rest, free => .map₂ List.cons free e.inserted (Expr.insertedList rest)

theorem Expr.insertedProps : (props : List (String × Expr)) → Expr.spacedProps false props = true →
    Inserts (Expr.spacedProps true (Expr.transformProps inserting () props))
      (Expr.transformProps (erasing true w) () (Expr.transformProps inserting () props))
      (Expr.transformProps (erasing d true) () props)
  | [], _ => ⟨rfl, rfl⟩
  | (key, e) :: rest, free =>
    .map₂ (fun e => List.cons (key, e)) free e.inserted (Expr.insertedProps rest)

theorem Expr.insertedOption : (o : Option Expr) → Expr.spacedOption false o = true →
    Inserts (Expr.spacedOption true (Expr.transformOption inserting () o))
      (Expr.transformOption (erasing true w) () (Expr.transformOption inserting () o))
      (Expr.transformOption (erasing d true) () o)
  | none, _ => ⟨rfl, rfl⟩
  | some e, free => (e.inserted free).map some

theorem Target.inserted : (target : Target) → target.spaced false = true →
    Inserts ((target.transform inserting ()).spaced true)
      ((target.transform inserting ()).transform (erasing true w) ())
      (target.transform (erasing d true) ())
  | .ident _, _ => ⟨rfl, rfl⟩
  | .member base name, free => (base.inserted free).map (Target.member · name)
  | .index base key, free => .map₂ Target.index free base.inserted key.inserted

theorem Stmt.inserted : (s : Stmt) → s.spaced false = true →
    Inserts ((s.transform inserting ()).spaced true)
    ((s.transform inserting ()).transform (erasing true w) ()) (s.transform (erasing d true) ())
  | .block body, free => (Stmt.insertedList body free).map Stmt.block
  | .letS name value, free => (Expr.insertedOption value free).map (Stmt.letS name)
  | .returnS value, free => (Expr.insertedOption value free).map Stmt.returnS
  | .assign target value, free => .map₂ Stmt.assign free target.inserted value.inserted
  | .expr e, free => (e.inserted free).map Stmt.expr
  | .throwS e, free => (e.inserted free).map Stmt.throwS
  | .ifS test thenS elseS, free =>
    .map₃ Stmt.ifS free test.inserted thenS.inserted (Stmt.insertedOption elseS)
  | .whileS test body, free => by
    have both := loop_free free
    have tests := test.inserted both.1
    have inner := body.inserted both.2
    refine ⟨(inLoop_spaced inner.1).trans tests.1, ?_⟩
    exact congrArg₂ Stmt.whileS tests.2 ((inLoop_erased (isPoint_of_spaced inner.1)).trans
      (congrArg asBlock inner.2))
  | .labeled label body, free => (body.inserted free).map (Stmt.labeled label)
  | .recordOnCapture label body, free => (body.inserted free).map (Stmt.recordOnCapture label)
  | .shadowFrame label body, free => (body.inserted free).map (Stmt.shadowFrame label)
  | .tryS body handler final, free =>
    .map₃ Stmt.tryS free body.inserted (Handler.insertedOption handler) (Stmt.insertedOption final)
  | .decl f, free => (f.inserted free).map Stmt.decl
  | .breakS _, _ | .continueS _, _ | .restoreFrame, _ | .stackDec, _ | .stackInc,
      _ | .returnIfCapturing _, _
  | .rethrowSignal _, _ => ⟨rfl, rfl⟩

theorem Stmt.insertedList : (body : List Stmt) → Stmt.spacedList false body = true →
    Inserts (Stmt.spacedList true (Stmt.transformList inserting () body))
      (clear true (Stmt.transformList (erasing true w) () (Stmt.transformList inserting () body)))
      (clear d (Stmt.transformList (erasing d true) () body))
  | [], _ => ⟨rfl, rfl⟩
  | s :: rest, free => by
    have both := Bool.and_eq_true_iff.mp free
    have first := s.inserted both.1
    have plain : ∀ a b, isPoint (s.transform (erasing a b) ()) = false := fun a b =>
      (isPoint_erased a b s).trans (isPoint_of_spaced both.1)
    have together := Inserts.map₂ List.cons free (fun _ => first) (Stmt.insertedList rest)
    rw [← clear_cons (plain d true), ← clear_cons ((isPoint_erased true w _).trans
      (isPoint_of_spaced first.1))] at together
    exact together

theorem Stmt.insertedOption : (o : Option Stmt) → Stmt.spacedOption false o = true →
    Inserts (Stmt.spacedOption true (Stmt.transformOption inserting () o))
      (Stmt.transformOption (erasing true w) () (Stmt.transformOption inserting () o))
      (Stmt.transformOption (erasing d true) () o)
  | none, _ => ⟨rfl, rfl⟩
  | some s, free => (s.inserted free).map some

theorem Handler.insertedOption : (o : Option Handler) → Handler.spacedOption false o = true →
    Inserts (Handler.spacedOption true (Handler.transformOption inserting () o))
      (Handler.transformOption (erasing true w) () (Handler.transformOption inserting () o))
      (Handler.transformOption (erasing d true) () o)
  | none, _ => ⟨rfl, rfl⟩
  | some ⟨param, body⟩, free => (body.inserted free).map fun body => some (Handler.mk param body)

theorem Func.inserted : (f : Func) → f.spaced false = true →
    Inserts ((f.transform inserting ()).spaced true)
    ((f.transform inserting ()).transform (erasing true w) ()) (f.transform (erasing d true) ())
  | ⟨name, params, body, frame, site⟩, free => by
    have bodyFree : Stmt.spacedList false body = true := by
      unfold Func.spaced at free
      split at free <;> simp_all
    exact (Stmt.insertedList body bodyFree).map fun body => Func.mk name params body frame site

end

/-! ## Loading -/

/-- What is numbered second is the image of what is numbered first. -/
def Numbering.Maps {α β : Type} (f : α → β) (x : Numbering α) (y : Numbering β) : Prop :=
  y = f <$> x

namespace Numbering.Maps

variable {α β γ δ : Type} {f : α → β} {x : Numbering α} {y : Numbering β}

theorem pure (a : α) : Maps f (Pure.pure a) (Pure.pure (f a)) :=
  rfl

theorem bind {g : α → Numbering γ} {g' : β → Numbering δ} {h : γ → δ} (first : Maps f x y)
    (second : ∀ a, Maps h (g a) (g' (f a))) : Maps h (x >>= g) (y >>= g') := by
  unfold Maps at *
  rw [first, bind_map_left, map_bind]
  exact bind_congr second

end Numbering.Maps

section

variable {α : Type} {x : Numbering α}

/-- A statement and the block that it becomes have the same numbers. -/
theorem SafePoint.load_wrapped {f : α → Stmt} {s : Stmt} (maps : Numbering.Maps f x s.load) :
    Numbering.Maps (fun a => bif w then asBlock (f a) else f a) x
    (bif w then asBlock s else s).load := by
  have block : (asBlock s).load = asBlock <$> s.load := by
    cases s <;> rfl
  cases w with
  | false => exact maps
  | true =>
    rw [Numbering.Maps, cond_true, block, maps]
    rfl

/-- A safe point has no number. -/
theorem SafePoint.load_cleared {f : α → List Stmt} {body : List Stmt}
    (maps : Numbering.Maps f x (Stmt.loadList body)) : Numbering.Maps (fun a => clear d (f a)) x
    (Stmt.loadList (clear d body)) := by
  have isPoint_load (s : Stmt) (next : Nat) : isPoint (s.load next).1 = isPoint s := by
    cases s with
    | expr e => cases e <;> rfl
    | _ => rfl
  have cleared : Stmt.loadList (clear d body) = clear d <$> Stmt.loadList body := by
    clear maps
    induction body with
    | nil => rfl
    | cons s rest ih =>
      funext next
      show _ = (clear d ((s.load next).1 :: (Stmt.loadList rest (s.load next).2).1), _)
      rw [clear, clear, List.filter_cons, List.filter_cons, isPoint_load]
      cases point : d && isPoint s with
      | true =>
        rw [eq_of_isPoint (Bool.and_eq_true_iff.mp point).2]
        exact congrFun ih next
      | false =>
        exact congrArg (fun later : List Stmt × Nat => ((s.load next).1 :: later.1, later.2))
          (congrFun ih (s.load next).2)
  rw [Numbering.Maps, cleared, maps]
  rfl

end

mutual

/-- Programs may as well be loaded before something is erased. -/
theorem Expr.load_erased : (e : Expr) → Numbering.Maps (Expr.bare k) e.load (e.bare k).load
  | .num _ | .str _ | .bool _ | .null | .undefined | .ident
      _ | .this | .arguments | .isNormal | .isRestoring
  | .targetIn _ | .capturing | .reenterNext | .newTarget | .suspend => .pure _
  | .binary _ left right | .index left right =>
    left.load_erased.bind fun _ => right.load_erased.bind fun _ => .pure _
  | .unary _ arg | .member arg _ => arg.load_erased.bind fun _ => .pure _
  | .cond test thenE elseE =>
    test.load_erased.bind fun _ => thenE.load_erased.bind fun _ => elseE.load_erased.bind
    fun _ => .pure _
  | .call callee args | .new callee args | .handleNew callee args =>
    callee.load_erased.bind fun _ => (Expr.loadList_erased args).bind fun _ => .pure _
  | .func f => f.load_erased.bind fun _ => .pure _
  | .array elements => (Expr.loadList_erased elements).bind fun _ => .pure _
  | .object props => (Expr.loadProps_erased props).bind fun _ => .pure _

theorem Expr.loadList_erased : (es : List Expr) →
    Numbering.Maps (Expr.transformList k.code ()) (Expr.loadList es)
      (Expr.loadList (Expr.transformList k.code () es))
  | [] => .pure _
  | e :: rest => e.load_erased.bind fun _ => (Expr.loadList_erased rest).bind fun _ => .pure _

theorem Expr.loadProps_erased : (props : List (String × Expr)) →
    Numbering.Maps (Expr.transformProps k.code ()) (Expr.loadProps props)
      (Expr.loadProps (Expr.transformProps k.code () props))
  | [] => .pure _
  | (_, e) :: rest => e.load_erased.bind fun _ => (Expr.loadProps_erased rest).bind fun _ => .pure _

theorem Expr.loadOption_erased : (o : Option Expr) →
    Numbering.Maps (Expr.transformOption k.code ()) (Expr.loadOption o)
      (Expr.loadOption (Expr.transformOption k.code () o))
  | none => .pure _
  | some e => e.load_erased.bind fun _ => .pure _

theorem Target.load_erased : (target : Target) →
    Numbering.Maps (Target.transform k.code ()) target.load (target.transform k.code ()).load
  | .ident _ => .pure _
  | .member base _ => base.load_erased.bind fun _ => .pure _
  | .index base key => base.load_erased.bind fun _ => key.load_erased.bind fun _ => .pure _

theorem Stmt.load_erased : (s : Stmt) → Numbering.Maps (Stmt.bare k) s.load (s.bare k).load
  | .block body => (load_cleared (Stmt.loadList_erased body)).bind fun _ => .pure _
  | .letS _ value | .returnS value => (Expr.loadOption_erased value).bind fun _ => .pure _
  | .assign target value => target.load_erased.bind fun _ => value.load_erased.bind fun _ => .pure _
  | .expr e | .throwS e => e.load_erased.bind fun _ => .pure _
  | .ifS test thenS elseS =>
    test.load_erased.bind fun _ => thenS.load_erased.bind fun _ =>
    (Stmt.loadOption_erased elseS).bind fun _ => .pure _
  | .whileS test body =>
    test.load_erased.bind fun _ => (load_wrapped body.load_erased).bind fun _ => .pure _
  | .labeled _ body | .recordOnCapture _ body | .shadowFrame _ body =>
    body.load_erased.bind fun _ => .pure _
  | .tryS body handler final =>
    body.load_erased.bind fun _ => (Handler.loadOption_erased handler).bind fun _ =>
      (Stmt.loadOption_erased final).bind fun _ => .pure _
  | .decl f => f.load_erased.bind fun _ => .pure _
  | .breakS _ | .continueS _ | .restoreFrame | .stackDec | .stackInc | .returnIfCapturing
      _ | .rethrowSignal _ =>
    .pure _

theorem Stmt.loadList_erased : (body : List Stmt) →
    Numbering.Maps (Stmt.transformList k.code ()) (Stmt.loadList body)
      (Stmt.loadList (Stmt.transformList k.code () body))
  | [] => .pure _
  | s :: rest => s.load_erased.bind fun _ => (Stmt.loadList_erased rest).bind fun _ => .pure _

theorem Stmt.loadOption_erased : (o : Option Stmt) →
    Numbering.Maps (Stmt.transformOption k.code ()) (Stmt.loadOption o)
      (Stmt.loadOption (Stmt.transformOption k.code () o))
  | none => .pure _
  | some s => s.load_erased.bind fun _ => .pure _

theorem Handler.loadOption_erased : (o : Option Handler) →
    Numbering.Maps (Handler.transformOption k.code ()) (Handler.loadOption o)
      (Handler.loadOption (Handler.transformOption k.code () o))
  | none => .pure _
  | some ⟨_, body⟩ => body.load_erased.bind fun _ => .pure _

theorem Func.load_erased : (f : Func) → Numbering.Maps (Func.bare k) f.load (f.bare k).load
  | ⟨_, _, body, _, _⟩ => by
    have site : Numbering.Maps id Numbering.fresh Numbering.fresh := rfl
    exact site.bind fun _ => (load_cleared (Stmt.loadList_erased body)).bind fun _ => .pure _

end

/-! ## Programs -/

def Program.spaced (safe : Bool) (program : Program) : Bool :=
  Func.spaced safe { body := program.body }

theorem Program.load_erased (program : Program) : (program.erased d w).load =
    program.load.erased d w :=
  congrArg (fun loaded : List Stmt × Nat => { program with body := loaded.1 })
    (congrFun (load_cleared (Stmt.loadList_erased (k := ⟨d, w⟩) program.body)) firstSite)

/-- The program comes to the result on the machine, with all that is printed by then. -/
def Program.Gives (program : Program) (m : Machine) (result : Except Fault Value)
    (output : Array String) : Prop :=
  ∃ bound m', m.runProgram bound program = some (result, m') ∧ m'.output = output

end Resumable
