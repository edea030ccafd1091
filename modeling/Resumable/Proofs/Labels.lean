import Resumable.Proofs.Compiled

/-!
Labels.

The analysis of a list of statements numbers those that may be paused in, in the order in which they
are written.  `Stmt.leaves` lists the statements that hold no others, whatever the analysis makes of
them, and `Stmt.pausing` says which of them may be paused in.  The captures in the segments are
these and no others (`Stmt.segments_lists`), and without labels the segments are the statements that
were analysed (`Stmt.segments_erase`).
-/

namespace Resumable

/-! ## Statements that may be paused in -/

mutual

/-- The statements that hold no others, in the order in which they are written, each with whether it
stands in a `try`.  Nested functions are not looked into, and neither are statements for which a
frame is kept. -/
def Stmt.leaves (inTry : Bool) : Stmt → List (Bool × Stmt)
  | .block body => Stmt.listLeaves inTry body
  | .ifS _ thenS elseS => thenS.leaves inTry ++ Stmt.optionLeaves inTry elseS
  | .whileS _ body | .labeled _ body => body.leaves inTry
  | .tryS body handler final =>
    body.leaves true ++ Handler.optionLeaves handler ++ Stmt.optionLeaves true final
  | s => [(inTry, s)]

def Stmt.listLeaves (inTry : Bool) : List Stmt → List (Bool × Stmt)
  | [] => []
  | s :: rest => s.leaves inTry ++ Stmt.listLeaves inTry rest

def Stmt.optionLeaves (inTry : Bool) : Option Stmt → List (Bool × Stmt)
  | none => []
  | some s => s.leaves inTry

def Handler.optionLeaves : Option Handler → List (Bool × Stmt)
  | none => []
  | some ⟨_, body⟩ => body.leaves true

end

/-- What is executed where the leaf may be paused in.  A call that is returned in a `try` is bound
first. -/
def Stmt.pausing (inTry : Bool) : Stmt → List Stmt
  | .returnS (some e) => if inTry && e.isApplication then [.letS tailResult (some e)] else []
  | s => if s.application.isSome then [s] else []

def pauses (leaves : List (Bool × Stmt)) : List Stmt :=
  leaves.flatMap fun leaf => leaf.2.pausing leaf.1

mutual

/-- The statement with the calls that are returned in a `try` bound first. -/
def Stmt.bindTails (inTry : Bool) : Stmt → Stmt
  | .returnS (some e) =>
    if inTry && e.isApplication then .block [.letS tailResult (some e),
      .returnS (some (.ident tailResult))]
    else .returnS (some e)
  | .block body => .block (Stmt.listBindTails inTry body)
  | .ifS test thenS elseS => .ifS test (thenS.bindTails inTry) (Stmt.optionBindTails inTry elseS)
  | .whileS test body => .whileS test (body.bindTails inTry)
  | .labeled label body => .labeled label (body.bindTails inTry)
  | .tryS body handler final =>
    .tryS (body.bindTails true) (Handler.optionBindTails handler) (Stmt.optionBindTails true final)
  | s => s

def Stmt.listBindTails (inTry : Bool) : List Stmt → List Stmt
  | [] => []
  | s :: rest => s.bindTails inTry :: Stmt.listBindTails inTry rest

def Stmt.optionBindTails (inTry : Bool) : Option Stmt → Option Stmt
  | none => none
  | some s => some (s.bindTails inTry)

def Handler.optionBindTails : Option Handler → Option Handler
  | none => none
  | some ⟨param, body⟩ => some ⟨param, body.bindTails true⟩

end

namespace Segment

mutual

/-- The segment without its labels. -/
def erase : Segment → Stmt
  | .plain s | .capture _ s => s
  | .ret value _ => .returnS value
  | .block body => .block (listErase body)
  | .branch test thenS elseS => .ifS test thenS.erase (optionErase elseS)
  | .loop test body => .whileS test body.erase
  | .labeled label body => .labeled label body.erase
  | .attempt body handler final => .tryS body.erase (handlerErase handler) (optionErase final)

def listErase : List Segment → List Stmt
  | [] => []
  | s :: rest => s.erase :: listErase rest

def optionErase : Option Segment → Option Stmt
  | none => none
  | some s => some s.erase

def handlerErase : Option (String × Segment) → Option Handler
  | none => none
  | some (param, s) => some ⟨param, s.erase⟩

end

mutual

/-- The statements with labels, in the order in which they are written. -/
def captures : Segment → List (Stmt × Nat)
  | .plain _ | .ret .. => []
  | .capture label s => [(s, label)]
  | .block body => listCaptures body
  | .branch _ thenS elseS => thenS.captures ++ optionCaptures elseS
  | .loop _ body | .labeled _ body => body.captures
  | .attempt body handler final => body.captures ++ handlerCaptures handler ++ optionCaptures final

def listCaptures : List Segment → List (Stmt × Nat)
  | [] => []
  | s :: rest => s.captures ++ listCaptures rest

def optionCaptures : Option Segment → List (Stmt × Nat)
  | none => []
  | some s => s.captures

def handlerCaptures : Option (String × Segment) → List (Stmt × Nat)
  | none => []
  | some (_, s) => s.captures

end

mutual

theorem labels_eq : (s : Segment) → s.labels = s.captures.map Prod.snd
  | .plain _ | .ret .. | .capture .. => rfl
  | .block body => listLabels_eq body
  | .branch _ thenS elseS =>
    by rw [labels, thenS.labels_eq, optionLabels_eq elseS, captures, List.map_append]
  | .loop _ body | .labeled _ body => body.labels_eq
  | .attempt body handler final => by
    rw [labels, body.labels_eq, handlerLabels_eq handler, optionLabels_eq final, captures,
      List.map_append, List.map_append]

theorem listLabels_eq : (body : List Segment) → listLabels body = (listCaptures body).map Prod.snd
  | [] => rfl
  | s :: rest => by rw [listLabels, s.labels_eq, listLabels_eq rest, listCaptures, List.map_append]

theorem optionLabels_eq : (part : Option Segment) → optionLabels part = (optionCaptures part).map
    Prod.snd
  | none => rfl
  | some s => s.labels_eq

theorem handlerLabels_eq : (handler : Option (String × Segment)) →
    handlerLabels handler = (handlerCaptures handler).map Prod.snd
  | none => rfl
  | some (_, s) => s.labels_eq

end

end Segment

/-! ## Captures -/

/-- The statements are numbered from `next`, and the number after them is `after`. -/
structure Lists (next after : Nat) (found : List Stmt) (captures : List (Stmt × Nat)) : Prop where
  after : after = next + found.length
  captures : captures = found.zipIdx next

theorem Lists.nil (next : Nat) : Lists next next [] [] :=
  ⟨rfl, rfl⟩

theorem Lists.append {first next after : Nat} {leaves later : List (Bool × Stmt)}
    {captures captures' : List (Stmt × Nat)} (left : Lists first next (pauses leaves) captures)
    (right : Lists next after (pauses later) captures') :
    Lists first after (pauses (leaves ++ later)) (captures ++ captures') := by
  have both : pauses (leaves ++ later) = pauses leaves ++ pauses later := List.flatMap_append
  refine ⟨?_, ?_⟩
  · rw [right.after, left.after, both, List.length_append, Nat.add_assoc]
  · rw [left.captures, right.captures, left.after, both, List.zipIdx_append]

theorem Stmt.leaf_lists {leaves : List (Bool × Stmt)} (next : Nat) {s : Stmt}
    (found : pauses leaves = if s.application.isSome then [s] else []) :
    Lists next (s.leaf next).2 (pauses leaves) (s.leaf next).1.captures := by
  rw [found]
  unfold Stmt.leaf
  split <;> exact ⟨rfl, rfl⟩

mutual

theorem Stmt.segment_lists (inTry : Bool) : (s : Stmt) → (next : Nat) →
    Lists next (s.segment inTry next).2 (pauses (s.leaves inTry)) (s.segment inTry next).1.captures
  | .letS _ _, next | .assign _ _, next | .expr _, next => Stmt.leaf_lists next (List.append_nil _)
  | .returnS none, next => .nil next
  | .returnS (some e), next => by
    have found : pauses [(inTry, .returnS (some e))] = Stmt.pausing inTry (.returnS (some e)) :=
    List.append_nil _
    simp only [Stmt.segment]
    split
    · rename_i tail
      obtain ⟨inside, isApp⟩ := Bool.and_eq_true_iff.mp tail
      refine (Stmt.leaf_lists next (found.trans ?_)).append (.nil _)
      simp [Stmt.pausing, Stmt.application, inside, isApp]
    · rename_i plain
      exact (found.trans (if_neg plain)) ▸ .nil next
  | .block body, next => Stmt.segments_lists inTry body next
  | .ifS _ thenS elseS, next =>
    (thenS.segment_lists inTry next).append (Stmt.segmentOption_lists inTry elseS _)
  | .whileS _ body, next | .labeled _ body, next => body.segment_lists inTry next
  | .tryS body handler final, next =>
    ((body.segment_lists true next).append (Handler.segmentOption_lists handler _)).append
      (Stmt.segmentOption_lists true final _)
  | .breakS _, next | .continueS _, next | .throwS _, next | .decl _, next | .restoreFrame, next
  | .stackDec, next | .stackInc, next | .recordOnCapture .., next | .shadowFrame .., next
  | .returnIfCapturing _, next | .rethrowSignal _, next => .nil next

theorem Stmt.segments_lists (inTry : Bool) : (body : List Stmt) → (next : Nat) →
    Lists next (Stmt.segments inTry next body).2 (pauses (Stmt.listLeaves inTry body))
      (Segment.listCaptures (Stmt.segments inTry next body).1)
  | [], next => .nil next
  | s :: rest, next => (s.segment_lists inTry next).append (Stmt.segments_lists inTry rest _)

theorem Stmt.segmentOption_lists (inTry : Bool) : (part : Option Stmt) → (next : Nat) →
    Lists next (Stmt.segmentOption inTry next part).2 (pauses (Stmt.optionLeaves inTry part))
      (Segment.optionCaptures (Stmt.segmentOption inTry next part).1)
  | none, next => .nil next
  | some s, next => s.segment_lists inTry next

theorem Handler.segmentOption_lists : (handler : Option Handler) → (next : Nat) →
    Lists next (Handler.segmentOption next handler).2 (pauses (Handler.optionLeaves handler))
      (Segment.handlerCaptures (Handler.segmentOption next handler).1)
  | none, next => .nil next
  | some ⟨_, body⟩, next => body.segment_lists true next

end

/-- The labels of an analysis are the numbers below their count. -/
theorem analyze_labels (body : List Stmt) :
    Segment.listLabels (analyze body).body = List.range (analyze body).labelCount := by
  have lists := Stmt.segments_lists false body 0
  have count : (analyze body).labelCount = 0 + _ := lists.after
  rw [Segment.listLabels_eq, show Segment.listCaptures (analyze body).body = _ from lists.captures,
    List.zipIdx_map_snd, count, Nat.zero_add, List.range_eq_range']

theorem analyze_nodup (body : List Stmt) : (Segment.listLabels (analyze body).body).Nodup := by
  rw [analyze_labels]
  exact List.nodup_range

/-! ## Segments without labels -/

theorem Stmt.leaf_erase (next : Nat) (s : Stmt) : (s.leaf next).1.erase = s := by
  unfold Stmt.leaf
  split <;> rfl

mutual

theorem Stmt.segment_erase (inTry : Bool) : (s : Stmt) → (next : Nat) →
    (s.segment inTry next).1.erase = s.bindTails inTry
  | .letS _ _, next | .assign _ _, next | .expr _, next => Stmt.leaf_erase next _
  | .returnS none, _ => rfl
  | .returnS (some e), next => by
    simp only [Stmt.segment, Stmt.bindTails]
    split
    · exact congrArg (fun first => Stmt.block [first, _]) (Stmt.leaf_erase next _)
    · rfl
  | .block body, next => congrArg Stmt.block (Stmt.segments_erase inTry body next)
  | .ifS _ thenS elseS, next =>
    congr (congrArg (Stmt.ifS _) (thenS.segment_erase inTry next))
    (Stmt.segmentOption_erase inTry elseS _)
  | .whileS _ body, next => congrArg (Stmt.whileS _) (body.segment_erase inTry next)
  | .labeled _ body, next => congrArg (Stmt.labeled _) (body.segment_erase inTry next)
  | .tryS body handler final, next =>
    congr (congr (congrArg Stmt.tryS (body.segment_erase true next))
      (Handler.segmentOption_erase handler _)) (Stmt.segmentOption_erase true final _)
  | .breakS _, _ | .continueS _, _ | .throwS _, _ | .decl _, _ | .restoreFrame, _ | .stackDec,
      _ | .stackInc, _
  | .recordOnCapture .., _ | .shadowFrame .., _ | .returnIfCapturing _, _ | .rethrowSignal _, _ =>
    rfl

theorem Stmt.segments_erase (inTry : Bool) : (body : List Stmt) → (next : Nat) →
    Segment.listErase (Stmt.segments inTry next body).1 = Stmt.listBindTails inTry body
  | [], _ => rfl
  | s :: rest, next =>
    congr (congrArg List.cons (s.segment_erase inTry next)) (Stmt.segments_erase inTry rest _)

theorem Stmt.segmentOption_erase (inTry : Bool) : (part : Option Stmt) → (next : Nat) →
    Segment.optionErase (Stmt.segmentOption inTry next part).1 = Stmt.optionBindTails inTry part
  | none, _ => rfl
  | some s, next => congrArg some (s.segment_erase inTry next)

theorem Handler.segmentOption_erase : (handler : Option Handler) → (next : Nat) →
    Segment.handlerErase (Handler.segmentOption next handler).1 = Handler.optionBindTails handler
  | none, _ => rfl
  | some ⟨param, body⟩, next =>
    congrArg (fun body => some (Handler.mk param body)) (body.segment_erase true next)

end

/-! ## Parts of segments -/

namespace Segment

/-- The segments that a segment is put together from, in the order in which they are written. -/
def parts : Segment → List Segment
  | .plain _ | .capture .. | .ret .. => []
  | .block body => body
  | .branch _ thenS elseS => thenS :: elseS.toList
  | .loop _ body | .labeled _ body => [body]
  | .attempt body handler final => body :: (handler.toList.map Prod.snd ++ final.toList)

/-- The segment stands in the list, at any depth. -/
inductive Occurs (body : List Segment) : Segment → Prop where
  | outer {s : Segment} : s ∈ body → Occurs body s
  | part {s inner : Segment} : Occurs body s → inner ∈ s.parts → Occurs body inner

/-- The labels go up by one. -/
def Consecutive (s : Segment) : Prop :=
  ∃ next count, s.labels = List.range' next count

/-- All labels of the first segment are smaller than those of the second. -/
def Before (s later : Segment) : Prop :=
  ∀ label ∈ s.labels, ∀ next ∈ later.labels, label < next

theorem listLabels_flatMap (body : List Segment) : listLabels body = body.flatMap labels := by
  induction body with
  | nil => rfl
  | cons s rest ih => rw [listLabels, ih, List.flatMap_cons]

theorem parts_labels (s : Segment) : s.parts.flatMap labels = s.labels ∨ s.parts = [] := by
  cases s with
  | plain | capture | ret => exact .inr rfl
  | block body => exact .inl (listLabels_flatMap body).symm
  | branch test thenS elseS => cases elseS <;> exact .inl (by simp [parts, labels, optionLabels])
  | loop | labeled => exact .inl (List.append_nil _)
  | attempt body handler final =>
    rcases handler with _ | ⟨param, handler⟩ <;> cases final <;>
      exact .inl (by simp [parts, labels, optionLabels, handlerLabels])

/-- Segments that have consecutive labels together have them on their own, in order. -/
theorem consecutive_of_flatMap {body : List Segment} {next count : Nat}
    (range : body.flatMap labels = List.range' next count) :
    (∀ s ∈ body, s.Consecutive) ∧ body.Pairwise Before := by
  have sorted : (body.flatMap labels).Pairwise (· < ·) := range ▸ List.pairwise_lt_range'
  refine ⟨fun s mem => ?_, (List.pairwise_flatMap.mp sorted).2⟩
  obtain ⟨before, after, rfl⟩ := List.append_of_mem mem
  rw [List.flatMap_append, List.flatMap_cons] at range
  obtain ⟨_, _, _, rest⟩ := List.range'_eq_append_iff.mp range.symm
  obtain ⟨_, _, own, _⟩ := List.range'_eq_append_iff.mp rest.symm
  exact ⟨_, _, own⟩

theorem Consecutive.parts {s : Segment} (consecutive : s.Consecutive) :
    (∀ inner ∈ s.parts, inner.Consecutive) ∧ s.parts.Pairwise Before := by
  obtain ⟨_, _, own⟩ := consecutive
  rcases s.parts_labels with all | none
  · exact consecutive_of_flatMap (all.trans own)
  · rw [none]
    exact ⟨List.forall_mem_nil _, .nil⟩

theorem Occurs.consecutive {body : List Segment} (outer : ∀ s ∈ body, s.Consecutive) {s : Segment}
    (occurs : Occurs body s) : s.Consecutive := by
  induction occurs with
  | outer mem => exact outer _ mem
  | part _ mem ih => exact ih.parts.1 _ mem

end Segment

/-- **Labels are faithful.**  The labels are the numbers below their count, each once and in order.
They stand on the statements that may be paused in, in the order in which these are written.  Every
segment, at any depth, has consecutive labels, and none of its parts has labels in common with
another.  Without labels the segments are the statements that were analysed, with the calls that are
returned in a `try` bound first. -/
theorem analyze_numbers (body : List Stmt) :
    Segment.listLabels (analyze body).body = List.range (analyze body).labelCount ∧
    Segment.listCaptures (analyze body).body = (pauses (Stmt.listLeaves false body)).zipIdx ∧
    (analyze body).labelCount = (pauses (Stmt.listLeaves false body)).length ∧
    (analyze body).body.Pairwise Segment.Before ∧
    (∀ s, Segment.Occurs (analyze body).body s → s.Consecutive ∧ s.parts.Pairwise Segment.Before) ∧
    Segment.listErase (analyze body).body = Stmt.listBindTails false body := by
  have labels := analyze_labels body
  have lists := Stmt.segments_lists false body 0
  have range : (analyze body).body.flatMap Segment.labels = List.range' 0
      (analyze body).labelCount := by
    rw [← Segment.listLabels_flatMap, labels, List.range_eq_range']
  obtain ⟨outer, inOrder⟩ := Segment.consecutive_of_flatMap range
  refine ⟨labels, lists.captures, lists.after.trans (Nat.zero_add _), inOrder, ?_,
    Stmt.segments_erase false body 0⟩
  exact fun s occurs => ⟨occurs.consecutive outer, (occurs.consecutive outer).parts.2⟩

/-- A call in a statement for which a frame is kept has no label. -/
theorem analyze_recordOnCapture : (Stmt.expr (.call (.ident "f") [])).application.isSome = true ∧
    (analyze [.recordOnCapture 0 (.expr (.call (.ident "f") []))]).labelCount = 0 :=
  ⟨rfl, rfl⟩

end Resumable
