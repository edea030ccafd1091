import Mathlib.Logic.Basic
import Resumable.Proofs.Loaded
import Resumable.Proofs.Places

/-!
What a function binds, and what its layout says of it.

`Stmt.binds` are the names that running a statement may bind in the scope of its function, and
`Stmt.mentionsArguments` tells whether it reads `arguments`; both look at syntax alone, whoever
wrote it.  `Func.Stocked` asks of a function that its layout has all names the function binds, the
local for a result apart, and that frames of the function save what `arguments` is made of if it is
read.  Every function of a compiled program is of that kind, and stays so when the program is loaded
(`Program.number_stocked`).
-/

namespace Resumable

variable {f : Func} {s : Stmt} {body : List Stmt} {options : CompileOptions}
  {source compiled : Program}

/-! ## Names and arguments -/

mutual

/-- The names that the statement may bind in the scope of its function. -/
def Stmt.binds : Stmt → List String
  | .letS name _ => [name]
  | .decl f => f.boundName
  | .block body => Stmt.listBinds body
  | .ifS _ thenS elseS => thenS.binds ++ Stmt.optionBinds elseS
  | .whileS _ body | .labeled _ body | .recordOnCapture _ body | .shadowFrame _ body => body.binds
  | .tryS body handler final => body.binds ++ Handler.optionBinds handler ++ Stmt.optionBinds final
  | .assign .. | .expr _ | .breakS _ | .continueS _ | .returnS _ | .throwS
      _ | .restoreFrame | .stackDec | .stackInc
  | .returnIfCapturing _ | .rethrowSignal _ => []

def Stmt.listBinds : List Stmt → List String
  | [] => []
  | s :: rest => s.binds ++ Stmt.listBinds rest

def Stmt.optionBinds : Option Stmt → List String
  | none => []
  | some s => s.binds

def Handler.optionBinds : Option Handler → List String
  | none => []
  | some ⟨param, body⟩ => param :: body.binds

end

def Expr.optionReadsArguments : Option Expr → Bool
  | none => false
  | some e => e.readsArguments

mutual

/-- The statement reads `arguments`, not counting the functions inside of it. -/
def Stmt.mentionsArguments : Stmt → Bool
  | .letS _ init | .returnS init => Expr.optionReadsArguments init
  | .assign target value => value.readsArguments || target.readsArguments
  | .expr e | .throwS e => e.readsArguments
  | .block body => Stmt.listMentionsArguments body
  | .ifS test thenS elseS =>
    test.readsArguments || thenS.mentionsArguments || Stmt.optionMentionsArguments elseS
  | .whileS test body => test.readsArguments || body.mentionsArguments
  | .labeled _ body | .recordOnCapture _ body | .shadowFrame _ body => body.mentionsArguments
  | .tryS body handler final =>
    body.mentionsArguments || Handler.optionMentionsArguments handler ||
    Stmt.optionMentionsArguments final
  | .decl _ | .breakS _ | .continueS _ | .restoreFrame | .stackDec | .stackInc | .returnIfCapturing
      _
  | .rethrowSignal _ => false

def Stmt.listMentionsArguments : List Stmt → Bool
  | [] => false
  | s :: rest => s.mentionsArguments || Stmt.listMentionsArguments rest

def Stmt.optionMentionsArguments : Option Stmt → Bool
  | none => false
  | some s => s.mentionsArguments

def Handler.optionMentionsArguments : Option Handler → Bool
  | none => false
  | some ⟨_, body⟩ => body.mentionsArguments

end

def Func.mentionsArguments (f : Func) : Bool :=
  Stmt.listMentionsArguments f.body

attribute [local simp] Stmt.binds Stmt.listBinds Stmt.optionBinds Handler.optionBinds
  Expr.optionReadsArguments Stmt.mentionsArguments Stmt.listMentionsArguments
  Stmt.optionMentionsArguments Handler.optionMentionsArguments
  Expr.readsArguments

theorem Stmt.listBinds_append (first second : List Stmt) :
    Stmt.listBinds (first ++ second) = Stmt.listBinds first ++ Stmt.listBinds second := by
  induction first with
  | nil => rfl
  | cons s rest ih => simp [ih]

theorem Stmt.listMentionsArguments_append (first second : List Stmt) :
    Stmt.listMentionsArguments (first ++ second) =
      (Stmt.listMentionsArguments first || Stmt.listMentionsArguments second) := by
  induction first with
  | nil => rfl
  | cons s rest ih => simp [ih, Bool.or_assoc]

/-- The function is one of those, and its name is among the names. -/
def Func.DeclaredIn (functions : List Func) (names : List String) (f : Func) : Prop :=
  f ∈ functions ∧ ∀ name ∈ f.name, name ∈ names

theorem Func.DeclaredIn.mono {functions functions' : List Func} {names names' : List String}
    (declared : f.DeclaredIn functions names) (inside : functions ⊆ functions')
    (bound : names ⊆ names') :
    f.DeclaredIn functions' names' :=
  ⟨inside declared.1, fun name mem => bound (declared.2 name mem)⟩

mutual

/-- What is declared in a statement is in it, and its name is bound. -/
theorem Stmt.declared_in : (s : Stmt) → ∀ f ∈ s.declared, f.DeclaredIn s.functions s.binds
  | .decl ⟨name, _, _, _, _⟩ => fun f mem => by
    cases List.mem_singleton.mp mem
    exact ⟨List.mem_singleton_self _, fun _ mem => Option.mem_toList.mpr mem⟩
  | .block body => Stmt.declaredList_in body
  | .ifS _ thenS elseS => fun f mem => by
    rcases List.mem_append.mp mem with mem | mem
    · exact (Stmt.declared_in thenS f mem).mono (by intro g mem; simp [Stmt.functions, mem])
        (List.subset_append_left _ _)
    · exact (Stmt.declaredOption_in elseS f mem).mono (List.subset_append_right
      _ _) (List.subset_append_right _ _)
  | .whileS _ body =>
    fun f mem => (Stmt.declared_in body f mem).mono (List.subset_append_right _ _) fun _ => id
  | .labeled _ body | .recordOnCapture _ body | .shadowFrame _ body => Stmt.declared_in body
  | .tryS body handler final => fun f mem => by
    rcases List.mem_append.mp mem with mem | mem
    · rcases List.mem_append.mp mem with mem | mem
      · exact (Stmt.declared_in body f mem).mono (by intro g mem; simp [Stmt.functions, mem])
          (by intro g mem; simp [mem])
      · exact (Handler.declaredOption_in handler f mem).mono
          (by intro g mem; simp [Stmt.functions, mem]) (by intro g mem; simp [mem])
    · exact (Stmt.declaredOption_in final f mem).mono (List.subset_append_right _
      _) (List.subset_append_right _ _)
  | .letS .. | .assign .. | .expr _ | .breakS _ | .continueS _ | .returnS
      _ | .throwS _ | .restoreFrame | .stackDec
  | .stackInc | .returnIfCapturing _ | .rethrowSignal _ => nofun

theorem Stmt.declaredList_in : (body : List Stmt) →
    ∀ f ∈ Stmt.declaredList body, f.DeclaredIn (Stmt.listFunctions body) (Stmt.listBinds body)
  | [] => nofun
  | s :: rest => fun f mem => by
    rcases List.mem_append.mp mem with mem | mem
    · exact (Stmt.declared_in s f mem).mono (List.subset_append_left _ _) (List.subset_append_left _
      _)
    · exact (Stmt.declaredList_in rest f mem).mono (List.subset_append_right _
      _) (List.subset_append_right _ _)

theorem Stmt.declaredOption_in : (o : Option Stmt) →
    ∀ f ∈ Stmt.declaredOption o, f.DeclaredIn (Stmt.optionFunctions o) (Stmt.optionBinds o)
  | none => nofun
  | some s => Stmt.declared_in s

theorem Handler.declaredOption_in : (o : Option Handler) →
    ∀ f ∈ Handler.declaredOption o, f.DeclaredIn (Handler.optionFunctions o) (Handler.optionBinds o)
  | none => nofun
  | some ⟨_, body⟩ => fun f mem => (Stmt.declared_in body f mem).mono
    (fun _ => id) (List.subset_cons_self _ _)

end

/-! ## Two modes -/

section TwoModes

variable {mode : DualMode} {code : Func → Prop}

theorem Stmt.ofList_binds (stmts : List Stmt) : (Stmt.ofList stmts).binds =
    Stmt.listBinds stmts := by
  match stmts with
  | [] => rfl
  | [s] => simp [Stmt.ofList]
  | _ :: _ :: _ => rfl

theorem Stmt.ofList_mentionsArguments (stmts : List Stmt) :
    (Stmt.ofList stmts).mentionsArguments = Stmt.listMentionsArguments stmts := by
  match stmts with
  | [] => rfl
  | [s] => simp [Stmt.ofList]
  | _ :: _ :: _ => rfl

theorem Stmt.guarded_binds (test : Expr) (s : Stmt) : (Stmt.guarded test s).binds = s.binds := by
  simp [Stmt.guarded]

theorem Stmt.guarded_mentionsArguments (test : Expr) (s : Stmt) :
    (Stmt.guarded test s).mentionsArguments = (test.readsArguments || s.mentionsArguments) := by
  simp [Stmt.guarded]

theorem shareGuard_binds (run : List Stmt) : Stmt.listBinds (shareGuard run) =
    Stmt.listBinds run := by
  match run with
  | [] => rfl
  | [s] => simp [shareGuard, Stmt.guarded]
  | _ :: _ :: _ => simp [shareGuard, Stmt.guarded]

theorem shareGuard_mentionsArguments (run : List Stmt) :
    Stmt.listMentionsArguments (shareGuard run) = Stmt.listMentionsArguments run := by
  match run with
  | [] => rfl
  | [s] => simp [shareGuard, Stmt.guarded]
  | _ :: _ :: _ => simp [shareGuard, Stmt.guarded]

theorem coalesceRun_binds (run stmts : List Stmt) :
    Stmt.listBinds (coalesceRun run stmts) = Stmt.listBinds run.reverse ++
    Stmt.listBinds stmts := by
  induction stmts generalizing run with
  | nil => rw [coalesceRun, shareGuard_binds, Stmt.listBinds, List.append_nil]
  | cons s rest ih =>
    unfold coalesceRun
    split
    · rename_i body guard
      rw [ih, List.reverse_cons, Stmt.listBinds_append, Stmt.normalOnly?_eq_some guard]
      simp [Stmt.guarded]
    · simp [Stmt.listBinds_append, shareGuard_binds, ih]

theorem coalesceRun_mentionsArguments (run stmts : List Stmt) :
    Stmt.listMentionsArguments (coalesceRun run stmts) =
      (Stmt.listMentionsArguments run.reverse || Stmt.listMentionsArguments stmts) := by
  induction stmts generalizing run with
  | nil => rw [coalesceRun, shareGuard_mentionsArguments, Stmt.listMentionsArguments, Bool.or_false]
  | cons s rest ih =>
    unfold coalesceRun
    split
    · rename_i body guard
      rw [ih, List.reverse_cons, Stmt.listMentionsArguments_append, Stmt.normalOnly?_eq_some guard]
      simp [Stmt.guarded, Bool.or_assoc]
    · simp [Stmt.listMentionsArguments_append, shareGuard_mentionsArguments, ih]

theorem coalesce_binds (stmts : List Stmt) : Stmt.listBinds (coalesce stmts) =
    Stmt.listBinds stmts :=
  coalesceRun_binds [] stmts

theorem coalesce_mentionsArguments (stmts : List Stmt) :
    Stmt.listMentionsArguments (coalesce stmts) = Stmt.listMentionsArguments stmts :=
  coalesceRun_mentionsArguments [] stmts

/-- The statement for restoring mode binds what the statement binds. -/
theorem Stmt.restoring_binds (s : Stmt) : s.restoring.binds = s.binds := by
  cases s <;> rfl

theorem capturePoint_binds (strategy : Strategy) (label : Nat) (s : Stmt) :
    ∀ name ∈ Stmt.listBinds (capturePoint strategy label s), name ∈ s.binds := by
  intro name mem
  cases strategy <;>
    simpa [capturePoint, Stmt.dual, Stmt.guarded_binds, Stmt.restoring_binds] using mem

/-- A statement with an application, as it is put into a capture point. -/
theorem capturePoint_mentionsArguments (strategy : Strategy) (label : Nat)
    (restoring : s.restoring.mentionsArguments = true → s.mentionsArguments = true) :
    Stmt.listMentionsArguments (capturePoint strategy label s) = s.mentionsArguments := by
  have both : (s.mentionsArguments || s.restoring.mentionsArguments) = s.mentionsArguments := by
    cases h : s.restoring.mentionsArguments with
    | false => rw [Bool.or_false]
    | true => rw [restoring h, Bool.or_true]
  cases strategy <;> simp [capturePoint, Stmt.dual, Stmt.guarded_mentionsArguments, both]

/-- The statements bind nothing but these names and the local for a result, and read `arguments` if
they should. -/
structure Stmt.Owning (names : List String) (arguments : Bool) (out : List Stmt) : Prop where
  binds : ∀ name ∈ Stmt.listBinds out, name ∈ names ∨ name = resultLocal
  mentions : Stmt.listMentionsArguments out = arguments

namespace Stmt.Owning

variable {names later : List String} {arguments others : Bool} {out rest : List Stmt}

theorem nil : Stmt.Owning [] false [] :=
  ⟨nofun, rfl⟩

theorem append (left : Stmt.Owning names arguments out) (right : Stmt.Owning later others rest) :
    Stmt.Owning (names ++ later) (arguments || others) (out ++ rest) where
  binds name mem := by
    rw [Stmt.listBinds_append] at mem
    rcases List.mem_append.mp mem with mem | mem
    · exact (left.binds name mem).imp_left (List.mem_append_left _)
    · exact (right.binds name mem).imp_left (List.mem_append_right _)
  mentions := by rw [Stmt.listMentionsArguments_append, left.mentions, right.mentions]

theorem single (binds : ∀ name ∈ s.binds, name ∈ names ∨ name = resultLocal)
    (mentions : s.mentionsArguments = arguments) : Stmt.Owning names arguments [s] where
  binds name mem := by
    rw [Stmt.listBinds, Stmt.listBinds, List.append_nil] at mem
    exact binds name mem
  mentions := by simpa using mentions

theorem coalesced (owning : Stmt.Owning names arguments out) : Stmt.Owning names arguments
    (coalesce out) :=
  ⟨by rw [coalesce_binds]; exact owning.binds, by
    rw [coalesce_mentionsArguments]; exact owning.mentions⟩

theorem ofList_binds (owning : Stmt.Owning names arguments out) :
    ∀ name ∈ (Stmt.ofList out).binds, name ∈ names ∨ name = resultLocal := by
  rw [Stmt.ofList_binds]
  exact owning.binds

theorem ofList_mentions (owning : Stmt.Owning names arguments out) :
    (Stmt.ofList out).mentionsArguments = arguments := by
  rw [Stmt.ofList_mentionsArguments]
  exact owning.mentions

end Stmt.Owning

/-- A statement without others in it. -/
theorem DualMode.leaf_owning (s : Stmt) (next : Nat)
    (plain : DualMode.plain s = .guarded .isNormal s) (restoring : s.restoring.mentionsArguments =
      true → s.mentionsArguments = true) :
    Stmt.Owning s.binds s.mentionsArguments (mode.segment (Stmt.leaf next s).1) := by
  unfold Stmt.leaf
  split
  · rw [DualMode.segment]
    exact ⟨fun name mem => .inl (capturePoint_binds _ _ s name mem),
      capturePoint_mentionsArguments _ _ restoring⟩
  · rw [DualMode.segment, plain]
    exact .single (by rw [Stmt.guarded_binds]; exact fun _ => .inl)
      (by simp [Stmt.guarded_mentionsArguments])

theorem DualMode.ret_owning (value : Option Expr) (app : AppType) :
    Stmt.Owning [] (Expr.optionReadsArguments value) (mode.ret value app) := by
  have result : (Expr.optionReadsArguments (some (value.getD .undefined))) =
      Expr.optionReadsArguments value := by
    cases value <;> rfl
  cases app with
  | none =>
    simp only [DualMode.ret]
    split
    · refine ⟨?_, ?_⟩
      · simp
      · simpa [DualMode.constructorResult] using result
    · exact ⟨by simp, by simp⟩
  | mixed => exact ⟨by simp [DualMode.ret], by simp [DualMode.ret]⟩
  | tail => exact ⟨by simp [DualMode.ret, Stmt.guarded], by simp [DualMode.ret, Stmt.guarded]⟩

/-- The two-mode form of a statement binds what the analysis says, wherever its labels begin. -/
def DualMode.Owns (mode : DualMode) (s : Stmt) : Prop :=
  ∀ inTry next, Stmt.Owning (s.boundNames inTry) s.readsArguments
    (mode.segment (s.segment inTry next).1)

theorem DualMode.segments_owning (owns : ∀ s ∈ body, mode.Owns s) (inTry : Bool) (next : Nat) :
    Stmt.Owning (Stmt.boundNamesList inTry body) (Stmt.anyReadsArguments body)
      (mode.segments (Stmt.segments inTry next body).1) := by
  induction body generalizing next with
  | nil => exact .nil
  | cons s rest ih =>
    rw [List.forall_mem_cons] at owns
    simp only [Stmt.segments, DualMode.segments]
    exact (owns.1 inTry next).append (ih owns.2 _)

theorem restoringInto_readsArguments {labels : List Nat} {e : Expr}
    (into : restoringInto labels = some e) : e.readsArguments = false := by
  unfold restoringInto at into
  split at into
  · cases into
  · cases into
    rfl

theorem orRestoring_readsArguments (test : Expr) (labels : List Nat) :
    (orRestoring test labels).readsArguments = test.readsArguments := by
  unfold orRestoring
  split
  · rename_i into
    simp [restoringInto_readsArguments into]
  · rfl

theorem DualMode.segmentElse_owning {elseS : Option Stmt} (owns : ∀ s ∈ elseS, mode.Owns s)
    (inTry : Bool) (next : Nat) :
    (∀ name ∈ Stmt.optionBinds (mode.segmentElse (Stmt.segmentOption inTry next elseS).1),
      name ∈ Stmt.boundNamesOption inTry elseS ∨ name = resultLocal) ∧
    Stmt.optionMentionsArguments (mode.segmentElse (Stmt.segmentOption inTry next elseS).1) =
      Stmt.optionReadsArguments elseS := by
  cases elseS with
  | none => exact ⟨nofun, rfl⟩
  | some s =>
    have inside := owns s rfl inTry next
    simp only [Stmt.segmentOption, DualMode.segmentElse, Stmt.optionBinds, Stmt.guarded_binds,
      Stmt.optionMentionsArguments, Stmt.guarded_mentionsArguments, orRestoring_readsArguments]
    exact ⟨inside.ofList_binds, inside.ofList_mentions⟩

theorem DualMode.segmentFinal_owning {final : Option Stmt} (owns : ∀ s ∈ final, mode.Owns s)
    (next : Nat) : (∀ name ∈ Stmt.optionBinds (mode.segmentFinal (Stmt.segmentOption true next
      final).1), name ∈ Stmt.boundNamesOption true final ∨ name = resultLocal) ∧
    Stmt.optionMentionsArguments (mode.segmentFinal (Stmt.segmentOption true next final).1) =
      Stmt.optionReadsArguments final := by
  cases final with
  | none => exact ⟨nofun, rfl⟩
  | some s =>
    have inside := owns s rfl true next
    simp only [Stmt.segmentOption, DualMode.segmentFinal, Stmt.optionBinds, Stmt.guarded_binds,
      Stmt.optionMentionsArguments, Stmt.guarded_mentionsArguments]
    exact ⟨inside.ofList_binds, inside.ofList_mentions⟩

theorem DualMode.segmentHandler_owning {handler : Option Handler}
    (owns : ∀ h ∈ handler, mode.Owns h.body) (next : Nat) :
    (∀ name ∈ Handler.optionBinds (mode.segmentHandler (Handler.segmentOption next handler).1),
      name ∈ Handler.boundNamesOption handler ∨ name = resultLocal) ∧
    Handler.optionMentionsArguments (mode.segmentHandler (Handler.segmentOption next handler).1) =
      Handler.optionReadsArguments handler := by
  cases handler with
  | none => exact ⟨nofun, rfl⟩
  | some h =>
    obtain ⟨param, body⟩ := h
    have inside := owns ⟨param, body⟩ rfl true next
    refine ⟨fun name mem => ?_, ?_⟩
    · rcases List.mem_cons.mp mem with rfl | mem
      · exact .inl List.mem_cons_self
      · exact (inside.binds name mem).imp_left (List.mem_cons_of_mem _)
    · exact inside.mentions

theorem DualMode.intoHandler_owning (param : String) (labels : List Nat) :
    Stmt.Owning [] false (DualMode.intoHandler param labels) := by
  unfold DualMode.intoHandler
  split
  · rename_i into
    refine .single (by simp [Stmt.guarded]) ?_
    simp [Stmt.guarded, restoringInto_readsArguments into]
  · exact .nil

theorem DualMode.owns_of_sound (sound : s.Sound code) : mode.Owns s := by
  intro inTry next
  induction sound generalizing inTry next with
  | block _ ih =>
    have inside := (DualMode.segments_owning ih inTry next).coalesced
    exact .single inside.binds inside.mentions
  | @letS name init _ =>
    have reads : (Stmt.letS name init).readsArguments =
        (Stmt.letS name init).mentionsArguments := by
      cases init <;> rfl
    rw [reads]
    exact DualMode.leaf_owning (.letS name init) next rfl (by simp [Stmt.restoring,
      Stmt.mentionsArguments])
  | @assign target value _ _ =>
    refine DualMode.leaf_owning (.assign target value) next rfl fun mentions => ?_
    replace mentions : target.readsArguments = true := mentions
    simp [mentions]
  | @expr e _ =>
    exact DualMode.leaf_owning (.expr e) next rfl (by simp [Stmt.restoring, Stmt.mentionsArguments])
  | @ifS test thenS elseS _ _ _ thenIH elseIH =>
    have inThen := thenIH inTry next
    have inElse := DualMode.segmentElse_owning elseIH inTry (thenS.segment inTry next).2
    simp only [Stmt.segment, DualMode.segment]
    refine .single (fun name mem => ?_) ?_
    · rcases List.mem_append.mp mem with mem | mem
      · exact (inThen.ofList_binds name mem).imp_left (List.mem_append_left _)
      · exact (inElse.1 name mem).imp_left (List.mem_append_right _)
    · simp [orRestoring_readsArguments, inThen.ofList_mentions, inElse.2, Stmt.readsArguments]
  | @loop label test body _ _ ih =>
    have inside := ih inTry next
    simp only [Stmt.segment, DualMode.segment]
    refine .single ?_ ?_
    · rw [Stmt.guarded_binds]
      exact inside.ofList_binds
    · rw [Stmt.guarded_mentionsArguments, orRestoring_readsArguments]
      show (false || Stmt.mentionsArguments (.whileS _
        (.ofList (mode.segment (body.segment inTry next).1)))) =
        (test.readsArguments || body.readsArguments)
      rw [Stmt.mentionsArguments, inside.ofList_mentions]
      split
      · rename_i into
        simp [restoringInto_readsArguments into]
      · simp
  | labeled _ _ ih =>
    have inside := ih inTry next
    simp only [Stmt.segment, DualMode.segment]
    refine .single ?_ ?_
    · rw [Stmt.guarded_binds]
      exact inside.ofList_binds
    · rw [Stmt.guarded_mentionsArguments, orRestoring_readsArguments]
      exact inside.ofList_mentions
  | breakS => exact .single (List.forall_mem_nil _) rfl
  | @returnS value _ =>
    cases value with
    | none => exact DualMode.ret_owning none .none
    | some e =>
      simp only [Stmt.segment, Stmt.boundNames]
      split
      · have bound : Stmt.Owning [tailResult] e.readsArguments
            (mode.segment (Stmt.leaf next (.letS tailResult (some e))).1) :=
          DualMode.leaf_owning (.letS tailResult (some e)) next rfl (by simp [Stmt.restoring,
            Stmt.mentionsArguments])
        have answer : Stmt.Owning [] false (mode.ret (some (.ident tailResult)) .none) :=
          DualMode.ret_owning (some (.ident tailResult)) .none
        have inside := (bound.append (answer.append .nil)).coalesced
        exact .single (fun name mem => inside.binds name mem)
          (inside.mentions.trans (Bool.or_false _))
      · exact DualMode.ret_owning (some e) _
  | throwS _ =>
    exact .single (List.forall_mem_nil _) (by simp [DualMode.plain, Stmt.guarded,
      Stmt.readsArguments])
  | @tryS body handler final _ _ _ bodyIH handlerIH finalIH =>
    have inBody := bodyIH true next
    have inHandler := DualMode.segmentHandler_owning handlerIH (body.segment true next).2
    have inFinal := DualMode.segmentFinal_owning finalIH
      (Handler.segmentOption (body.segment true next).2 handler).2
    have opened : ∀ opening, (opening = [] ∨ ∃ param labels, opening = DualMode.intoHandler param
        labels) → Stmt.Owning (body.boundNames true) body.readsArguments
          (opening ++ mode.segment (body.segment true next).1) := by
      rintro opening (rfl | ⟨param, labels, rfl⟩)
      · exact inBody
      · exact (DualMode.intoHandler_owning param labels).append inBody
    simp only [Stmt.segment, DualMode.segment]
    refine .single (fun name mem => ?_) ?_
    · simp only [Stmt.boundNames, List.mem_append]
      rcases List.mem_append.mp mem with mem | mem
      · rcases List.mem_append.mp mem with mem | mem
        · refine ((opened _ ?_).binds name mem).imp_left (Or.inl ∘ .inl)
          split
          · exact .inr ⟨_, _, rfl⟩
          · exact .inl rfl
        · exact (inHandler.1 name mem).imp_left (Or.inl ∘ .inr)
      · exact (inFinal.1 name mem).imp_left .inr
    · show (Stmt.listMentionsArguments (_ ++ mode.segment (body.segment true next).1) || _ || _) = _
      rw [(opened _ ?_).mentions, inHandler.2, inFinal.2, Stmt.readsArguments]
      split
      · exact .inr ⟨_, _, rfl⟩
      · exact .inl rfl
  | @decl f _ =>
    refine .single (fun name mem => .inl ?_) rfl
    rwa [DualMode.plain, Stmt.guarded_binds] at mem

theorem DualMode.body_owning (sound : ∀ s ∈ body, s.Sound code) :
    Stmt.Owning (Stmt.boundNamesList false body) (Stmt.anyReadsArguments body)
    (mode.body (analyze body).body) :=
  (DualMode.segments_owning (fun s mem => DualMode.owns_of_sound (sound s mem)) false 0).coalesced

end TwoModes

/-! ## Functions -/

/-- The layout has all names that the function binds, the local for a result apart, and says how to
call the function again: with its parameters, or with its arguments if it reads them. -/
structure Func.Stocked (options : CompileOptions) (f : Func) : Prop where
  opening : ∃ opening rest, (opening = [] ∨ opening = [.letS newTargetLocal (some .newTarget)]) ∧
    f.body = opening ++ .stackDec :: .restoreFrame :: rest
  layout : ∃ locals, (∀ name ∈ Stmt.listBinds f.body, name ∈ locals ∨ name = resultLocal) ∧
    f.frame = some {
      locals
      reentry := if f.mentionsArguments then .arguments (options.fidelity ≠ .simple) else .params
      saveFormals := f.mentionsArguments && options.fidelity = .full }

/-- A function whose body is the two-mode form of `body` between its opening and its closing. -/
theorem Func.stocked_of_body {mode : DualMode} {code : Func → Prop} {opening closing : List Stmt}
    {own : List String} (opens : opening = [] ∧ own = [] ∨
      opening = [.letS newTargetLocal (some .newTarget)] ∧ own = [newTargetLocal])
    (form : f.body = opening ++ .stackDec :: .restoreFrame :: (mode.body (analyze body).body ++
      closing))
    (sound : ∀ s ∈ body, s.Sound code) (binds : Stmt.listBinds closing = [])
    (mentions : Stmt.listMentionsArguments closing = false) (layout : f.frame = some {
      locals := (analyze body).locals ++ own
      reentry := if (analyze body).usesArguments then .arguments
        (options.fidelity ≠ .simple) else .params
      saveFormals := (analyze body).usesArguments && options.fidelity = .full }) :
          f.Stocked options := by
  have owning : Stmt.Owning (Stmt.boundNamesList false body) (Stmt.anyReadsArguments body)
      (mode.body (analyze body).body) := DualMode.body_owning sound
  have reads : f.mentionsArguments = (analyze body).usesArguments := by
    show _ = Stmt.anyReadsArguments body
    rw [Func.mentionsArguments, form]
    rcases opens with ⟨rfl, -⟩ | ⟨rfl, -⟩ <;> simp [Stmt.listMentionsArguments_append,
      owning.mentions, mentions]
  refine ⟨⟨opening, _, opens.imp (·.1) (·.1), form⟩, (analyze body).locals ++ own, fun name mem =>
    ?_, reads ▸ layout⟩
  have bound : Stmt.listBinds f.body = own ++ Stmt.listBinds (mode.body (analyze body).body) := by
    rw [form]
    rcases opens with ⟨rfl, rfl⟩ | ⟨rfl, rfl⟩ <;> simp [Stmt.listBinds_append, binds]
  rw [bound] at mem
  rcases List.mem_append.mp mem with mem | mem
  · exact .inl (List.mem_append_right _ mem)
  · exact (owning.binds name mem).imp_left fun mem => List.mem_append_left _
      (List.mem_eraseDups.mpr mem)

/-- The body and the layout of a function in two modes. -/
theorem Func.dualMode_form (options : CompileOptions) (f : Func) : ∃ opening closing own,
    ∃ mode : DualMode, mode.strategy = options.strategy ∧
    (opening = [] ∧ own = [] ∨ opening = [.letS newTargetLocal (some .newTarget)] ∧
      own = [newTargetLocal]) ∧
    (closing = [.stackInc] ∨ closing = [.stackInc, .guarded (.ident newTargetLocal)
      (.returnS (some .this))]) ∧
    (f.dualMode options).body =
      opening ++ .stackDec :: .restoreFrame :: (mode.body (analyze f.body).body ++ closing) ∧
    (f.dualMode options).frame = some {
      locals := (analyze f.body).locals ++ own
      reentry := if (analyze f.body).usesArguments then .arguments
        (options.fidelity ≠ .simple) else .params
      saveFormals := (analyze f.body).usesArguments && options.fidelity = .full } := by
  by_cases direct : options.construction = .direct
  · refine ⟨_, _, _, ⟨options.strategy, true⟩, rfl, .inr ⟨rfl, rfl⟩, .inr rfl, ?_, ?_⟩
    · simp [Func.dualMode, direct]
    · simp [Func.dualMode, Analysis.layout, direct]
  · refine ⟨_, _, _, ⟨options.strategy, false⟩, rfl, .inl ⟨rfl, rfl⟩, .inl rfl, ?_, ?_⟩
    · simp [Func.dualMode, direct]
    · simp [Func.dualMode, Analysis.layout, direct]

theorem Func.dualMode_stocked {code : Func → Prop} (sound : ∀ s ∈ f.body, s.Sound code) :
    (f.dualMode options).Stocked options := by
  obtain ⟨opening, closing, own, mode, _, opens, closes, form, layout⟩ := f.dualMode_form options
  refine Func.stocked_of_body opens form sound ?_ ?_ layout
  · rcases closes with rfl | rfl <;> rfl
  · rcases closes with rfl | rfl <;> rfl

/-! ## Compiled programs -/

/-- Whatever holds of functions in two modes. -/
def CompileOptions.Gives (options : CompileOptions) (p : Func → Prop) : Prop :=
  ∀ (code : Func → Prop) (f : Func), (∀ s ∈ f.body, s.Sound code) → p (f.dualMode options)

section Programs

variable {options : CompileOptions} {p : Func → Prop}

theorem CompileOptions.Gives.dualMode (gives : options.Gives p)
    (sound : ∀ s ∈ f.body, s.Sound (Func.Throughout p)) : (f.dualMode options).Throughout p := by
  obtain ⟨opening, closing, own, mode, _, opens, closes, form, _⟩ := f.dualMode_form options
  have dual : ∀ s ∈ mode.body (analyze f.body).body, s.Dual mode.strategy (Func.Throughout p)
      false :=
    DualMode.body_dual sound
  refine .intro (gives _ f sound) ?_
  rw [form]
  refine Stmt.listFunctions_of_forall fun s mem => ?_
  simp only [List.mem_cons, List.mem_append] at mem
  rcases mem with mem | rfl | rfl | mem | mem
  · rcases opens with ⟨rfl, -⟩ | ⟨rfl, -⟩
    · cases mem
    · cases List.mem_singleton.mp mem
      exact List.forall_mem_nil _
  · exact List.forall_mem_nil _
  · exact List.forall_mem_nil _
  · exact (dual s mem).functions
  · rcases closes with rfl | rfl
    · cases List.mem_singleton.mp mem
      exact List.forall_mem_nil _
    · simp only [List.mem_cons, List.not_mem_nil, or_false] at mem
      rcases mem with rfl | rfl <;> exact List.forall_mem_nil _

/-- All functions inside of a compiled program. -/
theorem CompileOptions.Gives.compile (gives : options.Gives p)
    (ok : source.compile options = .ok compiled) : ∀ f ∈ Stmt.listFunctions compiled.body,
    f.Throughout p := by
  obtain ⟨prepared, sound, compiles⟩ := Program.compile_eq (Program.accepted_of_compile ok)
  cases ok.symm.trans compiles
  have keeps : (instrumenting options).Keeps Func.Source (Func.Throughout p) :=
    instrumenting_keeps_of fun _ => gives.dualMode
  have transformed := Stmt.transformList_sound keeps prepared.body () sound
  have dual : ∀ s ∈ DualMode.body ⟨options.strategy, false⟩
      (analyze (Stmt.transformList (instrumenting options) () prepared.body)).body,
      s.Dual options.strategy (Func.Throughout p) false := DualMode.body_dual transformed
  refine Stmt.listFunctions_of_forall fun s mem => ?_
  simp only [Program.instrument, List.cons_append, List.nil_append, List.mem_cons, List.mem_append,
    List.not_mem_nil, or_false] at mem
  rcases mem with rfl | rfl | mem | rfl
  · exact List.forall_mem_nil _
  · exact List.forall_mem_nil _
  · exact (dual s mem).functions
  · exact List.forall_mem_nil _

end Programs

/-! ## Loading -/

/-- The functions are those of another list, loaded. -/
def Func.ListLoads (loaded fs : List Func) : Prop :=
  ∀ f' ∈ loaded, ∃ f ∈ fs, ∃ next, f' = (f.load next).1

theorem Func.ListLoads.nil {fs : List Func} : Func.ListLoads [] fs :=
  nofun

theorem Func.ListLoads.append {loaded loaded' fs fs' : List Func} (left : Func.ListLoads loaded fs)
    (right : Func.ListLoads loaded' fs') : Func.ListLoads (loaded ++ loaded') (fs ++ fs') := by
  intro f' mem
  rcases List.mem_append.mp mem with mem | mem
  · obtain ⟨f, mem, loads⟩ := left f' mem
    exact ⟨f, List.mem_append_left _ mem, loads⟩
  · obtain ⟨f, mem, loads⟩ := right f' mem
    exact ⟨f, List.mem_append_right _ mem, loads⟩

theorem Func.ListLoads.single (f : Func) (next : Nat) : Func.ListLoads [(f.load next).1] [f] :=
  List.forall_mem_singleton.mpr ⟨f, List.mem_singleton_self f, next, rfl⟩

mutual

theorem Expr.load_functions : (e : Expr) → (next : Nat) → Func.ListLoads (e.load next).1.functions
    e.functions
  | .binary _ left right, _ => (left.load_functions _).append (right.load_functions _)
  | .unary _ arg, _ => arg.load_functions _
  | .cond test thenE elseE, _ =>
    ((test.load_functions _).append (thenE.load_functions _)).append (elseE.load_functions _)
  | .member base _, _ => base.load_functions _
  | .index base key, _ => (base.load_functions _).append (key.load_functions _)
  | .call callee args, _ | .new callee args, _ | .handleNew callee args, _ =>
    (callee.load_functions _).append (Expr.loadList_functions args _)
  | .func f, next => .single f next
  | .array elements, _ => Expr.loadList_functions elements _
  | .object props, _ => Expr.loadProps_functions props _
  | .num _, _ | .str _, _ | .bool _, _ | .null, _ | .undefined, _ | .ident _, _ | .this,
      _ | .arguments, _
  | .isNormal, _ | .isRestoring, _ | .targetIn _, _ | .capturing, _ | .reenterNext,
      _ | .newTarget, _
  | .suspend, _ => .nil

theorem Expr.loadList_functions : (es : List Expr) → (next : Nat) →
    Func.ListLoads (Expr.listFunctions (Expr.loadList es next).1) (Expr.listFunctions es)
  | [], _ => .nil
  | e :: rest, _ => (e.load_functions _).append (Expr.loadList_functions rest _)

theorem Expr.loadProps_functions : (props : List (String × Expr)) → (next : Nat) →
    Func.ListLoads (Expr.propsFunctions (Expr.loadProps props next).1) (Expr.propsFunctions props)
  | [], _ => .nil
  | (_, e) :: rest, _ => (e.load_functions _).append (Expr.loadProps_functions rest _)

end

theorem Expr.loadOption_functions (value : Option Expr) (next : Nat) :
    Func.ListLoads (Expr.optionFunctions (Expr.loadOption value next).1)
    (Expr.optionFunctions value) := by
  cases value with
  | none => exact .nil
  | some e => exact e.load_functions next

theorem Target.load_functions (target : Target) (next : Nat) :
    Func.ListLoads (target.load next).1.functions target.functions := by
  cases target with
  | ident name => exact .nil
  | member base property => exact base.load_functions _
  | index base key => exact (base.load_functions _).append (key.load_functions _)

mutual

theorem Stmt.load_functions : (s : Stmt) → (next : Nat) → Func.ListLoads (s.load next).1.functions
    s.functions
  | .block body, _ => Stmt.loadList_functions body _
  | .letS _ init, _ => Expr.loadOption_functions init _
  | .assign target value, _ => (target.load_functions _).append (value.load_functions _)
  | .expr e, _ | .throwS e, _ => e.load_functions _
  | .ifS test thenS elseS, _ =>
    ((test.load_functions _).append (thenS.load_functions _)).append
    (Stmt.loadOption_functions elseS _)
  | .whileS test body, _ => (test.load_functions _).append (body.load_functions _)
  | .labeled _ body, _ | .recordOnCapture _ body, _ | .shadowFrame _ body, _ =>
    body.load_functions _
  | .returnS value, _ => Expr.loadOption_functions value _
  | .tryS body handler final, _ =>
    ((body.load_functions _).append (Handler.loadOption_functions handler _)).append
      (Stmt.loadOption_functions final _)
  | .decl f, next => .single f next
  | .breakS _, _ | .continueS _, _ | .restoreFrame, _ | .stackDec, _ | .stackInc,
      _ | .returnIfCapturing _, _
  | .rethrowSignal _, _ => .nil

theorem Stmt.loadList_functions : (body : List Stmt) → (next : Nat) →
    Func.ListLoads (Stmt.listFunctions (Stmt.loadList body next).1) (Stmt.listFunctions body)
  | [], _ => .nil
  | s :: rest, _ => (s.load_functions _).append (Stmt.loadList_functions rest _)

theorem Stmt.loadOption_functions : (o : Option Stmt) → (next : Nat) →
    Func.ListLoads (Stmt.optionFunctions (Stmt.loadOption o next).1) (Stmt.optionFunctions o)
  | none, _ => .nil
  | some s, _ => s.load_functions _

theorem Handler.loadOption_functions : (o : Option Handler) → (next : Nat) →
    Func.ListLoads (Handler.optionFunctions (Handler.loadOption o next).1)
    (Handler.optionFunctions o)
  | none, _ => .nil
  | some ⟨_, body⟩, _ => body.load_functions _

end

mutual

theorem Expr.load_readsArguments : (e : Expr) → (next : Nat) → (e.load next).1.readsArguments =
    e.readsArguments
  | .binary _ left right, _ =>
    congrArg₂ or (left.load_readsArguments _) (right.load_readsArguments _)
  | .unary _ arg, _ => arg.load_readsArguments _
  | .cond test thenE elseE, _ =>
    congrArg₂ or (congrArg₂ or (test.load_readsArguments _) (thenE.load_readsArguments _))
      (elseE.load_readsArguments _)
  | .member base _, _ => base.load_readsArguments _
  | .index base key, _ => congrArg₂ or (base.load_readsArguments _) (key.load_readsArguments _)
  | .call callee args, _ | .new callee args, _ | .handleNew callee args, _ =>
    congrArg₂ or (callee.load_readsArguments _) (Expr.loadList_readsArguments args _)
  | .array elements, _ => Expr.loadList_readsArguments elements _
  | .object props, _ => Expr.loadProps_readsArguments props _
  | .num _, _ | .str _, _ | .bool _, _ | .null, _ | .undefined, _ | .ident _, _ | .func _,
      _ | .this, _
  | .arguments, _ | .isNormal, _ | .isRestoring, _ | .targetIn _, _ | .capturing, _ | .reenterNext,
      _
  | .newTarget, _ | .suspend, _ => rfl

theorem Expr.loadList_readsArguments : (es : List Expr) → (next : Nat) →
    Expr.anyReadsArguments (Expr.loadList es next).1 = Expr.anyReadsArguments es
  | [], _ => rfl
  | e :: rest, _ => congrArg₂ or (e.load_readsArguments _) (Expr.loadList_readsArguments rest _)

theorem Expr.loadProps_readsArguments : (props : List (String × Expr)) → (next : Nat) →
    Expr.anyPropReadsArguments (Expr.loadProps props next).1 = Expr.anyPropReadsArguments props
  | [], _ => rfl
  | (_, e) :: rest, _ =>
    congrArg₂ or (e.load_readsArguments _) (Expr.loadProps_readsArguments rest _)

end

theorem Expr.loadOption_readsArguments (value : Option Expr) (next : Nat) :
    Expr.optionReadsArguments (Expr.loadOption value next).1 = Expr.optionReadsArguments value := by
  cases value with
  | none => rfl
  | some e => exact e.load_readsArguments next

theorem Target.load_readsArguments (target : Target) (next : Nat) :
    (target.load next).1.readsArguments = target.readsArguments := by
  cases target with
  | ident name => rfl
  | member base property => exact base.load_readsArguments _
  | index base key => exact congrArg₂ or (base.load_readsArguments _) (key.load_readsArguments _)

mutual

theorem Stmt.load_mentionsArguments : (s : Stmt) → (next : Nat) →
    (s.load next).1.mentionsArguments = s.mentionsArguments
  | .block body, _ => Stmt.loadList_mentionsArguments body _
  | .letS _ init, _ => Expr.loadOption_readsArguments init _
  | .assign target value, _ =>
    congrArg₂ or (value.load_readsArguments _) (target.load_readsArguments _)
  | .expr e, _ | .throwS e, _ => e.load_readsArguments _
  | .ifS test thenS elseS, _ =>
    congrArg₂ or (congrArg₂ or (test.load_readsArguments _) (thenS.load_mentionsArguments _))
      (Stmt.loadOption_mentionsArguments elseS _)
  | .whileS test body, _ =>
    congrArg₂ or (test.load_readsArguments _) (body.load_mentionsArguments _)
  | .labeled _ body, _ | .recordOnCapture _ body, _ | .shadowFrame _ body, _ =>
    body.load_mentionsArguments _
  | .returnS value, _ => Expr.loadOption_readsArguments value _
  | .tryS body handler final, _ =>
    congrArg₂ or (congrArg₂ or (body.load_mentionsArguments _)
      (Handler.loadOption_mentionsArguments handler _)) (Stmt.loadOption_mentionsArguments final _)
  | .decl _, _ | .breakS _, _ | .continueS _, _ | .restoreFrame, _ | .stackDec, _ | .stackInc, _
  | .returnIfCapturing _, _ | .rethrowSignal _, _ => rfl

theorem Stmt.loadList_mentionsArguments : (body : List Stmt) → (next : Nat) →
    Stmt.listMentionsArguments (Stmt.loadList body next).1 = Stmt.listMentionsArguments body
  | [], _ => rfl
  | s :: rest, _ =>
    congrArg₂ or (s.load_mentionsArguments _) (Stmt.loadList_mentionsArguments rest _)

theorem Stmt.loadOption_mentionsArguments : (o : Option Stmt) → (next : Nat) →
    Stmt.optionMentionsArguments (Stmt.loadOption o next).1 = Stmt.optionMentionsArguments o
  | none, _ => rfl
  | some s, _ => s.load_mentionsArguments _

theorem Handler.loadOption_mentionsArguments : (o : Option Handler) → (next : Nat) →
    Handler.optionMentionsArguments (Handler.loadOption o next).1 =
    Handler.optionMentionsArguments o
  | none, _ => rfl
  | some ⟨_, body⟩, _ => body.load_mentionsArguments _

end

theorem Func.load_boundName (f : Func) (next : Nat) : (f.load next).1.boundName = f.boundName := by
  cases f
  rfl

mutual

theorem Stmt.load_binds : (s : Stmt) → (next : Nat) → (s.load next).1.binds = s.binds
  | .block body, _ => Stmt.loadList_binds body _
  | .ifS _ thenS elseS, _ =>
    congrArg₂ List.append (thenS.load_binds _) (Stmt.loadOption_binds elseS _)
  | .whileS _ body, _ | .labeled _ body, _ | .recordOnCapture _ body, _ | .shadowFrame _ body, _ =>
    body.load_binds _
  | .tryS body handler final, _ =>
    congrArg₂ List.append (congrArg₂ List.append (body.load_binds _)
      (Handler.loadOption_binds handler _)) (Stmt.loadOption_binds final _)
  | .decl f, _ => f.load_boundName _
  | .letS .., _ | .assign .., _ | .expr _, _ | .returnS _, _ | .throwS _, _ | .breakS _,
      _ | .continueS _, _
  | .restoreFrame, _ | .stackDec, _ | .stackInc, _ | .returnIfCapturing _, _ | .rethrowSignal _,
    _ => rfl

theorem Stmt.loadList_binds : (body : List Stmt) → (next : Nat) →
    Stmt.listBinds (Stmt.loadList body next).1 = Stmt.listBinds body
  | [], _ => rfl
  | s :: rest, _ => congrArg₂ List.append (s.load_binds _) (Stmt.loadList_binds rest _)

theorem Stmt.loadOption_binds : (o : Option Stmt) → (next : Nat) →
    Stmt.optionBinds (Stmt.loadOption o next).1 = Stmt.optionBinds o
  | none, _ => rfl
  | some s, _ => s.load_binds _

theorem Handler.loadOption_binds : (o : Option Handler) → (next : Nat) →
    Handler.optionBinds (Handler.loadOption o next).1 = Handler.optionBinds o
  | none, _ => rfl
  | some ⟨param, body⟩, _ => congrArg (param :: ·) (body.load_binds _)

end

theorem Func.Stocked.load (stocked : f.Stocked options) (next : Nat) :
    (f.load next).1.Stocked options := by
  obtain ⟨name, params, body, frame, site⟩ := f
  obtain ⟨⟨opening, rest, opens, form⟩, locals, binds, layout⟩ := stocked
  have loaded : (Func.load ⟨name, params, body, frame, site⟩ next).1.body = (Stmt.loadList body
    (next + 1)).1 := rfl
  have mentions : (Func.load ⟨name, params, body, frame, site⟩ next).1.mentionsArguments =
      Func.mentionsArguments ⟨name, params, body, frame, site⟩ :=
      Stmt.loadList_mentionsArguments body _
  refine ⟨?_, locals, ?_, ?_⟩
  · replace form : body = opening ++ .stackDec :: .restoreFrame :: rest := form
    rcases opens with rfl | rfl <;> rw [loaded, form]
    · exact ⟨[], _, .inl rfl, rfl⟩
    · exact ⟨_, _, .inr rfl, rfl⟩
  · rw [loaded, Stmt.loadList_binds]
    exact binds
  · rw [mentions]
    exact layout

theorem Func.Throughout.load {p : Func → Prop} (loads : ∀ f next, p f → p (f.load next).1)
    (throughout : f.Throughout p) (next : Nat) : (f.load next).1.Throughout p := by
  induction throughout generalizing next with
  | @intro f here _ ih =>
    refine .intro (loads f next here) fun g' mem => ?_
    obtain ⟨name, params, body, frame, site⟩ := f
    obtain ⟨g, inside, next', rfl⟩ := Stmt.loadList_functions body _ g' mem
    exact ih g inside next'

/-- All functions inside of a compiled program that is loaded. -/
theorem CompileOptions.Gives.number {p : Func → Prop} (gives : options.Gives p)
    (loads : ∀ f next, p f → p (f.load next).1) (ok : source.compile options = .ok compiled)
    (site : Nat) :
    ∀ f ∈ Stmt.listFunctions (compiled.number site).1.body, f.Throughout p := by
  intro f' mem
  obtain ⟨f, inside, next, rfl⟩ := Stmt.loadList_functions compiled.body site f' mem
  exact (gives.compile ok f inside).load loads next

theorem Program.number_stocked (ok : source.compile options = .ok compiled) (site : Nat) :
    ∀ f ∈ Stmt.listFunctions (compiled.number site).1.body,
    f.Throughout (Func.Stocked options) := by
  have gives : options.Gives (Func.Stocked options) := fun _ _ => Func.dualMode_stocked
  exact gives.number (fun _ next stocked => stocked.load next) ok site

end Resumable
