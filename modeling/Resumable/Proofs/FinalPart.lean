import Resumable.Proofs.Replay

/-!
Statements that are resumed in their `finally` part.

The end of a body that a `finally` part was entered with is kept by the activation alone, and no
frame saves it.  A restoring run that looks for a label of the `finally` part goes through the body
again, where nothing is done but what `Stmt.exposes` names.  So the statement ends as if its body
began with the first `return` that is in the way, and where there is none, as its `finally` part
does.
-/

namespace Resumable

/-! ## Parts of text in two modes -/

/-- What a run of text in two modes can come to. -/
inductive Stmt.TwoModes (own : String → Prop) : Stmt → Prop
  | bare {s : Stmt} : (∀ label, s.holds label = false) → Stmt.TwoModes own s
  | point {label : Nat} : Stmt.TwoModes own (.returnIfCapturing label)
  | signed {labels : List Nat} {s : Stmt} : labels.Nodup → s.Signed own labels → Stmt.TwoModes own s
  | guarded {test : Expr} {s : Stmt} : Stmt.TwoModes own s → Stmt.TwoModes own (.ifS test s none)
  | loop {test : Expr} {s : Stmt} : Stmt.TwoModes own s → Stmt.TwoModes own (.whileS test s)
  | labeled {name : String} {s : Stmt} : Stmt.TwoModes own s → Stmt.TwoModes own (.labeled name s)
  | block {body : List Stmt} : (∀ s, s.Met body → Stmt.TwoModes own s) →
      Stmt.TwoModes own (.block body)

namespace Stmt

variable {own : String → Prop} {s : Stmt} {body rest : List Stmt}

theorem Met.mem (met : s.Met body) : s ∈ body := by
  induction met with
  | head => exact List.mem_cons_self
  | tail _ _ ih => exact List.mem_cons_of_mem _ ih

theorem Met.of_append (met : s.Met (body ++ rest)) : s.Met body ∨ s.Met rest := by
  induction body with
  | nil => exact .inr met
  | cons other body ih =>
    cases met with
    | head => exact .inl .head
    | tail goesOn met => exact (ih met).imp (.tail goesOn) id

/-- A run of a list without labels comes to nothing with labels. -/
theorem Met.bare (met : s.Met body) (bare : ∀ label, listHolds label body = false) (label : Nat) :
    s.holds label = false :=
  Bool.eq_false_iff.mpr fun holds => Bool.eq_false_iff.mp (bare label) (met.holds holds)

/-- Statements one after the other in two modes. -/
theorem SignedList.met {labels : List Nat} {body : List Stmt} : SignedList own labels body →
    labels.Nodup → s.Met body → s.TwoModes own
  | .cons first rest, unique, met => by
    obtain ⟨here, later, _⟩ := List.nodup_append.mp unique
    cases met with
    | head => exact .signed here first
    | tail _ met => exact rest.met later met
  | .point pausing rest, unique, met => by
    cases met with
    | head => exact .bare pausing.holds
    | tail _ met =>
      cases met with
      | head => exact .point
      | tail _ met => exact rest.met (List.nodup_cons.mp unique).2 met
  | .result _, _, met => by
    cases met with
    | head => exact .bare fun _ => rfl
    | tail _ met =>
      cases met with
      | head => exact .bare fun _ => rfl
      | tail _ met =>
        cases met with
        | head => exact .bare fun _ => rfl
        | tail goesOn _ => exact nomatch goesOn

/-- What is inside of a statement without labels. -/
theorem TwoModes.inside {outer : Stmt} (bare : ∀ label, outer.holds label = false)
    (held : ∀ label, s.holds label = true → outer.holds label = true) : s.TwoModes own :=
  .bare fun label => Bool.eq_false_iff.mpr fun holds => Bool.eq_false_iff.mp (bare label)
    (held label holds)

attribute [local simp] Stmt.holds Stmt.optionHolds Handler.optionHolds

/-- A run of text in two modes comes to such text. -/
theorem Reached.twoModes (outer : ∀ s : Stmt, s.Met body → s.TwoModes own)
    (reached : Reached body s) : s.TwoModes own := by
  induction reached with
  | outer met => exact outer _ met
  | block _ met ih =>
    cases ih with
    | bare bare => exact .bare (met.bare bare)
    | signed unique signed =>
      cases signed with
      | block body => exact body.met unique met
    | block all => exact all _ met
  | thenS _ ih =>
    cases ih with
    | bare bare => exact .inside bare fun _ holds => by simp [holds]
    | signed unique signed =>
      cases signed with
      | only bare => exact .bare bare
      | branch thenS _ => exact .signed (List.nodup_append.mp unique).1 thenS
      | loop body => exact .labeled (.loop (.signed unique body))
      | labeled _ body => exact .labeled (.signed unique body)
    | guarded inner => exact inner
  | elseS _ ih =>
    cases ih with
    | bare bare => exact .inside bare fun _ holds => by simp [holds]
    | signed unique signed =>
      cases signed with
      | branch _ elseS =>
        cases elseS with
        | some s => exact .guarded (.signed (List.nodup_append.mp unique).2.1 s)
  | loop _ ih =>
    cases ih with
    | bare bare => exact .inside bare fun _ holds => by simp [holds]
    | signed _ signed => exact nomatch signed
    | loop inner => exact inner
  | labeled _ ih =>
    cases ih with
    | bare bare => exact .inside bare fun _ holds => by simp [holds]
    | signed _ signed => exact nomatch signed
    | labeled inner => exact inner
  | tried _ ih =>
    cases ih with
    | bare bare => exact .inside bare fun _ holds => by simp [holds]
    | signed unique signed =>
      cases signed with
      | attempt body handler _ =>
        refine .block fun s met => ?_
        rcases met.of_append with met | met
        · exact .bare (met.bare handler.opening.1)
        · exact body.met (List.nodup_append.mp (List.nodup_append.mp unique).1).1 met
  | handler _ ih =>
    cases ih with
    | bare bare => exact .inside bare fun _ holds => by simp [holds]
    | signed unique signed =>
      cases signed with
      | attempt _ handler _ =>
        cases handler with
        | some _ body =>
          refine .block fun s met => ?_
          cases met with
          | head => exact .bare fun _ => rfl
          | tail _ met =>
            exact body.met (List.nodup_append.mp (List.nodup_append.mp unique).1).2.1 met
  | final _ ih =>
    cases ih with
    | bare bare => exact .inside bare fun _ holds => by simp [holds]
    | signed unique signed =>
      cases signed with
      | attempt _ _ final =>
        cases final with
        | some s => exact .guarded (.signed (List.nodup_append.mp unique).2.1 s)
  | recorded _ ih =>
    cases ih with
    | bare bare => exact .inside bare fun _ holds => by simp [holds]
    | signed _ signed =>
      cases signed with
      | recorded pausing => exact .bare pausing.holds
  | shadowed _ ih =>
    cases ih with
    | bare bare => exact .inside bare fun _ holds => by simp [holds]
    | signed _ signed =>
      cases signed with
      | shadowed pausing => exact .bare pausing.holds

/-- A run of a body with signposts comes to text in two modes. -/
theorem Signposted.reached (signposted : Signposted own body) (reached : Reached body s) :
    s.TwoModes own := by
  obtain ⟨labels, opening, main, closing, opens, rfl, distinct, signed, bare⟩ := signposted
  refine reached.twoModes fun s met => ?_
  have begins : ∀ other ∈ opening ++ [.stackDec, .restoreFrame], ∀ label, other.holds label =
      false := by
    rcases opens with rfl | rfl <;> simp
  rw [List.append_cons, List.append_cons, List.append_assoc opening] at met
  rcases met.of_append with met | met
  · exact .bare (begins s met.mem)
  · rcases met.of_append with met | met
    · exact signed.met distinct met
    · exact .bare (met.bare bare)

end Stmt

/-! ## Restoring runs -/

/-- Observation of any engine, where nothing is told of what is performed. -/
def Observer.of (g : Engine) : Observer where
  engine := g
  perform _ action := .lift (g.perform action)
  faithful _ _ := rfl

/-- The body from the first statement on that has a `return` in the way of a restoring run. -/
def Stmt.exposed : Stmt → Stmt
  | .block body => .block (body.dropWhile fun s => !s.exposes)
  | s => s

namespace Run

variable {σ α β : Type} {x y : Run σ α} {s s' : σ}

/-- What comes after a computation looks at its end only. -/
theorem bind_of_eq (same : x s = y s') (f : α → Run σ β) : (x >>= f) s = (y >>= f) s' := by
  show Run.bind x f s = Run.bind y f s'
  unfold Run.bind
  rw [same]

theorem attempt_of_eq (same : x s = y s') : x.attempt s = y.attempt s' := by
  unfold attempt
  rw [same]

end Run

section Restoring

variable {own kind : String → Prop} {label : Nat} {g : Engine} {l l' : Local}

theorem Observed.Passes.run {α : Type} {x : Observed Local α} {result : α}
    (passes : x.Passes l result) : ∃ l', l.Through l' ∧ x.erase l = .ok result l' := by
  obtain ⟨l', events, eq, _, through⟩ := passes
  exact ⟨l', through, congrArg Prod.fst eq⟩

/-- A statement that is passed, before others. -/
theorem Stmt.execList_cons_of_passes {s : Stmt} {rest : List Stmt}
    (passes : (s.observe (.of g) []).Passes l .normal) :
    ∃ l', l.Through l' ∧ Stmt.execList g (s :: rest) l = Stmt.execList g rest l' := by
  obtain ⟨l', through, ends⟩ := passes.run
  rw [Stmt.erase_observe] at ends
  refine ⟨l', through, ?_⟩
  rw [Stmt.execList]
  exact Run.bind_of_eq (y := pure Completion.normal) ends _

/-- A body without the label does nothing before the first `return` in the way. -/
theorem Stmt.SignedList.exec_dropWhile {labels : List Nat} {body : List Stmt} :
    Stmt.SignedList own labels body → label ∉ labels → ∀ {l : Local}, l.Seeks kind label →
      ∃ l', l.Through l' ∧ Stmt.execList g body l = Stmt.execList g (body.dropWhile fun s =>
        !s.exposes) l'
  | .nil, _, l, _ => ⟨l, .refl l, rfl⟩
  | .cons (s := s) signed rest, away, l, seeks => by
    rw [List.mem_append, not_or] at away
    cases exposed : s.exposes with
    | true => exact ⟨l, .refl l, by rw [List.dropWhile_cons_of_neg (by simp [exposed])]⟩
    | false =>
      obtain ⟨l₁, first, runs⟩ := Stmt.execList_cons_of_passes (signed.passes away.1 exposed seeks)
      obtain ⟨l₂, second, goesOn⟩ := rest.exec_dropWhile away.2 (seeks.through first)
      refine ⟨l₂, first.trans second, ?_⟩
      rw [runs, goesOn, List.dropWhile_cons_of_pos (by simp [exposed])]
  | .point _ rest, away, l, seeks => by
    rw [List.mem_cons, not_or] at away
    obtain ⟨l₁, first, runs⟩ := Stmt.execList_cons_of_passes (Stmt.pointAt_passes away.1 seeks)
    replace seeks := seeks.through first
    obtain ⟨l₂, second, runs'⟩ := Stmt.execList_cons_of_passes (Stmt.returnIfCapturing_passes seeks)
    obtain ⟨l₃, third, goesOn⟩ := rest.exec_dropWhile away.2 (seeks.through second)
    refine ⟨l₃, (first.trans second).trans third, ?_⟩
    rw [runs, runs', goesOn]
    rfl
  | .result _, _, l, _ => ⟨l, .refl l, rfl⟩

/-- What a handler and a `finally` part are entered with is the end of the body. -/
theorem Stmt.tryS_of_eq {body body' : Stmt} (same : body.exec g l = body'.exec g l')
    (handler : Option Handler) (final : Option Stmt) : (Stmt.tryS body handler final).exec g l =
    (Stmt.tryS body' handler final).exec g l' := by
  have handled : Handler.execOption g (body.exec g) handler l = Handler.execOption g
      (body'.exec g) handler l' := by
    cases handler with
    | none => exact same
    | some handler =>
      obtain ⟨param, handler⟩ := handler
      exact Run.bind_of_eq (Run.attempt_of_eq same) _
  rw [Stmt.exec, Stmt.exec]
  exact Run.bind_of_eq (Run.attempt_of_eq handled) _

theorem Exec.settle_normal (x : Exec Completion) :
    (do
      match ← x with
      | .normal => Run.settle (.ok .normal)
      | abrupt => return abrupt) = x := by
  refine Eq.trans (bind_congr fun completion => ?_) (bind_pure x)
  cases completion <;> rfl

/-- A body that ended normally is followed by its `finally` part. -/
theorem Stmt.tryS_of_normal {tried final : Stmt} (ends : tried.exec g l = .ok .normal l')
    (handler : Option Handler) : (Stmt.tryS tried handler (some final)).exec g l =
    final.exec g l' := by
  have handled : Handler.execOption g (tried.exec g) handler l = (pure Completion.normal :
      Exec Completion) l' := by
    cases handler with
    | none => exact ends
    | some handler =>
      obtain ⟨param, handler⟩ := handler
      exact Run.bind_of_eq (Run.attempt_of_eq (y := (pure Completion.normal : Exec Completion))
        ends) _
  rw [Stmt.exec]
  refine (Run.bind_of_eq (Run.attempt_of_eq handled) _).trans ?_
  exact congrFun (Exec.settle_normal (final.exec g)) l'

/-- Without a `return` in the way nothing is left of the body. -/
theorem Stmt.dropWhile_exposes {body : List Stmt} (hidden : Stmt.listExposes body = false) :
    body.dropWhile (fun s => !s.exposes) = [] := by
  induction body with
  | nil => rfl
  | cons s rest ih =>
    obtain ⟨here, later⟩ := Bool.or_eq_false_iff.mp hidden
    rw [List.dropWhile_cons_of_pos (by simp [here]), ih later]

/-- Where the label is in the `finally` part, the body does nothing before the first `return` in the
way. -/
theorem Stmt.Signed.tried_exec {labels : List Nat} {tried final : Stmt} {handler : Option Handler}
    (signed : (Stmt.tryS tried handler (some final)).Signed own labels) (unique : labels.Nodup)
    (holds : final.holds label = true) (seeks : l.Seeks kind label) :
    ∃ l', l.Through l' ∧ tried.exec g l = tried.exposed.exec g l' ∧
      (tried.exposes = false → tried.exec g l = .ok .normal l') := by
  cases signed with
  | @attempt inBody inHandler inFinal opening body _ _ inTried handled atEnd =>
    obtain ⟨_, _, apart⟩ := List.nodup_append.mp unique
    have away : label ∉ inBody ++ inHandler := fun mem => apart label mem label
      (atEnd.mem_of_holds holds) rfl
    rw [List.mem_append, not_or] at away
    suffices skips : ∃ l', l.Through l' ∧ Stmt.execList g (opening ++ body) l =
        Stmt.execList g ((opening ++ body).dropWhile fun s => !s.exposes) l' by
      obtain ⟨l', through, runs⟩ := skips
      rw [Stmt.exposed, Stmt.exec, Stmt.exec]
      refine ⟨l', through, runs, fun hidden => ?_⟩
      rw [runs, Stmt.dropWhile_exposes hidden]
      rfl
    have hidden := handled.opening_hidden
    rcases handled.opening_away away.2 with rfl | ⟨test, s, rfl, decides⟩
    · exact inTried.exec_dropWhile away.1 seeks
    · obtain ⟨l₁, first, runs⟩ := Stmt.execList_cons_of_passes (Stmt.guarded_passes decides seeks)
      obtain ⟨l₂, second, goesOn⟩ := inTried.exec_dropWhile away.1 (seeks.through first)
      refine ⟨l₂, first.trans second, ?_⟩
      have passed : (Stmt.ifS test s none).exposes = false := (Bool.or_eq_false_iff.mp hidden).1
      rw [List.singleton_append, runs, goesOn, List.dropWhile_cons_of_pos (by simp [passed])]

end Restoring

/-- The text is the top level of a program that was compiled with the options and loaded, or the
body of a function of such a program. -/
def Stmt.CompiledWith (given : CompileOptions) (body : List Stmt) : Prop :=
  ∃ (source compiled : Program) (site : Nat), source.compile given = .ok compiled ∧
    (body = (compiled.number site).1.body ∨ ∃ f : Func, f.WrittenIn (compiled.number site).1.body ∧
      body = f.body)

theorem Stmt.CompiledWith.signposted {given : CompileOptions} {body : List Stmt}
    (compiled : Stmt.CompiledWith given body) (pauses : given.strategy ≠ .fudge) :
    ∃ own, Stmt.Signposted own body := by
  obtain ⟨source, program, site, ok, rfl | ⟨f, written, rfl⟩⟩ := compiled
  · exact ⟨_, Program.number_top_signposted pauses ok site⟩
  · exact ⟨_, Func.CompiledWith.signposted ⟨source, program, site, ok, written⟩ pauses⟩

/-- A statement that is resumed in its `finally` part does not remember how its body ended.  It runs
as if the body began with the first `return` that is in the way, and where there is none, it ends as
its `finally` part does. -/
theorem Stmt.tryS_resumes {given : CompileOptions} (pauses : given.strategy ≠ .fudge)
    {body : List Stmt} (compiled : Stmt.CompiledWith given body) {tried final : Stmt}
    {handler : Option Handler}
    (reached : Stmt.Reached body (.tryS tried handler (some final))) {label : Nat}
    (holds : final.holds label = true) {l : Local} (seeks : l.Seeks (fun _ => False) label)
    (g : Engine) :
    ∃ l', l.Through l' ∧
      (Stmt.tryS tried handler (some final)).exec g l = (Stmt.tryS tried.exposed handler
        (some final)).exec g l' ∧
      (tried.exposes = false → (Stmt.tryS tried handler (some final)).exec g l =
          final.exec g l') := by
  obtain ⟨own, signposted⟩ := compiled.signposted pauses
  cases signposted.reached reached with
  | bare bare =>
    have held : (Stmt.tryS tried handler (some final)).holds label = true := by
      simp [Stmt.holds, Stmt.optionHolds, holds]
    exact absurd held (by simp [bare label])
  | signed unique signed =>
    obtain ⟨l', through, runs, passes⟩ := signed.tried_exec unique holds seeks
    exact ⟨l', through, Stmt.tryS_of_eq runs handler _, fun hidden =>
      Stmt.tryS_of_normal (passes hidden) handler⟩

/-- A program that captures in the `finally` part of a statement whose body throws. -/
def Program.interrupted : Program :=
  { body := [.decl { name := some "h", params := ["k"], body := [.returnS (some .null)] },
      .decl { name := some "f", body := [
        .tryS (.throwS .null) none (some (.expr (.call (.ident "captureCC") [.ident "h"]))),
        .returnS none] },
      .tryS (.block [.expr (.call (.ident "f") []),
        .expr (.call (.ident "print") [.str "went on"])])
        (some ⟨"e", .expr (.call (.ident "print") [.str "caught"])⟩) none,
      .returnS none] }

/-- Where a restoring run comes to a statement with its label in the `finally` part. -/
def Event.resuming? : Event → Option (Stmt × Option Handler × Stmt × Nat × Local)
  | .stmt (.tryS tried handler (some final)) l => l.act.target.bind fun label =>
    if final.holds label && l.act.caught.isNone && !l.machine.capturing && decide (l.machine.mode =
      .restoring ∧ l.act.scope.index < l.machine.store.scopes.size) then some (tried, handler,
      final, label, l) else none
  | _ => none

theorem Event.eq_of_resuming? {event : Event} {tried final : Stmt} {handler : Option Handler}
    {label : Nat} {l : Local} (resuming : event.resuming? = some (tried, handler, final,
      label, l)) :
    event = .stmt (.tryS tried handler (some final)) l ∧ final.holds label = true ∧
      l.Seeks (fun _ => False) label := by
  unfold Event.resuming? at resuming
  split at resuming
  · obtain ⟨other, target, found⟩ := Option.bind_eq_some_iff.mp resuming
    split at found
    · rename_i state
      cases found
      simp only [Bool.and_eq_true, Option.isNone_iff_eq_none, Bool.not_eq_true',
        decide_eq_true_eq] at state
      obtain ⟨⟨⟨holds, caught⟩, calm⟩, restoring, known⟩ := state
      exact ⟨rfl, holds, { restoring, target, calm, caught, known, bound := nofun }⟩
    · exact nomatch found
  · exact nomatch resuming

theorem Program.interrupted_resumes :
    ((Program.interrupted.compile {}).toOption.map fun compiled =>
      match Machine.turn 8 (.run (.enterTop (Machine.top compiled.load)))
          ((Machine.new .lazy {}).setInterval compiled.load) with
      | some (.next next, m) => match (m.chronicle 8 next).findSome? (·.resuming?) with
          | some (tried, _, _, _, l) => !tried.exposes && l.act.callee.isSome
          | none => false
      | _ => false) = some true := by decide +kernel

/-- In the turn that restores the frames, the statement whose body threw ends as its `finally` part
does. -/
theorem Stmt.tryS_resumes_of_interrupted :
    ∃ compiled, Program.interrupted.compile {} = .ok compiled ∧
      ∃ next m tried handler final label l l', Machine.turn 8
          (.run (.enterTop (Machine.top compiled.load)))
          ((Machine.new .lazy {}).setInterval compiled.load) = some (.next next, m) ∧
        .stmt (.tryS tried handler (some final)) l ∈ m.chronicle 8 next ∧ final.holds label = true ∧
        l.Seeks (fun _ => False) label ∧ l.Through l' ∧
        (Stmt.tryS tried handler (some final)).exec (engine 8) l = final.exec (engine 8) l' := by
  obtain ⟨compiled, ok, run⟩ := Option.map_eq_some_iff.mp Program.interrupted_resumes
  replace ok := Program.compile_of_toOption ok
  have accepted : Program.CompiledUnder (fun _ => True) .lazy compiled.load :=
    ⟨Program.interrupted, compiled, _, Program.firstSite, ok, rfl, rfl, trivial⟩
  have session : SessionOf (Program.CompiledUnder (fun _ => True) .lazy) .lazy {}
    (Machine.new .lazy {}) := .new rfl
  split at run
  · rename_i next m turned
    split at run
    · rename_i tried handler final label l found
      rw [Bool.and_eq_true, Bool.not_eq_true'] at run
      obtain ⟨hidden, called⟩ := run
      obtain ⟨closure, called⟩ := Option.isSome_iff_exists.mp called
      obtain ⟨event, told, resuming⟩ := List.exists_of_findSome?_eq_some found
      obtain ⟨rfl, holds, seeks⟩ := Event.eq_of_resuming? resuming
      have nests : Func.Nests fun f => ∃ given : CompileOptions, given.strategy = .lazy ∧
          f.CompiledWith given :=
        Func.compiledWith_nests
      have reaches := Machine.ReachesOf.turn (.run accepted) turned
      have inScope := reaches.inScope nests (Program.CompiledUnder.yields fun _ runs _ =>
        runs) session 8 _ told
      obtain ⟨given, runs, source, program, site, compiles, written⟩ :=
        (Event.Moment.stmt.inScope nests inScope).ownScope closure called |>.code
      obtain ⟨l', through, _, ends⟩ := Stmt.tryS_resumes (by simp [runs])
        ⟨source, program, site, compiles, .inr ⟨_, written, rfl⟩⟩ inScope.2 holds seeks (engine 8)
      exact ⟨compiled, ok, next, m, tried, handler, final, label, l, l', turned, told, holds, seeks,
        through, ends hidden⟩
    · cases run
  · cases run

/-- **An exception can get lost.**  The `finally` part ends normally, but after a capture in it the
exception of the body is not raised any more.  Without captures the handler around the call gets it.
-/
theorem Machine.run_interrupted :
    ((Program.interrupted.compile {}).toOption.map fun compiled =>
        ((Machine.new .lazy {}).run 20 compiled.load).map (·.2.output)) = some (some #["went on"]) ∧
      ((Program.interrupted.compile { strategy := .fudge }).toOption.map fun compiled =>
        ((Machine.new .fudge {}).run 20 compiled.load).map (·.2.output)) =
            some (some #["caught"]) := by
  decide +kernel

end Resumable
