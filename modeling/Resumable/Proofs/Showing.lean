import Mathlib.Data.Set.Finite.List
import Mathlib.Logic.Relation
import Mathlib.Order.WellFounded
import Resumable.Machine.Host
import Resumable.Syntax.Load
import Resumable.Proofs.Chronicle

/-!
Values that can be shown.

An array is shown with its items and an object with its own properties; nothing else is followed,
neither the prototype of an object nor what a function or a continuation holds.  `Store.Circular` is
said of a value from which one comes in this way to something that holds itself.  A store is finite,
so a value is shown, as text and as plain data, exactly if it is not circular; how deep it goes does
not matter.  Guest programs can make circular values, and printing one never ends.
-/

namespace Resumable

namespace Store

variable {s : Store} {value part : Value}

/-- What a value is shown with. -/
def parts (s : Store) : Value → List Value
  | .array id => (s.items id).toList
  | .object id => (s.object id).props.entries.map (·.2)
  | _ => []

/-- The second value is shown as a part of the first. -/
def Holds (s : Store) (value part : Value) : Prop :=
  part ∈ s.parts value

/-- On some way down from the value there is something that holds itself. -/
def Circular (s : Store) (value : Value) : Prop :=
  ∃ inner, Relation.ReflTransGen s.Holds value inner ∧ Relation.TransGen s.Holds inner inner

/-! ## Ways down that end -/

/-- Every way down from the value ends. -/
abbrev Grounded (s : Store) (value : Value) : Prop :=
  Acc (Function.swap s.Holds) value

theorem Grounded.below (grounded : s.Grounded value)
    (down : Relation.ReflTransGen s.Holds value part) : s.Grounded part := by
  induction down with
  | refl => exact grounded
  | tail _ holds ih => exact ih.inv holds

theorem Grounded.not_circular (grounded : s.Grounded value) : ¬ s.Circular value := by
  rintro ⟨inner, down, around⟩
  have inside := (grounded.below down).transGen
  induction inside with
  | intro inner _ ih => exact ih inner (Relation.transGen_swap.mpr around) down around

/-- All values that arrays and objects hold. -/
def held (s : Store) : List Value :=
  s.arrays.toList.flatMap Array.toList ++ s.objects.toList.flatMap fun object =>
    object.props.entries.map (·.2)

theorem Holds.mem_held (holds : s.Holds value part) : part ∈ s.held := by
  cases value with
  | array id =>
    refine List.mem_append_left _ (List.mem_flatMap.mpr ⟨s.items id, ?_, holds⟩)
    replace holds : part ∈ s.items id := Array.mem_toList_iff.mp holds
    unfold items at holds ⊢
    rw [Array.getD_eq_getD_getElem?] at holds ⊢
    grind
  | object id =>
    refine List.mem_append_right _ (List.mem_flatMap.mpr ⟨s.object id, ?_, holds⟩)
    replace holds : part ∈ (s.object id).props.entries.map (·.2) := holds
    unfold object at holds ⊢
    rw [Array.getD_eq_getD_getElem?] at holds ⊢
    grind
  | _ => cases holds

/-- There are finitely many values to come to, so a way down that never ends comes to one of them
twice. -/
theorem grounded_of_not_circular (notCircular : ¬ s.Circular value) : s.Grounded value := by
  let Below := { part // Relation.ReflTransGen s.Holds value part }
  have finite : Finite Below := by
    refine Set.Finite.to_subtype (((value :: s.held).finite_toSet).subset fun part down => ?_)
    rcases down.cases_tail with same | ⟨_, _, holds⟩
    · exact same ▸ List.mem_cons_self
    · exact List.mem_cons_of_mem _ holds.mem_held
  let Under (lower upper : Below) : Prop := Relation.TransGen s.Holds upper.1 lower.1
  have transitive : IsTrans Below Under := ⟨fun _ _ _ first second => second.trans first⟩
  have irreflexive : Std.Irrefl Under := ⟨fun below around =>
    notCircular ⟨below.1, below.2, around⟩⟩
  have wellFounded : WellFounded Under := Finite.wellFounded_of_trans_of_irrefl Under
  have grounded (below : Below) : s.Grounded below.1 := by
    induction below using wellFounded.induction with
    | _ below ih => exact ⟨_, fun part holds => ih ⟨part, below.2.tail holds⟩ (.single holds)⟩
  exact grounded ⟨value, .refl⟩

/-! ## Showing -/

/-- Something is found, and the same from some depth on. -/
def Settles (find : Nat → Option α) : Prop :=
  ∃ found depth, ∀ d, depth ≤ d → find d = some found

theorem Settles.const (a : α) : Settles fun _ => some a :=
  ⟨a, 0, fun _ _ => rfl⟩

theorem Settles.map {find : Nat → Option α} (settles : Settles find) (f : α → β) :
    Settles fun d => do return f (← find d) := by
  obtain ⟨found, depth, coherent⟩ := settles
  exact ⟨f found, depth, fun d le => congrArg (· >>= fun a => some (f a)) (coherent d le)⟩

theorem Settles.deeper {find : Nat → Option α} (settles : Settles fun d => find (d + 1)) :
    Settles find := by
  obtain ⟨found, depth, coherent⟩ := settles
  refine ⟨found, depth + 1, fun d le => ?_⟩
  obtain ⟨d, rfl⟩ : ∃ less, d = less + 1 := ⟨d - 1, by omega⟩
  exact coherent d (by omega)

theorem Settles.mapM {items : List α} {find : Nat → α → Option β}
    (settles : ∀ item ∈ items, Settles fun d => find d item) : Settles fun d =>
    items.mapM (find d) := by
  induction items with
  | nil => exact .const []
  | cons item rest ih =>
    rw [List.forall_mem_cons] at settles
    obtain ⟨first, depth, firstFound⟩ := settles.1
    obtain ⟨others, depth', othersFound⟩ := ih settles.2
    refine ⟨first :: others, max depth depth', fun d le => ?_⟩
    replace firstFound : find d item = some first := firstFound d (by omega)
    replace othersFound : rest.mapM (find d) = some others := othersFound d (by omega)
    simp only [List.mapM_cons, firstFound, othersFound]
    rfl

theorem display_settles (grounded : s.Grounded value) : Settles fun d => s.display d value := by
  induction grounded with
  | intro value _ ih =>
    refine .deeper ?_
    cases value with
    | array id =>
      refine Settles.map (.mapM fun item mem => ?_) fun texts => "[" ++ commaList texts ++ "]"
      cases item with
      | str text => exact .const _
      | _ => exact ih _ mem
    | object id =>
      refine Settles.map (.mapM fun entry mem => ?_) fun texts =>
        "\x7b" ++ commaList texts ++ "\x7d"
      exact (ih entry.2 (List.mem_map_of_mem mem)).map fun text => entry.1 ++ ": " ++ text
    | _ => exact .const _

theorem toJson_settles (grounded : s.Grounded value) : Settles fun d => s.toJson d value := by
  induction grounded with
  | intro value _ ih =>
    refine .deeper ?_
    cases value with
    | array id => exact Settles.map (.mapM fun item mem => ih item mem) Json.arr
    | object id =>
      refine Settles.map (.mapM fun entry mem => ?_) Json.obj
      exact (ih entry.2 (List.mem_map_of_mem mem)).map fun json => (entry.1, json)
    | num x =>
      simp only [toJson]
      split <;> exact .const _
    | _ => exact .const _

/-! ## Values that are shown are not circular -/

theorem mem_of_mapM {items : List α} {find : α → Option β} {results : List β}
    (found : items.mapM find = some results) : ∀ item ∈ items, (find item).isSome = true := by
  induction items generalizing results with
  | nil => exact List.forall_mem_nil _
  | cons item rest ih =>
    rw [List.mapM_cons] at found
    obtain ⟨first, firstFound, found⟩ := Option.bind_eq_some_iff.mp found
    obtain ⟨others, othersFound, _⟩ := Option.bind_eq_some_iff.mp found
    exact List.forall_mem_cons.mpr ⟨by rw [firstFound]; rfl, ih othersFound⟩

theorem grounded_of_display {depth : Nat} (shown : (s.display depth value).isSome = true) :
    s.Grounded value := by
  induction depth generalizing value with
  | zero => cases shown
  | succ depth ih =>
    refine ⟨_, fun part holds => ?_⟩
    obtain ⟨text, shown⟩ := Option.isSome_iff_exists.mp shown
    cases value with
    | array id =>
      obtain ⟨texts, found, _⟩ := Option.bind_eq_some_iff.mp shown
      have inner := mem_of_mapM found part holds
      cases part with
      | str text => exact ⟨_, nofun⟩
      | _ => exact ih inner
    | object id =>
      obtain ⟨texts, found, _⟩ := Option.bind_eq_some_iff.mp shown
      obtain ⟨entry, mem, rfl⟩ := List.mem_map.mp holds
      have inner := mem_of_mapM found entry mem
      exact ih (Option.isSome_of_isSome_bind inner)
    | _ => cases holds

theorem grounded_of_toJson {depth : Nat} (shown : (s.toJson depth value).isSome = true) :
    s.Grounded value := by
  induction depth generalizing value with
  | zero => cases shown
  | succ depth ih =>
    refine ⟨_, fun part holds => ?_⟩
    obtain ⟨json, shown⟩ := Option.isSome_iff_exists.mp shown
    cases value with
    | array id =>
      obtain ⟨items, found, _⟩ := Option.bind_eq_some_iff.mp shown
      exact ih (mem_of_mapM found part holds)
    | object id =>
      obtain ⟨members, found, _⟩ := Option.bind_eq_some_iff.mp shown
      obtain ⟨entry, mem, rfl⟩ := List.mem_map.mp holds
      have inner := mem_of_mapM found entry mem
      exact ih (Option.isSome_of_isSome_bind inner)
    | _ => cases holds

theorem Circular.display_eq_none (circular : s.Circular value) (depth : Nat) :
    s.display depth value = none :=
  Option.not_isSome_iff_eq_none.mp fun shown => (grounded_of_display shown).not_circular circular

theorem Circular.toJson_eq_none (circular : s.Circular value) (depth : Nat) :
    s.toJson depth value = none :=
  Option.not_isSome_iff_eq_none.mp fun shown => (grounded_of_toJson shown).not_circular circular

end Store

namespace Eval

/-- A line is printed if every text of it is found. -/
theorem displayList_eq (depth : Nat) (values : List Value) (m : Machine) :
    displayList depth values m =
      match values.mapM (m.store.display depth) with
      | some texts => .ok (" ".intercalate texts) m
      | none => .cutOff := by
  have each : (values.mapM (display depth) : Eval (List String)) m =
      match values.mapM (m.store.display depth) with
      | some texts => .ok texts m
      | none => .cutOff := by
    induction values with
    | nil => rfl
    | cons value rest ih =>
      rw [List.mapM_cons, List.mapM_cons]
      simp only [bind, Run.bind, display, Run.read]
      cases m.store.display depth value with
      | none => rfl
      | some text =>
        simp only [Run.ofOption, pure, Run.pure, ih]
        cases rest.mapM (m.store.display depth) <;> rfl
  simp only [displayList, bind, Run.bind, each]
  cases values.mapM (m.store.display depth) <;> rfl

end Eval

/-- **What can be shown.**  In every machine a value is shown, as text and as plain data, if it is
not circular, and its text and its data do not depend on the bound; a circular value is shown under
no bound.  So a line is printed if none of its values is circular, and printing one never ends if
some value is. -/
theorem Machine.shown_iff_not_circular (m : Machine) :
    (∀ value, ¬ m.store.Circular value → ∃ text json depth, ∀ d, depth ≤ d →
      m.store.display d value = some text ∧ m.store.toJson d value = some json) ∧
    (∀ value, m.store.Circular value → ∀ d, m.store.display d value = none ∧
    m.store.toJson d value = none) ∧
    (∀ args, (∀ value ∈ args, ¬ m.store.Circular value) → ∃ line depth, ∀ g : Engine,
      depth ≤ g.bound → ∀ this, Eval.callNative g .print this args m = .ok .undefined
      (m.print line)) ∧
    (∀ args, (∃ value ∈ args, m.store.Circular value) →
    ∀ g this, Eval.callNative g .print this args m = .cutOff) := by
  refine ⟨fun value notCircular => ?_, fun value circular d =>
    ⟨circular.display_eq_none d, circular.toJson_eq_none d⟩, fun args notCircular =>
    ?_, fun args ⟨value, mem, circular⟩ g this => ?_⟩
  · have grounded := Store.grounded_of_not_circular notCircular
    obtain ⟨text, depth, shown⟩ := Store.display_settles grounded
    obtain ⟨json, depth', shown'⟩ := Store.toJson_settles grounded
    exact ⟨text, json, max depth depth', fun d le => ⟨shown d (by omega), shown' d (by omega)⟩⟩
  · obtain ⟨texts, depth, shown⟩ := Store.Settles.mapM fun value mem =>
      Store.display_settles (Store.grounded_of_not_circular (notCircular value mem))
    refine ⟨" ".intercalate texts, depth, fun g le this => ?_⟩
    replace shown : args.mapM (m.store.display g.bound) = some texts := shown g.bound le
    simp only [Eval.callNative, bind, Run.bind, Eval.displayList_eq, shown]
    rfl
  · have none : args.mapM (m.store.display g.bound) = none := by
      refine Option.eq_none_iff_forall_ne_some.mpr fun texts found => ?_
      have shown := Store.mem_of_mapM found value mem
      rw [circular.display_eq_none] at shown
      cases shown
    simp only [Eval.callNative, bind, Run.bind, Eval.displayList_eq, none]

/-- A program that ends with an array inside of an array. -/
def Program.nestedArrays : Program :=
  { body := [.letS "a" (some (.array [.bool true])),
    .returnS (some (.array [.ident "a", .ident "a"]))] }

theorem Program.nestedArrays_ends :
    (match (Machine.new .lazy {}).runProgram 8 Program.nestedArrays.load with
      | some (.ok value, m) => (m.store.display 4 value).isSome
      | _ => false) = true := by decide +kernel

/-- An array may be held twice: only one that holds itself is circular. -/
theorem Machine.shown_iff_not_circular_of_nestedArrays :
    ∃ value m text json depth, (Machine.new .lazy {}).runProgram 8 Program.nestedArrays.load = some
      (.ok value, m) ∧ ¬ m.store.Circular value ∧
      ∀ d, depth ≤ d → m.store.display d value = some text ∧
          m.store.toJson d value = some json := by
  have evaluated := Program.nestedArrays_ends
  split at evaluated
  · rename_i value m ran
    have notCircular := (Store.grounded_of_display evaluated).not_circular
    obtain ⟨text, json, depth, shown⟩ := m.shown_iff_not_circular.1 value notCircular
    exact ⟨value, m, text, json, depth, ran, notCircular, shown⟩
  · cases evaluated

/-- A program that pushes an array onto itself. -/
def Program.selfHolding : Program :=
  { body := [.letS "a" (some (.array [])), .expr (.call (.member (.ident "a") "push") [.ident "a"]),
      .returnS (some (.ident "a"))] }

theorem Program.selfHolding_ends :
    (match (Machine.new .lazy {}).runProgram 8 Program.selfHolding.load with
      | some (.ok (.array id), m) => match (m.store.items id).toList with
        | [.array inner] => decide (inner = id)
        | _ => false
      | _ => false) = true := by decide +kernel

/-- **Some values are never shown.**  The program ends with an array that holds itself: neither its
text nor its data is found under any bound. -/
theorem Machine.runProgram_selfHolding :
    ∃ value m, (Machine.new .lazy {}).runProgram 8 Program.selfHolding.load = some (.ok value, m) ∧
      ∀ d, m.store.display d value = none ∧ m.store.toJson d value = none := by
  have evaluated := Program.selfHolding_ends
  split at evaluated
  · rename_i id m ran
    split at evaluated
    · rename_i inner items
      have holds : m.store.Holds (.array id) (.array id) := by
        simp only [Store.Holds, Store.parts, items, of_decide_eq_true evaluated, List.mem_singleton]
      have circular : m.store.Circular (.array id) := ⟨_, .refl, .single holds⟩
      exact ⟨_, m, ran, fun d => ⟨circular.display_eq_none d, circular.toJson_eq_none d⟩⟩
    · cases evaluated
  · cases evaluated

end Resumable
