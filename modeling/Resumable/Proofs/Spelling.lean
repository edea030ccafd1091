import Mathlib.Data.List.Forall2
import Resumable.Syntax.Json

/-!
Spellings of JSON values.

`Json.Spells` says that a JSON value is one of the ways to write another one: the members of an
object may come in any order and among others that nobody asks for, a member with its default value
may be missing, and one that is left out when it is absent may be `null` instead.

What the reader of programs does with the members of an object is then said in terms of
`Members.required`, `Members.defaulted` and `Members.nullable`, which need one lemma each.
-/

namespace Resumable

open Members (only? lacks required defaulted orNull nullable)

/-! ## Spellings -/

namespace Json

/-- A missing member of that name is read as this value. -/
def isDefault (name : String) : Json → Bool
  | .null => true
  | .arr [] => ["params", "args", "elements", "props"].contains name
  | .bool false => name = "save_formals"
  | _ => false

/-- The members that are left out when they are absent. -/
def omitted : List String :=
  ["instrumented", "frame", "yield_interval"]

/-- `j.Spells written`: the value `j` is one of the ways to write `written`. -/
inductive Spells : Json → Json → Prop
  | same (j : Json) : Spells j j
  | arr {items written : List Json} : List.Forall₂ Spells items written → Spells (.arr items)
      (.arr written)
  /-- `spelt` gives the value that a member has in the spelling. -/
  | obj {members written : List (String × Json)} {spelt : String → Json} :
      (∀ name value, only? name written = some value → Spells (spelt name) value) →
      (∀ name value, only? name written = some value →
        only? name members = some (spelt name) ∨ value.isDefault name = true ∧
        lacks name members = true) →
      (∀ name ∈ omitted, lacks name written = true →
        lacks name members = true ∨ only? name members = some .null) →
      Spells (.obj members) (.obj written)

/-- A value that has no parts is spelt in one way. -/
def isScalar : Json → Bool
  | .arr _ | .obj _ => false
  | _ => true

theorem Spells.eq_of_isScalar {j written : Json} (spells : j.Spells written)
    (scalar : written.isScalar = true) : j = written := by
  cases spells with
  | same => rfl
  | arr | obj => cases scalar

theorem Spells.eq_null {written : Json} (spells : null.Spells written) : written = .null := by
  cases spells
  rfl

theorem Spells.items {j : Json} {written : List Json} (spells : j.Spells (.arr written)) :
    ∃ items, j = .arr items ∧ List.Forall₂ Spells items written := by
  cases spells with
  | same => exact ⟨written, rfl, List.forall₂_same.mpr fun j _ => .same j⟩
  | arr items => exact ⟨_, rfl, items⟩

end Json

namespace Members

theorem only?_isSome_of_not_lacks {name : String} {members : List (String × Json)} {value : Json}
    (only : only? name members = some value) : lacks name members = false := by
  induction members with
  | nil => cases only
  | cons member rest ih =>
    rw [only?] at only
    split at only
    · rename_i same
      simp [lacks, same]
    · have := ih only
      simp only [lacks, Bool.not_eq_false'] at this ⊢
      rw [List.any_cons, this, Bool.or_true]

/-- What the members of a spelling have to do with those that are written. -/
structure Spelt (written members : List (String × Json)) : Prop where
  present : ∀ name value, only? name written = some value →
    (∃ value', only? name members = some value' ∧ value'.Spells value) ∨
      value.isDefault name = true ∧ lacks name members = true
  absent : ∀ name ∈ Json.omitted, lacks name written = true →
    lacks name members = true ∨ only? name members = some .null

end Members

theorem Json.Spells.members {j : Json} {written : List (String × Json)}
    (spells : j.Spells (.obj written)) : ∃ members, j = .obj members ∧
    Members.Spelt written members := by
  cases spells with
  | same =>
    refine ⟨written, rfl, fun name value only => .inl ⟨value, only, .same value⟩, ?_⟩
    exact fun name _ lacking => .inl lacking
  | obj spelt present absent =>
    refine ⟨_, rfl, fun name value only => ?_, absent⟩
    exact (present name value only).imp_left fun found => ⟨_, found, spelt name value only⟩

namespace Members.Spelt

variable {α : Type} {written members : List (String × Json)} {name : String} {value : Json}
  {read : Json → Option α} {a : α}

section

variable (spelt : Spelt written members)

include spelt

/-- A member without a default is read as it is spelt. -/
theorem required (only : only? name written = some value) (plain : value.isDefault name = false)
    (reads : ∀ j, j.Spells value → read j = some a) : required read name members = some a := by
  rcases spelt.present name value only with ⟨j, found, spells⟩ | ⟨isDefault, _⟩
  · rw [Members.required, found]
    exact reads j spells
  · rw [plain] at isDefault
    cases isDefault

/-- A member is read as it is spelt, or is missing and has its default. -/
theorem defaulted {default : α} (only : only? name written = some value)
    (isDefault : value.isDefault name = true → a = default) (reads : ∀ j, j.Spells value →
      read j = some a) :
    defaulted read default name members = some a := by
  rcases spelt.present name value only with ⟨j, found, spells⟩ | ⟨dropped, lacking⟩
  · rw [Members.defaulted, only?_isSome_of_not_lacks found, Members.required, found]
    exact reads j spells
  · rw [Members.defaulted, lacking, isDefault dropped]
    rfl

/-- A value that may be absent is written as `null` then. -/
theorem nullable {write : α → Json} {o : Option α}
    (only : only? name written = some (.ofOption write o))
    (plain : ∀ a ∈ o, (write a).isDefault name = false) (reads : ∀ a ∈ o, ∀ j, j.Spells (write a) →
      read j = some a) :
    nullable read name members = some o := by
  refine spelt.defaulted only (fun isDefault => ?_) fun j spells => ?_
  · cases o with
    | none => rfl
    | some a => exact absurd (isDefault.symm.trans (plain a rfl)) nofun
  · cases o with
    | none =>
      cases spells.eq_of_isScalar rfl
      rfl
    | some a =>
      rw [orNull, reads a rfl j spells]
      · rfl
      · rintro rfl
        have isNull : write a = .null := spells.eq_null
        have isDefault := plain a rfl
        rw [isNull] at isDefault
        cases isDefault

/-- A value is left out when it is absent. -/
theorem optional {o : Option α} (write : α → Json) (mem : name ∈ Json.omitted)
    (lacking : o = none → lacks name written = true)
    (only : ∀ a ∈ o, only? name written = some (write a))
    (plain : ∀ a ∈ o, (write a).isDefault name = false) (reads : ∀ a ∈ o, ∀ j, j.Spells (write a) →
      read j = some a) :
    Members.nullable read name members = some o := by
  cases o with
  | some a => exact spelt.nullable (o := some a) (only a rfl) plain reads
  | none =>
    rcases spelt.absent name mem (lacking rfl) with lacking | found
    · rw [Members.nullable, Members.defaulted, lacking]
      rfl
    · rw [Members.nullable, Members.defaulted, only?_isSome_of_not_lacks found, Members.required,
        found]
      rfl

end

end Members.Spelt

/-! ## The members of an object -/

section Readers

variable {name : String} {members : List (String × Json)}

/-- The statements in an array. -/
def Stmt.arrayOfJson? (nested : Bool) (value : Json) : Option (List Stmt) := do
  Stmt.listOfJson? nested (← value.arr?)

def Expr.arrayOfJson? (value : Json) : Option (List Expr) := do
  Expr.listOfJson? (← value.arr?)

def Expr.objectOfJson? (value : Json) : Option (List (String × Expr)) := do
  Expr.propsOfJson? (← value.arr?)

/-- A search for the only member of a name that reads what it finds. -/
theorem Members.required_of_search {read : Json → Option α} {search : List (String × Json) →
    Option α} (nil : search [] = none)
    (cons : ∀ key value rest, search ((key, value) :: rest) =
      if key = name then if lacks name rest then read value else none else search rest) :
    search members = required read name members := by
  induction members with
  | nil => exact nil
  | cons member rest ih =>
    obtain ⟨key, value⟩ := member
    rw [cons, ih, required, required, only?]
    split
    · split <;> rfl
    · rfl

/-- A search that has a default for what it does not find. -/
theorem Members.defaulted_of_search {read : Json → Option α} {default : α}
    {search : List (String × Json) → Option α} (nil : search [] = some default)
    (cons : ∀ key value rest, search ((key, value) :: rest) =
      if key = name then if lacks name rest then read value else none else search rest) :
    search members = defaulted read default name members := by
  induction members with
  | nil => exact nil
  | cons member rest ih =>
    obtain ⟨key, value⟩ := member
    rw [cons, ih, defaulted, defaulted, required, required, only?]
    have lacking : lacks name ((key, value) :: rest) =
        (!decide (key = name) && lacks name rest) := by
      simp [lacks]
    rw [lacking]
    by_cases same : key = name
    · simp only [same, if_true, decide_true, Bool.not_true, Bool.false_and, Bool.false_eq_true,
        if_false]
      split <;> rfl
    · simp [same]

theorem Expr.at?_eq : Expr.at? name members = required Expr.ofJson? name members :=
  Members.required_of_search (by rw [Expr.at?]) fun _ _ _ => by rw [Expr.at?]

theorem Target.at?_eq : Target.at? name members = required Target.ofJson? name members :=
  Members.required_of_search (by rw [Target.at?]) fun _ _ _ => by rw [Target.at?]

theorem Func.at?_eq : Func.at? name members = required (Func.ofJson? true) name members :=
  Members.required_of_search (by rw [Func.at?]) fun _ _ _ => by rw [Func.at?]

theorem Stmt.at?_eq : Stmt.at? name members = required (Stmt.ofJson? true) name members :=
  Members.required_of_search (by rw [Stmt.at?]) fun _ _ _ => by rw [Stmt.at?]

theorem Stmt.listAt?_eq {nested : Bool} :
    Stmt.listAt? nested name members = required (Stmt.arrayOfJson? nested) name members := by
  refine Members.required_of_search (by rw [Stmt.listAt?]) fun _ value _ => ?_
  cases value <;> simp [Stmt.listAt?, Stmt.arrayOfJson?, Json.arr?]

theorem Expr.listAt?_eq : Expr.listAt? name members = defaulted Expr.arrayOfJson?
    [] name members := by
  refine Members.defaulted_of_search (by rw [Expr.listAt?]) fun _ value _ => ?_
  cases value <;> simp [Expr.listAt?, Expr.arrayOfJson?, Json.arr?]

theorem Expr.propsAt?_eq : Expr.propsAt? name members = defaulted Expr.objectOfJson?
    [] name members := by
  refine Members.defaulted_of_search (by rw [Expr.propsAt?]) fun _ value _ => ?_
  cases value <;> simp [Expr.propsAt?, Expr.objectOfJson?, Json.arr?]

theorem Expr.optionAt?_eq : Expr.optionAt? name members = nullable Expr.ofJson? name members := by
  refine Members.defaulted_of_search (by rw [Expr.optionAt?]) fun _ value _ => ?_
  cases value <;> simp [Expr.optionAt?, orNull]

theorem Stmt.optionAt?_eq : Stmt.optionAt? name members = nullable (Stmt.ofJson? true) name
    members := by
  refine Members.defaulted_of_search (by rw [Stmt.optionAt?]) fun _ value _ => ?_
  cases value <;> simp [Stmt.optionAt?, orNull]

theorem Handler.optionAt?_eq : Handler.optionAt? name members = nullable Handler.ofJson? name
    members := by
  refine Members.defaulted_of_search (by rw [Handler.optionAt?]) fun _ value _ => ?_
  cases value <;> simp [Handler.optionAt?, orNull]

end Readers

end Resumable
