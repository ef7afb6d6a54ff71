import DualeAI.Foundation.PathSearch

/-!
What a tool's defaults may hold: `_contains_non_finite_number` and
`_contains_unbound_typevar`.

Python objects have identities of a type `ι`, and a heap gives what is at each.
-/
namespace DualeAI.ToolContract
open Foundation Relation

inductive Decimal where
  | finite (negative : Bool) (coefficient : Nat) (exponent : Int)
  | infinity (negative : Bool)
  | nan (negative signaling : Bool) (payload : Nat)

def Decimal.isFinite : Decimal → Bool
  | .finite _ _ _ => true
  | .infinity _ | .nan _ _ _ => false

/-- An object, by what `isinstance` makes of it; items are given by their identities. -/
inductive PyObject (ι : Type) where
  | float (x : Float)
  | decimal (x : Decimal)
  | int (n : Int)
  | list (items : List ι)
  | tuple (items : List ι)
  | set (items : List ι)
  | frozenset (items : List ι)
  /-- Keys and values. -/
  | mapping (entries : List (ι × ι))
  /-- With what `model_dump` returns. -/
  | baseModel (dump : ι)
  /-- With what `dataclasses.asdict` returns. -/
  | dataclass (dump : ι)
  | other

section Heap
variable {ι : Type} (heap : ι → PyObject ι)

def dumped : PyObject ι → PyObject ι
  | .baseModel dump | .dataclass dump => heap dump
  | object => object

def nestedValues : PyObject ι → List ι
  | .mapping entries => entries.map Prod.snd
  | .list items | .tuple items | .set items | .frozenset items => items
  | _ => []

def containsNonFiniteNumber [Fintype ι] [DecidableEq ι] (value : ι) (seen : Finset ι) : Bool :=
  match heap value with
  | .float x => !x.isFinite
  | .decimal x => !x.isFinite
  | object =>
      if value ∈ seen then false
      else (nestedValues (dumped heap object)).any fun item =>
        containsNonFiniteNumber item (insert value seen)
termination_by seenᶜ.card
decreasing_by exact card_unseen_insert ‹_›

/-- The search with its calls nested at most `depth` deep; none where they go deeper. -/
def containsWithin [DecidableEq ι] : Nat → ι → Finset ι → Option Bool
  | 0, _, _ => none
  | depth + 1, value, seen =>
      match heap value with
      | .float x => some !x.isFinite
      | .decimal x => some !x.isFinite
      | object =>
          if value ∈ seen then some false
          else (nestedValues (dumped heap object)).anyM fun item =>
            containsWithin depth item (insert value seen)

/-! ## Reachability -/

/-- The elements of a container, and the values of a mapping. -/
inductive Holds : PyObject ι → ι → Prop where
  | list {items item} : item ∈ items → Holds (.list items) item
  | tuple {items item} : item ∈ items → Holds (.tuple items) item
  | set {items item} : item ∈ items → Holds (.set items) item
  | frozenset {items item} : item ∈ items → Holds (.frozenset items) item
  | mapping {entries key item} : (key, item) ∈ entries → Holds (.mapping entries) item

def Element (container item : ι) : Prop := Holds (dumped heap (heap container)) item

inductive NonFinite : PyObject ι → Prop where
  | nan {x} : x.isNaN = true → NonFinite (.float x)
  | inf {x} : x.isInf = true → NonFinite (.float x)
  | decimalInfinity {negative} : NonFinite (.decimal (.infinity negative))
  | decimalNan {negative signaling payload} :
      NonFinite (.decimal (.nan negative signaling payload))

theorem mem_nestedValues {object : PyObject ι} {item : ι} :
    item ∈ nestedValues object ↔ Holds object item := by
  constructor
  · intro h
    cases object with
    | list items => exact Holds.list h
    | tuple items => exact Holds.tuple h
    | set items => exact Holds.set h
    | frozenset items => exact Holds.frozenset h
    | mapping entries =>
        obtain ⟨entry, hmem, rfl⟩ := List.mem_map.mp h
        exact Holds.mapping hmem
    | float _ | decimal _ | int _ | baseModel _ | dataclass _ | other =>
        exact absurd h List.not_mem_nil
  · intro h
    cases h with
    | list h | tuple h | set h | frozenset h => exact h
    | mapping h => exact List.mem_map_of_mem h

theorem float_isFinite (x : Float) :
    x.isFinite = false ↔ x.isNaN = true ∨ x.isInf = true := by
  unfold Float.isFinite Float.isNaN Float.isInf
  unfold Float.Model.isFinite Float.Model.isNaN Float.Model.isInf
  cases x.toModel.unpack with
  | notANumber => exact iff_of_true rfl (Or.inl rfl)
  | infinity _ => exact iff_of_true rfl (Or.inr rfl)
  | zero _ | finite _ _ _ _ =>
      apply iff_of_false Bool.false_ne_true.symm
      intro h
      cases h with
      | inl hnan => exact Bool.false_ne_true hnan
      | inr hinf => exact Bool.false_ne_true hinf

theorem nonFinite_float {x : Float} : NonFinite (ι := ι) (.float x) ↔ x.isFinite = false := by
  rw [float_isFinite]
  constructor
  · intro h
    cases h with
    | nan h => exact Or.inl h
    | inf h => exact Or.inr h
  · intro h
    cases h with
    | inl h => exact NonFinite.nan h
    | inr h => exact NonFinite.inf h

theorem nonFinite_decimal {x : Decimal} :
    NonFinite (ι := ι) (.decimal x) ↔ x.isFinite = false := by
  constructor
  · intro h
    cases h with
    | decimalInfinity | decimalNan => rfl
  · intro h
    cases x with
    | finite negative coefficient exponent => cases h
    | infinity negative => exact NonFinite.decimalInfinity
    | nan negative signaling payload => exact NonFinite.decimalNan

variable {heap} {value : ι}

theorem not_nonFinite {object : PyObject ι} (hfloat : ∀ x, object = .float x → False)
    (hdecimal : ∀ x, object = .decimal x → False) : ¬ NonFinite object := by
  intro h
  cases h with
  | nan | inf => exact hfloat _ rfl
  | decimalInfinity | decimalNan => exact hdecimal _ rfl

theorem pathTo_of_holds_nothing {seen : Finset ι}
    (h : nestedValues (dumped heap (heap value)) = []) :
    PathTo (Element heap) (fun number => NonFinite (heap number)) seen value ↔
      NonFinite (heap value) := by
  apply pathTo_of_leaf
  intro item helement
  have hmem := mem_nestedValues.mpr helement
  rw [h] at hmem
  exact List.not_mem_nil hmem

section Search
variable [Fintype ι] [DecidableEq ι]

theorem containsNonFiniteNumber_eq_true (value : ι) (seen : Finset ι) :
    containsNonFiniteNumber heap value seen = true ↔
      PathTo (Element heap) (fun number => NonFinite (heap number)) seen value := by
  fun_induction containsNonFiniteNumber heap value seen with
  | case1 value seen x hobject =>
      rw [pathTo_of_holds_nothing (by rw [hobject]; rfl), hobject, nonFinite_float,
        Bool.not_eq_true']
  | case2 value seen x hobject =>
      rw [pathTo_of_holds_nothing (by rw [hobject]; rfl), hobject, nonFinite_decimal,
        Bool.not_eq_true']
  | case3 value seen hseen hfloat hdecimal =>
      rw [pathTo_of_mem hseen]
      exact iff_of_false Bool.false_ne_true (not_nonFinite hfloat hdecimal)
  | case4 value seen hseen hfloat hdecimal ih =>
      rw [pathTo_of_notMem hseen, or_iff_right (not_nonFinite hfloat hdecimal),
        List.any_eq_true]
      apply exists_congr
      intro item
      rw [mem_nestedValues, ih item, Element]

end Search

/-! ## Nesting -/

theorem anyM_some {items : List ι} {find : ι → Option Bool} {found : ι → Bool}
    (h : ∀ item ∈ items, find item = some (found item)) :
    items.anyM find = some (items.any found) := by
  induction items with
  | nil => rfl
  | cons item items ih =>
      have hrest := ih fun item hmem => h item (List.mem_cons_of_mem _ hmem)
      simp only [List.anyM, h item List.mem_cons_self, List.any_cons, hrest]
      cases found item <;> rfl

theorem containsWithin_container [DecidableEq ι] {depth : Nat} {seen : Finset ι}
    (hfloat : ∀ x, heap value = .float x → False)
    (hdecimal : ∀ x, heap value = .decimal x → False) :
    containsWithin heap (depth + 1) value seen =
      if value ∈ seen then some false
      else (nestedValues (dumped heap (heap value))).anyM fun item =>
        containsWithin heap depth item (insert value seen) := by
  rw [containsWithin]
  split
  · rename_i x hobject
    exact absurd hobject (hfloat x)
  · rename_i x hobject
    exact absurd hobject (hdecimal x)
  · rfl

/-- Each call nested in another one has seen one object more. -/
theorem containsWithin_eq [Fintype ι] [DecidableEq ι] (value : ι) (seen : Finset ι)
    {depth : Nat} (hdepth : seenᶜ.card < depth) :
    containsWithin heap depth value seen = some (containsNonFiniteNumber heap value seen) := by
  induction depth generalizing value seen with
  | zero => exact absurd hdepth (Nat.not_lt_zero _)
  | succ depth ih =>
      fun_cases containsNonFiniteNumber heap value seen with
      | case1 x hobject => rw [containsWithin, hobject]
      | case2 x hobject => rw [containsWithin, hobject]
      | case3 hseen hfloat hdecimal =>
          rw [containsWithin_container hfloat hdecimal, if_pos hseen]
      | case4 hseen hfloat hdecimal =>
          rw [containsWithin_container hfloat hdecimal, if_neg hseen]
          apply anyM_some
          intro item _
          have hless := card_unseen_insert hseen
          exact ih item (insert value seen) (by omega)

end Heap

/-- Also of objects that hold themselves or hold one object twice. -/
theorem containsNonFiniteNumber_iff {ι : Type} [Fintype ι] [DecidableEq ι]
    (heap : ι → PyObject ι) (value : ι) :
    (∀ depth, Fintype.card ι < depth →
      containsWithin heap depth value ∅ = some (containsNonFiniteNumber heap value ∅)) ∧
    (containsNonFiniteNumber heap value ∅ = true ↔
      ∃ number, ReflTransGen (Element heap) value number ∧ NonFinite (heap number)) := by
  constructor
  · intro depth hdepth
    apply containsWithin_eq
    rw [Finset.compl_empty]
    exact hdepth
  · rw [containsNonFiniteNumber_eq_true, pathTo_empty]

/-- A list of itself and a NaN. -/
def selfList : Fin 2 → PyObject (Fin 2)
  | 0 => .list [0, 1]
  | 1 => .float (Float.ofBits 0x7ff8000000000000)

theorem containsNonFiniteNumber_selfList : containsWithin selfList 3 0 ∅ = some true := by
  have hspec := containsNonFiniteNumber_iff selfList 0
  have hreach : ReflTransGen (Element selfList) 0 1 :=
    ReflTransGen.single (Holds.list (List.mem_cons_of_mem _ List.mem_cons_self))
  rw [hspec.1 3 (by decide), hspec.2.mpr ⟨1, hreach, NonFinite.nan (by decide)⟩]

/-! ## Type variables -/

structure Annotation (ι : Type) where
  isTypeVar : Bool
  /-- `__parameters__`, or an empty tuple; none for what is no tuple. -/
  parameters : Option (List ι)
  /-- `get_args`. -/
  args : List ι

section Annotations
variable {ι : Type} (heap : ι → Annotation ι)

def hasTypeVarParameter (hint : ι) : Bool :=
  match (heap hint).parameters with
  | none => false
  | some parameters => parameters.any fun parameter => (heap parameter).isTypeVar

def containsUnboundTypevar [Fintype ι] [DecidableEq ι] (hint : ι) (seen : Finset ι) : Bool :=
  if (heap hint).isTypeVar then true
  else if hint ∈ seen then false
  else if hasTypeVarParameter heap hint then true
  else (heap hint).args.any fun argument =>
    containsUnboundTypevar argument (insert hint seen)
termination_by seenᶜ.card
decreasing_by exact card_unseen_insert ‹_›

def Argument (hint argument : ι) : Prop := argument ∈ (heap hint).args

def Unbound (hint : ι) : Prop :=
  (heap hint).isTypeVar = true ∨ hasTypeVarParameter heap hint = true

variable {heap} [Fintype ι] [DecidableEq ι]

/-- The annotations seen on the path have been found bound themselves. -/
theorem containsUnboundTypevar_eq_true (hint : ι) (seen : Finset ι)
    (hbound : ∀ a ∈ seen, ¬ Unbound heap a) :
    containsUnboundTypevar heap hint seen = true ↔
      PathTo (Argument heap) (Unbound heap) seen hint := by
  fun_induction containsUnboundTypevar heap hint seen with
  | case1 hint seen htypevar => exact iff_of_true rfl (pathTo_self (Or.inl htypevar))
  | case2 hint seen htypevar hseen =>
      rw [pathTo_of_mem hseen]
      exact iff_of_false Bool.false_ne_true (hbound hint hseen)
  | case3 hint seen htypevar hseen hparameter =>
      exact iff_of_true rfl (pathTo_self (Or.inr hparameter))
  | case4 hint seen htypevar hseen hparameter ih =>
      have hself : ¬ Unbound heap hint := not_or.mpr ⟨htypevar, hparameter⟩
      have hinsert : ∀ a ∈ insert hint seen, ¬ Unbound heap a := by
        intro a hmem
        cases Finset.mem_insert.mp hmem with
        | inl heq =>
            rw [heq]
            exact hself
        | inr hmem => exact hbound a hmem
      rw [pathTo_of_notMem hseen, or_iff_right hself, List.any_eq_true]
      apply exists_congr
      intro argument
      rw [ih argument hinsert, Argument]

theorem containsUnboundTypevar_iff (hint : ι) :
    containsUnboundTypevar heap hint ∅ = true ↔
      ∃ found, ReflTransGen (Argument heap) hint found ∧ Unbound heap found := by
  have hempty : ∀ a ∈ (∅ : Finset ι), ¬ Unbound heap a :=
    fun a hmem => absurd hmem (Finset.notMem_empty a)
  rw [containsUnboundTypevar_eq_true hint ∅ hempty, pathTo_empty]

end Annotations
end DualeAI.ToolContract
