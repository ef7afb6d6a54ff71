import DualeAI.Foundation.JsonRoundTrip
import DualeAI.Foundation.KeySort
import Mathlib.Data.Char
import Mathlib.Data.List.Lex

/-!
JSON values that differ in the order of their members.

`dumps` with `sort_keys` writes them alike: sorting the members at every level is a
normal form for equality of the values as Python sees it, where a `dict` has no
order. Which floats count as equal is a parameter.
-/
namespace Foundation.JsonText
variable {F : Type}

mutual

/-- What `sort_keys=True` writes instead of the value. -/
def sortKeys : Value F → Value F
  | .arr items => .arr (sortItems items)
  | .obj members => .obj (sortBy Prod.fst (sortMembers members))
  | v => v

def sortItems : List (Value F) → List (Value F)
  | [] => []
  | v :: items => sortKeys v :: sortItems items

def sortMembers : List (Text × Value F) → List (Text × Value F)
  | [] => []
  | (name, v) :: members => (name, sortKeys v) :: sortMembers members

end

section Equality
variable (same : F → F → Prop)

mutual

/-- Equal but for the order of members, and with these floats taken for equal. -/
def Equal : Value F → Value F → Prop
  | .null, .null => True
  | .bool b, .bool c => b = c
  | .int m, .int n => m = n
  | .float x, .float y => same x y
  | .str s, .str t => s = t
  | .arr xs, .arr ys => EqualItems xs ys
  | .obj xs, .obj ys => xs.length = ys.length ∧ EqualMembers xs ys
  | _, _ => False

def EqualItems : List (Value F) → List (Value F) → Prop
  | [], [] => True
  | v :: xs, w :: ys => Equal v w ∧ EqualItems xs ys
  | _, _ => False

/-- Every member is there under its name. -/
def EqualMembers : List (Text × Value F) → List (Text × Value F) → Prop
  | [], _ => True
  | (name, v) :: xs, ys => (∃ w, ys.lookup name = some w ∧ Equal v w) ∧ EqualMembers xs ys

end

variable {same}

theorem equalMembers_iff {xs ys : List (Text × Value F)} : EqualMembers same xs ys ↔
    ∀ member ∈ xs, ∃ w, ys.lookup member.1 = some w ∧ Equal same member.2 w := by
  induction xs with
  | nil => simp [EqualMembers]
  | cons member xs ih =>
      obtain ⟨name, v⟩ := member
      rw [EqualMembers, ih, List.forall_mem_cons]

end Equality

/-! ## The normal form -/

theorem sortItems_eq_map (items : List (Value F)) : sortItems items = items.map sortKeys := by
  induction items with
  | nil => rfl
  | cons v items ih => rw [sortItems, ih, List.map_cons]

theorem sortMembers_eq_map (members : List (Text × Value F)) :
    sortMembers members = members.map fun (name, v) => (name, sortKeys v) := by
  induction members with
  | nil => rfl
  | cons member members ih =>
      obtain ⟨name, v⟩ := member
      rw [sortMembers, ih, List.map_cons]

theorem names_sortMembers (members : List (Text × Value F)) :
    (sortMembers members).map Prod.fst = members.map Prod.fst := by
  rw [sortMembers_eq_map, List.map_map]
  rfl

variable {format : FloatFormat F}

theorem WellFormed.sortKeys {v : Value F} (h : WellFormed format v) :
    WellFormed format (sortKeys v) := by
  induction h with
  | null => exact .null
  | bool b => exact .bool b
  | int n => exact .int n
  | float x hx => exact .float x hx
  | str s => exact .str s
  | arr items h ih =>
      rw [JsonText.sortKeys, sortItems_eq_map]
      refine .arr _ fun v hmem => ?_
      obtain ⟨w, hw, rfl⟩ := List.mem_map.mp hmem
      exact ih w hw
  | obj members hnames h ih =>
      have hperm := sortBy_perm Prod.fst (sortMembers members)
      refine .obj _ ?_ fun member hmem => ?_
      · rw [(hperm.map Prod.fst).nodup_iff, names_sortMembers]
        exact hnames
      · have hmem := hperm.mem_iff.mp hmem
        rw [sortMembers_eq_map] at hmem
        obtain ⟨other, hother, rfl⟩ := List.mem_map.mp hmem
        exact ih other hother

theorem sortMembers_perm_iff {xs ys : List (Text × Value F)} (hxs : (xs.map Prod.fst).Nodup)
    (hys : (ys.map Prod.fst).Nodup)
    (ih : ∀ member ∈ xs, ∀ other ∈ ys,
      sortKeys member.2 = sortKeys other.2 ↔ Equal Eq member.2 other.2) :
    (sortMembers xs).Perm (sortMembers ys) ↔ xs.length = ys.length ∧ EqualMembers Eq xs ys := by
  rw [equalMembers_iff, sortMembers_eq_map, sortMembers_eq_map]
  constructor
  · intro hperm
    refine ⟨by simpa using hperm.length_eq, fun member hmem => ?_⟩
    obtain ⟨other, hother, heq⟩ := List.mem_map.mp (hperm.mem_iff.mp (List.mem_map_of_mem hmem))
    obtain ⟨hname, hvalue⟩ := Prod.mk.inj heq
    refine ⟨other.2, ?_, (ih member hmem other hother).mp hvalue.symm⟩
    rw [← hname]
    exact Dict.lookup_of_mem hys hother
  · intro h
    obtain ⟨hlength, hmembers⟩ := h
    have hnodup : (xs.map fun (name, v) => (name, sortKeys v)).Nodup := by
      refine List.Nodup.of_map Prod.fst ?_
      rw [← sortMembers_eq_map, names_sortMembers]
      exact hxs
    refine (List.subperm_of_subset hnodup fun entry hmem => ?_).perm_of_length_le
      (by simp [hlength])
    obtain ⟨member, hmember, rfl⟩ := List.mem_map.mp hmem
    obtain ⟨w, hlookup, hequal⟩ := hmembers member hmember
    have hother := Dict.mem_of_lookup hlookup
    exact List.mem_map.mpr ⟨_, hother, Prod.ext rfl ((ih member hmember _ hother).mpr hequal).symm⟩

theorem sortItems_eq_iff {xs ys : List (Value F)}
    (ih : ∀ v ∈ xs, ∀ w ∈ ys, sortKeys v = sortKeys w ↔ Equal Eq v w) :
    sortItems xs = sortItems ys ↔ EqualItems Eq xs ys := by
  induction xs generalizing ys with
  | nil =>
      cases ys with
      | nil => simp [sortItems, EqualItems]
      | cons w ys => simp [sortItems, EqualItems]
  | cons v xs ih' =>
      cases ys with
      | nil => simp [sortItems, EqualItems]
      | cons w ys =>
          rw [sortItems, sortItems, List.cons.injEq, EqualItems,
            ih v List.mem_cons_self w List.mem_cons_self,
            ih' fun v hv w hw => ih v (List.mem_cons_of_mem _ hv) w (List.mem_cons_of_mem _ hw)]

/-- Sorted values are equal where the values are equal up to order. -/
theorem sortKeys_eq_iff {v w : Value F} (hv : WellFormed format v) (hw : WellFormed format w) :
    sortKeys v = sortKeys w ↔ Equal Eq v w := by
  induction hv generalizing w with
  | null => cases hw <;> simp [sortKeys, Equal]
  | bool b => cases hw <;> simp [sortKeys, Equal]
  | int n => cases hw <;> simp [sortKeys, Equal]
  | float x hx => cases hw <;> simp [sortKeys, Equal]
  | str s => cases hw <;> simp [sortKeys, Equal]
  | arr items h ih =>
      cases hw with
      | arr others hothers =>
          simp only [sortKeys, Equal, Value.arr.injEq]
          exact sortItems_eq_iff fun v hv w hw => ih v hv (hothers w hw)
      | _ => simp [sortKeys, Equal]
  | obj members hnames h ih =>
      cases hw with
      | obj others hothernames hothers =>
          simp only [sortKeys, Equal, Value.obj.injEq]
          rw [sortBy_eq_iff (by rw [names_sortMembers]; exact hnames)]
          exact sortMembers_perm_iff hnames hothernames fun member hmem other hother =>
            ih member hmem (hothers other hother)
      | _ => simp [sortKeys, Equal]

end Foundation.JsonText
