import DualeAI.Foundation.JsonEquality
import DualeAI.Sdk.AgentLifecycle

/-!
The canonical bytes that a manifest is hashed by.

The values are trees of JSON types, where a `dict` has distinct keys. The limits of
the interpreter on recursion and on the digits of an integer are left out.
-/
namespace DualeAI.Canonical
open Foundation JsonText Agent

/-- The floats with `0.0`. Another float of value zero is `-0.0`. -/
structure Floats (F : Type) extends FloatFormat F where
  zero : F
  value_zero : value zero = some 0

def compact : Separators := ⟨[], [], rfl⟩

section Canonical
variable {F : Type} (floats : Floats F)

def collapseZero (x : F) : F := if floats.value x = some 0 then floats.zero else x

mutual

def normalizeNegativeZero : Value F → Value F
  | .obj members => .obj (normalizeMembers members)
  | .arr items => .arr (normalizeItems items)
  | .float x => .float (collapseZero floats x)
  | v => v

def normalizeItems : List (Value F) → List (Value F)
  | [] => []
  | v :: items => normalizeNegativeZero v :: normalizeItems items

def normalizeMembers : List (Text × Value F) → List (Text × Value F)
  | [] => []
  | (name, v) :: members => (name, normalizeNegativeZero v) :: normalizeMembers members

end

mutual

/-- Whether `allow_nan=False` lets a value pass. -/
def isFinite : Value F → Bool
  | .float x => (floats.value x).isSome
  | .arr items => areFinite items
  | .obj members => haveFinite members
  | _ => true

def areFinite : List (Value F) → Bool
  | [] => true
  | v :: items => isFinite v && areFinite items

def haveFinite : List (Text × Value F) → Bool
  | [] => true
  | (_, v) :: members => isFinite v && haveFinite members

end

/-- None where `json.dumps` raises a `ValueError`. -/
def canonicalJsonBytes (v : Value F) : Option Bytes :=
  let value := normalizeNegativeZero floats v
  if isFinite floats value then
    some (encodeUtf8 (dumpsWith floats.toFloatFormat compact (sortKeys value)))
  else none

def sameFloat (x y : F) : Prop := x = y ∨ floats.value x = some 0 ∧ floats.value y = some 0

end Canonical

section Manifest
variable {F : Type} (floats : Floats F)

/-- The part of `register_tool` that stores the tool. A second tool of a name is refused. -/
def registerTool (tools : Dict Text RegisteredTool) (tool : RegisteredTool) :
    Option (Dict Text RegisteredTool) :=
  if (tools.lookup tool.name).isSome then none else some (Dict.put tool.name tool tools)

def registeredToolManifest (tools : Dict Text RegisteredTool) : List RegisteredTool :=
  (sortBy id (tools.map Prod.fst)).filterMap fun name => tools.lookup name

/-- What `_manifest_snapshot` hashes, where `dumpWireModel` dumps a tool. -/
def snapshotBytes (H : Host) (dumpWireModel : RegisteredTool → Value F)
    (manifest : List RegisteredTool) : Option Bytes :=
  canonicalJsonBytes floats (.arr ((manifestSnapshot H manifest).tools.map dumpWireModel))

end Manifest

/-! ## Zeros -/

section Zeros
variable {F : Type} {floats : Floats F}

theorem collapseZero_eq_iff {x y : F} :
    collapseZero floats x = collapseZero floats y ↔ sameFloat floats x y := by
  rw [collapseZero, collapseZero, sameFloat]
  by_cases hx : floats.value x = some 0
  · by_cases hy : floats.value y = some 0
    · simp [hx, hy]
    · rw [if_pos hx, if_neg hy]
      constructor
      · intro heq
        exact absurd (heq ▸ floats.value_zero) hy
      · intro h
        cases h with
        | inl heq => exact absurd (heq ▸ hx) hy
        | inr hzeros => exact absurd hzeros.2 hy
  · by_cases hy : floats.value y = some 0
    · rw [if_neg hx, if_pos hy]
      constructor
      · intro heq
        exact absurd (heq ▸ floats.value_zero) hx
      · intro h
        cases h with
        | inl heq => exact absurd (heq ▸ hy) hx
        | inr hzeros => exact absurd hzeros.1 hx
    · simp [hx, hy]

theorem value_collapseZero {x : F} (h : (floats.value x).isSome = true) :
    (floats.value (collapseZero floats x)).isSome = true := by
  rw [collapseZero]
  split
  · rw [floats.value_zero]
    rfl
  · exact h

theorem normalizeItems_eq_map (items : List (Value F)) :
    normalizeItems floats items = items.map (normalizeNegativeZero floats) := by
  induction items with
  | nil => rfl
  | cons v items ih => rw [normalizeItems, ih, List.map_cons]

theorem normalizeMembers_eq_map (members : List (Text × Value F)) :
    normalizeMembers floats members =
      members.map fun (name, v) => (name, normalizeNegativeZero floats v) := by
  induction members with
  | nil => rfl
  | cons member members ih =>
      obtain ⟨name, v⟩ := member
      rw [normalizeMembers, ih, List.map_cons]

theorem lookup_normalizeMembers (name : Text) (members : List (Text × Value F)) :
    (normalizeMembers floats members).lookup name =
      (members.lookup name).map (normalizeNegativeZero floats) := by
  induction members with
  | nil => rfl
  | cons member members ih =>
      obtain ⟨other, v⟩ := member
      rw [normalizeMembers]
      by_cases hname : name = other
      · subst hname
        rw [List.lookup_cons_self, List.lookup_cons_self]
        rfl
      · rw [Dict.lookup_cons_of_ne hname, Dict.lookup_cons_of_ne hname]
        exact ih

theorem wellFormed_normalize {v : Value F} (h : WellFormed floats.toFloatFormat v) :
    WellFormed floats.toFloatFormat (normalizeNegativeZero floats v) := by
  induction h with
  | null => exact .null
  | bool b => exact .bool b
  | int n => exact .int n
  | float x hx => exact .float _ (value_collapseZero hx)
  | str s => exact .str s
  | arr items h ih =>
      rw [normalizeNegativeZero, normalizeItems_eq_map]
      refine .arr _ fun v hmem => ?_
      obtain ⟨w, hw, rfl⟩ := List.mem_map.mp hmem
      exact ih w hw
  | obj members hnames h ih =>
      rw [normalizeNegativeZero, normalizeMembers_eq_map]
      refine .obj _ ?_ fun member hmem => ?_
      · rw [List.map_map]
        exact hnames
      · obtain ⟨other, hother, rfl⟩ := List.mem_map.mp hmem
        exact ih other hother

theorem isFinite_of_wellFormed {v : Value F} (h : WellFormed floats.toFloatFormat v) :
    isFinite floats v = true := by
  induction h with
  | null | bool b | int n | str s => rfl
  | float x hx => exact hx
  | arr items h ih =>
      rw [isFinite]
      clear h
      induction items with
      | nil => rfl
      | cons v items ih' =>
          rw [areFinite, ih v List.mem_cons_self, Bool.true_and]
          exact ih' fun w hw => ih w (List.mem_cons_of_mem _ hw)
  | obj members hnames h ih =>
      rw [isFinite]
      clear h hnames
      induction members with
      | nil => rfl
      | cons member members ih' =>
          obtain ⟨name, v⟩ := member
          rw [haveFinite, ih _ List.mem_cons_self, Bool.true_and]
          exact ih' fun w hw => ih w (List.mem_cons_of_mem _ hw)

theorem equalItems_normalize {xs ys : List (Value F)}
    (ih : ∀ v ∈ xs, ∀ w,
      Equal Eq (normalizeNegativeZero floats v) (normalizeNegativeZero floats w) ↔
        Equal (sameFloat floats) v w) :
    EqualItems Eq (normalizeItems floats xs) (normalizeItems floats ys) ↔
      EqualItems (sameFloat floats) xs ys := by
  induction xs generalizing ys with
  | nil => cases ys <;> simp [normalizeItems, EqualItems]
  | cons v xs ih' =>
      cases ys with
      | nil => simp [normalizeItems, EqualItems]
      | cons w ys =>
          rw [normalizeItems, normalizeItems, EqualItems, EqualItems, ih v List.mem_cons_self w,
            ih' fun u hu => ih u (List.mem_cons_of_mem _ hu)]

/-- Normalised values are equal where the values are equal up to the sign of zeros. -/
theorem equal_normalize_iff {v w : Value F} (hv : WellFormed floats.toFloatFormat v) :
    Equal Eq (normalizeNegativeZero floats v) (normalizeNegativeZero floats w) ↔
      Equal (sameFloat floats) v w := by
  induction hv generalizing w with
  | null => cases w <;> simp [normalizeNegativeZero, Equal]
  | bool b => cases w <;> simp [normalizeNegativeZero, Equal]
  | int n => cases w <;> simp [normalizeNegativeZero, Equal]
  | str s => cases w <;> simp [normalizeNegativeZero, Equal]
  | float x hx =>
      cases w with
      | float y =>
          rw [normalizeNegativeZero, normalizeNegativeZero, Equal, Equal]
          exact collapseZero_eq_iff
      | _ => simp [normalizeNegativeZero, Equal]
  | arr items h ih =>
      cases w with
      | arr others =>
          rw [normalizeNegativeZero, normalizeNegativeZero, Equal, Equal]
          exact equalItems_normalize fun v hv w => ih v hv
      | _ => simp [normalizeNegativeZero, Equal]
  | obj members hnames h ih =>
      cases w with
      | obj others =>
          rw [normalizeNegativeZero, normalizeNegativeZero, Equal, Equal, equalMembers_iff,
            equalMembers_iff, normalizeMembers_eq_map members]
          refine and_congr (by simp [normalizeMembers_eq_map]) ?_
          rw [List.forall_mem_map]
          refine forall₂_congr fun member hmem => ?_
          rw [lookup_normalizeMembers]
          constructor
          · intro h
            obtain ⟨_, hlookup, hequal⟩ := h
            obtain ⟨w, hw, rfl⟩ := Option.map_eq_some_iff.mp hlookup
            exact ⟨w, hw, (ih member hmem).mp hequal⟩
          · intro h
            obtain ⟨w, hlookup, hequal⟩ := h
            refine ⟨normalizeNegativeZero floats w, ?_, (ih member hmem).mpr hequal⟩
            rw [hlookup]
            rfl
      | _ => simp [normalizeNegativeZero, Equal]

end Zeros

/-! ## Bytes -/

section Bytes
variable {F : Type} {floats : Floats F}

theorem canonicalJsonBytes_some {v : Value F} (h : WellFormed floats.toFloatFormat v) :
    canonicalJsonBytes floats v = some (encodeUtf8 (dumpsWith floats.toFloatFormat compact
      (sortKeys (normalizeNegativeZero floats v)))) := by
  rw [canonicalJsonBytes]
  exact if_pos (isFinite_of_wellFormed (wellFormed_normalize h))

/-- A value can be read back from what was written of it. -/
theorem dumpsWith_injective {format : FloatFormat F} {sep : Separators} {v w : Value F}
    (hv : WellFormed format v) (hw : WellFormed format w)
    (h : dumpsWith format sep v = dumpsWith format sep w) : v = w := by
  have hread := loads_dumpsWith sep hv
  rw [h, loads_dumpsWith sep hw] at hread
  exact (Option.some.inj hread).symm

theorem canonicalJsonBytes_eq_iff {v w : Value F} (hv : WellFormed floats.toFloatFormat v)
    (hw : WellFormed floats.toFloatFormat w) :
    canonicalJsonBytes floats v = canonicalJsonBytes floats w ↔
      Equal (sameFloat floats) v w := by
  have hv' := wellFormed_normalize hv
  have hw' := wellFormed_normalize hw
  rw [canonicalJsonBytes_some hv, canonicalJsonBytes_some hw, Option.some.injEq,
    encodeUtf8_injective.eq_iff, ← equal_normalize_iff hv, ← sortKeys_eq_iff hv' hw']
  constructor
  · exact dumpsWith_injective hv'.sortKeys hw'.sortKeys
  · exact fun heq => by rw [heq]

end Bytes

/-! ## Manifests -/

section Manifests
variable {F : Type} {floats : Floats F}

theorem snapshotBytes_perm (H : Host) (dumpWireModel : RegisteredTool → Value F)
    {manifest manifest' : List RegisteredTool} (hperm : manifest.Perm manifest')
    (hnames : (manifest.map RegisteredTool.name).Nodup) :
    snapshotBytes floats H dumpWireModel manifest =
      snapshotBytes floats H dumpWireModel manifest' := by
  have htools : (manifestSnapshot H manifest).tools = (manifestSnapshot H manifest').tools :=
    (sortBy_eq_iff hnames).mpr hperm
  rw [snapshotBytes, snapshotBytes, htools]

/-- Tools of distinct names are all taken, in the order of their registration. -/
theorem registerAll_eq {order : List RegisteredTool} {tools : Dict Text RegisteredTool}
    (h : (tools.map Prod.fst ++ order.map RegisteredTool.name).Nodup) :
    order.foldlM registerTool tools = some (tools ++ order.map fun tool => (tool.name, tool)) := by
  induction order generalizing tools with
  | nil =>
      rw [List.map_nil, List.append_nil]
      rfl
  | cons tool order ih =>
      have hnew : tool.name ∉ tools.map Prod.fst := fun hmem =>
        (List.nodup_append.mp h).2.2 _ hmem _ List.mem_cons_self rfl
      have hregister : registerTool tools tool = some (tools ++ [(tool.name, tool)]) := by
        rw [registerTool, if_neg, Dict.put_of_notMem hnew]
        intro hsome
        obtain ⟨other, hother⟩ := Option.isSome_iff_exists.mp hsome
        exact hnew (List.mem_map.mpr ⟨_, Dict.mem_of_lookup hother, rfl⟩)
      rw [List.foldlM_cons, hregister]
      refine (ih ?_).trans ?_
      · rw [List.map_append, List.append_assoc]
        exact h
      · rw [List.append_assoc]
        rfl

/-- The manifest is sorted by name. -/
theorem registeredToolManifest_eq {order : List RegisteredTool}
    (h : (order.map RegisteredTool.name).Nodup) :
    registeredToolManifest (order.map fun tool => (tool.name, tool)) =
      sortBy RegisteredTool.name order := by
  have hkeys : (order.map fun tool => (tool.name, tool)).map Prod.fst =
      order.map RegisteredTool.name := by
    rw [List.map_map]
    rfl
  have hnames : sortBy id (order.map RegisteredTool.name) =
      (sortBy RegisteredTool.name order).map RegisteredTool.name := by
    rw [sortBy, sortBy]
    exact (List.map_insertionSort _ _ RegisteredTool.name order fun _ _ _ _ => Iff.rfl).symm
  rw [registeredToolManifest, hkeys, hnames, List.filterMap_map]
  refine (List.filterMap_congr fun tool hmem => ?_).trans List.filterMap_some
  refine Dict.lookup_of_mem (hkeys ▸ h) (List.mem_map.mpr ⟨tool, ?_, rfl⟩)
  exact (sortBy_perm RegisteredTool.name order).mem_iff.mp hmem

theorem registeredToolManifest_perm {order order' : List RegisteredTool}
    (hperm : order.Perm order') (hnames : (order.map RegisteredTool.name).Nodup) :
    ∃ tools tools', order.foldlM registerTool [] = some tools ∧
      order'.foldlM registerTool [] = some tools' ∧
      registeredToolManifest tools = registeredToolManifest tools' := by
  have hnames' : (order'.map RegisteredTool.name).Nodup :=
    (hperm.map RegisteredTool.name).nodup_iff.mp hnames
  refine ⟨_, _, registerAll_eq hnames, registerAll_eq hnames', ?_⟩
  rw [List.nil_append, List.nil_append, registeredToolManifest_eq hnames,
    registeredToolManifest_eq hnames', sortBy_eq_iff hnames]
  exact hperm

/-- Two trees have the same canonical bytes where they are equal up to the order of keys
and the sign of zeros, and those of a manifest are the same in every order of its tools,
however these were registered. -/
theorem canonical_hash_input (floats : Floats F) :
    (∀ {v w : Value F}, WellFormed floats.toFloatFormat v → WellFormed floats.toFloatFormat w →
      ∃ b c, canonicalJsonBytes floats v = some b ∧ canonicalJsonBytes floats w = some c ∧
        (b = c ↔ Equal (sameFloat floats) v w)) ∧
    ∀ (H : Host) (dumpWireModel : RegisteredTool → Value F) {order order' : List RegisteredTool},
      order.Perm order' → (order.map RegisteredTool.name).Nodup →
      snapshotBytes floats H dumpWireModel order = snapshotBytes floats H dumpWireModel order' ∧
      ∃ tools tools', order.foldlM registerTool [] = some tools ∧
        order'.foldlM registerTool [] = some tools' ∧
        snapshotBytes floats H dumpWireModel (registeredToolManifest tools) =
          snapshotBytes floats H dumpWireModel (registeredToolManifest tools') := by
  constructor
  · intro v w hv hw
    refine ⟨_, _, canonicalJsonBytes_some hv, canonicalJsonBytes_some hw, ?_⟩
    rw [← canonicalJsonBytes_eq_iff hv hw, canonicalJsonBytes_some hv, canonicalJsonBytes_some hw,
      Option.some.injEq]
  · intro H dumpWireModel order order' hperm hnames
    refine ⟨snapshotBytes_perm H dumpWireModel hperm hnames, ?_⟩
    obtain ⟨tools, tools', htools, htools', hmanifest⟩ := registeredToolManifest_perm hperm hnames
    exact ⟨tools, tools', htools, htools', by rw [hmanifest]⟩

end Manifests

/-- The two zeros. -/
def zeros : Floats Bool where
  repr x := if x then "0.0".toList else "-0.0".toList
  parse t := t.head? != some '-'
  constant _ := true
  value _ := some 0
  literal x _ := by
    cases x with
    | true =>
        exact ⟨[], ['0'], ['.', '0'], [], rfl, .inl rfl, .inl rfl,
          .inr ⟨['0'], ⟨by decide, List.forall_mem_singleton.mpr rfl⟩, rfl⟩, .inl rfl,
          .inl (by decide)⟩
    | false =>
        exact ⟨['-'], ['0'], ['.', '0'], [], rfl, .inr rfl, .inl rfl,
          .inr ⟨['0'], ⟨by decide, List.forall_mem_singleton.mpr rfl⟩, rfl⟩, .inl rfl,
          .inl (by decide)⟩
  parse_repr x _ := by cases x <;> rfl
  zero := true
  value_zero := rfl

/-- Two objects that differ in order and in the sign of a zero, and two orders of two
tools. -/
theorem canonical_hash_input_small :
    (∃ b, canonicalJsonBytes zeros (.obj [(['a'], .float true), (['b'], .int 1)]) = some b ∧
      canonicalJsonBytes zeros (.obj [(['b'], .int 1), (['a'], .float false)]) = some b) ∧
    snapshotBytes zeros ⟨none, fun _ => [], fun _ => []⟩ (fun tool => .str tool.name)
        [⟨['f'], .null⟩, ⟨['g'], .null⟩] =
      snapshotBytes zeros ⟨none, fun _ => [], fun _ => []⟩ (fun tool => .str tool.name)
        [⟨['g'], .null⟩, ⟨['f'], .null⟩] := by
  constructor
  · have hv : WellFormed zeros.toFloatFormat (.obj [(['a'], .float true), (['b'], .int 1)]) := by
      refine .obj _ (by decide) fun member hmem => ?_
      cases List.mem_pair.mp hmem with
      | inl heq => exact heq ▸ .float true rfl
      | inr heq => exact heq ▸ .int 1
    have hw : WellFormed zeros.toFloatFormat (.obj [(['b'], .int 1), (['a'], .float false)]) := by
      refine .obj _ (by decide) fun member hmem => ?_
      cases List.mem_pair.mp hmem with
      | inl heq => exact heq ▸ .int 1
      | inr heq => exact heq ▸ .float false rfl
    obtain ⟨b, c, hb, hc, hiff⟩ := (canonical_hash_input zeros).1 hv hw
    have hsame : b = c := hiff.mpr
      ⟨rfl, ⟨_, rfl, .inr ⟨rfl, rfl⟩⟩, ⟨_, rfl, rfl⟩, trivial⟩
    exact ⟨b, hb, hsame ▸ hc⟩
  · exact ((canonical_hash_input zeros).2 _ _ (.swap _ _ _) (by decide)).1

end DualeAI.Canonical
