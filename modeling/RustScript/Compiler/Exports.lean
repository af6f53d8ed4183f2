import RustScript.Compiler.Linking

/-!
# Exported callables

Code generation gives every function that is used as a value a hidden slot behind
the slots of the root frame, and exports the public functions by name.  The names
are those of the flat table: the first declaration of a name keeps it, and a later
function of the same name gets a name made of its own and its module's number.

The root unit is linked after the modules it imports, so a function of the root
keeps its name only if no module declared the name before; and since a made-up name
is never compared with the names of the table, it can be another function's own
name.  `exports_iff` says exactly when every public function of the root is
exported under its source name and all exported names differ; `root_export_renamed`
is a program where both fail.
-/

namespace RustScript.Compiler

open Declared List Option AssocMap

/-! ## Hidden slots -/

/-- How a named function is used across the program. -/
structure CallableUseFacts where
  calledDirectly : Bool
  referencedAsValue : Bool
  exported : Bool
  capturesEnvironment : Bool
  dynamicTargetRequired : Bool
  runtimeSelfRequired : Bool

def CallableUseFacts.requiresCallableSlot (facts : CallableUseFacts) : Bool :=
  facts.referencedAsValue || facts.exported || facts.capturesEnvironment ||
    facts.dynamicTargetRequired || facts.runtimeSelfRequired

/-- The declarations by index; of two with one index the later one stays. -/
def FrontendIr.functionDecls (program : FrontendIr) : List (UInt16 × FunctionDecl) :=
  AssocMap.fromEntries (· == ·) (program.functions.map fun decl => (decl.index, decl))

section

variable (program : FrontendIr) (flow : UInt16 → CallableUseFacts)

/-- The facts about a function with an implementation: what the flow analysis found, and
what its declaration and its implementation say. -/
def classifyNamedCallable (index : UInt16) : Option CallableUseFacts :=
  (program.functionImpls.get index).map fun function =>
    { flow index with
      exported := ((program.functionDecls.lookup index).map FunctionDecl.exported).getD false
      capturesEnvironment := !function.captureCopies.isEmpty }

def requiresSlot (index : UInt16) : Bool :=
  ((classifyNamedCallable program flow index).map CallableUseFacts.requiresCallableSlot).getD true

/-- Consecutive slots for the functions that need one. -/
def assignSlots (requires : UInt16 → Bool) : Nat → List UInt16 → List (UInt16 × UInt16)
  | _, [] => []
  | next, index :: indices =>
    if requires index then (index, UInt16.ofNat next) :: assignSlots requires (next + 1) indices
    else assignSlots requires next indices

/-- The slots of the named functions behind the slots of the root frame, if the frame can
hold them. -/
def prepareNamedCallables (rootLocalCount : Nat) : Option (List (UInt16 × UInt16)) :=
  let indices := (program.functionImpls.map Prod.fst).mergeSort (· ≤ ·)
  if rootLocalCount + (indices.filter (requiresSlot program flow)).length > 256 then none
  else some (assignSlots (requiresSlot program flow) rootLocalCount indices)

/-- The public functions that have a slot, by name. -/
def exportedCallables (slots : List (UInt16 × UInt16)) : List ExportedCallable :=
  let exported := (program.functionDecls.map Prod.snd).filter FunctionDecl.exported
  (exported.filterMap fun decl =>
    (slots.lookup decl.index).map fun slot => (⟨decl.name, slot⟩ : ExportedCallable)).mergeSort
      fun lhs rhs => lhs.name ≤ rhs.name

end

theorem assignSlots_eq (requires : UInt16 → Bool) (next : Nat) (indices : List UInt16) :
    assignSlots requires next indices =
      ((indices.filter requires).zipIdx next).map (Prod.map id UInt16.ofNat) := by
  induction indices generalizing next with
  | nil => rfl
  | cons index indices ih =>
    unfold assignSlots
    split
    · rename_i needed
      rw [ih, filter_cons_of_pos needed]
      rfl
    · rename_i unneeded
      rw [ih, filter_cons_of_neg unneeded]

section

variable {program : FrontendIr} {flow : UInt16 → CallableUseFacts} {rootLocalCount : Nat}
  {slots : List (UInt16 × UInt16)}

/-- A function has a slot exactly if it has an implementation and needs one. -/
theorem lookup_slots_isSome (prepared : prepareNamedCallables program flow rootLocalCount =
    some slots) (index : UInt16) :
    (slots.lookup index).isSome ↔
      index ∈ program.functionImpls.map Prod.fst ∧ requiresSlot program flow index = true := by
  unfold prepareNamedCallables at prepared
  dsimp only at prepared
  split at prepared
  · cases prepared
  · cases prepared
    rw [lookup_isSome_iff_mem, assignSlots_eq, List.map_map, Prod.map_fst', Function.id_comp,
      zipIdx_map_fst, mem_filter, mem_mergeSort]

/-- No two functions share a slot. -/
theorem lookup_slots_inj (prepared : prepareNamedCallables program flow rootLocalCount =
    some slots) {first second slot : UInt16} (atFirst : slots.lookup first = some slot)
    (atSecond : slots.lookup second = some slot) : first = second := by
  unfold prepareNamedCallables at prepared
  dsimp only at prepared
  split at prepared
  · cases prepared
  · cases prepared
    have distinct : ((assignSlots (requiresSlot program flow) rootLocalCount
        ((program.functionImpls.map Prod.fst).mergeSort (· ≤ ·))).map Prod.snd).Nodup := by
      rw [assignSlots_eq, List.map_map, Prod.map_snd', ← List.map_map, List.zipIdx_map_snd]
      refine Nodup.map_on ?_ (nodup_range')
      intro a aMem b bMem same
      rw [mem_range'_1] at aMem bMem
      have aNat : (UInt16.ofNat a).toNat = a := UInt16.toNat_ofNat_of_lt (by
        have : UInt16.size = 65536 := rfl
        omega)
      have bNat : (UInt16.ofNat b).toNat = b := UInt16.toNat_ofNat_of_lt (by
        have : UInt16.size = 65536 := rfl
        omega)
      rw [← aNat, ← bNat, same]
    obtain ⟨_, _, splitFirst, -⟩ := lookup_eq_some_iff.mp atFirst
    obtain ⟨_, _, splitSecond, -⟩ := lookup_eq_some_iff.mp atSecond
    have same := inj_on_of_nodup_map distinct (x := (first, slot)) (y := (second, slot))
      (by simp [splitFirst]) (by simp [splitSecond]) rfl
    exact congrArg Prod.fst same

end

/-! ## The exports of a linked program -/

variable {entry : FunctionDecl} {catalog : BuiltinCatalog} {units : List ParsedUnit}
  {merged : FrontendIr} {state : MergeState}

section

variable {flow : UInt16 → CallableUseFacts} {rootLocalCount : Nat} {slots : List (UInt16 × UInt16)}
  (merging : Merging catalog units state) (functions : merged.functions = state.table.functions)

include merging functions

theorem entry_index {position : Nat}
    (found : merged.functions[position]? = some entry) : entry.index.toNat = position := by
  rw [functions] at found
  have inside := (List.getElem?_eq_some_iff.mp found).1
  rw [(merging.registered.entries _ _ found).1]
  exact UInt16.toNat_ofNat_of_lt (lt_of_lt_of_le inside merging.registered.size)

variable {entry' : FunctionDecl}

/-- The table has one entry for an index. -/
theorem entry_of_index (mem : entry ∈ merged.functions)
    (mem' : entry' ∈ merged.functions) (same : entry.index = entry'.index) : entry = entry' := by
  obtain ⟨i, atI⟩ := mem_iff_getElem?.mp mem
  obtain ⟨j, atJ⟩ := mem_iff_getElem?.mp mem'
  have position : i = j := by
    rw [← entry_index merging functions atI, ← entry_index merging functions atJ, same]
  subst position
  exact some.inj (atI.symm.trans atJ)

/-- Two entries of one symbol have one index. -/
theorem index_of_symbol (mem : entry ∈ merged.functions)
    (mem' : entry' ∈ merged.functions) (same : entry.symbol = entry'.symbol) :
    entry.index = entry'.index := by
  rw [functions] at mem mem'
  obtain ⟨i, atI⟩ := mem_iff_getElem?.mp mem
  obtain ⟨j, atJ⟩ := mem_iff_getElem?.mp mem'
  obtain ⟨index, d, -, -, owns, placed⟩ := merging.registered.entries _ _ atI
  obtain ⟨index', d', -, -, owns', placed'⟩ := merging.registered.entries _ _ atJ
  have symbols : d.symbol = d'.symbol := some.inj (owns.symm.trans (same.trans owns'))
  rw [symbols, placed'] at placed
  rw [index, index', some.inj placed]

theorem functionDecls_eq :
    merged.functionDecls = merged.functions.map fun decl => (decl.index, decl) := by
  refine fromEntries_of_keysDistinct ?_
  unfold KeysDistinct
  rw [pairwise_map, pairwise_iff_getElem]
  intro i j iInside jInside below
  have atI := entry_index merging functions (getElem?_eq_getElem iInside)
  have atJ := entry_index merging functions (getElem?_eq_getElem jInside)
  rw [beq_eq_false_iff_ne]
  intro same
  have numbers := congrArg UInt16.toNat same
  rw [atI, atJ] at numbers
  exact absurd numbers (Nat.ne_of_lt below)

/-- The entry of an index is found among the declarations. -/
theorem lookup_functionDecls (mem : entry ∈ merged.functions) :
    merged.functionDecls.lookup entry.index = some entry := by
  have distinct : (merged.functionDecls.map Prod.fst).Nodup := by
    have keys := fromEntries_keysDistinct (· == ·)
      (merged.functions.map fun decl => (decl.index, decl))
    rw [Nodup, pairwise_map]
    exact keys.imp fun different => ne_of_beq_false different
  have inTable : (entry.index, entry) ∈ merged.functionDecls := by
    rw [functionDecls_eq merging functions]
    exact mem_map_of_mem mem
  have found := lookup_isSome_iff_mem.mpr (mem_map_of_mem (f := Prod.fst) inTable)
  obtain ⟨other, isFound⟩ := isSome_iff_exists.mp found
  obtain ⟨_, _, split, -⟩ := lookup_eq_some_iff.mp isFound
  have same := inj_on_of_nodup_map distinct inTable (y := (entry.index, other))
    (by simp [split]) rfl
  cases same
  exact isFound

theorem mem_exports {name : String} {slot : UInt16} :
    (⟨name, slot⟩ : ExportedCallable) ∈ exportedCallables merged slots ↔
      ∃ entry ∈ merged.functions, entry.exported = true ∧ entry.name = name ∧
        slots.lookup entry.index = some slot := by
  unfold exportedCallables
  simp only [functionDecls_eq merging functions, List.map_map, List.mem_mergeSort,
    List.mem_filterMap, List.mem_filter, Option.map_eq_some_iff]
  constructor
  · rintro ⟨entry, ⟨mem, exported⟩, _, found, same⟩
    cases same
    simp only [Function.comp_def, List.map_id'] at mem
    exact ⟨entry, mem, exported, rfl, found⟩
  · rintro ⟨entry, mem, exported, rfl, found⟩
    refine ⟨entry, ⟨?_, exported⟩, slot, found, rfl⟩
    simpa only [Function.comp_def, List.map_id'] using mem

variable (impls : merged.functionImpls = state.functionImpls)
  (prepared : prepareNamedCallables merged flow rootLocalCount = some slots)

include impls prepared

/-- A public function has a slot exactly if it has an implementation. -/
theorem slot_of_exported (mem : entry ∈ merged.functions) (exported : entry.exported = true) :
    (slots.lookup entry.index).isSome ↔ ∃ d ∈ declarations units, d.implemented = true ∧
      state.table.flatIndexBySymbol d.symbol = some entry.index := by
  rw [lookup_slots_isSome prepared, impls, merging.keys]
  refine and_iff_left_of_imp fun isKey => ?_
  have installed := (merging.keys _).mpr isKey
  rw [← impls, ← get_isSome_iff] at installed
  obtain ⟨function, has⟩ := isSome_iff_exists.mp installed
  simp [requiresSlot, classifyNamedCallable, has, lookup_functionDecls merging functions mem,
    exported, CallableUseFacts.requiresCallableSlot]

end

/-! ## Names -/

variable {α : Type} {xs us vs : List α} {name : String} {symbol : SymbolId} {d : Declared}

/-- Of two places in one list, one is before the other. -/
theorem splits_ordered {us' vs' : List α} {x y : α}
    (first : xs = us ++ x :: us') (second : xs = vs ++ y :: vs') :
    x ∈ vs ∨ y ∈ us ∨ (us = vs ∧ x = y) := by
  rcases append_eq_append_iff.mp (first.symm.trans second) with
    ⟨between, rfl, rest⟩ | ⟨between, rfl, rest⟩
  · cases between with
    | nil => exact .inr (.inr ⟨(append_nil _).symm, (cons.inj rest).1⟩)
    | cons z between => exact .inl (mem_append_right _ ((cons.inj rest).1 ▸ mem_cons_self))
  · cases between with
    | nil => exact .inr (.inr ⟨append_nil _, (cons.inj rest).1.symm⟩)
    | cons z between => exact .inr (.inl (mem_append_right _ ((cons.inj rest).1 ▸ mem_cons_self)))

theorem append_cons_inj {c : α} {ys : List α} (inUs : c ∉ us) (inVs : c ∉ vs)
    (h : us ++ c :: xs = vs ++ c :: ys) : us = vs ∧ xs = ys := by
  rcases splits_ordered rfl h with mem | mem | ⟨rfl, -⟩
  · exact absurd mem inVs
  · exact absurd mem inUs
  · exact ⟨rfl, (cons.inj (append_cancel_left h)).2⟩

/-- A made-up name determines the name and the module it was made of. -/
theorem deterministicFlatName_inj {name' : String} {symbol' : SymbolId}
    (h : deterministicFlatName name symbol = deterministicFlatName name' symbol') :
    name = name' ∧ symbol.module = symbol'.module := by
  have noM : ∀ n : Nat, 'm' ∉ (Nat.toDigits 10 n).reverse := by
    intro n mem
    have digit := Nat.isDigit_of_mem_toDigits (by decide) (by decide) (mem_reverse.mp mem)
    exact absurd digit (by decide)
  -- Read from the end, the first `m` is the one that the linker put there.
  have reversed : ∀ (base : String) (owner : SymbolId),
      (deterministicFlatName base owner).toList.reverse =
        (Nat.toDigits 10 owner.module).reverse ++ 'm' :: '_' :: '_' :: base.toList.reverse := by
    simp [deterministicFlatName]
  have both := congrArg (fun text : String => text.toList.reverse) h
  simp only [reversed] at both
  obtain ⟨digits, rest⟩ := append_cons_inj (noM _) (noM _) both
  constructor
  · have chars := reverse_injective (cons.inj (cons.inj rest).2).2
    exact String.toList_inj.mp chars
  · calc symbol.module = Nat.ofDigitChars 10 (Nat.toDigits 10 symbol.module) 0 :=
          Nat.ofDigitChars_ten_toDigits.symm
      _ = Nat.ofDigitChars 10 (Nat.toDigits 10 symbol'.module) 0 := by rw [reverse_injective digits]
      _ = symbol'.module := Nat.ofDigitChars_ten_toDigits

theorem deterministicFlatName_ne : deterministicFlatName name symbol ≠ name := by
  intro same
  have lengths := congrArg String.length same
  simp only [deterministicFlatName, String.length_append] at lengths
  have mark : "__m".length = 3 := rfl
  omega

/-! ## When exports keep their names -/

/-- A public function with an implementation, and the declarations before it. -/
structure Public (units : List ParsedUnit) (earlier : List Declared) (d : Declared) : Prop where
  split : ∃ later, declarations units = earlier ++ d :: later
  implemented : d.implemented = true
  exported : d.decl.exported = true

variable {earlier : List Declared}

theorem Public.mem (isPublic : Public units earlier d) : d ∈ declarations units := by
  obtain ⟨later, split⟩ := isPublic.split
  simp [split]

/-- No declaration that takes a name of the flat table has the name of a public function
of the root before it. -/
def RootNamesFree (catalog : BuiltinCatalog) (units : List ParsedUnit) (root : ParsedUnit) : Prop :=
  ∀ earlier d, Public units earlier d → d ∈ root.declared → ¬ d.Shadowed catalog earlier

/-- The names that are made up for public functions are new. -/
structure RenamesFresh (catalog : BuiltinCatalog) (units : List ParsedUnit) : Prop where
  /-- A module has at most one renamed public function of a name. -/
  twins : ∀ earlier d earlier' d', Public units earlier d → Public units earlier' d' →
    d.Shadowed catalog earlier → d'.Shadowed catalog earlier' → d.decl.name = d'.decl.name →
    d.symbol.module = d'.symbol.module → d.symbol = d'.symbol
  /-- A made-up name is not the name of a public function that keeps its own. -/
  mimics : ∀ earlier d earlier' d', Public units earlier d → Public units earlier' d' →
    d.Shadowed catalog earlier → ¬ d'.Shadowed catalog earlier' →
    d'.decl.name ≠ d.decl.name ++ "__m" ++ toString d.symbol.module

/-- Every public function of the root is exported under its own name, and no two exported
callables have the same name. -/
structure ExportsOwnNames (root : ParsedUnit) (merged : FrontendIr)
    (slots : List (UInt16 × UInt16)) (exports : List ExportedCallable) : Prop where
  root : ∀ decl ∈ root.parsed.functions, decl.exported = true → root.hasImpl decl.index = true →
    ∃ entry ∈ merged.functions, entry.symbol = decl.symbol ∧
      ∃ slot, slots.lookup entry.index = some slot ∧ ⟨decl.name, slot⟩ ∈ exports
  distinct : (exports.map ExportedCallable.name).Nodup

/-- Distinct flat names of public functions, in terms of their source names. -/
theorem flatNames_distinct_iff (formed : LinkSet units) :
    (∀ earlier d earlier' d', Public units earlier d → Public units earlier' d' →
      d.flatName catalog earlier = d'.flatName catalog earlier' → d.symbol = d'.symbol) ↔
      RenamesFresh catalog units := by
  constructor
  · intro distinct
    refine ⟨?_, ?_⟩
    · intro earlier d earlier' d' isPublic isPublic' shadowed shadowed' name module
      refine distinct _ _ _ _ isPublic isPublic' ?_
      unfold flatName
      rw [if_pos shadowed, if_pos shadowed', deterministicFlatName, deterministicFlatName, name,
        module]
    · intro earlier d earlier' d' isPublic isPublic' shadowed kept name
      have flat : d.flatName catalog earlier = d'.flatName catalog earlier' := by
        unfold flatName
        rw [if_pos shadowed, if_neg kept, name]
        rfl
      have same : d = d' := inj_on_of_nodup_map formed.symbols isPublic.mem isPublic'.mem
        (distinct _ _ _ _ isPublic isPublic' flat)
      rw [same] at name
      exact deterministicFlatName_ne name.symm
  · rintro ⟨twins, mimics⟩ earlier d earlier' d' isPublic isPublic' flat
    unfold flatName at flat
    split at flat <;> split at flat
    · rename_i shadowed shadowed'
      obtain ⟨name, module⟩ := deterministicFlatName_inj flat
      exact twins _ _ _ _ isPublic isPublic' shadowed shadowed' name module
    · rename_i shadowed kept
      exact absurd flat.symm (mimics _ _ _ _ isPublic isPublic' shadowed kept)
    · rename_i kept shadowed
      exact absurd flat (mimics _ _ _ _ isPublic' isPublic shadowed kept)
    · rename_i kept kept'
      have isFlat : ∀ other : Declared, other.implemented = true → other.Flat catalog :=
        fun other implemented => by simp [Flat, legacyBuiltin, implemented]
      obtain ⟨_, split⟩ := isPublic.split
      obtain ⟨_, split'⟩ := isPublic'.split
      rcases splits_ordered split split' with before | before | ⟨-, rfl⟩
      · exact absurd ⟨d, before, isFlat d isPublic.implemented, flat⟩ kept'
      · exact absurd ⟨d', before, isFlat d' isPublic'.implemented, flat.symm⟩ kept
      · rfl

section

variable {flow : UInt16 → CallableUseFacts} {rootLocalCount : Nat} {slots : List (UInt16 × UInt16)}

/-- A function with an implementation owns a symbol, since its implementation is
installed. -/
theorem declared_of_impl (formed : LinkSet units) (merging : Merging catalog units state)
    {unit : ParsedUnit} (unitMem : unit ∈ units) {decl : FunctionDecl}
    (mem : decl ∈ unit.parsed.functions) (hasImpl : unit.hasImpl decl.index = true) :
    ∃ d ∈ unit.declared, d.decl = decl := by
  obtain ⟨parts, -, -, images⟩ := merging.images
  obtain ⟨entry, entryMem, key⟩ := mem_map.mp (get_isSome_iff.mp hasImpl)
  obtain ⟨based, basedMem, rfl⟩ := mem_basedUnits 0 unitMem
  obtain ⟨i, inside, rfl⟩ := mem_iff_getElem.mp basedMem
  obtain ⟨sameLength, imageAt⟩ := forall₂_iff_get.mp images
  obtain ⟨remap, image⟩ := imageAt i inside (sameLength ▸ inside)
  obtain ⟨k, kInside, rfl⟩ := mem_iff_getElem.mp entryMem
  obtain ⟨implLength, implAt⟩ := forall₂_iff_get.mp image.impls
  obtain ⟨d, isDeclared, -⟩ :=
    image.follows.found _ _ (implAt k kInside (implLength ▸ kInside)).1
  have declared := mem_of_find?_eq_some isDeclared
  have index : d.decl.index = decl.index := by
    have found := find?_some isDeclared
    rw [← key]
    simpa using found
  exact ⟨d, declared, inj_on_of_nodup_map (formed.indices _ unitMem)
    (mem_declared declared).1 mem index⟩

variable (merging : Merging catalog units state)
  (functions : merged.functions = state.table.functions)
  (impls : merged.functionImpls = state.functionImpls)
  (prepared : prepareNamedCallables merged flow rootLocalCount = some slots)

include merging functions impls prepared

/-- A public function is exported under its flat name. -/
theorem exported_of_public {d : Declared}
    (isPublic : Public units earlier d) : ∃ entry ∈ merged.functions, entry.symbol = some d.symbol ∧
      entry.name = d.flatName catalog earlier ∧ ∃ slot, slots.lookup entry.index = some slot ∧
        ⟨d.flatName catalog earlier, slot⟩ ∈ exportedCallables merged slots := by
  obtain ⟨later, split⟩ := isPublic.split
  obtain ⟨flat, placed, found⟩ := merging.registered.placed _ _ _ split
  rw [FoundAt, if_pos isPublic.implemented, ← functions] at found
  have mem := mem_of_getElem? found
  have slotted := (slot_of_exported merging functions impls prepared mem isPublic.exported).mpr
    ⟨d, isPublic.mem, isPublic.implemented, placed⟩
  obtain ⟨slot, hasSlot⟩ := isSome_iff_exists.mp slotted
  exact ⟨_, mem, d.owned, rfl, slot, hasSlot,
    (mem_exports merging functions).mpr ⟨_, mem, isPublic.exported, rfl, hasSlot⟩⟩

/-- An entry that is exported belongs to a public function. -/
theorem public_of_exported (mem : entry ∈ merged.functions) (exported : entry.exported = true)
    {slot : UInt16} (hasSlot : slots.lookup entry.index = some slot) :
    ∃ earlier d, Public units earlier d ∧ entry.symbol = some d.symbol ∧
      entry.name = d.flatName catalog earlier := by
  obtain ⟨d, declared, isImplemented, placed⟩ :=
    (slot_of_exported merging functions impls prepared mem exported).mp (by rw [hasSlot]; rfl)
  obtain ⟨earlier, later, split⟩ := append_of_mem declared
  obtain ⟨flat, placed', found⟩ := merging.registered.placed _ _ _ split
  cases placed.symm.trans placed'
  obtain ⟨position, atPosition⟩ := mem_iff_getElem?.mp mem
  rw [FoundAt, if_pos isImplemented, ← functions, entry_index merging functions atPosition,
    atPosition] at found
  have same := some.inj found
  refine ⟨earlier, d, ⟨⟨later, split⟩, isImplemented, ?_⟩, ?_, ?_⟩
  · rw [same] at exported
    exact exported
  · rw [same]
    exact d.owned
  · rw [same]

/-- The exported names differ exactly if the made-up names are new. -/
theorem exports_distinct_iff (formed : LinkSet units) :
    ((exportedCallables merged slots).map ExportedCallable.name).Nodup ↔
      RenamesFresh catalog units := by
  rw [← flatNames_distinct_iff formed]
  constructor
  · intro distinct earlier d earlier' d' isPublic isPublic' flat
    obtain ⟨entry, mem, owns, -, slot, hasSlot, isExported⟩ :=
      exported_of_public merging functions impls prepared isPublic
    obtain ⟨entry', mem', owns', -, slot', hasSlot', isExported'⟩ :=
      exported_of_public merging functions impls prepared isPublic'
    have one := inj_on_of_nodup_map distinct isExported isExported' flat
    have slotEq : slot = slot' := congrArg ExportedCallable.localSlot one
    have index := lookup_slots_inj prepared hasSlot (slotEq ▸ hasSlot')
    cases entry_of_index merging functions mem mem' index
    exact some.inj (owns.symm.trans owns')
  · intro distinct
    unfold exportedCallables
    rw [functionDecls_eq merging functions]
    refine ((mergeSort_perm _ _).map _).nodup_iff.mpr ?_
    rw [List.Nodup, List.pairwise_map, List.pairwise_filterMap, List.pairwise_filter, List.map_map,
      pairwise_map, pairwise_iff_getElem]
    intro i j iInside jInside below exported exported' callable mapped callable' mapped' name
    obtain ⟨slot, hasSlot, rfl⟩ := map_eq_some_iff.mp mapped
    obtain ⟨slot', hasSlot', rfl⟩ := map_eq_some_iff.mp mapped'
    have atI := getElem?_eq_getElem iInside
    have atJ := getElem?_eq_getElem jInside
    obtain ⟨earlier, d, isPublic, owns, flat⟩ := public_of_exported merging functions impls prepared
      (mem_of_getElem? atI) exported hasSlot
    obtain ⟨earlier', d', isPublic', owns', flat'⟩ := public_of_exported merging functions impls
      prepared (mem_of_getElem? atJ) exported' hasSlot'
    have symbol := distinct _ _ _ _ isPublic isPublic' (flat.symm.trans (name.trans flat'))
    have index := congrArg UInt16.toNat (index_of_symbol merging functions
      (mem_of_getElem? atI) (mem_of_getElem? atJ) (by rw [owns, owns', symbol]))
    rw [entry_index merging functions atI, entry_index merging functions atJ] at index
    exact absurd index (Nat.ne_of_lt below)

end

/-- **When exported names are the source's.**  For every set of modules that links, with
the root unit last, every public function of the root is exported under its own name
and all exported names differ, exactly if no entry of the flat table has the name of
a public function of the root before it and the made-up names are new. -/
theorem exports_iff {catalog : BuiltinCatalog} {imported : List ParsedUnit} {root : ParsedUnit}
    {merged : FrontendIr} (formed : LinkSet (imported ++ [root]))
    (accepted : mergeUnits catalog (imported ++ [root]) = .ok merged)
    {flow : UInt16 → CallableUseFacts} {rootLocalCount : Nat} {slots : List (UInt16 × UInt16)}
    (prepared : prepareNamedCallables merged flow rootLocalCount = some slots) :
    ExportsOwnNames root merged slots (exportedCallables merged slots) ↔
      RootNamesFree catalog (imported ++ [root]) root ∧
        RenamesFresh catalog (imported ++ [root]) := by
  obtain ⟨state, merging, -, functions, impls⟩ := mergeUnits_merging formed accepted
  rw [← exports_distinct_iff merging functions impls prepared formed]
  refine ⟨fun own => ⟨?_, own.distinct⟩, fun ⟨free, distinct⟩ => ⟨?_, distinct⟩⟩
  · intro earlier d isPublic mem shadowed
    obtain ⟨inRoot, hasImpl⟩ := mem_declared mem
    obtain ⟨entry, entryMem, owns, slot, hasSlot, isExported⟩ :=
      own.root d.decl inRoot isPublic.exported (hasImpl ▸ isPublic.implemented)
    obtain ⟨other, otherMem, -, otherName, otherSlot⟩ :=
      (mem_exports merging functions).mp isExported
    obtain ⟨entry', entryMem', owns', flat, -⟩ :=
      exported_of_public merging functions impls prepared isPublic
    -- The exported entry, the one found by its slot and the one of the symbol are one.
    cases entry_of_index merging functions entryMem otherMem
      (lookup_slots_inj prepared hasSlot otherSlot)
    cases entry_of_index merging functions entryMem entryMem'
      (index_of_symbol merging functions entryMem entryMem' (by rw [owns, owns', d.owned]))
    rw [otherName, flatName, if_pos shadowed] at flat
    exact deterministicFlatName_ne flat.symm
  · intro decl mem exported hasImpl
    have rootMem : root ∈ imported ++ [root] := by simp
    obtain ⟨d, declared, rfl⟩ := declared_of_impl formed merging rootMem mem hasImpl
    obtain ⟨earlier, later, split⟩ :=
      append_of_mem (mem_flatMap.mpr ⟨root, rootMem, declared⟩)
    have isPublic : Public (imported ++ [root]) earlier d :=
      ⟨⟨later, split⟩, (mem_declared declared).2.trans hasImpl, exported⟩
    obtain ⟨entry, entryMem, owns, -, slot, hasSlot, isExported⟩ :=
      exported_of_public merging functions impls prepared isPublic
    refine ⟨entry, entryMem, owns.trans d.owned.symm, slot, hasSlot, ?_⟩
    rwa [flatName, if_neg (free _ _ isPublic declared)] at isExported

/-- When all source names differ, nothing is renamed. -/
theorem not_shadowed_of_distinct (distinct : ((declarations units).map fun d => d.decl.name).Nodup)
    (isPublic : Public units earlier d) : ¬ d.Shadowed catalog earlier := by
  rintro ⟨other, mem, -, name⟩
  obtain ⟨later, split⟩ := isPublic.split
  rw [split, map_append, nodup_append] at distinct
  exact distinct.2.2 _ (mem_map_of_mem mem) _ (by simp) name

theorem prepareNamedCallables_isSome (program : FrontendIr) {flow : UInt16 → CallableUseFacts}
    (rootLocalCount : Nat) (fits : rootLocalCount + program.functionImpls.length ≤ 256) :
    ∃ slots, prepareNamedCallables program flow rootLocalCount = some slots := by
  refine ⟨_, if_neg ?_⟩
  have filtered := length_filter_le (requiresSlot program flow)
    ((program.functionImpls.map Prod.fst).mergeSort (· ≤ ·))
  rw [length_mergeSort, length_map] at filtered
  omega

/-! ## A root function that loses its name -/

/-- A public function without parameters. -/
def publicDecl (name : String) (index : UInt16) (symbol : SymbolId) : FunctionDecl :=
  ⟨name, 0, index, [], [], none, [], true, .unknown, some symbol⟩

/-- A unit of public functions with constant bodies. -/
def publicUnit (module : Nat) (names : List String) : ParsedUnit where
  parsed := {
    stmts := []
    locals := 0
    localBindings := []
    functions := names.zipIdx.map fun (name, index) =>
      publicDecl name (UInt16.ofNat index) ⟨module, index⟩
    functionImpls := names.zipIdx.map fun (_, index) =>
      (UInt16.ofNat index, ⟨[], [], [], .int (Int64.ofNat index)⟩) }
  scopeIdentity := none
  hostCatalogSupplied := false

def publicDeclared (name : String) (module index : Nat) : Declared :=
  ⟨publicDecl name (UInt16.ofNat index) ⟨module, index⟩, ⟨module, index⟩, rfl, true, false⟩

/-- The flow analysis finds direct calls only. -/
def directCalls (_ : UInt16) : CallableUseFacts := ⟨true, false, false, false, false, false⟩

theorem distinct_names_exported : ∃ merged slots,
    mergeUnits noLegacyNames ([publicUnit 1 ["helper"]] ++ [publicUnit 0 ["run"]]) = .ok merged ∧
    prepareNamedCallables merged directCalls 0 = some slots ∧
    ExportsOwnNames (publicUnit 0 ["run"]) merged slots (exportedCallables merged slots) := by
  have formed : LinkSet ([publicUnit 1 ["helper"]] ++ [publicUnit 0 ["run"]]) :=
    ⟨by decide, by decide, by decide⟩
  obtain ⟨merged, accepted, few⟩ : ∃ merged,
      mergeUnits noLegacyNames ([publicUnit 1 ["helper"]] ++ [publicUnit 0 ["run"]]) = .ok merged ∧
      merged.functionImpls.length = 2 := ⟨_, rfl, rfl⟩
  obtain ⟨slots, prepared⟩ := prepareNamedCallables_isSome merged 0 (by omega)
  have names : ((declarations ([publicUnit 1 ["helper"]] ++ [publicUnit 0 ["run"]])).map
      fun d => d.decl.name).Nodup := by decide
  refine ⟨merged, slots, accepted, prepared,
    (exports_iff formed accepted prepared).mpr ⟨?_, ?_, ?_⟩⟩
  · exact fun _ _ isPublic _ => not_shadowed_of_distinct names isPublic
  iterate 2
    exact fun _ _ _ _ isPublic _ shadowed =>
      absurd shadowed (not_shadowed_of_distinct names isPublic)

/-- **A root function that loses its name.**  The module's `run` takes the name before the
root's `run`, which is exported as `run__m0`; and that is the name of another public
function of the module. -/
theorem root_export_renamed : ∃ merged slots,
    LinkSet [publicUnit 1 ["run", "run__m0"], publicUnit 0 ["run"]] ∧
    mergeUnits noLegacyNames [publicUnit 1 ["run", "run__m0"], publicUnit 0 ["run"]] = .ok merged ∧
    merged.functions.map FunctionDecl.name = ["run", "run__m0", "run__m0"] ∧
    prepareNamedCallables merged directCalls 0 = some slots ∧
    ¬ ExportsOwnNames (publicUnit 0 ["run"]) merged slots (exportedCallables merged slots) := by
  have formed : LinkSet [publicUnit 1 ["run", "run__m0"], publicUnit 0 ["run"]] :=
    ⟨by decide, by decide, by decide⟩
  obtain ⟨merged, accepted, names, few⟩ : ∃ merged,
      mergeUnits noLegacyNames [publicUnit 1 ["run", "run__m0"], publicUnit 0 ["run"]] =
        .ok merged ∧
      merged.functions.map FunctionDecl.name = ["run", "run__m0", "run__m0"] ∧
      merged.functionImpls.length = 3 := ⟨_, rfl, rfl, rfl⟩
  obtain ⟨slots, prepared⟩ := prepareNamedCallables_isSome merged 0 (by omega)
  refine ⟨merged, slots, formed, accepted, names, prepared, fun own => ?_⟩
  obtain ⟨state, merging, -, functions, impls⟩ := mergeUnits_merging formed accepted
  have fresh := (exports_distinct_iff merging functions impls prepared formed).mp own.distinct
  have mimic : Public [publicUnit 1 ["run", "run__m0"], publicUnit 0 ["run"]]
      [publicDeclared "run" 1 0] (publicDeclared "run__m0" 1 1) := ⟨⟨_, rfl⟩, rfl, rfl⟩
  have renamed : Public [publicUnit 1 ["run", "run__m0"], publicUnit 0 ["run"]]
      [publicDeclared "run" 1 0, publicDeclared "run__m0" 1 1] (publicDeclared "run" 0 0) :=
    ⟨⟨_, rfl⟩, rfl, rfl⟩
  exact fresh.mimics _ _ _ _ renamed mimic (by decide) (by decide) (by decide)

end RustScript.Compiler
