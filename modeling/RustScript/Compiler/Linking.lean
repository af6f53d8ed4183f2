import RustScript.Compiler.LinkSites
import RustScript.Compiler.Registration

/-!
# Linking preserves what calls mean

A call site denotes a declaration, a builtin or a host import.  What it denotes is
read off the unit that contains it before linking (`ParsedUnit.denotes`) and off
the flat program afterwards (`FrontendIr.denotes`).

Linking keeps the meaning of every site, installs each implementation under its
own function and moves the slots of a unit into a range of its own
(`linking_preserves_calls_iff`), provided that the flat table ends before the
reserved call indices of the builtins, and that no unit with slots before it binds
a closure with parameters by a statement.  Outside of this condition the flat
program is wrong: a parameter keeps the slot number it had in its own unit
(`bound_parameter_overlaps`).
-/

namespace RustScript.Compiler

open Fallible BuiltinFunction List Option

/-! ## What a site denotes -/

inductive Denotation where
  | builtin (index : UInt16)
  | hostImport (name : String) (arity : UInt8)
  /-- A declaration with an implementation, up to its name and index. -/
  | function (decl : FunctionDecl)

/-- The declaration without the name and the index that linking may change. -/
def FunctionDecl.anonymous (decl : FunctionDecl) : FunctionDecl :=
  { decl with name := "", index := 0 }

def Declared.denotes (catalog : BuiltinCatalog) (d : Declared) : Denotation :=
  if d.implemented then .function d.decl.anonymous
  else match d.legacyBuiltin catalog with
    | some builtin => .builtin builtin.callIndex
    | none => .hostImport d.decl.name d.decl.arity

/-- Every declaration of a compilation that owns a symbol. -/
def declarations (units : List ParsedUnit) : List Declared := units.flatMap ParsedUnit.declared

/-- What a site denotes in its own unit. -/
def ParsedUnit.denotes (catalog : BuiltinCatalog) (units : List ParsedUnit) (unit : ParsedUnit) :
    Site → Option Denotation
  | .function index =>
    match unit.declared.find? fun d => d.decl.index == index with
    | some d => some (d.denotes catalog)
    | none => (BuiltinFunction.fromCallIndex index).map fun _ => .builtin index
  | .symbol symbol =>
    ((declarations units).find? fun d => d.symbol == symbol).map (Declared.denotes catalog)
  | .slot _ | .boundParameter _ => none

/-- What a site denotes in a flat program. -/
def FrontendIr.denotes (merged : FrontendIr) : Site → Option Denotation
  | .function index =>
    if (BuiltinFunction.fromCallIndex index).isSome then some (.builtin index)
    else merged.functions[index.toNat]?.map fun decl =>
      if (merged.functionImpls.get index).isSome then .function decl.anonymous
      else .hostImport decl.name decl.arity
  | .symbol _ | .slot _ | .boundParameter _ => none

/-! ## Well-formed units -/

def Site.localSlot : Site → Option LocalSlot
  | .slot number | .boundParameter number => some number
  | .function _ | .symbol _ => none

def ParsedUnit.sites (unit : ParsedUnit) : List Site :=
  stmtsSites unit.parsed.stmts ++ unit.parsed.functionImpls.flatMap fun entry => entry.2.sites

/-- What the parser and the loader guarantee about the units of a compilation. -/
structure LinkSet (units : List ParsedUnit) : Prop where
  symbols : ((declarations units).map Declared.symbol).Nodup
  indices : ∀ unit ∈ units, (unit.parsed.functions.map FunctionDecl.index).Nodup
  slots : ∀ unit ∈ units, ∀ site ∈ unit.sites, ∀ slot ∈ site.localSlot, slot < unit.parsed.locals

variable {units : List ParsedUnit} {unit : ParsedUnit} {remap : Remap}

theorem LinkSet.init (formed : LinkSet (units ++ [unit])) : LinkSet units where
  symbols := by
    have distinct := formed.symbols
    rw [declarations, flatMap_append, map_append, nodup_append] at distinct
    exact distinct.1
  indices := fun other mem => formed.indices other (mem_append_left _ mem)
  slots := fun other mem => formed.slots other (mem_append_left _ mem)

/-! ## The property -/

/-- The units with the number of slots before them. -/
def basedUnits (base : Nat) : List ParsedUnit → List (Nat × ParsedUnit)
  | [] => []
  | unit :: units => (base, unit) :: basedUnits (base + unit.parsed.locals) units

/-- The site uses only slots of the unit's range. -/
def Occupies (based : Nat × ParsedUnit) (site : Site) : Prop :=
  ∀ slot ∈ site.localSlot, based.1 ≤ slot ∧ slot < based.1 + based.2.parsed.locals

/-- The flat code of a unit, its statements and the implementations it installs, means
what the unit means. -/
structure UnitLinked (catalog : BuiltinCatalog) (units : List ParsedUnit) (merged : FrontendIr)
    (based : Nat × ParsedUnit) (part : List Stmt × FunctionImpls) : Prop where
  length : part.1.length = based.2.parsed.stmts.length
  calls : (stmtsSites part.1).map merged.denotes =
    (stmtsSites based.2.parsed.stmts).map (based.2.denotes catalog units)
  slots : ∀ site ∈ stmtsSites part.1, Occupies based site
  impls : List.Forall₂ (fun entry installed =>
      merged.denotes (.function installed.1) = based.2.denotes catalog units (.function entry.1) ∧
      installed.2.sites.map merged.denotes = entry.2.sites.map (based.2.denotes catalog units) ∧
      ∀ site ∈ installed.2.sites, Occupies based site)
    based.2.parsed.functionImpls part.2

/-- Linking preserved what the units mean. -/
structure LinkPreserves (catalog : BuiltinCatalog) (units : List ParsedUnit)
    (merged : FrontendIr) : Prop where
  parts : ∃ parts : List (List Stmt × FunctionImpls), merged.stmts = (parts.map Prod.fst).flatten ∧
    merged.functionImpls = (parts.map Prod.snd).flatten ∧
    List.Forall₂ (UnitLinked catalog units merged) (basedUnits 0 units) parts
  installedOnce : (merged.functionImpls.map Prod.fst).Nodup
  unreserved : ∀ decl ∈ merged.functions, BuiltinFunction.fromCallIndex decl.index = none

/-- No closure that a statement binds has a parameter below the slots of its unit. -/
def ParametersInPlace (units : List ParsedUnit) : Prop :=
  ∀ based ∈ basedUnits 0 units, ∀ slot, Site.boundParameter slot ∈ based.2.sites → based.1 ≤ slot

/-- The flat table ends before the reserved call indices. -/
def BelowBuiltins (catalog : BuiltinCatalog) (units : List ParsedUnit) : Prop :=
  flatCount catalog (declarations units) ≤ 0xFF93

variable {catalog : BuiltinCatalog}

theorem basedUnits_append (base : Nat) (units : List ParsedUnit) (unit : ParsedUnit) :
    basedUnits base (units ++ [unit]) = basedUnits base units ++
      [(base + (units.map fun unit => unit.parsed.locals).sum, unit)] := by
  induction units generalizing base with
  | nil => rfl
  | cons first units ih =>
    rw [cons_append, basedUnits, ih, basedUnits, map_cons, sum_cons, Nat.add_assoc, cons_append]

variable {based : Nat × ParsedUnit}

theorem mem_of_mem_basedUnits {base : Nat} (mem : based ∈ basedUnits base units) :
    based.2 ∈ units := by
  induction units generalizing base with
  | nil => cases mem
  | cons first units ih =>
    rcases mem_cons.mp mem with rfl | mem
    · exact mem_cons_self
    · exact mem_cons_of_mem _ (ih mem)

theorem mem_basedUnits (base : Nat) (mem : unit ∈ units) :
    ∃ based ∈ basedUnits base units, based.2 = unit := by
  induction units generalizing base with
  | nil => cases mem
  | cons first units ih =>
    rcases mem_cons.mp mem with rfl | mem
    · exact ⟨(base, unit), mem_cons_self, rfl⟩
    · obtain ⟨based, basedMem, rfl⟩ := ih (base + first.parsed.locals) mem
      exact ⟨based, mem_cons_of_mem _ basedMem, rfl⟩

/-! ## The images of the units -/

/-- The rewriting agrees with a flat table. -/
structure Remap.Follows (remap : Remap) (table : FlatTable) (unit : ParsedUnit) : Prop where
  found : ∀ index flat, remap.functionMap index = some flat →
    ∃ d, (unit.declared.find? fun d => d.decl.index == index) = some d ∧
      table.flatIndexBySymbol d.symbol = some flat
  absent : ∀ index, remap.functionMap index = none →
    (unit.declared.find? fun d => d.decl.index == index) = none
  symbols : ∀ symbol flat, remap.flatIndexBySymbol symbol = some flat →
    table.flatIndexBySymbol symbol = some flat

variable {table : FlatTable} {table' : FlatTable} {entries new : FunctionImpls} {flat : UInt16}

theorem Remap.Follows.mono (h : remap.Follows table unit)
    (keeps : KeepsSymbols table table') : remap.Follows table' unit where
  found := fun index flat mapped => by
    obtain ⟨d, isDeclared, placed⟩ := h.found index flat mapped
    exact ⟨d, isDeclared, keeps _ _ placed⟩
  absent := h.absent
  symbols := fun symbol flat mapped => keeps _ _ (h.symbols symbol flat mapped)

/-- The part of the flat program that a unit was rewritten to. -/
structure Image (table : FlatTable) (based : Nat × ParsedUnit)
    (part : List Stmt × FunctionImpls) (remap : Remap) : Prop where
  base : remap.localBase = based.1
  follows : remap.Follows table based.2
  length : part.1.length = based.2.parsed.stmts.length
  stmts : remap.RewritesAll (stmtsSites based.2.parsed.stmts) (stmtsSites part.1)
  impls : List.Forall₂ (fun entry installed => remap.functionMap entry.1 = some installed.1 ∧
    remap.RewritesAll entry.2.sites installed.2.sites) based.2.parsed.functionImpls part.2

variable {part : List Stmt × FunctionImpls}

theorem Image.mono (h : Image table based part remap)
    (keeps : KeepsSymbols table table') : Image table' based part remap :=
  { h with follows := h.follows.mono keeps }

theorem remapStmts_length :
    ∀ {stmts stmts' : List Stmt}, remapStmtsIndices remap stmts = .ok stmts' →
      stmts'.length = stmts.length
  | [], _, h => by
      cases pure_eq_ok.mp h
      rfl
  | _ :: _, _, h => by
      simp only [remapStmtsIndices, bind_eq_ok, pure_eq_ok] at h
      obtain ⟨_, -, _, atTail, rfl⟩ := h
      rw [length_cons, length_cons, remapStmts_length atTail]

theorem lookup_isSome_iff_mem {κ ν : Type} [BEq κ] [LawfulBEq κ] {entries : List (κ × ν)}
    {key : κ} : (entries.lookup key).isSome ↔ key ∈ entries.map Prod.fst := by
  rw [List.lookup_isSome_iff, List.mem_map]
  refine exists_congr fun entry => and_congr_right fun _ => ?_
  rw [beq_iff_eq, eq_comm]

theorem get_isSome_iff {impls : FunctionImpls} {j : UInt16} :
    (impls.get j).isSome ↔ j ∈ impls.map Prod.fst :=
  lookup_isSome_iff_mem

/-- The installed entry is the image of a function's implementation. -/
abbrev Remap.Installs (remap : Remap) (entry image : UInt16 × FunctionImpl) : Prop :=
  remap.functionMap entry.1 = some image.1 ∧ remap.RewritesAll entry.2.sites image.2.sites

/-- Installing implementations appends them under the flat indices of their functions. -/
theorem installImpls_images {installed installed' : FunctionImpls}
    (h : entries.foldlM (installImpl remap) installed = .ok installed')
    (distinct : (installed.map Prod.fst).Nodup) :
    ∃ new, installed' = installed ++ new ∧ (installed'.map Prod.fst).Nodup ∧
      Forall₂ remap.Installs entries new := by
  let Holds (consumed now : FunctionImpls) : Prop :=
    ∃ new, now = installed ++ new ∧ (now.map Prod.fst).Nodup ∧ Forall₂ remap.Installs consumed new
  have start : Holds [] installed := ⟨[], by simp, distinct, .nil⟩
  have step : ∀ {consumed entry now next}, Holds consumed now →
      installImpl remap now entry = .ok next → Holds (consumed ++ [entry]) next := by
    rintro consumed entry now next ⟨new, rfl, distinct, images⟩ h
    unfold installImpl at h
    split at h
    · rename_i flat mapped
      obtain ⟨function, rewritten, rest⟩ := bind_eq_ok.mp h
      split at rest
      · cases rest
      · rename_i unused
        cases pure_eq_ok.mp rest
        refine ⟨new ++ [(flat, function)], (append_assoc ..), ?_, ?_⟩
        · rw [get_isSome_iff] at unused
          rw [map_append, nodup_append]
          refine ⟨distinct, nodup_singleton _, ?_⟩
          rintro key mem _ here rfl
          cases mem_singleton.mp here
          exact unused mem
        · exact rel_append images (.cons ⟨mapped, remapFunctionImpl_sites rewritten⟩ .nil)
    · cases h
  exact foldlM_invariant step start h

/-- What holds of the state after the units have been merged. -/
structure Merging (catalog : BuiltinCatalog) (units : List ParsedUnit) (state : MergeState) :
    Prop where
  registered : Registered catalog (declarations units) state.table
  base : state.localBase = (units.map fun unit => unit.parsed.locals).sum
  images : ∃ parts : List (List Stmt × FunctionImpls), state.stmts = (parts.map Prod.fst).flatten ∧
    state.functionImpls = (parts.map Prod.snd).flatten ∧
    List.Forall₂ (fun based part => ∃ remap, Image state.table based part remap)
      (basedUnits 0 units) parts
  keys : ∀ flat, flat ∈ state.functionImpls.map Prod.fst ↔
    ∃ d ∈ declarations units, d.implemented = true ∧
      state.table.flatIndexBySymbol d.symbol = some flat
  distinct : (state.functionImpls.map Prod.fst).Nodup

theorem merging_empty : Merging catalog [] .empty where
  registered := registered_empty
  base := rfl
  images := ⟨[], rfl, rfl, .nil⟩
  keys := by simp [MergeState.empty, declarations]
  distinct := nodup_nil

theorem follows_of_mapsUnit {localBase : Nat} {ds : List Declared}
    (reg : Registered catalog (ds ++ unit.declared) table) (maps : MapsUnit unit.declared table) :
    Remap.Follows ⟨localBase, table.functionMap, table.flatIndexBySymbol⟩ table unit where
  found := fun index flat mapped => by
    exact bind_eq_some_iff.mp ((maps index).symm.trans mapped)
  absent := fun index unmapped => by
    replace unmapped := (maps index).symm.trans unmapped
    cases found : unit.declared.find? fun d => d.decl.index == index with
    | none => rfl
    | some d =>
      have mem := mem_append_right ds (mem_of_find?_eq_some found)
      obtain ⟨earlier, later, split⟩ := append_of_mem mem
      obtain ⟨flat, placed, -⟩ := reg.placed _ _ _ split
      rw [found, bind_some, placed] at unmapped
      cases unmapped
  symbols := fun _ _ found => found

theorem mem_images (images : Forall₂ remap.Installs entries new) :
    flat ∈ new.map Prod.fst ↔ ∃ entry ∈ entries, remap.functionMap entry.1 = some flat := by
  induction images with
  | nil => simp
  | cons atHead _ ih =>
    rw [map_cons, mem_cons, ih]
    simp only [mem_cons, exists_eq_or_imp, atHead.1, some.injEq]
    rw [eq_comm]

theorem find?_of_nodup {α β : Type} [BEq β] [LawfulBEq β] {f : α → β} {xs : List α} {x : α}
    (distinct : (xs.map f).Nodup) (mem : x ∈ xs) : xs.find? (f · == f x) = some x := by
  have some_found : (xs.find? (f · == f x)).isSome :=
    find?_isSome.mpr ⟨x, mem, beq_self_eq_true _⟩
  obtain ⟨other, found⟩ := isSome_iff_exists.mp some_found
  rw [found, inj_on_of_nodup_map distinct (mem_of_find?_eq_some found) mem
    (by simpa using find?_some found)]

/-- The declarations of a unit that have an implementation are those that install one. -/
theorem installed_keys (indices : (unit.parsed.functions.map FunctionDecl.index).Nodup)
    (maps : MapsUnit unit.declared table) (functionMap : remap.functionMap = table.functionMap)
    (images : Forall₂ remap.Installs unit.parsed.functionImpls new) :
    flat ∈ new.map Prod.fst ↔ ∃ d ∈ unit.declared, d.implemented = true ∧
      table.flatIndexBySymbol d.symbol = some flat := by
  rw [mem_images images, functionMap]
  constructor
  · rintro ⟨entry, mem, toFlat⟩
    rw [maps entry.1] at toFlat
    obtain ⟨d, found, placed⟩ := bind_eq_some_iff.mp toFlat
    have declared := mem_of_find?_eq_some found
    refine ⟨d, declared, ?_, placed⟩
    have index : d.decl.index = entry.1 := by simpa using find?_some found
    rw [(mem_declared declared).2, index]
    exact get_isSome_iff.mpr (mem_map_of_mem mem)
  · rintro ⟨d, declared, isImplemented, placed⟩
    rw [(mem_declared declared).2] at isImplemented
    obtain ⟨entry, mem, key⟩ := mem_map.mp (get_isSome_iff.mp isImplemented)
    refine ⟨entry, mem, ?_⟩
    rw [maps entry.1]
    have some_found : (unit.declared.find? fun d => d.decl.index == entry.1).isSome := by
      rw [find?_isSome]
      exact ⟨d, declared, by simp [key]⟩
    obtain ⟨other, found⟩ := isSome_iff_exists.mp some_found
    have otherDeclared := mem_of_find?_eq_some found
    have index : other.decl.index = entry.1 := by simpa using find?_some found
    have same : other.decl = d.decl := inj_on_of_nodup_map indices
      (mem_declared otherDeclared).1 (mem_declared declared).1 (index.trans key)
    have symbol : other.symbol = d.symbol :=
      some.inj (other.owned.symm.trans ((congrArg _ same).trans d.owned))
    rw [found, bind_some, symbol, placed]

/-- **Merging one more unit.** -/
theorem mergeUnit_merging {state state' : MergeState} (merging : Merging catalog units state)
    (formed : LinkSet (units ++ [unit])) (h : mergeUnit catalog state unit = .ok state') :
    Merging catalog (units ++ [unit]) state' := by
  simp only [mergeUnit, bind_eq_ok, pure_eq_ok] at h
  obtain ⟨table, registered, stmts, rewritten, _, -, installed, install, localBase, base, rfl⟩ := h
  have all : declarations (units ++ [unit]) = declarations units ++ unit.declared := by
    simp [declarations]
  have symbols := formed.symbols
  rw [all] at symbols
  have indices := formed.indices unit (by simp)
  obtain ⟨reg, maps, keeps⟩ :=
    registerUnitFunctions_registered merging.registered symbols indices registered
  obtain ⟨new, rfl, distinct, implImages⟩ := installImpls_images install merging.distinct
  obtain ⟨parts, stmtsEq, implsEq, images⟩ := merging.images
  refine ⟨by rwa [all], ?_, ⟨parts ++ [(stmts, new)], ?_, ?_, ?_⟩, ?_, distinct⟩
  · simp only [map_append, sum_append]
    rw [← merging.base]
    unfold nextLocalBase at base
    split at base
    · cases base
    · split at base
      · cases base
      · exact (pure_eq_ok.mp base).symm
  · simp [stmtsEq]
  · simp [implsEq]
  · rw [basedUnits_append]
    refine rel_append (images.imp ?_) (.cons ⟨state.remap table, ?_, ?_, ?_, ?_, ?_⟩ .nil)
    · rintro _ _ ⟨remap, image⟩
      exact ⟨remap, image.mono keeps⟩
    · exact merging.base.trans (Nat.zero_add _).symm
    · exact follows_of_mapsUnit reg maps
    · exact remapStmts_length rewritten
    · exact remapStmts_sites rewritten
    · exact implImages
  · intro flat
    have before : ∀ d ∈ declarations units, (table.flatIndexBySymbol d.symbol = some flat ↔
        state.table.flatIndexBySymbol d.symbol = some flat) := by
      intro d mem
      obtain ⟨earlier, later, split⟩ := append_of_mem mem
      obtain ⟨j, placed, -⟩ := merging.registered.placed _ _ _ split
      rw [keeps _ _ placed, placed]
    rw [map_append, mem_append, merging.keys, all, installed_keys indices maps rfl implImages]
    simp only [mem_append, or_and_right, exists_or]
    refine or_congr_left (exists_congr fun d => and_congr_right fun mem => ?_)
    rw [before d mem]

theorem mergeUnits_merging {merged : FrontendIr} (formed : LinkSet units)
    (h : mergeUnits catalog units = .ok merged) :
    ∃ state, Merging catalog units state ∧ merged.stmts = state.stmts ∧
      merged.functions = state.table.functions ∧ merged.functionImpls = state.functionImpls := by
  simp only [mergeUnits, bind_eq_ok, pure_eq_ok] at h
  obtain ⟨state, folded, rfl⟩ := h
  let Holds (consumed : List ParsedUnit) (now : MergeState) : Prop :=
    LinkSet consumed → Merging catalog consumed now
  have step : ∀ {consumed unit now next}, Holds consumed now →
      mergeUnit catalog now unit = .ok next → Holds (consumed ++ [unit]) next :=
    fun holds merged formed => mergeUnit_merging (holds formed.init) formed merged
  have holds : Holds ([] ++ units) state :=
    foldlM_invariant step (fun _ => merging_empty) folded
  exact ⟨state, holds formed, rfl, rfl, rfl⟩

/-! ## What the flat program denotes -/

theorem reserved_iff {index : UInt16} : fromCallIndex index = none ↔ index.toNat < 0xFF93 := by
  unfold fromCallIndex
  split
  · rename_i below
    exact ⟨fun _ => UInt16.lt_iff_toNat_lt.mp below, fun _ => rfl⟩
  · rename_i above
    exact ⟨nofun, fun below => absurd (UInt16.lt_iff_toNat_lt.mpr below) above⟩

section

variable {merged : FrontendIr} {state : MergeState}

/-- No function of the flat table stands at a reserved index exactly if there are few
enough of them. -/
theorem unreserved_iff (merging : Merging catalog units state)
    (functions : merged.functions = state.table.functions) :
    (∀ decl ∈ merged.functions, fromCallIndex decl.index = none) ↔ BelowBuiltins catalog units := by
  unfold BelowBuiltins
  rw [functions, ← merging.registered.count]
  have size := merging.registered.size
  have number : ∀ position, position < state.table.functions.length →
      (UInt16.ofNat position).toNat = position :=
    fun position inside => UInt16.toNat_ofNat_of_lt (lt_of_lt_of_le inside size)
  constructor
  · intro unreserved
    by_contra many
    have inside : 0xFF93 < state.table.functions.length := by omega
    have found := getElem?_eq_getElem inside
    have below := unreserved _ (mem_of_getElem? found)
    rw [reserved_iff, (merging.registered.entries _ _ found).1, number _ inside] at below
    omega
  · intro few decl mem
    obtain ⟨position, found⟩ := mem_iff_getElem?.mp mem
    have inside := (List.getElem?_eq_some_iff.mp found).1
    rw [reserved_iff, (merging.registered.entries _ _ found).1, number _ inside]
    omega

/-- What stands at the flat index of a declaration. -/
theorem foundAt_of_placed {ds : List Declared} (reg : Registered catalog ds table) {d : Declared}
    {flat : UInt16} (mem : d ∈ ds) (placed : table.flatIndexBySymbol d.symbol = some flat) :
    ∃ earlier, FoundAt catalog ds table.functions earlier d flat := by
  obtain ⟨earlier, later, split⟩ := append_of_mem mem
  obtain ⟨_, placed', stands⟩ := reg.placed _ _ _ split
  cases placed.symm.trans placed'
  exact ⟨earlier, stands⟩

/-- Rewriting keeps the slots of a unit in its range, up to the parameters it passes over. -/
theorem occupies_rewritten (base : remap.localBase = based.1) {sites sites' : List Site}
    (bounded : ∀ site ∈ sites, ∀ slot ∈ site.localSlot, slot < based.2.parsed.locals)
    (rewrites : remap.RewritesAll sites sites') : (∀ site ∈ sites', Occupies based site) ↔
      ∀ slot, Site.boundParameter slot ∈ sites → based.1 ≤ slot := by
  induction rewrites with
  | nil => simp
  | @cons site site' sites sites' atHead _ ih =>
    have rest := ih fun other mem => bounded other (mem_cons_of_mem _ mem)
    have here := bounded site mem_cons_self
    rw [forall_mem_cons, rest]
    cases atHead with
    | function | symbol => simp [Occupies, Site.localSlot]
    | @slot number =>
      have inRange : Occupies based (.slot (number + remap.localBase)) := by
        have bound : number < based.2.parsed.locals := here number rfl
        intro slot mem
        cases mem
        rw [base, Nat.add_comm _]
        exact ⟨Nat.le_add_right _ _, Nat.add_lt_add_left bound _⟩
      simp [inRange]
    | @boundParameter number =>
      have bound : number < based.2.parsed.locals := here number rfl
      have inRange : Occupies based (.boundParameter number) ↔ based.1 ≤ number := by
        constructor
        · exact fun occupies => (occupies number rfl).1
        · intro le slot mem
          cases mem
          exact ⟨le, lt_of_lt_of_le bound (Nat.le_add_left _ _)⟩
      rw [inRange]
      simp

section

variable (formed : LinkSet units) (merging : Merging catalog units state)
  (functions : merged.functions = state.table.functions)
  (impls : merged.functionImpls = state.functionImpls) (few : BelowBuiltins catalog units)

include formed merging functions impls few

/-- The flat index of a declaration denotes it. -/
theorem denotes_declared {d : Declared} {flat : UInt16} (mem : d ∈ declarations units)
    (placed : state.table.flatIndexBySymbol d.symbol = some flat) :
    merged.denotes (.function flat) = some (d.denotes catalog) := by
  have unreserved : ∀ entry, state.table.functions[flat.toNat]? = some entry →
      fromCallIndex flat = none := by
    intro entry found
    rw [reserved_iff]
    have inside := (List.getElem?_eq_some_iff.mp found).1
    rw [merging.registered.count] at inside
    exact lt_of_lt_of_le inside few
  have installed := merging.keys flat
  rw [← impls, ← get_isSome_iff] at installed
  obtain ⟨earlier, stands⟩ := foundAt_of_placed merging.registered mem placed
  unfold FoundAt at stands
  unfold FrontendIr.denotes Declared.denotes
  rw [functions]
  cases isImplemented : d.implemented with
  | true =>
    rw [if_pos isImplemented] at stands
    have has := installed.mpr ⟨d, mem, isImplemented, placed⟩
    simp only [unreserved _ stands, stands, has]
    rfl
  | false =>
    rw [if_neg (by simp [isImplemented])] at stands
    cases builtin : d.legacyBuiltin catalog with
    | some b =>
      rw [builtin] at stands
      have named : catalog.fromNamespacedName d.decl.name = some b := by
        unfold Declared.legacyBuiltin at builtin
        split at builtin
        · cases builtin
        · exact builtin
      simp only [stands, catalog.reserved _ _ named]
      rfl
    | none =>
      rw [builtin] at stands
      obtain ⟨entry, found, name, arity, source, sourceMem, isImport, owns⟩ := stands
      have missing : (merged.functionImpls.get flat).isSome = false := by
        rw [Bool.eq_false_iff, ne_eq, installed]
        rintro ⟨other, otherMem, otherImplemented, otherPlaced⟩
        obtain ⟨_, otherStands⟩ := foundAt_of_placed merging.registered otherMem otherPlaced
        rw [FoundAt, if_pos otherImplemented] at otherStands
        cases found.symm.trans otherStands
        have same : other = source := inj_on_of_nodup_map formed.symbols otherMem sourceMem
          (some.inj (other.owned.symm.trans owns))
        rw [same, isImport] at otherImplemented
        cases otherImplemented
      simp only [unreserved _ found, found, missing, map_some]
      rw [name, arity]
      rfl

/-- Rewriting a site keeps what it denotes. -/
theorem denotes_rewritten (unitMem : unit ∈ units) (follows : remap.Follows state.table unit)
    {site site' : Site} (rewrites : remap.Rewrites site site') :
    merged.denotes site' = unit.denotes catalog units site := by
  cases rewrites with
  | @function index flat found =>
    unfold Remap.function at found
    split at found
    · rename_i mapped isMapped
      cases pure_eq_ok.mp found
      obtain ⟨d, isDeclared, placed⟩ := follows.found _ _ isMapped
      have mem : d ∈ declarations units :=
        mem_flatMap.mpr ⟨unit, unitMem, mem_of_find?_eq_some isDeclared⟩
      rw [denotes_declared formed merging functions impls few mem placed]
      simp [ParsedUnit.denotes, isDeclared]
    · rename_i unmapped
      split at found
      · cases found
      · rename_i reserved
        cases pure_eq_ok.mp found
        cases isBuiltin : fromCallIndex index with
        | none => exact absurd (isNone_iff_eq_none.mpr isBuiltin) reserved
        | some builtin =>
          simp only [FrontendIr.denotes, ParsedUnit.denotes, follows.absent _ unmapped, isBuiltin]
          rfl
  | @symbol symbol flat found =>
    have placed := follows.symbols _ _ found
    obtain ⟨d, mem, rfl⟩ := merging.registered.known _ _ placed
    rw [denotes_declared formed merging functions impls few mem placed]
    simp [ParsedUnit.denotes, find?_of_nodup formed.symbols mem]
  | slot | boundParameter => rfl

/-- The image of a unit means what the unit means. -/
theorem Image.linked (unitMem : based.2 ∈ units)
    (inPlace : ∀ slot, Site.boundParameter slot ∈ based.2.sites → based.1 ≤ slot)
    (image : Image state.table based part remap) : UnitLinked catalog units merged based part := by
  have bounded := formed.slots _ unitMem
  have means (site site' : Site) (rewrites : remap.Rewrites site site') :=
    denotes_rewritten formed merging functions impls few unitMem image.follows rewrites
  refine ⟨image.length, map_eq_of_forall₂ (image.stmts.imp means), ?_, ?_⟩
  · rw [occupies_rewritten image.base
      (fun site mem => bounded site (mem_append_left _ mem)) image.stmts]
    exact fun slot mem => inPlace slot (mem_append_left _ mem)
  · refine Forall₂.imp ?_ ((forall₂_and_left _ _).mpr ⟨fun _ mem => mem, image.impls⟩)
    rintro entry installed ⟨mem, mapped, rewrites⟩
    have inUnit : ∀ site ∈ entry.2.sites, site ∈ based.2.sites := fun site siteMem =>
      mem_append_right _ (mem_flatMap.mpr ⟨entry, mem, siteMem⟩)
    refine ⟨means _ _ (rewrites_of_functionMap mapped), map_eq_of_forall₂ (rewrites.imp means), ?_⟩
    · rw [occupies_rewritten image.base
        (fun site siteMem => bounded site (inUnit site siteMem)) rewrites]
      exact fun slot siteMem => inPlace slot (inUnit _ siteMem)

end

/-- A unit whose image keeps to its range has its parameters in place. -/
theorem Image.inPlace (formed : LinkSet units) (unitMem : based.2 ∈ units)
    (image : Image table based part remap) (linked : UnitLinked catalog units merged based part) :
    ∀ slot, Site.boundParameter slot ∈ based.2.sites → based.1 ≤ slot := by
  have bounded := formed.slots _ unitMem
  intro slot mem
  rcases mem_append.mp mem with inStmts | inImpls
  · have range := linked.slots
    rw [occupies_rewritten image.base
      (fun site mem => bounded site (mem_append_left _ mem)) image.stmts] at range
    exact range slot inStmts
  · obtain ⟨entry, entryMem, siteMem⟩ := mem_flatMap.mp inImpls
    have inUnit : ∀ site ∈ entry.2.sites, site ∈ based.2.sites := fun site siteMem =>
      mem_append_right _ (mem_flatMap.mpr ⟨entry, entryMem, siteMem⟩)
    obtain ⟨i, inside, rfl⟩ := mem_iff_getElem.mp entryMem
    obtain ⟨sameLength, images⟩ := forall₂_iff_get.mp image.impls
    have inside' := sameLength ▸ inside
    have rewrites := (images i inside inside').2
    have range := ((forall₂_iff_get.mp linked.impls).2 i inside inside').2.2
    rw [occupies_rewritten image.base
      (fun site siteMem => bounded site (inUnit site siteMem)) rewrites] at range
    exact range slot siteMem

/-- The division of the flat program among the units is unique. -/
theorem parts_unique {parts parts' : List (List Stmt × FunctionImpls)}
    (stmts : (parts.map Prod.fst).flatten = (parts'.map Prod.fst).flatten)
    (impls : (parts.map Prod.snd).flatten = (parts'.map Prod.snd).flatten)
    (stmtLengths : (parts.map Prod.fst).map length = (parts'.map Prod.fst).map length)
    (implLengths : (parts.map Prod.snd).map length = (parts'.map Prod.snd).map length) :
    parts = parts' := by
  have first := eq_iff_flatten_eq.mpr ⟨stmts, stmtLengths⟩
  have second := eq_iff_flatten_eq.mpr ⟨impls, implLengths⟩
  rw [← zip_unzip parts, ← zip_unzip parts', unzip_fst, unzip_snd, first,
    second, unzip_fst, unzip_snd]

theorem parametersInPlace_of_preserves (formed : LinkSet units)
    (merging : Merging catalog units state) (stmts : merged.stmts = state.stmts)
    (impls : merged.functionImpls = state.functionImpls)
    (preserves : LinkPreserves catalog units merged) : ParametersInPlace units := by
  obtain ⟨parts, partStmts, partImpls, images⟩ := merging.images
  obtain ⟨parts', partStmts', partImpls', linked⟩ := preserves.parts
  have same : parts = parts' := by
    refine parts_unique ?_ ?_ ?_ ?_
    · rw [← partStmts, ← partStmts', stmts]
    · rw [← partImpls, ← partImpls', impls]
    · rw [List.map_map, List.map_map]
      exact (map_eq_of_forall₂ (images.imp fun _ _ ⟨_, image⟩ => image.length)).trans
        (map_eq_of_forall₂ (linked.imp fun _ _ unit => unit.length)).symm
    · rw [List.map_map, List.map_map]
      exact (map_eq_of_forall₂ (images.imp fun _ _ ⟨_, image⟩ => image.impls.length_eq.symm)).trans
        (map_eq_of_forall₂ (linked.imp fun _ _ unit => unit.impls.length_eq.symm)).symm
  subst same
  intro based mem
  obtain ⟨i, inside, rfl⟩ := mem_iff_getElem.mp mem
  obtain ⟨sameLength, imageAt⟩ := forall₂_iff_get.mp images
  have inside' := sameLength ▸ inside
  obtain ⟨remap, image⟩ := imageAt i inside inside'
  exact image.inPlace formed (mem_of_mem_basedUnits mem)
    ((forall₂_iff_get.mp linked).2 i inside inside')

end

/-- **Linking preserves what every call means.**  Every call, module call and function
value of the flat program denotes what it denoted in its own unit, every
implementation is installed under its own function, every unit has a range of slots
to itself and no function stands at a reserved index, exactly if the closures that
statements bind have their parameters in place and there are few enough functions. -/
theorem linking_preserves_calls_iff {units : List ParsedUnit} {merged : FrontendIr}
    (formed : LinkSet units) (accepted : mergeUnits catalog units = .ok merged) :
    LinkPreserves catalog units merged ↔ ParametersInPlace units ∧ BelowBuiltins catalog units := by
  obtain ⟨state, merging, stmts, functions, impls⟩ := mergeUnits_merging formed accepted
  constructor
  · exact fun preserves =>
      ⟨parametersInPlace_of_preserves formed merging stmts impls preserves,
        (unreserved_iff merging functions).mp preserves.unreserved⟩
  · rintro ⟨inPlace, few⟩
    obtain ⟨parts, partStmts, partImpls, images⟩ := merging.images
    refine ⟨⟨parts, stmts.trans partStmts, impls.trans partImpls, ?_⟩, ?_,
      (unreserved_iff merging functions).mpr few⟩
    · refine Forall₂.imp ?_ ((forall₂_and_left _ _).mpr ⟨fun _ mem => mem, images⟩)
      rintro based part ⟨mem, remap, image⟩
      exact image.linked formed merging functions impls few (mem_of_mem_basedUnits mem)
        (inPlace based mem)
    · rw [impls]
      exact merging.distinct

/-! ## Two units -/

/-- A catalog without legacy names. -/
def noLegacyNames : BuiltinCatalog := ⟨fun _ => none, nofun⟩

/-- `fn double(x) { x + x }`, at index 0 of its unit. -/
def doubleDecl (symbol : SymbolId) : FunctionDecl :=
  ⟨"double", 1, 0, ["x"], [none], none, [], true, .unknown, some symbol⟩

/-- A module with one function. -/
def doubleUnit : ParsedUnit where
  parsed := {
    stmts := [.funcDecl 0 true 1]
    locals := 1
    localBindings := []
    functions := [doubleDecl ⟨1, 0⟩]
    functionImpls := [(0, ⟨[0], [], [], .binary .add (.var 0) (.var 0)⟩)] }
  scopeIdentity := some "double_rss__m1"
  hostCatalogSupplied := false

/-- The root unit with the given statements and one local. -/
def rootUnit (stmts : List Stmt) : ParsedUnit where
  parsed :=
    { stmts, locals := 1, localBindings := [("y", 0)], functions := [], functionImpls := [] }
  scopeIdentity := none
  hostCatalogSupplied := false

/-- `let y = double(2);` -/
def callingUnit : ParsedUnit := rootUnit [.let 0 (.moduleCall ⟨1, 0⟩ [.int 2]) 1]

/-- A closure with a parameter in slot 0, bound by a statement. -/
def bindingUnit : ParsedUnit := rootUnit [.closureLet ⟨[0], []⟩ (.var 0) 1]

theorem callingUnit_links : ∃ merged, LinkSet [doubleUnit, callingUnit] ∧
    mergeUnits noLegacyNames [doubleUnit, callingUnit] = .ok merged ∧
    LinkPreserves noLegacyNames [doubleUnit, callingUnit] merged := by
  have formed : LinkSet [doubleUnit, callingUnit] := ⟨by decide, by decide, by decide⟩
  have inPlace : ParametersInPlace [doubleUnit, callingUnit] := by
    intro based mem slot site
    simp only [basedUnits, mem_cons, not_mem_nil, or_false] at mem
    rcases mem with rfl | rfl
    · exact Nat.zero_le _
    · rcases site with _ | ⟨_, _ | ⟨_, ⟨⟩⟩⟩
  have few : BelowBuiltins noLegacyNames [doubleUnit, callingUnit] := by
    unfold BelowBuiltins
    decide
  exact ⟨_, formed, rfl, (linking_preserves_calls_iff formed rfl).mpr ⟨inPlace, few⟩⟩

/-- **A parameter outside of its unit.**  The second unit's range of slots is `[1, 2)`,
but the parameter of the closure it binds stays in slot 0, which belongs to the
first unit. -/
theorem bound_parameter_overlaps : ∃ merged, LinkSet [doubleUnit, bindingUnit] ∧
    mergeUnits noLegacyNames [doubleUnit, bindingUnit] = .ok merged ∧
    ¬ LinkPreserves noLegacyNames [doubleUnit, bindingUnit] merged := by
  have formed : LinkSet [doubleUnit, bindingUnit] := ⟨by decide, by decide, by decide⟩
  obtain ⟨merged, accepted⟩ : ∃ merged,
      mergeUnits noLegacyNames [doubleUnit, bindingUnit] = .ok merged := ⟨_, rfl⟩
  refine ⟨merged, formed, accepted, fun preserves => ?_⟩
  obtain ⟨state, merging, stmts, -, impls⟩ := mergeUnits_merging formed accepted
  have inPlace := parametersInPlace_of_preserves formed merging stmts impls preserves
  have above : 1 ≤ 0 := inPlace (1, bindingUnit) (by simp [basedUnits, doubleUnit]) 0 (by decide)
  exact absurd above (by decide)

end RustScript.Compiler
