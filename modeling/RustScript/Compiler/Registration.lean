import RustScript.Compiler.Linker
import RustScript.Lib.Fallible

/-!
# The flat function table

What registration makes of the declarations of a compilation, in the order in
which the units declare them.  `Registered` ties a flat table to the declarations
it was built from: every declaration stands at a flat index (`FoundAt`), every
entry belongs to a declaration, and the entries are counted.  Registering one more
declaration keeps this (`registerFunction_registered`), and so does registering a
whole unit (`registerUnitFunctions_registered`).

Symbols are taken to be distinct, since the loader gives each declaration of a
module a symbol of its own.
-/

namespace RustScript.Compiler

open Fallible FlatTable List FunctionDecl Option ParsedUnit

/-! ## Declarations -/

/-- A declaration that owns a symbol, with what its unit says about it. -/
structure Declared where
  decl : FunctionDecl
  symbol : SymbolId
  owned : decl.symbol = some symbol
  implemented : Bool
  hostCatalogSupplied : Bool

namespace Declared

variable (catalog : BuiltinCatalog)

/-- The builtin that a declaration without an implementation names. -/
def legacyBuiltin (d : Declared) : Option BuiltinFunction :=
  if d.implemented || d.hostCatalogSupplied then none else catalog.fromNamespacedName d.decl.name

/-- The declaration takes a name of the flat table. -/
def Flat (d : Declared) : Prop := d.legacyBuiltin catalog = none

instance (d : Declared) : Decidable (d.Flat catalog) :=
  decidable_of_iff ((d.legacyBuiltin catalog).isNone = true) Option.isNone_iff_eq_none

/-- The declaration is a host import. -/
def imported (d : Declared) : Bool := !d.implemented && (d.legacyBuiltin catalog).isNone

def hostKey (d : Declared) : String × UInt8 := (d.decl.name, d.decl.arity)

/-- An earlier entry of the flat table has claimed the name of the declaration. -/
def Shadowed (earlier : List Declared) (d : Declared) : Prop :=
  ∃ other ∈ earlier, other.Flat catalog ∧ other.decl.name = d.decl.name

instance (earlier : List Declared) (d : Declared) : Decidable (d.Shadowed catalog earlier) :=
  inferInstanceAs (Decidable (∃ other ∈ earlier, _))

/-- The name of a function in the flat table, after the declarations before it. -/
def flatName (earlier : List Declared) (d : Declared) : String :=
  if d.Shadowed catalog earlier then deterministicFlatName d.decl.name d.symbol else d.decl.name

end Declared

/-- The declaration `func` of `unit`, if it owns a symbol. -/
def ParsedUnit.declare (unit : ParsedUnit) (func : FunctionDecl) : Option Declared :=
  match h : func.symbol with
  | none => none
  | some symbol => some ⟨func, symbol, h, unit.hasImpl func.index, unit.hostCatalogSupplied⟩

def ParsedUnit.declared (unit : ParsedUnit) : List Declared :=
  unit.parsed.functions.filterMap unit.declare

/-- The names and arities of the host imports. -/
def hostKeysOf (catalog : BuiltinCatalog) (ds : List Declared) : Finset (String × UInt8) :=
  ((ds.filter (Declared.imported catalog)).map Declared.hostKey).toFinset

theorem hostKeysOf_append (catalog : BuiltinCatalog) (ds : List Declared) (d : Declared) :
    hostKeysOf catalog (ds ++ [d]) =
      if d.imported catalog then insert d.hostKey (hostKeysOf catalog ds)
      else hostKeysOf catalog ds := by
  unfold hostKeysOf
  rw [filter_append, map_append, toFinset_append]
  by_cases isImport : d.imported catalog = true
  · rw [if_pos isImport, filter_cons_of_pos isImport, Finset.insert_eq, Finset.union_comm]
    rfl
  · rw [if_neg isImport, filter_cons_of_neg isImport]
    exact Finset.union_empty _

/-- The number of entries that the declarations take: one for each function with an
implementation, and one for each name and arity of a host import. -/
def flatCount (catalog : BuiltinCatalog) (ds : List Declared) : Nat :=
  (ds.filter Declared.implemented).length + (hostKeysOf catalog ds).card

/-! ## Tables that stand for declarations -/

/-- The entry at `flat` is the host import of the given name and arity. -/
def HostEntry (ds : List Declared) (functions : List FunctionDecl) (key : String × UInt8)
    (flat : UInt16) : Prop :=
  ∃ entry, functions[flat.toNat]? = some entry ∧ entry.name = key.1 ∧ entry.arity = key.2 ∧
    ∃ source ∈ ds, source.implemented = false ∧ entry.symbol = some source.symbol

/-- What a declaration finds at its flat index. -/
def FoundAt (catalog : BuiltinCatalog) (ds : List Declared) (functions : List FunctionDecl)
    (earlier : List Declared) (d : Declared) (flat : UInt16) : Prop :=
  if d.implemented then
    functions[flat.toNat]? = some { d.decl with name := d.flatName catalog earlier, index := flat }
  else match d.legacyBuiltin catalog with
    | some builtin => flat = builtin.callIndex
    | none => HostEntry ds functions d.hostKey flat

/-- The table is what the declarations `ds`, in this order, make of the empty table. -/
structure Registered (catalog : BuiltinCatalog) (ds : List Declared) (table : FlatTable) :
    Prop where
  size : table.functions.length ≤ UInt16.size
  known : ∀ symbol flat, table.flatIndexBySymbol symbol = some flat → ∃ d ∈ ds, d.symbol = symbol
  placed : ∀ earlier d later, ds = earlier ++ d :: later →
    ∃ flat, table.flatIndexBySymbol d.symbol = some flat ∧
      FoundAt catalog ds table.functions earlier d flat
  entries : ∀ position entry, table.functions[position]? = some entry →
    entry.index = UInt16.ofNat position ∧ ∃ d ∈ ds, d.Flat catalog ∧ entry.symbol = some d.symbol ∧
      table.flatIndexBySymbol d.symbol = some (UInt16.ofNat position)
  hosts : ∀ key flat, table.hostIndexByArity key = some flat → HostEntry ds table.functions key flat
  hostKeys : ∀ key, (table.hostIndexByArity key).isSome ↔ key ∈ hostKeysOf catalog ds
  claimed : ∀ name, name ∈ table.claimedFlatNames ↔ ∃ d ∈ ds, d.Flat catalog ∧ d.decl.name = name
  count : table.functions.length = flatCount catalog ds

variable {catalog : BuiltinCatalog}

theorem registered_empty : Registered catalog [] .empty where
  size := Nat.zero_le _
  known := nofun
  placed := by
    intro earlier d later h
    exact absurd h.symm (by simp)
  entries := nofun
  hosts := nofun
  hostKeys := by simp [empty, hostKeysOf]
  claimed := by simp [empty]
  count := rfl

/-! ## Growing a table by one declaration -/

/-- Later tables keep the identity of an entry, and all of it when it is a function of a
module. -/
def Grows (ds : List Declared) (functions functions' : List FunctionDecl) : Prop :=
  ∀ (position : Nat) entry, functions[position]? = some entry →
    ∃ entry', functions'[position]? = some entry' ∧ entry'.name = entry.name ∧
      entry'.arity = entry.arity ∧ entry'.symbol = entry.symbol ∧
      ∀ source ∈ ds, source.implemented = true → entry.symbol = some source.symbol → entry' = entry

variable {ds : List Declared} {functions' functions : List FunctionDecl} {position : Nat}

theorem grows_append {more : List FunctionDecl} : Grows ds functions (functions ++ more) := by
  intro position entry h
  have inside := (List.getElem?_eq_some_iff.mp h).1
  exact ⟨entry, (getElem?_append_left inside).trans h, rfl, rfl, rfl, fun _ _ _ _ => rfl⟩

variable {flat : UInt16} {d : Declared} {table : FlatTable} {unit : ParsedUnit}
  {func : FunctionDecl}

theorem HostEntry.grow {key : String × UInt8} (d : Declared)
    (grows : Grows ds functions functions') (h : HostEntry ds functions key flat) :
    HostEntry (ds ++ [d]) functions' key flat := by
  obtain ⟨entry, found, name, arity, source, mem, isImport, symbol⟩ := h
  obtain ⟨entry', found', name', arity', symbol', -⟩ := grows _ _ found
  exact ⟨entry', found', name'.trans name, arity'.trans arity, source,
    mem_append_left _ mem, isImport, symbol'.trans symbol⟩

theorem FoundAt.grow {earlier : List Declared} (new : Declared)
    (mem : d ∈ ds) (grows : Grows ds functions functions')
    (h : FoundAt catalog ds functions earlier d flat) :
    FoundAt catalog (ds ++ [new]) functions' earlier d flat := by
  unfold FoundAt at h ⊢
  split at h
  · rename_i isImplemented
    obtain ⟨entry', found', -, -, -, kept⟩ := grows _ _ h
    rw [if_pos isImplemented, found', kept d mem isImplemented d.owned]
  · rename_i notImplemented
    rw [if_neg notImplemented]
    split at h
    · exact h
    · exact h.grow new grows

theorem split_append_singleton {α : Type} {xs pre post : List α} {new x : α}
    (h : xs ++ [new] = pre ++ x :: post) :
    (pre = xs ∧ x = new) ∨ ∃ post', xs = pre ++ x :: post' := by
  rcases append_eq_append_iff.mp h with ⟨rest, rfl, eq⟩ | ⟨rest, rfl, eq⟩
  · cases rest <;> simp_all
  · cases rest <;> simp_all

/-- How many entries a declaration adds. -/
def Declared.adds (catalog : BuiltinCatalog) (table : FlatTable) (d : Declared) : Nat :=
  if d.implemented then 1
  else if d.imported catalog && (table.hostIndexByArity d.hostKey).isNone then 1 else 0

theorem flatCount_append
    (hostKeys : ∀ key, (table.hostIndexByArity key).isSome ↔ key ∈ hostKeysOf catalog ds)
    (d : Declared) :
    flatCount catalog (ds ++ [d]) = flatCount catalog ds + d.adds catalog table := by
  unfold flatCount Declared.adds
  rw [hostKeysOf_append, filter_append, length_append]
  cases isImplemented : d.implemented with
  | true =>
    have notImport : d.imported catalog = false := by simp [Declared.imported, isImplemented]
    rw [filter_cons_of_pos isImplemented, notImport]
    simp only [filter_nil, length_singleton, Bool.false_eq_true, if_false, if_true]
    omega
  | false =>
    simp only [filter_singleton, isImplemented]
    cases isImport : d.imported catalog with
    | false => simp
    | true =>
      by_cases known : d.hostKey ∈ hostKeysOf catalog ds
      · have here := (hostKeys _).mpr known
        rw [if_pos rfl, Finset.insert_eq_of_mem known, isNone_eq_false_iff.mpr here]
        simp
      · have absent : (table.hostIndexByArity d.hostKey).isNone = true := by
          rw [← not_isSome, Bool.not_eq_true', ← Bool.not_eq_true]
          exact fun here => known ((hostKeys _).mp here)
        rw [if_pos rfl, Finset.card_insert_of_notMem known, absent]
        simp
        omega

variable {table' : FlatTable}

/-- **A table that stands for `ds` and grows by the entry of `d` stands for both.** -/
theorem Registered.extend (reg : Registered catalog ds table)
    (fresh : ∀ other ∈ ds, other.symbol ≠ d.symbol)
    (symbols : table'.flatIndexBySymbol =
        Function.update table.flatIndexBySymbol d.symbol (some flat))
    (size : table'.functions.length ≤ UInt16.size)
    (grows : Grows ds table.functions table'.functions)
    (stands : FoundAt catalog (ds ++ [d]) table'.functions ds d flat)
    (backed : ∀ position entry', table'.functions[position]? = some entry' →
        (∃ entry, table.functions[position]? = some entry ∧ entry'.index = entry.index ∧
        entry'.symbol = entry.symbol) ∨
        (UInt16.ofNat position = flat ∧ entry'.index = flat ∧ entry'.symbol = some d.symbol ∧
        d.Flat catalog))
    (hosts : ∀ key j, table'.hostIndexByArity key = some j →
        table.hostIndexByArity key = some j ∨ HostEntry (ds ++ [d]) table'.functions key j)
    (hostKeys : ∀ key, (table'.hostIndexByArity key).isSome ↔
        (table.hostIndexByArity key).isSome ∨ (d.imported catalog = true ∧ key = d.hostKey))
    (claimed : ∀ name, name ∈ table'.claimedFlatNames ↔
        name ∈ table.claimedFlatNames ∨ (d.Flat catalog ∧ d.decl.name = name))
    (count : table'.functions.length = table.functions.length + d.adds catalog table) :
    Registered catalog (ds ++ [d]) table' := by
  have other_symbol : ∀ other ∈ ds, table'.flatIndexBySymbol other.symbol =
      table.flatIndexBySymbol other.symbol := by
    intro other mem
    rw [symbols, Function.update_of_ne (fresh other mem)]
  refine ⟨size, ?_, ?_, ?_, ?_, ?_, ?_, ?_⟩
  · intro symbol j found
    by_cases same : symbol = d.symbol
    · exact ⟨d, by simp, same.symm⟩
    · rw [symbols, Function.update_of_ne same] at found
      obtain ⟨other, mem, owns⟩ := reg.known _ _ found
      exact ⟨other, mem_append_left _ mem, owns⟩
  · intro earlier other later split
    rcases split_append_singleton split with ⟨rfl, rfl⟩ | ⟨later', split'⟩
    · exact ⟨flat, by rw [symbols, Function.update_self], stands⟩
    · have mem : other ∈ ds := by simp [split']
      obtain ⟨j, found, at_j⟩ := reg.placed _ _ _ split'
      exact ⟨j, (other_symbol other mem).trans found, at_j.grow d mem grows⟩
  · intro position entry' found
    rcases backed _ _ found with ⟨entry, before, index, symbol⟩ | ⟨here, index, symbol, isFlat⟩
    · obtain ⟨index', other, mem, isFlat, owns, at_position⟩ := reg.entries _ _ before
      exact ⟨index.trans index', other, mem_append_left _ mem, isFlat, symbol.trans owns,
        (other_symbol other mem).trans at_position⟩
    · exact ⟨index.trans here.symm, d, by simp, isFlat, symbol, by
        rw [symbols, Function.update_self, here]⟩
  · intro key j found
    rcases hosts key j found with before | here
    · exact (reg.hosts _ _ before).grow d grows
    · exact here
  · intro key
    rw [hostKeys, reg.hostKeys, hostKeysOf_append]
    by_cases isImport : d.imported catalog = true <;> simp [isImport, or_comm]
  · intro name
    rw [claimed, reg.claimed]
    simp
  · rw [count, reg.count, flatCount_append reg.hostKeys]

/-! ## Registering one declaration -/

/-- The flat index of `d` is entered in both maps. -/
def Enters (table table' : FlatTable) (d : Declared) : Prop :=
  ∃ flat, table'.flatIndexBySymbol = Function.update table.flatIndexBySymbol d.symbol (some flat) ∧
    table'.functionMap = Function.update table.functionMap d.decl.index (some flat)

theorem nextFlatIndex_ok (h : nextFlatIndex functions = .ok flat) :
    functions.length < UInt16.size ∧ flat = UInt16.ofNat functions.length ∧
      flat.toNat = functions.length := by
  unfold nextFlatIndex at h
  split at h
  · rename_i fits
    cases pure_eq_ok.mp h
    exact ⟨fits, rfl, UInt16.toNat_ofNat_of_lt fits⟩
  · cases h

theorem mem_claim {name other : String} : other ∈ (table.claim name).claimedFlatNames ↔
      other ∈ table.claimedFlatNames ∨ name = other := by
  unfold claim
  split
  · rename_i known
    exact ⟨.inl, fun h => h.elim id fun same => same ▸ known⟩
  · simp [eq_comm]

variable {entry : FunctionDecl}

/-- An entry of the table that is extended by one is an old entry or the new one. -/
theorem backed_append {new : FunctionDecl} (h : (functions ++ [new])[position]? = some entry) :
    functions[position]? = some entry ∨ (position = functions.length ∧ entry = new) := by
  by_cases inside : position < functions.length
  · exact .inl ((getElem?_append_left inside).symm.trans h)
  · rw [getElem?_append_right (by omega), getElem?_singleton] at h
    split at h
    · cases h
      exact .inr ⟨by omega, rfl⟩
    · cases h

theorem registerModuleFunction_registered (reg : Registered catalog ds table)
    (fresh : ∀ other ∈ ds, other.symbol ≠ d.symbol) (isImplemented : d.implemented = true)
    (h : registerModuleFunction table d.decl d.symbol = .ok table') :
    Registered catalog (ds ++ [d]) table' ∧ Enters table table' d := by
  obtain ⟨flat, next, done⟩ := bind_eq_ok.mp h
  obtain ⟨fits, atEnd, number⟩ := nextFlatIndex_ok next
  have isFlat : d.Flat catalog := by simp [Declared.Flat, Declared.legacyBuiltin, isImplemented]
  have name : (if d.decl.name ∈ table.claimedFlatNames then
      deterministicFlatName d.decl.name d.symbol else d.decl.name) = d.flatName catalog ds := by
    exact if_congr (reg.claimed _) rfl rfl
  simp only [name] at done
  cases pure_eq_ok.mp done
  refine ⟨reg.extend fresh rfl ?_ grows_append ?_ ?_ ?_ ?_ ?_ ?_, flat, rfl, rfl⟩
  · exact length_append.trans_le fits
  · unfold FoundAt
    rw [if_pos isImplemented]
    show (table.functions ++ [_])[flat.toNat]? = _
    rw [number, getElem?_concat_length]
  · intro position entry found
    rcases backed_append found with before | ⟨rfl, rfl⟩
    · exact .inl ⟨entry, before, rfl, rfl⟩
    · exact .inr ⟨atEnd.symm, rfl, d.owned, isFlat⟩
  · exact fun _ _ => .inl
  · intro key
    have notImport : ¬ d.imported catalog = true := by simp [Declared.imported, isImplemented]
    exact ⟨.inl, fun known => known.resolve_right fun new => notImport new.1⟩
  · exact fun _ => mem_claim.trans (or_congr_right (and_iff_right isFlat).symm)
  · simp [Declared.adds, isImplemented, place, claim, push]

variable {merged : FunctionDecl}

theorem mergeHostImportMetadata_keeps {existing : FunctionDecl}
    (h : mergeHostImportMetadata existing func = .ok merged) :
    merged.name = existing.name ∧ merged.arity = existing.arity ∧
      merged.index = existing.index ∧ merged.symbol = existing.symbol := by
  simp only [mergeHostImportMetadata, bind_eq_ok, pure_eq_ok] at h
  obtain ⟨_, -, _, -, _, -, _, -, rfl⟩ := h
  exact ⟨rfl, rfl, rfl, rfl⟩

/-- Refining a host entry leaves the functions of modules alone. -/
theorem grows_set (found : functions[position]? = some entry)
    (imported : ∀ source ∈ ds, source.implemented = true → entry.symbol ≠ some source.symbol)
    (name : merged.name = entry.name) (arity : merged.arity = entry.arity)
    (symbol : merged.symbol = entry.symbol) :
    Grows ds functions (functions.set position merged) := by
  intro other old atOther
  have inside := (List.getElem?_eq_some_iff.mp found).1
  by_cases same : position = other
  · subst same
    cases found.symm.trans atOther
    exact ⟨merged, getElem?_set_self inside, name, arity, symbol,
      fun source mem isImplemented owns => absurd owns (imported source mem isImplemented)⟩
  · exact ⟨old, (getElem?_set_ne same).trans atOther, rfl, rfl, rfl, fun _ _ _ _ => rfl⟩

section

variable (reg : Registered catalog ds table) (fresh : ∀ other ∈ ds, other.symbol ≠ d.symbol)

include reg fresh

/-- A legacy builtin name adds nothing to the table. -/
theorem registered_builtin {builtin : BuiltinFunction} (notImplemented : d.implemented = false)
    (isBuiltin : d.legacyBuiltin catalog = some builtin) :
    Registered catalog (ds ++ [d]) (table.place d.decl d.symbol builtin.callIndex) := by
  have notFlat : ¬ d.Flat catalog := by simp [Declared.Flat, isBuiltin]
  have notImport : ¬ d.imported catalog = true := by simp [Declared.imported, isBuiltin]
  refine reg.extend fresh rfl reg.size
    (fun _ entry h => ⟨entry, h, rfl, rfl, rfl, fun _ _ _ _ => rfl⟩) ?_ ?_ ?_ ?_ ?_ ?_
  · simp [FoundAt, notImplemented, isBuiltin]
  · exact fun _ entry found => .inl ⟨entry, found, rfl, rfl⟩
  · exact fun _ _ => .inl
  · exact fun _ => ⟨.inl, fun known => known.resolve_right fun new => notImport new.1⟩
  · exact fun _ => ⟨.inl, fun known => known.resolve_right fun new => notFlat new.1⟩
  · simp [Declared.adds, notImplemented, notImport, place]

/-- A host import that is there already refines its entry. -/
theorem registered_again (distinct : (ds.map Declared.symbol).Nodup)
    (notImplemented : d.implemented = false) (isFlat : d.Flat catalog)
    (known : table.hostIndexByArity d.hostKey = some flat)
    (found : table.functions[flat.toNat]? = some entry)
    (refined : mergeHostImportMetadata entry d.decl = .ok merged) : Registered catalog (ds ++ [d])
      ({ table with functions := table.functions.set flat.toNat merged }.place
        d.decl d.symbol flat) := by
  obtain ⟨name, arity, index, symbol⟩ := mergeHostImportMetadata_keeps refined
  obtain ⟨_, sameEntry, entryName, entryArity, source, mem, isImport, owns⟩ := reg.hosts _ _ known
  cases found.symm.trans sameEntry
  have imported : ∀ other ∈ ds, other.implemented = true → entry.symbol ≠ some other.symbol := by
    intro other otherMem isImplemented same
    have one : other = source :=
      List.inj_on_of_nodup_map distinct otherMem mem (Option.some.inj (same.symm.trans owns))
    rw [one, isImport] at isImplemented
    cases isImplemented
  have grows := grows_set found imported name arity symbol
  have inside := (List.getElem?_eq_some_iff.mp found).1
  refine reg.extend fresh rfl ?_ grows ?_ ?_ ?_ ?_ ?_ ?_
  · exact (List.length_set).trans_le reg.size
  · have builtin : d.legacyBuiltin catalog = none := isFlat
    simp only [FoundAt, notImplemented, builtin]
    exact (reg.hosts _ _ known).grow d grows
  · intro position entry' atPosition
    by_cases same : flat.toNat = position
    · subst same
      cases (List.getElem?_set_self inside).symm.trans atPosition
      exact .inl ⟨entry, found, index, symbol⟩
    · exact .inl ⟨entry', (List.getElem?_set_ne same).symm.trans atPosition, rfl, rfl⟩
  · exact fun _ _ => .inl
  · intro key
    refine ⟨.inl, fun there => there.elim id ?_⟩
    rintro ⟨-, rfl⟩
    exact Option.isSome_iff_exists.mpr ⟨flat, known⟩
  · intro other
    refine ⟨.inl, fun there => there.elim id ?_⟩
    rintro ⟨-, rfl⟩
    have sourceFlat := reg.hostKeys d.hostKey
    rw [known] at sourceFlat
    have inKeys := sourceFlat.mp rfl
    simp only [hostKeysOf, List.mem_toFinset, List.mem_map, List.mem_filter] at inKeys
    obtain ⟨first, ⟨firstMem, firstImport⟩, sameKey⟩ := inKeys
    refine (reg.claimed _).mpr ⟨first, firstMem, ?_, congrArg Prod.fst sameKey⟩
    simpa [Declared.Flat] using (Bool.and_eq_true_iff.mp firstImport).2
  · simp [Declared.adds, notImplemented, known, FlatTable.place]

/-- A new host import gets an entry of its own. -/
theorem registered_import (notImplemented : d.implemented = false)
    (isFlat : d.Flat catalog) (unknown : table.hostIndexByArity d.hostKey = none)
    (next : nextFlatIndex table.functions = .ok flat) :
    Registered catalog (ds ++ [d])
      ({ (table.push d.decl d.decl.name flat).claim d.decl.name with
          hostIndexByArity :=
            Function.update table.hostIndexByArity d.hostKey (some flat) }.place
        d.decl d.symbol flat) := by
  obtain ⟨fits, atEnd, number⟩ := nextFlatIndex_ok next
  have builtin : d.legacyBuiltin catalog = none := isFlat
  have isImport : d.imported catalog = true := by simp [Declared.imported, notImplemented, builtin]
  have here : HostEntry (ds ++ [d])
      (table.functions ++ [{ d.decl with name := d.decl.name, index := flat }]) d.hostKey flat := by
    refine ⟨{ d.decl with index := flat }, ?_, rfl, rfl, d, by simp, notImplemented, d.owned⟩
    rw [number]
    exact getElem?_concat_length
  refine reg.extend fresh rfl ?_ grows_append ?_ ?_ ?_ ?_ ?_ ?_
  · exact length_append.trans_le fits
  · simp only [FoundAt, notImplemented, builtin]
    exact here
  · intro position entry found
    rcases backed_append found with before | ⟨rfl, rfl⟩
    · exact .inl ⟨entry, before, rfl, rfl⟩
    · exact .inr ⟨atEnd.symm, rfl, d.owned, isFlat⟩
  · intro key j found
    by_cases same : key = d.hostKey
    · subst same
      have atFlat : Function.update table.hostIndexByArity d.hostKey (some flat) d.hostKey =
          some flat := Function.update_self ..
      cases atFlat.symm.trans found
      exact .inr here
    · exact .inl ((Function.update_of_ne same ..).symm.trans found)
  · intro key
    by_cases same : key = d.hostKey
    · subst same
      simp [place, isImport]
    · simp [place, same]
  · exact fun _ => mem_claim.trans (or_congr_right (and_iff_right isFlat).symm)
  · simp [Declared.adds, isImport, unknown, place, claim, push]

theorem registerImport_registered (distinct : (ds.map Declared.symbol).Nodup)
    (notImplemented : d.implemented = false)
    (supplied : d.hostCatalogSupplied = unit.hostCatalogSupplied)
    (h : registerImport catalog unit table d.decl d.symbol = .ok table') :
    Registered catalog (ds ++ [d]) table' ∧ Enters table table' d := by
  have legacy : (if unit.hostCatalogSupplied then none
      else catalog.fromNamespacedName d.decl.name) = d.legacyBuiltin catalog := by
    simp [Declared.legacyBuiltin, notImplemented, supplied]
  simp only [registerImport, legacy] at h
  split at h
  · rename_i builtin isBuiltin
    cases pure_eq_ok.mp h
    exact ⟨registered_builtin reg fresh notImplemented isBuiltin, _, rfl, rfl⟩
  · rename_i isFlat
    split at h
    · rename_i flat known
      split at h
      · rename_i entry found
        obtain ⟨merged, refined, done⟩ := bind_eq_ok.mp h
        cases pure_eq_ok.mp done
        exact ⟨registered_again reg fresh distinct notImplemented isFlat known found refined,
          _, rfl, rfl⟩
      · cases h
    · rename_i unknown
      obtain ⟨flat, next, done⟩ := bind_eq_ok.mp h
      cases pure_eq_ok.mp done
      exact ⟨registered_import reg fresh notImplemented isFlat unknown next, _, rfl, rfl⟩

end

theorem declare_eq_some (h : unit.declare func = some d) :
    d.decl = func ∧ func.symbol = some d.symbol ∧ d.implemented = unit.hasImpl func.index ∧
      d.hostCatalogSupplied = unit.hostCatalogSupplied := by
  unfold declare at h
  split at h <;> cases h
  exact ⟨rfl, ‹_›, rfl, rfl⟩

/-- **Registering a declaration with a new symbol.** -/
theorem registerFunction_registered (declared : unit.declare func = some d)
    (reg : Registered catalog ds table) (distinct : ((ds ++ [d]).map Declared.symbol).Nodup)
    (h : registerFunction catalog unit table func = .ok table') :
    Registered catalog (ds ++ [d]) table' ∧ Enters table table' d ∧ d.decl = func := by
  obtain ⟨rfl, owned, implemented, supplied⟩ := declare_eq_some declared
  rw [map_append, nodup_append] at distinct
  have fresh : ∀ other ∈ ds, other.symbol ≠ d.symbol := fun other mem =>
    distinct.2.2 _ (mem_map_of_mem mem) _ (by simp)
  have unknown : table.flatIndexBySymbol d.symbol = none := by
    cases known : table.flatIndexBySymbol d.symbol with
    | none => rfl
    | some flat =>
      obtain ⟨other, mem, same⟩ := reg.known _ _ known
      exact absurd same (fresh other mem)
  simp only [registerFunction, owned, unknown, ← implemented] at h
  refine and_assoc.mp ⟨?_, rfl⟩
  split at h
  · rename_i isImplemented
    exact registerModuleFunction_registered reg fresh isImplemented h
  · rename_i notImplemented
    exact registerImport_registered reg fresh distinct.1 (Bool.not_eq_true _ ▸ notImplemented)
      supplied h

theorem registerFunction_skips (skipped : unit.declare func = none)
    (h : registerFunction catalog unit table func = .ok table') : table' = table := by
  unfold declare at skipped
  split at skipped
  · rename_i none
    simp only [registerFunction, none] at h
    exact (pure_eq_ok.mp h).symm
  · cases skipped

/-! ## Registering a unit -/

/-- The flat index of each declaration of the unit, by its index in the unit. -/
def MapsUnit (declared : List Declared) (table : FlatTable) : Prop :=
  ∀ index, table.functionMap index =
    (declared.find? fun d => d.decl.index == index).bind fun d => table.flatIndexBySymbol d.symbol

/-- Symbols that are placed stay where they are. -/
def KeepsSymbols (table table' : FlatTable) : Prop :=
  ∀ symbol flat, table.flatIndexBySymbol symbol = some flat →
    table'.flatIndexBySymbol symbol = some flat

theorem KeepsSymbols.trans {first second third : FlatTable} (h : KeepsSymbols first second)
    (h' : KeepsSymbols second third) : KeepsSymbols first third :=
  fun symbol flat found => h' _ _ (h symbol flat found)

theorem Enters.keepsSymbols (reg : Registered catalog ds table)
    (fresh : ∀ other ∈ ds, other.symbol ≠ d.symbol) (h : Enters table table' d) :
    KeepsSymbols table table' := by
  obtain ⟨flat, symbols, -⟩ := h
  intro symbol j found
  obtain ⟨other, mem, rfl⟩ := reg.known _ _ found
  rw [symbols, Function.update_of_ne (fresh other mem), found]

theorem Enters.mapsUnit {declared : List Declared} (maps : MapsUnit declared table)
    (fresh : ∀ other ∈ declared, other.symbol ≠ d.symbol)
    (own : ∀ other ∈ declared, other.decl.index ≠ d.decl.index) (h : Enters table table' d) :
    MapsUnit (declared ++ [d]) table' := by
  obtain ⟨flat, symbols, functions⟩ := h
  intro index
  rw [functions, symbols, find?_append]
  by_cases same : index = d.decl.index
  · subst same
    have absent : declared.find? (fun other => other.decl.index == d.decl.index) = none :=
      find?_eq_none.mpr fun other mem => by simpa using own other mem
    rw [Function.update_self, absent]
    simp
  · rw [Function.update_of_ne same, maps index]
    have notNew : (d.decl.index == index) = false := by simpa using Ne.symm same
    cases found : declared.find? (fun other => other.decl.index == index) with
    | none => simp [notNew]
    | some other =>
      have mem := mem_of_find?_eq_some found
      simp [Function.update_of_ne (fresh other mem)]

theorem mem_declared (h : d ∈ unit.declared) :
    d.decl ∈ unit.parsed.functions ∧ d.implemented = unit.hasImpl d.decl.index := by
  obtain ⟨func, mem, declared⟩ := mem_filterMap.mp h
  obtain ⟨rfl, -, implemented, -⟩ := declare_eq_some declared
  exact ⟨mem, implemented⟩

/-- **Registering a unit.**  Its declarations are added in order, its function map sends
each index to the flat index of its symbol, and earlier symbols stay in place. -/
theorem registerUnitFunctions_registered (reg : Registered catalog ds table)
    (distinct : ((ds ++ unit.declared).map Declared.symbol).Nodup)
    (indices : (unit.parsed.functions.map index).Nodup)
    (h : registerUnitFunctions catalog unit table = .ok table') :
    Registered catalog (ds ++ unit.declared) table' ∧ MapsUnit unit.declared table' ∧
      KeepsSymbols table table' := by
  -- The invariant is stated for every part of the unit without repetitions.
  let Holds (consumed : List FunctionDecl) (now : FlatTable) : Prop :=
    ((ds ++ consumed.filterMap unit.declare).map Declared.symbol).Nodup →
    (consumed.map index).Nodup →
      Registered catalog (ds ++ consumed.filterMap unit.declare) now ∧
      MapsUnit (consumed.filterMap unit.declare) now ∧ KeepsSymbols table now
  have start : Holds [] { table with functionMap := fun _ => none } := by
    intro _ _
    have reset : Registered catalog ds { table with functionMap := fun _ => none } :=
      { reg with }
    exact ⟨by simpa using reset, fun _ => rfl, fun _ _ found => found⟩
  have step : ∀ {consumed func now next}, Holds consumed now →
      registerFunction catalog unit now func = .ok next → Holds (consumed ++ [func]) next := by
    intro consumed func now next holds registered distinct indices
    rw [filterMap_append] at distinct ⊢
    rw [map_append, nodup_append] at indices
    cases declared : unit.declare func with
    | none =>
      cases registerFunction_skips declared registered
      simp only [filterMap_cons_none declared, filterMap_nil, append_nil] at distinct ⊢
      exact holds distinct indices.1
    | some d =>
      simp only [filterMap_cons_some declared] at distinct ⊢
      rw [← append_assoc] at distinct ⊢
      have apart := nodup_append.mp (map_append ▸ distinct)
      obtain ⟨before, maps, keeps⟩ := holds apart.1 indices.1
      obtain ⟨after, enters, same⟩ :=
        registerFunction_registered declared before distinct registered
      have fresh : ∀ other ∈ ds ++ consumed.filterMap unit.declare, other.symbol ≠ d.symbol :=
        fun other mem => apart.2.2 _ (mem_map_of_mem mem) _ (by simp)
      refine ⟨after, enters.mapsUnit maps ?_ ?_, keeps.trans (enters.keepsSymbols before fresh)⟩
      · exact fun other mem => fresh other (mem_append_right _ mem)
      · intro other mem
        obtain ⟨source, sourceMem, fromSource⟩ := mem_filterMap.mp mem
        rw [(declare_eq_some fromSource).1, same]
        exact indices.2.2 _ (mem_map_of_mem sourceMem) _ (by simp)
  have holds : Holds ([] ++ unit.parsed.functions) table' := foldlM_invariant step start h
  exact holds distinct indices

end RustScript.Compiler
