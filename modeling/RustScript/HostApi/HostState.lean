import RustScript.Lib.Fallible

/-!
# Host-private state

A store maps the keys of states to concrete types, concrete types to registered providers, and
concrete types to the states that exist.  Installing a list of requirements merges it, checks
every merged requirement against the store, and only then registers them.

An installation changes the tables for all its requirements or for none, and the two tables of
providers stay inverse to each other over every sequence of operations
(`installs_all_or_nothing`).

States are opaque.  Whether a cell is borrowed and whether it holds the requested type are inputs
of the operations that ask.
-/

namespace RustScript.HostState

open Fallible List

inductive HostStateLifetime where
  | vm
  deriving DecidableEq, Repr

/-- A provider descriptor; `typeId` is the identity of the concrete type. -/
structure HostStateProvider where
  key : String
  typeId : Nat
  typeName : String
  lifetime : HostStateLifetime

structure HostStateRequirement where
  provider : HostStateProvider
  write : Bool

inductive HostStateError where
  | providerKeyConflict (key existingType conflictingType : String)
  | providerConflict (key typeName : String)
  | borrowConflict (function effect key typeName : String)

structure RegisteredProvider where
  key : String
  typeName : String
  lifetime : HostStateLifetime

structure HostStateEntry (S : Type) where
  key : String
  typeName : String
  cell : S

structure ModuleStateStore (S : Type) where
  hostStates : Nat → Option (HostStateEntry S)
  providers : Nat → Option RegisteredProvider
  providerKeys : String → Option Nat

/-- A second requirement for the same state: write wins. -/
def HostStateRequirement.merge (requirement other : HostStateRequirement) : HostStateRequirement :=
  { requirement with write := requirement.write || other.write }

/-- The loop of `dedupe_host_state_requirements`; at most one requirement has the same type. -/
def dedupe (merged : List HostStateRequirement) :
    List HostStateRequirement → Except HostStateError (List HostStateRequirement)
  | [] => .ok merged
  | requirement :: requirements =>
    let provider := requirement.provider
    match merged.find? fun seen => seen.provider.typeId = provider.typeId with
    | some existing =>
      if existing.provider.key ≠ provider.key ∨ existing.provider.lifetime ≠ provider.lifetime then
        .error (.providerConflict existing.provider.key existing.provider.typeName)
      else dedupe (merged.map fun seen => if seen.provider.typeId = provider.typeId then
        seen.merge requirement else seen) requirements
    | none =>
      match merged.find? fun seen => seen.provider.key = provider.key with
      | some existing => .error
          (.providerKeyConflict provider.key existing.provider.typeName provider.typeName)
      | none => dedupe (merged ++ [requirement]) requirements

def dedupeHostStateRequirements (requirements : List HostStateRequirement) :
    Except HostStateError (List HostStateRequirement) := dedupe [] requirements

/-! ## The store -/

variable {S : Type}

/-- What is found, if anything, agrees. -/
def agree {α : Type} (found : Option α) (ok : α → Prop) [DecidablePred ok]
    (error : α → HostStateError) : Except HostStateError Unit :=
  match found with
  | some existing => if ok existing then .ok () else .error (error existing)
  | none => .ok ()

namespace ModuleStateStore

def new : ModuleStateStore S := ⟨fun _ => none, fun _ => none, fun _ => none⟩

variable (store : ModuleStateStore S)

def registeredTypeName (typeId : Nat) : String :=
  (((store.providers typeId).map RegisteredProvider.typeName).orElse fun _ =>
    (store.hostStates typeId).map HostStateEntry.typeName).getD "unknown host state type"

def validateHostStateProvider (provider : HostStateProvider) : Except HostStateError Unit := do
  agree (store.providerKeys provider.key) (· = provider.typeId) fun existing =>
    .providerKeyConflict provider.key (store.registeredTypeName existing) provider.typeName
  agree (store.providers provider.typeId)
    (fun existing => existing.key = provider.key ∧ existing.lifetime = provider.lifetime)
    fun existing => .providerConflict existing.key existing.typeName
  agree (store.hostStates provider.typeId) (·.key = provider.key)
    fun entry => .providerConflict entry.key entry.typeName

def applyHostStateProvider (provider : HostStateProvider) : ModuleStateStore S :=
  { store with
    providerKeys := Function.update store.providerKeys provider.key (some provider.typeId)
    providers := Function.update store.providers provider.typeId
      (some ⟨provider.key, provider.typeName, provider.lifetime⟩) }

def putHostState (typeId : Nat) (entry : HostStateEntry S) : ModuleStateStore S :=
  { store with hostStates := Function.update store.hostStates typeId (some entry) }

end ModuleStateStore

/-- Errors leave what was done before them. -/
abbrev Answer (S α : Type) := Except HostStateError α × ModuleStateStore S

variable (store : ModuleStateStore S)

def installHostStateRequirements (requirements : List HostStateRequirement) :
    Answer S (List HostStateRequirement) :=
  match dedupeHostStateRequirements requirements with
  | .error error => (.error error, store)
  | .ok merged =>
    match merged.forM fun requirement => store.validateHostStateProvider requirement.provider with
    | .error error => (.error error, store)
    | .ok _ => (.ok merged, merged.foldl (fun store requirement =>
        store.applyHostStateProvider requirement.provider) store)

/-- Preconfigure the state of the provider's type; true if a value of that type was replaced. -/
def setHostState (provider : HostStateProvider) (state : S) (borrowed : Bool)
    (downcasts : S → Bool) : Answer S Bool :=
  match store.validateHostStateProvider provider with
  | .error error => (.error error, store)
  | .ok _ =>
    let store := store.applyHostStateProvider provider
    match store.hostStates provider.typeId with
    | some entry =>
      if entry.key ≠ provider.key then
        (.error (.providerConflict entry.key entry.typeName), store)
      else if borrowed then (.error
        (.borrowConflict "preconfigure" "state write" provider.key provider.typeName), store)
      else (.ok (downcasts entry.cell),
        store.putHostState provider.typeId { entry with cell := state })
    | none => (.ok false,
        store.putHostState provider.typeId ⟨provider.key, provider.typeName, state⟩)

def removeHostState (typeId : Nat) (downcasts : S → Bool) : Option S × ModuleStateStore S :=
  match store.hostStates typeId with
  | none => (none, store)
  | some entry => (if downcasts entry.cell then some entry.cell else none, {
      hostStates := Function.update store.hostStates typeId none
      providerKeys := Function.update store.providerKeys entry.key none
      providers := Function.update store.providers typeId none })

/-! ## What a registration needs -/

theorem agree_eq_ok {α : Type} {found : Option α} {ok : α → Prop} [DecidablePred ok]
    {error : α → HostStateError} : agree found ok error = .ok () ↔ ∀ a, found = some a → ok a := by
  cases found with
  | none => simp [agree]
  | some a => by_cases h : ok a <;> simp [agree]

namespace ModuleStateStore

/-- The provider does not contradict the store. -/
structure Admits (store : ModuleStateStore S) (provider : HostStateProvider) : Prop where
  key : ∀ typeId, store.providerKeys provider.key = some typeId → typeId = provider.typeId
  type : ∀ existing, store.providers provider.typeId = some existing →
    existing.key = provider.key ∧ existing.lifetime = provider.lifetime
  state : ∀ entry, store.hostStates provider.typeId = some entry → entry.key = provider.key

/-- The key of the provider names its type, and the type is registered for it. -/
def Resolves (store : ModuleStateStore S) (provider : HostStateProvider) : Prop :=
  store.providerKeys provider.key = some provider.typeId ∧
    (store.providers provider.typeId).map (fun known => (known.key, known.lifetime)) =
      some (provider.key, provider.lifetime)

/-- The two tables are inverse, and every state has its provider. -/
structure Inverse (store : ModuleStateStore S) : Prop where
  keys : ∀ key typeId, store.providerKeys key = some typeId ↔
    (store.providers typeId).map RegisteredProvider.key = some key
  states : ∀ typeId entry, store.hostStates typeId = some entry →
    (store.providers typeId).map RegisteredProvider.key = some entry.key

variable {store : ModuleStateStore S} {provider other : HostStateProvider}

theorem admits_of_validate (valid : store.validateHostStateProvider provider = .ok ()) :
    store.Admits provider := by
  obtain ⟨_, keys, rest⟩ := bind_eq_ok.mp valid
  obtain ⟨_, types, states⟩ := bind_eq_ok.mp rest
  exact ⟨agree_eq_ok.mp keys, agree_eq_ok.mp types, agree_eq_ok.mp states⟩

/-- Two providers agree on one type, or have different types and different keys. -/
def Compatible (p q : HostStateProvider) : Prop :=
  if p.typeId = q.typeId then p.key = q.key ∧ p.lifetime = q.lifetime else p.key ≠ q.key

theorem Resolves.apply (h : store.Resolves other) (compatible : Compatible provider other) :
    (store.applyHostStateProvider provider).Resolves other := by
  simp only [Resolves, Compatible, applyHostStateProvider] at *
  grind

theorem Admits.apply (h : store.Admits other) (compatible : Compatible provider other) :
    (store.applyHostStateProvider provider).Admits other := by
  obtain ⟨key, type, state⟩ := h
  simp only [Compatible] at compatible
  constructor <;> simp only [applyHostStateProvider] <;> grind

theorem Inverse.apply (inverse : store.Inverse) (admits : store.Admits provider) :
    (store.applyHostStateProvider provider).Inverse := by
  obtain ⟨keys, states⟩ := inverse
  obtain ⟨key, type, state⟩ := admits
  constructor <;> simp only [applyHostStateProvider, Function.update_apply]
  · intro key' typeId
    have known := keys key' typeId
    rw [Option.map_eq_some_iff] at known
    split_ifs <;> grind
  · grind

variable {typeId : Nat} {entry : HostStateEntry S}

theorem Inverse.put (inverse : store.Inverse)
    (known : (store.providers typeId).map RegisteredProvider.key = some entry.key) :
    (store.putHostState typeId entry).Inverse := by
  obtain ⟨keys, states⟩ := inverse
  constructor <;> simp only [putHostState] <;> grind

theorem Inverse.remove (inverse : store.Inverse)
    (there : store.hostStates typeId = some entry) : Inverse {
      hostStates := Function.update store.hostStates typeId none
      providerKeys := Function.update store.providerKeys entry.key none
      providers := Function.update store.providers typeId none } := by
  obtain ⟨keys, states⟩ := inverse
  have named := (keys entry.key typeId).mpr (states typeId entry there)
  constructor <;> simp only [Function.update_apply]
  · intro key other
    have known := keys key other
    split_ifs <;> grind
  · grind

end ModuleStateStore

open ModuleStateStore

/-! ## Installing -/

theorem dedupe_ok {merged requirements out : List HostStateRequirement}
    (compatible : ∀ a ∈ merged, ∀ b ∈ merged, Compatible a.provider b.provider)
    (h : dedupe merged requirements = .ok out) :
    (∀ a ∈ out, ∀ b ∈ out, Compatible a.provider b.provider) ∧
      ∀ r ∈ merged ++ requirements, ∃ m ∈ out, m.provider.typeId = r.provider.typeId ∧
        m.provider.key = r.provider.key ∧ m.provider.lifetime = r.provider.lifetime := by
  fun_induction dedupe merged requirements with
  | case1 =>
    cases h
    exact ⟨compatible, fun r mem => ⟨r, by simpa using mem, rfl, rfl, rfl⟩⟩
  | case2 | case4 => cases h
  | case3 merged requirement requirements provider existing found agrees ih =>
    simp only [not_or, not_not] at agrees
    have same : ∀ seen : HostStateRequirement, (if seen.provider.typeId = provider.typeId then
        seen.merge requirement else seen).provider = seen.provider := by
      intro seen
      split <;> rfl
    obtain ⟨all, represented⟩ := ih (by simpa only [forall_mem_map, same] using compatible) h
    refine ⟨all, ?_⟩
    simp only [forall_mem_append, forall_mem_map, same, forall_mem_cons] at represented ⊢
    refine ⟨represented.1, ?_, represented.2⟩
    have typeId : existing.provider.typeId = provider.typeId := by simpa using find?_some found
    simpa only [typeId, agrees] using represented.1 existing (mem_of_find?_eq_some found)
  | case5 merged requirement requirements provider otherTypes otherKeys ih =>
    have new : ∀ seen ∈ merged, Compatible seen.provider requirement.provider ∧
        Compatible requirement.provider seen.provider := by
      intro seen mem
      have typeId := find?_eq_none.mp otherTypes seen mem
      have key := find?_eq_none.mp otherKeys seen mem
      simp only [decide_eq_true_eq] at typeId key
      simp [Compatible, typeId, key, Ne.symm typeId, Ne.symm key, provider]
    rw [append_cons]
    refine ih ?_ h
    simp only [mem_append, mem_singleton]
    rintro a (old | rfl) b (old' | rfl)
    · exact compatible a old b old'
    · exact (new a old).1
    · exact (new b old').2
    · simp [Compatible]

section Operations

variable {merged : List HostStateRequirement} {store : ModuleStateStore S}

/-- What has been registered stays, and the rest is registered. -/
theorem foldl_resolves {provider : HostStateProvider}
    (compatible : ∀ r ∈ merged, Compatible r.provider provider)
    (known : store.Resolves provider ∨ ∃ r ∈ merged, r.provider = provider) :
    (merged.foldl (fun store r => store.applyHostStateProvider r.provider) store).Resolves
      provider := by
  induction merged generalizing store with
  | nil => simpa using known
  | cons requirement merged ih =>
    obtain ⟨here, rest⟩ := forall_mem_cons.mp compatible
    refine ih rest ?_
    rcases known with resolves | ⟨r, mem, rfl⟩
    · exact .inl (resolves.apply here)
    · rcases mem_cons.mp mem with rfl | later
      · exact .inl (by simp [Resolves, applyHostStateProvider])
      · exact .inr ⟨r, later, rfl⟩

theorem foldl_inverse (inverse : store.Inverse)
    (compatible : ∀ a ∈ merged, ∀ b ∈ merged, Compatible a.provider b.provider)
    (admits : ∀ r ∈ merged, store.Admits r.provider) :
    (merged.foldl (fun store r => store.applyHostStateProvider r.provider) store).Inverse := by
  induction merged generalizing store with
  | nil => exact inverse
  | cons requirement merged ih =>
    simp only [forall_mem_cons] at compatible admits
    exact ih (inverse.apply admits.1) (fun a mem => (compatible.2 a mem).2)
      fun r mem => (admits.2 r mem).apply (compatible.1.2 r mem)

/-- An installation fails and changes nothing, or has checked and registers everything. -/
theorem install_cases {store : ModuleStateStore S} {requirements : List HostStateRequirement} :
    (∃ error, installHostStateRequirements store requirements = (.error error, store)) ∨
    ∃ merged, dedupeHostStateRequirements requirements = .ok merged ∧
      (∀ r ∈ merged, store.Admits r.provider) ∧
      installHostStateRequirements store requirements = (.ok merged,
        merged.foldl (fun store r => store.applyHostStateProvider r.provider) store) := by
  unfold installHostStateRequirements
  split
  · exact .inl ⟨_, rfl⟩
  · rename_i merged deduped
    split
    · exact .inl ⟨_, rfl⟩
    · rename_i valid
      exact .inr ⟨merged, deduped, fun r mem => admits_of_validate (forM_eq_ok.mp valid r mem), rfl⟩

end Operations

/-! ## Sequences of operations -/

inductive StoreOp (S : Type) where
  | install (requirements : List HostStateRequirement)
  | set (provider : HostStateProvider) (state : S) (borrowed : Bool) (downcasts : S → Bool)
  | remove (typeId : Nat) (downcasts : S → Bool)

/-- The store after an operation, whether it failed or not. -/
def StoreOp.run (store : ModuleStateStore S) : StoreOp S → ModuleStateStore S
  | .install requirements => (installHostStateRequirements store requirements).2
  | .set provider state borrowed downcasts =>
    (setHostState store provider state borrowed downcasts).2
  | .remove typeId downcasts => (removeHostState store typeId downcasts).2

theorem StoreOp.run_inverse {store : ModuleStateStore S} (op : StoreOp S)
    (inverse : store.Inverse) : (op.run store).Inverse := by
  cases op with
  | install requirements =>
    rw [StoreOp.run]
    rcases install_cases with ⟨error, failed⟩ | ⟨merged, deduped, admits, done⟩
    · rw [failed]
      exact inverse
    · rw [done]
      exact foldl_inverse inverse (dedupe_ok (by simp) deduped).1 admits
  | set provider state borrowed downcasts =>
    simp only [StoreOp.run, setHostState]
    split
    · exact inverse
    · rename_i valid
      have applied := inverse.apply (admits_of_validate valid)
      split
      · rename_i entry there
        split
        · exact applied
        · split
          · exact applied
          · exact applied.put (applied.states _ entry there)
      · exact applied.put (by simp [applyHostStateProvider])
  | remove typeId downcasts =>
    simp only [StoreOp.run, removeHostState]
    split
    · exact inverse
    · rename_i entry there
      exact inverse.remove there

/-- **Installations are all or nothing.**  One that fails changes neither the tables of providers
nor the states, one that succeeds makes every required key resolve to the type and the lifetime
of its requirement, and the tables are inverse after every sequence of operations on a new
store. -/
theorem installs_all_or_nothing :
    (∀ (store : ModuleStateStore S) (requirements : List HostStateRequirement),
      match installHostStateRequirements store requirements with
      | (.ok _, store') => ∀ r ∈ requirements, store'.Resolves r.provider
      | (.error _, store') => store' = store) ∧
    ∀ ops : List (StoreOp S), (ops.foldl StoreOp.run .new).Inverse := by
  constructor
  · intro store requirements
    rcases install_cases with ⟨error, failed⟩ | ⟨merged, deduped, -, done⟩
    · rw [failed]
    · rw [done]
      intro r mem
      obtain ⟨compatible, represented⟩ := dedupe_ok (by simp) deduped
      obtain ⟨m, inside, typeId, key, lifetime⟩ := represented r (by simpa using mem)
      have resolves : (merged.foldl _ store).Resolves m.provider :=
        foldl_resolves (fun a mem => compatible a mem m inside) (.inr ⟨m, inside, rfl⟩)
      simpa only [Resolves, typeId, key] using resolves
  · intro ops
    suffices ∀ store : ModuleStateStore S, store.Inverse →
        (ops.foldl StoreOp.run store).Inverse from
      this .new ⟨by simp [new], nofun⟩
    induction ops with
    | nil => exact fun _ inverse => inverse
    | cons op ops ih => exact fun store inverse => ih _ (op.run_inverse inverse)

end RustScript.HostState
