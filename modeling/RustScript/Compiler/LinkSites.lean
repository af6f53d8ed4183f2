import RustScript.Compiler.Linker
import RustScript.Lib.Fallible

/-!
# The sites of a linked program

The places of a statement or expression that the linker renumbers: calls and
function values, references to the symbol of another module, and local slots.
They are listed in the order of the tree.  Rewriting a tree leaves its shape
alone and rewrites the sites one by one (`remapExpr_sites`, `remapStmts_sites`).

The parameter slots of a closure that a statement binds are sites of their own,
since the linker passes over them.
-/

namespace RustScript.Compiler

inductive Site where
  | function (index : UInt16)
  | symbol (symbol : SymbolId)
  | slot (slot : LocalSlot)
  /-- A parameter of a closure bound by a statement. -/
  | boundParameter (slot : LocalSlot)
  deriving DecidableEq

/-! ## Listing the sites -/

def captureSites (copies : List (LocalSlot × LocalSlot)) : List Site :=
  copies.flatMap fun copy => [.slot copy.1, .slot copy.2]

def ClosureFrame.sites (frame : ClosureFrame) : List Site :=
  frame.paramSlots.map .slot ++ captureSites frame.captureCopies

def MatchPattern.sites : MatchPattern → List Site
  | .someBinding slot => [.slot slot]
  | _ => []

mutual
def Expr.sites : Expr → List Site
  | .literal _ | .unresolvedFunctionRef => []
  | .functionRef index => [.function index]
  | .moduleFunctionRef symbol => [.symbol symbol]
  | .optionalGet container key containerSlot keySlot =>
    .slot containerSlot :: .slot keySlot :: (container.sites ++ key.sites)
  | .optionUnwrapOr value valueSlot fallback =>
    .slot valueSlot :: (value.sites ++ fallback.sites)
  | .call index args _ => .function index :: exprsSites args
  | .moduleCall symbol args => .symbol symbol :: exprsSites args
  | .localCall index args => .slot index :: exprsSites args
  | .closure frame body => frame.sites ++ body.sites
  | .closureCall frame body args => frame.sites ++ (body.sites ++ exprsSites args)
  | .binary _ lhs rhs => lhs.sites ++ rhs.sites
  | .unary _ inner => inner.sites
  | .var index | .moveVar index => [.slot index]
  | .moveField root _ => [.slot root]
  | .moveIndex root _ => [.slot root]
  | .ifElse condition thenExpr elseExpr =>
    condition.sites ++ (thenExpr.sites ++ elseExpr.sites)
  | .match valueSlot resultSlot value arms default =>
    .slot valueSlot :: .slot resultSlot :: (value.sites ++ (armsSites arms ++ default.sites))
  | .block stmts expr => stmtsSites stmts ++ expr.sites

def exprsSites : List Expr → List Site
  | [] => []
  | expr :: exprs => expr.sites ++ exprsSites exprs

def armsSites : List (MatchPattern × Expr) → List Site
  | [] => []
  | (pattern, expr) :: arms => pattern.sites ++ (expr.sites ++ armsSites arms)

def Stmt.sites : Stmt → List Site
  | .noop _ | .break _ | .continue _ => []
  | .let index expr _ | .assign index expr _ => .slot index :: expr.sites
  | .closureLet frame body _ =>
    frame.paramSlots.map .boundParameter ++ (captureSites frame.captureCopies ++ body.sites)
  | .funcDecl index hasImpl _ => if hasImpl then [.function index] else []
  | .expr expr _ => expr.sites
  | .ifElse condition thenBranch elseBranch _ =>
    condition.sites ++ (stmtsSites thenBranch ++ stmtsSites elseBranch)
  | .for init condition post body _ =>
    init.sites ++ (condition.sites ++ (post.sites ++ stmtsSites body))
  | .while condition body _ => condition.sites ++ stmtsSites body
  | .drop index _ => [.slot index]

def stmtsSites : List Stmt → List Site
  | [] => []
  | stmt :: stmts => stmt.sites ++ stmtsSites stmts
end

def FunctionImpl.sites (function : FunctionImpl) : List Site :=
  function.paramSlots.map .slot ++ (captureSites function.captureCopies ++
    (stmtsSites function.bodyStmts ++ function.bodyExpr.sites))

/-! ## What the linker does to a site -/

/-- The rewriting of one site. -/
inductive Remap.Rewrites (remap : Remap) : Site → Site → Prop
  | function {index flat : UInt16} (found : remap.function index = .ok flat) :
      Rewrites remap (.function index) (.function flat)
  | symbol {symbol : SymbolId} {flat : UInt16}
      (found : remap.flatIndexBySymbol symbol = some flat) :
      Rewrites remap (.symbol symbol) (.function flat)
  | slot {slot : LocalSlot} (fits : slot + remap.localBase < UInt16.size) :
      Rewrites remap (.slot slot) (.slot (slot + remap.localBase))
  | boundParameter {slot : LocalSlot} :
      Rewrites remap (.boundParameter slot) (.boundParameter slot)

section

variable {remap : Remap}

abbrev Remap.RewritesAll (remap : Remap) : List Site → List Site → Prop :=
  List.Forall₂ remap.Rewrites

open Fallible List

theorem rewrites_of_slot {slot slot' : LocalSlot} (h : remap.slot slot = .ok slot') :
    remap.Rewrites (.slot slot) (.slot slot') := by
  unfold Remap.slot remapLocalIndex at h
  split at h
  · cases pure_eq_ok.mp h
    exact .slot ‹_›
  · cases h

theorem rewrites_of_symbol {missing : String} {symbol : SymbolId} {flat : UInt16}
    (h : remap.symbol missing symbol = .ok flat) :
    remap.Rewrites (.symbol symbol) (.function flat) := by
  unfold Remap.symbol at h
  split at h
  · cases pure_eq_ok.mp h
    exact .symbol ‹_›
  · cases h

theorem rewrites_of_functionMap {index flat : UInt16} (h : remap.functionMap index = some flat) :
    remap.Rewrites (.function index) (.function flat) := by
  refine .function ?_
  unfold Remap.function
  rw [h]
  rfl

theorem rewrites_slots {slots slots' : List LocalSlot} (h : slots.mapM remap.slot = .ok slots') :
    remap.RewritesAll (slots.map .slot) (slots'.map .slot) := by
  refine forall₂_map_left_iff.mpr (forall₂_map_right_iff.mpr ?_)
  exact (forall₂_of_mapM h).imp fun _ _ => rewrites_of_slot

theorem rewrites_captures {copies copies' : List (LocalSlot × LocalSlot)}
    (h : remap.captureCopies copies = .ok copies') :
    remap.RewritesAll (captureSites copies) (captureSites copies') := by
  have pairs := forall₂_of_mapM h
  clear h
  induction pairs with
  | nil => exact .nil
  | cons atHead _ ih =>
    simp only [bind_eq_ok, pure_eq_ok] at atHead
    obtain ⟨source, fromSource, captured, fromCaptured, rfl⟩ := atHead
    exact .cons (rewrites_of_slot fromSource) (.cons (rewrites_of_slot fromCaptured) ih)

theorem rewrites_frame {frame frame' : ClosureFrame} (h : remap.frame frame = .ok frame') :
    remap.RewritesAll frame.sites frame'.sites := by
  simp only [Remap.frame, bind_eq_ok, pure_eq_ok] at h
  obtain ⟨params, fromParams, copies, fromCopies, rfl⟩ := h
  exact List.rel_append (rewrites_slots fromParams) (rewrites_captures fromCopies)

theorem rewrites_pattern {pattern pattern' : MatchPattern}
    (h : remap.pattern pattern = .ok pattern') :
    remap.RewritesAll pattern.sites pattern'.sites := by
  cases pattern with
  | someBinding slot =>
    simp only [Remap.pattern, bind_eq_ok, pure_eq_ok] at h
    obtain ⟨slot', fromSlot, rfl⟩ := h
    exact .cons (rewrites_of_slot fromSlot) .nil
  | _ =>
    cases pure_eq_ok.mp h
    exact .nil

theorem rewrites_boundParameters (slots : List LocalSlot) :
    remap.RewritesAll (slots.map .boundParameter) (slots.map .boundParameter) := by
  induction slots with
  | nil => exact .nil
  | cons slot slots ih => exact .cons .boundParameter ih

mutual
/-- Rewriting an expression rewrites its sites one by one. -/
theorem remapExpr_sites {expr expr' : Expr} (h : remapExprIndices remap expr = .ok expr') :
    remap.RewritesAll expr.sites expr'.sites := by
  cases expr <;> simp only [remapExprIndices, bind_eq_ok, pure_eq_ok] at h
  case literal =>
    cases h
    exact .nil
  case unresolvedFunctionRef => cases h
  case functionRef =>
    obtain ⟨flat, found, rfl⟩ := h
    exact .cons (.function found) .nil
  case moduleFunctionRef =>
    obtain ⟨flat, found, rfl⟩ := h
    exact .cons (rewrites_of_symbol found) .nil
  case optionalGet =>
    obtain ⟨_, container, _, key, _, inContainer, _, inKey, rfl⟩ := h
    exact .cons (rewrites_of_slot container) (.cons (rewrites_of_slot key)
      (rel_append (remapExpr_sites inContainer) (remapExpr_sites inKey)))
  case optionUnwrapOr =>
    obtain ⟨_, slot, _, inValue, _, inFallback, rfl⟩ := h
    exact .cons (rewrites_of_slot slot)
      (rel_append (remapExpr_sites inValue) (remapExpr_sites inFallback))
  case call =>
    obtain ⟨_, found, _, inArgs, rfl⟩ := h
    exact .cons (.function found) (remapExprs_sites inArgs)
  case moduleCall =>
    obtain ⟨_, inArgs, _, found, rfl⟩ := h
    exact .cons (rewrites_of_symbol found) (remapExprs_sites inArgs)
  case localCall =>
    obtain ⟨_, slot, _, inArgs, rfl⟩ := h
    exact .cons (rewrites_of_slot slot) (remapExprs_sites inArgs)
  case closure =>
    obtain ⟨_, frame, _, inBody, rfl⟩ := h
    exact rel_append (rewrites_frame frame) (remapExpr_sites inBody)
  case closureCall =>
    obtain ⟨_, frame, _, inBody, _, inArgs, rfl⟩ := h
    exact rel_append (rewrites_frame frame)
      (rel_append (remapExpr_sites inBody) (remapExprs_sites inArgs))
  case binary =>
    obtain ⟨_, inLhs, _, inRhs, rfl⟩ := h
    exact rel_append (remapExpr_sites inLhs) (remapExpr_sites inRhs)
  case unary =>
    obtain ⟨_, inInner, rfl⟩ := h
    have inner := remapExpr_sites inInner
    exact inner
  case var | moveVar | moveField | moveIndex =>
    obtain ⟨_, slot, rfl⟩ := h
    exact .cons (rewrites_of_slot slot) .nil
  case ifElse =>
    obtain ⟨_, inCondition, _, inThen, _, inElse, rfl⟩ := h
    exact rel_append (remapExpr_sites inCondition)
      (rel_append (remapExpr_sites inThen) (remapExpr_sites inElse))
  case «match» =>
    obtain ⟨_, value, _, result, _, inValue, _, inArms, _, inDefault, rfl⟩ := h
    exact .cons (rewrites_of_slot value) (.cons (rewrites_of_slot result)
      (rel_append (remapExpr_sites inValue)
        (rel_append (remapArms_sites inArms) (remapExpr_sites inDefault))))
  case block =>
    obtain ⟨_, inStmts, _, inExpr, rfl⟩ := h
    exact rel_append (remapStmts_sites inStmts) (remapExpr_sites inExpr)
termination_by sizeOf expr
decreasing_by all_goals (subst_vars; simp_wf <;> omega)

theorem remapExprs_sites {exprs exprs' : List Expr}
    (h : remapExprsIndices remap exprs = .ok exprs') :
    remap.RewritesAll (exprsSites exprs) (exprsSites exprs') := by
  cases exprs <;> simp only [remapExprsIndices, bind_eq_ok, pure_eq_ok] at h
  case nil =>
    cases h
    exact .nil
  case cons =>
    obtain ⟨_, atHead, _, atTail, rfl⟩ := h
    exact rel_append (remapExpr_sites atHead) (remapExprs_sites atTail)
termination_by sizeOf exprs
decreasing_by all_goals (subst_vars; simp_wf <;> omega)

theorem remapArms_sites : ∀ {arms arms' : List (MatchPattern × Expr)},
    remapArmsIndices remap arms = .ok arms' → remap.RewritesAll (armsSites arms) (armsSites arms')
  | [], _, h => by
      cases pure_eq_ok.mp h
      exact .nil
  | (_, _) :: _, _, h => by
      simp only [remapArmsIndices, bind_eq_ok, pure_eq_ok] at h
      obtain ⟨_, pattern, _, inExpr, _, atTail, rfl⟩ := h
      exact rel_append (rewrites_pattern pattern)
        (rel_append (remapExpr_sites inExpr) (remapArms_sites atTail))
termination_by arms => sizeOf arms
decreasing_by all_goals (subst_vars; simp_wf <;> omega)

theorem remapStmt_sites {stmt stmt' : Stmt} (h : remapStmtIndices remap stmt = .ok stmt') :
    remap.RewritesAll stmt.sites stmt'.sites := by
  cases stmt <;> simp only [remapStmtIndices, bind_eq_ok, pure_eq_ok] at h
  case noop | «break» | «continue» =>
    cases h
    exact .nil
  case «let» | assign =>
    obtain ⟨_, slot, _, inExpr, rfl⟩ := h
    exact .cons (rewrites_of_slot slot) (remapExpr_sites inExpr)
  case closureLet frame _ _ =>
    obtain ⟨_, copies, _, inBody, rfl⟩ := h
    exact rel_append (rewrites_boundParameters frame.paramSlots)
      (rel_append (rewrites_captures copies) (remapExpr_sites inBody))
  case funcDecl index hasImpl _ =>
    cases hasImpl with
    | false =>
      cases h
      exact .nil
    | true =>
      simp only [if_true] at h
      split at h
      · cases pure_eq_ok.mp h
        exact .cons (rewrites_of_functionMap ‹_›) .nil
      · cases h
  case expr =>
    obtain ⟨_, inExpr, rfl⟩ := h
    have inner := remapExpr_sites inExpr
    exact inner
  case ifElse =>
    obtain ⟨_, inCondition, _, inThen, _, inElse, rfl⟩ := h
    exact rel_append (remapExpr_sites inCondition)
      (rel_append (remapStmts_sites inThen) (remapStmts_sites inElse))
  case «for» =>
    obtain ⟨_, inInit, _, inCondition, _, inPost, _, inBody, rfl⟩ := h
    exact rel_append (remapStmt_sites inInit) (rel_append (remapExpr_sites inCondition)
      (rel_append (remapStmt_sites inPost) (remapStmts_sites inBody)))
  case «while» =>
    obtain ⟨_, inCondition, _, inBody, rfl⟩ := h
    exact rel_append (remapExpr_sites inCondition) (remapStmts_sites inBody)
  case drop =>
    obtain ⟨_, slot, rfl⟩ := h
    exact .cons (rewrites_of_slot slot) .nil
termination_by sizeOf stmt
decreasing_by all_goals (subst_vars; simp_wf; omega)

theorem remapStmts_sites {stmts stmts' : List Stmt}
    (h : remapStmtsIndices remap stmts = .ok stmts') :
    remap.RewritesAll (stmtsSites stmts) (stmtsSites stmts') := by
  cases stmts <;> simp only [remapStmtsIndices, bind_eq_ok, pure_eq_ok] at h
  case nil =>
    cases h
    exact .nil
  case cons =>
    obtain ⟨_, atHead, _, atTail, rfl⟩ := h
    exact rel_append (remapStmt_sites atHead) (remapStmts_sites atTail)
termination_by sizeOf stmts
decreasing_by all_goals (subst_vars; simp_wf <;> omega)
end

theorem remapFunctionImpl_sites {function function' : FunctionImpl}
    (h : remapFunctionImpl remap function = .ok function') :
    remap.RewritesAll function.sites function'.sites := by
  simp only [remapFunctionImpl, bind_eq_ok, pure_eq_ok] at h
  obtain ⟨_, params, _, copies, _, inStmts, _, inExpr, rfl⟩ := h
  exact rel_append (rewrites_slots params) (rel_append (rewrites_captures copies)
    (rel_append (remapStmts_sites inStmts) (remapExpr_sites inExpr)))

end

end RustScript.Compiler
