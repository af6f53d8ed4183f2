import RustScript.Lib.DepthFirst

/-!
# The module loader

Starting from the root source, the loader follows the imports of every module.  A
module is known by its identity: the canonical path of a file that exists, and
otherwise the normalized path that the import names, relative to the module that
imports it.  The text of a module comes from a source override under the import's
specifier, from an override under the module's identity, or from the file.

Paths are those of a Unix file system.  The scan of a source for its imports, the
parse of a module once its imports are loaded, the file system and the names of
the builtin namespaces are parameters.  Each recursive call of the source takes one
unit of fuel here, so a load that does not end is a load that every amount of fuel
is too small for.
-/

namespace RustScript.Compiler

/-! ## Paths -/

structure ModulePath where
  absolute : Bool
  segments : List String
  deriving DecidableEq, Repr

namespace ModulePath

def parent (path : ModulePath) : Option ModulePath :=
  if path.segments = [] then none else some { path with segments := path.segments.dropLast }

def join (path other : ModulePath) : ModulePath :=
  if other.absolute then other else { path with segments := path.segments ++ other.segments }

end ModulePath

/-! ## Specifiers -/

namespace Loader

variable (loader : Loader)

end Loader

end RustScript.Compiler
