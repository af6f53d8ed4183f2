import RustScript.Nostd.Agreement
import RustScript.Nostd.Equality
import RustScript.Scope.Shutdown
import RustScript.Vm.InvocationRefusal
import RustScript.Http.Sse
import RustScript.Http.Redirect
import RustScript.Compiler.TypeState
import RustScript.Compiler.Exports
import RustScript.Compiler.ModuleLoading
import RustScript.Compiler.SourceMap
import RustScript.Jit.Ir
import RustScript.Compiler.Product
import RustScript.Vm.InvocationFuel
import RustScript.Stdlib.Parse
import RustScript.Vm.AotArtifact
import RustScript.Vmbc.LegacyGate
import RustScript.Vm.Regions
import RustScript.Vm.FuelAccounting
import RustScript.HostApi.HostState
import RustScript.Vm.Ownership
import RustScript.Builtins.RegexCache
