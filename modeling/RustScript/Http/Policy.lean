import RustScript.Lib.Wp
import RustScript.Vm.Value

/-!
# Where a request may go

The policy of a configuration admits a URL by its scheme, host and port.  The addresses that the
host resolves to are checked before a connection is made: unless private addresses are allowed,
none of them may be restricted.
-/

namespace RustScript.Http

open Vm (VmError)

/-! ## URLs -/

/-- The parts of a parsed URL; the scheme is in lower case. -/
structure Url where
  scheme : String
  username : String
  password : Option String
  hostStr : Option String
  port : Option UInt16
  path : String
  query : Option String
  deriving DecidableEq, Repr

/-! ## The policy -/

inductive SchemeFamily where
  | http
  deriving DecidableEq, Repr

def SchemeFamily.accepts : SchemeFamily → String → Bool
  | .http, scheme => scheme == "http" || scheme == "https"

structure HttpConfig where
  allowedSchemes : List String
  allowedHosts : List String
  allowedPorts : List UInt16
  maxRedirects : Nat
  maxResponseBodyBytes : Nat
  allowPrivateIps : Bool

def toAsciiLowercase (text : String) : String := String.ofList (text.toList.map Char.toLower)

def eqIgnoreAsciiCase (a b : String) : Bool := toAsciiLowercase a == toAsciiLowercase b

def validateUrlStructure (url : Url) : Except VmError String :=
  if url.username ≠ "" ∨ url.password.isSome then
    .error (.hostError "HTTP URL userinfo is not allowed")
  else
    match url.hostStr with
    | none => .error (.hostError "HTTP URL has no host")
    | some host => .ok host

/-- The host and the port of a URL that the policy admits; `portOrKnownDefault` is its port, or the
one that its scheme implies. -/
def validateUrlPolicy (portOrKnownDefault : Url → Option UInt16) (config : HttpConfig)
    (family : SchemeFamily) (url : Url) : Except VmError (String × UInt16) := do
  let host ← validateUrlStructure url
  let scheme := toAsciiLowercase url.scheme
  if !family.accepts scheme || !config.allowedSchemes.any (eqIgnoreAsciiCase · scheme) then
    .error (.hostError ("HTTP URL scheme '" ++ scheme ++ "' is not allowed"))
  else if !config.allowedHosts.any (eqIgnoreAsciiCase · host) then
    .error (.hostError "HTTP target host is not allowed")
  else
    match portOrKnownDefault url with
    | none => .error (.hostError "HTTP URL has no known port")
    | some port =>
      if config.allowedPorts.contains port then .ok (host, port)
      else .error (.hostError ("HTTP target port " ++ toString port.toNat ++ " is not allowed"))

/-! ## Addresses -/

inductive IpAddr where
  | v4 (a b c d : UInt8)
  | v6 (a b c d e f g h : UInt16)
  deriving DecidableEq, Repr

structure SocketAddr where
  ip : IpAddr
  port : UInt16
  deriving DecidableEq, Repr

def isRestrictedV4 (a b c _d : UInt8) : Bool :=
  a == 0 || a == 10 || a == 127 || (a == 100 && 64 ≤ b && b ≤ 127) || (a == 169 && b == 254) ||
    (a == 172 && 16 ≤ b && b ≤ 31) ||
    (a == 192 && ((b == 0 && c == 0) || (b == 0 && c == 2) || (b == 31 && c == 196) ||
      (b == 52 && c == 193) || (b == 88 && c == 99) || b == 168 || (b == 175 && c == 48))) ||
    (a == 198 && ((18 ≤ b && b ≤ 19) || (b == 51 && c == 100))) ||
    (a == 203 && b == 0 && c == 113) ||
    224 ≤ a

def isRestrictedIp : IpAddr → Bool
  | .v4 a b c d => isRestrictedV4 a b c d
  | .v6 a b c d e f g h =>
    -- An address that stands for one of the older kind.
    if a == 0 && b == 0 && c == 0 && d == 0 && e == 0 && f == 0xffff then
      isRestrictedV4 (g >>> 8).toUInt8 g.toUInt8 (h >>> 8).toUInt8 h.toUInt8
    else
      a &&& 0xe000 != 0x2000 || (a == 0x2001 && b ≤ 0x01ff) ||
        ((a == 0x2001 && b == 0x0db8) || (a == 0x3fff && b &&& 0xf000 == 0)) ||
        a == 0x2002 ||
        (a == 0x2620 && b == 0x004f && c == 0x8000)

def validateResolvedAddresses (config : HttpConfig) (addresses : List SocketAddr) :
    Except VmError Unit :=
  if addresses.isEmpty ||
      (!config.allowPrivateIps && addresses.any fun address => isRestrictedIp address.ip) then
    .error (.hostError "HTTP target resolves to a restricted IP")
  else .ok ()

end RustScript.Http
