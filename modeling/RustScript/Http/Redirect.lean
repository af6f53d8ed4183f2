import RustScript.Http.Policy

/-!
# Redirects

A request is sent to the address that its host resolves to, and a response that names another
location is followed, so many times.  Every hop is admitted by the policy and checked against the
addresses that name resolution gives for it; a redirect to another origin drops all headers of the
caller but a few, and they never come back (`redirects_confined`).

Name resolution, connections, the exchange of a request for a response and what the libraries for
URLs and headers compute are parameters (`Network`) that may answer anything.  `RequestState`
keeps the hops that were made: those for which a connection was opened, and those whose request
was sent.
-/

namespace RustScript.Http

open Wp List
open Vm (VmError)

/-! ## Requests and responses -/

inductive Method where
  | get
  | head
  | post
  | other (name : String)
  deriving DecidableEq, Repr

/-- A header; names are in lower case. -/
structure Header where
  name : String
  value : List UInt8
  deriving DecidableEq, Repr

structure HttpRequest where
  method : Method
  url : Url
  headers : List Header
  body : Option (List UInt8)

/-- A frame of a body: data, trailers, or a failure to read. -/
inductive BodyFrame where
  | data (chunk : List UInt8)
  | trailers (headers : List Header)
  | failed (error : VmError)

structure Response where
  status : Nat
  headers : List Header
  body : List BodyFrame

structure HttpResponse where
  status : Nat
  headers : List Header
  body : List UInt8
  url : Url

/-- One hop of a request: where it goes, the addresses that were found for it, and what is sent. -/
structure Hop where
  request : HttpRequest
  addresses : List SocketAddr
  address : SocketAddr

/-! ## The surroundings -/

structure Network (W : Type) where
  parseIp : String → Option IpAddr
  join : Url → String → Except String Url
  portOrKnownDefault : Url → Option UInt16
  /-- The origins of two URLs are equal. -/
  sameOrigin : Url → Url → Bool
  /-- The value of a header as text, if it is one. -/
  toStr : List UInt8 → Option String
  lookupHost : String → UInt16 → W → Except String (List SocketAddr) × W
  /-- A connection to an address; the answer is the address of the peer. -/
  connect : SocketAddr → W → Except String SocketAddr × W
  /-- The request is sent over the connection. -/
  exchange : Hop → W → Except VmError Response × W

structure RequestState (W : Type) where
  world : W
  connected : List Hop
  sent : List Hop
  bytesSent : Nat

abbrev RequestM (W : Type) := EStateM VmError (RequestState W)

variable {W α : Type}

/-- Something that the surroundings do. -/
def outside (f : W → α × W) : RequestM W α := fun st =>
  .ok (f st.world).1 { st with world := (f st.world).2 }

theorem wp_outside {f : W → α × W} {Q : α → RequestState W → Prop}
    {R : VmError → RequestState W → Prop} {st : RequestState W} :
    wp (outside f) Q R st ↔ Q (f st.world).1 { st with world := (f st.world).2 } := Iff.rfl

/-! ## A hop -/

def getAll (headers : List Header) (name : String) : List Header :=
  headers.filter (·.name == name)

def get? (headers : List Header) (name : String) : Option Header :=
  headers.find? (·.name == name)

/-- `parse::<u64>`. -/
def parseU64 (text : String) : Option Nat :=
  let digits := if text.toList.head? = some '+' then text.toList.drop 1 else text.toList
  let value := digits.foldl (fun value digit => 10 * value + (digit.toNat - '0'.toNat)) 0
  if digits ≠ [] ∧ digits.all Char.isDigit ∧ value < 2 ^ 64 then some value else none

def splitComma (text : List Char) : List (List Char) :=
  text.foldr (fun c parts =>
    if c = ',' then [] :: parts
    else
      match parts with
      | [] => [[c]]
      | part :: parts => (c :: part) :: parts) [[]]

def trim (text : List Char) : List Char :=
  ((text.dropWhile Char.isWhitespace).reverse.dropWhile Char.isWhitespace).reverse

section Requests

variable (N : Network W) (config : HttpConfig)

/-- The codings that the headers name. -/
def codings (headers : List Header) : List String :=
  ((headers.flatMap fun header => splitComma (((N.toStr header.value).getD "").toList)).map
    fun coding => String.ofList (trim coding)).filter (· ≠ "")

def contentLengthInvalid : VmError := .hostError "HTTP response Content-Length is invalid"

def declaredLength (header : Header) : Except VmError Nat :=
  match (N.toStr header.value).bind parseU64 with
  | some length => .ok length
  | none => .error contentLengthInvalid

def validateTransferEncoding (transferEncodings : List Header) : Except VmError Unit :=
  match transferEncodings, codings N transferEncodings with
  | [], _ => .ok ()
  | _, [coding] =>
    if eqIgnoreAsciiCase coding "chunked" then .ok ()
    else .error (.hostError "HTTP response has invalid Transfer-Encoding")
  | _, _ => .error (.hostError "HTTP response has invalid Transfer-Encoding")

def validateResponseFraming (response : Response) : Except VmError Unit := do
  let contentLengths := getAll response.headers "content-length"
  let transferEncodings := getAll response.headers "transfer-encoding"
  if contentLengths ≠ [] ∧ transferEncodings ≠ [] then
    .error (.hostError "HTTP response has ambiguous transfer framing")
  else if contentLengths.length > 1 then
    .error (.hostError "HTTP response has ambiguous Content-Length")
  else do
    let _ ← contentLengths.mapM (declaredLength N)
    validateTransferEncoding N transferEncodings

def followsLocation (status : Nat) : Bool :=
  status == 301 || status == 302 || status == 303 || status == 307 || status == 308

def isSafeCrossOriginRedirectHeader (name : String) : Bool :=
  name == "accept" || name == "accept-language" || name == "accept-encoding"

def isBodyHeader (name : String) : Bool :=
  name == "content-length" || name == "transfer-encoding" || name == "content-type" ||
    name == "content-encoding" || name == "content-range" || name == "trailer" || name == "te" ||
    name == "expect"

def redirectRewritesToGet (status : Nat) (method : Method) : Bool :=
  (status == 303 && method != .get && method != .head) ||
    ((status == 301 || status == 302) && method == .post)

/-- The headers that go to another origin. -/
def crossOrigin (current next : Url) (headers : List Header) : List Header :=
  if !N.sameOrigin current next then
    headers.filter fun header => isSafeCrossOriginRedirectHeader header.name
  else headers

def prepareRedirect (current : HttpRequest) (next : Url) (status : Nat) : HttpRequest :=
  let headers := crossOrigin N current.url next current.headers
  if redirectRewritesToGet status current.method then
    { method := .get
      url := next
      headers := headers.filter fun header => !isBodyHeader header.name
      body := none }
  else { current with url := next, headers }

def findAddresses (host : String) (port : UInt16) : RequestM W (List SocketAddr) :=
  match N.parseIp host with
  | some ip => return [⟨ip, port⟩]
  | none => do
      match ← outside (N.lookupHost host port) with
      | .ok addresses => return addresses
      | .error error => throw (.hostError ("HTTP host resolution failed: " ++ error))

/-- The addresses that were found and the one that is used. -/
def resolveUrl (url : Url) : RequestM W (List SocketAddr × SocketAddr) := do
  let (host, port) ← lift (validateUrlPolicy N.portOrKnownDefault config .http url)
  let addresses ← findAddresses N host port
  lift (validateResolvedAddresses config addresses)
  let address ← expect addresses.head? (.hostError "HTTP target resolves to a restricted IP")
  return (addresses, address)

def sendRequest (hop : Hop) : RequestM W Response := do
  modify fun st => { st with connected := st.connected ++ [hop] }
  match ← outside (N.connect hop.address) with
  | .error error => throw (.hostError ("HTTP request failed: " ++ error))
  | .ok peer => do
      require (peer = hop.address)
        (.hostError "HTTP connected peer does not match the validated address")
      modify fun st => { st with sent := st.sent ++ [hop] }
      lift (← outside (N.exchange hop))

/-- The location that a response names. -/
def redirectTarget (url : Url) (response : Response) : Except VmError Url := do
  match get? response.headers "location" with
  | none => .error (.hostError "HTTP redirect has no location")
  | some header =>
    match N.toStr header.value with
    | none => .error (.hostError "HTTP redirect location is invalid")
    | some location =>
      match N.join url location with
      | .error error => .error (.hostError ("invalid HTTP redirect: " ++ error))
      | .ok next => do
          let _ ← validateUrlPolicy N.portOrKnownDefault config .http next
          return next

/-- One pass of the loop: a request and its response.  `onSent` is what the caller does when a
response has come. -/
def makeHop (onSent : Option (List UInt8) → RequestM W Unit) (request : HttpRequest) :
    RequestM W Response := do
  let (addresses, address) ← resolveUrl N config request.url
  let response ← sendRequest N ⟨request, addresses, address⟩
  onSent request.body
  lift (validateResponseFraming N response)
  return response

/-- The loop over the redirects; so many are left. -/
def followRedirects (onSent : Option (List UInt8) → RequestM W Unit) :
    Nat → HttpRequest → RequestM W (Response × HttpRequest)
  | left, request => do
      let response ← makeHop N config onSent request
      if followsLocation response.status then
        match left with
        | 0 => throw (.hostError "HTTP redirect limit exceeded")
        | left + 1 => do
            let next ← lift (redirectTarget N config request.url response)
            followRedirects onSent left (prepareRedirect N request next response.status)
      else return (response, request)

/-! ## The two callers -/

def responseHasBody (method : Method) (status : Nat) : Bool :=
  method != .head && !(100 ≤ status && status < 200) && status != 204 && status != 304

def responseBodyLimitError : VmError := .hostError "HTTP response body exceeds limit"

def rejectDeclaredOversize (response : Response) (limit : Nat) : Except VmError Unit :=
  match get? response.headers "content-length" with
  | none => .ok ()
  | some header => do
      let length ← declaredLength N header
      if length > limit then .error responseBodyLimitError else .ok ()

def httpMaxHeadBytes : Nat := 64 * 1024

def validateResponseTrailers : List Header → Nat → Except VmError Unit
  | [], _ => .ok ()
  | header :: headers, bytes =>
    if bytes + header.name.utf8ByteSize + header.value.length + 4 > httpMaxHeadBytes then
      .error (.hostError "HTTP response trailers exceed limit")
    else
      validateResponseTrailers headers (bytes + header.name.utf8ByteSize + header.value.length + 4)

def readBody : List BodyFrame → List UInt8 → Except VmError (List UInt8)
  | [], bytes => .ok bytes
  | .failed error :: _, _ => .error error
  | .trailers headers :: frames, bytes => do
      validateResponseTrailers headers 0
      readBody frames bytes
  | .data chunk :: frames, bytes =>
    if bytes.length + chunk.length > config.maxResponseBodyBytes then
      .error responseBodyLimitError
    else readBody frames (bytes ++ chunk)

def executeRequestUntil (request : HttpRequest) : RequestM W HttpResponse := do
  let (response, last) ← followRedirects N config (fun _ => return ()) config.maxRedirects request
  if responseHasBody last.method response.status then do
    lift (rejectDeclaredOversize N response config.maxResponseBodyBytes)
    let body ← lift (readBody config response.body [])
    return ⟨response.status, response.headers, body, last.url⟩
  else return ⟨response.status, response.headers, [], last.url⟩

def usizeMax : Nat := 2 ^ 64 - 1

def openStreamResponse (request : HttpRequest) : RequestM W (Response × Url) := do
  let (response, last) ← followRedirects N config
      (fun body => modify fun st => { st with
        bytesSent := min usizeMax (st.bytesSent + (body.map List.length).getD 0) })
      config.maxRedirects request
  return (response, last.url)

end Requests

/-! ## Confinement -/

/-- A header of the caller that may go to any origin. -/
def Header.Safe (header : Header) : Prop := isSafeCrossOriginRedirectHeader header.name = true

/-- After a step to another origin only safe headers are sent. -/
def HeadersConfined (N : Network W) (requests : List HttpRequest) : Prop :=
  ∀ (i j : Nat) (current next later : HttpRequest), i < j →
    requests[i]? = some current → requests[i + 1]? = some next →
    requests[j]? = some later → N.sameOrigin current.url next.url = false →
    ∀ header ∈ later.headers, header.Safe

/-- The policy admits the URL of a hop, and its address is one of those that were found for the
host and passed the check. -/
structure Hop.Valid (N : Network W) (config : HttpConfig) (hop : Hop) : Prop where
  found : ∃ host port,
    validateUrlPolicy N.portOrKnownDefault config .http hop.request.url = .ok (host, port) ∧
    ((∃ ip, N.parseIp host = some ip ∧ hop.addresses = [⟨ip, port⟩]) ∨
      N.parseIp host = none ∧ ∃ w w', N.lookupHost host port w = (.ok hop.addresses, w'))
  checked : validateResolvedAddresses config hop.addresses = .ok ()
  address : hop.address ∈ hop.addresses

section Confinement

variable {N : Network W} {config : HttpConfig} {st : RequestState W} {current next : Url}
  {headers : List Header} {addresses : List SocketAddr} {address : SocketAddr}
  {onSent : Option (List UInt8) → RequestM W Unit}

theorem crossOrigin_subset : crossOrigin N current next headers ⊆ headers := by
  unfold crossOrigin
  split
  · exact filter_subset_self _
  · exact fun _ mem => mem

theorem crossOrigin_safe (crosses : N.sameOrigin current next = false) :
    ∀ header ∈ crossOrigin N current next headers, header.Safe := by
  unfold crossOrigin
  rw [crosses]
  intro header mem
  exact (mem_filter.mp mem).2

theorem prepareRedirect_headers (N : Network W) (current : HttpRequest) (next : Url)
    (status : Nat) :
    (prepareRedirect N current next status).headers ⊆
      crossOrigin N current.url next current.headers := by
  unfold prepareRedirect
  split
  · exact filter_subset_self _
  · exact fun _ mem => mem

theorem prepareRedirect_url (current : HttpRequest) (next : Url) (status : Nat) :
    (prepareRedirect N current next status).url = next := by
  unfold prepareRedirect
  split <;> rfl

/-- A redirect keeps the headers confined. -/
theorem HeadersConfined.redirect {earlier : List HttpRequest} {current : HttpRequest}
    (confined : HeadersConfined N (earlier ++ [current])) (next : Url) (status : Nat) :
    HeadersConfined N (earlier ++ [current] ++ [prepareRedirect N current next status]) := by
  have carried := prepareRedirect_headers N current next status
  have lastCurrent : (earlier ++ [current])[earlier.length]? = some current := by simp
  have length : (earlier ++ [current]).length = earlier.length + 1 := by simp
  intro i j a b later before isA isB isLater crosses
  have bound : j < earlier.length + 2 := by
    have := (List.getElem?_eq_some_iff.mp isLater).1
    simpa using this
  by_cases inside : j < earlier.length + 1
  · -- All three requests were there before.
    rw [getElem?_append_left (by omega)] at isA isB isLater
    exact confined i j a b later before isA isB isLater crosses
  · have isLast : j = (earlier ++ [current]).length := by omega
    rw [isLast, getElem?_concat_length] at isLater
    cases isLater
    rw [getElem?_append_left (by omega)] at isA
    by_cases inner : i < earlier.length
    · -- The step to another origin came earlier, and the current headers are safe already.
      rw [getElem?_append_left (by omega)] at isB
      have safe := confined i earlier.length a b current inner isA isB lastCurrent crosses
      exact fun header mem => safe header (crossOrigin_subset (carried mem))
    · -- This is the step to another origin.
      have isCurrent : i = earlier.length := by omega
      rw [isCurrent] at isA isB
      rw [← length, getElem?_concat_length] at isB
      cases lastCurrent.symm.trans isA
      cases isB
      rw [prepareRedirect_url] at crosses
      exact fun header mem => crossOrigin_safe crosses _ (carried mem)

/-- What holds of the hops that have been made: every connection goes to an address that was found
and checked for its hop, the requests are sent over the connections in their order, there are not
too many, and their headers are those of the caller, confined to their origin. -/
structure Confined (N : Network W) (config : HttpConfig) (request : HttpRequest)
    (st : RequestState W) : Prop where
  connected : ∀ hop ∈ st.connected, hop.Valid N config
  sent : st.sent <+: st.connected
  count : st.connected.length ≤ config.maxRedirects + 1
  own : ∀ hop ∈ st.connected, hop.request.headers ⊆ request.headers
  headers : HeadersConfined N (st.connected.map Hop.request)

/-- What holds when the next request is to be made. -/
structure Ready (N : Network W) (config : HttpConfig) (request : HttpRequest) (left : Nat)
    (next : HttpRequest) (st : RequestState W) : Prop where
  connected : ∀ hop ∈ st.connected, hop.Valid N config
  sent : st.sent = st.connected
  count : st.connected.length + left ≤ config.maxRedirects
  own : ∀ hop ∈ st.connected, hop.request.headers ⊆ request.headers
  nextOwn : next.headers ⊆ request.headers
  headers : HeadersConfined N (st.connected.map Hop.request ++ [next])

/-- The log of the hops is as before. -/
def SameLog (st st' : RequestState W) : Prop :=
  st'.connected = st.connected ∧ st'.sent = st.sent

variable {request next : HttpRequest} {left : Nat} {st' : RequestState W}

theorem HeadersConfined.of_append {requests more : List HttpRequest}
    (confined : HeadersConfined N (requests ++ more)) : HeadersConfined N requests := by
  intro i j a b later before isA isB isLater
  have bound := (List.getElem?_eq_some_iff.mp isLater).1
  apply confined i j a b later before
  · rw [getElem?_append_left (by omega)]
    exact isA
  · rw [getElem?_append_left (by omega)]
    exact isB
  · rw [getElem?_append_left bound]
    exact isLater

theorem Ready.confined (ready : Ready N config request left next st) (same : SameLog st st') :
    Confined N config request st' where
  connected := by
    rw [same.1]
    exact ready.connected
  sent := by
    have whole := same.2.trans (ready.sent.trans same.1.symm)
    exact whole ▸ prefix_rfl
  count := by
    have := ready.count
    rw [same.1]
    omega
  own := by
    rw [same.1]
    exact ready.own
  headers := by
    rw [same.1]
    exact ready.headers.of_append

/-- The hop is made. -/
theorem Ready.hop (ready : Ready N config request left next st)
    (valid : Hop.Valid N config ⟨next, addresses, address⟩)
    (connected : st'.connected = st.connected ++ [⟨next, addresses, address⟩])
    (sent : st'.sent = st.sent ∨ st'.sent = st'.connected) : Confined N config request st' where
  connected := by
    rw [connected]
    intro hop mem
    rcases mem_append.mp mem with mem | mem
    · exact ready.connected hop mem
    · rw [mem_singleton.mp mem]
      exact valid
  sent := by
    rcases sent with same | all
    · rw [same, ready.sent, connected]
      exact prefix_append _ _
    · exact all ▸ prefix_rfl
  count := by
    have := ready.count
    rw [connected, length_append, length_singleton]
    omega
  own := by
    rw [connected]
    intro hop mem
    rcases mem_append.mp mem with mem | mem
    · exact ready.own hop mem
    · rw [mem_singleton.mp mem]
      exact ready.nextOwn
  headers := by
    rw [connected, map_append]
    exact ready.headers

/-- The next hop is prepared. -/
theorem Ready.redirect (ready : Ready N config request (left + 1) next st)
    (valid : Hop.Valid N config ⟨next, addresses, address⟩)
    (connected : st'.connected = st.connected ++ [⟨next, addresses, address⟩])
    (sent : st'.sent = st'.connected) (target : Url) (status : Nat) :
    Ready N config request left (prepareRedirect N next target status) st' where
  connected := (ready.hop valid connected (.inr sent)).connected
  sent := sent
  count := by
    have := ready.count
    rw [connected, length_append, length_singleton]
    omega
  own := (ready.hop valid connected (.inr sent)).own
  nextOwn := fun _ mem =>
    ready.nextOwn (crossOrigin_subset (prepareRedirect_headers N next _ _ mem))
  headers := by
    rw [connected, map_append]
    exact ready.headers.redirect target status

/-! ## The steps of a hop -/

theorem findAddresses_wp {host : String} {port : UInt16} : wp (findAddresses N host port)
      (fun addresses st' => SameLog st st' ∧
        ((∃ ip, N.parseIp host = some ip ∧ addresses = [⟨ip, port⟩]) ∨
          N.parseIp host = none ∧ ∃ w w', N.lookupHost host port w = (.ok addresses, w')))
      (fun _ st' => SameLog st st') st := by
  unfold findAddresses
  cases parsed : N.parseIp host with
  | some ip => exact ⟨⟨rfl, rfl⟩, .inl ⟨ip, rfl, rfl⟩⟩
  | none =>
    rw [wp_bind, wp_outside]
    cases answer : N.lookupHost host port st.world with
    | mk result w =>
      cases result with
      | ok addresses => exact ⟨⟨rfl, rfl⟩, .inr ⟨rfl, st.world, w, answer⟩⟩
      | error error => exact ⟨rfl, rfl⟩

theorem resolveUrl_wp {request : HttpRequest} : wp (resolveUrl N config request.url)
      (fun found st' => SameLog st st' ∧ Hop.Valid N config ⟨request, found.1, found.2⟩)
      (fun _ st' => SameLog st st') st := by
  unfold resolveUrl
  rw [wp_bind, wp_lift]
  refine ⟨fun target admitted => ?_, fun _ _ => ⟨rfl, rfl⟩⟩
  obtain ⟨host, port⟩ := target
  rw [wp_bind]
  apply wp_mono findAddresses_wp _ fun _ _ same => same
  rintro addresses st' ⟨same, found⟩
  rw [wp_bind, wp_lift]
  refine ⟨fun _ checked => ?_, fun _ _ => same⟩
  rw [wp_bind, wp_expect]
  refine ⟨fun address first => ⟨same, ?_⟩, fun _ => same⟩
  exact ⟨⟨host, port, admitted, found⟩, checked, mem_of_head? first⟩

/-- A request is connected, and sent if the peer is the right one. -/
theorem sendRequest_wp {hop : Hop} : wp (sendRequest N hop)
      (fun _ st' => st'.connected = st.connected ++ [hop] ∧ st'.sent = st.sent ++ [hop])
      (fun _ st' => st'.connected = st.connected ++ [hop] ∧
        (st'.sent = st.sent ∨ st'.sent = st.sent ++ [hop])) st := by
  unfold sendRequest
  rw [wp_bind, wp_modify, wp_bind, wp_outside]
  cases (N.connect hop.address st.world).1 with
  | error error => exact ⟨rfl, .inl rfl⟩
  | ok peer =>
    rw [wp_bind, wp_require]
    refine ⟨fun _ => ?_, fun _ => ⟨rfl, .inl rfl⟩⟩
    rw [wp_bind, wp_modify, wp_bind, wp_outside, wp_lift]
    exact ⟨fun _ _ => ⟨rfl, rfl⟩, fun _ _ => ⟨rfl, .inr rfl⟩⟩

/-- What a caller does when a response has come leaves the hops alone. -/
def LeavesLog (onSent : Option (List UInt8) → RequestM W Unit) : Prop :=
  ∀ body st, wp (onSent body) (fun _ st' => SameLog st st') (fun _ _ => False) st

theorem makeHop_wp (leaves : LeavesLog onSent) (ready : Ready N config request left next st) :
    wp (makeHop N config onSent next)
      (fun _ st' => ∃ addresses address, Hop.Valid N config ⟨next, addresses, address⟩ ∧
        st'.connected = st.connected ++ [⟨next, addresses, address⟩] ∧ st'.sent = st'.connected)
      (fun _ => Confined N config request) st := by
  unfold makeHop
  rw [wp_bind]
  apply wp_mono resolveUrl_wp _ fun _ _ same => ready.confined same
  rintro ⟨addresses, address⟩ st₁ ⟨same, valid⟩
  rw [wp_bind]
  apply wp_mono sendRequest_wp
  · rintro response st₂ ⟨connected, sent⟩
    rw [same.1] at connected
    rw [same.2, ready.sent, ← connected] at sent
    rw [wp_bind]
    apply wp_mono (leaves next.body st₂) _ fun _ _ impossible => impossible.elim
    intro _ st₃ same
    rw [← same.1] at connected
    rw [← same.1, ← same.2] at sent
    rw [wp_bind, wp_lift]
    exact ⟨fun _ _ => ⟨addresses, address, valid, connected, sent⟩, fun _ _ =>
      ready.hop valid connected (.inr sent)⟩
  · rintro _ st₂ ⟨connected, sent⟩
    rw [same.1] at connected
    rw [same.2] at sent
    refine ready.hop valid connected (sent.imp_right fun sent => ?_)
    rw [sent, connected, ready.sent]

theorem followRedirects_confined
    (leaves : LeavesLog onSent) (ready : Ready N config request left next st) :
    wp (followRedirects N config onSent left next) (fun _ => Confined N config request)
      (fun _ => Confined N config request) st := by
  induction left generalizing next st with
  | zero =>
    unfold followRedirects
    rw [wp_bind]
    apply wp_mono (makeHop_wp leaves ready) _ fun _ _ confined => confined
    rintro response st ⟨addresses, address, valid, connected, sent⟩
    have confined := ready.hop valid connected (.inr sent)
    rw [wp_ite]
    exact ⟨fun _ => confined, fun _ => confined⟩
  | succ left ih =>
    unfold followRedirects
    rw [wp_bind]
    apply wp_mono (makeHop_wp leaves ready) _ fun _ _ confined => confined
    rintro response st ⟨addresses, address, valid, connected, sent⟩
    have confined := ready.hop valid connected (.inr sent)
    rw [wp_ite]
    refine ⟨fun _ => ?_, fun _ => confined⟩
    rw [wp_bind, wp_lift]
    exact ⟨fun target _ => ih (ready.redirect valid connected sent target response.status),
      fun _ _ => confined⟩

/-- Nothing has been sent yet. -/
theorem Ready.start (N : Network W) (config : HttpConfig) (request : HttpRequest) (world : W)
    (bytesSent : Nat) :
    Ready N config request config.maxRedirects request ⟨world, [], [], bytesSent⟩ where
  connected := fun _ mem => (not_mem_nil mem).elim
  sent := rfl
  count := Nat.le_of_eq (Nat.zero_add _)
  own := fun _ mem => (not_mem_nil mem).elim
  nextOwn := fun _ mem => mem
  headers := by
    intro i j a b later before _ _ isLater
    have bound := (List.getElem?_eq_some_iff.mp isLater).1
    have short : ([] ++ [request] : List HttpRequest).length = 1 := rfl
    simp only [map_nil] at bound
    omega

end Confinement

/-- **Redirects stay confined.**  Whatever servers and name resolution answer, every connection of
a request goes to an address that was found and checked for its hop, and the policy admits its URL;
at most one request more than the redirects is sent; and after a step to another origin only the
safe headers of the caller are sent. -/
theorem redirects_confined (N : Network W) (config : HttpConfig) (request : HttpRequest) (world : W)
    (bytesSent : Nat) :
    Confined N config request
      (resultState (executeRequestUntil N config request ⟨world, [], [], bytesSent⟩)) ∧
    Confined N config request
      (resultState (openStreamResponse N config request ⟨world, [], [], bytesSent⟩)) := by
  have ready := Ready.start N config request world bytesSent
  constructor
  · have leaves : LeavesLog (W := W) fun _ => return () := fun _ _ => ⟨rfl, rfl⟩
    apply wp_resultState
    unfold executeRequestUntil
    rw [wp_bind]
    apply wp_mono (followRedirects_confined leaves ready) _ fun _ _ confined => confined
    rintro ⟨response, last⟩ st confined
    rw [wp_ite]
    refine ⟨fun _ => ?_, fun _ => confined⟩
    rw [wp_bind, wp_lift]
    refine ⟨fun _ _ => ?_, fun _ _ => confined⟩
    rw [wp_bind, wp_lift]
    exact ⟨fun _ _ => confined, fun _ _ => confined⟩
  · have leaves : LeavesLog (W := W) fun body => modify fun st => { st with
        bytesSent := min usizeMax (st.bytesSent + (body.map length).getD 0) } :=
      fun _ _ => ⟨rfl, rfl⟩
    apply wp_resultState
    unfold openStreamResponse
    rw [wp_bind]
    exact wp_mono (followRedirects_confined leaves ready) (fun _ _ confined => confined)
      fun _ _ confined => confined

end RustScript.Http
