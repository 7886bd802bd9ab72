/-
  The transport of the owned reads.

  A read is one GET, sent again while it fails; its body is read in chunks up to
  a bound.  What the venue answers to each attempt is arbitrary (`HttpReply`).

  `owned_read_exchange`: what a read sends, to which host, with which headers;
  and what it makes of the replies.
-/
import Rspm.Auth.Requests
import Rspm.Utils.Helpers

namespace Rspm

open ResponsePath FormUrlEncoded Requests

/-! ## Hosts -/

inductive UrlHost where
  | domain (name : String)
  | ipv4 (address : BitVec 32)
  | ipv6 (address : BitVec 128)
deriving DecidableEq

/-- A URL that was parsed; its port is none where it is the one of the scheme. -/
structure Url where
  scheme : String
  username : String
  password : Option String
  host : Option UrlHost
  port : Option ℕ
  path : String
  query : Option String
  fragment : Option String
deriving DecidableEq

namespace Url

def hasBasePath (url : Url) : Bool := url.path = "" || url.path = "/"

def hasNoAmbientUrlData (url : Url) : Bool :=
  url.username.isEmpty && url.password.isNone && url.query.isNone && url.fragment.isNone &&
    url.hasBasePath

def loopbackHost (url : Url) : Bool :=
  match url.host with
  | none => false
  | some (.domain name) => asciiLowercase name = "localhost"
  | some (.ipv4 address) => address.toNat / 2 ^ 24 = 127
  | some (.ipv6 address) => address = 1

def clobDomain : String := "clob.polymarket.com"

/-- `authenticated_clob_endpoint_is_safe`; a build for tests accepts a loopback host. -/
def authenticatedClobEndpointIsSafe (testUtils : Bool) (endpoint : Url) : Bool :=
  let canonical := endpoint.scheme = "https" && endpoint.host = some (.domain clobDomain) &&
    endpoint.port.isNone && endpoint.hasNoAmbientUrlData
  canonical || testUtils && (endpoint.scheme = "http" && endpoint.port.isSome &&
    endpoint.hasNoAmbientUrlData && endpoint.loopbackHost)

/-- The canonical endpoint. -/
structure Canonical (url : Url) : Prop where
  scheme : url.scheme = "https"
  host : url.host = some (.domain clobDomain)
  port : url.port = none
  username : url.username = ""
  password : url.password = none
  fragment : url.fragment = none

theorem canonical_of_safe {url : Url} (h : authenticatedClobEndpointIsSafe false url = true) :
    url.Canonical := by
  simp only [authenticatedClobEndpointIsSafe, hasNoAmbientUrlData, Bool.false_and, Bool.or_false,
    Bool.and_eq_true, decide_eq_true_eq, Option.isNone_iff_eq_none, String.isEmpty_iff] at h
  obtain ⟨⟨⟨hscheme, hhost⟩, hport⟩, ⟨⟨⟨husername, hpassword⟩, -⟩, hfragment⟩, -⟩ := h
  exact ⟨hscheme, hhost, hport, husername, hpassword, hfragment⟩

end Url

/-! ## Requests -/

structure Header where
  name : String
  value : String
  sensitive : Bool
deriving DecidableEq

structure L2Credentials where
  key : String
  secret : String
  passphrase : String

structure HttpRequest where
  url : Url
  headers : Option (List Header)
deriving DecidableEq

/-- What is computed by other packages. -/
structure HttpCrates extends QueryCrates where
  /-- `HeaderValue::from_str` accepts the text -/
  headerValue : String → Bool
  /-- the signature of a text under a secret, in URL-safe base 64; none if the secret is not -/
  hmac : String → String → Option String
  setPath : Url → String → Url
  setQuery : Url → Option String → Url

/-- Characters that a path keeps as they are. -/
def PlainPath (path : String) : Prop :=
  path.toList.head? = some '/' ∧
    ∀ c ∈ path.toList, c.isAlphanum = true ∨ c = '-' ∨ c = '_' ∨ c = '/'

structure HttpCrates.Lawful (crates : HttpCrates) : Prop where
  query : crates.toQueryCrates.Lawful
  setPath : ∀ {url path}, url.host.isSome → PlainPath path →
    crates.setPath url path = { url with path }
  setQuery : ∀ {url query}, (∀ text ∈ query, ∀ c ∈ text.toList, textChar c = true) →
    crates.setQuery url query = { url with query }

def signatureMaterial (timestamp : ℤ) (path : String) : String :=
  toString timestamp ++ "GET" ++ path

section

variable (crates : HttpCrates)

def sensitiveHeaderValue (name value : String) : Option Header :=
  if crates.headerValue value then some ⟨name, value, true⟩ else none

/-- `l2_signature`. -/
def l2Signature (credentials : L2Credentials) (timestamp : ℤ) (path : String) : Option String :=
  crates.hmac credentials.secret (signatureMaterial timestamp path)

/-- `l2_headers`. -/
def l2Headers (address : Address) (credentials : L2Credentials) (timestamp : ℤ) (path : String) :
    Option (List Header) := do
  let polyAddress ← sensitiveHeaderValue crates "poly_address" (crates.checksum address)
  let polyApiKey ← sensitiveHeaderValue crates "poly_api_key" credentials.key
  let polyPassphrase ← sensitiveHeaderValue crates "poly_passphrase" credentials.passphrase
  let signature ← l2Signature crates credentials timestamp path
  let polySignature ← sensitiveHeaderValue crates "poly_signature" signature
  if crates.headerValue (toString timestamp) then
    return [polyAddress, polyApiKey, polyPassphrase, polySignature,
      ⟨"poly_timestamp", toString timestamp, false⟩]
  else none

end

/-! ## Replies -/

/-- `from_status`. -/
def ResponsePath.RequestFailureClass.fromStatus (status : ℕ) : RequestFailureClass :=
  if status = 401 then .unauthorized
  else if status = 403 then .forbidden
  else if status = 429 then .rateLimited
  else if 400 ≤ status ∧ status ≤ 499 then .clientError
  else if 500 ≤ status ∧ status ≤ 599 then .serverError
  else .unclassified

def maxResponseBytes : ℕ := 8 * 1024 * 1024

/-- What comes of one attempt; a chunk that is `none` could not be read. -/
inductive HttpReply where
  | failed
  | answered (status : ℕ) (contentLength : Option ℕ) (chunks : List (Option (List UInt8)))

namespace HttpReply

/-- The loop over the chunks, with what has been read. -/
def receiveChunks (body : List UInt8) :
    List (Option (List UInt8)) → Except RequestFailureClass (List UInt8)
  | [] => .ok body
  | none :: _ => .error .transport
  | some chunk :: chunks =>
    if body.length + chunk.length > maxResponseBytes then .error .oversizedResponse
    else receiveChunks (body ++ chunk) chunks

/-- The body of a reply, or how the attempt failed. -/
def receive : HttpReply → Except RequestFailureClass (List UInt8)
  | failed => .error .transport
  | answered status contentLength chunks =>
    if !isSuccess status then .error (.fromStatus status)
    else if contentLength.any (· > maxResponseBytes) then .error .oversizedResponse
    else receiveChunks [] chunks

/-- The same, but for the class of a failure. -/
theorem receiveChunks_toOption (body : List UInt8) (chunks : List (Option (List UInt8))) :
    (receiveChunks body chunks).toOption = Response.readChunks maxResponseBytes body chunks := by
  induction chunks generalizing body with
  | nil => rfl
  | cons chunk chunks ih =>
    cases chunk with
    | none => rfl
    | some chunk =>
      rw [receiveChunks, Response.readChunks]
      split_ifs
      · rfl
      · exact ih _

/-- The reply is a success, and its body is `body`. -/
def Delivers (reply : HttpReply) (body : List UInt8) : Prop :=
  ∃ status contentLength, ∃ parts : List (List UInt8),
    reply = .answered status contentLength (parts.map some) ∧ isSuccess status = true ∧
      (∀ length ∈ contentLength, length ≤ maxResponseBytes) ∧ body = parts.flatten ∧
      body.length ≤ maxResponseBytes

theorem receive_toOption (status : ℕ) (contentLength : Option ℕ)
    (chunks : List (Option (List UInt8))) :
    (answered status contentLength chunks).receive.toOption =
      Response.readBody maxResponseBytes ⟨isSuccess status, contentLength, chunks⟩ := by
  rw [receive, Response.readBody]
  dsimp only
  cases isSuccess status with
  | false => rfl
  | true =>
    cases contentLength.any (· > maxResponseBytes) with
    | true => rfl
    | false => exact receiveChunks_toOption [] chunks

theorem receive_eq_ok {reply : HttpReply} {body : List UInt8} :
    reply.receive = .ok body ↔ reply.Delivers body := by
  cases reply with
  | failed =>
    constructor
    · intro h
      cases h
    · rintro ⟨_, _, _, h, -⟩
      cases h
  | answered status contentLength chunks =>
    have hoption : ∀ {x : Except RequestFailureClass (List UInt8)},
        x = .ok body ↔ x.toOption = some body := by
      rintro (_ | _) <;> simp [Except.toOption]
    rw [hoption, receive_toOption, Response.readBody_eq_some]
    constructor
    · rintro ⟨hsuccess, hdeclared, ⟨parts, rfl, rfl⟩, hlength⟩
      exact ⟨status, contentLength, parts, rfl, hsuccess, hdeclared, rfl, hlength⟩
    · rintro ⟨_, _, parts, h, hsuccess, hdeclared, rfl, hlength⟩
      cases h
      exact ⟨hsuccess, hdeclared, ⟨parts, rfl, rfl⟩, hlength⟩

end HttpReply

/-! ## The client -/

structure AuthenticatedHttpClient where
  maxAttempts : ℕ := 2

/-- The client of the library, as the reads use it. -/
structure AuthenticatedSession where
  host : Url
  address : Address
  credentials : L2Credentials

/-- What is sent, and the result. -/
abbrev Exchange := List HttpRequest × Except AuthenticatedEndpointErrorKind (List UInt8)

/-- Nothing is sent. -/
def refuse (error : AuthenticatedEndpointErrorKind) : Exchange := ([], .error error)

/-- The request of `send_once`. -/
def httpRequest (crates : HttpCrates) (host : Url) (path : String) (query : Option String)
    (headers : Option (List Header)) : HttpRequest where
  url := crates.setQuery (crates.setPath host path) (query.filter (!·.isEmpty))
  headers

/-- The loop of `send`, with the attempts that are left and the last error. -/
def sendFrom (endpoint : AuthenticatedEndpoint) (request : HttpRequest) (replies : ℕ → HttpReply) :
    (left attempt : ℕ) → Option AuthenticatedEndpointErrorKind → Exchange
  | 0, _, lastError => ([], .error (lastError.getD (requestFailed endpoint)))
  | left + 1, attempt, _ =>
    match (replies attempt).receive with
    | .ok body => ([request], .ok body)
    | .error failureClass =>
      let (requests, result) := sendFrom endpoint request replies left (attempt + 1)
        (some (.requestFailed endpoint.asStr failureClass))
      (request :: requests, result)

section

variable (crates : HttpCrates) (testUtils : Bool) (http : AuthenticatedHttpClient)
  (session : AuthenticatedSession)

def AuthenticatedHttpClient.send (endpoint : AuthenticatedEndpoint) (path : String)
    (query : Option String) (headers : Option (List Header)) (replies : ℕ → HttpReply) : Exchange :=
  sendFrom endpoint (httpRequest crates session.host path query headers) replies http.maxAttempts 0
    none

/-- `get`; `now` is `unix_timestamp`. -/
def AuthenticatedHttpClient.get (endpoint : AuthenticatedEndpoint) (path : String)
    (query : Option String) (now : Option ℤ) (replies : ℕ → HttpReply) : Exchange :=
  if session.host.authenticatedClobEndpointIsSafe testUtils then
    match now with
    | none => refuse (requestFailed endpoint)
    | some timestamp =>
      match l2Headers crates session.address session.credentials timestamp path with
      | none => refuse (requestFailed endpoint)
      | some headers => http.send crates session endpoint path query (some headers) replies
  else refuse (requestFailed endpoint)

def AuthenticatedHttpClient.getPublic (endpoint : AuthenticatedEndpoint) (path : String)
    (replies : ℕ → HttpReply) : Exchange :=
  if session.host.authenticatedClobEndpointIsSafe testUtils then
    http.send crates session endpoint path none none replies
  else refuse (requestFailed endpoint)

/-- `identity_is_exact`. -/
def identityIsExact (accountAddress : Address) : Sdk.SignatureType → Bool
  | .eoa => accountAddress = session.address
  | .proxy => accountAddress ≠ 0
  | _ => false

/-- A read of an owned client, up to the body that it decodes. -/
def Requests.OwnedRead.perform (accountAddress : Address) (signatureType : Sdk.SignatureType)
    (read : OwnedRead) (now : Option ℤ) (replies : ℕ → HttpReply) : Exchange :=
  if read.endpoint = .balanceAllowance && !identityIsExact session accountAddress signatureType then
    refuse (requestFailed .balanceAllowance)
  else
    match read.target crates.toQueryCrates signatureType with
    | .error error => refuse error
    | .ok (path, query) =>
      if read = .protocolVersion then
        http.getPublic crates testUtils session read.endpoint path replies
      else http.get crates testUtils session read.endpoint path query now replies

end

/-! ## The exchange -/

/-- The attempts for a request, up to the first reply that delivers. -/
inductive Attempts (endpoint : AuthenticatedEndpoint) (maxAttempts : ℕ) (request : HttpRequest)
    (replies : ℕ → HttpReply) : Exchange → Prop
  | delivered (n : ℕ) (body : List UInt8) (hlt : n < maxAttempts)
    (hbefore : ∀ i < n, ∀ body, ¬ (replies i).Delivers body)
    (hdelivers : (replies n).Delivers body) :
    Attempts endpoint maxAttempts request replies (List.replicate (n + 1) request, .ok body)
  | failed (error : AuthenticatedEndpointErrorKind)
    (hall : ∀ i < maxAttempts, ∀ body, ¬ (replies i).Delivers body)
    (hlast : ∀ n, maxAttempts = n + 1 → ∃ failureClass,
      (replies n).receive = .error failureClass ∧
      error = .requestFailed endpoint.asStr failureClass) :
    Attempts endpoint maxAttempts request replies (List.replicate maxAttempts request, .error error)

section

variable {endpoint : AuthenticatedEndpoint} {request : HttpRequest} {replies : ℕ → HttpReply}

/-- A loop sends one request again and again until a reply delivers, or no attempt is left. -/
theorem sendFrom_cases (left attempt : ℕ) (lastError : Option AuthenticatedEndpointErrorKind) :
    (∃ n < left, ∃ body, (∀ i < n, ∀ body, ¬ (replies (attempt + i)).Delivers body) ∧
      (replies (attempt + n)).Delivers body ∧
      sendFrom endpoint request replies left attempt lastError =
        (List.replicate (n + 1) request, .ok body)) ∨
    (∀ i < left, ∀ body, ¬ (replies (attempt + i)).Delivers body) ∧
      ∃ error, sendFrom endpoint request replies left attempt lastError =
          (List.replicate left request, .error error) ∧
        (left = 0 → error = lastError.getD (requestFailed endpoint)) ∧
        ∀ n, left = n + 1 → ∃ failureClass,
          (replies (attempt + n)).receive = .error failureClass ∧
          error = .requestFailed endpoint.asStr failureClass := by
  induction left generalizing attempt lastError with
  | zero => exact .inr ⟨fun i hi => absurd hi i.not_lt_zero, _, rfl, fun _ => rfl, nofun⟩
  | succ left ih =>
    cases hreply : (replies attempt).receive with
    | ok body =>
      refine .inl ⟨0, left.succ_pos, body, fun i hi => absurd hi i.not_lt_zero,
        HttpReply.receive_eq_ok.1 hreply, ?_⟩
      rw [sendFrom, hreply]
      rfl
    | error failureClass =>
      have hfails : ∀ body, ¬ (replies attempt).Delivers body := by
        intro body hdelivers
        rw [HttpReply.receive_eq_ok.2 hdelivers] at hreply
        cases hreply
      have hstep : ∀ {n : ℕ}, (∀ i < n, ∀ body, ¬ (replies (attempt + 1 + i)).Delivers body) →
          ∀ i < n + 1, ∀ body, ¬ (replies (attempt + i)).Delivers body := by
        intro n hn i hi
        cases i with
        | zero => exact hfails
        | succ i =>
          have h := hn i (Nat.lt_of_succ_lt_succ hi)
          rwa [Nat.add_right_comm] at h
      rw [sendFrom, hreply]
      rcases ih (attempt + 1) (some (.requestFailed endpoint.asStr failureClass)) with
        ⟨n, hn, body, hbefore, hdelivers, heq⟩ | ⟨hall, error, heq, hnone, hsome⟩
      · refine .inl ⟨n + 1, Nat.succ_lt_succ hn, body, hstep hbefore, ?_, ?_⟩
        · rwa [Nat.add_right_comm] at hdelivers
        · dsimp only
          rw [heq]
          rfl
      · refine .inr ⟨hstep hall, error, ?_, nofun, ?_⟩
        · dsimp only
          rw [heq]
          rfl
        · rintro n ⟨rfl⟩
          cases left with
          | zero => exact ⟨failureClass, hreply, hnone rfl⟩
          | succ n =>
            obtain ⟨failureClass', hlast, herror⟩ := hsome n rfl
            rw [Nat.add_right_comm] at hlast
            exact ⟨failureClass', hlast, herror⟩

theorem attempts_send {crates : HttpCrates} (http : AuthenticatedHttpClient)
    (session : AuthenticatedSession) (path : String) (query : Option String)
    (headers : Option (List Header)) :
    Attempts endpoint http.maxAttempts (httpRequest crates session.host path query headers) replies
      (http.send crates session endpoint path query headers replies) := by
  rw [AuthenticatedHttpClient.send]
  rcases @sendFrom_cases endpoint (httpRequest crates session.host path query headers) replies
    http.maxAttempts 0 none with
    ⟨n, hlt, body, hbefore, hdelivers, heq⟩ | ⟨hall, error, heq, -, hlast⟩
  · simp only [Nat.zero_add] at hbefore hdelivers
    rw [heq]
    exact .delivered n body hlt hbefore hdelivers
  · simp only [Nat.zero_add] at hall hlast
    rw [heq]
    exact .failed error hall hlast

/-! ## What is sent -/

theorem textChar_query {crates : QueryCrates} (hcrates : crates.Lawful)
    {signatureType : Sdk.SignatureType} {read : OwnedRead} {path : String} {query : Option String}
    (h : read.target crates signatureType = .ok (path, query)) :
    ∀ text ∈ query.filter (!·.isEmpty), ∀ c ∈ text.toList, textChar c = true := by
  intro text htext
  have hreads := OwnedRead.target_reads hcrates h
  rw [Option.mem_filter_iff] at htext
  obtain ⟨rfl, -⟩ := htext
  exact hreads.chars

/-- Every path is a slash and plain characters. -/
theorem plainPath {read : OwnedRead} (h : read.Valid) : PlainPath read.path := by
  have hplain : ∀ {path : String}, path.toList.head? = some '/' →
      path.toList.all (fun c => c.isAlphanum || c = '-' || c = '_' || c = '/') = true →
      PlainPath path := by
    intro path hhead hall
    refine ⟨hhead, fun c hc => ?_⟩
    simpa [or_assoc] using List.all_eq_true.1 hall c hc
  cases read with
  | order orderId =>
    have horder : venueIdentifierIsValid orderId = true := h
    simp only [venueIdentifierIsValid, Bool.and_eq_true, List.all_eq_true, Bool.or_eq_true,
      decide_eq_true_eq] at horder
    show PlainPath ("/data/order/" ++ orderId)
    refine ⟨by rw [String.toList_append]; rfl, fun c hc => ?_⟩
    rw [String.toList_append, List.mem_append] at hc
    rcases hc with hc | hc
    · have hprefix : PlainPath "/data/order/" := hplain (by decide) (by decide)
      exact hprefix.2 c hc
    · rcases horder.2 c hc with (halnum | hdash) | hscore
      · exact .inl halnum
      · exact .inr (.inl hdash)
      · exact .inr (.inr (.inl hscore))
  | trades request nextCursor =>
    show PlainPath "/data/trades"
    exact hplain (by decide) (by decide)
  | orders request nextCursor =>
    show PlainPath "/data/orders"
    exact hplain (by decide) (by decide)
  | balanceAllowance | updateBalanceAllowance | protocolVersion =>
    exact hplain (by decide) (by decide)

theorem host_isSome {url : Url} (h : url.Canonical) : url.host.isSome := by
  rw [h.host]
  rfl

theorem sensitiveHeaderValue_eq_some {crates : HttpCrates} {name value : String}
    {header : Header} : sensitiveHeaderValue crates name value = some header ↔
      crates.headerValue value = true ∧ header = ⟨name, value, true⟩ := by
  rw [sensitiveHeaderValue]
  split_ifs with h
  · simp [h, eq_comm]
  · simp [h]

/-- The headers of a signed request. -/
theorem l2Headers_eq_some {crates : HttpCrates} {address : Address} {credentials : L2Credentials}
    {timestamp : ℤ} {path : String} {headers : List Header}
    (h : l2Headers crates address credentials timestamp path = some headers) :
    ∃ signature, crates.hmac credentials.secret (signatureMaterial timestamp path) =
        some signature ∧
      headers = [⟨"poly_address", crates.checksum address, true⟩,
        ⟨"poly_api_key", credentials.key, true⟩,
        ⟨"poly_passphrase", credentials.passphrase, true⟩,
        ⟨"poly_signature", signature, true⟩,
        ⟨"poly_timestamp", toString timestamp, false⟩] := by
  simp only [l2Headers, Option.bind_eq_bind, Option.bind_eq_some_iff,
    sensitiveHeaderValue_eq_some] at h
  obtain ⟨_, ⟨-, rfl⟩, _, ⟨-, rfl⟩, _, ⟨-, rfl⟩, signature, hsignature, _, ⟨-, rfl⟩, h⟩ := h
  split_ifs at h
  cases h
  exact ⟨signature, hsignature, rfl⟩

end

/-! ## A read -/

section

variable (crates : HttpCrates) (session : AuthenticatedSession) (accountAddress : Address)
  (signatureType : Sdk.SignatureType) (read : OwnedRead) (now : Option ℤ)

/-- What a read needs before anything is sent for it. -/
structure Requests.OwnedRead.Permitted : Prop where
  host : session.host.authenticatedClobEndpointIsSafe false = true
  valid : read.Valid
  identity : read.endpoint = .balanceAllowance →
    identityIsExact session accountAddress signatureType = true
  headers : read ≠ .protocolVersion → ∃ timestamp ∈ now,
    (l2Headers crates session.address session.credentials timestamp read.path).isSome

/-- The signature of a request, under the secret of the session. -/
structure Requests.OwnedRead.Signed (request : HttpRequest) : Prop where
  protocolVersion : read = .protocolVersion → request.headers = none
  others : read ≠ .protocolVersion → ∃ timestamp ∈ now, ∃ signature,
    crates.hmac session.credentials.secret (signatureMaterial timestamp read.path) =
      some signature ∧
    request.headers = some [⟨"poly_address", crates.checksum session.address, true⟩,
      ⟨"poly_api_key", session.credentials.key, true⟩,
      ⟨"poly_passphrase", session.credentials.passphrase, true⟩,
      ⟨"poly_signature", signature, true⟩,
      ⟨"poly_timestamp", toString timestamp, false⟩]

/-- The request of a read: it is for the canonical host, and its query reads back as the filters. -/
structure Requests.OwnedRead.IsRequest (request : HttpRequest) : Prop where
  canonical : request.url.Canonical
  path : request.url.path = read.path
  query : FormUrlEncoded.parse (request.url.query.getD "").toList =
    filterPairs (read.filters crates.toQueryCrates signatureType)
  signed : read.Signed crates session now request

end

section

variable {crates : HttpCrates} {session : AuthenticatedSession} {accountAddress : Address}
  {signatureType : Sdk.SignatureType} {read : OwnedRead} {now : Option ℤ}

/-- The URL of a request is that of the session, with the target of the read. -/
theorem url_httpRequest (hcrates : crates.Lawful) (hhost : session.host.Canonical)
    {path : String} {query : Option String} (headers : Option (List Header))
    (h : read.target crates.toQueryCrates signatureType = .ok (path, query)) :
    (httpRequest crates session.host path query headers).url =
      { session.host with path := read.path, query := query.filter (!·.isEmpty) } := by
  obtain ⟨hvalid, rfl⟩ := OwnedRead.target_eq_ok h
  rw [httpRequest, hcrates.setPath (host_isSome hhost) (plainPath hvalid),
    hcrates.setQuery (textChar_query hcrates.query h)]

theorem isRequest_httpRequest (hcrates : crates.Lawful) (hhost : session.host.Canonical)
    {path : String} {query : Option String} {headers : Option (List Header)}
    (h : read.target crates.toQueryCrates signatureType = .ok (path, query))
    (hsigned : read.Signed crates session now
      (httpRequest crates session.host path query headers)) :
    read.IsRequest crates session signatureType now
      (httpRequest crates session.host path query headers) := by
  have hurl := url_httpRequest hcrates hhost headers h
  have hreads := OwnedRead.target_reads hcrates.query h
  have hfilter : (query.filter (!·.isEmpty)).getD "" = query.getD "" := by
    cases query with
    | none => rfl
    | some text =>
      by_cases htext : text = ""
      · subst htext
        rfl
      · rw [Option.filter_some, if_pos (by simp [htext])]
  refine ⟨?_, by rw [hurl], ?_, hsigned⟩
  · rw [hurl]
    exact ⟨hhost.scheme, hhost.host, hhost.port, hhost.username, hhost.password, hhost.fragment⟩
  · rw [hurl]
    dsimp only
    rw [hfilter, hreads.pairs]

/-- A signed read is sent with headers of one time, or not at all. -/
theorem get_cases {http : AuthenticatedHttpClient} {endpoint : AuthenticatedEndpoint}
    {path : String} {query : Option String} {replies : ℕ → HttpReply}
    (hhost : session.host.authenticatedClobEndpointIsSafe false = true) :
    (∃ timestamp ∈ now, ∃ headers,
      l2Headers crates session.address session.credentials timestamp path = some headers ∧
      http.get crates false session endpoint path query now replies =
        http.send crates session endpoint path query (some headers) replies) ∨
    (∀ timestamp ∈ now,
      l2Headers crates session.address session.credentials timestamp path = none) ∧
      http.get crates false session endpoint path query now replies =
        refuse (requestFailed endpoint) := by
  unfold AuthenticatedHttpClient.get
  rw [if_pos hhost]
  cases now with
  | none =>
    refine .inr ⟨?_, rfl⟩
    rintro _ ⟨⟩
  | some timestamp =>
    cases hheaders : l2Headers crates session.address session.credentials timestamp path with
    | none =>
      refine .inr ⟨?_, by dsimp only; rw [hheaders]⟩
      rintro _ ⟨rfl⟩
      exact hheaders
    | some headers =>
      exact .inl ⟨timestamp, rfl, headers, hheaders, by dsimp only; rw [hheaders]⟩

/-- Nothing is sent to another host. -/
theorem refuse_of_host {http : AuthenticatedHttpClient} {endpoint : AuthenticatedEndpoint}
    {path : String} {query : Option String} {replies : ℕ → HttpReply}
    (hhost : session.host.authenticatedClobEndpointIsSafe false ≠ true) :
    http.get crates false session endpoint path query now replies =
        refuse (requestFailed endpoint) ∧
      http.getPublic crates false session endpoint path replies =
        refuse (requestFailed endpoint) := by
  unfold AuthenticatedHttpClient.get AuthenticatedHttpClient.getPublic
  exact ⟨if_neg hhost, if_neg hhost⟩

end

/-- A permitted read sends one request until a reply delivers or no attempt is left; any other
    read sends nothing. -/
theorem owned_read_exchange {crates : HttpCrates} (hcrates : crates.Lawful)
    (http : AuthenticatedHttpClient) (session : AuthenticatedSession) (accountAddress : Address)
    (signatureType : Sdk.SignatureType) (read : OwnedRead) (now : Option ℤ)
    (replies : ℕ → HttpReply) :
    (read.Permitted crates session accountAddress signatureType now ∧
      ∃ request, read.IsRequest crates session signatureType now request ∧
        Attempts read.endpoint http.maxAttempts request replies
          (read.perform crates false http session accountAddress signatureType now replies)) ∨
    (¬ read.Permitted crates session accountAddress signatureType now ∧
      ∃ error, read.perform crates false http session accountAddress signatureType now replies =
        refuse error) := by
  by_cases hidentity : read.endpoint = .balanceAllowance →
    identityIsExact session accountAddress signatureType = true
  swap
  · refine .inr ⟨fun h => hidentity h.identity, requestFailed .balanceAllowance, ?_⟩
    obtain ⟨hendpoint, hexact⟩ := Classical.not_imp.1 hidentity
    rw [OwnedRead.perform, if_pos (by simp [hendpoint, hexact])]
  have hperform : ¬ (decide (read.endpoint = .balanceAllowance) &&
      !identityIsExact session accountAddress signatureType) = true := by
    simpa using hidentity
  rw [OwnedRead.perform, if_neg hperform]
  cases htarget : read.target crates.toQueryCrates signatureType with
  | error error =>
    refine .inr ⟨fun h => ?_, error, rfl⟩
    obtain ⟨query, hquery⟩ := OwnedRead.exists_target h.valid
    rw [hquery] at htarget
    cases htarget
  | ok target =>
    obtain ⟨path, query⟩ := target
    obtain ⟨hvalid, rfl⟩ := OwnedRead.target_eq_ok htarget
    dsimp only
    by_cases hhost : session.host.authenticatedClobEndpointIsSafe false = true
    swap
    · obtain ⟨hget, hpublic⟩ := refuse_of_host hhost
      refine .inr ⟨fun h => hhost h.host, requestFailed read.endpoint, ?_⟩
      rw [hget, hpublic, ite_self]
    have hcanonical := Url.canonical_of_safe hhost
    by_cases hpublic : read = .protocolVersion
    · subst hpublic
      cases htarget
      rw [if_pos rfl, AuthenticatedHttpClient.getPublic, if_pos hhost]
      refine .inl ⟨⟨hhost, hvalid, hidentity, fun h => absurd rfl h⟩, _, ?_, attempts_send ..⟩
      exact isRequest_httpRequest hcrates hcanonical rfl ⟨fun _ => rfl, fun h => absurd rfl h⟩
    · rw [if_neg hpublic]
      rcases get_cases hhost with ⟨timestamp, hnow, headers, hheaders, hget⟩ | ⟨hnone, hget⟩
      · obtain ⟨signature, hsignature, rfl⟩ := l2Headers_eq_some hheaders
        have hsome := Option.isSome_of_eq_some hheaders
        rw [hget]
        refine .inl ⟨⟨hhost, hvalid, hidentity, fun _ => ⟨timestamp, hnow, hsome⟩⟩, _, ?_,
          attempts_send ..⟩
        exact isRequest_httpRequest hcrates hcanonical htarget
          ⟨fun h => absurd h hpublic, fun _ => ⟨timestamp, hnow, signature, hsignature, rfl⟩⟩
      · rw [hget]
        refine .inr ⟨fun h => ?_, _, rfl⟩
        obtain ⟨timestamp, hnow, hsome⟩ := h.headers hpublic
        rw [hnone timestamp hnow] at hsome
        cases hsome

/-! ## A sample exchange -/

def HttpCrates.sample : HttpCrates where
  toQueryCrates := .sample
  headerValue text := text.toList.all fun c => 32 ≤ c.toNat && c.toNat < 127 || c = '\t'
  hmac secret text :=
    if secret = "c2FtcGxlIHNlY3JldA==" && text = "1754611200GET/data/trades" then
      some "c0pSjnEwmFYU3Nx9aVZAbX88rUAX0hAgh4HxbIEG2vQ="
    else none
  setPath url path := { url with path }
  setQuery url query := { url with query }

theorem HttpCrates.lawful_sample : sample.Lawful where
  query := QueryCrates.lawful_sample
  setPath _ _ := rfl
  setQuery _ := rfl

def AuthenticatedSession.sample : AuthenticatedSession where
  host := ⟨"https", "", none, some (.domain Url.clobDomain), none, "/", none, none⟩
  address := 7
  credentials := ⟨"00000000-0000-0000-0000-000000000001", "c2FtcGxlIHNlY3JldA==", "passphrase"⟩

/-- The venue is not available, and then answers in two chunks. -/
def HttpReply.sample : ℕ → HttpReply
  | 0 => .answered 503 none []
  | _ => .answered 200 (some 2) [some [0x7b], some [0x7d]]

theorem owned_read_exchange_retried :
    (sampleRead.perform .sample false ⟨2⟩ .sample 7 .eoa (some 1754611200) HttpReply.sample).2 =
      .ok [0x7b, 0x7d] ∧
    ∃ request, sampleRead.IsRequest .sample .sample .eoa (some 1754611200) request ∧
      Attempts .trades 2 request HttpReply.sample
        (sampleRead.perform .sample false ⟨2⟩ .sample 7 .eoa (some 1754611200)
          HttpReply.sample) := by
  have hok : (sampleRead.perform .sample false ⟨2⟩ .sample 7 .eoa (some 1754611200)
      HttpReply.sample).2 = .ok [0x7b, 0x7d] := by
    decide +kernel
  rcases owned_read_exchange HttpCrates.lawful_sample ⟨2⟩ .sample 7 .eoa sampleRead
    (some 1754611200) HttpReply.sample with ⟨-, hsent⟩ | ⟨-, error, hrefused⟩
  · exact ⟨hok, hsent⟩
  · rw [hrefused] at hok
    cases hok

end Rspm
