import PackageRisk.Failure
import PackageRisk.Files.Tree
import PackageRisk.Json.Reader
import PackageRisk.Web.Url

/-!
# Exchanges with web services

A network answers requests; it is a function, so equal requests have equal answers. An answer is a
status with a body, or the reason why there is none. Here are the wordings of transport failures
and of statuses, and the reading of JSON bodies.
-/

namespace PackageRisk

/-- What is sent: an address, with a JSON body when something is posted. -/
structure Request where
  url : Url
  posted : Option Json.Value := none

/-- The request line without the protocol version. -/
def Request.line (r : Request) : String :=
  (if r.posted.isSome then "POST " else "GET ") ++ r.url.target

/-- Why a request had no answer. -/
inductive TransportFault where
  /-- Nobody listens. -/
  | refused
  /-- The connection was closed without an answer. -/
  | dropped
  /-- Too many redirections; the address of the last one. -/
  | redirected (url : String)
  deriving DecidableEq, Repr

/-- A member of an archive. -/
inductive ArchiveEntry where
  | file (path : String) (content : ByteArray)
  | directory (path : String)
  | symbolicLink (path target : String)
  | hardLink (path target : String)

/-- The path of an archive member as the archive writes it. -/
def ArchiveEntry.path : ArchiveEntry → String
  | file path _ | directory path | symbolicLink path _ | hardLink path _ => path

/-- What a body holds. -/
inductive Body where
  | bytes (content : ByteArray)
  | archive (entries : List ArchiveEntry)
  /-- The body ended before its announced length. -/
  | truncated

/-- An answer, after redirections. -/
structure Response where
  status : Nat
  body : Body

/-- A network: the answer to each request. -/
abbrev Network := Request → Except TransportFault Response

/-- The customary reason phrases of statuses. -/
def reasonPhrase? (status : Nat) : Option String :=
  match status with
  | 100 => "Continue"
  | 101 => "Switching Protocols"
  | 102 => "Processing"
  | 200 => "OK"
  | 201 => "Created"
  | 202 => "Accepted"
  | 203 => "Non Authoritative Information"
  | 204 => "No Content"
  | 205 => "Reset Content"
  | 206 => "Partial Content"
  | 207 => "Multi-Status"
  | 208 => "Already Reported"
  | 226 => "IM Used"
  | 300 => "Multiple Choices"
  | 301 => "Moved Permanently"
  | 302 => "Found"
  | 303 => "See Other"
  | 304 => "Not Modified"
  | 305 => "Use Proxy"
  | 307 => "Temporary Redirect"
  | 308 => "Permanent Redirect"
  | 400 => "Bad Request"
  | 401 => "Unauthorized"
  | 402 => "Payment Required"
  | 403 => "Forbidden"
  | 404 => "Not Found"
  | 405 => "Method Not Allowed"
  | 406 => "Not Acceptable"
  | 407 => "Proxy Authentication Required"
  | 408 => "Request Timeout"
  | 409 => "Conflict"
  | 410 => "Gone"
  | 411 => "Length Required"
  | 412 => "Precondition Failed"
  | 413 => "Payload Too Large"
  | 414 => "URI Too Long"
  | 415 => "Unsupported Media Type"
  | 416 => "Range Not Satisfiable"
  | 417 => "Expectation Failed"
  | 418 => "I'm a teapot"
  | 421 => "Misdirected Request"
  | 422 => "Unprocessable Entity"
  | 423 => "Locked"
  | 424 => "Failed Dependency"
  | 425 => "Too Early"
  | 426 => "Upgrade Required"
  | 428 => "Precondition Required"
  | 429 => "Too Many Requests"
  | 431 => "Request Header Fields Too Large"
  | 451 => "Unavailable For Legal Reasons"
  | 500 => "Internal Server Error"
  | 501 => "Not Implemented"
  | 502 => "Bad Gateway"
  | 503 => "Service Unavailable"
  | 504 => "Gateway Timeout"
  | 505 => "HTTP Version Not Supported"
  | 506 => "Variant Also Negotiates"
  | 507 => "Insufficient Storage"
  | 508 => "Loop Detected"
  | 510 => "Not Extended"
  | 511 => "Network Authentication Required"
  | _ => none

/-- A status with its reason phrase. -/
def statusText (status : Nat) : String :=
  toString status ++ " " ++ (reasonPhrase? status).getD "<unknown status code>"

/-- The answer counts as a success. -/
def Response.isSuccess (r : Response) : Bool :=
  200 ≤ r.status && r.status < 300

/-- Why an exchange failed before there was an answer: what happened, the address concerned and
the kinds of the fault. -/
structure ExchangeFault where
  summary : String
  url : String
  kinds : String
  deriving DecidableEq, Repr

namespace ExchangeFault

/-- The fault of an address that cannot be requested. -/
def ofUrlError (raw : String) : UrlError → ExchangeFault
  | .malformed => ⟨"builder error", raw, "unknown"⟩
  | .unsupported url => ⟨"builder error for url (" ++ url ++ ")", url, "unknown"⟩

/-- The fault of a request without an answer. -/
def ofTransport (url : Url) : TransportFault → ExchangeFault
  | .refused =>
    ⟨"error sending request for url (" ++ url.display ++ ")", url.display, "connect,request"⟩
  | .dropped => ⟨"error sending request for url (" ++ url.display ++ ")", url.display, "request"⟩
  | .redirected last => ⟨"error following redirect for url (" ++ last ++ ")", last, "redirect"⟩

/-- A body that ended too early. -/
def truncatedBody (url : Url) : ExchangeFault :=
  ⟨"error decoding response body", url.display, "decode"⟩

/-- The failure with an account of the fault. -/
def detailed (context : String) (fault : ExchangeFault) : Failure :=
  .network (context ++ ": " ++ fault.summary ++ " (request_url=" ++ fault.url ++ "; kinds=" ++
    fault.kinds ++ ")")

/-- The failure with only what happened. -/
def brief (context : String) (fault : ExchangeFault) : Failure :=
  .network (context ++ ": " ++ fault.summary)

end ExchangeFault

/-- Send a request to an address given as text. -/
def exchange (network : Network) (address : String) (posted : Option Json.Value) :
    Except ExchangeFault (Url × Response) :=
  match Url.parse address with
  | .error e => .error (.ofUrlError address e)
  | .ok url =>
    match network ⟨url, posted⟩ with
    | .error fault => .error (.ofTransport url fault)
    | .ok response => .ok (url, response)

/-- A status that is no success. -/
def statusFailure (service : String) (status : Nat) : Failure :=
  .network (service ++ " returned status " ++ statusText status)

/-- A body that is not what was expected. -/
def decodeFailure (service : String) : Failure :=
  .invalidScanResult
    ("failed to parse " ++ service ++ " response JSON: error decoding response body")

/-- The JSON value of a body. -/
def Body.json? : Body → Option Json.Value
  | .bytes content => Json.parseBytes? content
  | _ => none

/-- Read a body of a known type. -/
def Response.decode {α : Type} (r : Response) (service : String)
    (read : Json.Value → Option α) : Except Failure α :=
  match r.body.json?.bind read with
  | some a => .ok a
  | none => .error (decodeFailure service)

end PackageRisk
