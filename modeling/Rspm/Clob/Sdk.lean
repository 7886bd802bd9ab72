/-
  The client library below the crate: its errors, and what it makes of the
  reply to a request.

  An error keeps a closed class of the reply's text only
  (`redactedStatusMessage`).  `PostReply` is one exchange with the venue;
  `postOrderInitial` is what the library returns for it.
-/
import Rspm.Ws.State

namespace Rspm

/-! ## Texts -/

/-- `to_ascii_lowercase`. -/
def asciiLowercase (text : String) : String := text.map Char.toLower

/-- `find`: the text from the first place where `needle` stands. -/
def findText (needle : String) (text : List Char) : Option (List Char) :=
  text.tails.find? (needle.toList.isPrefixOf ·)

/-- `White_Space`, the characters that `trim` removes. -/
def isWhitespace (c : Char) : Bool :=
  9 ≤ c.toNat && c.toNat ≤ 13 || c.toNat = 0x20 || c.toNat = 0x85 || c.toNat = 0xA0 ||
    c.toNat = 0x1680 || 0x2000 ≤ c.toNat && c.toNat ≤ 0x200A || c.toNat = 0x2028 ||
    c.toNat = 0x2029 || c.toNat = 0x202F || c.toNat = 0x205F || c.toNat = 0x3000

/-- `contains`. -/
def containsText (text needle : String) : Bool := (findText needle text.toList).isSome

/-- The number of the first run of digits, saturated. -/
def firstNumber (text : List Char) : Option ℕ :=
  match (text.dropWhile (!·.isDigit)).takeWhile Char.isDigit with
  | [] => none
  | digits => some (digits.foldl (fun value byte =>
      min (min (value * 10) u64Max + (byte.toNat - '0'.toNat)) u64Max) 0)

/-! ## Errors -/

/-- `Kind`. -/
inductive ErrorKind where
  | status | validation | synchronization | internal | webSocket | geoblock
deriving DecidableEq

structure Status where
  statusCode : ℕ
  message : String
deriving DecidableEq

/-- What `downcast_ref` finds in an error. -/
inductive ErrorSource where
  | status (status : Status)
  | validation (reason : String)
  | other
deriving DecidableEq

structure SdkError where
  kind : ErrorKind
  source : Option ErrorSource
deriving DecidableEq

def isServerError (statusCode : ℕ) : Bool := 500 ≤ statusCode && statusCode < 600

def isSuccess (statusCode : ℕ) : Bool := 200 ≤ statusCode && statusCode < 300

def tooManyRequests : ℕ := 429

def boundedRetryAfterSeconds (raw : String) : Option ℕ := do
  let tail ← findText "retry_after" raw.toList <|> findText "retry-after" raw.toList
  let value ← firstNumber tail
  return min value 86400

def redactedStatusMessage (statusCode : ℕ) (raw : String) : String :=
  let normalized := asciiLowercase raw
  if containsText normalized "order_version_mismatch" then "order_version_mismatch"
  else if containsText normalized "not enough balance / allowance" &&
      containsText normalized "balance: 0" then "balance_allowance_authority"
  else if containsText normalized "no orders" ||
      containsText normalized "fak" && containsText normalized "match" then "no_match"
  else if statusCode = tooManyRequests then
    match boundedRetryAfterSeconds normalized with
    | some seconds => "retry_after=" ++ toString seconds
    | none => "rate_limited"
  else "redacted"

namespace SdkError

def status (statusCode : ℕ) (message : String) : SdkError where
  kind := .status
  source := some (.status ⟨statusCode, redactedStatusMessage statusCode message⟩)

/-- The transport and the decoder fail with an internal error. -/
def internal : SdkError := ⟨.internal, some .other⟩

/-- `downcast_ref::<Status>`. -/
def statusSource (error : SdkError) : Option Status :=
  match error.source with
  | some (.status status) => some status
  | _ => none

/-- `downcast_ref::<Validation>`. -/
def validationReason (error : SdkError) : Option String :=
  match error.source with
  | some (.validation reason) => some reason
  | _ => none

end SdkError

/-! ## The reply to an order -/

structure PostOrderResponse where
  orderId : String
  success : Bool
deriving DecidableEq

/-- What came of one exchange with the venue. -/
inductive PostReply where
  /-- the request or its headers could not be built, nothing was sent -/
  | unsent (error : SdkError)
  /-- the request was sent and no reply could be read -/
  | transport
  /-- a reply; `body` is what its text decodes to, `some none` for `null` -/
  | answered (statusCode : ℕ) (text : String) (body : Option (Option PostOrderResponse))
deriving DecidableEq

/-- `request`, for `post_order_initial`. -/
def PostReply.postOrderInitial : PostReply → Except SdkError PostOrderResponse
  | .unsent error => .error error
  | .transport => .error .internal
  | .answered statusCode text body =>
    if isSuccess statusCode then
      match body with
      | none => .error .internal
      | some (some response) => .ok response
      | some none => .error (.status 404 "Unable to find requested resource")
    else .error (.status statusCode text)

end Rspm
