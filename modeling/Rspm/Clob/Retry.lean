/-
  The retry policy, and which errors it may retry.

  Durations are nanoseconds.
-/
import Rspm.Clob.Sdk

namespace Rspm

abbrev Duration := ℕ

namespace Duration

/-- `Duration::MAX`. -/
def maximum : Duration := (u64Max + 1) * 1000000000 - 1

def fromSecs (seconds : ℕ) : Duration := seconds * 1000000000

def fromMillis (millis : ℕ) : Duration := millis * 1000000

def saturatingMul (self : Duration) (factor : ℕ) : Duration := min (self * factor) maximum

end Duration

def u32Max : ℕ := 2 ^ 32 - 1

structure RetryPolicy where
  maxAttempts : ℕ
  baseBackoff : Duration
  maxBackoff : Duration

namespace RetryPolicy

/-- `RetryPolicy::default`, the policy of every submission. -/
def default : RetryPolicy := ⟨3, .fromMillis 250, .fromSecs 5⟩

variable (self : RetryPolicy)

def shouldRetry (attempt : ℕ) : Bool := attempt < self.maxAttempts

def backoffFor (attempt : ℕ) (retryAfter : Option Duration) : Duration :=
  match retryAfter with
  | some hint => min hint self.maxBackoff
  | none =>
    let exponent := attempt - 1
    let factor := min (2 ^ exponent) u32Max
    min (self.baseBackoff.saturatingMul factor) self.maxBackoff

end RetryPolicy

inductive RateLimitSignal where
  | notRateLimited
  | rateLimited (retryAfter : Option Duration)
deriving DecidableEq

def parseRetryAfterFromBody (body : String) : Option Duration := do
  let body := (asciiLowercase body).toList
  let tail ← findText "retry_after" body <|> findText "retry-after" body
  let value ← firstNumber tail
  return .fromSecs value

def classifyClobError (e : SdkError) : RateLimitSignal :=
  match e.statusSource with
  | none => .notRateLimited
  | some status =>
    if status.statusCode ≠ tooManyRequests then .notRateLimited
    else .rateLimited (parseRetryAfterFromBody status.message)

end Rspm
