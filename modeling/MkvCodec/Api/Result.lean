import Mathlib.Algebra.Ring.Int.Defs
import Mathlib.Algebra.Ring.Nat
import Mathlib.Data.Nat.Basic

/-!
# Result codes

The result codes of the C ABI. A call returns a code and leaves a diagnostic text, here together as a
`Status`.
-/

namespace MkvCodec

/-- `mkvc_result`. -/
inductive Result
  | ok
  | errorInvalidArgument
  | errorBufferTooSmall
  | errorNotSupported
  | errorInternal
  | errorInvalidState
  | errorIo
  | errorCodec
  | endOfStream
  | wouldBlock
  | errorTimeout
  | errorCancelled
  deriving DecidableEq, Repr

namespace Result

theorem errorNotSupported_ne_ok : errorNotSupported ≠ ok := by simp

theorem errorInvalidState_ne_ok : errorInvalidState ≠ ok := by simp

theorem errorIo_ne_ok : errorIo ≠ ok := by simp

theorem errorCodec_ne_ok : errorCodec ≠ ok := by simp

theorem endOfStream_ne_ok : endOfStream ≠ ok := by simp

end Result

/-- An error in the sense of the C ABI, which reports `END_OF_STREAM` and `WOULD_BLOCK` without a
diagnostic. -/
def Result.isError : Result → Bool
  | .ok | .endOfStream | .wouldBlock => false
  | _ => true

structure Status where
  result : Result
  error : String
  deriving DecidableEq, Repr

def Status.ok : Status := ⟨.ok, ""⟩

@[simp] theorem Status.ok_result : Status.ok.result = .ok := rfl

/-- What the C ABI reports of a status: `fail` stores the diagnostic of a result other than OK. -/
def Status.reported (status : Status) : Status := if status.result = .ok then .ok else status

/-- How a call into a backend ends: it returns a result, or it throws. A thrown `std::exception` carries a
text, any other thrown object does not. -/
inductive CallEnd
  | returned (status : Status)
  | threw (what : Option String)
  deriving DecidableEq, Repr

/-- `guard` of the C ABI: an exception becomes `ERROR_INTERNAL`. -/
def guard (unknownMessage : String) (what : Option String) : Status :=
  ⟨.errorInternal, what.getD unknownMessage⟩

end MkvCodec
