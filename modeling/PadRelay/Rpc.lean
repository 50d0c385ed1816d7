/-!
This module contains the failures of remote calls: a code from a closed list and a message.
-/

namespace PadRelay

inductive RpcCode where
  | ok
  | cancelled
  | unknown
  | invalidArgument
  | deadlineExceeded
  | notFound
  | alreadyExists
  | permissionDenied
  | resourceExhausted
  | failedPrecondition
  | aborted
  | outOfRange
  | unimplemented
  | internal
  | unavailable
  | dataLoss
  | unauthenticated
deriving DecidableEq, Repr, Inhabited

namespace RpcCode

def all : List RpcCode :=
  [ok, cancelled, unknown, invalidArgument, deadlineExceeded, notFound, alreadyExists,
    permissionDenied, resourceExhausted, failedPrecondition, aborted, outOfRange, unimplemented,
    internal, unavailable, dataLoss, unauthenticated]

/--
The code with the given number, where every number without a code reads as `unknown`.
-/
def ofNumber (n : Int) : RpcCode :=
  if n < 0 then unknown else all[n.toNat]?.getD unknown

def label : RpcCode → String
  | ok => "Ok"
  | cancelled => "Cancelled"
  | unknown => "Unknown"
  | invalidArgument => "InvalidArgument"
  | deadlineExceeded => "DeadlineExceeded"
  | notFound => "NotFound"
  | alreadyExists => "AlreadyExists"
  | permissionDenied => "PermissionDenied"
  | resourceExhausted => "ResourceExhausted"
  | failedPrecondition => "FailedPrecondition"
  | aborted => "Aborted"
  | outOfRange => "OutOfRange"
  | unimplemented => "Unimplemented"
  | internal => "Internal"
  | unavailable => "Unavailable"
  | dataLoss => "DataLoss"
  | unauthenticated => "Unauthenticated"

end RpcCode

structure RpcFailure where
  code : RpcCode
  message : String := ""
deriving DecidableEq, Repr, Inhabited

namespace RpcFailure

def text (f : RpcFailure) : String :=
  s!"{f.code.label}: {f.message}"

def streamEnded : RpcFailure :=
  ⟨.unavailable, "event stream closed by server"⟩

def streamNotOpen : RpcFailure :=
  ⟨.failedPrecondition, "event stream not open"⟩

end RpcFailure
end PadRelay
