import QueryLanes.Wire.Describe

/-!
# Failures

What can go wrong for a caller of the client, and how it is worded. A `Violation` is what a server
did against the protocol, a `Misconfiguration` what a caller asked for that makes no sense; both
become the detail of a `Failure`.
-/

namespace QueryLanes

inductive Failure where
  | connectionClosed
  | timeout
  | protocolViolation (detail : String)
  | invalidConfiguration (detail : String)
  | sessionClosed
  | transactionClosed
  /-- The server refused the request. -/
  | server (description : String)
  | connect (detail : String)
  /-- An answer is not what its reader takes. -/
  | decode (detail : String)
deriving DecidableEq, Repr

namespace Failure

def message : Failure → String
  | connectionClosed => "connection closed"
  | timeout => "timed out waiting for a response; the request is still outstanding"
  | protocolViolation detail => "protocol violation: " ++ detail
  | invalidConfiguration detail => "invalid configuration: " ++ detail
  | sessionClosed => "session closed"
  | transactionClosed => "transaction closed"
  | server description => "server error: " ++ description
  | connect detail => "failed to connect: " ++ detail
  | decode detail => "failed to decode answer: " ++ detail

/-- The failure as diagnoses show it. -/
def describe : Failure → String
  | connectionClosed => "ConnectionClosed"
  | timeout => "Timeout"
  | protocolViolation detail => Describe.wrapped "ProtocolViolation" (Text.quote detail)
  | invalidConfiguration detail => Describe.wrapped "InvalidConfiguration" (Text.quote detail)
  | sessionClosed => "SessionClosed"
  | transactionClosed => "TransactionClosed"
  | server description => Describe.wrapped "Server" (Text.quote description)
  | connect detail => Describe.wrapped "Connect" (Text.quote detail)
  | decode detail => Describe.wrapped "Decode" (Text.quote detail)

/-- Whether waiting again on the same request may still succeed. -/
def isRecoverable : Failure → Bool
  | timeout => true
  | _ => false

end Failure

/-- What a server did against the protocol. -/
inductive Violation where
  | noSession (got : Response)
  | noTransaction (got : Response)
  | noAcknowledgement (got : Response)
  /-- A query was answered by something other than an item. -/
  | noItem (got : Response)
  | malformedItem
deriving DecidableEq, Repr

def Violation.detail : Violation → String
  | noSession got => "expected a session id, got " ++ Describe.response got
  | noTransaction got => "expected a transaction id, got " ++ Describe.response got
  | noAcknowledgement got => "expected an acknowledgement, got " ++ Describe.response got
  | noItem got => "unexpected response to an iterator request: " ++ Describe.response got
  | malformedItem =>
    "iterator response carries neither exactly one answer, continuation or completion"

def Failure.violation (v : Violation) : Failure := .protocolViolation v.detail

/-- What a caller asked for that no request can carry. -/
inductive Misconfiguration where
  | batchSizeNotPositive (n : Int)
  | batchSizeTooLarge (n : Int)
  | noOutboundCapacity
deriving DecidableEq, Repr

def Misconfiguration.detail : Misconfiguration → String
  | batchSizeNotPositive n => "batch size must be a positive integer, was " ++ Numeral.renderInt n
  | batchSizeTooLarge n =>
    "batch size " ++ Numeral.renderInt n ++ " exceeds " ++ Numeral.render (UInt32.size - 1)
  | noOutboundCapacity => "outbound capacity must be at least 1"

def Failure.misconfiguration (m : Misconfiguration) : Failure := .invalidConfiguration m.detail

end QueryLanes
