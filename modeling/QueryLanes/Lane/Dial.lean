import QueryLanes.Failure
import QueryLanes.Text.Numeral

/-!
# Dialling

An address may stand for several places to connect to. They are tried in order until one answers;
if none does, the last refusal is the failure.
-/

namespace QueryLanes

/-- Why an address names no place to connect to. -/
inductive AddressFault where
  | noPort
  | badPort
deriving DecidableEq, Repr

def AddressFault.message : AddressFault → String
  | noPort => "invalid socket address"
  | badPort => "invalid port value"

/-- An address is a host and a port, with the last colon between them. A host that holds colons
itself may stand in brackets. -/
def splitAddress (address : String) : Except AddressFault (String × UInt16) :=
  let (port, host) := address.toList.reverse.span (· != ':')
  match host with
  | [] => .error .noPort
  | _ :: host =>
    match Numeral.read (UInt16.size - 1) (String.ofList port.reverse) with
    | .ok n => .ok (String.ofList (host.reverse.filter fun c => c != '[' && c != ']'), UInt16.ofNat n)
    | .error _ => .error .badPort

/-- What becomes of a connection, given what each place would say. An address that stands for no
place is worded by the one who dials with a bound, and by the resolver otherwise. -/
def dial {σ : Type} (bounded : Bool) (attempts : List (Except String σ)) : Except Failure σ :=
  match attempts.findSome? (fun a => a.toOption) with
  | some connected => .ok connected
  | none =>
    match attempts.getLast? with
    | some (.error refusal) => .error (.connect refusal)
    | _ =>
      .error (.connect
        (if bounded then "address resolved to nothing" else "could not resolve to any addresses"))

end QueryLanes
