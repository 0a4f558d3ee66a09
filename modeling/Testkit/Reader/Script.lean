import Testkit.Bytes

/-! Sources of bytes that are read piece by piece, and what each read of them gives. -/

namespace Testkit

inductive ScriptItem where
  /-- Handed out as fast as the reads ask for it. No data at all is the end of the input. -/
  | data (b : Bytes)
  | interrupted
  | error (message : String)
  /-- The read waits until it is released, and then goes on with the next item. -/
  | stall
deriving DecidableEq, Repr, Inhabited

abbrev Script := List ScriptItem

inductive ReadResult where
  | chunk (b : Bytes) (rest : Script)
  | ended
  | interrupted (rest : Script)
  | failed (message : String)
  | stalled (rest : Script)
deriving DecidableEq, Repr

namespace Script

/-- One read of at most `limit` bytes. It never takes from two items. -/
def read (limit : Nat) : Script → ReadResult
  | [] => .ended
  | .data [] :: _ => .ended
  | .data (b :: bs) :: rest =>
    let left := (b :: bs).drop limit
    .chunk ((b :: bs).take limit) (if left.isEmpty then rest else .data left :: rest)
  | .interrupted :: rest => .interrupted rest
  | .error message :: _ => .failed message
  | .stall :: rest => .stalled rest

/-- All bytes before the end of the input, be it an error. -/
def input : Script → Bytes
  | [] => []
  | .data [] :: _ => []
  | .data (b :: bs) :: rest => (b :: bs) ++ input rest
  | .interrupted :: rest => input rest
  | .error _ :: _ => []
  | .stall :: rest => input rest

def size : Script → Nat
  | [] => 0
  | .data b :: rest => b.length + 1 + size rest
  | _ :: rest => 1 + size rest

end Script

end Testkit
