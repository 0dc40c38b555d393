import CachingProxy.Exchange.Body

/-!
# Outlets

An outlet feeds a stream without ever waiting: chunks that its channel has no room for are queued,
and sent in order once there is room.
-/

set_option autoImplicit false

namespace CachingProxy

structure Outlet where
  queue : List Bytes := []
  closing : Bool := false
  deriving DecidableEq

namespace Outlet

/-- The outlet and the stream after a chunk was pushed; no outlet if the stream was dropped. -/
def push (outlet : Outlet) (body : Body) (chunk : Bytes) : Option Outlet × Body :=
  match outlet.queue with
  | _ :: _ => (some { outlet with queue := outlet.queue ++ [chunk] }, body)
  | [] =>
      match body.trySend chunk with
      | (.accepted, body) => (some outlet, body)
      | (.full, body) => (some { outlet with queue := [chunk] }, body)
      | (.closed, body) => (none, body)

def drainQueue : List Bytes → Body → Option (List Bytes) × Body
  | [], body => (some [], body)
  | chunk :: rest, body =>
      match body.trySend chunk with
      | (.accepted, body) => drainQueue rest body
      | (.full, body) => (some (chunk :: rest), body)
      | (.closed, body) => (none, body)

def drain (outlet : Outlet) (body : Body) : Option Outlet × Body :=
  let (queue, body) := drainQueue outlet.queue body
  (queue.map fun queue => { outlet with queue }, body)

def isBlocked (outlet : Outlet) : Bool := !outlet.queue.isEmpty

def isFinished (outlet : Outlet) : Bool := outlet.closing && outlet.queue.isEmpty

end Outlet

end CachingProxy
