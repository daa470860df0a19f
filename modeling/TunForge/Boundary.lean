import TunForge.Callbacks
import TunForge.Runs

/-! The boundary between lwIP and TunForge, for an lwIP of which only the raw API
contract is known: it calls back only on a pcb it has not freed, and frees a pcb
with or without the err callback before or after. -/
namespace TunForge.Boundary
open PbufChain LwipTypes Tcp Connection Callbacks

variable {P : Type} [RawApi P]

/-- One interaction across the boundary, or one event on the application's side of it. -/
inductive Action (P : Type)
  | lwip (f : P → P)
  | accept
  | recv (p : Pbuf)
  | closed
  | recvErr (p : Option Pbuf) (err : Err)
  | sent (len : ℕ)
  | poll
  | err (err : Err)
  | free
  | freeThenErr (gap : Bool)
  | app (e : AppEvent)

/-- What an action of lwIP does, given that the pcb exists. -/
def lwipAct (s : Sys P) : Action P → Sys P
  | .lwip f => { s with pcb := s.pcb.map f }
  | .accept => if s.hooks.arg = .stack then (tunforgeAccept s).1 else s
  | .recv p => (eventRecv p s).1
  | .closed => eventClosed s
  | .recvErr p err =>
    if s.hooks.recv = .tf ∧ err ≠ .ok then
      (tfTcpRecv s.hooks.arg p err (noteCall .recv s.hooks.arg s)).1 else s
  | .sent len => eventSent len s
  | .poll => eventPoll s
  | .err err => eventErr s.hooks err s
  | .free => tcpFree s
  | .freeThenErr gap => freeThenErr gap s
  | .app _ => s

def act (s : Sys P) : Action P → Sys P
  | .app e => appStep s e
  | a => if s.pcb.isSome then lwipAct s a else s

end TunForge.Boundary
