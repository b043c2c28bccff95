import Floodgate.MessageQueues
import Floodgate.RdmaHw

/-! A queue pair in `qp_mode` with its handlers, the receivers of its messages and a network between
them that loses, duplicates and reorders. -/

namespace Floodgate

open Outcome LabelledRun

/-- The sender, a receiver for each source port, every packet and acknowledgement ever sent and the
requests so far with their objects. -/
structure MessageFlow where
  now : Nat
  qp : RdmaQueuePair
  rx : Nat → RdmaRxQueuePair
  data : List DataPacket
  acks : List AckPacket
  added : List (Nat × MessageRequest)

inductive MessageEvent where
  | add (id : Nat) (request : MessageRequest)
  | send (p : DataPacket)
  | data (p : DataPacket)
  | ack (a : AckPacket)
  | timeout
  | pace (rate : Nat)
  | wait (later : Nat)

namespace RdmaHw

def newQueuePair (g : RdmaSettings) (id : Nat) (operation : RdmaOperation) : RdmaQueuePair :=
  let q := (RdmaQueuePair.empty g).addRdmaOperation g id operation
  { q with pacing := { q.pacing with rate := g.initial.rate, maxRate := g.initial.maxRate } }

end RdmaHw

namespace MessageFlow

def create (g : RdmaSettings) (id : Nat) (request : MessageRequest) : MessageFlow where
  now := 0
  qp := RdmaHw.newQueuePair g id (request.operation 0)
  rx := fun _ => RdmaRxQueuePair.init
  data := []
  acks := []
  added := [(id, request)]

/-- One handler. Numbers increase from message to message; whatever has been sent may arrive at any
time, any number of times or never. -/
inductive Step (g : RdmaSettings) (s : MessageFlow) : MessageEvent → MessageFlow → Prop
  | add {id : Nat} {request : MessageRequest}
      (fresh : ∀ m ∈ s.added, m.1 ≠ id ∧ m.2.msgSeq < request.msgSeq) :
      Step g s (.add id request)
        { s with
          qp := s.qp.addRdmaOperation g id (request.operation s.now)
          added := s.added ++ [(id, request)] }
  | send {p : DataPacket} {qp : RdmaQueuePair} (left : 0 < s.qp.getBytesLeft g)
      (room : s.qp.isWinBound g = .ok false)
      (next : RdmaHw.getNxtPacket g s.now s.qp = .ok (p, qp)) :
      Step g s (.send p) { s with qp := qp, data := s.data ++ [p] }
  | data {p : DataPacket} (sent : p ∈ s.data) :
      Step g s (.data p)
        { s with
          rx := fun sport =>
            if sport = p.sport then (RdmaHw.receiveUdp g s.now (s.rx sport) p).2 else s.rx sport
          acks := s.acks ++ (RdmaHw.receiveUdp g s.now (s.rx p.sport) p).1.toList }
  | ack {a : AckPacket} {completion : Completion} {qp : RdmaQueuePair} (sent : a ∈ s.acks)
      (received : RdmaHw.receiveAck g s.now s.qp a = .ok (completion, qp)) :
      Step g s (.ack a) { s with qp := qp }
  | timeout (due : s.qp.eventTimeoutRetransmission = some s.now) :
      Step g s .timeout { s with qp := s.qp.recoverMSG g s.now }
  | pace (rate : Nat) :
      Step g s (.pace rate)
        { s with qp := { s.qp with pacing := { s.qp.pacing with rate := rate } } }
  | wait {later : Nat} (forward : s.now < later)
      (before : ∀ time, s.qp.eventTimeoutRetransmission = some time → later ≤ time) :
      Step g s (.wait later) { s with now := later }

end MessageFlow

end Floodgate
