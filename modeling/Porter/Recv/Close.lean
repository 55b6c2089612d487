import Porter.Recv.Peers
import Porter.Recv.Tcp

namespace Porter

-- The tcp_close_* fields of potr_context.
structure CloseWait where
  waitingAck : Bool
  ackReceived : Bool
  waitTargetSeq : UInt32
  ackSeq : UInt32
  deriving DecidableEq, Repr

namespace CloseWait

-- reset_tcp_close_wait
def reset : CloseWait := ⟨false, false, 0, 0⟩

-- begin_tcp_close_wait
def beginWait (finTargetSeq : UInt32) : CloseWait := ⟨true, false, finTargetSeq, 0⟩

-- thread_recv_fin_on_ack
def finOnAck (wait : CloseWait) (ackNum : UInt32) : CloseWait :=
  if wait.waitingAck && wait.waitTargetSeq = ackNum && !wait.ackReceived then
    { wait with ackReceived := true, ackSeq := ackNum }
  else wait

-- The condition of the loop in wait_for_tcp_close_ack.
def pending (wait : CloseWait) : Bool := wait.waitingAck && !wait.ackReceived

end CloseWait

-- A TCP service together with what a close of it waits for.
structure Closing where
  ctx : TcpCtx
  wait : CloseWait

-- The results potr_service_close can return, other than for its argument.
inductive CloseResult where
  | ok
  | timeout
  | disconnected
  | io
  | unknown
  deriving DecidableEq, Repr

-- How cplat_condvar_wait ends.
inductive WaitResult where
  | ok
  | timeout
  | error
  deriving DecidableEq, Repr

namespace Closing

open TcpCtx (Input)

-- Whether an input brings a FIN_ACK to tcp_handle_packet.
def acks (e : Env) (c : Closing) : Input → Option UInt32
  | .packet path pkt =>
      if c.ctx.running path && !c.ctx.refuses e pkt && pkt.has FLAG_FIN_ACK then some pkt.ackNum
      else none
  | _ => none

-- What the other threads do while a close is under way.
def step (e : Env) (c : Closing) (input : Input) : Closing where
  ctx := c.ctx.step e input
  wait := match c.acks e input with
    | some ackNum => c.wait.finOnAck ackNum
    | none => c.wait

def run (e : Env) (c : Closing) (inputs : List Input) : Closing := inputs.foldl (step e) c

-- The loop of wait_for_tcp_close_ack. A round is what the other threads do while the condition
-- variable has released tcp_close_mutex, and how the wait ended. `none` when the rounds are used
-- up, so that the close still waits.
def waitLoop (e : Env) : List (List Input × WaitResult) → Closing → Option (Closing × CloseResult)
  | rounds, c =>
      if !c.wait.pending then some (c, .ok)
      else
        match rounds with
        | [] => none
        | (inputs, .ok) :: rest => waitLoop e rest (c.run e inputs)
        | (inputs, .timeout) :: _ => some (c.run e inputs, .timeout)
        | (inputs, .error) :: _ => some (c.run e inputs, .unknown)

def waitForTcpCloseAck (e : Env) (timeoutMs : UInt32) (rounds : List (List Input × WaitResult))
    (c : Closing) : Option (Closing × CloseResult) :=
  if timeoutMs = 0 then some ({ c with wait := .reset }, .ok)
  else
    match c.waitLoop e rounds with
    | none => none
    | some (c, result) =>
        some ({ c with wait := .reset }, if c.wait.pending then .timeout else result)

-- potr_internal_tcp_send_control_packet, by whether it could encrypt and which paths took all bytes.
def sendControlResult (e : Env) (c : Closing) (encrypted : Bool) (sent : Path → Bool) :
    CloseResult :=
  if !encrypted then .unknown
  else if (Slot.openPaths e).any fun i => c.ctx.tcpConnFd i && sent i then .ok
  else if (Slot.openPaths e).any c.ctx.tcpConnFd then .io
  else .disconnected

-- What happens besides the close: whether the send thread runs, and what the other threads do
-- between the points at which the close takes a lock.
structure Schedule where
  sendThreadRunning : Bool
  early : List Input
  begun : List Input
  encrypted : Bool
  sent : Path → Bool
  rounds : List (List Input × WaitResult)

-- What a close reports: its result, the FIN it sent and whether it says that a FIN_ACK came.
structure Report where
  ret : CloseResult
  fin : Option Packet
  acknowledged : Bool
  deriving DecidableEq, Repr

-- potr_service_close of a TCP service up to the stop of its connect thread, once the send queue
-- is drained.
def serviceClose (e : Env) (timeoutMs : UInt32) (s : Schedule) (c : Closing) :
    Option (Closing × Report) :=
  if !s.sendThreadRunning then some (c, ⟨.ok, none, false⟩)
  else
    let finTargetSeq := c.ctx.sendWindow.nextSeq
    let c := c.run e s.early
    if 0 < c.ctx.tcpActivePaths then
      -- send_tcp_fin always names its target.
      let fin := Packet.finOf (c.ctx.toSlot.ownSessionHdr e) true finTargetSeq
      let c := run e { c with wait := .beginWait finTargetSeq } s.begun
      let result := c.sendControlResult e s.encrypted s.sent
      if result ≠ .ok then some ({ c with wait := .reset }, ⟨result, none, false⟩)
      else
        match c.waitForTcpCloseAck e timeoutMs s.rounds with
        | none => none
        | some (c, result) => some (c, ⟨result, some fin, result = .ok⟩)
    else if c.ctx.sendHasData then some (c, ⟨.disconnected, none, false⟩)
    else some ({ c with wait := .reset }, ⟨.ok, none, false⟩)

end Closing

end Porter
