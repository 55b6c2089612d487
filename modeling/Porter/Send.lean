import Mathlib.Data.List.Nodup
import Porter.Recv.Window
import Porter.Seal

namespace Porter

-- The log holds DATA packets and PINGs as they are sent, and the other packets before they are
-- sealed.

-- build_ctrl_pkt_wire and the FIN senders of a UDP service
def Packet.onWire (e : Env) (pkt : Packet) : Option Packet :=
  if pkt.has (FLAG_NACK ||| FLAG_REJECT) then pkt.buildCtrlPktWire e
  else if pkt.has FLAG_FIN then pkt.sealFin e
  else some pkt

-- send_tcp_fin_ack and send_tcp_fin
def Packet.onTcpWire (e : Env) (pkt : Packet) : Option Packet :=
  if pkt.has FLAG_FIN_ACK then pkt.tcpSendControlPacket e pkt.ackNum
  else if pkt.has FLAG_FIN then pkt.tcpSendControlPacket e 0
  else some pkt

-- The packet whose bytes an entry puts on the network.
def Act.wired (e : Env) : Act → Option Packet
  | .send _ _ pkt => pkt.onWire e
  | .sendTcp pkt => pkt.onTcpWire e
  | _ => none

namespace Slot

-- potr_send_thread.c

-- The outer packet flush_packed builds around the packed elements, sealed if need be.
def packedContainer (e : Env) (slot : Slot) (packed : Bytes) : Option Packet :=
  (Packet.buildPacked (slot.ownSessionHdr e) slot.sendWindow.nextSeq packed).bind
    (Packet.sealData e)

-- flush_packed of a UDP service and flush_packed_peer
def flushPacked (e : Env) (slot : Slot) (packed : Bytes) : Slot :=
  match slot.packedContainer e packed with
  | none => slot
  | some outer => sendToDests e
      { slot with sendWindow := slot.sendWindow.sendPush outer, sendHasData := true } outer

-- The PING of potr_health_thread.c, with the number of the next DATA packet.
def sendPing (e : Env) (slot : Slot) (healthStates : Bytes) : Slot :=
  match (Packet.buildPing (slot.ownSessionHdr e) slot.sendWindow.nextSeq healthStates).sealData e with
  | none => slot
  | some ping => slot.sendToDests e ping

-- Where slot_send_wire_to_dests sends to.
def dests (e : Env) (slot : Slot) : List (Path × Endpoint) :=
  if slot.peer.isSome then
    (paths.filter fun i => !(slot.destAddr i).isUnset).map fun i => (i, slot.destAddr i)
  else (openPaths e).map fun i => (i, slot.destAddr i)

theorem sendToDests_eq {e : Env} (slot : Slot) (pkt : Packet) :
    slot.sendToDests e pkt = slot.emits ((slot.dests e).map fun d => .send d.1 d.2 pkt) := by
  unfold sendToDests dests
  split <;> rw [List.map_map] <;> rfl

theorem nodup_dests (e : Env) (slot : Slot) : (slot.dests e).Nodup := by
  have hmap : ∀ f : Path → Bool, ((paths.filter f).map fun i => (i, slot.destAddr i)).Nodup :=
    fun f => ((List.nodup_finRange MAX_PATH).filter f).map fun _ _ h => congrArg Prod.fst h
  unfold dests
  split
  · exact hmap _
  · exact hmap _

-- What has been done from one state to a later one.
def since (before after : Slot) : List Act := (after.log.drop before.log.length).map Prod.snd

theorem since_of_log {before after : Slot} {acts : List Act}
    (h : after.log = before.log ++ acts.map fun act => (before.peerId, act)) :
    before.since after = acts := by
  unfold since
  rw [h, List.drop_left, List.map_map]
  exact List.map_id acts

theorem since_emits (slot : Slot) (acts : List Act) : slot.since (slot.emits acts) = acts :=
  since_of_log rfl

theorem packedContainer_header {e : Env} {slot : Slot} {packed : Bytes} {outer : Packet}
    (h : slot.packedContainer e packed = some outer) :
    outer.seqNum = slot.sendWindow.nextSeq ∧ outer.has FLAG_DATA = true ∧
      outer.has FLAG_PING = false ∧ outer.has FLAG_NACK = false ∧
      outer.has FLAG_REJECT = false := by
  obtain ⟨built, hbuilt, hsealed⟩ := Option.bind_eq_some_iff.mp h
  have hfields : built.flags = FLAG_DATA ∧ built.seqNum = slot.sendWindow.nextSeq := by
    unfold Packet.buildPacked at hbuilt
    split at hbuilt
    · simp at hbuilt
    · rw [← Option.some.inj hbuilt]
      exact ⟨rfl, rfl⟩
  have hhas := Packet.sealed_has hsealed hfields.1
  exact ⟨(Packet.sealAs_sameHeader hsealed).seqNum.trans hfields.2, hhas _ (by decide),
    hhas _ (by decide), hhas _ (by decide), hhas _ (by decide)⟩

end Slot

end Porter
