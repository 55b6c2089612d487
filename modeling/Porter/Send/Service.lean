import Porter.Connection.Events
import Porter.Send.Thread

namespace Porter.Ctx

-- Where potr_service_send of an N:1 service sends to: the slots of the peers it addresses.
def route (e : Env) (ctx : Ctx) (peerId : UInt32) : Except SendError (List Nat) :=
  if peerId = PEER_NA then .error .invalidArgument
  else if peerId = PEER_ALL then
    match (List.range e.maxPeers).filter
        fun i => (ctx.peers i).active && (ctx.peers i).healthAlive with
    | [] => .error .disconnected
    | i :: rest => .ok (i :: rest)
  else
    match ctx.findById e peerId with
    | none => .error .notFound
    | some i => if !(ctx.peers i).healthAlive then .error .disconnected else .ok [i]

-- potr_service_send up to the queue: the slots that are addressed and the elements that
-- send_to_peer queues for each of them, one slot after the other. A 1:1 service has a single
-- context, which is slot 0.
def serviceSend (e : Env) (ctx : Ctx) (closeRequested : Bool) (tcpActivePaths : Nat)
    (peerId : UInt32) (data : Bytes) (compress : Bool) : Except SendError (List Nat × List Elem) :=
  if data.length = 0 ∨ e.maxMessageSize < data.length then .error .invalidArgument
  else if closeRequested then .error .canceled
  else if e.type.isTcpType && (tcpActivePaths = 0 || !(ctx.peers 0).healthAlive) then
    .error .disconnected
  else if e.type = .unicastBidir && !(ctx.peers 0).healthAlive then .error .disconnected
  else
    match e.messageElems data compress with
    | none => .error .unknown
    | some elems =>
        if e.isMultiPeer then (ctx.route e peerId).map fun slots => (slots, elems)
        else .ok ([0], elems)

section

variable {e : Env} {ctx : Ctx} {peerId : UInt32} {slots : List Nat}

theorem route_active (h : ctx.route e peerId = .ok slots) :
    ∀ i ∈ slots, i < e.maxPeers ∧ (ctx.peers i).active = true := by
  unfold route at h
  split at h
  · cases h
  split at h
  · split at h
    · cases h
    · rename_i first rest hfilter
      obtain rfl := Except.ok.inj h
      intro i hi
      rw [← hfilter, List.mem_filter, List.mem_range, Bool.and_eq_true] at hi
      exact ⟨hi.1, hi.2.1⟩
  · split at h
    · cases h
    · rename_i j hfind
      split at h
      · cases h
      · obtain rfl := Except.ok.inj h
        intro i hi
        obtain rfl := List.mem_singleton.mp hi
        obtain ⟨hlt, hactive, -⟩ := findById_some hfind
        exact ⟨hlt, hactive⟩

theorem serviceSend_ok {closeRequested : Bool} {tcpActivePaths : Nat} {data : Bytes} {compress : Bool}
    {elems : List Elem}
    (h : ctx.serviceSend e closeRequested tcpActivePaths peerId data compress = .ok (slots, elems)) :
    e.messageElems data compress = some elems ∧
      (e.isMultiPeer = true → ∀ i ∈ slots, i < e.maxPeers ∧ (ctx.peers i).active = true) := by
  unfold serviceSend at h
  split at h
  · cases h
  split at h
  · cases h
  split at h
  · cases h
  split at h
  · cases h
  split at h
  · cases h
  · rename_i found hfound
    split at h
    · cases hroute : ctx.route e peerId with
      | error err =>
        rw [hroute] at h
        cases h
      | ok routed =>
        rw [hroute] at h
        obtain ⟨rfl, rfl⟩ := Prod.mk.inj (Except.ok.inj h)
        exact ⟨hfound, fun _ => route_active hroute⟩
    · rename_i hsingle
      obtain ⟨rfl, rfl⟩ := Prod.mk.inj (Except.ok.inj h)
      exact ⟨hfound, fun hmulti => absurd hmulti hsingle⟩

end

end Porter.Ctx
