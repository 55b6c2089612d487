import Porter.Connection.Rest
import Porter.Moves.Tcp

namespace Porter

-- The events that tell of the loss of the session or of a path.
def Event.isLoss : Event → Bool
  | disconnected | pathDisconnected .. => true
  | _ => false

def Act.isLoss : Act → Bool
  | .event ev => ev.isLoss
  | _ => false

namespace Slot

structure Lossless (slot slot' : Slot) : Prop where
  peer : slot'.peer = slot.peer
  grows : slot.Grows (fun act => act.isLoss = false) slot'

-- No loss is told, or only what a FIN that takes effect tells. A peer is gone with it.
def Ends (e : Env) (slot slot' : Slot) : Prop :=
  slot.Lossless slot' ∨ ∃ mid target, slot.Lossless mid ∧ (mid.finFire e target).Lossless slot' ∧
    (mid.peer ≠ none → slot' = mid.finFire e target)

section

variable {e : Env} {slot slot' slot'' : Slot}

theorem Lossless.of_eq (hpeer : slot'.peer = slot.peer) (hlog : slot'.log = slot.log) :
    slot.Lossless slot' := ⟨hpeer, .of_log hlog⟩

theorem Lossless.refl (slot : Slot) : slot.Lossless slot := .of_eq rfl rfl

theorem Lossless.trans (h : slot.Lossless slot') (h' : slot'.Lossless slot'') : slot.Lossless slot'' :=
  ⟨h'.peer.trans h.peer, h.grows.trans h.peer h'.grows⟩

theorem Lossless.ends (h : slot.Lossless slot') (h' : slot'.Ends e slot'') : slot.Ends e slot'' := by
  rcases h' with hcalm | ⟨mid, target, hmid, hrest⟩
  · exact .inl (h.trans hcalm)
  · exact .inr ⟨mid, target, h.trans hmid, hrest⟩

end

end Slot

namespace TcpCtx

variable {e : Env} {ctx : TcpCtx}

end TcpCtx

end Porter
