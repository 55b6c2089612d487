import Porter.Types

namespace Porter

-- potr_internal_window. A slot is `none` exactly when its `valid` byte is 0.
structure Window where
  slots : Nat → Option Packet
  baseSeq : UInt32
  nextSeq : UInt32
  baseIndex : Nat
  windowSize : Nat

-- seqnum.c: seq lies in [base, base + windowSize) modulo 2^32.
def seqnumInWindow (seq base : UInt32) (windowSize : Nat) : Bool :=
  (seq - base).toNat < windowSize

namespace Window

def init (initialSeq : UInt32) (windowSize : Nat) : Window :=
  { slots := fun _ => none, baseSeq := initialSeq, nextSeq := initialSeq,
    baseIndex := 0, windowSize := windowSize }

def winIndex (win : Window) (seq : UInt32) : Nat :=
  (UInt32.ofNat win.baseIndex + (seq - win.baseSeq)).toNat % win.windowSize

def winAdvanceBase (win : Window) : Window :=
  { win with
    baseSeq := win.baseSeq + 1
    baseIndex := (win.baseIndex + 1) % win.windowSize }

-- Sender side.

def sendFull (win : Window) : Bool :=
  win.windowSize ≤ (win.nextSeq - win.baseSeq).toNat

-- A full window evicts its oldest entry first.
def sendPush (win : Window) (packet : Packet) : Window :=
  let win :=
    if win.sendFull then
      winAdvanceBase { win with slots := Function.update win.slots (win.winIndex win.baseSeq) none }
    else win
  { win with
    slots := Function.update win.slots (win.winIndex win.nextSeq) (some packet)
    nextSeq := win.nextSeq + 1 }

def sendGet (win : Window) (seqNum : UInt32) : Option Packet :=
  if seqnumInWindow seqNum win.baseSeq ((win.nextSeq - win.baseSeq).toNat % 65536) then
    win.slots (win.winIndex seqNum)
  else none

-- Receiver side.

-- `none` is POTR_ERR_OUT_OF_WINDOW. A slot that is already valid keeps its packet.
def recvPush (win : Window) (packet : Packet) : Option Window :=
  if seqnumInWindow packet.seqNum win.baseSeq win.windowSize then
    match win.slots (win.winIndex packet.seqNum) with
    | some _ => some win
    | none => some { win with
        slots := Function.update win.slots (win.winIndex packet.seqNum) (some packet) }
  else none

-- `none` is POTR_ERR_EMPTY.
def recvPop (win : Window) : Option (Packet × Window) :=
  match win.slots (win.winIndex win.nextSeq) with
  | none => none
  | some packet =>
      let win := winAdvanceBase
        { win with slots := Function.update win.slots (win.winIndex win.nextSeq) none }
      some (packet, { win with nextSeq := win.nextSeq + 1 })

def recvSkip (win : Window) (seqNum : UInt32) : Window :=
  if win.nextSeq ≠ seqNum then win
  else
    let win := winAdvanceBase
      { win with slots := Function.update win.slots (win.winIndex seqNum) none }
    { win with nextSeq := win.nextSeq + 1 }

def recvNeedsNack (win : Window) : Option UInt32 :=
  if (win.slots (win.winIndex win.nextSeq)).isSome then none
  else if (List.range' 1 (win.windowSize - 1)).any fun i =>
      (win.slots (win.winIndex (win.nextSeq + UInt32.ofNat i))).isSome then
    some win.nextSeq
  else none

def recvHasPacket (win : Window) (seqNum : UInt32) : Bool :=
  if win.windowSize = 0 || !seqnumInWindow seqNum win.baseSeq win.windowSize then false
  else (win.slots (win.winIndex seqNum)).isSome

def recvReset (win : Window) (newBaseSeq : UInt32) : Window :=
  { win with
    slots := fun _ => none, baseSeq := newBaseSeq, nextSeq := newBaseSeq, baseIndex := 0 }

end Window

end Porter
