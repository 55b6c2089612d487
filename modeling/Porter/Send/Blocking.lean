import Porter.Lib.RingQueue
import Porter.Lib.Run
import Porter.Moves.Peers
import Porter.Send.Service
import Porter.Send.Stream

namespace Porter

-- An entry of potr_internal_send_queue: the peer id and the element.
abbrev Entry := UInt32 × Elem

-- What peek, pop and try_pop hand out: the payload itself stays in the cell.
structure EntryCopy where
  peerId : UInt32
  flags : UInt16
  payloadLen : Nat
  cell : Nat

namespace EntryCopy

def ofEntry (entry : Entry) (cell : Nat) : EntryCopy :=
  ⟨entry.1, entry.2.flags, entry.2.payload.length, cell⟩

-- append_payload_elem copies the payload out of the cell.
def load (copy : EntryCopy) (queue : RingQueue Entry) : Entry :=
  (copy.peerId, ⟨copy.flags, (queue.cells copy.cell).2.payload.take copy.payloadLen⟩)

end EntryCopy

-- The elements in send_wire_buf and the slot they go to.
structure Batch where
  slot : Nat
  first : Entry
  rest : List Entry

namespace Batch

def entries (batch : Batch) : List Entry := batch.first :: batch.rest

def packed (batch : Batch) : Bytes :=
  (batch.entries.map Prod.snd).foldl Packet.appendPayloadElem []

theorem packed_eq (batch : Batch) : batch.packed = Elem.encodeAll (batch.entries.map Prod.snd) :=
  Packet.foldl_appendPayloadElem [] _

end Batch

-- Where the send thread is in send_thread_func.
inductive SendStage where
  | idle
  | popped (first : EntryCopy)
  | packing (batch : Batch)
  -- The element it peeked passed the checks of the packing loop.
  | peeked (batch : Batch)
  | taken (batch : Batch) (next : EntryCopy)
  | completing (n : Nat)
  | ended

-- One run of send_to_peer.
structure Segment where
  peerId : UInt32
  elems : List Elem

-- Where the application thread is in it: before the first wait_drained, at a push_wait with these
-- elements left, or before the second wait_drained.
inductive CallStage where
  | before
  | pushing (todo : List Elem)
  | after

-- A call of potr_service_send that was accepted. `done` are the segments it has been through and
-- `earlier` is everything that had been queued before it.
structure Call where
  blocking : Bool
  failed : Bool
  segment : Segment
  rest : List Segment
  stage : CallStage
  done : List Segment
  earlier : List Entry

def CallStage.start (blocking : Bool) (segment : Segment) : CallStage :=
  if blocking then .before else .pushing segment.elems

-- A container that was flushed: the slot it was for, whether the TCP sockets had room, its
-- elements and the packet.
structure Container where
  slot : Nat
  writable : Bool
  entries : List Entry
  packet : Packet

-- A call that returned POTR_OK, with the containers that were flushed and the log by then.
structure Return where
  blocking : Bool
  segments : List Segment
  earlier : List Entry
  flushed : List Container
  log : List (UInt32 × Act)

-- A service with the application thread that sends and the send thread. The last three fields
-- record what was queued, what was flushed and which calls returned POTR_OK.
structure SendThreads where
  ctx : Ctx
  tcpActivePaths : Nat
  closeRequested : Bool
  running : Bool
  queue : RingQueue Entry
  call : Option Call
  stage : SendStage
  pushed : List Entry
  flushed : List Container
  returned : List Return

-- The slot an entry goes to.
def Ctx.dest (e : Env) (ctx : Ctx) (peerId : UInt32) : Option Nat :=
  if e.isMultiPeer then ctx.findById e peerId else some 0

namespace SendThreads

def start (ctx : Ctx) (tcpActivePaths : Nat) : SendThreads where
  ctx := ctx
  tcpActivePaths := tcpActivePaths
  closeRequested := false
  running := true
  queue := RingQueue.empty (PEER_NA, ⟨0, []⟩)
  call := none
  stage := .idle
  pushed := []
  flushed := []
  returned := []

-- The application calls potr_service_send. A RAW service always blocks.
def serviceSend (e : Env) (s : SendThreads) (peerId : UInt32) (data : Bytes)
    (compress blocking : Bool) : SendThreads :=
  match s.call, s.ctx.serviceSend e s.closeRequested s.tcpActivePaths peerId data compress with
  | none, .ok (i :: slots, elems) =>
      let segment := fun i => (⟨(s.ctx.peers i).peerId, elems⟩ : Segment)
      let blocking := blocking || e.type.isRawType
      { s with
        call := some
          { blocking := blocking
            failed := false
            segment := segment i
            rest := slots.map segment
            stage := .start blocking (segment i)
            done := []
            earlier := s.pushed } }
  | _, _ => s

-- send_to_peer is done with a segment. The call goes on with the next one or returns.
def endSegment (s : SendThreads) (call : Call) : SendThreads :=
  match call.rest with
  | [] =>
      { s with
        call := none
        returned := s.returned ++ if call.failed then [] else
          [⟨call.blocking, call.done ++ [call.segment], call.earlier, s.flushed, s.ctx.log⟩] }
  | segment :: rest =>
      { s with
        call := some
          { call with
            segment := segment
            rest := rest
            stage := .start call.blocking segment
            done := call.done ++ [call.segment] } }

-- The next step of the call: a wait that is over, a push, or the end of the loop.
def proceed (e : Env) (s : SendThreads) : SendThreads :=
  match s.call with
  | none => s
  | some call =>
      match call.stage with
      | .before =>
          if s.queue.Drained then
            { s with call := some { call with stage := .pushing call.segment.elems } }
          else s
      | .pushing (elem :: todo) =>
          match s.queue.push e.sendQueueDepth (call.segment.peerId, elem) with
          | some queue =>
              { s with
                queue := queue
                call := some { call with stage := .pushing todo }
                pushed := s.pushed ++ [(call.segment.peerId, elem)] }
          | none => if s.running then s else s.endSegment { call with failed := true }
      | .pushing [] =>
          if call.blocking then { s with call := some { call with stage := .after } }
          else s.endSegment call
      | .after => if s.queue.Drained then s.endSegment call else s

def pop (e : Env) (s : SendThreads) : SendThreads :=
  match s.stage with
  | .idle =>
      match s.queue.pop e.sendQueueDepth with
      | some (cell, queue) =>
          { s with queue := queue, stage := .popped (.ofEntry (queue.cells cell) cell) }
      | none => if s.running then s else { s with stage := .ended }
  | _ => s

-- append_payload_elem for the first element, whose peer is looked up before, and for the next ones
def append (e : Env) (s : SendThreads) : SendThreads :=
  match s.stage with
  | .popped first =>
      match s.ctx.dest e first.peerId with
      | none => { s with stage := .completing 1 }
      | some i => { s with stage := .packing ⟨i, first.load s.queue, []⟩ }
  | .taken batch next =>
      { s with stage := .packing { batch with rest := batch.rest ++ [next.load s.queue] } }
  | _ => s

-- peek or peek_timed, and the checks of the packing loop
def peek (e : Env) (s : SendThreads) : SendThreads :=
  match s.stage, s.queue.peek with
  | .packing batch, some cell =>
      let next := EntryCopy.ofEntry (s.queue.cells cell) cell
      if batch.first.2.moreFrag || e.isMultiPeer && next.peerId != batch.first.1 ||
          next.flags &&& FLAG_MORE_FRAG != 0 ||
          Sender.packLimit e < batch.packed.length + (PAYLOAD_ELEM_HDR_SIZE + next.payloadLen) then s
      else { s with stage := .peeked batch }
  | _, _ => s

def tryPop (e : Env) (s : SendThreads) : SendThreads :=
  match s.stage with
  | .peeked batch =>
      match s.queue.pop e.sendQueueDepth with
      | some (cell, queue) =>
          { s with queue := queue, stage := .taken batch (.ofEntry (queue.cells cell) cell) }
      | none => { s with stage := .packing batch }
  | _ => s

-- The packing loop ends, for whatever reason, and flush_packed or flush_packed_peer runs.
def flush (e : Env) (s : SendThreads) (writable : Bool) : SendThreads :=
  match s.stage with
  | .packing batch =>
      let slot := s.ctx.slotInitPeer batch.slot
      { s with
        ctx := s.ctx.store batch.slot (slot.flush e batch.packed writable)
        stage := .completing batch.entries.length
        flushed := s.flushed ++ ((slot.packedContainer e batch.packed).map fun outer =>
          ⟨batch.slot, writable, batch.entries, outer⟩).toList }
  | _ => s

def complete (s : SendThreads) : SendThreads :=
  match s.stage with
  | .completing (n + 1) => { s with queue := s.queue.complete, stage := .completing n }
  | .completing 0 => { s with stage := .idle }
  | _ => s

-- The two threads take turns in any way. `requestClose` and `stopThread` are what
-- potr_service_close does to them.
inductive Action where
  | serviceSend (peerId : UInt32) (data : Bytes) (compress blocking : Bool)
  | proceed
  | pop
  | append
  | peek
  | tryPop
  | flush (writable : Bool)
  | complete
  | requestClose
  | stopThread

def step (e : Env) (s : SendThreads) : Action → SendThreads
  | .serviceSend peerId data compress blocking => s.serviceSend e peerId data compress blocking
  | .proceed => s.proceed e
  | .pop => s.pop e
  | .append => s.append e
  | .peek => s.peek e
  | .tryPop => s.tryPop e
  | .flush writable => s.flush e writable
  | .complete => s.complete
  | .requestClose => { s with closeRequested := true }
  | .stopThread => { s with running := false }

def run (e : Env) (s : SendThreads) (actions : List Action) : SendThreads := actions.foldl (step e) s

end SendThreads

-- What a list of containers carries.
def carried (containers : List Container) : List Entry := containers.flatMap Container.entries

namespace Segment

def entries (segment : Segment) : List Entry := segment.elems.map (Prod.mk segment.peerId)

-- Each element alone.
def singles (segment : Segment) : List (List Entry) := segment.entries.map fun entry => [entry]

end Segment

-- The containers have the numbers from `start` on.
def NumberedFrom (start : UInt32) (block : List Container) : Prop :=
  block.map (fun c => c.packet.seqNum) = (List.range block.length).map fun j => start + UInt32.ofNat j

-- A block of containers carries a segment: one element in each, in order, numbered consecutively.
def Segment.CarriedBy (segment : Segment) (block : List Container) : Prop :=
  block.map Container.entries = segment.singles ∧ ∃ start, NumberedFrom start block

-- A packet that was built from the elements it is said to carry.
def Container.Built (e : Env) (c : Container) : Prop :=
  ∃ slot : Slot, slot.packedContainer e (Elem.encodeAll (c.entries.map Prod.snd)) = some c.packet

-- What was put on the network for a container.
def Container.sends (e : Env) (ctx : Ctx) (c : Container) : List (UInt32 × Act) :=
  ((ctx.slotInitPeer c.slot).dataActs e c.writable c.packet).map fun act =>
    ((ctx.peers c.slot).peerId, act)

-- When a call returned, the log since `origin` was the containers so far, each sent to every
-- destination of its slot; they carried, first, all that had been queued before the call and then
-- its segments, each in a block of its own.
structure Return.Flushed (e : Env) (origin : Ctx) (ret : Return) : Prop where
  log : ret.log = origin.log ++ ret.flushed.flatMap (Container.sends e origin)
  blocks : ∃ pre blocks, ret.flushed = pre ++ blocks.flatten ∧ carried pre = ret.earlier ∧
    List.Forall₂ Segment.CarriedBy ret.segments blocks
  built : ∀ c ∈ ret.flushed, c.Built e

section

variable {e : Env} {ctx : Ctx} {peerId : UInt32}

-- The next number for a peer.
def Ctx.number (e : Env) (ctx : Ctx) (peerId : UInt32) : UInt32 :=
  ((ctx.dest e peerId).map fun i => (ctx.peers i).sendWindow.nextSeq).getD 0

theorem Ctx.number_of_dest {i : Nat} (h : ctx.dest e peerId = some i) :
    ctx.number e peerId = (ctx.peers i).sendWindow.nextSeq := by
  simp [number, h]

theorem Ctx.dest_store {i : Nat} {slot : Slot} (hpeer : slot.peer = (ctx.peers i).peer)
    (hactive : slot.active = (ctx.peers i).active) : (ctx.store i slot).dest e = ctx.dest e := by
  have hsame : ∀ j, ((ctx.store i slot).peers j).active = (ctx.peers j).active ∧
      ((ctx.store i slot).peers j).peer = (ctx.peers j).peer := by
    intro j
    by_cases hji : j = i
    · subst hji
      rw [store_peers_self]
      exact ⟨hactive, hpeer⟩
    · rw [store_peers_of_ne hji]
      exact ⟨rfl, rfl⟩
  funext id
  unfold dest findById
  simp only [hsame]

-- A segment that send_to_peer can queue: its elements fit, all but the last one have MORE_FRAG,
-- and its peer is there.
structure Segment.Valid (e : Env) (ctx : Ctx) (segment : Segment) : Prop where
  fits : ∀ elem ∈ segment.elems, 0 < elem.payload.length ∧ elem.payload.length ≤ e.fragSize
  more : ∀ before elem after, segment.elems = before ++ elem :: after → after ≠ [] →
    elem.moreFrag = true
  found : (ctx.dest e segment.peerId).isSome = true

end

-- The batch in send_wire_buf: it carries on where the flushed containers end.
structure Batch.Carries (e : Env) (ctx : Ctx) (pushed : List Entry) (flushed : List Container)
    (completed taken : Nat) (batch : Batch) : Prop where
  before : carried flushed = pushed.take completed
  entries : carried flushed ++ batch.entries = pushed.take taken
  size : taken = completed + batch.entries.length
  slot : ctx.dest e batch.first.1 = some batch.slot
  fits : Fits e (batch.entries.map Prod.snd)
  alone : batch.first.2.moreFrag = true → batch.rest = []

-- What the stage of the send thread says about the first `taken` entries.
def SendStage.Holds (e : Env) (ctx : Ctx) (pushed : List Entry) (flushed : List Container)
    (completed taken : Nat) : SendStage → Prop
  | .idle | .ended => carried flushed = pushed.take taken ∧ completed = taken
  | .popped first =>
      carried flushed = pushed.take completed ∧ taken = completed + 1 ∧
        ∃ entry, pushed[completed]? = some entry ∧
          first = .ofEntry entry (completed % e.sendQueueDepth)
  | .packing batch => batch.Carries e ctx pushed flushed completed taken
  | .peeked batch =>
      batch.Carries e ctx pushed flushed completed taken ∧ batch.first.2.moreFrag = false ∧
        ∃ entry, pushed[taken]? = some entry ∧ Fits e ((batch.entries ++ [entry]).map Prod.snd)
  | .taken batch next =>
      ∃ before entry, taken = before + 1 ∧ batch.Carries e ctx pushed flushed completed before ∧
        batch.first.2.moreFrag = false ∧ pushed[before]? = some entry ∧
        Fits e ((batch.entries ++ [entry]).map Prod.snd) ∧
        next = .ofEntry entry (before % e.sendQueueDepth)
  | .completing n => carried flushed = pushed.take taken ∧ completed + n = taken

namespace SendThreads

-- The queue and the send thread: everything that was queued is flushed, in hand or waiting.
structure Flow (e : Env) (s : SendThreads) (completed taken : Nat) : Prop where
  tracks : s.queue.Tracks e.sendQueueDepth s.pushed completed taken
  fits : ∀ entry ∈ s.pushed, 0 < entry.2.payload.length ∧ entry.2.payload.length ≤ e.fragSize
  found : ∀ entry ∈ s.pushed, (s.ctx.dest e entry.1).isSome = true
  built : ∀ c ∈ s.flushed, c.Built e
  stage : s.stage.Holds e s.ctx s.pushed s.flushed completed taken

section

variable {e : Env} {s : SendThreads} {completed taken : Nat}

theorem Flow.drained (h : s.Flow e completed taken) (hdrained : s.queue.Drained) :
    carried s.flushed = s.pushed := by
  obtain ⟨htaken, hcompleted⟩ := h.tracks.drained hdrained
  have hstage := h.stage
  cases hs : s.stage with
  | idle =>
    rw [hs] at hstage
    rw [hstage.1, htaken, List.take_length]
  | ended =>
    rw [hs] at hstage
    rw [hstage.1, htaken, List.take_length]
  | completing n =>
    rw [hs] at hstage
    rw [hstage.1, htaken, List.take_length]
  | popped first =>
    rw [hs] at hstage
    rw [hstage.1, hcompleted, List.take_length]
  | packing batch =>
    rw [hs] at hstage
    rw [hstage.before, hcompleted, List.take_length]
  | peeked batch =>
    rw [hs] at hstage
    rw [hstage.1.before, hcompleted, List.take_length]
  | taken batch next =>
    rw [hs] at hstage
    obtain ⟨before, entry, -, hcarries, -⟩ := hstage
    rw [hcarries.before, hcompleted, List.take_length]

theorem Flow.called (h : s.Flow e completed taken) (closeRequested running : Bool)
    (call : Option Call) (returned : List Return) :
    Flow e
      { s with
        closeRequested := closeRequested, running := running, call := call, returned := returned }
      completed taken :=
  ⟨h.tracks, h.fits, h.found, h.built, h.stage⟩

theorem getElem?_append_some {α : Type*} {xs ys : List α} {k : Nat} {x : α} (h : xs[k]? = some x) :
    (xs ++ ys)[k]? = some x := by
  rw [List.getElem?_append_left (List.getElem?_eq_some_iff.mp h).1, h]

theorem Flow.push (h : s.Flow e completed taken) {entry : Entry} {queue : RingQueue Entry}
    (hpush : s.queue.push e.sendQueueDepth entry = some queue)
    (hfits : 0 < entry.2.payload.length ∧ entry.2.payload.length ≤ e.fragSize)
    (hfound : (s.ctx.dest e entry.1).isSome = true) (call : Option Call) :
    Flow e { s with queue := queue, call := call, pushed := s.pushed ++ [entry] } completed taken := by
  have hle := h.tracks.completed_le
  have htaken := h.tracks.taken_le
  have htake : ∀ {n : Nat}, n ≤ s.pushed.length → (s.pushed ++ [entry]).take n = s.pushed.take n :=
    fun hn => List.take_append_of_le_length hn
  have hcarries : ∀ {batch : Batch} {n : Nat}, n ≤ s.pushed.length →
      batch.Carries e s.ctx s.pushed s.flushed completed n →
      batch.Carries e s.ctx (s.pushed ++ [entry]) s.flushed completed n := by
    intro batch n hn hb
    exact { hb with
      before := by rw [hb.before, htake (by omega)]
      entries := by rw [hb.entries, htake hn] }
  refine ⟨h.tracks.push hpush, ?_, ?_, h.built, ?_⟩
  · intro x hx
    rcases List.mem_append.mp hx with hx | hx
    · exact h.fits x hx
    · rw [List.mem_singleton.mp hx]
      exact hfits
  · intro x hx
    rcases List.mem_append.mp hx with hx | hx
    · exact h.found x hx
    · rw [List.mem_singleton.mp hx]
      exact hfound
  · have hstage := h.stage
    cases hs : s.stage with
    | idle =>
      rw [hs] at hstage
      exact ⟨by rw [hstage.1, htake htaken], hstage.2⟩
    | ended =>
      rw [hs] at hstage
      exact ⟨by rw [hstage.1, htake htaken], hstage.2⟩
    | completing n =>
      rw [hs] at hstage
      exact ⟨by rw [hstage.1, htake htaken], hstage.2⟩
    | popped first =>
      rw [hs] at hstage
      obtain ⟨hflushed, hsize, x, hx, hfirst⟩ := hstage
      exact ⟨by rw [hflushed, htake (by omega)], hsize, x, getElem?_append_some hx, hfirst⟩
    | packing batch =>
      rw [hs] at hstage
      exact hcarries htaken hstage
    | peeked batch =>
      rw [hs] at hstage
      obtain ⟨hb, hmore, x, hx, hroom⟩ := hstage
      exact ⟨hcarries htaken hb, hmore, x, getElem?_append_some hx, hroom⟩
    | taken batch next =>
      rw [hs] at hstage
      obtain ⟨before, x, hsize, hb, hmore, hx, hroom, hnext⟩ := hstage
      exact ⟨before, x, hsize, hcarries (by omega) hb, hmore, getElem?_append_some hx, hroom, hnext⟩

theorem load_ofEntry {queue : RingQueue Entry} {pushed : List Entry}
    (h : queue.Tracks e.sendQueueDepth pushed completed taken) {k : Nat} {entry : Entry}
    (hk : completed ≤ k) (hentry : pushed[k]? = some entry) :
    (EntryCopy.ofEntry entry (k % e.sendQueueDepth)).load queue = entry := by
  unfold EntryCopy.load EntryCopy.ofEntry
  simp only [h.cells k entry hk hentry, List.take_length]

theorem Flow.pop (h : s.Flow e completed taken) :
    ∃ taken', (s.pop e).Flow e completed taken' := by
  unfold SendThreads.pop
  split
  · rename_i hs
    have hstage := h.stage
    rw [hs] at hstage
    obtain ⟨hflushed, rfl⟩ := hstage
    split
    · rename_i cell queue hpop
      obtain ⟨htracks, hcells, hpeek⟩ := h.tracks.pop hpop
      obtain ⟨rfl, entry, hentry, hcell⟩ := h.tracks.peek hpeek
      refine ⟨completed + 1, htracks, h.fits, h.found, h.built, hflushed, rfl, entry, hentry, ?_⟩
      rw [hcells, hcell]
    · split
      · exact ⟨_, h⟩
      · exact ⟨_, h.tracks, h.fits, h.found, h.built, hflushed, rfl⟩
  · exact ⟨_, h⟩

theorem Flow.append (h : s.Flow e completed taken) : (s.append e).Flow e completed taken := by
  unfold SendThreads.append
  split
  · rename_i first hs
    have hstage := h.stage
    rw [hs] at hstage
    obtain ⟨hflushed, rfl, entry, hentry, rfl⟩ := hstage
    have hmem : entry ∈ s.pushed := List.mem_of_getElem? hentry
    obtain ⟨i, hi⟩ := Option.isSome_iff_exists.mp (h.found entry hmem)
    have hdest : s.ctx.dest e (EntryCopy.ofEntry entry (completed % e.sendQueueDepth)).peerId = some i := hi
    rw [hdest]
    refine ⟨h.tracks, h.fits, h.found, h.built, ?_⟩
    rw [load_ofEntry h.tracks le_rfl hentry]
    refine ⟨hflushed, ?_, rfl, hi, Fits.single (h.fits entry hmem), fun _ => rfl⟩
    rw [hflushed, List.take_add_one, hentry]
    rfl
  · rename_i batch next hs
    have hstage := h.stage
    rw [hs] at hstage
    obtain ⟨before, entry, rfl, hb, hmore, hentry, hroom, rfl⟩ := hstage
    have hsize := hb.size
    refine ⟨h.tracks, h.fits, h.found, h.built, ?_⟩
    rw [load_ofEntry h.tracks (by omega) hentry]
    have hentries : Batch.entries { batch with rest := batch.rest ++ [entry] } = batch.entries ++ [entry] :=
      rfl
    refine ⟨hb.before, ?_, ?_, hb.slot, ?_, fun htrue => absurd htrue (by simp [hmore])⟩
    · rw [hentries, ← List.append_assoc, hb.entries, List.take_add_one, hentry]
      rfl
    · rw [hentries, List.length_append, List.length_singleton]
      omega
    · rw [hentries]
      exact hroom
  · exact h

theorem Flow.peek (h : s.Flow e completed taken) : (s.peek e).Flow e completed taken := by
  unfold SendThreads.peek
  split
  · rename_i batch cell hs hpeek
    have hb := h.stage
    rw [hs] at hb
    obtain ⟨-, entry, hentry, hcell⟩ := h.tracks.peek hpeek
    dsimp only
    split
    · exact h
    · rename_i hcond
      rw [hcell] at hcond
      simp only [Bool.or_eq_true, decide_eq_true_eq, not_or, Nat.not_lt, Bool.not_eq_true] at hcond
      have helem := h.fits entry (List.mem_of_getElem? hentry)
      refine ⟨h.tracks, h.fits, h.found, h.built, hb, hcond.1.1.1, entry, hentry, by simp, ?_, ?_⟩
      · intro elem hmem
        rw [List.map_append, List.mem_append] at hmem
        rcases hmem with hmem | hmem
        · exact hb.fits.payload elem hmem
        · rw [List.map_singleton, List.mem_singleton] at hmem
          rw [hmem]
          exact helem
      · rw [List.map_append, Elem.encodeAll_append, List.length_append]
        simpa [EntryCopy.ofEntry, Batch.packed_eq, Elem.length_encode] using hcond.2
  · exact h

theorem Flow.tryPop (h : s.Flow e completed taken) :
    ∃ taken', (s.tryPop e).Flow e completed taken' := by
  unfold SendThreads.tryPop
  split
  · rename_i batch hs
    have hstage := h.stage
    rw [hs] at hstage
    obtain ⟨hb, hmore, entry, hentry, hroom⟩ := hstage
    split
    · rename_i cell queue hpop
      obtain ⟨htracks, hcells, hpeek⟩ := h.tracks.pop hpop
      obtain ⟨rfl, entry', hentry', hcell⟩ := h.tracks.peek hpeek
      obtain rfl : entry = entry' := Option.some.inj (hentry.symm.trans hentry')
      refine ⟨taken + 1, htracks, h.fits, h.found, h.built, taken, entry, rfl, hb, hmore, hentry,
        hroom, ?_⟩
      rw [hcells, hcell]
    · exact ⟨taken, h.tracks, h.fits, h.found, h.built, hb⟩
  · exact ⟨taken, h⟩

theorem Flow.complete (h : s.Flow e completed taken) :
    ∃ completed', s.complete.Flow e completed' taken := by
  unfold SendThreads.complete
  split
  · rename_i n hs
    have hstage := h.stage
    rw [hs] at hstage
    obtain ⟨hflushed, hsize⟩ := hstage
    exact ⟨completed + 1, h.tracks.complete (by omega), h.fits, h.found, h.built, hflushed, by omega⟩
  · rename_i hs
    have hstage := h.stage
    rw [hs] at hstage
    exact ⟨completed, h.tracks, h.fits, h.found, h.built, hstage⟩
  · exact ⟨completed, h⟩

theorem batch_container (hseals : e.Seals) {batch : Batch}
    (hb : batch.Carries e s.ctx s.pushed s.flushed completed taken) :
    ∃ outer, (s.ctx.slotInitPeer batch.slot).packedContainer e batch.packed = some outer := by
  rw [Batch.packed_eq]
  exact container_isSome hseals hb.fits

-- What a flush adds: one container with the batch, numbered by the window of its slot.
theorem Flow.flush (hseals : e.Seals) (h : s.Flow e completed taken) (writable : Bool) :
    (s.flush e writable).Flow e completed taken ∧
      ((s.flush e writable).flushed = s.flushed ∧ (s.flush e writable).ctx = s.ctx ∨
        ∃ (batch : Batch) (outer : Packet), batch.Carries e s.ctx s.pushed s.flushed completed taken ∧
          (s.flush e writable).flushed =
            s.flushed ++ [⟨batch.slot, writable, batch.entries, outer⟩] ∧
          (s.flush e writable).ctx.log =
            s.ctx.log ++ Container.sends e s.ctx ⟨batch.slot, writable, batch.entries, outer⟩ ∧
          outer.seqNum = s.ctx.number e batch.first.1 ∧
          (s.flush e writable).ctx.dest e = s.ctx.dest e ∧
          (s.flush e writable).ctx.number e batch.first.1 = s.ctx.number e batch.first.1 + 1) := by
  unfold SendThreads.flush
  split
  · rename_i batch hs
    have hb := h.stage
    rw [hs] at hb
    dsimp only
    obtain ⟨outer, houter⟩ := batch_container hseals hb
    have hnext := Slot.flush_nextSeq houter writable
    have hlog := Slot.flush_log e (s.ctx.slotInitPeer batch.slot) batch.packed writable
    obtain ⟨-, hpeer, hactive, -⟩ :=
      Slot.flush_same e (s.ctx.slotInitPeer batch.slot) batch.packed writable
    have hdest : (s.ctx.store batch.slot
        ((s.ctx.slotInitPeer batch.slot).flush e batch.packed writable)).dest e = s.ctx.dest e :=
      Ctx.dest_store hpeer hactive
    have hcarried : carried (s.flushed ++ [⟨batch.slot, writable, batch.entries, outer⟩]) =
        s.pushed.take taken := by
      rw [← hb.entries]
      simp [carried]
    rw [houter] at hlog ⊢
    refine ⟨⟨h.tracks, h.fits, ?_, ?_, hcarried, hb.size.symm⟩,
      .inr ⟨batch, outer, hb, rfl, ?_, ?_, hdest, ?_⟩⟩
    · intro entry hmem
      rw [hdest]
      exact h.found entry hmem
    · intro c hc
      rcases List.mem_append.mp hc with hc | hc
      · exact h.built c hc
      · obtain rfl : c = ⟨batch.slot, writable, batch.entries, outer⟩ := by simpa using hc
        rw [Batch.packed_eq] at houter
        exact ⟨_, houter⟩
    · refine hlog.trans (congrArg (s.ctx.log ++ ·) ?_)
      rw [Option.toList_some, List.flatMap_singleton]
      rfl
    · rw [Ctx.number_of_dest hb.slot]
      exact (Slot.packedContainer_header houter).1
    · rw [Ctx.number_of_dest (by rw [hdest]; exact hb.slot), Ctx.number_of_dest hb.slot,
        Ctx.store_peers_self]
      exact hnext
  · exact ⟨h, .inl ⟨rfl, rfl⟩⟩

end

end SendThreads

section

theorem carried_append (containers containers' : List Container) :
    carried (containers ++ containers') = carried containers ++ carried containers' :=
  List.flatMap_append ..

theorem carried_of_map {block : List Container} {entries : List Entry}
    (h : block.map Container.entries = entries.map fun entry => [entry]) : carried block = entries := by
  rw [carried, List.flatMap_def, h, ← List.flatMap_def]
  exact List.flatMap_singleton' ..

theorem carried_blocks {segments : List Segment} {blocks : List (List Container)}
    (h : List.Forall₂ Segment.CarriedBy segments blocks) :
    carried blocks.flatten = segments.flatMap Segment.entries := by
  induction h with
  | nil => rfl
  | cons hhead _ ih =>
    rw [List.flatten_cons, carried_append, carried_of_map hhead.1, ih, List.flatMap_cons]

theorem NumberedFrom.snoc {start : UInt32} {block : List Container} (h : NumberedFrom start block)
    {c : Container} (hc : c.packet.seqNum = start + UInt32.ofNat block.length) :
    NumberedFrom start (block ++ [c]) := by
  unfold NumberedFrom at *
  rw [List.map_append, h, List.length_append, List.length_singleton, List.range_succ, List.map_append,
    List.map_singleton, List.map_singleton, hc]

end

-- The elements of a segment that are queued.
def CallStage.Sent (elems sent : List Elem) : CallStage → Prop
  | .before => sent = []
  | .pushing todo => elems = sent ++ todo
  | .after => sent = elems

theorem CallStage.Sent.le {elems sent : List Elem} {stage : CallStage} (h : stage.Sent elems sent) :
    sent <+: elems := by
  cases stage with
  | before => exact h ▸ List.nil_prefix
  | pushing todo => exact ⟨todo, h.symm⟩
  | after => exact h ▸ List.prefix_refl _

-- The containers of a call whose first wait is over: `block` carries what is flushed of its
-- current segment.
structure Call.Carried (e : Env) (ctx : Ctx) (flushed : List Container) (call : Call)
    (pre : List Container) (blocks : List (List Container)) (block : List Container)
    (start : UInt32) : Prop where
  flushed : flushed = pre ++ blocks.flatten ++ block
  earlier : carried pre = call.earlier
  done : List.Forall₂ Segment.CarriedBy call.done blocks
  current : block.map Container.entries <+: call.segment.singles
  numbered : NumberedFrom start block
  next : ctx.number e call.segment.peerId = start + UInt32.ofNat block.length

-- A blocking call that has not failed.
structure Call.Awaits (e : Env) (ctx : Ctx) (pushed : List Entry) (flushed : List Container)
    (call : Call) (sent : List Elem) : Prop where
  stage : call.stage.Sent call.segment.elems sent
  pushed : pushed = call.earlier ++ call.done.flatMap Segment.entries ++
    sent.map (Prod.mk call.segment.peerId)
  carried : call.stage = .before ∧ call.done = [] ∨
    ∃ pre blocks block start, call.Carried e ctx flushed pre blocks block start

section

variable {e : Env} {ctx ctx' : Ctx} {pushed : List Entry} {flushed : List Container} {call : Call}
  {sent : List Elem} {pre block : List Container} {blocks : List (List Container)} {start : UInt32}

theorem Call.Carried.carried (h : call.Carried e ctx flushed pre blocks block start) :
    carried flushed = call.earlier ++ call.done.flatMap Segment.entries ++ carried block := by
  rw [h.flushed, carried_append, carried_append, h.earlier, carried_blocks h.done]

theorem Call.Carried.staged (h : call.Carried e ctx flushed pre blocks block start)
    (stage : CallStage) :
    Call.Carried e ctx flushed { call with stage := stage } pre blocks block start :=
  ⟨h.flushed, h.earlier, h.done, h.current, h.numbered, h.next⟩

-- The batch that is flushed during a blocking call is the next element of its segment, alone.
theorem Call.Carried.next_single (h : call.Carried e ctx flushed pre blocks block start)
    (hsent : sent <+: call.segment.elems)
    (hpushed : pushed = call.earlier ++ call.done.flatMap Segment.entries ++
      sent.map (Prod.mk call.segment.peerId))
    (hvalid : call.segment.Valid e ctx) {batch : Batch} {completed taken : Nat}
    (hb : batch.Carries e ctx pushed flushed completed taken) :
    batch.first.1 = call.segment.peerId ∧
      block.map Container.entries ++ [batch.entries] <+: call.segment.singles := by
  obtain ⟨tail, htail⟩ := h.current
  obtain ⟨past, left, hsplit, hpast, hleft⟩ := List.map_eq_append_iff.mp htail.symm
  have hcarried : Porter.carried block = past := carried_of_map hpast.symm
  -- The flushed containers and the batch are a first part of what the segment queues.
  have hprefix : past ++ batch.entries <+: call.segment.entries := by
    have hsome : Porter.carried flushed ++ batch.entries <+: pushed := by
      rw [hb.entries]
      exact List.take_prefix ..
    rw [h.carried, hcarried, hpushed, List.append_assoc, List.prefix_append_right_inj] at hsome
    exact hsome.trans (hsent.map _)
  rw [hsplit, List.prefix_append_right_inj] at hprefix
  obtain ⟨later, rfl⟩ := hprefix
  obtain ⟨before, after, helems, hbefore, hafter⟩ := List.map_eq_append_iff.mp hsplit
  rw [Batch.entries, List.cons_append] at hafter
  obtain ⟨elem, after, rfl, hfirst, hrest⟩ := List.map_eq_cons_iff.mp hafter
  -- An element with MORE_FRAG is alone in its batch, and one without is the last of the segment.
  have halone : batch.rest = [] := by
    by_cases hlast : after = []
    · rw [hlast, List.map_nil] at hrest
      exact (List.append_eq_nil_iff.mp hrest.symm).1
    · apply hb.alone
      rw [← hfirst]
      exact hvalid.more before elem after helems hlast
  refine ⟨by rw [← hfirst], ?_⟩
  rw [Segment.singles, hsplit, List.map_append, hpast, List.prefix_append_right_inj, Batch.entries, halone]
  exact ⟨later.map fun entry => [entry], rfl⟩

theorem Call.Awaits.flush (h : call.Awaits e ctx pushed flushed sent)
    (hvalid : call.segment.Valid e ctx) {batch : Batch} {completed taken : Nat} {outer : Packet}
    {writable : Bool} (hb : batch.Carries e ctx pushed flushed completed taken)
    (hseq : outer.seqNum = ctx.number e batch.first.1)
    (hnext : ctx'.number e batch.first.1 = ctx.number e batch.first.1 + 1) :
    call.Awaits e ctx' pushed (flushed ++ [⟨batch.slot, writable, batch.entries, outer⟩])
      sent := by
  refine ⟨h.stage, h.pushed, ?_⟩
  rcases h.carried with hfirst | ⟨pre, blocks, block, start, hc⟩
  · exact .inl hfirst
  · obtain ⟨hpeer, hblock⟩ := hc.next_single h.stage.le h.pushed hvalid hb
    rw [hpeer] at hseq hnext
    refine .inr ⟨pre, blocks, block ++ [⟨batch.slot, writable, batch.entries, outer⟩], start, ?_,
      hc.earlier, hc.done, ?_, hc.numbered.snoc (hseq.trans hc.next), ?_⟩
    · rw [hc.flushed, List.append_assoc]
    · rw [List.map_append]
      exact hblock
    · rw [hnext, hc.next, List.length_append, List.length_singleton, UInt32.ofNat_add, UInt32.add_assoc]
      rfl

theorem Call.Awaits.drained (h : call.Awaits e ctx pushed flushed sent)
    (hdrained : Porter.carried flushed = pushed) :
    ∃ pre blocks block start, call.Carried e ctx flushed pre blocks block start ∧
      block.map Container.entries = sent.map fun elem => [(call.segment.peerId, elem)] := by
  rcases h.carried with ⟨hstage, hdone⟩ | ⟨pre, blocks, block, start, hc⟩
  · have hnil : sent = [] := by
      have hs := h.stage
      rwa [hstage] at hs
    have hpushed := h.pushed
    rw [hdone, hnil] at hpushed
    refine ⟨flushed, [], [], ctx.number e call.segment.peerId, ⟨by simp, ?_, ?_, List.nil_prefix, rfl, ?_⟩,
      by rw [hnil]; rfl⟩
    · rw [hdrained, hpushed]
      simp
    · rw [hdone]
      exact .nil
    · simp
  · refine ⟨pre, blocks, block, start, hc, ?_⟩
    obtain ⟨tail, htail⟩ := hc.current
    obtain ⟨past, left, -, hpast, -⟩ := List.map_eq_append_iff.mp htail.symm
    have heq : past = sent.map (Prod.mk call.segment.peerId) := by
      rw [hc.carried, carried_of_map hpast.symm, h.pushed] at hdrained
      exact List.append_cancel_left hdrained
    rw [← hpast, heq, List.map_map]
    rfl

end

namespace SendThreads

-- The peers of the table have ids.
def HasIds (e : Env) (ctx : Ctx) : Prop :=
  e.isMultiPeer = true → ∀ i < e.maxPeers, (ctx.peers i).active = true → (ctx.peers i).peer ≠ none

-- The log since `origin` is the containers that were flushed, which leaves the destinations.
structure Sends (e : Env) (origin ctx : Ctx) (flushed : List Container) : Prop where
  log : ctx.log = origin.log ++ flushed.flatMap (Container.sends e origin)
  peer : ∀ i, (ctx.peers i).peer = (origin.peers i).peer
  destAddr : ∀ i, (ctx.peers i).destAddr = (origin.peers i).destAddr

structure Inv (e : Env) (origin : Ctx) (s : SendThreads) : Prop where
  sends : Sends e origin s.ctx s.flushed
  flow : ∃ completed taken, s.Flow e completed taken
  ids : HasIds e s.ctx
  valid : ∀ call ∈ s.call, ∀ segment ∈ call.segment :: call.rest, segment.Valid e s.ctx
  sent : ∀ call ∈ s.call, ∃ sent, call.stage.Sent call.segment.elems sent
  awaits : ∀ call ∈ s.call, call.blocking = true → call.failed = false →
    ∃ sent, call.Awaits e s.ctx s.pushed s.flushed sent
  returned : ∀ ret ∈ s.returned, ret.blocking = true → ret.Flushed e origin

section

variable {e : Env} {s s' : SendThreads} {ctx origin : Ctx}

theorem dest_isSome (hids : HasIds e ctx) {i : Nat}
    (hactive : e.isMultiPeer = true → i < e.maxPeers ∧ (ctx.peers i).active = true) :
    (ctx.dest e (ctx.peers i).peerId).isSome = true := by
  unfold Ctx.dest
  split
  · rename_i hmulti
    obtain ⟨hlt, hon⟩ := hactive hmulti
    obtain ⟨id, hid⟩ := Option.ne_none_iff_exists'.mp (hids hmulti i hlt hon)
    have hpeerId : (ctx.peers i).peerId = id := by
      unfold PeerContext.peerId
      rw [hid]
      rfl
    unfold Ctx.findById
    rw [hpeerId, List.find?_isSome]
    exact ⟨i, List.mem_range.mpr hlt, by simp [hon, hid]⟩
  · rfl

theorem start_inv (hids : HasIds e ctx) (tcpActivePaths : Nat) : (start ctx tcpActivePaths).Inv e ctx where
  sends := ⟨by simp [start], fun _ => rfl, fun _ => rfl⟩
  flow := ⟨0, 0, RingQueue.empty_tracks _, fun _ h => (nomatch h), fun _ h => (nomatch h),
    fun _ h => (nomatch h), rfl, rfl⟩
  ids := hids
  valid := fun _ h => nomatch h
  sent := fun _ h => nomatch h
  awaits := fun _ h => nomatch h
  returned := fun _ h => nomatch h

theorem serviceSend_inv (h : s.Inv e origin) (peerId : UInt32) (data : Bytes) (compress blocking : Bool) :
    (s.serviceSend e peerId data compress blocking).Inv e origin := by
  unfold serviceSend
  split
  · rename_i i slots elems hcall hsend
    obtain ⟨helems, hactive⟩ := Ctx.serviceSend_ok hsend
    generalize hb : (blocking || e.type.isRawType) = block
    have hvalid : ∀ j ∈ i :: slots, Segment.Valid e s.ctx ⟨(s.ctx.peers j).peerId, elems⟩ :=
      fun j hj => ⟨messageElems_payload helems,
        fun _ _ _ hsplit hafter => messageElems_moreFrag helems hsplit hafter,
        dest_isSome h.ids fun hmulti => hactive hmulti j hj⟩
    obtain ⟨completed, taken, hflow⟩ := h.flow
    refine ⟨h.sends, ⟨completed, taken, hflow.called _ _ _ _⟩, h.ids,
      ?_, ?_, ?_, h.returned⟩
    · intro call hcall segment hmem
      obtain rfl := Option.some.inj hcall
      rcases List.mem_cons.mp hmem with rfl | hmem
      · exact hvalid i List.mem_cons_self
      · obtain ⟨j, hj, rfl⟩ := List.mem_map.mp hmem
        exact hvalid j (List.mem_cons_of_mem i hj)
    · intro call hcall
      obtain rfl := Option.some.inj hcall
      refine ⟨[], ?_⟩
      cases block <;> rfl
    · intro call hcall hblocking _
      obtain rfl := Option.some.inj hcall
      obtain rfl : block = true := hblocking
      exact ⟨[], rfl, by simp, .inl ⟨rfl, rfl⟩⟩
  · exact h

theorem Inv.thread (h : s.Inv e origin) (hflow : ∃ completed taken, s'.Flow e completed taken)
    (hctx : s'.ctx = s.ctx) (hcall : s'.call = s.call) (hpushed : s'.pushed = s.pushed)
    (hflushed : s'.flushed = s.flushed) (hreturned : s'.returned = s.returned) :
    s'.Inv e origin := by
  refine ⟨⟨?_, ?_, ?_⟩, hflow, ?_, ?_, ?_, ?_, ?_⟩
  · rw [hctx, hflushed]
    exact h.sends.log
  · rw [hctx]
    exact h.sends.peer
  · rw [hctx]
    exact h.sends.destAddr
  · rw [hctx]
    exact h.ids
  · rw [hcall, hctx]
    exact h.valid
  · rw [hcall]
    exact h.sent
  · rw [hcall, hctx, hpushed, hflushed]
    exact h.awaits
  · rw [hreturned]
    exact h.returned

theorem Inv.pop (h : s.Inv e origin) : (s.pop e).Inv e origin := by
  obtain ⟨completed, taken, hflow⟩ := h.flow
  apply h.thread ⟨completed, hflow.pop⟩ <;>
  · unfold SendThreads.pop
    split
    · split
      · rfl
      · split <;> rfl
    · rfl

theorem Inv.append (h : s.Inv e origin) : (s.append e).Inv e origin := by
  obtain ⟨completed, taken, hflow⟩ := h.flow
  apply h.thread ⟨completed, taken, hflow.append⟩ <;>
  · unfold SendThreads.append
    split
    · split <;> rfl
    · rfl
    · rfl

theorem Inv.peek (h : s.Inv e origin) : (s.peek e).Inv e origin := by
  obtain ⟨completed, taken, hflow⟩ := h.flow
  apply h.thread ⟨completed, taken, hflow.peek⟩ <;>
  · unfold SendThreads.peek
    split
    · dsimp only
      split <;> rfl
    · rfl

theorem Inv.tryPop (h : s.Inv e origin) : (s.tryPop e).Inv e origin := by
  obtain ⟨completed, taken, hflow⟩ := h.flow
  apply h.thread ⟨completed, hflow.tryPop⟩ <;>
  · unfold SendThreads.tryPop
    split
    · split <;> rfl
    · rfl

theorem Inv.complete (h : s.Inv e origin) : s.complete.Inv e origin := by
  obtain ⟨completed, taken, hflow⟩ := h.flow
  obtain ⟨completed', hflow'⟩ := hflow.complete
  apply h.thread ⟨completed', taken, hflow'⟩ <;>
  · unfold SendThreads.complete
    split <;> rfl

theorem flush_same (s : SendThreads) (writable : Bool) : (s.flush e writable).call = s.call ∧
    (s.flush e writable).pushed = s.pushed ∧ (s.flush e writable).returned = s.returned := by
  unfold SendThreads.flush
  split <;> exact ⟨rfl, rfl, rfl⟩

-- A flush leaves ids, activity and destinations.
theorem flush_peers (s : SendThreads) (writable : Bool) (i : Nat) :
    ((s.flush e writable).ctx.peers i).peer = (s.ctx.peers i).peer ∧
      ((s.flush e writable).ctx.peers i).active = (s.ctx.peers i).active ∧
      ((s.flush e writable).ctx.peers i).destAddr = (s.ctx.peers i).destAddr := by
  unfold SendThreads.flush
  split
  · rename_i batch _
    obtain ⟨-, hpeer, hactive, -, hdest⟩ :=
      Slot.flush_same e (s.ctx.slotInitPeer batch.slot) batch.packed writable
    by_cases hi : i = batch.slot
    · subst hi
      rw [Ctx.store_peers_self]
      exact ⟨hpeer, hactive, hdest⟩
    · rw [Ctx.store_peers_of_ne hi]
      exact ⟨rfl, rfl, rfl⟩
  · exact ⟨rfl, rfl, rfl⟩

theorem Sends.sends_eq {flushed : List Container} (h : Sends e origin ctx flushed) :
    Container.sends e ctx = Container.sends e origin := by
  funext c
  unfold Container.sends PeerContext.peerId
  have hacts : (ctx.slotInitPeer c.slot).dataActs e c.writable =
      (origin.slotInitPeer c.slot).dataActs e c.writable :=
    Slot.dataActs_congr (h.peer c.slot) (h.destAddr c.slot) c.writable
  rw [hacts, h.peer]

theorem Inv.flush (hseals : e.Seals) (h : s.Inv e origin) (writable : Bool) :
    (s.flush e writable).Inv e origin := by
  obtain ⟨completed, taken, hflow⟩ := h.flow
  obtain ⟨hflow', hcases⟩ := hflow.flush hseals writable
  obtain ⟨hcall, hpushed, hreturned⟩ := flush_same s writable
  have hpeers := flush_peers (e := e) s writable
  rcases hcases with ⟨hflushed, hctx⟩ | ⟨batch, outer, hb, hflushed, hlog, hseq, hdest, hnext⟩
  · exact h.thread ⟨completed, taken, hflow'⟩ hctx hcall hpushed hflushed hreturned
  · refine ⟨⟨?_, fun i => (hpeers i).1.trans (h.sends.peer i),
      fun i => (hpeers i).2.2.trans (h.sends.destAddr i)⟩, ⟨completed, taken, hflow'⟩,
      fun hmulti i hi hon => ?_, ?_, ?_, ?_, ?_⟩
    · rw [hlog, h.sends.sends_eq, h.sends.log, hflushed, List.flatMap_append,
        List.flatMap_singleton, List.append_assoc]
    · rw [(hpeers i).1]
      exact h.ids hmulti i hi ((hpeers i).2.1.symm.trans hon)
    · rw [hcall]
      intro call hmem segment hsegment
      have hvalid := h.valid call hmem segment hsegment
      exact ⟨hvalid.fits, hvalid.more, hdest ▸ hvalid.found⟩
    · rw [hcall]
      exact h.sent
    · rw [hcall, hpushed, hflushed]
      intro call hmem hblocking hok
      obtain ⟨sent, hawaits⟩ := h.awaits call hmem hblocking hok
      exact ⟨sent, hawaits.flush (h.valid call hmem call.segment List.mem_cons_self) hb hseq hnext⟩
    · rw [hreturned]
      exact h.returned

-- The end of a segment. Where the call blocks and has not failed, all of it is flushed.
theorem Inv.endSegment (h : s.Inv e origin) {call : Call}
    (hvalid : ∀ segment ∈ call.segment :: call.rest, segment.Valid e s.ctx)
    (hawaits : call.blocking = true → call.failed = false →
      call.Awaits e s.ctx s.pushed s.flushed call.segment.elems ∧ carried s.flushed = s.pushed) :
    (s.endSegment call).Inv e origin := by
  obtain ⟨completed, taken, hflow⟩ := h.flow
  have hblocks : call.blocking = true → call.failed = false →
      ∃ pre blocks, s.flushed = pre ++ blocks.flatten ∧ carried pre = call.earlier ∧
        List.Forall₂ Segment.CarriedBy (call.done ++ [call.segment]) blocks := by
    intro hblocking hok
    obtain ⟨ha, hdrained⟩ := hawaits hblocking hok
    obtain ⟨pre, blocks, block, start, hc, hblock⟩ := ha.drained hdrained
    have hcarried : call.segment.CarriedBy block := by
      refine ⟨?_, start, hc.numbered⟩
      rw [hblock, Segment.singles, Segment.entries, List.map_map]
      rfl
    refine ⟨pre, blocks ++ [block], ?_, hc.earlier, List.rel_append hc.done (.cons hcarried .nil)⟩
    rw [hc.flushed, List.flatten_append, List.append_assoc, List.flatten_cons, List.flatten_nil,
      List.append_nil]
  unfold SendThreads.endSegment
  split
  · refine ⟨h.sends, ⟨completed, taken, hflow.called _ _ _ _⟩, h.ids,
      fun _ hnone => (nomatch hnone), fun _ hnone => (nomatch hnone), fun _ hnone => (nomatch hnone), ?_⟩
    intro ret hret hblocking
    rcases List.mem_append.mp hret with hret | hret
    · exact h.returned ret hret hblocking
    · by_cases hfailed : call.failed = true
      · rw [if_pos hfailed] at hret
        cases hret
      · rw [if_neg hfailed] at hret
        obtain rfl := List.mem_singleton.mp hret
        exact ⟨h.sends.log, hblocks hblocking (by simpa using hfailed), hflow.built⟩
  · rename_i segment rest hrest
    rw [hrest] at hvalid
    refine ⟨h.sends, ⟨completed, taken, hflow.called _ _ _ _⟩, h.ids,
      ?_, ?_, ?_, h.returned⟩
    · intro next hnext
      obtain rfl := Option.some.inj hnext
      exact fun x hx => hvalid x (List.mem_cons_of_mem _ hx)
    · intro next hnext
      obtain rfl := Option.some.inj hnext
      refine ⟨[], ?_⟩
      cases call.blocking <;> rfl
    · intro next hnext hblocking hok
      obtain rfl := Option.some.inj hnext
      obtain ⟨ha, -⟩ := hawaits hblocking hok
      obtain ⟨pre, blocks, hflushed, hearlier, hdone⟩ := hblocks hblocking hok
      refine ⟨[], ?_, ?_, .inr ⟨pre, blocks, [], s.ctx.number e segment.peerId, ?_, hearlier, hdone,
        List.nil_prefix, rfl, by simp⟩⟩
      · change (CallStage.start call.blocking segment).Sent segment.elems []
        rw [show call.blocking = true from hblocking]
        rfl
      · rw [ha.pushed, List.flatMap_append, List.flatMap_singleton, List.map_nil, List.append_nil,
          ← List.append_assoc]
        rfl
      · rw [List.append_nil]
        exact hflushed

theorem Inv.proceed (h : s.Inv e origin) : (s.proceed e).Inv e origin := by
  obtain ⟨completed, taken, hflow⟩ := h.flow
  have hdrained : s.queue.Drained → carried s.flushed = s.pushed := hflow.drained
  -- A new stage of the same call.
  have hstage : ∀ {call : Call} {stage : CallStage}, s.call = some call →
      (∀ sent, call.stage.Sent call.segment.elems sent → stage.Sent call.segment.elems sent) →
      (call.stage = .before → carried s.flushed = s.pushed) →
      Inv e origin { s with call := some { call with stage := stage } } := by
    intro call stage hcall hsent hbefore
    refine ⟨h.sends, ⟨completed, taken, hflow.called _ _ _ _⟩, h.ids,
      ?_, ?_, ?_, h.returned⟩
    · intro next hnext
      obtain rfl := Option.some.inj hnext
      exact h.valid call hcall
    · intro next hnext
      obtain rfl := Option.some.inj hnext
      obtain ⟨sent, hs⟩ := h.sent call hcall
      exact ⟨sent, hsent sent hs⟩
    · intro next hnext hblocking hok
      obtain rfl := Option.some.inj hnext
      obtain ⟨sent, ha⟩ := h.awaits call hcall hblocking hok
      refine ⟨sent, hsent sent ha.stage, ha.pushed, .inr ?_⟩
      rcases ha.carried with ⟨hs, -⟩ | ⟨pre, blocks, block, start, hc⟩
      · obtain ⟨pre, blocks, block, start, hc, -⟩ := ha.drained (hbefore hs)
        exact ⟨pre, blocks, block, start, hc.staged stage⟩
      · exact ⟨pre, blocks, block, start, hc.staged stage⟩
  unfold SendThreads.proceed
  split
  · exact h
  rename_i call hcall
  split
  · rename_i hs
    split
    · rename_i hempty
      refine hstage hcall (fun sent hsent => ?_) fun _ => hdrained hempty
      rw [hs] at hsent
      obtain rfl : sent = [] := hsent
      rfl
    · exact h
  · rename_i elem todo hs
    obtain ⟨sent, hsent⟩ := h.sent call hcall
    rw [hs] at hsent
    have hvalid := h.valid call hcall call.segment List.mem_cons_self
    split
    · rename_i queue hpush
      have hmem : elem ∈ call.segment.elems := by
        rw [show call.segment.elems = sent ++ elem :: todo from hsent]
        simp
      refine ⟨h.sends, ⟨completed, taken, hflow.push hpush (hvalid.fits elem hmem) hvalid.found _⟩,
        h.ids, ?_, ?_, ?_,
        h.returned⟩
      · intro next hnext
        obtain rfl := Option.some.inj hnext
        exact h.valid call hcall
      · intro next hnext
        obtain rfl := Option.some.inj hnext
        exact ⟨sent ++ [elem], by rw [CallStage.Sent, hsent, List.append_assoc]; rfl⟩
      · intro next hnext hblocking hok
        obtain rfl := Option.some.inj hnext
        obtain ⟨sent, ha⟩ := h.awaits call hcall hblocking hok
        have hsent := ha.stage
        rw [hs] at hsent
        refine ⟨sent ++ [elem], by rw [CallStage.Sent, hsent, List.append_assoc]; rfl, ?_, .inr ?_⟩
        · change s.pushed ++ [(call.segment.peerId, elem)] = _
          rw [ha.pushed, List.map_append, List.map_singleton, ← List.append_assoc]
        · rcases ha.carried with ⟨hbefore, -⟩ | ⟨pre, blocks, block, start, hc⟩
          · rw [hs] at hbefore
            cases hbefore
          · exact ⟨pre, blocks, block, start, hc.staged _⟩
    · split
      · exact h
      · exact h.endSegment (h.valid call hcall) fun _ hfailed => (nomatch hfailed)
  · rename_i hs
    split
    · rename_i hblocking
      refine hstage hcall (fun sent hsent => ?_) fun hbefore => ?_
      · rw [hs] at hsent
        exact (List.append_nil sent).symm.trans hsent.symm
      · rw [hs] at hbefore
        cases hbefore
    · rename_i hblocking
      exact h.endSegment (h.valid call hcall) fun htrue => absurd htrue hblocking
  · rename_i hs
    split
    · rename_i hempty
      refine h.endSegment (h.valid call hcall) fun hblocking hok => ⟨?_, hdrained hempty⟩
      obtain ⟨sent, ha⟩ := h.awaits call hcall hblocking hok
      have hsent := ha.stage
      rw [hs] at hsent
      obtain rfl : sent = call.segment.elems := hsent
      exact ha
    · exact h

theorem step_inv (hseals : e.Seals) (action : Action) (h : s.Inv e origin) :
    (s.step e action).Inv e origin := by
  cases action with
  | serviceSend peerId data compress blocking => exact serviceSend_inv h peerId data compress blocking
  | proceed => exact h.proceed
  | pop => exact h.pop
  | append => exact h.append
  | peek => exact h.peek
  | tryPop => exact h.tryPop
  | flush writable => exact h.flush hseals writable
  | complete => exact h.complete
  | requestClose =>
    obtain ⟨completed, taken, hflow⟩ := h.flow
    exact h.thread ⟨completed, taken, hflow.called _ _ _ _⟩ rfl rfl rfl rfl rfl
  | stopThread =>
    obtain ⟨completed, taken, hflow⟩ := h.flow
    exact h.thread ⟨completed, taken, hflow.called _ _ _ _⟩ rfl rfl rfl rfl rfl

end

end SendThreads

-- Every call that blocked and returned POTR_OK, in every run of the two threads. In a table that
-- potr_internal_peer_create made, the peers have ids; encryption is assumed not to fail.
theorem blocking_send_flushed {e : Env} (hseals : e.Seals) {ctx : Ctx}
    (hids : SendThreads.HasIds e ctx) (tcpActivePaths : Nat) (actions : List SendThreads.Action) :
    ∀ ret ∈ ((SendThreads.start ctx tcpActivePaths).run e actions).returned,
      ret.blocking = true → ret.Flushed e ctx :=
  (Run.foldl_preserves (fun _ action h => SendThreads.step_inv hseals action h)
    (SendThreads.start_inv hids tcpActivePaths) actions).returned

-- A short message is still queued when a blocking call comes with one of two fragments.
def SendThreads.sampleRun : List SendThreads.Action :=
  [.serviceSend PEER_NA [7] false false, .proceed, .proceed,
    .serviceSend PEER_NA (List.replicate 100 1) false true,
    .pop, .append, .flush true, .complete, .complete, .proceed, .proceed, .proceed, .proceed,
    .pop, .append, .flush true, .complete, .complete, .pop, .append, .flush true, .complete, .proceed]

theorem blocking_send_flushed_sample :
    let e := Env.sample .unicast
    let ctx := { Ctx.opened e with peers := fun _ => (Slot.sample e).toPeerContext }
    let s := (SendThreads.start ctx 0).run e SendThreads.sampleRun
    (∀ ret ∈ s.returned, ret.blocking = true → ret.Flushed e ctx) ∧
      s.returned.map (fun ret =>
        (ret.blocking, ret.earlier.length, ret.flushed.length, ret.log.length)) =
        [(false, 0, 0, 0), (true, 1, 3, 6)] := by
  refine ⟨blocking_send_flushed (fun henc => ?_) (fun hmulti => ?_) 0 SendThreads.sampleRun,
    by decide +kernel⟩
  · cases henc
  · cases hmulti

end Porter
