import Porter.Lib.Buffer
import Porter.Lib.RingQueue
import Porter.Lib.Run
import Porter.Types

namespace Porter

-- potr_internal_payload_elem. The payload is an offset into the pool.
structure PayloadElem where
  peerId : UInt32
  flags : UInt16
  payloadLen : Nat
  payload : Nat
  deriving DecidableEq, Repr

-- What a producer hands over: a payload that fits a slot of the pool.
structure Handover (maxPayload : Nat) where
  peerId : UInt32
  flags : UInt16
  payload : Bytes
  fits : payload.length ≤ maxPayload

def Handover.entry {maxPayload : Nat} (x : Handover maxPayload) : UInt32 × Elem :=
  (x.peerId, ⟨x.flags, x.payload⟩)

inductive QueueError where
  | full
  | canceled
  | empty
  | timeout
  deriving DecidableEq, Repr

-- potr_internal_send_queue without its mutex and condition variables: what a thread does between
-- lock and unlock is one step.
structure PayloadQueue where
  entries : Nat → PayloadElem
  payloadPool : Nat → UInt8
  depth : Nat
  head : Nat
  tail : Nat
  count : Nat
  inflight : Nat

namespace PayloadQueue

open Buffer

def init (depth maxPayload : Nat) : PayloadQueue where
  entries := fun i => ⟨PEER_NA, 0, 0, i * maxPayload⟩
  payloadPool := fun _ => 0
  depth := depth
  head := 0
  tail := 0
  count := 0
  inflight := 0

-- What the holder of a copied element reads through it.
def load (q : PayloadQueue) (elem : PayloadElem) : UInt32 × Elem :=
  (elem.peerId, ⟨elem.flags, copyOut q.payloadPool elem.payload elem.payloadLen⟩)

def isFull (q : PayloadQueue) : Bool := q.depth ≤ q.count + q.inflight

section

variable {maxPayload : Nat}

-- The writes that push and push_wait share.
def store (q : PayloadQueue) (x : Handover maxPayload) : PayloadQueue :=
  let slot := (q.entries q.tail).payload
  { q with
    entries := Function.update q.entries q.tail ⟨x.peerId, x.flags, x.payload.length, slot⟩
    payloadPool := copyIn q.payloadPool slot x.payload
    tail := (q.tail + 1) % q.depth
    count := q.count + 1 }

def push (q : PayloadQueue) (x : Handover maxPayload) : Except QueueError PayloadQueue :=
  if q.isFull then .error .full else .ok (q.store x)

-- One round of the loop of push_wait, `none` when it goes to sleep on not_full.
def pushWait (q : PayloadQueue) (x : Handover maxPayload) (running : Bool) :
    Option (Except QueueError PayloadQueue) :=
  if q.isFull then if !running then some (.error .canceled) else none else some (.ok (q.store x))

end

-- The writes that pop and try_pop share.
def take (q : PayloadQueue) : PayloadElem × PayloadQueue :=
  (q.entries q.head,
    { q with
      head := (q.head + 1) % q.depth
      count := q.count - 1
      inflight := q.inflight + 1 })

-- One round of the loop of pop, `none` when it goes to sleep on not_empty.
def pop (q : PayloadQueue) (running : Bool) :
    Option (Except QueueError (PayloadElem × PayloadQueue)) :=
  if q.count = 0 then if !running then some (.error .canceled) else none else some (.ok q.take)

def tryPop (q : PayloadQueue) : Except QueueError (PayloadElem × PayloadQueue) :=
  if q.count = 0 then .error .empty else .ok q.take

def peek (q : PayloadQueue) : Except QueueError PayloadElem :=
  if q.count = 0 then .error .empty else .ok (q.entries q.head)

-- peek_timed looks again when its only sleep is over, for whatever reason.
def peekTimed (q : PayloadQueue) (slept : Bool) : Option (Except QueueError PayloadElem) :=
  if q.count = 0 then if slept then some (.error .timeout) else none
  else some (.ok (q.entries q.head))

def complete (q : PayloadQueue) : PayloadQueue :=
  if 0 < q.inflight then { q with inflight := q.inflight - 1 } else q

-- The condition of the loop of wait_drained.
def isDrained (q : PayloadQueue) : Bool := !(0 < q.count || 0 < q.inflight)

-- The queue of what is in the slots.
def ring (q : PayloadQueue) : RingQueue (UInt32 × Elem) where
  cells i := q.load (q.entries i)
  head := q.head
  tail := q.tail
  count := q.count
  inflight := q.inflight

-- Each entry keeps to its own slot of the pool.
def Laid (maxPayload : Nat) (q : PayloadQueue) : Prop :=
  ∀ i, (q.entries i).payload = i * maxPayload ∧ (q.entries i).payloadLen ≤ maxPayload

section

variable {maxPayload : Nat} {q : PayloadQueue} {x : Handover maxPayload}

theorem init_laid (depth maxPayload : Nat) : (init depth maxPayload).Laid maxPayload := fun _ =>
  ⟨rfl, Nat.zero_le _⟩

theorem store_laid (h : q.Laid maxPayload) (x : Handover maxPayload) :
    (q.store x).Laid maxPayload := by
  intro i
  by_cases hi : i = q.tail
  · subst hi
    simp only [store, Function.update_self]
    exact ⟨(h q.tail).1, x.fits⟩
  · simp only [store, Function.update_of_ne hi]
    exact h i

theorem load_of_ne (h : q.Laid maxPayload) (x : Handover maxPayload) {i : Nat} (hi : i ≠ q.tail) :
    (q.store x).load (q.entries i) = q.load (q.entries i) := by
  obtain ⟨hoffset, hlen⟩ := h i
  have hfits := x.fits
  have hapart : i * maxPayload + maxPayload ≤ q.tail * maxPayload ∨
      q.tail * maxPayload + maxPayload ≤ i * maxPayload := by
    rcases Nat.lt_or_gt_of_ne hi with hlt | hgt
    · exact .inl (Nat.succ_mul i maxPayload ▸ Nat.mul_le_mul_right maxPayload hlt)
    · exact .inr (Nat.succ_mul q.tail maxPayload ▸ Nat.mul_le_mul_right maxPayload hgt)
  unfold load store
  rw [copyOut_copyIn_of_disjoint]
  rw [hoffset, (h q.tail).1]
  omega

theorem ring_store (h : q.Laid maxPayload) (x : Handover maxPayload) :
    (q.store x).ring =
      { q.ring with
        cells := Function.update q.ring.cells q.tail x.entry
        tail := (q.tail + 1) % q.depth
        count := q.count + 1 } := by
  have hcells : (q.store x).ring.cells = Function.update q.ring.cells q.tail x.entry := by
    funext i
    by_cases hi : i = q.tail
    · subst hi
      rw [Function.update_self]
      simp only [ring, store, load, Function.update_self, copyOut_copyIn_self]
      rfl
    · rw [Function.update_of_ne hi]
      have hentry : (q.store x).entries i = q.entries i := Function.update_of_ne hi ..
      change (q.store x).load ((q.store x).entries i) = q.load (q.entries i)
      rw [hentry, load_of_ne h x hi]
  rw [← hcells]
  rfl

-- The operations on the pool are those of the ring.

theorem ring_push (h : q.Laid maxPayload) (x : Handover maxPayload) :
    (q.push x).toOption.map ring = q.ring.push q.depth x.entry := by
  unfold push isFull RingQueue.push
  by_cases hfull : q.depth ≤ q.count + q.inflight
  · rw [if_pos (decide_eq_true hfull), if_pos (by exact hfull)]
    rfl
  · rw [if_neg (by simpa using hfull), if_neg (by exact hfull)]
    exact congrArg some (ring_store h x)

theorem ring_tryPop (q : PayloadQueue) :
    q.tryPop.toOption.map (fun out => (q.head, out.2.ring)) = q.ring.pop q.depth := by
  unfold tryPop RingQueue.pop
  by_cases hempty : q.count = 0
  · rw [if_pos hempty, if_pos (by exact hempty)]
    rfl
  · rw [if_neg hempty, if_neg (by exact hempty)]
    rfl

theorem ring_complete (q : PayloadQueue) : q.complete.ring = q.ring.complete := by
  unfold complete RingQueue.complete
  split
  · rfl
  · rename_i hnone
    have hzero : q.ring.inflight - 1 = q.ring.inflight := by
      change q.inflight - 1 = q.inflight
      omega
    rw [hzero]

end

end PayloadQueue

-- Where the send thread is: between two calls, asleep in pop or asleep in peek_timed.
inductive Consumer where
  | idle
  | popping
  | peeking
  deriving DecidableEq, Repr

-- The queue, the threads that sleep on its condition variables, and what happened so far.
structure QueueThreads (maxPayload : Nat) where
  queue : PayloadQueue
  running : Bool
  -- producers asleep in push_wait, with what they want to push
  waiting : Nat → Option (Handover maxPayload)
  -- callers asleep in wait_drained
  draining : Nat → Bool
  consumer : Consumer
  -- in the order of the critical sections
  pushed : List (UInt32 × Elem)
  -- the copies that pop and try_pop gave out, with what they held then
  popped : List (PayloadElem × (UInt32 × Elem))
  completed : Nat
  -- the last copy that peek or peek_timed gave out, if nothing was popped since
  peeked : Option (PayloadElem × (UInt32 × Elem))
  -- for each return of wait_drained, how many had been pushed and how many completed
  returns : List (Nat × Nat)

namespace QueueThreads

variable {maxPayload : Nat}

def start (depth maxPayload : Nat) : QueueThreads maxPayload where
  queue := .init depth maxPayload
  running := true
  waiting := fun _ => none
  draining := fun _ => false
  consumer := .idle
  pushed := []
  popped := []
  completed := 0
  peeked := none
  returns := []

def stored (s : QueueThreads maxPayload) (x : Handover maxPayload) (q : PayloadQueue) :
    QueueThreads maxPayload :=
  { s with queue := q, pushed := s.pushed ++ [x.entry] }

def took (s : QueueThreads maxPayload) (elem : PayloadElem) (q : PayloadQueue) :
    QueueThreads maxPayload :=
  { s with
    queue := q, popped := s.popped ++ [(elem, s.queue.load elem)], peeked := none,
    consumer := .idle }

def looked (s : QueueThreads maxPayload) (elem : PayloadElem) : QueueThreads maxPayload :=
  { s with peeked := some (elem, s.queue.load elem), consumer := .idle }

def push (s : QueueThreads maxPayload) (x : Handover maxPayload) : QueueThreads maxPayload :=
  match s.queue.push x with
  | .ok q => s.stored x q
  | .error _ => s

def pushWait (s : QueueThreads maxPayload) (producer : Nat) (x : Handover maxPayload) :
    QueueThreads maxPayload :=
  match s.queue.pushWait x s.running with
  | none => { s with waiting := Function.update s.waiting producer (some x) }
  | some (.ok q) => { s.stored x q with waiting := Function.update s.waiting producer none }
  | some (.error _) => { s with waiting := Function.update s.waiting producer none }

def pop (s : QueueThreads maxPayload) : QueueThreads maxPayload :=
  match s.queue.pop s.running with
  | none => { s with consumer := .popping }
  | some (.ok (elem, q)) => s.took elem q
  | some (.error _) => { s with consumer := .idle }

def tryPop (s : QueueThreads maxPayload) : QueueThreads maxPayload :=
  match s.queue.tryPop with
  | .ok (elem, q) => s.took elem q
  | .error _ => s

def peek (s : QueueThreads maxPayload) : QueueThreads maxPayload :=
  match s.queue.peek with
  | .ok elem => s.looked elem
  | .error _ => s

def peekTimed (s : QueueThreads maxPayload) (slept : Bool) : QueueThreads maxPayload :=
  match s.queue.peekTimed slept with
  | none => { s with consumer := .peeking }
  | some (.ok elem) => s.looked elem
  | some (.error _) => { s with consumer := .idle }

-- complete is called once for each element that was popped.
def complete (s : QueueThreads maxPayload) : QueueThreads maxPayload :=
  if s.completed < s.popped.length then
    { s with queue := s.queue.complete, completed := s.completed + 1 }
  else s

def waitDrained (s : QueueThreads maxPayload) (caller : Nat) : QueueThreads maxPayload :=
  if s.queue.isDrained then
    { s with
      draining := Function.update s.draining caller false
      returns := s.returns ++ [(s.pushed.length, s.completed)] }
  else { s with draining := Function.update s.draining caller true }

-- What the threads do, one critical section at a time. A sleep on a condition variable may end at
-- any time, with or without a signal.
inductive Action (maxPayload : Nat) where
  | push (producer : Nat) (x : Handover maxPayload)
  | pushWait (producer : Nat) (x : Handover maxPayload)
  | wakeProducer (producer : Nat)
  | pop
  | tryPop
  | peek
  | peekTimed
  | wakeConsumer
  | complete
  | waitDrained (caller : Nat)
  | wakeDrained (caller : Nat)
  | stop

-- A thread that sleeps makes no other call.
def step (s : QueueThreads maxPayload) : Action maxPayload → QueueThreads maxPayload
  | .push producer x => if (s.waiting producer).isSome then s else s.push x
  | .pushWait producer x => if (s.waiting producer).isSome then s else s.pushWait producer x
  | .wakeProducer producer =>
      match s.waiting producer with
      | some x => s.pushWait producer x
      | none => s
  | .pop => if s.consumer = .idle then s.pop else s
  | .tryPop => if s.consumer = .idle then s.tryPop else s
  | .peek => if s.consumer = .idle then s.peek else s
  | .peekTimed => if s.consumer = .idle then s.peekTimed false else s
  | .wakeConsumer =>
      match s.consumer with
      | .idle => s
      | .popping => s.pop
      | .peeking => s.peekTimed true
  | .complete => if s.consumer = .idle then s.complete else s
  | .waitDrained caller => if s.draining caller then s else s.waitDrained caller
  | .wakeDrained caller => if s.draining caller then s.waitDrained caller else s
  | .stop => { s with running := false }

def run (s : QueueThreads maxPayload) (actions : List (Action maxPayload)) :
    QueueThreads maxPayload := actions.foldl step s

-- The ring holds what was pushed and not completed, the copies that were popped and not completed
-- still match their slots, and a copy that was peeked is the head.
structure Inv (depth : Nat) (s : QueueThreads maxPayload) : Prop where
  depth_eq : s.queue.depth = depth
  laid : s.queue.Laid maxPayload
  tracks : RingQueue.Tracks depth s.queue.ring s.pushed s.completed s.popped.length
  contents : s.popped.map Prod.snd = s.pushed.take s.popped.length
  copies : ∀ k copy, s.completed ≤ k → s.popped[k]? = some copy →
    s.queue.entries (k % depth) = copy.1
  peeked : ∀ copy, s.peeked = some copy → 0 < s.queue.count ∧
    s.queue.entries s.queue.head = copy.1 ∧ s.pushed[s.popped.length]? = some copy.2
  returns : ∀ r ∈ s.returns, r.1 = r.2

section

variable {depth : Nat} {s s' : QueueThreads maxPayload}

-- A thread that goes to sleep or wakes up in vain changes nothing else.
theorem Inv.asleep (h : s.Inv depth) (hqueue : s'.queue = s.queue) (hpushed : s'.pushed = s.pushed)
    (hpopped : s'.popped = s.popped) (hcompleted : s'.completed = s.completed)
    (hpeeked : s'.peeked = s.peeked) (hreturns : s'.returns = s.returns) : s'.Inv depth := by
  refine ⟨?_, ?_, ?_, ?_, ?_, ?_, ?_⟩
  · rw [hqueue]
    exact h.depth_eq
  · rw [hqueue]
    exact h.laid
  · rw [hqueue, hpushed, hpopped, hcompleted]
    exact h.tracks
  · rw [hpushed, hpopped]
    exact h.contents
  · rw [hqueue, hpopped, hcompleted]
    exact h.copies
  · rw [hqueue, hpushed, hpopped, hpeeked]
    exact h.peeked
  · rw [hreturns]
    exact h.returns

theorem Inv.stored (h : s.Inv depth) {x : Handover maxPayload} (hroom : s.queue.isFull = false) :
    (s.stored x (s.queue.store x)).Inv depth := by
  have hpush : s.queue.ring.push depth x.entry = some (s.queue.store x).ring := by
    rw [← h.depth_eq, ← PayloadQueue.ring_push h.laid]
    unfold PayloadQueue.push
    rw [if_neg (Bool.eq_false_iff.mp hroom)]
    rfl
  have htracks := h.tracks.push hpush
  have hlen := h.tracks.taken_le
  -- the slot that is written holds no element that was popped and not completed
  have hother : ∀ k, s.completed ≤ k → k < s.pushed.length → k % depth ≠ s.queue.tail := by
    intro k hk hlt
    have htail : s.queue.tail = s.pushed.length % depth := h.tracks.tail
    have hspace := htracks.room
    rw [List.length_append, List.length_singleton] at hspace
    rw [htail]
    exact RingQueue.mod_ne_of_lt hlt (by omega)
  have hentries : ∀ k, s.completed ≤ k → k < s.pushed.length →
      (s.queue.store x).entries (k % depth) = s.queue.entries (k % depth) := fun k hk hlt =>
    Function.update_of_ne (hother k hk hlt) ..
  refine ⟨h.depth_eq, PayloadQueue.store_laid h.laid x, htracks, ?_, ?_, ?_, h.returns⟩
  · change s.popped.map Prod.snd = (s.pushed ++ [x.entry]).take s.popped.length
    rw [List.take_append_of_le_length hlen]
    exact h.contents
  · intro k copy hk hcopy
    have hlt := (List.getElem?_eq_some_iff.mp hcopy).1
    refine (hentries k hk (Nat.lt_of_lt_of_le hlt hlen)).trans (h.copies k copy hk hcopy)
  · intro copy hcopy
    obtain ⟨hcount, hentry, hcontent⟩ := h.peeked copy hcopy
    have hlt : s.popped.length < s.pushed.length := (List.getElem?_eq_some_iff.mp hcontent).1
    refine ⟨Nat.succ_pos _, ?_, ?_⟩
    · have hhead : s.queue.head = s.popped.length % depth := h.tracks.head
      change (s.queue.store x).entries s.queue.head = copy.1
      rw [hhead] at hentry ⊢
      exact (hentries _ h.tracks.completed_le hlt).trans hentry
    · exact (List.getElem?_append_left hlt).trans hcontent

theorem Inv.head (h : s.Inv depth) (hsome : 0 < s.queue.count) :
    s.queue.head = s.popped.length % depth ∧
      s.pushed[s.popped.length]? = some (s.queue.load (s.queue.entries s.queue.head)) := by
  have hpeek : s.queue.ring.peek = some s.queue.head := if_neg (Nat.pos_iff_ne_zero.mp hsome)
  obtain ⟨hhead, x, hx, hcell⟩ := h.tracks.peek hpeek
  refine ⟨hhead, hx.trans (congrArg some hcell.symm)⟩

theorem Inv.took (h : s.Inv depth) (hsome : 0 < s.queue.count) :
    (s.took s.queue.take.1 s.queue.take.2).Inv depth := by
  obtain ⟨hhead, hcontent⟩ := h.head hsome
  have hpop : s.queue.ring.pop depth = some (s.queue.head, s.queue.take.2.ring) := by
    rw [← h.depth_eq, ← PayloadQueue.ring_tryPop]
    unfold PayloadQueue.tryPop
    rw [if_neg (Nat.pos_iff_ne_zero.mp hsome)]
    rfl
  have hlen : (s.took s.queue.take.1 s.queue.take.2).popped.length = s.popped.length + 1 :=
    List.length_append
  refine ⟨h.depth_eq, h.laid, ?_, ?_, ?_, fun _ hcopy => (nomatch hcopy), h.returns⟩
  · rw [hlen]
    exact (h.tracks.pop hpop).1
  · rw [hlen]
    change (s.popped ++ [_]).map Prod.snd = s.pushed.take (s.popped.length + 1)
    rw [List.map_append, h.contents, List.take_add_one, hcontent]
    rfl
  · intro k copy hk hcopy
    change (s.popped ++ [_])[k]? = some copy at hcopy
    rcases Nat.lt_or_ge k s.popped.length with hlt | hge
    · rw [List.getElem?_append_left hlt] at hcopy
      exact h.copies k copy hk hcopy
    · have hk' : k = s.popped.length := by
        have hbound := (List.getElem?_eq_some_iff.mp hcopy).1
        rw [List.length_append, List.length_singleton] at hbound
        omega
      subst hk'
      rw [List.getElem?_concat_length] at hcopy
      rw [← Option.some.inj hcopy, ← hhead]
      rfl

theorem Inv.looked (h : s.Inv depth) (hsome : 0 < s.queue.count) :
    (s.looked (s.queue.entries s.queue.head)).Inv depth := by
  refine ⟨h.depth_eq, h.laid, h.tracks, h.contents, h.copies, fun copy hcopy => ?_, h.returns⟩
  obtain rfl := Option.some.inj hcopy
  exact ⟨hsome, rfl, (h.head hsome).2⟩

theorem Inv.push (h : s.Inv depth) (x : Handover maxPayload) : (s.push x).Inv depth := by
  unfold QueueThreads.push PayloadQueue.push
  cases hfull : s.queue.isFull with
  | true => exact h
  | false => exact h.stored hfull

theorem Inv.pushWait (h : s.Inv depth) (producer : Nat) (x : Handover maxPayload) :
    (s.pushWait producer x).Inv depth := by
  unfold QueueThreads.pushWait PayloadQueue.pushWait
  cases hfull : s.queue.isFull with
  | true =>
    cases s.running with
    | true => exact h.asleep rfl rfl rfl rfl rfl rfl
    | false => exact h.asleep rfl rfl rfl rfl rfl rfl
  | false => exact (h.stored hfull).asleep rfl rfl rfl rfl rfl rfl

theorem Inv.pop (h : s.Inv depth) : s.pop.Inv depth := by
  unfold QueueThreads.pop PayloadQueue.pop
  by_cases hempty : s.queue.count = 0
  · rw [if_pos hempty]
    cases s.running with
    | true => exact h.asleep rfl rfl rfl rfl rfl rfl
    | false => exact h.asleep rfl rfl rfl rfl rfl rfl
  · rw [if_neg hempty]
    exact h.took (Nat.pos_of_ne_zero hempty)

theorem Inv.tryPop (h : s.Inv depth) : s.tryPop.Inv depth := by
  unfold QueueThreads.tryPop PayloadQueue.tryPop
  by_cases hempty : s.queue.count = 0
  · rw [if_pos hempty]
    exact h
  · rw [if_neg hempty]
    exact h.took (Nat.pos_of_ne_zero hempty)

theorem Inv.peek (h : s.Inv depth) : s.peek.Inv depth := by
  unfold QueueThreads.peek PayloadQueue.peek
  by_cases hempty : s.queue.count = 0
  · rw [if_pos hempty]
    exact h
  · rw [if_neg hempty]
    exact h.looked (Nat.pos_of_ne_zero hempty)

theorem Inv.peekTimed (h : s.Inv depth) (slept : Bool) : (s.peekTimed slept).Inv depth := by
  unfold QueueThreads.peekTimed PayloadQueue.peekTimed
  by_cases hempty : s.queue.count = 0
  · rw [if_pos hempty]
    cases slept with
    | true => exact h.asleep rfl rfl rfl rfl rfl rfl
    | false => exact h.asleep rfl rfl rfl rfl rfl rfl
  · rw [if_neg hempty]
    exact h.looked (Nat.pos_of_ne_zero hempty)

theorem Inv.complete (h : s.Inv depth) : s.complete.Inv depth := by
  unfold QueueThreads.complete
  split
  · rename_i hlt
    have hqueue : s.queue.complete.entries = s.queue.entries ∧
        s.queue.complete.payloadPool = s.queue.payloadPool ∧
        s.queue.complete.depth = s.queue.depth ∧ s.queue.complete.count = s.queue.count ∧
        s.queue.complete.head = s.queue.head := by
      unfold PayloadQueue.complete
      split <;> exact ⟨rfl, rfl, rfl, rfl, rfl⟩
    obtain ⟨hentries, -, hdepth, hcount, hhead⟩ := hqueue
    refine ⟨hdepth.trans h.depth_eq, ?_, ?_, h.contents, ?_, ?_, h.returns⟩
    · unfold PayloadQueue.Laid
      rw [hentries]
      exact h.laid
    · rw [PayloadQueue.ring_complete]
      exact h.tracks.complete hlt
    · intro k copy hk hcopy
      rw [hentries]
      exact h.copies k copy (Nat.le_of_succ_le hk) hcopy
    · rw [hentries, hcount, hhead]
      exact h.peeked
  · exact h

theorem Inv.waitDrained (h : s.Inv depth) (caller : Nat) : (s.waitDrained caller).Inv depth := by
  unfold QueueThreads.waitDrained
  split
  · rename_i hdrained
    unfold PayloadQueue.isDrained at hdrained
    simp only [Bool.not_eq_true', Bool.or_eq_false_iff, decide_eq_false_iff_not] at hdrained
    have hring : s.queue.ring.Drained :=
      ⟨Nat.eq_zero_of_not_pos hdrained.1, Nat.eq_zero_of_not_pos hdrained.2⟩
    obtain ⟨-, hcompleted⟩ := h.tracks.drained hring
    refine ⟨h.depth_eq, h.laid, h.tracks, h.contents, h.copies, h.peeked, fun r hr => ?_⟩
    rcases List.mem_append.mp hr with hold | hnew
    · exact h.returns r hold
    · rw [List.mem_singleton.mp hnew]
      exact hcompleted.symm
  · exact h.asleep rfl rfl rfl rfl rfl rfl

theorem step_inv (h : s.Inv depth) (action : Action maxPayload) : (s.step action).Inv depth := by
  cases action with
  | push producer x =>
    dsimp only [step]
    split
    · exact h
    · exact h.push x
  | pushWait producer x =>
    dsimp only [step]
    split
    · exact h
    · exact h.pushWait producer x
  | wakeProducer producer =>
    dsimp only [step]
    split
    · exact h.pushWait producer _
    · exact h
  | pop =>
    dsimp only [step]
    split
    · exact h.pop
    · exact h
  | tryPop =>
    dsimp only [step]
    split
    · exact h.tryPop
    · exact h
  | peek =>
    dsimp only [step]
    split
    · exact h.peek
    · exact h
  | peekTimed =>
    dsimp only [step]
    split
    · exact h.peekTimed false
    · exact h
  | wakeConsumer =>
    dsimp only [step]
    split
    · exact h
    · exact h.pop
    · exact h.peekTimed true
  | complete =>
    dsimp only [step]
    split
    · exact h.complete
    · exact h
  | waitDrained caller =>
    dsimp only [step]
    split
    · exact h
    · exact h.waitDrained caller
  | wakeDrained caller =>
    dsimp only [step]
    split
    · exact h.waitDrained caller
    · exact h
  | stop => exact h.asleep rfl rfl rfl rfl rfl rfl

theorem start_inv (depth maxPayload : Nat) : (start depth maxPayload).Inv depth where
  depth_eq := rfl
  laid := PayloadQueue.init_laid depth maxPayload
  tracks := by
    refine ⟨Nat.le_refl 0, Nat.le_refl 0, Nat.zero_le _, ?_, ?_, rfl, rfl, fun _ _ _ h => nomatch h⟩
    · exact (Nat.zero_mod depth).symm
    · exact (Nat.zero_mod depth).symm
  contents := rfl
  copies := fun _ _ _ h => nomatch h
  peeked := fun _ h => nomatch h
  returns := fun _ h => nomatch h

end

end QueueThreads

-- The send queue is a first-in first-out channel whose elements stay in place until they are
-- completed.
theorem send_queue_correct (depth maxPayload : Nat)
    (actions : List (QueueThreads.Action maxPayload)) :
    let s := (QueueThreads.start depth maxPayload).run actions
    s.popped.map Prod.snd = s.pushed.take s.popped.length ∧
      s.popped.length + s.queue.count = s.pushed.length ∧
      s.queue.count + s.queue.inflight ≤ depth ∧
      (∀ k copy, s.completed ≤ k → s.popped[k]? = some copy →
        s.queue.load copy.1 = copy.2 ∧ s.pushed[k]? = some copy.2) ∧
      (∀ copy, s.peeked = some copy →
        s.queue.tryPop = .ok (copy.1, s.queue.take.2) ∧ s.queue.load copy.1 = copy.2) ∧
      ∀ r ∈ s.returns, r.1 = r.2 := by
  intro s
  have h : s.Inv depth := Run.foldl_preserves (P := QueueThreads.Inv depth)
    (fun _ action h => QueueThreads.step_inv h action) (QueueThreads.start_inv depth maxPayload)
    actions
  have hcount : s.queue.count + s.popped.length = s.pushed.length := h.tracks.count
  have hinflight : s.queue.inflight + s.completed = s.popped.length := h.tracks.inflight
  have hroom := h.tracks.room
  refine ⟨h.contents, by omega, by omega, fun k copy hk hcopy => ?_, fun copy hcopy => ?_,
    h.returns⟩
  · have hpushed : s.pushed[k]? = some copy.2 := by
      have hlt := (List.getElem?_eq_some_iff.mp hcopy).1
      have hmap : (s.popped.map Prod.snd)[k]? = some copy.2 := by
        rw [List.getElem?_map, hcopy]
        rfl
      rw [h.contents, List.getElem?_take_of_lt hlt] at hmap
      exact hmap
    have hcell : s.queue.load (s.queue.entries (k % depth)) = copy.2 :=
      h.tracks.cells k copy.2 hk hpushed
    rw [h.copies k copy hk hcopy] at hcell
    exact ⟨hcell, hpushed⟩
  · obtain ⟨hsome, hentry, hcontent⟩ := h.peeked copy hcopy
    have hload := (h.head hsome).2
    rw [hcontent, hentry] at hload
    refine ⟨?_, (Option.some.inj hload).symm⟩
    unfold PayloadQueue.tryPop
    rw [if_neg (Nat.pos_iff_ne_zero.mp hsome), ← hentry]
    rfl

-- Two producers on a queue of depth 2: the second sleeps until the first element is completed, and
-- its element then takes the slot.
def QueueThreads.sampleActions : List (QueueThreads.Action 4) :=
  [.push 0 ⟨7, 1, [10, 11], by decide⟩, .push 0 ⟨7, 2, [20], by decide⟩,
    .pushWait 1 ⟨8, 3, [30, 31, 32], by decide⟩, .pop, .wakeProducer 1, .tryPop, .complete,
    .wakeProducer 1, .peek]

theorem send_queue_correct_sample :
    let s := (QueueThreads.start 2 4).run QueueThreads.sampleActions
    s.completed = 1 ∧ s.popped[1]? = some (⟨7, 2, 1, 4⟩, 7, ⟨2, [20]⟩) ∧
      s.peeked = some (⟨8, 3, 3, 0⟩, 8, ⟨3, [30, 31, 32]⟩) ∧
      s.queue.load ⟨7, 2, 1, 4⟩ = (7, ⟨2, [20]⟩) ∧
      s.queue.tryPop.toOption.map Prod.fst = some ⟨8, 3, 3, 0⟩ := by
  intro s
  have hcompleted : s.completed = 1 := by decide +kernel
  have hpopped : s.popped[1]? = some (⟨7, 2, 1, 4⟩, 7, ⟨2, [20]⟩) := by decide +kernel
  have hpeeked : s.peeked = some (⟨8, 3, 3, 0⟩, 8, ⟨3, [30, 31, 32]⟩) := by decide +kernel
  obtain ⟨-, -, -, hkept, hlooked, -⟩ := send_queue_correct 2 4 QueueThreads.sampleActions
  refine ⟨hcompleted, hpopped, hpeeked, (hkept 1 _ hcompleted.le hpopped).1, ?_⟩
  rw [(hlooked _ hpeeked).1]
  rfl

end Porter
