import Porter.Moves.Record
import Porter.Platform

namespace Porter

open Serial

-- The receive window of one session as its record tells it: the tracked session, the next number,
-- the first packet accepted for each number that is waiting, and the packet at hand.
structure Book where
  tracked : Option SessionHdr
  next : UInt32
  first : UInt32 → Option Packet
  cur : Option Packet

namespace Book

def empty : Book := ⟨none, 0, fun _ => none, none⟩

def advance (b : Book) : Book :=
  { b with next := b.next + 1, first := Function.update b.first b.next none }

-- The first packet for a number stays.
def accept (b : Book) (pkt : Packet) : Book :=
  { b with
    first := Function.update b.first pkt.seqNum ((b.first pkt.seqNum).or (some pkt)) }

def step (b : Book) : Act → Book
  | .recv pkt => { b with cur := some pkt }
  | .poll => { b with cur := none }
  | .adopt session seq => { b with tracked := some session, next := seq, first := fun _ => none }
  | .reset seq => { b with next := seq, first := fun _ => none }
  | .forget => { b with tracked := none, next := 0, first := fun _ => none }
  | .push pkt => b.accept pkt
  | .pop _ _ => b.advance
  | .skip _ => b.advance
  | _ => b

def replay (acts : List Act) : Book := acts.foldl step empty

-- What justifies an entry. A number is done with because its first accepted packet is popped, which
-- is a DATA packet of the session with that number, or because the packet at hand is a REJECT of the
-- session that names it. A NACK, when it is decided on and when it is sent, asks for a number in the
-- window that is not held.
def Justified (windowSize : Nat) (b : Book) : Act → Prop
  | .adopt session seq => ∃ pkt, b.cur = some pkt ∧ session = pkt.session ∧ seq = pkt.seqNum
  | .push pkt => b.cur = some pkt ∧ b.tracked = some pkt.session ∧ pkt.has FLAG_DATA = true ∧
      dist pkt.seqNum b.next < windowSize
  | .pop pkt _ => b.first b.next = some pkt ∧ pkt.seqNum = b.next ∧
      b.tracked = some pkt.session ∧ pkt.has FLAG_DATA = true
  | .skip seq => seq = b.next ∧ ∃ pkt, b.cur = some pkt ∧ pkt.has FLAG_REJECT = true ∧
      pkt.ackNum = seq ∧ b.tracked = some pkt.session
  | .nack seq win => dist seq b.next < windowSize ∧ b.first seq = none ∧
      win.nextSeq = b.next ∧ win.held = b.first
  | .send _ _ pkt => pkt.has FLAG_NACK = true →
      dist pkt.ackNum b.next < windowSize ∧ b.first pkt.ackNum = none
  | .reset _ => False
  | _ => True

def isOther : Act → Bool
  | .send _ _ pkt => !pkt.has FLAG_NACK
  | .sendTcp _ | .event _ => true
  | _ => false

theorem still_of_other {act : Act} (h : isOther act = true) (n : Nat) (b : Book) :
    b.step act = b ∧ b.Justified n act := by
  cases act with
  | send path dest pkt =>
    refine ⟨rfl, fun hnack => ?_⟩
    simp [isOther, hnack] at h
  | _ => first | exact ⟨rfl, trivial⟩ | exact absurd h Bool.false_ne_true

theorem rests_other {acts : List Act} (h : ∀ act ∈ acts, isOther act = true) (n : Nat) (b : Book) :
    acts.foldl step b = b ∧ Run.Meets step (Justified n) b acts :=
  Run.meets_still fun act hact => still_of_other (h act hact) n b

end Book

namespace View

def book (v : View) : Book := Book.replay v.entries

-- The record justifies itself and tells the window as it is.
structure Booked (e : Env) (cur : Option Packet) (v : View) : Prop where
  meets : Run.Meets Book.step (Book.Justified e.windowSize) Book.empty v.entries
  next : v.book.next = v.win.nextSeq
  first : v.book.first = v.win.held
  tracked : v.known = true → v.book.tracked = some v.session
  cur : ∀ pkt, cur = some pkt → v.book.cur = some pkt
  stock : ∀ seq pkt, v.win.held seq = some pkt →
    v.book.tracked = some pkt.session ∧ pkt.has FLAG_DATA = true
  timer : v.pending = true →
    dist v.nackNum v.win.nextSeq < v.win.windowSize ∧ v.win.held v.nackNum = none

section

variable {e : Env} {cur : Option Packet} {v v' : View}

theorem book_emits (v : View) (acts : List Act) : (v.emits acts).book = acts.foldl Book.step v.book := by
  unfold book Book.replay
  rw [entries_emits, List.foldl_append]

theorem meets_emits {n : Nat} {acts : List Act}
    (h : Run.Meets Book.step (Book.Justified n) Book.empty v.entries)
    (hacts : Run.Meets Book.step (Book.Justified n) v.book acts) :
    Run.Meets Book.step (Book.Justified n) Book.empty (v.emits acts).entries := by
  rw [entries_emits]
  exact Run.meets_append.mpr ⟨h, hacts⟩

theorem Booked.other (h : v.Booked e cur) (acts : List Act)
    (hacts : ∀ act ∈ acts, Book.isOther act = true) (hlog : v'.log = (v.emits acts).log)
    (hpeer : v'.peer = v.peer) (hwin : v'.win = v.win) (hknown : v'.known = v.known)
    (hsession : v'.session = v.session)
    (htimer : v'.pending = true → v'.nackNum = v.nackNum ∧ v.pending = true ∨
      dist v'.nackNum v.win.nextSeq < v.win.windowSize ∧ v.win.held v'.nackNum = none) :
    v'.Booked e cur := by
  have hentries : v'.entries = (v.emits acts).entries := by
    unfold entries peerId
    rw [hlog, hpeer]
    rfl
  have hbook : v'.book = v.book := by
    unfold book
    rw [hentries]
    exact (book_emits v acts).trans (Book.rests_other hacts e.windowSize _).1
  refine ⟨?_, ?_, ?_, ?_, ?_, ?_, fun hp => ?_⟩
  · rw [hentries]
    exact meets_emits h.meets (Book.rests_other hacts _ _).2
  · rw [hbook, hwin]
    exact h.next
  · rw [hbook, hwin]
    exact h.first
  · rw [hbook, hknown, hsession]
    exact h.tracked
  · rw [hbook]
    exact h.cur
  · rw [hbook, hwin]
    exact h.stock
  · rw [hwin]
    rcases htimer hp with ⟨hnum, hwas⟩ | hfree
    · rw [hnum]
      exact h.timer hwas
    · exact hfree

private theorem held_dropNext {win : Window} (hwf : win.RecvWF) :
    win.dropNext.held = Function.update win.held win.nextSeq none := by
  funext seq
  rw [Window.dropNext_held hwf, Function.update_apply]

private theorem Booked.advance (h : v.Booked e cur) (hinv : Inv e v) (act : Act) (acts : List Act)
    (hstep : v.book.step act = v.book.advance) (hjust : v.book.Justified e.windowSize act)
    (hacts : ∀ a ∈ acts, Book.isOther a = true) (hlog : v'.log = (v.emits (act :: acts)).log)
    (hpeer : v'.peer = v.peer) (hwin : v'.win = v.win.dropNext) (hknown : v'.known = v.known)
    (hsession : v'.session = v.session) (hpending : v'.pending = false) : v'.Booked e cur := by
  have hentries : v'.entries = (v.emits (act :: acts)).entries := by
    unfold entries peerId
    rw [hlog, hpeer]
    rfl
  have hbook : v'.book = v.book.advance := by
    unfold book
    rw [hentries]
    refine (book_emits v _).trans ?_
    rw [List.foldl_cons, hstep]
    exact (Book.rests_other hacts e.windowSize _).1
  refine ⟨?_, ?_, ?_, ?_, ?_, ?_, fun hp => ?_⟩
  · rw [hentries]
    exact meets_emits h.meets ⟨hjust, (Book.rests_other hacts _ _).2⟩
  · rw [hbook, hwin, Window.dropNext_nextSeq, ← h.next]
    rfl
  · rw [hbook, hwin, held_dropNext hinv.wf, ← h.first, ← h.next]
    rfl
  · rw [hbook, hknown, hsession]
    exact h.tracked
  · rw [hbook]
    exact h.cur
  · intro seq pkt hp
    rw [hwin, Window.dropNext_held hinv.wf] at hp
    rw [hbook]
    split at hp
    · cases hp
    · exact h.stock seq pkt hp
  · rw [hpending] at hp
    cases hp

private theorem Booked.push (h : v.Booked e cur) (hinv : Inv e v) {pkt : Packet} {win : Window}
    {pending : Bool} {nackNum : UInt32} (hcur : cur = some pkt) (hdata : pkt.has FLAG_DATA = true)
    (hknown : v.known = true) (hsession : v.session = pkt.session)
    (hpush : v.win.recvPush pkt = some win)
    (htimer : pending = true →
      dist nackNum win.nextSeq < win.windowSize ∧ win.held nackNum = none) :
    (emit { v with win := win, pending := pending, nackNum := nackNum } (.push pkt)).Booked e
      cur := by
  have hheld := Window.recvPush_held hinv.wf hpush
  have hin := Window.recvPush_in_window hinv.wf hpush
  have htracked := h.tracked hknown
  rw [hsession] at htracked
  have hbook : (v.emit (.push pkt)).book = v.book.accept pkt := book_emits v [.push pkt]
  have hfirst : (v.book.accept pkt).first = win.held := by
    funext seq
    rw [hheld]
    change Function.update v.book.first pkt.seqNum ((v.book.first pkt.seqNum).or (some pkt)) seq = _
    rw [h.first, Function.update_apply]
    split
    · rename_i heq
      rw [heq]
    · rfl
  refine ⟨?_, ?_, ?_, fun _ => ?_, fun pkt' hpkt' => ?_, fun seq p hp => ?_, htimer⟩
  · refine meets_emits h.meets ⟨⟨h.cur pkt hcur, htracked, hdata, ?_⟩, trivial⟩
    change dist pkt.seqNum v.book.next < e.windowSize
    rw [h.next, ← hinv.size]
    exact hin
  · change (v.emit (.push pkt)).book.next = win.nextSeq
    rw [hbook]
    exact h.next.trans (Window.recvPush_nextSeq hpush).symm
  · change (v.emit (.push pkt)).book.first = win.held
    rw [hbook, hfirst]
  · change (v.emit (.push pkt)).book.tracked = some v.session
    rw [hbook, hsession]
    exact htracked
  · change (v.emit (.push pkt)).book.cur = some pkt'
    rw [hbook]
    exact h.cur pkt' hpkt'
  · change (v.emit (.push pkt)).book.tracked = some p.session ∧ _
    rw [hbook]
    change win.held seq = some p at hp
    rw [hheld] at hp
    split at hp
    · cases hold : v.win.held seq with
      | none =>
        rw [hold] at hp
        obtain rfl : pkt = p := Option.some.inj hp
        exact ⟨htracked, hdata⟩
      | some q =>
        rw [hold] at hp
        obtain rfl : q = p := Option.some.inj hp
        exact h.stock seq q hold
    · exact h.stock seq p hp

private theorem Booked.nacked (h : v.Booked e cur) (hinv : Inv e v) {seq : UInt32}
    (dests : List (Path × Endpoint))
    (hfree : dist seq v.win.nextSeq < v.win.windowSize ∧ v.win.held seq = none) :
    (v.nacked seq dests).Booked e cur := by
  rw [← h.next, ← h.first, hinv.size] at hfree
  have hacts : (Act.nack seq v.win :: dests.map fun d =>
      .send d.1 d.2 (Packet.buildNack v.own seq)).foldl Book.step v.book = v.book ∧
      Run.Meets Book.step (Book.Justified e.windowSize) v.book (.nack seq v.win ::
        dests.map fun d => .send d.1 d.2 (Packet.buildNack v.own seq)) := by
    refine Run.meets_still fun act hact => ?_
    rcases List.mem_cons.mp hact with rfl | hact
    · exact ⟨rfl, hfree.1, hfree.2, h.next.symm, h.first.symm⟩
    · obtain ⟨d, -, rfl⟩ := List.mem_map.mp hact
      exact ⟨rfl, fun _ => hfree⟩
  obtain ⟨hfold, hmeets⟩ := hacts
  have hbook : (v.nacked seq dests).book = v.book := (book_emits v _).trans hfold
  exact ⟨meets_emits h.meets hmeets, hbook ▸ h.next, hbook ▸ h.first, hbook ▸ h.tracked,
    hbook ▸ h.cur, hbook ▸ h.stock, h.timer⟩

private theorem Booked.restart (h : v.Booked e cur) (act : Act) {tracked : Option SessionHdr}
    {seq : UInt32}
    (hstep : v.book.step act = { v.book with tracked := tracked, next := seq, first := fun _ => none })
    (hjust : v.book.Justified e.windowSize act) (hlog : v'.log = (v.emit act).log)
    (hpeer : v'.peer = v.peer) (hwin : v'.win = Window.init seq e.windowSize)
    (htracked : v'.known = true → tracked = some v'.session) (hpending : v'.pending = false) :
    v'.Booked e cur := by
  have hentries : v'.entries = (v.emit act).entries := by
    unfold entries peerId
    rw [hlog, hpeer]
    rfl
  have hbook : v'.book = { v.book with tracked := tracked, next := seq, first := fun _ => none } := by
    unfold book
    rw [hentries]
    exact (book_emits v [act]).trans hstep
  refine ⟨?_, ?_, ?_, ?_, ?_, fun seq' pkt hp => ?_, fun hp => ?_⟩
  · rw [hentries]
    exact meets_emits h.meets ⟨hjust, trivial⟩
  · rw [hbook, hwin]
    rfl
  · rw [hbook, hwin]
    funext seq'
    exact (Window.held_init seq e.windowSize seq').symm
  · rw [hbook]
    exact htracked
  · rw [hbook]
    exact h.cur
  · rw [hwin, Window.held_init] at hp
    cases hp
  · rw [hpending] at hp
    cases hp

theorem Booked.note (h : v.Booked e none) (input : Slot.Input) :
    (v.emit input.note).Booked e input.cur := by
  have hbook : (v.emit input.note).book = v.book.step input.note := book_emits v [input.note]
  have hmeets : Run.Meets Book.step (Book.Justified e.windowSize) Book.empty
      (v.emit input.note).entries := by
    refine meets_emits h.meets ⟨?_, trivial⟩
    cases input <;> trivial
  have hrest : (v.emit input.note).book = { v.book with cur := input.cur } := by
    rw [hbook]
    cases input <;> rfl
  refine ⟨hmeets, ?_, ?_, ?_, ?_, ?_, h.timer⟩
  · rw [hrest]
    exact h.next
  · rw [hrest]
    exact h.first
  · rw [hrest]
    exact h.tracked
  · rw [hrest]
    exact fun _ hpkt => hpkt
  · rw [hrest]
    exact h.stock

theorem Booked.of_log (h : v.Booked e cur) {log : List (UInt32 × Act)}
    (hlog : entriesOf v.peerId log = v.entries) :
    ({ v with log := log } : View).Booked e cur := by
  have hbook : ({ v with log := log } : View).book = v.book := congrArg Book.replay hlog
  refine ⟨?_, hbook ▸ h.next, hbook ▸ h.first, hbook ▸ h.tracked, hbook ▸ h.cur, hbook ▸ h.stock,
    h.timer⟩
  have hmeets := h.meets
  rw [← hlog] at hmeets
  exact hmeets

end

end View

namespace Slot

open View

variable {e : Env} {slot : Slot}

end Slot

namespace Ctx

open View

-- The record of every peer id justifies itself, and that of a peer in use tells its window.
structure Booked (e : Env) (ctx : Ctx) : Prop where
  meets : ∀ p, Run.Meets Book.step (Book.Justified e.windowSize) Book.empty (entriesOf p ctx.log)
  slots : ∀ i < e.maxPeers, (ctx.peers i).active = true →
    ((ctx.slotInitPeer i).view e).Booked e none

section

variable {e : Env}

end

end Ctx

end Porter
