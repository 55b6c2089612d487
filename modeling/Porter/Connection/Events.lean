import Porter.Moves.Peers
import Porter.Platform
import Porter.Recv.Frame

namespace Porter

-- One change of what the application knows: a message, or another set of connected paths.
inductive Report where
  | data (payload : Bytes)
  | paths (next : Path → Bool)

namespace Report

open Slot

def after (states : Path → Bool) : Report → Path → Bool
  | data _ => states
  | paths next => next

-- The paths that change, in ascending order, each with the whole new vector.
def pathEvents (states next : Path → Bool) (l : List Path) : List Event :=
  (l.filter fun k => states k != next k).map fun k =>
    if next k then .pathConnected k next else .pathDisconnected k next

-- The session event comes after them and only where the session as a whole changes.
def events (states : Path → Bool) : Report → List Event
  | data payload => [.data payload]
  | paths next => pathEvents states next Slot.paths ++
      Event.ofAlive (anyPathAlive states) (anyPathAlive next)

def told (states : Path → Bool) : List Report → List Event
  | [] => []
  | report :: rest => report.events states ++ told (report.after states) rest

-- Messages are handed over while some path is connected.
def Sound (states : Path → Bool) : Report → Prop
  | data _ => anyPathAlive states = true
  | paths _ => True

end Report

-- `next`, its opposite, `next` and so on.
def Alternates (next : Bool) : List Bool → Prop
  | [] => True
  | b :: rest => b = next ∧ Alternates (!next) rest

namespace Event

def sessionMark : Event → Option Bool
  | connected => some true
  | disconnected => some false
  | _ => none

def pathMark (k : Path) : Event → Option Bool
  | pathConnected i _ => if i = k then some true else none
  | pathDisconnected i _ => if i = k then some false else none
  | _ => none

def connectedAfter (was : Bool) (evs : List Event) : Bool :=
  evs.foldl (fun b ev => (ev.sessionMark).getD b) was

end Event

namespace Report

open Slot

section

variable {states next : Path → Bool}

private theorem sessionMark_pathEvents (l : List Path) :
    (pathEvents states next l).filterMap Event.sessionMark = [] := by
  rw [List.filterMap_eq_nil_iff]
  intro ev hev
  obtain ⟨k, -, rfl⟩ := List.mem_map.mp hev
  split <;> rfl

private theorem sessionMark_ofAlive (a b : Bool) :
    (Event.ofAlive a b).filterMap Event.sessionMark = if a = b then [] else [b] := by
  cases a <;> cases b <;> rfl

private theorem pathMark_ofAlive (k : Path) (a b : Bool) :
    (Event.ofAlive a b).filterMap (Event.pathMark k) = [] := by
  cases a <;> cases b <;> rfl

private theorem pathEvents_cons (i : Path) (rest : List Path) :
    pathEvents states next (i :: rest) =
      if states i = next i then pathEvents states next rest
      else (if next i then .pathConnected i next else .pathDisconnected i next) ::
        pathEvents states next rest := by
  by_cases hchange : states i = next i <;> simp [pathEvents, hchange]

private theorem pathMark_event (k i : Path) :
    Event.pathMark k (if next i then .pathConnected i next else .pathDisconnected i next) =
      if i = k then some (next i) else none := by
  cases next i <;> rfl

private theorem pathMark_pathEvents_of_not_mem {k : Path} {l : List Path} (hk : k ∉ l) :
    (pathEvents states next l).filterMap (Event.pathMark k) = [] := by
  induction l with
  | nil => rfl
  | cons i rest ih =>
    obtain ⟨hne, hrest⟩ := not_or.mp (mt List.mem_cons.mpr hk)
    rw [pathEvents_cons]
    split
    · exact ih hrest
    · rw [List.filterMap_cons, pathMark_event, if_neg (Ne.symm hne)]
      exact ih hrest

private theorem pathMark_pathEvents {k : Path} {l : List Path} (hl : l.Nodup) (hk : k ∈ l) :
    (pathEvents states next l).filterMap (Event.pathMark k) =
      if states k = next k then [] else [next k] := by
  induction l with
  | nil => cases hk
  | cons i rest ih =>
    obtain ⟨hi, hrest⟩ := List.nodup_cons.mp hl
    rw [pathEvents_cons]
    by_cases heq : i = k
    · subst heq
      have hnone : (pathEvents states next rest).filterMap (Event.pathMark i) = [] :=
        pathMark_pathEvents_of_not_mem hi
      split
      · exact hnone
      · rw [List.filterMap_cons, pathMark_event, if_pos rfl, hnone]
    · have hmem : k ∈ rest := (List.mem_cons.mp hk).resolve_left (Ne.symm heq)
      split
      · exact ih hrest hmem
      · rw [List.filterMap_cons, pathMark_event, if_neg heq]
        exact ih hrest hmem

private theorem nodup_paths : Slot.paths.Nodup := List.nodup_finRange MAX_PATH

theorem mem_paths (k : Path) : k ∈ Slot.paths := List.mem_finRange k

private theorem any_eq_not {a b : Bool} (h : a ≠ b) : b = !a := by
  cases a <;> cases b <;> simp_all

end

theorem session_alternates (states : Path → Bool) (reports : List Report) :
    Alternates (!anyPathAlive states) ((told states reports).filterMap Event.sessionMark) := by
  induction reports generalizing states with
  | nil => trivial
  | cons report rest ih =>
    rw [told, List.filterMap_append]
    cases report with
    | data payload => exact ih states
    | paths next =>
      have hmarks : ((paths next).events states).filterMap Event.sessionMark =
          if anyPathAlive states = anyPathAlive next then [] else [anyPathAlive next] := by
        rw [events, List.filterMap_append, sessionMark_pathEvents, sessionMark_ofAlive]
        rfl
      have hnext := ih next
      rw [hmarks]
      split
      · rename_i hsame
        rw [hsame]
        exact hnext
      · rename_i hchange
        have hflip := any_eq_not hchange
        refine ⟨hflip, ?_⟩
        rw [← hflip]
        exact hnext

theorem path_alternates (k : Path) (states : Path → Bool) (reports : List Report) :
    Alternates (!states k) ((told states reports).filterMap (Event.pathMark k)) := by
  induction reports generalizing states with
  | nil => trivial
  | cons report rest ih =>
    rw [told, List.filterMap_append]
    cases report with
    | data payload => exact ih states
    | paths next =>
      have hmarks : ((paths next).events states).filterMap (Event.pathMark k) =
          if states k = next k then [] else [next k] := by
        rw [events, List.filterMap_append, pathMark_ofAlive, List.append_nil]
        exact pathMark_pathEvents nodup_paths (mem_paths k)
      have hnext := ih next
      rw [hmarks]
      split
      · rename_i hsame
        rw [hsame]
        exact hnext
      · rename_i hchange
        have hflip := any_eq_not hchange
        refine ⟨hflip, ?_⟩
        rw [← hflip]
        exact hnext

private theorem connectedAfter_append (was : Bool) (evs more : List Event) :
    Event.connectedAfter was (evs ++ more) =
      Event.connectedAfter (Event.connectedAfter was evs) more :=
  List.foldl_append

private theorem connectedAfter_of_unmarked {was : Bool} {evs : List Event}
    (h : ∀ ev ∈ evs, ev.sessionMark = none) : Event.connectedAfter was evs = was := by
  induction evs with
  | nil => rfl
  | cons ev rest ih =>
    have hhead := h ev List.mem_cons_self
    have hrest := ih fun x hx => h x (List.mem_cons_of_mem ev hx)
    unfold Event.connectedAfter at hrest ⊢
    rw [List.foldl_cons, hhead]
    exact hrest

private theorem unmarked_pathEvents (states next : Path → Bool) (l : List Path) :
    ∀ ev ∈ pathEvents states next l, ev.sessionMark = none := by
  intro ev hev
  obtain ⟨k, -, rfl⟩ := List.mem_map.mp hev
  split <;> rfl

private theorem connectedAfter_events (states : Path → Bool) (report : Report) :
    Event.connectedAfter (anyPathAlive states) (report.events states) =
      anyPathAlive (report.after states) := by
  cases report with
  | data payload => rfl
  | paths next =>
    rw [events, connectedAfter_append,
      connectedAfter_of_unmarked (unmarked_pathEvents states next Slot.paths)]
    change Event.connectedAfter (anyPathAlive states)
      (Event.ofAlive (anyPathAlive states) (anyPathAlive next)) = anyPathAlive next
    cases anyPathAlive states <;> cases anyPathAlive next <;> rfl

theorem connectedAfter_told (states : Path → Bool) (reports : List Report) :
    Event.connectedAfter (anyPathAlive states) (told states reports) =
      anyPathAlive (reports.foldl after states) := by
  induction reports generalizing states with
  | nil => rfl
  | cons report rest ih =>
    rw [told, connectedAfter_append, connectedAfter_events, ih]
    rfl

theorem told_append (states : Path → Bool) (reports more : List Report) :
    told states (reports ++ more) = told states reports ++ told (reports.foldl after states) more := by
  induction reports generalizing states with
  | nil => rfl
  | cons report rest ih =>
    rw [List.cons_append, told, told, ih, List.append_assoc]
    rfl

private theorem data_of_mem {states : Path → Bool} {report : Report} {payload : Bytes}
    (h : Event.data payload ∈ report.events states) : report = data payload := by
  cases report with
  | data payload' => rw [Event.data.inj (List.mem_singleton.mp h)]
  | paths next =>
    rcases List.mem_append.mp h with h | h
    · obtain ⟨k, -, hk⟩ := List.mem_map.mp h
      split at hk <;> cases hk
    · generalize anyPathAlive states = a at h
      generalize anyPathAlive next = b at h
      cases a <;> cases b <;> simp [Event.ofAlive] at h

theorem data_connected {states : Path → Bool} {reports : List Report}
    (h : Run.Meets after Sound states reports) {pre post : List Event} {payload : Bytes}
    (hsplit : told states reports = pre ++ .data payload :: post) :
    Event.connectedAfter (anyPathAlive states) pre = true := by
  induction reports generalizing states pre with
  | nil => simp [told] at hsplit
  | cons report rest ih =>
    obtain ⟨hsound, hrest⟩ := h
    have hlater : ∀ more, pre = report.events states ++ more →
        told (report.after states) rest = more ++ .data payload :: post →
        Event.connectedAfter (anyPathAlive states) pre = true := fun more hpre hmore => by
      rw [hpre, connectedAfter_append, connectedAfter_events]
      exact ih hrest hmore
    rw [told] at hsplit
    rcases List.append_eq_append_iff.mp hsplit with ⟨more, hpre, hmore⟩ | ⟨more, hevents, hpost⟩
    · exact hlater more hpre hmore
    · cases more with
      | nil =>
        rw [List.append_nil] at hevents
        exact hlater [] (by rw [List.append_nil, hevents]) hpost.symm
      | cons ev more =>
        obtain rfl : Event.data payload = ev := (List.cons.inj hpost).1
        have hmem : Event.data payload ∈ report.events states := by
          rw [hevents]
          exact List.mem_append_right pre List.mem_cons_self
        obtain rfl := data_of_mem hmem
        have hpre : pre = [] := by
          have hlen := congrArg List.length hevents
          rw [List.length_append, List.length_cons] at hlen
          have hone : ((data payload).events states).length = 1 := rfl
          exact List.length_eq_zero_iff.mp (by omega)
        rw [hpre]
        exact hsound

end Report

def Act.told : Act → Option Event
  | .event ev => some ev
  | _ => none

def eventsOf (p : UInt32) (log : List (UInt32 × Act)) : List Event :=
  (entriesOf p log).filterMap Act.told

-- The discipline of the events `evs` of a session whose connected paths are `states`: they are
-- told in reports, which makes CONNECTED and DISCONNECTED alternate, and likewise the events of
-- each path, and lets messages come only in between. After every report the session is connected
-- exactly when some path is.
structure Orderly (evs : List Event) (states : Path → Bool) : Prop where
  session : Alternates true (evs.filterMap Event.sessionMark)
  path : ∀ k, Alternates true (evs.filterMap (Event.pathMark k))
  data : ∀ pre payload post, evs = pre ++ .data payload :: post →
    Event.connectedAfter false pre = true
  reports : ∃ reports : List Report, evs = Report.told (fun _ => false) reports ∧
    states = reports.foldl Report.after (fun _ => false) ∧
    ∀ n, Event.connectedAfter false (Report.told (fun _ => false) (reports.take n)) =
      Slot.anyPathAlive ((reports.take n).foldl Report.after fun _ => false)
  connected : Event.connectedAfter false evs = Slot.anyPathAlive states

-- What has been reported about peer `p`. Without a callback nothing is.
structure Reported (e : Env) (p : UInt32) (log : List (UInt32 × Act)) (states : Path → Bool)
    (alive : Bool) : Prop where
  alive : alive = Slot.anyPathAlive states
  told : e.callback = true → ∃ reports, Run.Meets Report.after Report.Sound (fun _ => false) reports ∧
    eventsOf p log = Report.told (fun _ => false) reports ∧
    states = reports.foldl Report.after fun _ => false
  mute : e.callback = false → eventsOf p log = []

section

variable {e : Env} {p : UInt32} {log : List (UInt32 × Act)} {states : Path → Bool} {alive : Bool}

theorem Reported.orderly (h : Reported e p log states alive) (hcallback : e.callback = true) :
    Orderly (eventsOf p log) states := by
  obtain ⟨reports, hsound, hevents, hstates⟩ := h.told hcallback
  rw [hevents]
  refine ⟨Report.session_alternates (fun _ => false) reports,
    fun k => Report.path_alternates k (fun _ => false) reports, ?_, ⟨reports, rfl, hstates,
      fun n => Report.connectedAfter_told (fun _ => false) (reports.take n)⟩, ?_⟩
  · exact fun pre payload post hsplit => Report.data_connected hsound hsplit
  · rw [hstates]
    exact Report.connectedAfter_told (fun _ => false) reports

theorem Reported.empty (e : Env) (p : UInt32) : Reported e p [] (fun _ => false) false :=
  ⟨by decide, fun _ => ⟨[], trivial, rfl, rfl⟩, fun _ => rfl⟩

theorem eventsOf_append_own (p : UInt32) (log : List (UInt32 × Act)) (acts : List Act) :
    eventsOf p (log ++ acts.map fun act => (p, act)) =
      eventsOf p log ++ acts.filterMap Act.told := by
  unfold eventsOf
  rw [entriesOf_append_own, List.filterMap_append]

theorem eventsOf_append_other {q : UInt32} (h : q ≠ p) (log : List (UInt32 × Act))
    (acts : List Act) :
    eventsOf p (log ++ acts.map fun act => (q, act)) = eventsOf p log := by
  unfold eventsOf
  rw [entriesOf_append_other h]

theorem Reported.of_events (h : Reported e p log states alive) {log' : List (UInt32 × Act)}
    (hevents : eventsOf p log' = eventsOf p log) : Reported e p log' states alive :=
  ⟨h.alive, fun hc => hevents ▸ h.told hc, fun hc => hevents ▸ h.mute hc⟩

theorem Reported.append (h : Reported e p log states alive) (log' : List (UInt32 × Act))
    (more : List Report) (hsound : Run.Meets Report.after Report.Sound states more)
    (hevents : e.callback = true → eventsOf p log' = eventsOf p log ++ Report.told states more)
    (hmute : e.callback = false → eventsOf p log' = eventsOf p log) :
    Reported e p log' (more.foldl Report.after states)
      (Slot.anyPathAlive (more.foldl Report.after states)) := by
  refine ⟨rfl, fun hc => ?_, fun hc => (hmute hc).trans (h.mute hc)⟩
  obtain ⟨reports, hmeets, htold, hstates⟩ := h.told hc
  refine ⟨reports ++ more, ?_, ?_, ?_⟩
  · refine Run.meets_append.mpr ⟨hmeets, ?_⟩
    rw [← hstates]
    exact hsound
  · rw [hevents hc, htold, Report.told_append, ← hstates]
  · rw [List.foldl_append, ← hstates]

end

namespace Slot

section

variable {e : Env} {slot slot' : Slot}

def Reported (e : Env) (slot : Slot) : Prop :=
  Porter.Reported e slot.peerId slot.log slot.pathLogicalAlive slot.healthAlive

private theorem Silent.eventsOf_eq (h : slot.Silent slot') :
    eventsOf slot.peerId slot'.log = eventsOf slot.peerId slot.log := by
  obtain ⟨acts, hlog, hacts⟩ := h
  rw [hlog]
  refine (eventsOf_append_own slot.peerId slot.log acts).trans ?_
  have hnone : acts.filterMap Act.told = [] := by
    rw [List.filterMap_eq_nil_iff]
    intro act hact
    cases act with
    | event ev => exact absurd (hacts _ hact) Bool.noConfusion
    | _ => rfl
  rw [hnone, List.append_nil]

private theorem eventsOf_callbackEmits (slot : Slot) (evs : List Event) :
    eventsOf slot.peerId (slot.callbackEmits e evs).log =
      if e.callback then eventsOf slot.peerId slot.log ++ evs else eventsOf slot.peerId slot.log := by
  unfold callbackEmits
  split
  · refine (eventsOf_append_own slot.peerId slot.log (evs.map Act.event)).trans ?_
    rw [List.filterMap_map]
    exact congrArg _ (List.filterMap_some)
  · rfl

private theorem foldl_data (states : Path → Bool) (out : List Bytes) :
    (out.map Report.data).foldl Report.after states = states := by
  induction out with
  | nil => rfl
  | cons payload rest ih => exact ih

private theorem told_data (states : Path → Bool) (out : List Bytes) :
    Report.told states (out.map Report.data) = out.map Event.data := by
  induction out with
  | nil => rfl
  | cons payload rest ih => exact congrArg (Event.data payload :: ·) ih

private theorem sound_data {states : Path → Bool} (h : anyPathAlive states = true)
    (out : List Bytes) : Run.Meets Report.after Report.Sound states (out.map Report.data) := by
  induction out with
  | nil => trivial
  | cons payload rest ih => exact ⟨h, ih⟩

-- What one change of the connected paths tells: exactly the events of the two vectors.
theorem syncPathStateLocked_tells (halive : slot.healthAlive = anyPathAlive slot.pathLogicalAlive)
    (states : Path → Bool) :
    (slot.syncPathStateLocked e states).pathLogicalAlive = states ∧
      (slot.syncPathStateLocked e states).healthAlive = anyPathAlive states ∧
      eventsOf slot.peerId (slot.syncPathStateLocked e states).log = eventsOf slot.peerId slot.log ++
        if e.callback then (Report.paths states).events slot.pathLogicalAlive else [] := by
  have hlog := eventsOf_callbackEmits (e := e)
    { slot with pathLogicalAlive := states, healthAlive := anyPathAlive states }
    (slot.preparedPathEvents states)
  have hprepared : slot.preparedPathEvents states =
      (Report.paths states).events slot.pathLogicalAlive := by
    rw [Report.events, ← halive]
    rfl
  rw [← hprepared]
  refine ⟨?_, ?_, hlog.trans ?_⟩
  · unfold syncPathStateLocked callbackEmits
    split <;> rfl
  · unfold syncPathStateLocked callbackEmits
    split <;> rfl
  · split
    · rfl
    · exact (List.append_nil _).symm

theorem Turn.reported (ht : Turn e slot slot') (h : slot.Reported e) : slot'.Reported e := by
  have hid : slot'.peerId = slot.peerId := congrArg (Option.getD · PEER_NA) ht.peer_eq
  unfold Reported
  rw [hid]
  cases ht with
  | quiet _ hconn hsilent =>
    rw [show slot'.pathLogicalAlive = slot.pathLogicalAlive from congrArg Conn.states hconn,
      show slot'.healthAlive = slot.healthAlive from congrArg Conn.alive hconn]
    exact h.of_events hsilent.eventsOf_eq
  | deliver _ out hconn halive hlog =>
    have hany : anyPathAlive slot.pathLogicalAlive = true := h.alive.symm.trans halive
    have hmore := h.append slot'.log (out.map Report.data) (sound_data hany out)
      (fun hc => by rw [hlog, eventsOf_callbackEmits, if_pos hc, told_data])
      (fun hc => by rw [hlog, eventsOf_callbackEmits, if_neg (by simp [hc])])
    rw [foldl_data] at hmore
    rw [show slot'.pathLogicalAlive = slot.pathLogicalAlive from congrArg Conn.states hconn,
      show slot'.healthAlive = slot.healthAlive from congrArg Conn.alive hconn, h.alive]
    exact hmore
  | sync states hlive =>
    obtain ⟨hstates, halive, hevents⟩ := syncPathStateLocked_tells h.alive states
    rw [hstates, halive]
    exact h.append (slot.syncPathStateLocked e states).log [Report.paths states]
      ⟨trivial, trivial⟩
      (fun hc => by rw [hevents, if_pos hc, Report.told, Report.told, List.append_nil])
      (fun hc => by rw [hevents, if_neg (by simp [hc]), List.append_nil])
  | free hpeer hdead =>
    unfold peerFree
    split
    · exact h
    · exact h

theorem Turns.reported (ht : Turns e slot slot') (h : slot.Reported e) : slot'.Reported e :=
  Run.star_preserves (P := Slot.Reported e) (fun _ _ hturn hs => hturn.reported hs) ht h

theorem run_reported (hpeer : slot.peer = none) (h : slot.Reported e) (inputs : List Input) :
    (slot.run e inputs).peer = none ∧ (slot.run e inputs).Reported e :=
  Run.foldl_preserves (P := fun s : Slot => s.peer = none ∧ s.Reported e)
    (fun s input hs => ⟨(step_turns s hs.1 input).peer_eq.trans hs.1,
      (step_turns s hs.1 input).reported hs.2⟩) ⟨hpeer, h⟩ inputs

theorem opened_reported (sessionId : UInt32) (sessionTs : Timespec) (destAddr : Path → Endpoint) :
    (opened e sessionId sessionTs destAddr).Reported e :=
  Porter.Reported.empty e PEER_NA

theorem Turn.log_emits (h : Turn e slot slot') : ∃ acts, slot'.log = (slot.emits acts).log := by
  have hcall : ∀ evs : List Event, ∃ acts,
      (slot.callbackEmits e evs).log = (slot.emits acts).log := fun evs => by
    unfold callbackEmits
    split
    · exact ⟨_, rfl⟩
    · exact ⟨[], by simp [emits]⟩
  cases h with
  | quiet _ _ hsilent =>
    obtain ⟨acts, hlog, -⟩ := hsilent
    exact ⟨acts, hlog⟩
  | deliver _ out _ _ hlog =>
    obtain ⟨acts, hacts⟩ := hcall (out.map Event.data)
    exact ⟨acts, hlog.trans hacts⟩
  | sync states =>
    obtain ⟨acts, hacts⟩ := hcall (slot.preparedPathEvents states)
    refine ⟨acts, Eq.trans ?_ hacts⟩
    unfold syncPathStateLocked callbackEmits
    split <;> rfl
  | free =>
    refine ⟨[], ?_⟩
    unfold peerFree
    split <;> simp [emits]

theorem Turns.log_emits (h : Turns e slot slot') : ∃ acts, slot'.log = (slot.emits acts).log := by
  refine (Run.star_preserves (P := fun s : Slot => s.peer = slot.peer ∧
    ∃ acts, s.log = (slot.emits acts).log) (fun s s' ht hs => ?_) h
    ⟨rfl, [], by simp [emits]⟩).2
  obtain ⟨hpeer, acts, hacts⟩ := hs
  obtain ⟨more, hmore⟩ := ht.log_emits
  have hid : s.peerId = slot.peerId := congrArg (Option.getD · PEER_NA) hpeer
  refine ⟨ht.peer_eq.trans hpeer, acts ++ more, ?_⟩
  rw [hmore]
  simp [emits, hacts, hid]

theorem Turn.released (ht : Turn e slot slot') (hpeer : slot.peer ≠ none)
    (h : slot.active = true ∨ slot.pathLogicalAlive = fun _ => false) :
    slot'.active = true ∨ slot'.pathLogicalAlive = fun _ => false := by
  cases ht with
  | quiet _ hconn =>
    rw [show slot'.active = slot.active from congrArg Conn.active hconn,
      show slot'.pathLogicalAlive = slot.pathLogicalAlive from congrArg Conn.states hconn]
    exact h
  | deliver _ _ hconn =>
    rw [show slot'.active = slot.active from congrArg Conn.active hconn,
      show slot'.pathLogicalAlive = slot.pathLogicalAlive from congrArg Conn.states hconn]
    exact h
  | sync states hlive =>
    have hshape : (slot.syncPathStateLocked e states).active = slot.active ∧
        (slot.syncPathStateLocked e states).pathLogicalAlive = states := by
      unfold syncPathStateLocked callbackEmits
      split <;> exact ⟨rfl, rfl⟩
    rw [hshape.1, hshape.2]
    cases hany : anyPathAlive states with
    | false => exact .inr (states_of_any hany)
    | true => exact .inl ((hlive hany).resolve_left hpeer)
  | free _ hdead =>
    right
    unfold peerFree
    split
    · exact hdead
    · exact hdead

theorem Turns.released (ht : Turns e slot slot') (hpeer : slot.peer ≠ none)
    (h : slot.active = true) :
    slot'.active = true ∨ slot'.pathLogicalAlive = fun _ => false :=
  (Run.star_preserves (P := fun s : Slot => s.peer ≠ none ∧
    (s.active = true ∨ s.pathLogicalAlive = fun _ => false))
    (fun s s' (hturn : Turn e s s') hs =>
      ⟨by rw [hturn.peer_eq]; exact hs.1, hturn.released hs.1 hs.2⟩) ht ⟨hpeer, .inl h⟩).2

theorem peerSendFin_beside (slot : Slot) : slot.Beside (slot.peerSendFin e) :=
  sendToDests_beside slot _

-- potr_peer_disconnect on the slot of the peer.
theorem peerDisconnect_turns (slot : Slot) (hpeer : slot.peer.isSome = true) :
    Turns e slot ((slot.peerSendFin e).disconnectAllPaths e).peerFree := by
  have hdisc : Turns e slot ((slot.peerSendFin e).disconnectAllPaths e) :=
    (peerSendFin_beside slot).turns.trans (disconnectAllPaths_turns _)
  refine hdisc.trans (peerFree_turns _ ?_ (disconnectAllPaths_states _))
  exact (congrArg Option.isSome hdisc.peer_eq).trans hpeer

end

end Slot

namespace Ctx

-- Every peer in use has been reported as it is, and of every other id nothing is connected.
structure Reported (e : Env) (ctx : Ctx) : Prop where
  used : ∀ i < e.maxPeers, (ctx.peers i).active = true → (ctx.slotInitPeer i).Reported e
  unused : ∀ p, (∀ i < e.maxPeers, (ctx.peers i).active = true → (ctx.peers i).peer ≠ some p) →
    Porter.Reported e p ctx.log (fun _ => false) false

section

variable {e : Env} {ctx ctx' : Ctx} {i : Nat}

-- The slot of a peer with id `p`, which is in use at index `i` or nowhere, takes its turns.
theorem Reported.store (h : ctx.Reported e) (ht : Table e ctx) {p : UInt32} {start slot : Slot}
    (hpeer : start.peer = some p) (hlog : start.log = ctx.log) (hactive : start.active = true)
    (hstart : start.Reported e) (hturns : Slot.Turns e start slot)
    (hid : ∀ j < e.maxPeers, j ≠ i → (ctx.peers j).active = true → (ctx.peers j).peer ≠ some p)
    (hi : i < e.maxPeers) (hown : (ctx.peers i).active = true → (ctx.peers i).peer = some p) :
    (ctx.store i slot).Reported e := by
  have hsame : slot.peer = some p := hturns.peer_eq.trans hpeer
  have hend := hturns.reported hstart
  have hother : ∀ q, p ≠ q → eventsOf q slot.log = eventsOf q ctx.log := fun q hq => by
    obtain ⟨acts, hacts⟩ := hturns.log_emits
    rw [hacts]
    refine (eventsOf_append_other ?_ start.log acts).trans (congrArg _ hlog)
    simp [PeerContext.peerId, hpeer, hq]
  refine ⟨fun j hj hused => ?_, fun q hq => ?_⟩
  · by_cases hji : j = i
    · subst hji
      rw [slotInitPeer_store_self]
      exact hend
    · rw [store_peers_of_ne hji] at hused
      have hslot : (ctx.store i slot).slotInitPeer j =
          { ctx.slotInitPeer j with tick := slot.tick, nPeers := slot.nPeers, log := slot.log } := by
        unfold slotInitPeer
        rw [store_peers_of_ne hji]
        rfl
      obtain ⟨q, hq⟩ := Option.ne_none_iff_exists'.mp (ht.peer j hj hused)
      have hpq : p ≠ q := fun hpq => hid j hj hji hused (hpq ▸ hq)
      have hid' : (ctx.slotInitPeer j).peerId = q := by
        simp [PeerContext.peerId, slotInitPeer, hq]
      rw [hslot]
      refine Porter.Reported.of_events (h.used j hj hused) ?_
      rw [hid']
      exact hother q hpq
  · by_cases hpq : p = q
    · subst hpq
      have hgone : slot.active ≠ true := fun hon => by
        refine hq i hi ?_ ?_
        · rw [store_peers_self]
          exact hon
        · rw [store_peers_self]
          exact hsame
      have hdead := (hturns.released (by rw [hpeer]; simp) hactive).resolve_left hgone
      have halive : slot.healthAlive = false := by
        rw [hend.alive, hdead]
        decide
      have hid' : slot.peerId = p := by simp [PeerContext.peerId, hsame]
      change Porter.Reported e slot.peerId slot.log slot.pathLogicalAlive slot.healthAlive at hend
      rw [hid', hdead, halive] at hend
      exact hend
    · refine (h.unused q fun j hj hused hjq => ?_).of_events (hother q hpq)
      by_cases hji : j = i
      · subst hji
        exact hpq (Option.some.inj ((hown hused).symm.trans hjq))
      · exact hq j hj (by rw [store_peers_of_ne hji]; exact hused)
          (by rw [store_peers_of_ne hji]; exact hjq)

theorem Reported.store_used (h : ctx.Reported e) (ht : Table e ctx) (hi : i < e.maxPeers)
    (hactive : (ctx.peers i).active = true) {slot : Slot}
    (hturns : Slot.Turns e (ctx.slotInitPeer i) slot) : (ctx.store i slot).Reported e := by
  obtain ⟨p, hp⟩ := Option.ne_none_iff_exists'.mp (ht.peer i hi hactive)
  refine h.store ht hp rfl hactive (h.used i hi hactive) hturns (fun j hj hji hused heq => ?_) hi
    fun _ => hp
  exact hji (ht.ids j hj i hi hused hactive (heq.trans hp.symm))

theorem Reported.of_idle (h : ctx.Reported e) (hlog : ctx'.log = ctx.log)
    (hpeers : ∀ j, ctx'.peers j = ctx.peers j ∨
      (ctx.peers j).active = false ∧ (ctx'.peers j).active = false) : ctx'.Reported e := by
  refine ⟨fun j hj hused => ?_, fun p hp => ?_⟩
  · rcases hpeers j with hsame | ⟨-, hfree⟩
    · have hslot : (ctx'.slotInitPeer j).toPeerContext = (ctx.slotInitPeer j).toPeerContext := hsame
      have hin := h.used j hj (hsame ▸ hused)
      unfold Slot.Reported at hin ⊢
      rw [hslot]
      refine hin.of_events (congrArg _ hlog)
    · rw [hfree] at hused
      cases hused
  · rw [hlog]
    refine h.unused p fun j hj hused heq => ?_
    rcases hpeers j with hsame | ⟨hfree, -⟩
    · exact hp j hj (by rw [hsame]; exact hused) (by rw [hsame]; exact heq)
    · rw [hfree] at hused
      cases hused

theorem n1HandlePacket_reported (hlex : e.plat.CmpLex) (hkind : e.type = .unicastBidirN1)
    (h : ctx.Reported e) (ht : Table e ctx) (pkt : Packet) (path : Path) (sender : Endpoint) :
    (ctx.n1HandlePacket e pkt path sender).Reported e := by
  have hhandled := n1HandlePacket_handled (e := e) ctx pkt path sender
  generalize ctx.n1HandlePacket e pkt path sender = ctx' at hhandled ⊢
  cases hhandled with
  | found j hfind =>
    obtain ⟨hj, hactive, -⟩ := findBySession_some hlex hfind
    have hrecv := Slot.emit_beside (ctx.slotInitPeer j) (rfl : (Act.recv pkt).isEvent = false)
    have hlive : Slot.Live e ((ctx.slotInitPeer j).emit (.recv pkt)) :=
      ⟨fun _ => hkind, .inr hactive⟩
    exact h.store_used ht hj hactive
      (hrecv.turns.trans (Slot.dispatchPacket_turns _ pkt path sender hlive))
  | idle ctx' hlog hpeers => exact h.of_idle hlog hpeers
  | created j peerId nextPeerId fresh _ _ hj hfree hid hfresh hlog hslot =>
    have hstart : fresh.Reported e := by
      obtain ⟨_, _, _, hslot⟩ := hslot
      unfold Slot.Reported
      rw [show fresh.pathLogicalAlive = fun _ => false from
        congrArg PeerContext.pathLogicalAlive hslot, hfresh.alive, hlog,
        show fresh.peerId = peerId by simp [PeerContext.peerId, hfresh.peer]]
      exact h.unused peerId hid
    have hjoined : fresh.Beside ((fresh.emit (.recv pkt)).adoptSession e pkt) :=
      (Slot.emit_beside fresh (rfl : (Act.recv pkt).isEvent = false)).trans
        (Slot.adoptSession_beside _ pkt)
    have hlive : Slot.Live e ((fresh.emit (.recv pkt)).adoptSession e pkt) :=
      ⟨fun _ => hkind, .inr hfresh.active⟩
    have hbase : Reported e { ctx with nextPeerId := nextPeerId } := h.of_idle rfl fun _ => .inl rfl
    exact hbase.store (ht.of_idle fun _ => .inl rfl) hfresh.peer hlog hfresh.active hstart
      (hjoined.turns.trans (Slot.dispatchPacket_turns _ pkt path sender hlive))
      (fun k hk _ hused => hid k hk hused) hj
      fun hused => absurd hused (by rw [hfree]; exact Bool.false_ne_true)

theorem healthCheckPeers_reported (hlex : e.plat.CmpLex) (h : ctx.Reported e) (ht : Table e ctx) :
    (ctx.healthCheckPeers e).Reported e := by
  unfold healthCheckPeers
  have hticked : Reported e { ctx with tick := ctx.tick + 1 } := h.of_idle rfl fun _ => .inl rfl
  have htable : Table e { ctx with tick := ctx.tick + 1 } := ht.of_idle fun _ => .inl rfl
  split
  · exact hticked
  refine (Run.foldl_preserves_of_mem (P := fun ctx' => Table e ctx' ∧ ctx'.Reported e) ?_
    ⟨htable, hticked⟩).2
  intro ctx' j hj hctx
  have hlt := List.mem_range.mp hj
  refine ⟨Changes.table hlex (healthCheckPeer_changes (e.plat.clock ctx.tick) hctx.1 hlt) hctx.1, ?_⟩
  by_cases hactive : (ctx'.peers j).active = true
  · exact hctx.2.store_used hctx.1 hlt hactive (Slot.healthCheckPeer_turns _ _
      (Option.isSome_iff_ne_none.mpr (hctx.1.peer j hlt hactive)))
  · rw [healthCheckPeer_inactive hactive]
    refine hctx.2.of_idle rfl fun k => .inl ?_
    by_cases hkj : k = j
    · subst hkj
      exact store_peers_self ..
    · exact store_peers_of_ne hkj _

theorem step_reported (hlex : e.plat.CmpLex) (hkind : e.type = .unicastBidirN1)
    (h : ctx.Reported e) (ht : Table e ctx) (input : Slot.Input) : (ctx.step e input).Reported e := by
  cases input with
  | pollTimeout => exact healthCheckPeers_reported hlex h ht
  | packet path sender pkt =>
    change Reported e (if e.nPath ≤ path.val then ctx else ctx.n1HandlePacket e pkt path sender)
    split
    · exact h
    · exact n1HandlePacket_reported hlex hkind h ht pkt path sender

theorem findById_some {peerId : UInt32} (h : ctx.findById e peerId = some i) :
    i < e.maxPeers ∧ (ctx.peers i).active = true ∧ (ctx.peers i).peer = some peerId := by
  have hfound := List.find?_some h
  simp only [Bool.and_eq_true, decide_eq_true_eq] at hfound
  exact ⟨List.mem_range.mp (List.mem_of_find?_eq_some h), hfound⟩

theorem peerDisconnect_cases (ctx : Ctx) (peerId : UInt32) :
    (ctx.peerDisconnect e peerId).1 = ctx ∨
    ∃ i < e.maxPeers, (ctx.peers i).active = true ∧ (ctx.peers i).peer = some peerId ∧
      (ctx.peerDisconnect e peerId).1 =
        ctx.store i ((((ctx.slotInitPeer i).peerSendFin e).disconnectAllPaths e).peerFree) := by
  unfold peerDisconnect
  split
  · exact .inl rfl
  split
  · exact .inl rfl
  cases hfind : ctx.findById e peerId with
  | none => exact .inl rfl
  | some i =>
    obtain ⟨hi, hactive, hpeer⟩ := findById_some hfind
    exact .inr ⟨i, hi, hactive, hpeer, rfl⟩

theorem view_peerDisconnected (slot : Slot) : ∃ acts evs,
    ((slot.peerSendFin e).disconnectAllPaths e).peerFree.view e =
      { ((slot.view e).emits acts).synced e false evs with active := false } := by
  obtain ⟨dests, hsent⟩ := Slot.view_sendToDests slot
    (Packet.finOf (slot.ownSessionHdr e) slot.sendHasData slot.sendWindow.nextSeq)
  obtain ⟨evs, -, hdisc⟩ := Slot.view_disconnectAllPaths (slot.peerSendFin e)
  rw [Slot.view_peerFree, hdisc, Slot.peerSendFin, hsent]
  exact ⟨_, evs, rfl⟩

theorem peerDisconnect_table (ht : Table e ctx) (peerId : UInt32) :
    Table e (ctx.peerDisconnect e peerId).1 := by
  rcases peerDisconnect_cases ctx peerId with heq | ⟨i, hi, hactive, -, heq⟩
  · rw [heq]
    exact ht
  · have hok := ht.ok i hi hactive
    obtain ⟨acts, evs, hview⟩ := view_peerDisconnected (ctx.slotInitPeer i)
    generalize (((ctx.slotInitPeer i).peerSendFin e).disconnectAllPaths e).peerFree = slot
      at hview heq
    have hwin : slot.recvWindow = (ctx.slotInitPeer i).recvWindow :=
      (congrArg View.win hview).trans (View.synced_win false evs)
    have hpeer : slot.peer = (ctx.slotInitPeer i).peer :=
      (congrArg View.peer hview).trans (View.synced_peer false evs)
    have hpending : slot.reorderPending = (ctx.slotInitPeer i).reorderPending :=
      (congrArg View.pending hview).trans (View.synced_pending false evs)
    have hknown : slot.peerSessionKnown = (ctx.slotInitPeer i).peerSessionKnown :=
      (congrArg View.known hview).trans (View.synced_known false evs)
    have hsession : (slot.view e).session = ((ctx.slotInitPeer i).view e).session :=
      (congrArg View.session hview).trans (View.synced_session false evs)
    have hok' : Slot.Ok e slot := by
      refine ⟨⟨?_, ?_, ?_, ?_⟩, ?_⟩
      · change slot.peer ≠ none → _
        rw [hpeer]
        exact hok.inv.kind
      · change slot.recvWindow.RecvWF
        rw [hwin]
        exact hok.inv.wf
      · change slot.recvWindow.windowSize = _
        rw [hwin]
        exact hok.inv.size
      · change slot.peer ≠ none ∨ _ → slot.reorderPending = false
        rw [hpeer, hpending]
        exact hok.inv.timer
      · unfold Slot.HeadEmpty
        rw [hwin]
        exact hok.head
    rw [heq]
    exact ht.store_same hi hactive hok' hpeer (hknown.trans (ht.known i hi hactive)) hsession

theorem act_reported (hlex : e.plat.CmpLex) (hkind : e.type = .unicastBidirN1)
    (h : Table e ctx ∧ ctx.Reported e) (action : Action) :
    Table e (ctx.act e action) ∧ (ctx.act e action).Reported e := by
  cases action with
  | recv input =>
    exact ⟨Changes.table hlex (step_changes hlex hkind h.1 input) h.1,
      step_reported hlex hkind h.2 h.1 input⟩
  | peerDisconnect peerId =>
    refine ⟨peerDisconnect_table h.1 peerId, ?_⟩
    change Reported e (ctx.peerDisconnect e peerId).1
    rcases peerDisconnect_cases ctx peerId with heq | ⟨i, hi, hactive, hpeer, heq⟩
    · rw [heq]
      exact h.2
    · rw [heq]
      refine h.2.store_used h.1 hi hactive (Slot.peerDisconnect_turns _ ?_)
      change (ctx.peers i).peer.isSome = true
      rw [hpeer]
      rfl

theorem opened_reported : (opened e).Reported e :=
  ⟨fun _ _ hused => by simp [opened, PeerContext.empty] at hused, fun p _ => .empty e p⟩

end

end Ctx

-- Events of every 1:1 UDP service and of every N:1 peer id come in the order the application can
-- rely on. An id that no peer has any more ends without a connection. Whatever a round changes is
-- made of turns, of which only a change of the connected paths tells about them, and it tells
-- exactly the difference.
theorem event_discipline (e : Env) (hlex : e.plat.CmpLex) :
    (∀ (slot : Slot) (states : Path → Bool),
      slot.healthAlive = Slot.anyPathAlive slot.pathLogicalAlive →
      (slot.syncPathStateLocked e states).pathLogicalAlive = states ∧
      eventsOf slot.peerId (slot.syncPathStateLocked e states).log = eventsOf slot.peerId slot.log ++
        if e.callback then (Report.paths states).events slot.pathLogicalAlive else []) ∧
    (e.type.isTcpType = false → e.type ≠ .unicastBidirN1 → ∀ sessionId sessionTs destAddr inputs,
      let slot := (Slot.opened e sessionId sessionTs destAddr).run e inputs
      slot.healthAlive = Slot.anyPathAlive slot.pathLogicalAlive ∧
        (e.callback = true → Orderly (eventsOf PEER_NA slot.log) slot.pathLogicalAlive) ∧
        (e.callback = false → eventsOf PEER_NA slot.log = []) ∧
        ∀ input, Slot.Turns e slot (slot.step e input)) ∧
    (e.type = .unicastBidirN1 → ∀ actions : List Ctx.Action,
      let ctx := actions.foldl (Ctx.act e) (Ctx.opened e)
      (∀ i < e.maxPeers, (ctx.peers i).active = true → ∃ p, (ctx.peers i).peer = some p ∧
        (ctx.peers i).healthAlive = Slot.anyPathAlive (ctx.peers i).pathLogicalAlive ∧
        (e.callback = true → Orderly (eventsOf p ctx.log) (ctx.peers i).pathLogicalAlive) ∧
        let slot := ctx.slotInitPeer i
        (∀ pkt path sender,
          Slot.Turns e slot ((slot.emit (.recv pkt)).dispatchPacket e pkt path sender)) ∧
        (∀ nowTs, Slot.Turns e slot (slot.healthCheckPeer e nowTs)) ∧
        Slot.Turns e slot ((slot.peerSendFin e).disconnectAllPaths e).peerFree) ∧
      (∀ p, (∀ i < e.maxPeers, (ctx.peers i).active = true → (ctx.peers i).peer ≠ some p) →
        e.callback = true → Orderly (eventsOf p ctx.log) fun _ => false) ∧
      (e.callback = false → ∀ p, eventsOf p ctx.log = [])) := by
  refine ⟨fun slot states halive => ?_, fun _ _ sessionId sessionTs destAddr inputs => ?_,
    fun hkind actions => ?_⟩
  · obtain ⟨hstates, -, hevents⟩ := Slot.syncPathStateLocked_tells halive states
    exact ⟨hstates, hevents⟩
  · obtain ⟨hpeer, hreported⟩ := Slot.run_reported rfl
      (Slot.opened_reported sessionId sessionTs destAddr) inputs
    have hid : ((Slot.opened e sessionId sessionTs destAddr).run e inputs).peerId = PEER_NA :=
      congrArg (Option.getD · PEER_NA) hpeer
    unfold Slot.Reported at hreported
    rw [hid] at hreported
    exact ⟨hreported.alive, hreported.orderly, hreported.mute, Slot.step_turns _ hpeer⟩
  · obtain ⟨ht, h⟩ := Run.foldl_preserves
      (P := fun ctx : Ctx => Ctx.Table e ctx ∧ ctx.Reported e)
      (fun ctx action hctx => Ctx.act_reported hlex hkind hctx action)
      ⟨Ctx.opened_table, Ctx.opened_reported⟩ actions
    generalize actions.foldl (Ctx.act e) (Ctx.opened e) = ctx at ht h ⊢
    have hused : ∀ i < e.maxPeers, (ctx.peers i).active = true → ∀ p, (ctx.peers i).peer = some p →
        Reported e p ctx.log (ctx.peers i).pathLogicalAlive (ctx.peers i).healthAlive := by
      intro i hi hactive p hp
      have hid : (ctx.slotInitPeer i).peerId = p := by
        simp [PeerContext.peerId, Ctx.slotInitPeer, hp]
      have hin := h.used i hi hactive
      unfold Slot.Reported at hin
      rw [hid] at hin
      exact hin
    refine ⟨fun i hi hactive => ?_, fun p hp hcallback => (h.unused p hp).orderly hcallback,
      fun hcallback p => ?_⟩
    · obtain ⟨p, hp⟩ := Option.ne_none_iff_exists'.mp (ht.peer i hi hactive)
      have hsome : (ctx.slotInitPeer i).peer.isSome = true := congrArg Option.isSome hp
      exact ⟨p, hp, (hused i hi hactive p hp).alive, (hused i hi hactive p hp).orderly,
        fun pkt path sender => (Slot.emit_beside _ rfl).turns.trans
          (Slot.dispatchPacket_turns _ pkt path sender ⟨fun _ => hkind, .inr hactive⟩),
        fun nowTs => Slot.healthCheckPeer_turns nowTs _ hsome, Slot.peerDisconnect_turns _ hsome⟩
    · by_cases hp : ∃ i < e.maxPeers, (ctx.peers i).active = true ∧ (ctx.peers i).peer = some p
      · obtain ⟨i, hi, hactive, hpeer⟩ := hp
        exact (hused i hi hactive p hpeer).mute hcallback
      · refine (h.unused p fun i hi hactive hpeer => hp ⟨i, hi, hactive, hpeer⟩).mute hcallback

theorem event_discipline_sample :
    Orderly (eventsOf PEER_NA ((Slot.sample (Env.sample .unicastBidir)).run
      (Env.sample .unicastBidir) [.sample (.samplePing 7), .sample (.sampleData 7 [⟨0, [1]⟩]),
        .sample (Packet.buildReject Packet.sampleSession 8)]).log) (fun _ => false) ∧
    Orderly (eventsOf 1 (List.foldl (Ctx.act (Env.sample .unicastBidirN1))
      (Ctx.opened (Env.sample .unicastBidirN1)) [.recv (.sample (.samplePing 7)),
        .recv (.sample (.sampleData 7 [⟨0, [1]⟩])), .peerDisconnect 1]).log) (fun _ => false) := by
  refine ⟨?_, ?_⟩
  · have h := ((event_discipline (Env.sample .unicastBidir) Cplat.reference_cmpLex).2.1 rfl (by decide)
      3 ⟨2, 0⟩ (fun _ => .target) [.sample (.samplePing 7), .sample (.sampleData 7 [⟨0, [1]⟩]),
        .sample (Packet.buildReject Packet.sampleSession 8)]).2.1 rfl
    exact h
  · exact ((event_discipline (Env.sample .unicastBidirN1) Cplat.reference_cmpLex).2.2 rfl
      [.recv (.sample (.samplePing 7)), .recv (.sample (.sampleData 7 [⟨0, [1]⟩])),
        .peerDisconnect 1]).2.1 1 (by decide +kernel) rfl

end Porter
