import Porter.Connection.Rest
import Porter.Platform

namespace Porter

open View

namespace Slot

-- What the health timeout of a session is meant to leave, and to have told the application.
structure TimedOut (e : Env) (slot after : Slot) : Prop where
  alive : after.healthAlive = false
  told : ∃ rest, after.log = slot.log ++ rest ∧ (PEER_NA, .event .disconnected) ∈ rest
  known : after.peerSessionKnown = false
  fin : after.pendingFin = false
  timer : after.reorderPending = false
  window : after.recvWindow = Window.init 0 e.windowSize

-- A path that keeps the service connected through the loop over the paths.
def Outlasts (e : Env) (slot : Slot) : Prop :=
  slot.lastRecvTs.tvSec ≠ 0 ∧
    ∃ k, slot.pathLogicalAlive k = true ∧ slot.silentPath e (slot.now e) k = false

instance (e : Env) (slot : Slot) : Decidable (slot.Outlasts e) :=
  inferInstanceAs (Decidable (_ ∧ _))

section

variable {e : Env} {slot : Slot}

theorem healthSynced_alive_iff (h : Resting e slot) :
    (slot.healthSynced e).healthAlive = true ↔
      ∃ k, slot.pathLogicalAlive k = true ∧ slot.silentPath e (slot.now e) k = false := by
  rw [healthSynced_alive h.alive]
  constructor
  · intro hany
    obtain ⟨k, -, hk⟩ := List.any_eq_true.mp hany
    rw [healthSynced_states h.rest, Bool.and_eq_true, Bool.not_eq_true'] at hk
    exact ⟨k, hk⟩
  · rintro ⟨k, hstate, hsilent⟩
    refine List.any_eq_true.mpr ⟨k, List.mem_finRange k, ?_⟩
    rw [healthSynced_states h.rest, hstate, hsilent]
    rfl

theorem serviceTimeout_timedOut (hcallback : e.callback = true) {synced : Slot}
    (hpeer : synced.peer = none) (halive : synced.healthAlive = true)
    (hlog : ∃ rest, synced.log = slot.log ++ rest) :
    TimedOut e slot (synced.serviceTimeout e) := by
  let cleared : Slot := clearPathPingStates
    { synced with pendingFin := false, finTargetSeq := 0, reorderPending := false }
  obtain ⟨evs, -, hv⟩ := view_disconnectAllPaths cleared
  obtain ⟨-, -, hdead⟩ := cut_disconnectAllPaths
    { synced with pendingFin := false, finTargetSeq := 0, reorderPending := false }
  obtain ⟨rest, hrest⟩ := hlog
  have halive' : cleared.healthAlive = true := halive
  obtain ⟨told, htold, hmem⟩ := disconnectAllPaths_told hcallback halive'
  have hid : cleared.peerId = PEER_NA := congrArg (Option.getD · PEER_NA) hpeer
  rw [hid] at hmem
  refine ⟨hdead, ⟨rest ++ (told ++ [((cleared.disconnectAllPaths e).peerId, Act.forget)]), ?_, ?_⟩,
    rfl, ?_, ?_, rfl⟩
  · change (cleared.disconnectAllPaths e).log ++
      [((cleared.disconnectAllPaths e).peerId, Act.forget)] = _
    rw [htold, show cleared.log = slot.log ++ rest from hrest]
    simp only [List.append_assoc]
  · exact List.mem_append_right _ (List.mem_append_left _ hmem)
  · exact (congrArg View.pendingFin hv).trans (synced_pendingFin false evs)
  · exact (congrArg View.pending hv).trans (synced_pending false evs)

-- A session that timed out is given up exactly when a connected path has not timed out with it.
theorem healthCheckService_timedOut_iff (hcallback : e.callback = true) (h : Resting e slot)
    (halive : slot.healthAlive = true) (htimeout : 0 < e.healthTimeoutMs)
    (hsilent : (e.healthTimeoutMs : Int) ≤ e.plat.timespecDiffMs (slot.now e) slot.lastRecvTs) :
    TimedOut e slot (slot.healthCheckService e) ↔ slot.Outlasts e := by
  have hsynced := healthSynced_alive_iff h
  obtain ⟨alive, evs, hv, hlast, -⟩ := view_healthSynced slot
  have hknown : (slot.healthSynced e).peerSessionKnown = true :=
    ((congrArg View.known hv).trans (synced_known alive evs)).trans (h.rest.known halive)
  rw [healthCheckService_eq, if_neg (Nat.pos_iff_ne_zero.mp htimeout), hlast, if_pos hsilent]
  constructor
  · intro hout
    split at hout
    · exact absurd (hknown.symm.trans hout.known) Bool.noConfusion
    · rename_i hgo
      rw [Bool.or_eq_true, decide_eq_true_eq, decide_eq_true_eq, not_or, Bool.not_eq_false] at hgo
      exact ⟨hgo.2, hsynced.mp hgo.1⟩
  · rintro ⟨hsec, hpath⟩
    have hon := hsynced.mpr hpath
    rw [if_neg]
    · refine serviceTimeout_timedOut hcallback ?_ hon ?_
      · exact ((congrArg View.peer hv).trans (synced_peer alive evs)).trans h.peer
      · have hl := congrArg View.log hv
        unfold View.synced View.callbackEmits at hl
        rw [if_pos hcallback] at hl
        exact ⟨_, hl⟩
    · rw [hon]
      simpa using hsec

end

end Slot

-- A 1:1 UDP service whose session has been silent for the timeout gives the session up exactly
-- when the loop over its paths leaves a path connected.
theorem health_timeout_resets_iff (e : Env) (hlex : e.plat.CmpLex)
    (_hudp : e.type.isTcpType = false) (_hkind : e.type ≠ .unicastBidirN1)
    (hreceives : e.Receives) (sessionId : UInt32) (sessionTs : Timespec)
    (destAddr : Path → Endpoint) (inputs : List Slot.Input) :
    let slot := (Slot.opened e sessionId sessionTs destAddr).run e inputs
    slot.healthAlive = true → 0 < e.healthTimeoutMs →
      (e.healthTimeoutMs : Int) ≤ e.plat.timespecDiffMs (slot.now e) slot.lastRecvTs →
      (slot.TimedOut e (slot.healthCheckService e) ↔ slot.Outlasts e) := by
  intro slot halive htimeout hsilent
  exact Slot.healthCheckService_timedOut_iff hreceives.callback
    (Slot.run_resting hlex sessionId sessionTs destAddr inputs) halive htimeout hsilent

-- A receiver with a timeout of one second whose clock starts at `boot` seconds.
def Config.sampleTimed (type : PotrType) : Config :=
  { Config.sample type with healthTimeoutMs := 1000 }

def Env.sampleTimed (type : PotrType) (boot : Nat) : Env where
  toConfig := Config.sampleTimed type
  accepted := by cases type <;> rfl
  plat := { Cplat.reference with clock := fun n => ⟨Int64.ofNat (boot + n), 0⟩ }

theorem Env.sampleTimed_cmpLex (type : PotrType) (boot : Nat) :
    (Env.sampleTimed type boot).plat.CmpLex :=
  ⟨Cplat.reference_cmpLex.eq_zero, Cplat.reference_cmpLex.pos⟩

-- A path that was last heard before the clock showed a second never counts as silent.
theorem health_timeout_resets_iff_sample :
    let e := Env.sampleTimed .unicast 0
    let slot := (Slot.sample e).run e [.packet 0 .source (.samplePing 7),
      .packet 1 .source (.samplePing 7)]
    slot.healthAlive = true ∧ slot.Outlasts e ∧ slot.TimedOut e (slot.healthCheckService e) := by
  intro e slot
  have halive : slot.healthAlive = true := by decide +kernel
  have hout : slot.Outlasts e := by decide +kernel
  exact ⟨halive, hout, (health_timeout_resets_iff e (Env.sampleTimed_cmpLex .unicast 0) rfl (by decide)
    (.inl rfl) 3 ⟨2, 0⟩ (fun _ => .target) _ halive (by decide) (by decide +kernel)).mpr hout⟩

-- One PING and a second of silence: the service is disconnected but keeps the session.
theorem silent_path_keeps_session :
    let e := Env.sampleTimed .unicast 1
    let slot := (Slot.sample e).run e [.sample (.samplePing 7)]
    slot.healthAlive = true ∧
      (e.healthTimeoutMs : Int) ≤ e.plat.timespecDiffMs (slot.now e) slot.lastRecvTs ∧
      (slot.healthCheckService e).healthAlive = false ∧
      (slot.healthCheckService e).peerSessionKnown = true ∧
      (slot.healthCheckService e).recvWindow.nextSeq = 7 := by
  decide +kernel

end Porter
