import Porter.Types

namespace Porter

-- Everything potr_service_open fixes for the life of a service: the service definition,
-- the global settings and the result of path resolution.
structure Config where
  serviceId : Int64
  type : PotrType
  role : Role
  callback : Bool
  srcPort : UInt16
  dstPort : UInt16
  -- `src_addr[0][0] != '\0'`
  srcAddrGiven : Bool
  srcAddrResolved : Path → UInt32
  dstAddrResolved : Path → UInt32
  nPath : Nat
  encryptEnabled : Bool
  encryptKey : Bytes
  windowSize : Nat
  maxPayload : Nat
  maxMessageSize : Nat
  sendQueueDepth : Nat
  reorderTimeoutMs : Nat
  healthIntervalMs : Nat
  healthTimeoutMs : Nat
  maxPeers : Nat

inductive Result where
  | ok
  | invalidArgument
  deriving DecidableEq, Repr

namespace Config

def isMultiPeer (cfg : Config) : Bool := cfg.type = .unicastBidirN1

-- The role check at the start of potr_service_open.
def openValidateRole (cfg : Config) : Result :=
  if cfg.role = .receiver ∧ ¬ cfg.callback then .invalidArgument else .ok

def openValidateCallback (cfg : Config) : Result :=
  if cfg.role = .sender ∧ cfg.callback ∧ cfg.type ≠ .unicastBidir ∧ cfg.type ≠ .tcpBidir then
    .invalidArgument
  else if cfg.role = .sender ∧ ¬ cfg.callback ∧
      (cfg.type = .unicastBidir ∨ cfg.type = .tcpBidir) then
    .invalidArgument
  else .ok

def openValidateConfig (cfg : Config) : Result :=
  if cfg.maxPayload < 64 ∨ MAX_PAYLOAD < cfg.maxPayload then .invalidArgument
  else if cfg.windowSize < 2 ∨ MAX_WINDOW_SIZE < cfg.windowSize then .invalidArgument
  else if cfg.maxMessageSize < cfg.maxPayload then .invalidArgument
  else if cfg.sendQueueDepth < 2 then .invalidArgument
  else .ok

-- Every api_open_paths_* function ends with at least one and at most POTR_MAX_PATH paths.
def openPaths (cfg : Config) : Result :=
  if cfg.nPath = 0 ∨ MAX_PATH < cfg.nPath then .invalidArgument else .ok

def openValidate (cfg : Config) : Result :=
  if cfg.openValidateRole ≠ .ok then cfg.openValidateRole
  else if cfg.openValidateCallback ≠ .ok then cfg.openValidateCallback
  else if cfg.openValidateConfig ≠ .ok then cfg.openValidateConfig
  else cfg.openPaths

end Config

-- An opened service: a configuration that potr_service_open accepted.
structure Service extends Config where
  accepted : toConfig.openValidate = .ok

namespace Service

theorem parts_ok (svc : Service) :
    svc.openValidateRole = .ok ∧ svc.openValidateCallback = .ok ∧
      svc.openValidateConfig = .ok ∧ svc.openPaths = .ok := by
  have h := svc.accepted
  unfold Config.openValidate at h
  split at h
  · rename_i hne; exact absurd h hne
  · rename_i hrole
    split at h
    · rename_i hne; exact absurd h hne
    · rename_i hcb
      split at h
      · rename_i hne; exact absurd h hne
      · rename_i hcfg
        exact ⟨not_not.mp hrole, not_not.mp hcb, not_not.mp hcfg, h⟩

theorem bounds (svc : Service) :
    64 ≤ svc.maxPayload ∧ svc.maxPayload ≤ MAX_PAYLOAD ∧ 2 ≤ svc.windowSize ∧
      svc.windowSize ≤ MAX_WINDOW_SIZE ∧ svc.maxPayload ≤ svc.maxMessageSize ∧
      2 ≤ svc.sendQueueDepth := by
  have h := svc.parts_ok.2.2.1
  unfold Config.openValidateConfig at h
  split at h
  · cases h
  · split at h
    · cases h
    · split at h
      · cases h
      · split at h
        · cases h
        · omega

theorem sendQueueDepth_bound (svc : Service) : 2 ≤ svc.sendQueueDepth := svc.bounds.2.2.2.2.2

theorem windowSize_pos (svc : Service) : 0 < svc.windowSize := by
  have := svc.bounds
  omega

theorem windowSize_le (svc : Service) : svc.windowSize ≤ MAX_WINDOW_SIZE := svc.bounds.2.2.2.1

theorem nPath_bounds (svc : Service) : 0 < svc.nPath ∧ svc.nPath ≤ MAX_PATH := by
  have h := svc.parts_ok.2.2.2
  unfold Config.openPaths at h
  split at h
  · cases h
  · omega

theorem callback_of_receiver (svc : Service) (h : svc.role = .receiver) :
    svc.callback = true := by
  have hrole := svc.parts_ok.1
  unfold Config.openValidateRole at hrole
  split at hrole
  · cases hrole
  · rename_i hn
    by_contra hc
    exact hn ⟨h, hc⟩

-- The services whose receive thread hands DATA to the application.
def Receives (svc : Service) : Prop :=
  svc.role = .receiver ∨ svc.type = .unicastBidir ∨ svc.type = .tcpBidir

theorem Receives.of_udp {svc : Service} (h : svc.Receives) (hudp : svc.type.isTcpType = false) :
    svc.role = .receiver ∨ svc.type = .unicastBidir := by
  rcases h with hrole | hbidir | htcp
  · exact .inl hrole
  · exact .inr hbidir
  · rw [htcp] at hudp
    cases hudp

theorem Receives.callback {svc : Service} (h : svc.Receives) : svc.callback = true := by
  by_cases hrole : svc.role = .receiver
  · exact svc.callback_of_receiver hrole
  · have hsender : svc.role = .sender := by
      cases hr : svc.role with
      | sender => rfl
      | receiver => exact absurd hr hrole
    have hcb := svc.parts_ok.2.1
    unfold Config.openValidateCallback at hcb
    split at hcb
    · cases hcb
    split at hcb
    · cases hcb
    · rename_i hn
      by_contra hc
      exact hn ⟨hsender, hc, h.resolve_left hrole⟩

end Service

-- The constant part of a potr_context together with the platform under it.
structure Env extends Service where
  plat : Cplat

-- compress_buf_size
def Config.compressBufSize (cfg : Config) : Nat := COMPRESS_HEADER_SIZE + cfg.maxMessageSize + 64

end Porter
