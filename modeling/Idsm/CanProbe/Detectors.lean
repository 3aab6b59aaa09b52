import Idsm.Foundation.OrderedMap

/-! The windowed CAN detectors, `detectors.cpp`. Each counts frames in windows of one length and
alerts once in a window. -/

set_option autoImplicit false

namespace Idsm.CanProbe

open Idsm.Foundation

structure CanFrame where
  canId : UInt32
  eff : Bool
  rtr : Bool
  err : Bool
  fd : Bool
  dlc : UInt8
  len : UInt8
  data : Vector UInt8 64
  deriving DecidableEq

/-- A frame as its declaration leaves it. -/
def CanFrame.blank : CanFrame := ⟨0, false, false, false, false, 0, 0, .replicate 64 0⟩

/-- The types of alert the windowed detectors report. -/
inductive DetectorType where
  | idFlood
  | busFlood
  | errorBurst
  | udsSecAccess
  | udsSvcScan
  | diagFlood
  deriving DecidableEq, Repr

structure CanAlert where
  detectorType : DetectorType
  canId : UInt32
  eff : Bool
  rtr : Bool
  fd : Bool
  err : Bool
  count : UInt32
  aux : UInt32
  deriving DecidableEq, Repr

def makeAlert (detectorType : DetectorType) (f : CanFrame) (aux : UInt32) : CanAlert :=
  ⟨detectorType, f.canId, f.eff, f.rtr, f.fd, f.err, 1, aux⟩

/-! The window, the same in all detectors. -/

structure WindowState (δ : Type) where
  windowStart : Nat
  held : δ

section Windows

variable {δ : Type} (windowMs : UInt32) (cleared : δ) (add : δ → δ × Option CanAlert)

/-- A start of zero says that no window was opened. -/
def WindowState.enter (st : WindowState δ) (nowMs : Nat) : WindowState δ :=
  let windowStart := if st.windowStart = 0 then nowMs else st.windowStart
  if windowMs.toNat ≤ nowMs - windowStart then ⟨nowMs, cleared⟩ else ⟨windowStart, st.held⟩

def feedWindow (st : WindowState δ) (nowMs : Nat) : WindowState δ × Option CanAlert :=
  let st := st.enter windowMs cleared nowMs
  let (held, alert) := add st.held
  ({ st with held }, alert)

/-- The window of one key. A key that is new gets an empty one. -/
def feedKey (table : OrderedMap Nat (WindowState δ)) (key : Nat) (nowMs : Nat) :
    OrderedMap Nat (WindowState δ) × Option CanAlert :=
  let (st, alert) := feedWindow windowMs cleared add ((table.find? key).getD ⟨0, cleared⟩) nowMs
  (table.insert key st, alert)

end Windows

structure Counter where
  count : UInt32
  alerted : Bool
  deriving DecidableEq, Repr

def Counter.zero : Counter := ⟨0, false⟩

def Counter.add (threshold : UInt32) (report : UInt32 → CanAlert) (counter : Counter) :
    Counter × Option CanAlert :=
  let count := counter.count + 1
  if threshold ≤ count ∧ counter.alerted = false then (⟨count, true⟩, some (report count))
  else (⟨count, counter.alerted⟩, none)

/-- The report of a rate. -/
def rateAlert (detectorType : DetectorType) (f : CanFrame) (windowMs count : UInt32) : CanAlert :=
  { makeAlert detectorType f (count * 1000 / windowMs) with count }

/-! The detectors. -/

structure IdFloodConfig where
  windowMs : UInt32 := 1000
  fpsThreshold : UInt32 := 100

def IdFlood.feed (cfg : IdFloodConfig) (ids : OrderedMap Nat (WindowState Counter))
    (f : CanFrame) (nowMs : Nat) : OrderedMap Nat (WindowState Counter) × Option CanAlert :=
  if f.err then (ids, none)
  else
    feedKey cfg.windowMs .zero
      (Counter.add cfg.fpsThreshold (rateAlert .idFlood f cfg.windowMs)) ids f.canId.toNat nowMs

structure BusFloodConfig where
  windowMs : UInt32 := 1000
  fpsThreshold : UInt32 := 1000

def BusFlood.feed (cfg : BusFloodConfig) (state : WindowState Counter) (_f : CanFrame)
    (nowMs : Nat) : WindowState Counter × Option CanAlert :=
  feedWindow cfg.windowMs .zero
    (Counter.add cfg.fpsThreshold (rateAlert .busFlood .blank cfg.windowMs)) state nowMs

structure ErrorBurstConfig where
  windowMs : UInt32 := 1000
  errThreshold : UInt32 := 20

def ErrorBurst.feed (cfg : ErrorBurstConfig) (state : WindowState Counter) (_f : CanFrame)
    (nowMs : Nat) : WindowState Counter × Option CanAlert :=
  feedWindow cfg.windowMs .zero
    (Counter.add cfg.errThreshold fun count => { makeAlert .errorBurst .blank count with count })
    state nowMs

structure DiagFloodConfig where
  windowMs : UInt32 := 1000
  fpsThreshold : UInt32 := 50

def DiagFlood.feed (cfg : DiagFloodConfig) (testers : OrderedMap Nat (WindowState Counter))
    (f : CanFrame) (nowMs : Nat) : OrderedMap Nat (WindowState Counter) × Option CanAlert :=
  feedKey cfg.windowMs .zero
    (Counter.add cfg.fpsThreshold (rateAlert .diagFlood f cfg.windowMs)) testers f.canId.toNat nowMs

structure UdsSecAccessConfig where
  windowMs : UInt32 := 60000
  seedThreshold : UInt32 := 5
  keyThreshold : UInt32 := 5

def udsSidSecurityAccess : UInt8 := 0x27
def secAccessSeedFlood : UInt32 := 1
def secAccessKeyGuess : UInt32 := 2

/-- The requests for seeds and the keys sent, each with its own latch. -/
structure SecAccess where
  seeds : Counter
  keys : Counter
  deriving DecidableEq, Repr

def SecAccess.zero : SecAccess := ⟨.zero, .zero⟩

def requestsSeed (f : CanFrame) : Bool := (f.data[1] &&& 0x7F) % 2 == 1

def SecAccess.add (cfg : UdsSecAccessConfig) (f : CanFrame) (held : SecAccess) :
    SecAccess × Option CanAlert :=
  if requestsSeed f then
    let (seeds, alert) := held.seeds.add cfg.seedThreshold fun count =>
      { makeAlert .udsSecAccess f secAccessSeedFlood with count }
    ({ held with seeds }, alert)
  else
    let (keys, alert) := held.keys.add cfg.keyThreshold fun count =>
      { makeAlert .udsSecAccess f secAccessKeyGuess with count }
    ({ held with keys }, alert)

def isSecurityAccess (f : CanFrame) : Bool := 2 ≤ f.len && f.data[0] == udsSidSecurityAccess

def UdsSecAccess.feed (cfg : UdsSecAccessConfig)
    (testers : OrderedMap Nat (WindowState SecAccess)) (f : CanFrame) (nowMs : Nat) :
    OrderedMap Nat (WindowState SecAccess) × Option CanAlert :=
  if isSecurityAccess f then
    feedKey cfg.windowMs .zero (SecAccess.add cfg f) testers f.canId.toNat nowMs
  else (testers, none)

structure UdsSvcScanConfig where
  windowMs : UInt32 := 10000
  svcThreshold : UInt32 := 8

structure SvcScan where
  sids : Finset UInt8
  alerted : Bool
  deriving DecidableEq

def SvcScan.zero : SvcScan := ⟨∅, false⟩

def SvcScan.add (cfg : UdsSvcScanConfig) (f : CanFrame) (held : SvcScan) :
    SvcScan × Option CanAlert :=
  let sids := insert f.data[0] held.sids
  if cfg.svcThreshold.toNat ≤ sids.card ∧ held.alerted = false then
    let count := UInt32.ofNat sids.card
    (⟨sids, true⟩, some { makeAlert .udsSvcScan f count with count })
  else (⟨sids, held.alerted⟩, none)

def UdsSvcScan.feed (cfg : UdsSvcScanConfig) (testers : OrderedMap Nat (WindowState SvcScan))
    (f : CanFrame) (nowMs : Nat) : OrderedMap Nat (WindowState SvcScan) × Option CanAlert :=
  if 1 ≤ f.len then
    feedKey cfg.windowMs .zero (SvcScan.add cfg f) testers f.canId.toNat nowMs
  else (testers, none)

/-! What they watch. -/

/-- A frame with the time it is fed at. -/
abbrev Event := CanFrame × Nat

/-- What a detector watches: the frames of one key, counted by kind in one window. -/
structure Watch where
  windowMs : UInt32
  counts : CanFrame → Bool
  key : CanFrame → Nat
  kind : CanFrame → Bool
  threshold : Bool → UInt32
  measure : Bool → List Event → Nat
  grows : ∀ kind window more, measure kind window ≤ measure kind (window ++ more)

/-! The six detectors. -/

inductive Detector where
  | idFlood (cfg : IdFloodConfig)
  | busFlood (cfg : BusFloodConfig)
  | errorBurst (cfg : ErrorBurstConfig)
  | diagFlood (cfg : DiagFloodConfig)
  | udsSecAccess (cfg : UdsSecAccessConfig)
  | udsSvcScan (cfg : UdsSvcScanConfig)

private theorem length_grows (window more : List Event) :
    window.length ≤ (window ++ more).length := by
  simp

/-- Every frame counts once against one threshold. -/
def countWatch (windowMs threshold : UInt32) (counts : CanFrame → Bool) (key : CanFrame → Nat) :
    Watch where
  windowMs
  counts
  key
  kind := fun _ => true
  threshold := fun _ => threshold
  measure := fun _ window => window.length
  grows := fun _ => length_grows

def Detector.watch : Detector → Watch
  | .idFlood cfg => countWatch cfg.windowMs cfg.fpsThreshold (fun f => !f.err) (·.canId.toNat)
  | .busFlood cfg => countWatch cfg.windowMs cfg.fpsThreshold (fun _ => true) fun _ => 0
  | .errorBurst cfg => countWatch cfg.windowMs cfg.errThreshold (fun _ => true) fun _ => 0
  | .diagFlood cfg =>
      countWatch cfg.windowMs cfg.fpsThreshold (fun _ => true) (·.canId.toNat)
  | .udsSecAccess cfg =>
      { windowMs := cfg.windowMs
        counts := isSecurityAccess
        key := (·.canId.toNat)
        kind := requestsSeed
        threshold := fun seeds => if seeds then cfg.seedThreshold else cfg.keyThreshold
        measure := fun seeds window => (window.filter (requestsSeed ·.1 == seeds)).length
        grows := fun seeds window more => by simp }
  | .udsSvcScan cfg =>
      { windowMs := cfg.windowMs
        counts := fun f => 1 ≤ f.len
        key := (·.canId.toNat)
        kind := fun _ => true
        threshold := fun _ => cfg.svcThreshold
        measure := fun _ window => (window.map (·.1.data[0])).toFinset.card
        grows := fun _ window more => by
          refine Finset.card_le_card ?_
          rw [List.map_append, List.toFinset_append]
          exact Finset.subset_union_left }

/-- The services that the frames of a window ask for. -/
def windowSids (window : List Event) : Finset UInt8 := (window.map (·.1.data[0])).toFinset

end Idsm.CanProbe
