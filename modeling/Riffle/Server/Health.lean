import Mathlib
import Riffle.Lib.FixedWidth

/-!
# The service's health

`HealthService::is_healthy` (`src/health_service.rs`) is what the
coordinator heartbeat (`src/heartbeat.rs`) reports as `is_healthy`, with an
error read as unhealthy.  One call goes through the checks in order and
returns at the first that fails: the deadlock and panic tags, the disks'
used ratios, the hybrid store's health, the number of alive apps, and last
the hang detector.  The detector remembers the memory `used` it last saw and
when it saw it; a call that finds the same non-zero value, with enough apps
running, more than the window after that time marks the service unhealthy
for good.

What a call reads of the rest of the server is its `HealthReadings`.  The
used ratios are `f64` in the source; the model keeps them abstract, in any
type with a decidable `<`, since `LocalfileStoreStat::is_healthy` only
compares them with the threshold.  The memory-allocated check exists only
with the `allocator-analysis` feature and is left out.

The detector's window counts from the last call that reached it, not from
the last change of `used`: calls that return before it (an unhealthy store,
a full disk, too many apps) leave its record as it was, so the first call
to reach it after such a spell longer than the window, with `used` as it
was, marks the service unhealthy for good.
-/

namespace Riffle.Server

open Riffle.FixedWidth

universe u

/-- `LocalfileStoreStat`: the used ratio of each local disk. -/
structure LocalfileStoreStat (α : Type u) where
  stats : List α
  deriving DecidableEq, Repr

/-- `LocalfileStoreStat::is_healthy`: no disk's used ratio is above the
threshold. -/
def LocalfileStoreStat.isHealthy {α : Type u} [LT α] [DecidableLT α]
    (stat : LocalfileStoreStat α) (usedRatioThreshold : α) : Bool :=
  stat.stats.all fun usedRatio => !decide (usedRatioThreshold < usedRatio)

/-- `MemUsedSizeStat`: the hang detector's record. -/
structure MemUsedSizeStat where
  prevVal : Int
  prevTimestamp : Nat
  isMarkedUnhealthy : Bool
  deriving DecidableEq, Repr

def MemUsedSizeStat.default : MemUsedSizeStat :=
  ⟨-1, 0, false⟩

/-- `HealthStat`: the last answers of the disk and store checks, and the
hang detector's record. -/
structure HealthStat where
  s1 : Bool
  s2 : Bool
  memoryUsedSizeStat : MemUsedSizeStat
  deriving DecidableEq, Repr

def HealthStat.default : HealthStat :=
  ⟨true, true, MemUsedSizeStat.default⟩

/-- `HealthService`: its configuration and its `HealthStat`. -/
structure HealthService (α : Type u) where
  aliveAppNumberLimit : Option Nat
  diskUsedRatioHealthThreshold : Option α
  serviceHangOfMemContinuousUnchangeSec : Option Nat
  serviceHangOfAppValidNumber : Option Nat
  healthStat : HealthStat
  deriving DecidableEq, Repr

/-- What one `is_healthy` call reads: the two tags, the local disks' stat,
the hybrid store's health, the alive app number (read twice), the memory
used and the wall clock in milliseconds. -/
structure HealthReadings (α : Type u) where
  deadlock : Bool
  panicked : Bool
  localfileStat : Except String (LocalfileStoreStat α)
  storeIsHealthy : Bool
  aliveAppNumber : Nat
  used : Int
  runningAppNum : Nat
  now : Nat
  deriving DecidableEq, Repr

namespace HealthService

variable {α : Type u}

def new (aliveAppNumberLimit : Option Nat) (diskUsedRatioHealthThreshold : Option α)
    (serviceHangOfMemContinuousUnchangeSec serviceHangOfAppValidNumber : Option Nat) :
    HealthService α :=
  ⟨aliveAppNumberLimit, diskUsedRatioHealthThreshold, serviceHangOfMemContinuousUnchangeSec,
    serviceHangOfAppValidNumber, HealthStat.default⟩

/-- The hang detector that ends `is_healthy`.  The window is compared with
a difference of `u128` milliseconds. -/
def checkMemoryHang (serviceHangOfMemContinuousUnchangeSec serviceHangOfAppValidNumber : Option Nat)
    (memStat : MemUsedSizeStat) (used : Int) (runningAppNum now : Nat) : MemUsedSizeStat × Bool :=
  if memStat.isMarkedUnhealthy then (memStat, false)
  else if used = memStat.prevVal ∧ used ≠ 0 ∧
      serviceHangOfAppValidNumber.getD 50 ≤ runningAppNum then
    if serviceHangOfMemContinuousUnchangeSec.getD (5 * 60 * 1000) <
        toUnsigned 128 ((now : Int) - memStat.prevTimestamp) then
      ({ memStat with isMarkedUnhealthy := true }, false)
    else (memStat, true)
  else ({ memStat with prevVal := used, prevTimestamp := now }, true)

section HangDetector

variable {serviceHangOfMemContinuousUnchangeSec serviceHangOfAppValidNumber : Option Nat}
  {memStat : MemUsedSizeStat}

/-- The hang detector never clears its mark. -/
theorem checkMemoryHang_of_marked (marked : memStat.isMarkedUnhealthy) (used : Int)
    (runningAppNum now : Nat) :
    checkMemoryHang serviceHangOfMemContinuousUnchangeSec serviceHangOfAppValidNumber memStat used
      runningAppNum now = (memStat, false) := by
  unfold checkMemoryHang
  rw [if_pos marked]

/-- The detector fires on a non-zero `used` it saw before, with enough apps
running, more than the window after it saw it. -/
theorem checkMemoryHang_fires (unmarked : memStat.isMarkedUnhealthy = false) {used : Int}
    {runningAppNum now : Nat} (same : used = memStat.prevVal) (nonzero : used ≠ 0)
    (enough : serviceHangOfAppValidNumber.getD 50 ≤ runningAppNum)
    (late : serviceHangOfMemContinuousUnchangeSec.getD (5 * 60 * 1000) <
      toUnsigned 128 ((now : Int) - memStat.prevTimestamp)) :
    checkMemoryHang serviceHangOfMemContinuousUnchangeSec serviceHangOfAppValidNumber memStat used
      runningAppNum now = ({ memStat with isMarkedUnhealthy := true }, false) := by
  unfold checkMemoryHang
  rw [if_neg (by simp [unmarked]), if_pos ⟨same, nonzero, enough⟩, if_pos late]

end HangDetector

/-- `is_healthy` from the hybrid store's check on: the store, the alive app
limit, and the hang detector. -/
def checkStoreAndApps (service : HealthService α) (readings : HealthReadings α) :
    HealthService α × Except String Bool :=
  let stat := readings.storeIsHealthy
  let prevStat := service.healthStat.s2
  let service := if prevStat ≠ stat then { service with healthStat.s2 := !prevStat } else service
  if !stat then (service, .ok false)
  else if (service.aliveAppNumberLimit.map fun limit => decide (limit < readings.aliveAppNumber)).getD false then
    (service, .ok false)
  else
    let checked := checkMemoryHang service.serviceHangOfMemContinuousUnchangeSec
      service.serviceHangOfAppValidNumber service.healthStat.memoryUsedSizeStat readings.used
      readings.runningAppNum readings.now
    ({ service with healthStat.memoryUsedSizeStat := checked.1 }, .ok checked.2)

/-- A call changes nothing but the `HealthStat`. -/
theorem checkStoreAndApps_config (service : HealthService α) (readings : HealthReadings α) :
    ∃ healthStat, (service.checkStoreAndApps readings).1 = { service with healthStat := healthStat } := by
  unfold checkStoreAndApps
  dsimp only
  split_ifs <;> exact ⟨_, rfl⟩

/-- The store and app checks: a failing one answers unhealthy and leaves the
detector's record alone, and passing both hands the call to the detector. -/
theorem checkStoreAndApps_eq (service : HealthService α) (readings : HealthReadings α) :
    (service.checkStoreAndApps readings).1.healthStat.memoryUsedSizeStat =
        (if readings.storeIsHealthy &&
            !(service.aliveAppNumberLimit.map fun limit =>
              decide (limit < readings.aliveAppNumber)).getD false
          then (checkMemoryHang service.serviceHangOfMemContinuousUnchangeSec
            service.serviceHangOfAppValidNumber service.healthStat.memoryUsedSizeStat readings.used
            readings.runningAppNum readings.now).1
          else service.healthStat.memoryUsedSizeStat) ∧
      (service.checkStoreAndApps readings).2 =
        (if readings.storeIsHealthy &&
            !(service.aliveAppNumberLimit.map fun limit =>
              decide (limit < readings.aliveAppNumber)).getD false
          then .ok (checkMemoryHang service.serviceHangOfMemContinuousUnchangeSec
            service.serviceHangOfAppValidNumber service.healthStat.memoryUsedSizeStat readings.used
            readings.runningAppNum readings.now).2
          else .ok false) := by
  unfold checkStoreAndApps
  dsimp only
  by_cases healthy : readings.storeIsHealthy <;> by_cases full :
      (service.aliveAppNumberLimit.map fun limit => decide (limit < readings.aliveAppNumber)).getD false <;>
    simp [healthy, full] <;> split_ifs <;> simp_all

variable [LT α] [DecidableLT α]

/-- `HealthService::is_healthy`. -/
def isHealthy (service : HealthService α) (readings : HealthReadings α) :
    HealthService α × Except String Bool :=
  if readings.deadlock then (service, .ok false)
  else if readings.panicked then (service, .ok false)
  else
    match service.diskUsedRatioHealthThreshold with
    | none => service.checkStoreAndApps readings
    | some threshold =>
        match readings.localfileStat with
        | .error error => (service, .error error)
        | .ok stat =>
            let localfileStat := stat.isHealthy threshold
            let prevStat := service.healthStat.s1
            let service :=
              if prevStat ≠ localfileStat then { service with healthStat.s1 := !prevStat } else service
            if !localfileStat then (service, .ok false) else service.checkStoreAndApps readings

/-- The health the heartbeat task reports for each of its rounds:
`is_healthy().await.unwrap_or(false)`. -/
def heartbeatHealth (service : HealthService α) : List (HealthReadings α) → HealthService α × List Bool
  | [] => (service, [])
  | readings :: later =>
      let called := service.isHealthy readings
      let rest := heartbeatHealth called.1 later
      (rest.1, called.2.toOption.getD false :: rest.2)

/-- Whether a call gets as far as the hang detector: every check before it
passes. -/
def reachesHangCheck (service : HealthService α) (readings : HealthReadings α) : Bool :=
  !readings.deadlock && !readings.panicked &&
    (match service.diskUsedRatioHealthThreshold, readings.localfileStat with
      | none, _ => true
      | some threshold, .ok stat => stat.isHealthy threshold
      | some _, .error _ => false) &&
    readings.storeIsHealthy &&
    !(service.aliveAppNumberLimit.map fun limit => decide (limit < readings.aliveAppNumber)).getD false

variable {service : HealthService α} {readings : HealthReadings α}

/-! ## One call -/

theorem isHealthy_config (service : HealthService α) (readings : HealthReadings α) :
    ∃ healthStat, (service.isHealthy readings).1 = { service with healthStat := healthStat } := by
  unfold isHealthy
  split_ifs
  · exact ⟨_, rfl⟩
  · exact ⟨_, rfl⟩
  · split
    · exact checkStoreAndApps_config service readings
    · split
      · exact ⟨_, rfl⟩
      · dsimp only
        -- the disk check may flip `s1` before it hands over
        split_ifs <;> first
          | exact ⟨_, rfl⟩
          | exact checkStoreAndApps_config _ readings

/-- What a call leaves of the detector's record and what it answers: a call
that gets as far as the detector is the detector's, and any other answers
unhealthy or fails and leaves the record alone. -/
theorem isHealthy_eq (service : HealthService α) (readings : HealthReadings α) :
    if service.reachesHangCheck readings then
      (service.isHealthy readings).1.healthStat.memoryUsedSizeStat =
          (checkMemoryHang service.serviceHangOfMemContinuousUnchangeSec
      service.serviceHangOfAppValidNumber service.healthStat.memoryUsedSizeStat readings.used
            readings.runningAppNum readings.now).1 ∧
        (service.isHealthy readings).2 =
          .ok (checkMemoryHang service.serviceHangOfMemContinuousUnchangeSec
      service.serviceHangOfAppValidNumber service.healthStat.memoryUsedSizeStat readings.used
            readings.runningAppNum readings.now).2
    else
      (service.isHealthy readings).1.healthStat.memoryUsedSizeStat =
          service.healthStat.memoryUsedSizeStat ∧
        (service.isHealthy readings).2 ≠ .ok true := by
  have storeAndApps := checkStoreAndApps_eq service readings
  unfold isHealthy reachesHangCheck
  by_cases deadlock : readings.deadlock
  · simp [deadlock]
  by_cases panicked : readings.panicked
  · simp [deadlock, panicked]
  cases configured : service.diskUsedRatioHealthThreshold with
  | none =>
      by_cases passes : (readings.storeIsHealthy &&
          !(service.aliveAppNumberLimit.map fun limit => decide (limit < readings.aliveAppNumber)).getD false)
      · simp_all
      · simp_all
  | some threshold =>
      cases read : readings.localfileStat with
      | error error =>
          simp [deadlock, panicked]
      | ok stat =>
          -- the disk check may flip `s1` before it hands the call over
          have flippedStoreAndApps :=
            checkStoreAndApps_eq { service with healthStat.s1 := !service.healthStat.s1 } readings
          by_cases diskHealthy : stat.isHealthy threshold <;>
            by_cases flipped : service.healthStat.s1 = stat.isHealthy threshold <;>
            simp_all

/-- `unwrap_or(false)` of an answer that is not a healthy one. -/
theorem reported_unhealthy {answer : Except String Bool} (notHealthy : answer ≠ .ok true) :
    answer.toOption.getD false = false := by
  cases answer with
  | error error => rfl
  | ok healthy =>
      have unhealthy : healthy = false := by simpa using notHealthy
      exact unhealthy

/-- A marked service answers unhealthy, or fails, and stays marked. -/
theorem isHealthy_of_marked (marked : service.healthStat.memoryUsedSizeStat.isMarkedUnhealthy)
    (readings : HealthReadings α) :
    (service.isHealthy readings).1.healthStat.memoryUsedSizeStat.isMarkedUnhealthy ∧
      (service.isHealthy readings).2.toOption.getD false = false := by
  have called := isHealthy_eq service readings
  split_ifs at called
  · rw [checkMemoryHang_of_marked marked] at called
    rw [called.1, called.2]
    exact ⟨marked, rfl⟩
  · exact ⟨called.1 ▸ marked, reported_unhealthy called.2⟩

/-! ## The heartbeat's rounds -/

theorem heartbeatHealth_append (service : HealthService α) (first second : List (HealthReadings α)) :
    service.heartbeatHealth (first ++ second) =
      (((service.heartbeatHealth first).1.heartbeatHealth second).1,
        (service.heartbeatHealth first).2 ++ ((service.heartbeatHealth first).1.heartbeatHealth second).2) := by
  induction first generalizing service with
  | nil => rfl
  | cons readings later inductionHypothesis =>
      simp only [List.cons_append, heartbeatHealth, inductionHypothesis]

/-- Once the detector has marked the service, every round reports it
unhealthy and the mark stays. -/
theorem heartbeatHealth_of_marked (marked : service.healthStat.memoryUsedSizeStat.isMarkedUnhealthy)
    (rounds : List (HealthReadings α)) :
    (service.heartbeatHealth rounds).1.healthStat.memoryUsedSizeStat.isMarkedUnhealthy ∧
      ∀ reported ∈ (service.heartbeatHealth rounds).2, reported = false := by
  induction rounds generalizing service with
  | nil => exact ⟨marked, by simp [heartbeatHealth]⟩
  | cons readings later inductionHypothesis =>
      obtain ⟨stillMarked, unhealthy⟩ := isHealthy_of_marked marked readings
      obtain ⟨finalMarked, laterUnhealthy⟩ := inductionHypothesis stillMarked
      refine ⟨finalMarked, ?_⟩
      simp only [heartbeatHealth, List.mem_cons]
      rintro reported (first | rest)
      · rw [first, unhealthy]
      · exact laterUnhealthy reported rest

/-- Rounds that return before the detector leave its record as it was, and
report the service unhealthy. -/
theorem heartbeatHealth_of_early {rounds : List (HealthReadings α)}
    (early : ∀ readings ∈ rounds, service.reachesHangCheck readings = false) :
    (∃ healthStat, (service.heartbeatHealth rounds).1 = { service with healthStat := healthStat } ∧
        healthStat.memoryUsedSizeStat = service.healthStat.memoryUsedSizeStat) ∧
      ∀ reported ∈ (service.heartbeatHealth rounds).2, reported = false := by
  induction rounds generalizing service with
  | nil => exact ⟨⟨service.healthStat, rfl, rfl⟩, by simp [heartbeatHealth]⟩
  | cons readings later inductionHypothesis =>
      have called := isHealthy_eq service readings
      rw [if_neg (by simp [early readings (List.mem_cons_self ..)])] at called
      obtain ⟨healthStat, config⟩ := isHealthy_config service readings
      -- the later rounds read only the configuration, which the first round keeps
      obtain ⟨⟨finalStat, final, kept⟩, laterUnhealthy⟩ :=
        @inductionHypothesis (service.isHealthy readings).1 fun later member => by
          rw [config]
          exact early later (List.mem_cons_of_mem _ member)
      have firstUnhealthy := reported_unhealthy called.2
      refine ⟨⟨finalStat, ?_, ?_⟩, ?_⟩
      · show ((service.isHealthy readings).1.heartbeatHealth later).1 = _
        rw [final, config]
      · rw [kept, called.1]
      · simp only [heartbeatHealth, List.mem_cons]
        rintro reported (first | rest)
        · rw [first, firstUnhealthy]
        · exact laterUnhealthy reported rest

/-- A call that reaches the detector with the record's non-zero `used`,
enough apps running and the window passed since the record marks the
service and answers unhealthy. -/
theorem isHealthy_fires (unmarked : service.healthStat.memoryUsedSizeStat.isMarkedUnhealthy = false)
    (reaches : service.reachesHangCheck readings)
    (same : readings.used = service.healthStat.memoryUsedSizeStat.prevVal) (nonzero : readings.used ≠ 0)
    (enough : service.serviceHangOfAppValidNumber.getD 50 ≤ readings.runningAppNum)
    (late : service.serviceHangOfMemContinuousUnchangeSec.getD (5 * 60 * 1000) <
      toUnsigned 128 ((readings.now : Int) - service.healthStat.memoryUsedSizeStat.prevTimestamp)) :
    (service.isHealthy readings).1.healthStat.memoryUsedSizeStat.isMarkedUnhealthy ∧
      (service.isHealthy readings).2 = .ok false := by
  have called := isHealthy_eq service readings
  rw [if_pos reaches, checkMemoryHang_fires unmarked same nonzero enough late] at called
  rw [called.1, called.2]
  exact ⟨rfl, rfl⟩

end HealthService

open HealthService

/-- The hang detector's window counts from the last call that reached it,
not from the last change of the memory used.  From any state whose record
is unmarked, a spell of heartbeat rounds that each return before the
detector (the store unhealthy, a disk full, too many apps, a tag set)
leaves the record as it was; the first round after it that reaches the
detector, reading the recorded non-zero `used` with enough apps running
more than the window after the record's time, marks the service, and every
round from the spell on, however many follow, reports it unhealthy. -/
theorem hang_window_counts_from_last_check {α : Type u} [LT α] [DecidableLT α]
    {service : HealthService α}
    (unmarked : service.healthStat.memoryUsedSizeStat.isMarkedUnhealthy = false)
    (spell : List (HealthReadings α))
    (early : ∀ readings ∈ spell, service.reachesHangCheck readings = false)
    (readings : HealthReadings α) (reaches : service.reachesHangCheck readings)
    (same : readings.used = service.healthStat.memoryUsedSizeStat.prevVal) (nonzero : readings.used ≠ 0)
    (enough : service.serviceHangOfAppValidNumber.getD 50 ≤ readings.runningAppNum)
    (late : service.serviceHangOfMemContinuousUnchangeSec.getD (5 * 60 * 1000) <
      toUnsigned 128 ((readings.now : Int) - service.healthStat.memoryUsedSizeStat.prevTimestamp))
    (later : List (HealthReadings α)) :
    (service.heartbeatHealth (spell ++ readings :: later)).1.healthStat.memoryUsedSizeStat.isMarkedUnhealthy ∧
      ∀ reported ∈ (service.heartbeatHealth (spell ++ readings :: later)).2, reported = false := by
  obtain ⟨⟨healthStat, spelled, kept⟩, spellUnhealthy⟩ := heartbeatHealth_of_early early
  -- the spell leaves the configuration and the record, so the next round fires as from the start
  set waited := (service.heartbeatHealth spell).1 with waitedEq
  have record : waited.healthStat.memoryUsedSizeStat = service.healthStat.memoryUsedSizeStat := by
    rw [spelled, kept]
  obtain ⟨marked, unhealthy⟩ := @isHealthy_fires α _ _ waited readings (record ▸ unmarked)
    (by rw [spelled]; exact reaches) (record ▸ same) nonzero (by rw [spelled]; exact enough)
    (by rw [record, spelled]; exact late)
  obtain ⟨finalMarked, laterUnhealthy⟩ := heartbeatHealth_of_marked marked later
  rw [heartbeatHealth_append]
  refine ⟨finalMarked, ?_⟩
  simp only [List.mem_append, heartbeatHealth, List.mem_cons]
  rintro reported ((inSpell | (firing | rest)))
  · exact spellUnhealthy reported inSpell
  · rw [firing, ← waitedEq, unhealthy]
    rfl
  · exact laterUnhealthy reported rest

/-- A service whose detector recorded 5 bytes used at time 1000 ms. -/
def steadyService : HealthService Nat :=
  ⟨none, none, none, none, ⟨true, true, ⟨5, 1000, false⟩⟩⟩

/-- The hybrid store is unhealthy for five minutes and more while nothing
changes the memory used; the first round after it marks the service for
good, although the store has recovered. -/
theorem store_outage_latches_hang_detector :
    (HealthService.new none (none : Option Nat) none none).isHealthy
        ⟨false, false, .ok ⟨[]⟩, true, 60, 5, 60, 1000⟩ = (steadyService, .ok true) ∧
      (steadyService.heartbeatHealth
          ([⟨false, false, .ok ⟨[]⟩, false, 60, 5, 60, 150000⟩,
            ⟨false, false, .ok ⟨[]⟩, false, 60, 5, 60, 300000⟩] ++
            ⟨false, false, .ok ⟨[]⟩, true, 60, 5, 60, 301001⟩ :: [])).1.healthStat.memoryUsedSizeStat.isMarkedUnhealthy ∧
      ∀ reported ∈ (steadyService.heartbeatHealth
          ([⟨false, false, .ok ⟨[]⟩, false, 60, 5, 60, 150000⟩,
            ⟨false, false, .ok ⟨[]⟩, false, 60, 5, 60, 300000⟩] ++
            ⟨false, false, .ok ⟨[]⟩, true, 60, 5, 60, 301001⟩ :: [])).2, reported = false :=
  ⟨rfl, hang_window_counts_from_last_check rfl _ (by decide) _ rfl rfl (by decide) (by decide)
    (by decide) []⟩

end Riffle.Server
