import Riffle.Store.MemoryBuffer
import Riffle.Lib.KeyedTotal
import Riffle.Lib.Transition

/-!
# The counters of a `MemoryBuffer` over whole runs

`MemoryBuffer` keeps three `i64` counters beside its two containers:
`staging_size`, `flight_size` and `total_size` (buffer.rs).  `clear` trusts
the length its caller passes, so the counters agree with the containers only
for callers that pass back what `spill` returned.

A `BufferLedger` runs a buffer together with what its callers have seen of
it: the sizes appended since the last spill, every spill result returned,
every id passed to `clear` and every block appended.  The flights still in
the map are then exactly the spill results no clear has named (`live`), and
`Bookkeeping` relates each counter to these records.

`append` adds its `u64` size `as i64`.  A size of `2^63` or more is added as a
negative number, so the bookkeeping needs a second discipline: the buffer
never holds `2^63` bytes (`KeepsTotalInI64`).  Without it, one append breaks
`staging_size` (`memoryBuffer_append_overflows`).
-/

namespace Riffle.Store

open Riffle.FixedWidth Riffle.KeyedTotal Riffle.Transition

/-- One call on a partition's buffer; the buffer's lock serializes them. -/
inductive BufferCall
  | append (blocks : List Block) (size : Nat)
  | spill
  | clear (flightId flightLen : Nat)
  deriving Repr

/-- The flight map entry a spill result stands for. -/
def BufferSpillResult.flightEntry (result : BufferSpillResult) : Nat × List (List Block) :=
  (result.flightId, result.blocks)

/-- A buffer and the ghost record of the calls made on it. -/
structure BufferLedger where
  buffer : MemoryBuffer
  /-- The sizes passed to `append` since the last `spill`. -/
  sinceSpill : List Nat
  /-- Every spill result returned, oldest first. -/
  spilled : List BufferSpillResult
  /-- Every id passed to `clear`. -/
  cleared : List Nat
  /-- Every block passed to `append`, in order. -/
  appended : List Block

namespace MemoryBuffer

/-- `clear` of an id the flight map does not hold changes nothing. -/
theorem clear_of_absent {buffer : MemoryBuffer} {flightId : Nat}
    (absent : ∀ entry ∈ buffer.flight, entry.1 ≠ flightId) (flightLen : Nat) :
    buffer.clear flightId flightLen = buffer := by
  have notFound : buffer.flight.any (fun entry => entry.1 = flightId) = false := by
    simpa using absent
  simp [clear, notFound]

end MemoryBuffer

namespace BufferLedger

def initial : BufferLedger :=
  ⟨MemoryBuffer.new, [], [], [], []⟩

def handle (ledger : BufferLedger) : BufferCall → BufferLedger
  | .append blocks size =>
      { ledger with
        buffer := ledger.buffer.append blocks size
        sinceSpill := ledger.sinceSpill ++ [size]
        appended := ledger.appended ++ blocks }
  | .spill =>
      match ledger.buffer.spill with
      | (buffer, some result) =>
          { ledger with buffer, sinceSpill := [], spilled := ledger.spilled ++ [result] }
      | (buffer, none) => { ledger with buffer, sinceSpill := [] }
  | .clear flightId flightLen =>
      { ledger with
        buffer := ledger.buffer.clear flightId flightLen
        cleared := ledger.cleared ++ [flightId] }

def next (ledger : BufferLedger) (call : BufferCall) : Option BufferLedger :=
  some (ledger.handle call)

/-- The spill results whose flight no clear has named. -/
def live (ledger : BufferLedger) : List BufferSpillResult :=
  ledger.spilled.filter fun result => result.flightId ∉ ledger.cleared

/-- Every clear passes a flight id and length that one spill returned
together. -/
def ReturnsSpilled (ledger : BufferLedger) : BufferCall → Prop
  | .clear flightId flightLen =>
      ∃ result ∈ ledger.spilled, result.flightId = flightId ∧ result.flightLen = flightLen
  | _ => True

/-- Appends keep the buffer's total below `2^63` bytes, so that `size as i64`
is the size and no counter leaves the `i64` range. -/
def KeepsTotalInI64 (ledger : BufferLedger) : BufferCall → Prop
  | .append _ size => ledger.buffer.totalSize + size < 2 ^ 63
  | _ => True

instance decidableReturnsSpilled (ledger : BufferLedger) :
    (call : BufferCall) → Decidable (ReturnsSpilled ledger call)
  | .append _ _ => isTrue trivial
  | .spill => isTrue trivial
  | .clear flightId flightLen =>
      inferInstanceAs (Decidable (∃ result ∈ ledger.spilled,
        result.flightId = flightId ∧ result.flightLen = flightLen))

instance decidableKeepsTotalInI64 (ledger : BufferLedger) :
    (call : BufferCall) → Decidable (KeepsTotalInI64 ledger call)
  | .append _ size => inferInstanceAs (Decidable (ledger.buffer.totalSize + size < 2 ^ 63))
  | .spill => isTrue trivial
  | .clear _ _ => isTrue trivial

/-- The counters and containers of the buffer against the ghost record. -/
structure Bookkeeping (ledger : BufferLedger) : Prop where
  stagingSize_eq : ledger.buffer.stagingSize = (ledger.sinceSpill.sum : Int)
  flight_eq : ledger.buffer.flight = ledger.live.map BufferSpillResult.flightEntry
  flightSize_eq :
    ledger.buffer.flightSize = ((ledger.live.map BufferSpillResult.flightLen).sum : Int)
  totalSize_eq : ledger.buffer.totalSize = ledger.buffer.stagingSize + ledger.buffer.flightSize
  flightIds_eq :
    ledger.spilled.map BufferSpillResult.flightId = List.range ledger.buffer.flightCounter
  cleared_lt : ∀ flightId ∈ ledger.cleared, flightId < ledger.buffer.flightCounter
  flightLen_lt : ∀ result ∈ ledger.spilled, result.flightLen < 2 ^ 63
  totalSize_lt : ledger.buffer.totalSize < 2 ^ 63
  appended_eq : ledger.appended =
    (ledger.spilled.map fun result => result.blocks.flatten).flatten ++
      ledger.buffer.staging.flatten


/-- A clear retires its id from the live results, whether or not a flight
carried it. -/
theorem live_clear (ledger : BufferLedger) (flightId flightLen : Nat) :
    (ledger.handle (.clear flightId flightLen)).live =
      ledger.live.filter fun result => result.flightId ≠ flightId := by
  simp [handle, live, List.filter_filter, and_comm]

theorem bookkeeping_initial : initial.Bookkeeping where
  stagingSize_eq := rfl
  flight_eq := rfl
  flightSize_eq := rfl
  totalSize_eq := rfl
  flightIds_eq := rfl
  cleared_lt := fun _ member => absurd member List.not_mem_nil
  flightLen_lt := fun _ member => absurd member List.not_mem_nil
  totalSize_lt := by decide
  appended_eq := rfl

namespace Bookkeeping

variable {ledger : BufferLedger}

theorem stagingSize_nonneg (kept : ledger.Bookkeeping) : 0 ≤ ledger.buffer.stagingSize := by
  rw [kept.stagingSize_eq]
  exact Int.natCast_nonneg _

theorem flightSize_nonneg (kept : ledger.Bookkeeping) : 0 ≤ ledger.buffer.flightSize := by
  rw [kept.flightSize_eq]
  exact Int.natCast_nonneg _

theorem stagingSize_lt (kept : ledger.Bookkeeping) : ledger.buffer.stagingSize < 2 ^ 63 := by
  have total := kept.totalSize_eq
  have below := kept.totalSize_lt
  have flightNonneg := kept.flightSize_nonneg
  omega

theorem flightId_lt {result : BufferSpillResult} (kept : ledger.Bookkeeping)
    (member : result ∈ ledger.spilled) : result.flightId < ledger.buffer.flightCounter := by
  have listed := List.mem_map_of_mem (f := BufferSpillResult.flightId) member
  rw [kept.flightIds_eq] at listed
  exact List.mem_range.mp listed

theorem flightIds_nodup (kept : ledger.Bookkeeping) :
    (ledger.spilled.map BufferSpillResult.flightId).Nodup := by
  rw [kept.flightIds_eq]
  exact List.nodup_range

/-- A flight id names one spill result. -/
theorem eq_of_flightId_eq {result other : BufferSpillResult} (kept : ledger.Bookkeeping)
    (member : result ∈ ledger.spilled) (otherMember : other ∈ ledger.spilled)
    (same : result.flightId = other.flightId) : result = other :=
  List.inj_on_of_nodup_map kept.flightIds_nodup member otherMember same

theorem live_flightIds_nodup (kept : ledger.Bookkeeping) :
    (ledger.live.map BufferSpillResult.flightId).Nodup :=
  kept.flightIds_nodup.sublist (List.filter_sublist.map _)

/-- An append within the `i64` range adds its size to staging and its blocks
to the record. -/
theorem append (kept : ledger.Bookkeeping) (blocks : List Block) {size : Nat}
    (fits : ledger.buffer.totalSize + size < 2 ^ 63) :
    (ledger.handle (.append blocks size)).Bookkeeping := by
  have total := kept.totalSize_eq
  have stagingNonneg := kept.stagingSize_nonneg
  have flightNonneg := kept.flightSize_nonneg
  have signed : toSigned 64 size = size := toSigned_of_lt (by norm_num; omega)
  exact {
    stagingSize_eq := by
      simp [handle, MemoryBuffer.append, signed, kept.stagingSize_eq]
    flight_eq := kept.flight_eq
    flightSize_eq := kept.flightSize_eq
    totalSize_eq := by
      simp only [handle, MemoryBuffer.append, signed]
      omega
    flightIds_eq := kept.flightIds_eq
    cleared_lt := kept.cleared_lt
    flightLen_lt := kept.flightLen_lt
    totalSize_lt := by
      simp only [handle, MemoryBuffer.append, signed]
      exact fits
    appended_eq := by
      simp [handle, MemoryBuffer.append, kept.appended_eq] }

/-- The counter is fresh: no flight and no cleared id carries it. -/
theorem flightCounter_fresh (kept : ledger.Bookkeeping) :
    ∀ entry ∈ ledger.buffer.flight, entry.1 ≠ ledger.buffer.flightCounter := by
  rw [kept.flight_eq]
  intro entry member
  obtain ⟨result, liveMember, rfl⟩ := List.mem_map.mp member
  exact (kept.flightId_lt (List.mem_of_mem_filter liveMember)).ne

/-- A spill moves a non-empty staging area into a new flight, which is live
because no clear has named its fresh id; an empty one changes nothing. -/
theorem spill (kept : ledger.Bookkeeping) : (ledger.handle .spill).Bookkeeping := by
  by_cases empty : ledger.buffer.stagingSize = 0
  · have unchanged : ledger.buffer.spill = (ledger.buffer, none) := by
      simp [MemoryBuffer.spill, empty]
    simp only [handle, unchanged]
    exact { kept with stagingSize_eq := by simpa using empty }
  · have unseen : ledger.buffer.flightCounter ∉ ledger.cleared := fun member =>
      lt_irrefl _ (kept.cleared_lt _ member)
    have stagingNonneg := kept.stagingSize_nonneg
    have stagingBelow := kept.stagingSize_lt
    have unsigned : (toUnsigned 64 ledger.buffer.stagingSize : Int) = ledger.buffer.stagingSize := by
      rw [toUnsigned_of_nonneg stagingNonneg (by omega), Int.toNat_of_nonneg stagingNonneg]
    have total := kept.totalSize_eq
    simp only [handle, MemoryBuffer.spill, if_neg empty,
      MemoryBuffer.insertEntry_of_fresh kept.flightCounter_fresh]
    exact {
      stagingSize_eq := rfl
      flight_eq := by
        simp [live, List.filter_append, unseen, kept.flight_eq, BufferSpillResult.flightEntry]
      flightSize_eq := by
        simp [live, List.filter_append, unseen, kept.flightSize_eq, unsigned]
      totalSize_eq := by
        simp only
        omega
      flightIds_eq := by
        simp [kept.flightIds_eq, List.range_succ]
      cleared_lt := fun flightId member => Nat.lt_succ_of_lt (kept.cleared_lt flightId member)
      flightLen_lt := by
        intro result member
        rcases List.mem_append.mp member with old | new
        · exact kept.flightLen_lt result old
        · rw [List.mem_singleton.mp new]
          show toUnsigned 64 ledger.buffer.stagingSize < 2 ^ 63
          omega
      totalSize_lt := kept.totalSize_lt
      appended_eq := by
        simp [kept.appended_eq] }

/-- A clear of a pair that a spill returned removes that flight and its
length; once the flight is gone, it changes nothing. -/
theorem clear (kept : ledger.Bookkeeping) {flightId flightLen : Nat}
    (returned : ∃ result ∈ ledger.spilled,
      result.flightId = flightId ∧ result.flightLen = flightLen) :
    (ledger.handle (.clear flightId flightLen)).Bookkeeping := by
  obtain ⟨result, spilledMember, rfl, rfl⟩ := returned
  have below := kept.flightId_lt spilledMember
  have clearedBelow : ∀ flightId ∈ ledger.cleared ++ [result.flightId],
      flightId < ledger.buffer.flightCounter := by
    intro flightId member
    rcases List.mem_append.mp member with old | new
    · exact kept.cleared_lt flightId old
    · rw [List.mem_singleton.mp new]
      exact below
  have liveAfter := live_clear ledger result.flightId result.flightLen
  by_cases present : result ∈ ledger.live
  · have found : ledger.buffer.flight.any (fun entry => entry.1 = result.flightId) = true := by
      rw [kept.flight_eq, List.any_map]
      exact List.any_eq_true.mpr ⟨result, present, by simp [BufferSpillResult.flightEntry]⟩
    have removed : MemoryBuffer.removeEntry result.flightId ledger.buffer.flight =
        (ledger.live.filter fun other => other.flightId ≠ result.flightId).map
          BufferSpillResult.flightEntry := by
      rw [kept.flight_eq, MemoryBuffer.removeEntry, List.eraseP_map]
      exact congrArg _ (eraseP_eq_filter_of_nodup BufferSpillResult.flightId
        kept.live_flightIds_nodup)
    have lenSmall := kept.flightLen_lt result spilledMember
    have signed : toSigned 64 result.flightLen = result.flightLen :=
      toSigned_of_lt (by norm_num; omega)
    -- the other live flights weigh the live ones less the cleared flight
    have remaining := sum_map_filter_ne_add BufferSpillResult.flightId
      BufferSpillResult.flightLen kept.live_flightIds_nodup present
    have total := kept.totalSize_eq
    have totalBelow := kept.totalSize_lt
    simp only [handle, MemoryBuffer.clear, found, if_true] at liveAfter ⊢
    exact {
      stagingSize_eq := kept.stagingSize_eq
      flight_eq := by
        rw [liveAfter]
        exact removed
      flightSize_eq := by
        rw [liveAfter, signed, kept.flightSize_eq, ← remaining]
        push_cast
        omega
      totalSize_eq := by
        simp only [signed]
        omega
      flightIds_eq := kept.flightIds_eq
      cleared_lt := clearedBelow
      flightLen_lt := kept.flightLen_lt
      totalSize_lt := by
        simp only [signed]
        omega
      appended_eq := kept.appended_eq }
  · -- no live result, hence no flight, carries the id
    have otherIds : ∀ other ∈ ledger.live, other.flightId ≠ result.flightId := fun other member same =>
      present (kept.eq_of_flightId_eq (List.mem_of_mem_filter member) spilledMember same ▸ member)
    have absent : ∀ entry ∈ ledger.buffer.flight, entry.1 ≠ result.flightId := by
      rw [kept.flight_eq]
      intro entry member
      obtain ⟨other, otherLive, rfl⟩ := List.mem_map.mp member
      exact otherIds other otherLive
    have liveKept : ledger.live.filter (fun other => other.flightId ≠ result.flightId) =
        ledger.live :=
      List.filter_eq_self.mpr fun other member => by simpa using otherIds other member
    simp only [handle, MemoryBuffer.clear_of_absent absent] at liveAfter ⊢
    exact {
      stagingSize_eq := kept.stagingSize_eq
      flight_eq := by
        rw [liveAfter, liveKept]
        exact kept.flight_eq
      flightSize_eq := by
        rw [liveAfter, liveKept]
        exact kept.flightSize_eq
      totalSize_eq := kept.totalSize_eq
      flightIds_eq := kept.flightIds_eq
      cleared_lt := clearedBelow
      flightLen_lt := kept.flightLen_lt
      totalSize_lt := kept.totalSize_lt
      appended_eq := kept.appended_eq }

theorem handle (kept : ledger.Bookkeeping) {call : BufferCall}
    (returns : ReturnsSpilled ledger call) (keeps : KeepsTotalInI64 ledger call) :
    (ledger.handle call).Bookkeeping := by
  cases call with
  | append blocks size => exact kept.append blocks keeps
  | spill => exact kept.spill
  | clear flightId flightLen => exact kept.clear returns

/-- The blocks still buffered and those of the cleared flights are, together,
the blocks appended. -/
theorem perm_appended (kept : ledger.Bookkeeping) :
    (ledger.buffer.staging.flatten ++
        (ledger.buffer.flight.map fun entry => entry.2.flatten).flatten ++
        ((ledger.spilled.filter fun result => result.flightId ∈ ledger.cleared).map
          fun result => result.blocks.flatten).flatten).Perm ledger.appended := by
  -- the spill results split into the live ones and the cleared ones
  have split := List.filter_append_perm
    (fun result : BufferSpillResult => decide (result.flightId ∉ ledger.cleared)) ledger.spilled
  have clearedForm : (ledger.spilled.filter fun result => !decide (result.flightId ∉ ledger.cleared)) =
      ledger.spilled.filter fun result => result.flightId ∈ ledger.cleared := by
    simp
  rw [clearedForm] at split
  have spilledBlocks := (split.map fun result => result.blocks.flatten).flatten
  rw [kept.appended_eq, kept.flight_eq]
  calc ledger.buffer.staging.flatten ++
        ((ledger.live.map BufferSpillResult.flightEntry).map fun entry => entry.2.flatten).flatten ++
        ((ledger.spilled.filter fun result => result.flightId ∈ ledger.cleared).map
          fun result => result.blocks.flatten).flatten
      = ledger.buffer.staging.flatten ++
          ((ledger.live ++ ledger.spilled.filter fun result => result.flightId ∈ ledger.cleared).map
            fun result => result.blocks.flatten).flatten := by
        simp [List.map_map, Function.comp_def, BufferSpillResult.flightEntry, live]
    List.Perm _ (ledger.buffer.staging.flatten ++
          (ledger.spilled.map fun result => result.blocks.flatten).flatten) :=
        spilledBlocks.append_left _
    List.Perm _ ((ledger.spilled.map fun result => result.blocks.flatten).flatten ++
          ledger.buffer.staging.flatten) :=
        List.perm_append_comm

end Bookkeeping

/-- Along every run of disciplined callers the counters agree with the
record. -/
theorem bookkeeping_of_reachable {ledger : BufferLedger}
    (reached : Relation.ReflTransGen
      (Steps next fun ledger call => ReturnsSpilled ledger call ∧ KeepsTotalInI64 ledger call)
      initial ledger) :
    ledger.Bookkeeping := by
  refine @invariant_of_steps _ _ next
    (fun ledger call => ReturnsSpilled ledger call ∧ KeepsTotalInI64 ledger call)
    Bookkeeping ?_ _ _ reached bookkeeping_initial
  rintro source target call ⟨returns, keeps⟩ kept fired
  cases fired
  exact kept.handle returns keeps

theorem memoryBuffer_bookkeeping {ledger : BufferLedger}
    (reached : Relation.ReflTransGen
      (Steps next fun ledger call => ReturnsSpilled ledger call ∧ KeepsTotalInI64 ledger call)
      initial ledger) :
    ledger.buffer.stagingSize = (ledger.sinceSpill.sum : Int) ∧
      ledger.buffer.flight = ledger.live.map BufferSpillResult.flightEntry ∧
      ledger.buffer.flightSize = ((ledger.live.map BufferSpillResult.flightLen).sum : Int) ∧
      ledger.buffer.totalSize = ledger.buffer.stagingSize + ledger.buffer.flightSize ∧
      ledger.spilled.map BufferSpillResult.flightId = List.range ledger.buffer.flightCounter ∧
      (∀ entry ∈ ledger.buffer.flight, entry.1 < ledger.buffer.flightCounter) ∧
      (∀ flightId flightLen, (∀ entry ∈ ledger.buffer.flight, entry.1 ≠ flightId) →
        ledger.buffer.clear flightId flightLen = ledger.buffer) ∧
      ((ledger.buffer.staging.flatten ++
          (ledger.buffer.flight.map fun entry => entry.2.flatten).flatten : List Block) :
          Multiset Block) =
        (ledger.appended : Multiset Block) -
          (((ledger.spilled.filter fun result => result.flightId ∈ ledger.cleared).map
            fun result => result.blocks.flatten).flatten : Multiset Block) := by
  have kept := bookkeeping_of_reachable reached
  refine ⟨kept.stagingSize_eq, kept.flight_eq, kept.flightSize_eq, kept.totalSize_eq,
    kept.flightIds_eq, ?_, fun flightId flightLen absent =>
      MemoryBuffer.clear_of_absent absent flightLen, ?_⟩
  · intro entry member
    rw [kept.flight_eq] at member
    obtain ⟨result, liveMember, rfl⟩ := List.mem_map.mp member
    exact kept.flightId_lt (List.mem_of_mem_filter liveMember)
  · have whole : ((ledger.buffer.staging.flatten ++
          (ledger.buffer.flight.map fun entry => entry.2.flatten).flatten : List Block) :
          Multiset Block) +
        (((ledger.spilled.filter fun result => result.flightId ∈ ledger.cleared).map
            fun result => result.blocks.flatten).flatten : Multiset Block) = ledger.appended := by
      rw [Multiset.coe_add]
      exact Multiset.coe_eq_coe.mpr kept.perm_appended
    rw [← whole, Multiset.add_sub_cancel_right]

/-- Five bytes are appended, spilled as flight 0, and flight 0 is cleared
twice. -/
def sampleRun : List BufferCall :=
  [.append [⟨1, 5, 5, 0, [1, 2, 3, 4, 5], 0⟩] 5, .spill, .clear 0 5, .clear 0 5]

theorem memoryBuffer_bookkeeping_sampleRun :
    (sampleRun.foldl handle initial).buffer.flightSize =
        (((sampleRun.foldl handle initial).live.map BufferSpillResult.flightLen).sum : Int) ∧
      (sampleRun.foldl handle initial).buffer.totalSize =
        (sampleRun.foldl handle initial).buffer.stagingSize +
          (sampleRun.foldl handle initial).buffer.flightSize := by
  have facts := memoryBuffer_bookkeeping (reflTransGen_of_checkedRun
    (show checkedRun next _ initial sampleRun = some (sampleRun.foldl handle initial) from rfl))
  exact ⟨facts.2.2.1, facts.2.2.2.1⟩

/-- Clears that name their own spill's flight do not keep the counters in
range: an append of `2^63` bytes is added `as i64`, and staging holds `-2^63`
after it. -/
theorem memoryBuffer_append_overflows :
    Relation.ReflTransGen (Steps next ReturnsSpilled) initial
        (initial.handle (.append [] (2 ^ 63))) ∧
      (initial.handle (.append [] (2 ^ 63))).buffer.stagingSize = -2 ^ 63 ∧
      (initial.handle (.append [] (2 ^ 63))).sinceSpill.sum = 2 ^ 63 :=
  ⟨.single ⟨.append [] (2 ^ 63), trivial, rfl⟩, by decide, rfl⟩

end BufferLedger

end Riffle.Store
