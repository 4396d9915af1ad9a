import Duet.Lib.Words
import Duet.Sync.StagingWaves

/-!
# The space of staged files

While one side prepares its files, every write is charged against a credit. The credit comes
from a report of the filesystem, less what the policy keeps in reserve, and it is never more
than a window, so that a new report is asked for before long.
-/

namespace Duet

open Lib

/-! ## Policies -/

inductive StagingReserve where
  | bytes (bytes : UInt64)
  | basisPoints (basisPoints : UInt16)
deriving DecidableEq

structure StagingPolicy where
  limitBytes : Option UInt64
  reserve : StagingReserve
deriving DecidableEq

/-- What a filesystem reports. The number of its free inodes is read by the planner only. -/
structure StagingFilesystemInfo where
  totalBytes : UInt64
  availableBytes : UInt64
  blockSize : UInt64
  cowCloneSupported : Bool
deriving DecidableEq

/-- A share of the bytes in parts of 10000. The product has to fit into 128 bits, and the quotient
is cut off after 64 bits. -/
def basisPointsOf (total : UInt64) (points : UInt16) : Option UInt64 :=
  if total.toNat * points.toNat < 2 ^ 128 then
    some (UInt64.ofNat (total.toNat * points.toNat / 10000))
  else
    none

namespace StagingPolicy

/-- A `StagingBudget` in the words that its policy computes. -/
structure Budget where
  reserveBytes : UInt64
  usableBytes : UInt64
  budgetBytes : UInt64
  cowCloneSupported : Bool

/-- The budget as the planner reads it. -/
def Budget.toStagingBudget (budget : Budget) : StagingBudget where
  reserveBytes := budget.reserveBytes.toNat
  usableBytes := budget.usableBytes.toNat
  budgetBytes := budget.budgetBytes.toNat
  cowCloneSupported := budget.cowCloneSupported

def reserveBytes (policy : StagingPolicy) (filesystem : StagingFilesystemInfo) : Option UInt64 :=
  match policy.reserve with
  | .bytes bytes => some bytes
  | .basisPoints points => basisPointsOf filesystem.totalBytes points

def budget (policy : StagingPolicy) (filesystem : StagingFilesystemInfo) : Option Budget := do
  let reserve ← policy.reserveBytes filesystem
  let usable := saturatingSub64 filesystem.availableBytes reserve
  some {
    reserveBytes := reserve
    usableBytes := usable
    budgetBytes := policy.limitBytes.elim usable fun limit => min limit usable
    cowCloneSupported := filesystem.cowCloneSupported }

end StagingPolicy

/-! ## Charges -/

/-- The bytes rounded up to whole blocks, or the largest word where they do not fit into one. -/
def roundBlocks (requested block : UInt64) : Option UInt64 := do
  let slack ← checkedSub block 1
  match checkedAdd requested slack with
  | none => some (-1)
  | some bytes =>
    let blocks ← checkedDiv bytes block
    some ((checkedMul blocks block).getD (-1))

def roundStagingCharge (requested block : UInt64) : Option UInt64 :=
  (roundBlocks requested block).map fun rounded => max rounded block

structure StagingWriteCapacity where
  reserveBytes : UInt64
  requiredBytes : UInt64
  availableAboveReserve : UInt64

def stagingWriteCapacity (policy : StagingPolicy) (filesystem : StagingFilesystemInfo)
    (requested : UInt64) : Option StagingWriteCapacity := do
  let block := max filesystem.blockSize 1
  let rounded ← roundBlocks requested block
  let budget ← policy.budget filesystem
  some {
    reserveBytes := budget.reserveBytes
    requiredBytes := saturatingAdd64 rounded block
    availableAboveReserve := saturatingSub64 filesystem.availableBytes budget.reserveBytes }

/-! ## The monitor -/

def stagingCapacityWindowBytes : UInt64 := 64 * 1024 * 1024

structure StagingSpaceMonitorState where
  blockSize : UInt64 := 0
  remainingCredit : UInt64 := 0
deriving DecidableEq

inductive StagingSpaceError (ε : Type) where
  /-- The filesystem did not report. -/
  | report (error : ε)
  /-- The preparation of a path was aborted before the commit. -/
  | aborted (path : Path) (requested required available reserved : UInt64)
deriving DecidableEq

namespace StagingSpaceMonitor

variable {ε : Type}

/-- The answer to a call and the state after it. A call has none when its arithmetic stops the
program. -/
abbrev Answer (ε : Type) := Except (StagingSpaceError ε) Unit × StagingSpaceMonitorState

def refreshWithFilesystemLocked (policy : StagingPolicy) (path : Path) (requested : UInt64)
    (filesystem : StagingFilesystemInfo) (state : StagingSpaceMonitorState) :
    Option (Answer ε) := do
  let block := max filesystem.blockSize 1
  let charged ← roundStagingCharge requested block
  let capacity ← stagingWriteCapacity policy filesystem requested
  if capacity.requiredBytes > capacity.availableAboveReserve then
    some (.error (.aborted path requested capacity.requiredBytes filesystem.availableBytes
      capacity.reserveBytes), state)
  else
    let spendable := saturatingSub64 capacity.availableAboveReserve block
    let window := max stagingCapacityWindowBytes charged
    some (.ok (), {
      blockSize := block
      remainingCredit := saturatingSub64 (min spendable window) charged })

/-- A refresh with the report that the filesystem gives at that moment. -/
def refreshLocked (policy : StagingPolicy) (path : Path) (requested : UInt64)
    (report : Except ε StagingFilesystemInfo) (state : StagingSpaceMonitorState) :
    Option (Answer ε) :=
  match report with
  | .error error => some (.error (.report error), state)
  | .ok filesystem => refreshWithFilesystemLocked policy path requested filesystem state

/-- The state after a charge that the credit covers, if it does. -/
def spend (requested : UInt64) (state : StagingSpaceMonitorState) :
    Option (Option StagingSpaceMonitorState) :=
  if state.blockSize ≠ 0 then do
    let charged ← roundStagingCharge requested state.blockSize
    if charged ≤ state.remainingCredit then do
      let rest ← checkedSub state.remainingCredit charged
      some (some { state with remainingCredit := rest })
    else
      some none
  else
    some none

/-- A check asks for a report only when the credit does not cover the charge. -/
def check (policy : StagingPolicy) (path : Path) (requested : UInt64)
    (report : Except ε StagingFilesystemInfo) (state : StagingSpaceMonitorState) :
    Option (Answer ε) := do
  match ← spend requested state with
  | some spent => some (.ok (), spent)
  | none => refreshLocked policy path requested report state

def recheck (policy : StagingPolicy) (path : Path) (report : Except ε StagingFilesystemInfo)
    (state : StagingSpaceMonitorState) : Option (Answer ε) :=
  refreshLocked policy path 0 report state

/-! ## Calls -/

inductive Call (ε : Type) where
  | check (path : Path) (requested : UInt64) (report : Except ε StagingFilesystemInfo)
  | recheck (path : Path) (report : Except ε StagingFilesystemInfo)

/-- A call with the report that the filesystem gives if it is asked. -/
def Call.perform (policy : StagingPolicy) (call : Call ε) (state : StagingSpaceMonitorState) :
    Option (Answer ε) :=
  match call with
  | .check path requested report => StagingSpaceMonitor.check policy path requested report state
  | .recheck path report => StagingSpaceMonitor.recheck policy path report state

/-- What a call did. -/
structure Event (ε : Type) where
  call : Call ε
  before : StagingSpaceMonitorState
  answer : Except (StagingSpaceError ε) Unit
  after : StagingSpaceMonitorState

/-- The calls one after the other, each under the lock of the monitor. -/
def events (policy : StagingPolicy) : StagingSpaceMonitorState → List (Call ε) →
    Option (List (Event ε))
  | _, [] => some []
  | state, call :: calls => do
    let (answer, after) ← call.perform policy state
    let later ← events policy after calls
    some (⟨call, state, answer, after⟩ :: later)

end StagingSpaceMonitor

end Duet
