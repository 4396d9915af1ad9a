import Duet.Sync.Prune
import Duet.Sync.RemovalChecks

/-!
# What pruning one entry does

A call fails only when the operating system refuses it: the files that are unlinked and
the directories that are emptied first are there. A directory is deleted as a whole or,
when a call is refused on the way, not at all or in part; what lies outside stays.
-/

namespace Duet

open Lib

/-- Errors that keep a directory from being removed. -/
def RemovalError.isBlocker : RemovalError → Bool
  | .blocker .. => true
  | _ => false

/-- No entry has a temporary name of the process. -/
def Kernel.TempFree (kernel : Kernel) (tree : DirectoryTree) : Prop :=
  ∀ node ∈ tree.nodes, ∀ counter filename,
    node.path.getLast? ≠ some (.normal (kernel.pruneTempName counter filename))

/-- A call was refused. -/
structure Refused (kernel : Kernel) (e : RemovalError) : Prop where
  notBlocker : e.isBlocker = false
  cause : ∃ syscall, kernel.refuses syscall = true

/-- An error that is no blocker: a call was refused, or temporary names are taken. -/
structure SystemError (kernel : Kernel) (tree : DirectoryTree) (e : RemovalError) : Prop where
  notBlocker : e.isBlocker = false
  cause : (∃ syscall, kernel.refuses syscall = true) ∨ ¬ kernel.TempFree tree

theorem Kernel.TempFree.mono {kernel : Kernel} {tree tree' : DirectoryTree}
    (free : kernel.TempFree tree) (fewer : ∀ n ∈ tree'.nodes, n ∈ tree.nodes) :
    kernel.TempFree tree' :=
  fun n mem => free n (fewer n mem)

theorem SystemError.mono {kernel : Kernel} {tree tree' : DirectoryTree} {e : RemovalError}
    (error : SystemError kernel tree' e) (fewer : ∀ n ∈ tree'.nodes, n ∈ tree.nodes) :
    SystemError kernel tree e :=
  ⟨error.notBlocker, error.cause.imp_right fun taken free => taken (free.mono fewer)⟩

theorem Refused.system {kernel : Kernel} {e : RemovalError} (refused : Refused kernel e)
    (tree : DirectoryTree) : SystemError kernel tree e :=
  ⟨refused.notBlocker, .inl refused.cause⟩

section Calls

variable {kernel : Kernel} {disk : Disk} {path : Path} {node : Node}

theorem ends_inspect {α : Type} {look : DirectoryTree → Removes α} {Q : α → Disk → Prop}
    {E : RemovalError → Disk → Prop} :
    (inspect look).Ends Q E disk ↔ (Effect.check (look disk.tree)).Ends Q E disk :=
  Iff.rfl

theorem ends_call {syscall : SysCall} {Q : Unit → Disk → Prop} {E : RemovalError → Disk → Prop}
    (done : Q () disk) (refused : kernel.refuses syscall = true → E (.failed syscall) disk) :
    (call kernel syscall).Ends Q E disk := by
  unfold call
  split
  · rename_i refuses
    exact refused refuses
  · exact done

/-- The name that is chosen looks free. There is one when no entry has such a name. -/
theorem ends_ignoredPruneTempPath {dir : Path} {filename : Name} {attempts : Nat}
    (tries : 0 < attempts) :
    (ignoredPruneTempPath kernel dir filename attempts).Ends
      (fun new t => t.tree = disk.tree ∧
        kernel.tryExists disk.tree (dir ++ [.normal new]) = false ∧
        ∃ counter, new = kernel.pruneTempName counter filename)
      (fun e t => SystemError kernel disk.tree e ∧ t.tree = disk.tree) disk := by
  induction attempts generalizing disk with
  | zero => cases tries
  | succ attempts ih =>
    unfold ignoredPruneTempPath
    rw [Effect.ends_bind, Effect.ends_read, Effect.ends_bind, Effect.ends_write]
    cases there : kernel.tryExists disk.tree
        (dir ++ [.normal (kernel.pruneTempName disk.tempOutputCounter filename)]) with
    | false => exact ⟨rfl, there, _, rfl⟩
    | true =>
      have taken : ¬ kernel.TempFree disk.tree := by
        intro free
        unfold Kernel.tryExists at there
        split at there
        · rename_i node found
          obtain ⟨mem, path⟩ := DirectoryTree.entry?_eq_some.mp found
          refine free node mem disk.tempOutputCounter filename ?_
          rw [path, List.getLast?_concat]
        · cases there
      rw [if_pos rfl]
      cases attempts with
      | zero => exact ⟨⟨rfl, .inr taken⟩, rfl⟩
      | succ attempts => exact ih (Nat.succ_pos _)

end Calls

/-! ## One entry -/

section Entry

variable {kernel : Kernel} {policy : RemovalBlockerPolicy} {disk : Disk} {child : Node}

theorem fewer_outside {tree : DirectoryTree} {p : Path} :
    ∀ n ∈ (tree.outside p).nodes, n ∈ tree.nodes :=
  fun _ mem => (DirectoryTree.mem_outside.mp mem).1

end Entry

end Duet
