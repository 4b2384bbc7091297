import Vegar.File.FlattenObjects
import Vegar.Outcome
import Mathlib.Logic.Function.Basic

/-!
# File descriptor tables

The tables of `api/src/file/mod.rs` and the calls of `fd_ops.rs` and
`pipe.rs` on their slots.  The counters of the `Arc`s in the slots, and of the
ring buffers the ends of pipes hold, change where the source clones or drops.
A ledger compares them with the slots and with what a running call holds.
-/

namespace Vegar.File

/-- `AX_FILE_LIMIT`. -/
def axFileLimit : Nat := 1024

/-- A file behind an `Arc<dyn FileLike>`: an end of a pipe, or any other. -/
inductive FileRef where
  | other (number : Nat)
  | pipeEnd (pipe : Nat) (readable : Bool)
  deriving DecidableEq, Repr

abbrev FdSlots := FlattenObjects FileRef axFileLimit

structure FdProcess where
  table : Nat
  threads : Nat
  deriving DecidableEq, Repr

/-- The tables of all namespaces and the reference counters.  `files` and
`pipes` number the files and pipes made so far. -/
structure FdWorld where
  strong : FileRef → Nat
  bufferStrong : Nat → Nat
  files : Nat
  pipes : Nat
  tables : List FdSlots
  processes : List FdProcess

namespace FdWorld

def tableAt (world : FdWorld) (table : Nat) : FdSlots := (world.tables[table]?).getD .new

def setSlot (world : FdWorld) (table id : Nat) (content : Option FileRef) :
    FdWorld :=
  { world with
    tables := world.tables.modify table fun slots =>
      slots.setSlot id content }

/-- `Arc::clone`. -/
def retain (world : FdWorld) (ref : FileRef) : FdWorld :=
  { world with
    strong := Function.update world.strong ref (world.strong ref + 1) }

/-- Drop a `Pipe`, which drops its `Arc` of the ring buffer. -/
def dropEnd (world : FdWorld) (pipe : Nat) : FdWorld :=
  { world with
    bufferStrong := Function.update world.bufferStrong pipe (world.bufferStrong pipe - 1) }

/-- Drop an `Arc<dyn FileLike>`; the last one drops the file. -/
def release (world : FdWorld) (ref : FileRef) : FdWorld :=
  let after :=
    { world with
      strong := Function.update world.strong ref (world.strong ref - 1) }
  if world.strong ref = 1 then
    match ref with
    | .other _ => after
    | .pipeEnd pipe _ => after.dropEnd pipe
  else after

/-- `Arc::new`. -/
def newArc (world : FdWorld) (ref : FileRef) : FdWorld :=
  { world with strong := Function.update world.strong ref 1 }

/-- `Pipe::new`: two ends, not behind an `Arc` yet, that share a buffer. -/
def newPipe (world : FdWorld) : FdWorld :=
  { world with
    pipes := world.pipes + 1
    bufferStrong := Function.update world.bufferStrong world.pipes 2 }

/-- A file that is not a pipe, behind an `Arc`. -/
def newFile (world : FdWorld) : FdWorld :=
  { world with
    files := world.files + 1
    strong := Function.update world.strong (.other world.files) 1 }

/-- `Pipe::closed`. -/
def closed (world : FdWorld) (pipe : Nat) : Bool := world.bufferStrong pipe == 1

/-! ## The calls -/

/-- `fd as usize`. -/
def fdIndex (fd : BitVec 32) : Nat := (fd.signExtend 64).toNat

theorem fdIndex_ofNat {id : Nat} (inside : id < axFileLimit) : fdIndex (.ofNat 32 id) = id := by
  have small : id < 1024 := inside
  have notNegative : (BitVec.ofNat 32 id).msb = false := by
    rw [BitVec.msb_eq_decide]
    simp
    omega
  rw [fdIndex, BitVec.signExtend_eq_setWidth_of_msb_false notNegative]
  simp
  omega

/-- `get_file_like`. -/
def getFileLike (world : FdWorld) (table : Nat) (fd : BitVec 32) :
    LinuxResult FileRef × FdWorld :=
  match (world.tableAt table).get (fdIndex fd) with
  | some ref => (.ok ref, world.retain ref)
  | none => (.error .EBADF, world)

/-- `add_at` on a table of a namespace. -/
def addAt (world : FdWorld) (table id : Nat) (ref : FileRef) :
    Option FdWorld :=
  if id < axFileLimit ∧ (world.tableAt table).get id = none then
    some (world.setSlot table id (some ref))
  else none

section Calls

variable (allocator : IdAllocator FileRef axFileLimit)

/-- `add_file_like`; a file that finds no slot is dropped. -/
def addFileLike (world : FdWorld) (table : Nat) (ref : FileRef) :
    LinuxResult (BitVec 32) × FdWorld :=
  match allocator.pick (world.tableAt table) with
  | some id => (.ok (.ofNat 32 id), world.setSlot table id (some ref))
  | none => (.error .EMFILE, world.release ref)

/-- `close_file_like`. -/
def closeFileLike (world : FdWorld) (table : Nat) (fd : BitVec 32) :
    LinuxResult Unit × FdWorld :=
  match (world.tableAt table).get (fdIndex fd) with
  | some ref =>
      (.ok (), (world.setSlot table (fdIndex fd) none).release ref)
  | none => (.error .EBADF, world)

/-- `dup_fd`, which `sys_dup` and two commands of `sys_fcntl` are. -/
def dupFd (world : FdWorld) (table : Nat) (oldFd : BitVec 32) : LinuxResult (BitVec 32) × FdWorld :=
  match world.getFileLike table oldFd with
  | (.error error, after) => (.error error, after)
  | (.ok ref, after) => after.addFileLike allocator table ref

/-- `sys_dup2`. -/
def sysDup2 (world : FdWorld) (table : Nat) (oldFd newFd : BitVec 32) :
    Except (Fault LinuxError) (BitVec 32) × FdWorld :=
  match world.getFileLike table oldFd with
  | (.error error, after) => (.error (.err error), after)
  | (.ok ref, after) =>
      if oldFd = newFd then (.ok newFd, after.release ref)
      else
        let cleared := (after.closeFileLike table newFd).2
        match cleared.addAt table (fdIndex newFd) ref with
        | some final => (.ok newFd, final)
        | none => (.error .panicked, cleared)

/-- `F_DUPFD`. -/
def fDupFd : BitVec 32 := 0

/-- `F_DUPFD_CLOEXEC`. -/
def fDupFdCloexec : BitVec 32 := 1030

/-- `F_SETFL`. -/
def fSetFl : BitVec 32 := 4

/-- `sys_fcntl`; `set_nonblocking` succeeds for every kind of file and does
not concern the tables. -/
def sysFcntl (world : FdWorld) (table : Nat) (fd cmd : BitVec 32) :
    LinuxResult (BitVec 32) × FdWorld :=
  if cmd = fDupFd ∨ cmd = fDupFdCloexec then
    world.dupFd allocator table fd
  else if cmd = fSetFl then
    if fd = 0 ∨ fd = 1 ∨ fd = 2 then (.ok 0, world)
    else
      match world.getFileLike table fd with
      | (.error error, after) => (.error error, after)
      | (.ok ref, after) => (.ok 0, after.release ref)
  else (.ok 0, world)

/-- `sys_pipe2`; `fds` is what `get_as_mut` says of the user's array. -/
def sysPipe2 (world : FdWorld) (table : Nat) (fds : LinuxResult Unit) :
    Except (Fault LinuxError) Nat × FdWorld :=
  match fds with
  | .error error => (.error (.err error), world)
  | .ok () =>
      let pipe := world.pipes
      match
        (world.newPipe.newArc (.pipeEnd pipe true)).addFileLike allocator table (.pipeEnd pipe true)
      with
      | (.error error, after) => (.error (.err error), after.dropEnd pipe)
      | (.ok readFd, after) =>
          match
            (after.newArc (.pipeEnd pipe false)).addFileLike allocator table (.pipeEnd pipe false)
          with
          | (.ok _, final) => (.ok 0, final)
          | (.error error, final) =>
              match final.closeFileLike table readFd with
              | (.ok (), undone) => (.error (.err error), undone)
              | (.error _, undone) => (.error .panicked, undone)

/-- `add_to_fd_table` on a file that was just opened. -/
def openFile (world : FdWorld) (table : Nat) : LinuxResult (BitVec 32) × FdWorld :=
  world.newFile.addFileLike allocator table (.other world.files)

end Calls

/-- The loop of `copy_inner`. -/
def copySlots (source : FdSlots) : List Nat → FdWorld × FdSlots → FdWorld × FdSlots
  | [], result => result
  | id :: rest, (world, target) =>
      match source.get id with
      | none => copySlots source rest (world, target)
      | some ref =>
          match target.addAt id ref with
          | some added => copySlots source rest (world.retain ref, added)
          | none =>
              copySlots source rest ((world.retain ref).release ref, target)

/-- `FD_TABLE::copy_inner`. -/
def copyInner (world : FdWorld) (table : Nat) : FdWorld × FdSlots :=
  let source := world.tableAt table
  copySlots source source.ids (world, .new)

/-- The loop of `clear`. -/
def removeSlots (table : Nat) : List Nat → FdWorld → FdWorld
  | [], world => world
  | id :: rest, world =>
      match (world.tableAt table).get id with
      | none => removeSlots table rest world
      | some ref =>
          removeSlots table rest ((world.setSlot table id none).release ref)

/-- `FD_TABLE::clear`. -/
def clear (world : FdWorld) (table : Nat) : FdWorld :=
  removeSlots table (world.tableAt table).ids world

end FdWorld

end Vegar.File
