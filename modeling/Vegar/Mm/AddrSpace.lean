import Vegar.Lib.Usize
import Vegar.Outcome

/-!
# User address spaces

The address space of a process as the system calls see it: which 4K pages
are mapped, with which permissions and which bytes.  The operations on it
belong to the crate `axmm`; they are a parameter of everything that uses
them, and what a result relies on is stated as a hypothesis about them.
-/

namespace Vegar.Mm

open Vegar.Lib

/-- `axhal::paging::MappingFlags`. -/
structure MappingFlags where
  read : Bool
  write : Bool
  execute : Bool
  user : Bool
  deriving DecidableEq, Repr

namespace MappingFlags

/-- `MappingFlags::READ`. -/
def readOnly : MappingFlags := ⟨true, false, false, false⟩

/-- `MappingFlags::READ | MappingFlags::WRITE`. -/
def readWrite : MappingFlags := ⟨true, true, false, false⟩

/-- `MappingFlags::READ | MappingFlags::WRITE | MappingFlags::USER`. -/
def userData : MappingFlags := ⟨true, true, false, true⟩

/-- `MappingFlags::READ | MappingFlags::EXECUTE | MappingFlags::USER`. -/
def userText : MappingFlags := ⟨true, false, true, true⟩

/-- `contains`: every flag of `wanted` is set. -/
def contains (flags wanted : MappingFlags) : Bool :=
  (flags.read || !wanted.read) && (flags.write || !wanted.write) &&
    (flags.execute || !wanted.execute) && (flags.user || !wanted.user)

end MappingFlags

structure Page where
  flags : MappingFlags
  bytes : Fin pageSize4k → UInt8

/-- `axmm::AddrSpace`: the range it manages and the page mapped at each page
number. -/
structure AddrSpace where
  base : Nat
  size : Nat
  pages : Nat → Option Page

namespace AddrSpace

def byteAt (aspace : AddrSpace) (addr : Nat) : Option UInt8 :=
  (aspace.pages (addr / pageSize4k)).map fun page =>
    page.bytes ⟨addr % pageSize4k, Nat.mod_lt _ (by decide)⟩

def bytesAt (aspace : AddrSpace) (addr : Nat) : Nat → Option (List UInt8)
  | 0 => some []
  | count + 1 => do
      let byte ← aspace.byteAt addr
      let rest ← aspace.bytesAt (addr + 1) count
      return byte :: rest

def emptied (aspace : AddrSpace) : AddrSpace := { aspace with pages := fun _ => none }

end AddrSpace

/-- The operations of `axmm::AddrSpace` that the kernel calls. -/
structure Axmm where
  unmapUserAreas : AddrSpace → AxResult Unit × AddrSpace
  mapLinear : AddrSpace → (vaddr paddr size : Nat) → MappingFlags → AxResult Unit × AddrSpace
  mapAlloc :
    AddrSpace → (start size : Nat) → MappingFlags → (populate : Bool) → AxResult Unit × AddrSpace
  write : AddrSpace → (start : Nat) → List UInt8 → AxResult Unit × AddrSpace
  checkRegionAccess : AddrSpace → (start stop : Nat) → MappingFlags → Bool
  populateArea : AddrSpace → (start size : Nat) → MappingFlags → AxResult Unit × AddrSpace

namespace Axmm

/-- `unmap_user_areas` succeeds and leaves no page mapped. -/
def UnmapsUserAreas (axmm : Axmm) : Prop :=
  ∀ aspace, axmm.unmapUserAreas aspace = (.ok (), aspace.emptied)

def pageNumbers (start size : Nat) : List Nat :=
  (List.range ((start + size - 1) / pageSize4k + 1 - start / pageSize4k)).map
    fun index => start / pageSize4k + index

def mapPages (aspace : AddrSpace) (start size : Nat) (page : Page) :
    AxResult Unit × AddrSpace :=
  if start < aspace.base ∨ aspace.base + aspace.size < start + size then
    (.error .InvalidInput, aspace)
  else if (pageNumbers start size).any fun number =>
      (aspace.pages number).isSome then
    (.error .AlreadyExists, aspace)
  else
    (.ok (),
      { aspace with
        pages := fun number =>
          if number ∈ pageNumbers start size then some page
          else aspace.pages number })

def storeBytes (aspace : AddrSpace) (start : Nat) (data : List UInt8) :
    AxResult Unit × AddrSpace :=
  if (pageNumbers start data.length).all fun number =>
      (aspace.pages number).isSome then
    (.ok (),
      { aspace with
        pages := fun number =>
          (aspace.pages number).map fun page =>
            { page with
              bytes := fun offset =>
                let addr := number * pageSize4k + offset
                if addr < start then page.bytes offset
                else (data[addr - start]?).getD (page.bytes offset) } })
  else (.error .BadAddress, aspace)

def reference : Axmm where
  unmapUserAreas aspace := (.ok (), aspace.emptied)
  mapLinear aspace vaddr _ size flags := mapPages aspace vaddr size ⟨flags, fun _ => 0⟩
  mapAlloc aspace start size flags _ := mapPages aspace start size ⟨flags, fun _ => 0⟩
  write := storeBytes
  checkRegionAccess aspace start stop flags := (pageNumbers start (stop - start)).all fun number =>
      match aspace.pages number with
      | some page => page.flags.contains flags
      | none => false
  populateArea aspace _ _ _ := (.ok (), aspace)

theorem reference_unmapsUserAreas : reference.UnmapsUserAreas := fun _ => rfl

end Axmm

/-- The crates that user memory access rests on: `axmm`, and the conversion of
its errors by `axerrno`. -/
structure MmCrates where
  axmm : Axmm
  linuxError : AxError → LinuxError

namespace MmCrates

/-- Concrete crates for runs, with the conversions of `axerrno` that the
errors of `Axmm.reference` need. -/
def reference : MmCrates where
  axmm := .reference
  linuxError
    | .BadAddress => .EFAULT
    | .InvalidInput => .EINVAL
    | .NoMemory => .ENOMEM
    | _ => .other 0

end MmCrates

/-- `ExceptT` over the address space: a failing computation keeps the changes
it has made. -/
abbrev AspaceM (ε α : Type) := ExceptT (Fault ε) (StateM AddrSpace) α

namespace AspaceM

def runOn {ε α : Type} (computation : AspaceM ε α) (aspace : AddrSpace) :
    Except (Fault ε) α × AddrSpace :=
  (computation.run).run aspace

/-- An operation of `axmm`. -/
def ofAxmm {α : Type} (operation : AddrSpace → AxResult α × AddrSpace) :
    AspaceM AxError α :=
  fun aspace =>
    match operation aspace with
    | (.ok value, after) => (.ok value, after)
    | (.error error, after) => (.error (.err error), after)

def ofResult {ε α : Type} (result : Except ε α) : AspaceM ε α :=
  match result with
  | .ok value => pure value
  | .error error => throw (.err error)

/-- `?` with a conversion of the error, and `map_err`. -/
def mapErr {ε δ α : Type} (convert : ε → δ) (computation : AspaceM ε α) :
    AspaceM δ α :=
  fun aspace =>
    match computation aspace with
    | (.ok value, after) => (.ok value, after)
    | (.error (.err error), after) => (.error (.err (convert error)), after)
    | (.error .panicked, after) => (.error .panicked, after)
    | (.error .exited, after) => (.error .exited, after)
    | (.error .outOfFuel, after) => (.error .outOfFuel, after)

@[simp]
theorem runOn_bind {ε α β : Type} (computation : AspaceM ε α) (next : α → AspaceM ε β)
    (aspace : AddrSpace) :
    (computation >>= next).runOn aspace =
      match computation.runOn aspace with
      | (.ok value, after) => (next value).runOn after
      | (.error fault, after) => (.error fault, after) := by
  change (ExceptT.bindCont next (computation aspace).1 (computation aspace).2) = _
  change _ = match computation aspace with
    | (.ok value, after) => (next value).runOn after
    | (.error fault, after) => (.error fault, after)
  rcases computation aspace with ⟨_ | _, after⟩ <;> rfl

@[simp]
theorem runOn_pure {ε α : Type} (value : α) (aspace : AddrSpace) :
    (pure value : AspaceM ε α).runOn aspace = (.ok value, aspace) :=
  rfl

@[simp]
theorem runOn_throw {ε α : Type} (fault : Fault ε) (aspace : AddrSpace) :
    (throw fault : AspaceM ε α).runOn aspace = (.error fault, aspace) :=
  rfl

theorem runOn_ofAxmm {α : Type} (operation : AddrSpace → AxResult α × AddrSpace)
    (aspace : AddrSpace) :
    (ofAxmm operation).runOn aspace =
      match operation aspace with
      | (.ok value, after) => (.ok value, after)
      | (.error error, after) => (.error (.err error), after) :=
  rfl

theorem runOn_mapErr {ε δ α : Type} (convert : ε → δ) (computation : AspaceM ε α)
    (aspace : AddrSpace) :
    (mapErr convert computation).runOn aspace =
      match computation.runOn aspace with
      | (.ok value, after) => (.ok value, after)
      | (.error (.err error), after) => (.error (.err (convert error)), after)
      | (.error .panicked, after) => (.error .panicked, after)
      | (.error .exited, after) => (.error .exited, after)
      | (.error .outOfFuel, after) => (.error .outOfFuel, after) :=
  rfl

theorem runOn_mapErr_ofAxmm {δ α : Type} (convert : AxError → δ)
    (operation : AddrSpace → AxResult α × AddrSpace) (aspace : AddrSpace) :
    (mapErr convert (ofAxmm operation)).runOn aspace =
      ((operation aspace).1.mapError fun error => .err (convert error), (operation aspace).2) := by
  rw [runOn_mapErr, runOn_ofAxmm]
  rcases operation aspace with ⟨_ | _, after⟩ <;> rfl

theorem runOn_mapErr_fails_iff {ε δ α : Type} {convert : ε → δ} {computation : AspaceM ε α}
    {aspace leftover : AddrSpace} :
    (∃ error, (mapErr convert computation).runOn aspace = (.error (.err error), leftover)) ↔
      ∃ error, computation.runOn aspace = (.error (.err error), leftover) := by
  rw [runOn_mapErr]
  rcases computation.runOn aspace with ⟨(_ | _ | _ | _) | _, after⟩ <;> simp

theorem runOn_mapErr_ok_iff {ε δ α : Type} {convert : ε → δ} {computation : AspaceM ε α}
    {aspace after : AddrSpace} {value : α} :
    (mapErr convert computation).runOn aspace = (.ok value, after) ↔
      computation.runOn aspace = (.ok value, after) := by
  rw [runOn_mapErr]
  rcases computation.runOn aspace with ⟨(_ | _ | _ | _) | _, after⟩ <;> simp

theorem runOn_bind_fails_iff {ε α β : Type} {computation : AspaceM ε α} {next : α → AspaceM ε β}
    {aspace leftover : AddrSpace} :
    (∃ error, (computation >>= next).runOn aspace = (.error (.err error), leftover)) ↔
      (∃ error, computation.runOn aspace = (.error (.err error), leftover)) ∨
        ∃ value between,
          computation.runOn aspace = (.ok value, between) ∧
            ∃ error, (next value).runOn between = (.error (.err error), leftover) := by
  rw [runOn_bind]
  rcases computation.runOn aspace with ⟨_ | _, after⟩ <;> simp

theorem runOn_bind_ok_iff {ε α β : Type} {computation : AspaceM ε α} {next : α → AspaceM ε β}
    {aspace after : AddrSpace} {result : β} :
    (computation >>= next).runOn aspace = (.ok result, after) ↔
      ∃ value between,
        computation.runOn aspace = (.ok value, between) ∧
          (next value).runOn between = (.ok result, after) := by
  rw [runOn_bind]
  rcases computation.runOn aspace with ⟨_ | _, after⟩ <;> simp

/-! ### Faults that do not occur -/

def Avoids {ε α : Type} (fault : Fault ε) (computation : AspaceM ε α) :
    Prop :=
  ∀ aspace, (computation.runOn aspace).1 ≠ .error fault

namespace Avoids

variable {ε α β : Type} {fault : Fault ε}

theorem pure (value : α) : Avoids fault (Pure.pure value : AspaceM ε α) := fun _ => nofun

theorem throw {thrown : Fault ε} (different : thrown ≠ fault) :
    Avoids fault (MonadExcept.throw thrown : AspaceM ε α) := by
  intro aspace same
  exact different (Except.error.inj same)

theorem bind {computation : AspaceM ε α} {next : α → AspaceM ε β} (first : Avoids fault computation)
    (rest : ∀ value, Avoids fault (next value)) :
    Avoids fault (computation >>= next) := by
  intro aspace
  have avoided := first aspace
  rw [runOn_bind]
  rcases ran : computation.runOn aspace with ⟨_ | value, after⟩
  · rw [ran] at avoided
    intro same
    exact avoided (congrArg Except.error (Except.error.inj same))
  · exact rest value after

theorem ofResult (result : Except ε α) (isFault : ∀ error, fault ≠ .err error) :
    Avoids fault (AspaceM.ofResult result) := by
  cases result with
  | ok value => exact .pure value
  | error error => exact .throw (isFault error).symm

theorem ofAxmm (operation : AddrSpace → AxResult α × AddrSpace) {fault : Fault AxError}
    (isFault : ∀ error, fault ≠ .err error) :
    Avoids fault (AspaceM.ofAxmm operation) := by
  intro aspace
  rw [runOn_ofAxmm]
  rcases operation aspace with ⟨error | _, after⟩
  · intro same
    exact isFault error (Except.error.inj same).symm
  · exact nofun

theorem mapErr_ofAxmm (convert : AxError → ε) (operation : AddrSpace → AxResult α × AddrSpace)
    (isFault : ∀ error, fault ≠ .err error) :
    Avoids fault (mapErr convert (AspaceM.ofAxmm operation)) := by
  intro aspace
  rw [runOn_mapErr_ofAxmm]
  rcases operation aspace with ⟨error | _, after⟩
  · intro same
    exact isFault (convert error) (Except.error.inj same).symm
  · exact nofun

end Avoids

end AspaceM

end Vegar.Mm
