import Mathlib.Control.Monad.Basic

/-!
# Error codes and outcomes

The error enumerations the kernel code uses, and the ways a computation of
the kernel can fail to produce a value: by returning an error, by a panic
(failed assertion, `unwrap`, arithmetic overflow), or by not having returned
within the steps it was given.
-/

namespace Vegar

/-- The `axerrno::LinuxError` values that occur in the sources; `other` stands
for a code that only a called crate produces. -/
inductive LinuxError where
  | EAFNOSUPPORT
  | EAGAIN
  | EBADF
  | ECHILD
  | EFAULT
  | EILSEQ
  | EINTR
  | EINVAL
  | EISCONN
  | EISDIR
  | EMFILE
  | ENODEV
  | ENOENT
  | ENOMEM
  | ENOSYS
  | ENOTDIR
  | EOPNOTSUPP
  | EPERM
  | EPIPE
  | ERANGE
  | ESRCH
  | other (code : Nat)
  deriving DecidableEq, Repr

/-- The `axerrno::AxError` values. -/
inductive AxError where
  | AddrInUse
  | AlreadyExists
  | BadAddress
  | BadState
  | ConnectionRefused
  | ConnectionReset
  | DirectoryNotEmpty
  | InvalidData
  | InvalidInput
  | Io
  | IsADirectory
  | NoMemory
  | NotADirectory
  | NotConnected
  | NotFound
  | PermissionDenied
  | ResourceBusy
  | StorageFull
  | UnexpectedEof
  | Unsupported
  | WouldBlock
  | WriteZero
  deriving DecidableEq, Repr

inductive Fault (ε : Type) where
  /-- It returned an error. -/
  | err (error : ε)
  /-- It panicked. -/
  | panicked
  /-- The running task was ended inside it. -/
  | exited
  /-- It had not returned when its steps were used up. -/
  | outOfFuel
  deriving DecidableEq, Repr

def Fault.map {ε δ : Type} (convert : ε → δ) : Fault ε → Fault δ
  | .err error => .err (convert error)
  | .panicked => .panicked
  | .exited => .exited
  | .outOfFuel => .outOfFuel

theorem Fault.panicked_ne_err {ε : Type} (error : ε) :
    Fault.panicked ≠ .err error := by
  intro same
  cases same

theorem bind_eq_ok_iff {ε α β : Type} {first : Except ε α} {next : α → Except ε β} {result : β} :
    first >>= next = .ok result ↔ ∃ value, first = .ok value ∧ next value = .ok result := by
  cases first <;> simp [bind, Except.bind]

theorem map_eq_ok {ε α β : Type} {result : Except ε α} {convert : α → β} {value : β}
    (isValue : result.map convert = .ok value) :
    ∃ inner, value = convert inner ∧ result = .ok inner := by
  cases result with
  | error fault => cases isValue
  | ok inner => exact ⟨inner, (Except.ok.inj isValue).symm, rfl⟩

theorem ok_of_check {ε α : Type} {condition : Prop} [Decidable condition] {error : ε}
    {rest : Unit → Except ε α} {result : α}
    (accepted : (if condition then throw error >>= rest else rest ()) = .ok result) :
    ¬ condition ∧ rest () = .ok result := by
  split at accepted
  · cases accepted
  · next passed =>
      exact ⟨passed, accepted⟩

theorem ok_of_optional {ε α : Type} {condition : Prop} [Decidable condition]
    {optional : Except ε Unit} {rest : Unit → Except ε α} {result : α}
    (accepted : (if condition then optional >>= rest else rest ()) = .ok result) :
    rest () = .ok result := by
  split at accepted
  · obtain ⟨_, -, accepted⟩ := bind_eq_ok_iff.mp accepted
    exact accepted
  · exact accepted

/-- `axerrno::LinuxResult`. -/
abbrev LinuxResult (α : Type) := Except LinuxError α

/-- `axerrno::AxResult`. -/
abbrev AxResult (α : Type) := Except AxError α

end Vegar
