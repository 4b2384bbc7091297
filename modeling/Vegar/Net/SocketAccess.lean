import Vegar.Net.SocketAddr

/-!
# What reading a socket address touches

`SocketAddr` of `api/src/socket.rs` refuses a length above 128; `SocketAddrV4`
and `SocketAddrV6`, which are public as well, do not, and copy as many bytes
as they are told to the 128 bytes of their storage.
-/

namespace Vegar.Net

open Vegar.Lib Vegar.Mm

/-- The bytes the caller describes, with the alignment of a `sockaddr`. -/
def describedLayout (addrlen : BitVec 32) : Layout where
  size := addrlen.toNat
  align := sockaddrType.align
  alignPower := sockaddrType.alignPower

/-- The first `addrlen` bytes are readable, and they hold a whole address of a
format. -/
structure AddrFormat.Complete {Raw Addr : Type} (format : AddrFormat Raw Addr)
    (memory : UserMemory) (addr : Nat) (addrlen : BitVec 32) : Prop where
  readable : memory.check addr (describedLayout addrlen) UserConstPtr.accessFlags = .ok ()
  enough : format.codec.size ≤ addrlen.toNat
  atMost : addrlen.toNat ≤ sockaddrType.size
  family : format.family (format.codec.read memory.bytes addr) = format.wanted

/-- The outcome of a `read_from_user`, with the number of bytes it has copied:
no more than the storage has, no length above that but `EINVAL`, and no
refusal of an address that is there. -/
structure StaysWithin {Addr : Type} (addrlen : BitVec 32) (complete : Prop)
    (outcome : Except (Fault LinuxError) Addr × Nat) : Prop where
  copied : outcome.2 ≤ sockaddrType.size
  tooLong : sockaddrType.size < addrlen.toNat → outcome.1 = .error (.err .EINVAL)
  accepted : complete → ∃ value, outcome.1 = .ok value

/-- A failure before anything is copied is right where there is no address,
and where it is `EINVAL` for a length that is too large. -/
theorem staysWithin_error_iff {Addr : Type} {addrlen : BitVec 32} {complete : Prop}
    {fault : Fault LinuxError} :
    StaysWithin addrlen complete ((.error fault, 0) : Except (Fault LinuxError) Addr × Nat) ↔
      ¬ complete ∧ (sockaddrType.size < addrlen.toNat → fault = .err .EINVAL) := by
  constructor
  · intro within
    constructor
    · intro isComplete
      obtain ⟨value, isOk⟩ := within.accepted isComplete
      cases isOk
    · intro large
      exact Except.error.inj (within.tooLong large)
  · intro right
    refine ⟨Nat.zero_le _, ?_, fun isComplete => (right.1 isComplete).elim⟩
    intro large
    exact congrArg Except.error (right.2 large)

/-! ## One format -/

section Format

variable {Raw Addr : Type} {format : AddrFormat Raw Addr}
  {memory : UserMemory} {storage : Nat → UInt8} {addr : Nat}
  {addrlen : BitVec 32}

theorem AddrFormat.readFromUser_short (short : addrlen.toNat < format.codec.size) :
    format.readFromUser memory storage addr addrlen = (.error (.err .EINVAL), 0) := by
  rw [readFromUser, if_pos short]

theorem AddrFormat.readFromUser_refused
    (long : format.codec.size ≤ addrlen.toNat) {fault : Fault LinuxError}
    (refused :
      memory.check addr (Layout.new sockaddrType) UserConstPtr.accessFlags = .error fault) :
    format.readFromUser memory storage addr addrlen = (.error fault, 0) := by
  rw [readFromUser_eq long, refused]

theorem AddrFormat.copied_of_granted (long : format.codec.size ≤ addrlen.toNat)
    (granted : memory.check addr (Layout.new sockaddrType) UserConstPtr.accessFlags = .ok ()) :
    (format.readFromUser memory storage addr addrlen).2 = addrlen.toNat := by
  rw [readFromUser_eq long, granted]
  dsimp only
  split <;> rfl

theorem AddrFormat.copied_le :
    (format.readFromUser memory storage addr addrlen).2 ≤ addrlen.toNat := by
  by_cases long : format.codec.size ≤ addrlen.toNat
  · cases access : memory.check addr (Layout.new sockaddrType) UserConstPtr.accessFlags with
    | error fault =>
        rw [readFromUser_refused long access]
        exact Nat.zero_le _
    | ok =>
        rw [copied_of_granted long access]
  · rw [readFromUser_short (Nat.not_le.mp long)]
    exact Nat.zero_le _

theorem AddrFormat.Complete.accepted (complete : format.Complete memory addr addrlen)
    (granted : memory.check addr (Layout.new sockaddrType) UserConstPtr.accessFlags = .ok ()) :
    (format.readFromUser memory storage addr addrlen).1 =
      .ok (format.toAddr (format.codec.read memory.bytes addr)) := by
  rw [readFromUser_eq complete.enough, granted]
  dsimp only
  rw [if_neg (not_not.mpr complete.family)]

/-- One format stays within the bytes exactly if a whole `sockaddr` is
readable wherever there is an address, and fails in the right way where the
length is too large. -/
theorem AddrFormat.staysWithin_iff (fits : format.codec.size ≤ sockaddrType.size) :
    StaysWithin addrlen (format.Complete memory addr addrlen)
        (format.readFromUser memory storage addr addrlen) ↔
      (format.Complete memory addr addrlen →
        memory.check addr (Layout.new sockaddrType) UserConstPtr.accessFlags = .ok ()) ∧
      (sockaddrType.size < addrlen.toNat →
        memory.check addr (Layout.new sockaddrType)
          UserConstPtr.accessFlags = .error (.err .EINVAL)) := by
  by_cases long : format.codec.size ≤ addrlen.toNat
  · cases access : memory.check addr (Layout.new sockaddrType) UserConstPtr.accessFlags with
    | error fault =>
        rw [readFromUser_refused long access, staysWithin_error_iff, Except.error.injEq]
        refine and_congr_left fun _ => ?_
        constructor
        · intro notComplete complete
          exact absurd complete notComplete
        · intro neverComplete complete
          cases neverComplete complete
    | ok =>
        constructor
        · intro within
          refine ⟨fun _ => rfl, fun large => ?_⟩
          have copied := within.copied
          rw [copied_of_granted long access] at copied
          omega
        · intro granted
          have small : addrlen.toNat ≤ sockaddrType.size := by
            by_contra large
            cases granted.2 (Nat.not_le.mp large)
          refine ⟨copied_le.trans small, fun large => ?_, fun complete => ?_⟩
          · omega
          · exact ⟨_, complete.accepted access⟩
  · rw [readFromUser_short (Nat.not_le.mp long), staysWithin_error_iff]
    have notComplete : ¬ format.Complete memory addr addrlen := fun complete => long complete.enough
    refine iff_of_true ⟨notComplete, fun _ => rfl⟩
      ⟨fun complete => absurd complete notComplete, fun large => ?_⟩
    omega

end Format

/-! ## Both families -/

section Families

variable {order : ByteOrder} {memory : UserMemory} {storage : Nat → UInt8}
  {addr : Nat} {addrlen : BitVec 32}

def SocketAddr.Complete (order : ByteOrder) (memory : UserMemory)
    (addr : Nat) (addrlen : BitVec 32) : Prop :=
  (SocketAddrV4.format order).Complete memory addr addrlen ∨
    (SocketAddrV6.format order).Complete memory addr addrlen

theorem SocketAddr.Complete.lengths (complete : SocketAddr.Complete order memory addr addrlen) :
    2 ≤ addrlen.toNat ∧ addrlen.toNat ≤ 128 := by
  rcases complete with inet | inet6
  · have enough : 16 ≤ addrlen.toNat := inet.enough
    exact ⟨by omega, inet.atMost⟩
  · have enough : 28 ≤ addrlen.toNat := inet6.enough
    exact ⟨by omega, inet6.atMost⟩

theorem SocketAddr.readFromUser_invalid (lengths : ¬ (2 ≤ addrlen.toNat ∧ addrlen.toNat ≤ 128)) :
    SocketAddr.readFromUser order memory storage addr addrlen = (.error (.err .EINVAL), 0) := by
  have invalid : 2 > addrlen.toNat ∨ addrlen.toNat > sockaddrType.size := by
    change 2 > addrlen.toNat ∨ addrlen.toNat > 128
    omega
  rw [readFromUser, if_pos invalid]

theorem SocketAddr.readFromUser_refused (lengths : 2 ≤ addrlen.toNat ∧ addrlen.toNat ≤ 128)
    {fault : Fault LinuxError}
    (refused :
      memory.check addr (Layout.new sockaddrType) UserConstPtr.accessFlags = .error fault) :
    SocketAddr.readFromUser order memory storage addr addrlen = (.error fault, 0) := by
  have valid : ¬ (2 > addrlen.toNat ∨ addrlen.toNat > sockaddrType.size) := by
    change ¬ (2 > addrlen.toNat ∨ addrlen.toNat > 128)
    omega
  rw [readFromUser, if_neg valid, UserMemory.getElement, refused]
  rfl

theorem SocketAddr.copied_le (lengths : 2 ≤ addrlen.toNat ∧ addrlen.toNat ≤ 128)
    (granted : memory.check addr (Layout.new sockaddrType) UserConstPtr.accessFlags = .ok ()) :
    (SocketAddr.readFromUser order memory storage addr addrlen).2 ≤
      addrlen.toNat := by
  rw [readFromUser_eq granted lengths.1 lengths.2]
  dsimp only
  split
  · exact AddrFormat.copied_le
  · split
    · exact AddrFormat.copied_le
    · exact Nat.zero_le _

theorem SocketAddr.Complete.accepted (complete : SocketAddr.Complete order memory addr addrlen)
    (granted : memory.check addr (Layout.new sockaddrType) UserConstPtr.accessFlags = .ok ()) :
    ∃ value, (SocketAddr.readFromUser order memory storage addr addrlen).1 = .ok value := by
  rw [readFromUser_eq granted complete.lengths.1 complete.lengths.2]
  rcases complete with inet | inet6
  · have family : (order.codec 2).read memory.bytes addr = afInet :=
      ((SocketAddrV4.lawful order).family_read _ _).symm.trans inet.family
    have read : (SocketAddrV4.readFromUser order memory storage addr addrlen).1 = .ok _ :=
      inet.accepted granted
    simp only [family, if_true, read]
    exact ⟨_, rfl⟩
  · have family : (order.codec 2).read memory.bytes addr = afInet6 :=
      ((SocketAddrV6.lawful order).family_read _ _).symm.trans inet6.family
    have read : (SocketAddrV6.readFromUser order memory storage addr addrlen).1 = .ok _ :=
      inet6.accepted granted
    have notInet : afInet6 ≠ afInet := by decide
    simp only [family, if_neg notInet, if_true, read]
    exact ⟨_, rfl⟩

theorem SocketAddr.staysWithin_iff :
    StaysWithin addrlen (SocketAddr.Complete order memory addr addrlen)
        (SocketAddr.readFromUser order memory storage addr addrlen) ↔
      (SocketAddr.Complete order memory addr addrlen →
        memory.check addr (Layout.new sockaddrType) UserConstPtr.accessFlags = .ok ()) := by
  by_cases lengths : 2 ≤ addrlen.toNat ∧ addrlen.toNat ≤ 128
  · have neverLarge : ¬ sockaddrType.size < addrlen.toNat := Nat.not_lt.mpr lengths.2
    cases access : memory.check addr (Layout.new sockaddrType) UserConstPtr.accessFlags with
    | error fault =>
        rw [readFromUser_refused lengths access, staysWithin_error_iff]
        constructor
        · intro refused complete
          exact absurd complete refused.1
        · intro neverComplete
          refine ⟨?_, fun large => absurd large neverLarge⟩
          intro complete
          cases neverComplete complete
    | ok =>
        refine iff_of_true ⟨?_, fun large => absurd large neverLarge, ?_⟩ fun _ => rfl
        · exact (copied_le lengths access).trans lengths.2
        · intro complete
          exact complete.accepted access
  · rw [readFromUser_invalid lengths, staysWithin_error_iff]
    have notComplete : ¬ SocketAddr.Complete order memory addr addrlen :=
      fun complete => lengths complete.lengths
    exact iff_of_true ⟨notComplete, fun _ => rfl⟩ fun complete => absurd complete notComplete

end Families

/-- When the three readers stay within the bytes they are given: a whole
`sockaddr` must be readable wherever the bytes hold an address, and for the
readers of one family `check_region` itself must refuse a length above 128,
with `EINVAL`. -/
theorem readFromUser_staysWithin_iff
    (order : ByteOrder) (memory : UserMemory) (storage : Nat → UInt8)
    (addr : Nat) (addrlen : BitVec 32) :
    (StaysWithin addrlen (SocketAddr.Complete order memory addr addrlen)
        (SocketAddr.readFromUser order memory storage addr addrlen) ↔
      (SocketAddr.Complete order memory addr addrlen →
        memory.check addr (Layout.new sockaddrType) UserConstPtr.accessFlags = .ok ())) ∧
    (StaysWithin addrlen ((SocketAddrV4.format order).Complete memory addr addrlen)
        (SocketAddrV4.readFromUser order memory storage addr addrlen) ↔
      ((SocketAddrV4.format order).Complete memory addr addrlen →
        memory.check addr (Layout.new sockaddrType) UserConstPtr.accessFlags = .ok ()) ∧
      (128 < addrlen.toNat →
        memory.check addr (Layout.new sockaddrType)
          UserConstPtr.accessFlags = .error (.err .EINVAL))) ∧
    (StaysWithin addrlen ((SocketAddrV6.format order).Complete memory addr addrlen)
        (SocketAddrV6.readFromUser order memory storage addr addrlen) ↔
      ((SocketAddrV6.format order).Complete memory addr addrlen →
        memory.check addr (Layout.new sockaddrType) UserConstPtr.accessFlags = .ok ()) ∧
      (128 < addrlen.toNat →
        memory.check addr (Layout.new sockaddrType)
          UserConstPtr.accessFlags = .error (.err .EINVAL))) := by
  have inFits : (SocketAddrV4.format order).codec.size ≤ 128 := Nat.le_add_right 16 112
  have in6Fits : (SocketAddrV6.format order).codec.size ≤ 128 := Nat.le_add_right 28 100
  exact ⟨SocketAddr.staysWithin_iff, AddrFormat.staysWithin_iff inFits,
      AddrFormat.staysWithin_iff in6Fits⟩

/-- One page of user memory from `0x1000` on, with a `sockaddr_in` in its last
sixteen bytes. -/
def endOfPage : UserMemory := .ofAspace .reference ⟨0x1000, 0x7ffffffff000, fun number =>
      if number = 1 then
        some ⟨.userData, fun offset => if offset.val = 0xff0 then 2 else 0⟩
      else none⟩

/-- The address at the end of the page is refused, because the bytes behind it
are not mapped; and 200 bytes from the start of the page are copied to the
128 of the storage. -/
theorem readFromUser_leaves_described_bytes :
    SocketAddr.Complete .little endOfPage 0x1ff0 16 ∧
      (SocketAddr.readFromUser .little endOfPage (fun _ => 0) 0x1ff0 16).1 = .error (.err .EFAULT) ∧
      (SocketAddrV4.readFromUser .little endOfPage (fun _ => 0) 0x1ff0
        16).1 = .error (.err .EFAULT) ∧
      (SocketAddrV4.readFromUser .little endOfPage (fun _ => 0) 0x1000 200).2 = 200 ∧
      (SocketAddrV6.readFromUser .little endOfPage (fun _ => 0) 0x1000 200).2 = 200 := by
  have refused :
      endOfPage.check 0x1ff0 (Layout.new sockaddrType)
        UserConstPtr.accessFlags = .error (.err .EFAULT) := by
    decide +kernel
  have granted :
      endOfPage.check 0x1000 (Layout.new sockaddrType) UserConstPtr.accessFlags = .ok () := by
    decide +kernel
  have described :
      endOfPage.check 0x1ff0 (describedLayout 16) UserConstPtr.accessFlags = .ok () := by
    decide +kernel
  have complete : (SocketAddrV4.format .little).Complete endOfPage 0x1ff0 16 :=
    ⟨described, by decide, by decide, by decide +kernel⟩
  refine ⟨.inl complete, ?_, ?_, ?_, ?_⟩
  · rw [SocketAddr.readFromUser_refused (by decide) refused]
  · exact congrArg Prod.fst (AddrFormat.readFromUser_refused complete.enough refused)
  · exact AddrFormat.copied_of_granted (by decide) granted
  · exact AddrFormat.copied_of_granted (by decide) granted

end Vegar.Net
