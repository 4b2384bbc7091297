import Vegar.Net.ByteOrder

/-!
# Socket addresses in user memory

`SocketAddrExt` of `api/src/socket.rs`.  `SocketAddrV4` and `SocketAddrV6` are
written as a `sockaddr_in` and a `sockaddr_in6`, and read from a copy in
kernel memory; `SocketAddr` looks at the family in user memory first.
-/

namespace Vegar.Net

open Vegar.Lib Vegar.Mm

/-- `sockaddr`. -/
def sockaddrType : ElemType where
  size := 128
  align := 8
  alignPower := ElemType.pointer.alignPower
  alignDivides := ⟨16, rfl⟩
  sizeFits := by decide

/-- `AF_INET`. -/
def afInet : BitVec 16 := 2

/-- `AF_INET6`. -/
def afInet6 : BitVec 16 := 10

/-- `core::net::SocketAddrV4`; an `Ipv4Addr` is its octets. -/
structure SocketAddrV4 where
  ip : Vector UInt8 4
  port : BitVec 16
  deriving DecidableEq

/-- `core::net::SocketAddrV6`; an `Ipv6Addr` is its octets. -/
structure SocketAddrV6 where
  ip : Vector UInt8 16
  port : BitVec 16
  flowinfo : BitVec 32
  scopeId : BitVec 32
  deriving DecidableEq

/-- `core::net::SocketAddr`. -/
inductive SocketAddr where
  | v4 (addr : SocketAddrV4)
  | v6 (addr : SocketAddrV6)
  deriving DecidableEq

/-- `sockaddr_in`. -/
structure SockaddrIn where
  sinFamily : BitVec 16
  sinPort : BitVec 16
  sAddr : BitVec 32
  pad : Vector UInt8 8

/-- `sockaddr_in6`. -/
structure SockaddrIn6 where
  sin6Family : BitVec 16
  sin6Port : BitVec 16
  sin6Flowinfo : BitVec 32
  sin6Addr : Vector UInt8 16
  sin6ScopeId : BitVec 32

section Layouts

variable (order : ByteOrder)

/-- The fields of a `sockaddr_in` in front of its padding. -/
def SockaddrIn.fields : Memory.Codec UInt8 (BitVec 16 × BitVec 16 × BitVec 32) :=
  (order.codec 2).pair ((order.codec 2).pair (order.codec 4))

def SockaddrIn.codec : Memory.Codec UInt8 SockaddrIn :=
  ((SockaddrIn.fields order).pair (.vector 8)).via
    (fun raw => ((raw.sinFamily, raw.sinPort, raw.sAddr), raw.pad))
    (fun ((family, port, addr), pad) => ⟨family, port, addr, pad⟩)
    (fun _ => rfl)

def SockaddrIn6.codec : Memory.Codec UInt8 SockaddrIn6 := ((order.codec 2).pair
      ((order.codec 2).pair
        ((order.codec 4).pair ((Memory.Codec.vector 16).pair (order.codec 4))))).via
    (fun raw =>
      (raw.sin6Family, raw.sin6Port, raw.sin6Flowinfo, raw.sin6Addr, raw.sin6ScopeId))
    (fun (family, port, flowinfo, addr, scopeId) =>
      ⟨family, port, flowinfo, addr, scopeId⟩)
    (fun _ => rfl)

/-- `Ipv4Addr::from_bits`. -/
def ipv4FromBits (bits : BitVec 32) : Vector UInt8 4 :=
  (Memory.Codec.vector 4).decode ((beCodec 4).encode bits)

/-- The structure `SocketAddrV4::write_to_user` makes. -/
def SocketAddrV4.toRaw (addr : SocketAddrV4) : SockaddrIn where
  sinFamily := afInet
  sinPort := order.toBe 2 addr.port
  sAddr := (order.codec 4).decode addr.ip.toList
  pad := Vector.replicate 8 0

/-- What `SocketAddrV4::read_from_user` makes of the structure. -/
def SockaddrIn.toAddr (raw : SockaddrIn) : SocketAddrV4 where
  ip := ipv4FromBits (order.toBe 4 raw.sAddr)
  port := order.toBe 2 raw.sinPort

/-- The structure `SocketAddrV6::write_to_user` makes. -/
def SocketAddrV6.toRaw (addr : SocketAddrV6) : SockaddrIn6 where
  sin6Family := afInet6
  sin6Port := order.toBe 2 addr.port
  sin6Flowinfo := order.toBe 4 addr.flowinfo
  sin6Addr := addr.ip
  sin6ScopeId := addr.scopeId

/-- What `SocketAddrV6::read_from_user` makes of the structure. -/
def SockaddrIn6.toAddr (raw : SockaddrIn6) : SocketAddrV6 where
  ip := raw.sin6Addr
  port := order.toBe 2 raw.sin6Port
  flowinfo := order.toBe 4 raw.sin6Flowinfo
  scopeId := raw.sin6ScopeId

end Layouts

structure AddrFormat (Raw Addr : Type) where
  codec : Memory.Codec UInt8 Raw
  family : Raw → BitVec 16
  wanted : BitVec 16
  toRaw : Addr → Raw
  toAddr : Raw → Addr

/-- `copy_sockaddr_from_user`: kernel memory from the start of `storage` on,
with `addrlen` bytes of user memory copied to it. -/
def copySockaddrFromUser (memory : UserMemory) (storage : Nat → UInt8) (addr : Nat)
    (addrlen : BitVec 32) : Except (Fault LinuxError) (Nat → UInt8) :=
  (memory.getElement UserConstPtr.accessFlags sockaddrType addr).map fun sockAddr =>
      Memory.store storage 0 (Memory.load memory.bytes sockAddr.addr addrlen.toNat)

namespace AddrFormat

variable {Raw Addr : Type} (format : AddrFormat Raw Addr)

/-- `read_from_user` of `SocketAddrV4` and `SocketAddrV6`: the result, and how
many bytes were copied to the storage. -/
def readFromUser (memory : UserMemory) (storage : Nat → UInt8) (addr : Nat)
    (addrlen : BitVec 32) : Except (Fault LinuxError) Addr × Nat :=
  if addrlen.toNat < format.codec.size then (.error (.err .EINVAL), 0)
  else
    match copySockaddrFromUser memory storage addr addrlen with
    | .error fault => (.error fault, 0)
    | .ok storage =>
        let raw := format.codec.read storage 0
        if format.family raw ≠ format.wanted then
          (.error (.err .EAFNOSUPPORT), addrlen.toNat)
        else (.ok (format.toAddr raw), addrlen.toNat)

/-- `write_to_user` of `SocketAddrV4` and `SocketAddrV6`: the length, and the
memory. -/
def writeToUser (memory : UserMemory) (addr : Nat) (value : Addr) :
    Except (Fault LinuxError) Nat × UserMemory :=
  if addr = 0 then (.error (.err .EINVAL), memory)
  else
    match memory.getElement UserPtr.accessFlags sockaddrType addr with
    | .error fault => (.error fault, memory)
    | .ok dstAddr =>
        (.ok format.codec.size,
          memory.store dstAddr.addr (format.codec.encode (format.toRaw value)))

def written (memory : UserMemory) (addr : Nat) (value : Addr) : UserMemory :=
  memory.store addr (format.codec.encode (format.toRaw value))

end AddrFormat

namespace SocketAddrV4

def format (order : ByteOrder) : AddrFormat SockaddrIn SocketAddrV4 where
  codec := SockaddrIn.codec order
  family := SockaddrIn.sinFamily
  wanted := afInet
  toRaw := toRaw order
  toAddr := SockaddrIn.toAddr order

/-- `SocketAddrV4::read_from_user`. -/
def readFromUser (order : ByteOrder) := (format order).readFromUser

/-- `SocketAddrV4::write_to_user`. -/
def writeToUser (order : ByteOrder) := (format order).writeToUser

end SocketAddrV4

namespace SocketAddrV6

def format (order : ByteOrder) : AddrFormat SockaddrIn6 SocketAddrV6 where
  codec := SockaddrIn6.codec order
  family := SockaddrIn6.sin6Family
  wanted := afInet6
  toRaw := toRaw order
  toAddr := SockaddrIn6.toAddr order

/-- `SocketAddrV6::read_from_user`. -/
def readFromUser (order : ByteOrder) := (format order).readFromUser

/-- `SocketAddrV6::write_to_user`. -/
def writeToUser (order : ByteOrder) := (format order).writeToUser

end SocketAddrV6

namespace SocketAddr

/-- `SocketAddr::read_from_user`. -/
def readFromUser (order : ByteOrder) (memory : UserMemory) (storage : Nat → UInt8)
    (addr : Nat) (addrlen : BitVec 32) :
    Except (Fault LinuxError) SocketAddr × Nat :=
  if 2 > addrlen.toNat ∨ addrlen.toNat > sockaddrType.size then
    (.error (.err .EINVAL), 0)
  else
    match memory.getElement UserConstPtr.accessFlags sockaddrType addr with
    | .error fault => (.error fault, 0)
    | .ok srcAddr =>
        let family := (order.codec 2).read memory.bytes srcAddr.addr
        if family = afInet then
          let (result, copied) := SocketAddrV4.readFromUser order memory storage addr addrlen
          (result.map .v4, copied)
        else if family = afInet6 then
          let (result, copied) := SocketAddrV6.readFromUser order memory storage addr addrlen
          (result.map .v6, copied)
        else (.error (.err .EAFNOSUPPORT), 0)

/-- `SocketAddr::write_to_user`. -/
def writeToUser (order : ByteOrder) (memory : UserMemory) (addr : Nat)
    (value : SocketAddr) : Except (Fault LinuxError) Nat × UserMemory :=
  if addr = 0 then (.error (.err .EINVAL), memory)
  else
    match value with
    | .v4 self => SocketAddrV4.writeToUser order memory addr self
    | .v6 self => SocketAddrV6.writeToUser order memory addr self

def fieldBytes : SocketAddr → Nat
  | .v4 _ => 8
  | .v6 _ => 28

end SocketAddr

/-- `check_region` grants a reference to the `sockaddr` at an address, for
reading and for writing. -/
structure AccessibleSockaddr (memory : UserMemory) (addr : Nat) : Prop where
  notNull : addr ≠ 0
  readable : memory.check addr (Layout.new sockaddrType) UserConstPtr.accessFlags = .ok ()
  writable : memory.check addr (Layout.new sockaddrType) UserPtr.accessFlags = .ok ()

/-! ## The two structures -/

/-- What the two formats have in common: the structure of an address gives it
back and starts with the family, and the fields of a structure survive the
way through its address. -/
structure AddrFormat.Lawful {Raw Addr : Type} (format : AddrFormat Raw Addr)
    (order : ByteOrder) (fieldBytes : Nat) : Prop where
  toAddr_toRaw : ∀ value, format.toAddr (format.toRaw value) = value
  family_toRaw : ∀ value, format.family (format.toRaw value) = format.wanted
  family_read :
    ∀ memory addr, format.family (format.codec.read memory addr) = (order.codec 2).read memory addr
  fields :
    ∀ raw, format.family raw = format.wanted →
      (format.codec.encode (format.toRaw (format.toAddr raw))).take fieldBytes =
        (format.codec.encode raw).take fieldBytes
  onto : format.codec.Onto
  fieldsInside : fieldBytes ≤ format.codec.size

section Lawful

variable (order : ByteOrder)

theorem ipv4FromBits_toBe (bytes : List UInt8) (length : bytes.length = 4) :
    ipv4FromBits (order.toBe 4 ((order.codec 4).decode bytes)) =
      (Memory.Codec.vector 4).decode bytes := by
  have back := (leCodec_onto 4).reversed bytes length
  rw [ipv4FromBits, order.toBe_decode length]
  exact congrArg (Memory.Codec.vector 4).decode back

theorem SocketAddrV4.toAddr_toRaw (addr : SocketAddrV4) :
    SockaddrIn.toAddr order (addr.toRaw order) = addr := by
  have sameIp := ipv4FromBits_toBe order addr.ip.toList Vector.length_toList
  have decoded := (Memory.Codec.vector 4).decode_encode addr.ip
  have samePort := @order.toBe_toBe 2 addr.port
  cases addr with
  | mk ip port =>
      unfold SockaddrIn.toAddr toRaw
      congr
      exact sameIp.trans decoded

theorem SockaddrIn.toRaw_toAddr (raw : SockaddrIn) :
    SocketAddrV4.toRaw order (raw.toAddr order) =
      ⟨afInet, raw.sinPort, raw.sAddr, Vector.replicate 8 0⟩ := by
  have length : ((order.codec 4).encode raw.sAddr).length = 4 :=
    (order.codec 4).length_encode raw.sAddr
  have decoded := (order.codec 4).decode_encode raw.sAddr
  have sameIp := ipv4FromBits_toBe order _ length
  rw [decoded] at sameIp
  have octets :
      ((Memory.Codec.vector 4).decode
        ((order.codec 4).encode raw.sAddr)).toList = (order.codec 4).encode raw.sAddr :=
    Memory.Codec.vector_onto 4 _ length
  have sameAddr :
      (order.codec 4).decode (ipv4FromBits (order.toBe 4 raw.sAddr)).toList = raw.sAddr := by
    rw [sameIp, octets, decoded]
  have samePort := @order.toBe_toBe 2 raw.sinPort
  unfold SocketAddrV4.toRaw toAddr
  rw [sameAddr, samePort]

theorem SocketAddrV6.toAddr_toRaw (addr : SocketAddrV6) :
    SockaddrIn6.toAddr order (addr.toRaw order) = addr := by
  have samePort := @order.toBe_toBe 2 addr.port
  have sameFlowinfo := @order.toBe_toBe 4 addr.flowinfo
  unfold SockaddrIn6.toAddr toRaw
  rw [samePort, sameFlowinfo]

theorem SockaddrIn6.toRaw_toAddr (raw : SockaddrIn6) :
    SocketAddrV6.toRaw order (raw.toAddr order) = { raw with sin6Family := afInet6 } := by
  have samePort := @order.toBe_toBe 2 raw.sin6Port
  have sameFlowinfo := @order.toBe_toBe 4 raw.sin6Flowinfo
  unfold SocketAddrV6.toRaw toAddr
  rw [samePort, sameFlowinfo]

theorem SocketAddrV4.lawful : (format order).Lawful order 8 where
  toAddr_toRaw := toAddr_toRaw order
  family_toRaw _ := rfl
  family_read memory addr := by
    change ((SockaddrIn.fields order).pair (.vector 8)).read memory addr |>.1.1 = _
    rw [Memory.Codec.read_pair, SockaddrIn.fields, Memory.Codec.read_pair]
  fields raw isInet := by
    have length :
        ((SockaddrIn.fields order).encode (raw.sinFamily, raw.sinPort, raw.sAddr)).length = 8 :=
      (SockaddrIn.fields order).length_encode _
    change raw.sinFamily = afInet at isInet
    change
      ((SockaddrIn.codec order).encode (SocketAddrV4.toRaw order (raw.toAddr order))).take 8 = _
    rw [raw.toRaw_toAddr order, ← isInet]
    change
      ((SockaddrIn.fields order).encode _ ++ _).take 8 =
        ((SockaddrIn.fields order).encode _ ++ _).take 8
    rw [List.take_left' length, List.take_left' length]
  onto := by
    have fields : (SockaddrIn.fields order).Onto :=
      (order.codec_onto 2).pair ((order.codec_onto 2).pair (order.codec_onto 4))
    exact (fields.pair (Memory.Codec.vector_onto 8)).via fun _ => rfl
  fieldsInside := Nat.le_add_right 8 8

theorem SocketAddrV6.lawful : (format order).Lawful order 28 where
  toAddr_toRaw := toAddr_toRaw order
  family_toRaw _ := rfl
  family_read memory addr := by
    change (((order.codec 2).pair _).read memory addr).1 = _
    rw [Memory.Codec.read_pair]
  fields raw isInet6 := by
    change raw.sin6Family = afInet6 at isInet6
    change
      ((SockaddrIn6.codec order).encode (SocketAddrV6.toRaw order (raw.toAddr order))).take 28 = _
    rw [raw.toRaw_toAddr order, ← isInet6]
    rfl
  onto := by
    have later :=
      (order.codec_onto 4).pair ((Memory.Codec.vector_onto 16).pair (order.codec_onto 4))
    exact ((order.codec_onto 2).pair ((order.codec_onto 2).pair later)).via fun _ => rfl
  fieldsInside := Nat.le_refl 28

end Lawful

/-! ## Through user memory -/

section Memory

variable {Raw Addr : Type} {format : AddrFormat Raw Addr}
  {order : ByteOrder} {fieldBytes : Nat} {memory : UserMemory} {addr : Nat}
  {addrlen : BitVec 32} {storage : Nat → UInt8}

theorem AddrFormat.readFromUser_eq (long : format.codec.size ≤ addrlen.toNat) :
    format.readFromUser memory storage addr addrlen =
      match memory.check addr (Layout.new sockaddrType) UserConstPtr.accessFlags
      with
      | .error fault => (.error fault, 0)
      | .ok () =>
          let raw := format.codec.read memory.bytes addr
          if format.family raw ≠ format.wanted then
            (.error (.err .EAFNOSUPPORT), addrlen.toNat)
          else (.ok (format.toAddr raw), addrlen.toNat) := by
  have copied := @Memory.Codec.read_store_load _ _ format.codec memory.bytes storage addr 0 _ long
  rw [readFromUser, if_neg (Nat.not_lt.mpr long), copySockaddrFromUser, UserMemory.getElement]
  cases memory.check addr (Layout.new sockaddrType) UserConstPtr.accessFlags with
  | error fault => rfl
  | ok granted =>
      simp only [Except.map]
      rw [copied]

theorem AddrFormat.writeToUser_eq (accessible : AccessibleSockaddr memory addr) (value : Addr) :
    format.writeToUser memory addr value =
      (.ok format.codec.size, format.written memory addr value) := by
  rw [writeToUser, if_neg accessible.notNull, UserMemory.getElement, accessible.writable]
  rfl

theorem AddrFormat.readable_written (value : Addr)
    (readable : memory.check addr (Layout.new sockaddrType) UserConstPtr.accessFlags = .ok ()) :
    (format.written memory addr value).check addr
        (Layout.new sockaddrType) UserConstPtr.accessFlags = .ok () := by
  rw [written, UserMemory.store_check]
  exact readable

theorem AddrFormat.read_written (value : Addr) :
    format.codec.read (format.written memory addr value).bytes addr =
      format.toRaw value :=
  format.codec.read_write_self memory.bytes addr _

theorem AddrFormat.Lawful.family_written (lawful : format.Lawful order fieldBytes) (value : Addr) :
    (order.codec 2).read (format.written memory addr value).bytes addr =
      format.wanted := by
  rw [← lawful.family_read, read_written, lawful.family_toRaw]

theorem AddrFormat.Lawful.readFromUser_written (lawful : format.Lawful order fieldBytes)
    (readable : memory.check addr (Layout.new sockaddrType) UserConstPtr.accessFlags = .ok ())
    (long : format.codec.size ≤ addrlen.toNat) (value : Addr) :
    (format.readFromUser (format.written memory addr value) storage addr
      addrlen).1 = .ok value := by
  rw [format.readFromUser_eq long, readable_written value readable]
  simp only [read_written, lawful.family_toRaw, ne_eq, not_true_eq_false,
    if_false, lawful.toAddr_toRaw]

theorem AddrFormat.readFromUser_eq_ok {value : Addr}
    (read : (format.readFromUser memory storage addr addrlen).1 = .ok value) :
    format.family (format.codec.read memory.bytes addr) = format.wanted ∧
      value = format.toAddr (format.codec.read memory.bytes addr) := by
  have long : format.codec.size ≤ addrlen.toNat := by
    by_contra short
    rw [readFromUser, if_pos (Nat.not_le.mp short)] at read
    cases read
  rw [format.readFromUser_eq long] at read
  cases granted : memory.check addr (Layout.new sockaddrType) UserConstPtr.accessFlags with
  | error fault =>
      rw [granted] at read
      cases read
  | ok =>
      rw [granted] at read
      dsimp only at read
      by_cases known : format.family (format.codec.read memory.bytes addr) = format.wanted
      · rw [if_neg (not_not.mpr known)] at read
        exact ⟨known, (Except.ok.inj read).symm⟩
      · rw [if_pos known] at read
        cases read

theorem AddrFormat.Lawful.load_of_read (lawful : format.Lawful order fieldBytes) {value : Addr}
    (read : (format.readFromUser memory storage addr addrlen).1 = .ok value)
    (later : UserMemory) (target : Nat) :
    Memory.load (format.written later target value).bytes target fieldBytes =
      Memory.load memory.bytes addr fieldBytes := by
  obtain ⟨known, rfl⟩ := format.readFromUser_eq_ok read
  have inside :
      fieldBytes ≤
        (format.codec.encode
          (format.toRaw (format.toAddr (format.codec.read memory.bytes addr)))).length := by
    rw [format.codec.length_encode]
    exact lawful.fieldsInside
  rw [written, UserMemory.store_bytes, Memory.load_store_of_le _ _ inside,
    lawful.fields _ known, lawful.onto.encode_read,
    Memory.take_load _ _ lawful.fieldsInside]

end Memory

/-! ## Both families -/

section Families

variable {order : ByteOrder} {memory : UserMemory} {addr : Nat}
  {addrlen : BitVec 32} {storage : Nat → UInt8}

theorem SocketAddr.readFromUser_eq
    (readable : memory.check addr (Layout.new sockaddrType) UserConstPtr.accessFlags = .ok ())
    (enough : 2 ≤ addrlen.toNat) (atMost : addrlen.toNat ≤ 128) :
    SocketAddr.readFromUser order memory storage addr addrlen =
      (let family := (order.codec 2).read memory.bytes addr
      if family = afInet then
        let (result, copied) := SocketAddrV4.readFromUser order memory storage addr addrlen
        (result.map .v4, copied)
      else if family = afInet6 then
        let (result, copied) := SocketAddrV6.readFromUser order memory storage addr addrlen
        (result.map .v6, copied)
      else (.error (.err .EAFNOSUPPORT), 0)) := by
  have lengths : ¬ (2 > addrlen.toNat ∨ addrlen.toNat > sockaddrType.size) := by
    change ¬ (2 > addrlen.toNat ∨ addrlen.toNat > 128)
    omega
  rw [readFromUser, if_neg lengths, UserMemory.getElement, readable]
  rfl

section Written

variable (readable : memory.check addr (Layout.new sockaddrType) UserConstPtr.accessFlags = .ok ())

include readable

theorem SocketAddr.readFromUser_v4_written
    (long : 16 ≤ addrlen.toNat) (atMost : addrlen.toNat ≤ 128)
    (value : SocketAddrV4) :
    (SocketAddr.readFromUser order
      ((SocketAddrV4.format order).written memory addr value) storage addr
      addrlen).1 = .ok (.v4 value) := by
  have lawful := SocketAddrV4.lawful order
  have stillReadable :=
    @AddrFormat.readable_written _ _ (SocketAddrV4.format order) _ _ value readable
  have isInet :
      (order.codec 2).read ((SocketAddrV4.format order).written memory addr value).bytes
          addr = afInet :=
    lawful.family_written value
  have read :
      (SocketAddrV4.readFromUser order
        ((SocketAddrV4.format order).written memory addr value) storage
        addr addrlen).1 = .ok value :=
    lawful.readFromUser_written readable long value
  rw [SocketAddr.readFromUser_eq stillReadable (by omega) atMost]
  simp only [isInet, if_true, read]
  rfl

theorem SocketAddr.readFromUser_v6_written
    (long : 28 ≤ addrlen.toNat) (atMost : addrlen.toNat ≤ 128)
    (value : SocketAddrV6) :
    (SocketAddr.readFromUser order
      ((SocketAddrV6.format order).written memory addr value) storage addr
      addrlen).1 = .ok (.v6 value) := by
  have lawful := SocketAddrV6.lawful order
  have stillReadable :=
    @AddrFormat.readable_written _ _ (SocketAddrV6.format order) _ _ value readable
  have isInet6 :
      (order.codec 2).read ((SocketAddrV6.format order).written memory addr value).bytes
          addr = afInet6 :=
    lawful.family_written value
  have read :
      (SocketAddrV6.readFromUser order
        ((SocketAddrV6.format order).written memory addr value) storage
        addr addrlen).1 = .ok value :=
    lawful.readFromUser_written readable long value
  have notInet : afInet6 ≠ afInet := by decide
  rw [SocketAddr.readFromUser_eq stillReadable (by omega) atMost]
  simp only [isInet6, if_neg notInet, if_true, read]
  rfl

end Written

theorem SocketAddr.writeToUser_v4
    (accessible : AccessibleSockaddr memory addr) (value : SocketAddrV4) :
    SocketAddr.writeToUser order memory addr (.v4 value) =
      (.ok 16, (SocketAddrV4.format order).written memory addr value) := by
  rw [SocketAddr.writeToUser, if_neg accessible.notNull]
  exact AddrFormat.writeToUser_eq accessible value

theorem SocketAddr.writeToUser_v6
    (accessible : AccessibleSockaddr memory addr) (value : SocketAddrV6) :
    SocketAddr.writeToUser order memory addr (.v6 value) =
      (.ok 28, (SocketAddrV6.format order).written memory addr value) := by
  rw [SocketAddr.writeToUser, if_neg accessible.notNull]
  exact AddrFormat.writeToUser_eq accessible value

theorem SocketAddr.readFromUser_eq_ok {value : SocketAddr}
    (read : (SocketAddr.readFromUser order memory storage addr addrlen).1 = .ok value) :
    (∃ inner, value = .v4 inner ∧
      (SocketAddrV4.readFromUser order memory storage addr addrlen).1 = .ok inner) ∨
    ∃ inner, value = .v6 inner ∧
      (SocketAddrV6.readFromUser order memory storage addr addrlen).1 = .ok inner := by
  unfold readFromUser at read
  split at read
  · cases read
  · split at read
    · cases read
    · dsimp only at read
      split at read
      · exact .inl (map_eq_ok read)
      · split at read
        · exact .inr (map_eq_ok read)
        · cases read

end Families

/-- A socket address that is written to an accessible `sockaddr` is read back
with every length from the one returned to 128, on machines of both byte
orders; and an address that was read from anywhere is written there with the
bytes of its fields. -/
theorem socketAddr_survives_user_memory (order : ByteOrder) (memory : UserMemory) (addr : Nat)
    (accessible : AccessibleSockaddr memory addr) :
    (∀ value, ∃ len after,
      SocketAddr.writeToUser order memory addr value = (.ok len, after) ∧
        ∀ (storage : Nat → UInt8) (addrlen : BitVec 32),
          len ≤ addrlen.toNat → addrlen.toNat ≤ 128 →
            (SocketAddr.readFromUser order after storage addr addrlen).1 = .ok value) ∧
    ∀ (source : UserMemory) (storage : Nat → UInt8) (src : Nat)
      (addrlen : BitVec 32) (value : SocketAddr),
      (SocketAddr.readFromUser order source storage src addrlen).1 = .ok value →
        ∃ len after,
          SocketAddr.writeToUser order memory addr value = (.ok len, after) ∧
            Memory.load after.bytes addr value.fieldBytes =
              Memory.load source.bytes src value.fieldBytes := by
  constructor
  · intro value
    cases value with
    | v4 value =>
        refine ⟨_, _, SocketAddr.writeToUser_v4 accessible value, ?_⟩
        intro storage addrlen long atMost
        exact SocketAddr.readFromUser_v4_written accessible.readable long atMost value
    | v6 value =>
        refine ⟨_, _, SocketAddr.writeToUser_v6 accessible value, ?_⟩
        intro storage addrlen long atMost
        exact SocketAddr.readFromUser_v6_written accessible.readable long atMost value
  · intro source storage src addrlen value read
    rcases SocketAddr.readFromUser_eq_ok read with ⟨inner, rfl, isInner⟩ | ⟨inner, rfl, isInner⟩
    · refine ⟨_, _, SocketAddr.writeToUser_v4 accessible inner, ?_⟩
      exact (SocketAddrV4.lawful order).load_of_read isInner memory addr
    · refine ⟨_, _, SocketAddr.writeToUser_v6 accessible inner, ?_⟩
      exact (SocketAddrV6.lawful order).load_of_read isInner memory addr

def zeroMemory : UserMemory where
  bytes _ := 0
  check _ _ _ := .ok ()

/-- `127.0.0.1:8080` on a machine that stores lowest bytes first. -/
theorem socketAddr_survives_user_memory_localhost :
    ∃ len after,
      SocketAddr.writeToUser .little zeroMemory 4096
          (.v4 ⟨#v[127, 0, 0, 1], 8080⟩) = (.ok len, after) ∧
        Memory.load after.bytes 4096 8 = [2, 0, 0x1f, 0x90, 127, 0, 0, 1] ∧
        (SocketAddr.readFromUser .little after (fun _ => 7) 4096 16).1 =
          .ok (.v4 ⟨#v[127, 0, 0, 1], 8080⟩) := by
  have accessible : AccessibleSockaddr zeroMemory 4096 := ⟨by decide, rfl, rfl⟩
  obtain ⟨len, after, written, read⟩ := (socketAddr_survives_user_memory .little zeroMemory 4096
      accessible).1 (.v4 ⟨#v[127, 0, 0, 1], 8080⟩)
  have isWritten := @SocketAddr.writeToUser_v4 .little _ _ accessible ⟨#v[127, 0, 0, 1], 8080⟩
  obtain ⟨isLen, rfl⟩ := Prod.mk.inj (isWritten.symm.trans written)
  obtain rfl := Except.ok.inj isLen
  exact ⟨16, _, written, by decide +kernel, read _ 16 (by decide) (by decide)⟩

end Vegar.Net
