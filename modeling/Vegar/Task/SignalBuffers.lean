import Vegar.Mm.UserMemory
import Vegar.Task.ExecAddresses
import Vegar.Task.SignalMask

/-!
# Signal calls with two buffers

`sys_rt_sigprocmask`, `sys_rt_sigaction` and `sys_sigaltstack` take a buffer
with the new value and one for the old.  All three store the old value before
they read the new one.  Where the buffers overlap, the new value is read from
what was just stored.
-/

namespace Vegar.Task

open Vegar.Lib Vegar.Mm

/-! ## Exchanging a value -/

structure Exchange (κ α : Type) where
  elem : ElemType
  codec : Memory.Codec UInt8 α
  shown : κ → α
  update : κ → α → Except (Fault LinuxError) κ

namespace Exchange

variable {κ α : Type} (exchange : Exchange κ α)

def store (memory : UserMemory) (output : Nat) (state : κ) : UserMemory :=
  if output = 0 then memory
  else
    { memory with
      bytes := exchange.codec.write memory.bytes output (exchange.shown state) }

def run (memory : UserMemory) (input output : Nat) (state : κ) :
    Except (Fault LinuxError) Unit × κ × UserMemory :=
  match UserMemory.nullable output (memory.getElement UserPtr.accessFlags exchange.elem output)
  with
  | .error fault => (.error fault, state, memory)
  | .ok _ =>
      let stored := exchange.store memory output state
      match
        UserMemory.nullable input (stored.getElement UserConstPtr.accessFlags exchange.elem input)
      with
      | .error fault => (.error fault, state, stored)
      | .ok none => (.ok (), state, stored)
      | .ok (some _) =>
          match exchange.update state (exchange.codec.read stored.bytes input)
          with
          | .error fault => (.error fault, state, stored)
          | .ok after => (.ok (), after, stored)

def outcome (state : κ) (operand : α) : Except (Fault LinuxError) Unit × κ :=
  match exchange.update state operand with
  | .error fault => (.error fault, state)
  | .ok after => (.ok (), after)

structure UsesInput (memory : UserMemory) (input output : Nat) (state : κ)
    (result : Except (Fault LinuxError) Unit × κ × UserMemory) : Prop where
  fromInput :
    result.1 = .ok () → input ≠ 0 →
      exchange.update state (exchange.codec.read memory.bytes input) = .ok result.2.1
  kept : result.1 = .ok () → input = 0 → result.2.1 = state
  toOutput :
    result.1 = .ok () → output ≠ 0 →
      exchange.codec.read result.2.2.bytes output = exchange.shown state

def KeepsOnError (state : κ) (result : Except (Fault LinuxError) Unit × κ × UserMemory) :
    Prop :=
  ∀ fault, result.1 = .error fault → result.2.1 = state

def overlaid (memory : UserMemory) (input output : Nat) (state : κ) : α :=
  exchange.codec.read (exchange.codec.write memory.bytes output (exchange.shown state)) input

def Granted (memory : UserMemory) (input output : Nat) : Prop :=
  (∃ slice, memory.getElement UserPtr.accessFlags exchange.elem output = .ok slice) ∧
  ∃ slice, memory.getElement UserConstPtr.accessFlags exchange.elem input = .ok slice

def Unharmed (memory : UserMemory) (input output : Nat) (state : κ) (alike : α → α → Prop) : Prop :=
  input ≠ 0 → output ≠ 0 → exchange.Granted memory input output →
    alike (exchange.overlaid memory input output state) (exchange.codec.read memory.bytes input)

def SameUpdate (state : κ) (found given : α) : Prop :=
  ∀ after, exchange.update state found = .ok after → exchange.update state given = .ok after

variable {exchange} {memory : UserMemory} {input output : Nat} {state : κ}

theorem read_store_of_apart
    (apart : input + exchange.codec.size ≤ output ∨ output + exchange.codec.size ≤ input) :
    exchange.codec.read (exchange.store memory output state).bytes input =
      exchange.codec.read memory.bytes input := by
  unfold store
  split
  · rfl
  · exact exchange.codec.read_write_of_disjoint exchange.codec apart

theorem toOutput_store (asked : output ≠ 0) :
    exchange.codec.read (exchange.store memory output state).bytes output =
      exchange.shown state := by
  rw [store, if_neg asked]
  exact exchange.codec.read_write_self _ _ _

theorem run_of_given {asked : Option UserSlice} {slice : UserSlice}
    (stored :
      UserMemory.nullable output (memory.getElement UserPtr.accessFlags exchange.elem output) =
        .ok asked)
    (given :
      UserMemory.nullable input
          ((exchange.store memory output state).getElement
            UserConstPtr.accessFlags exchange.elem input) =
        .ok (some slice)) :
    let ran := exchange.run memory input output state
    (ran.1, ran.2.1) =
      exchange.outcome state
        (exchange.codec.read (exchange.store memory output state).bytes input) := by
  simp only [run, stored, given, outcome]
  generalize exchange.update state _ = updated
  cases updated <;> rfl

theorem run_cases (memory : UserMemory) (input output : Nat) (state : κ) :
    (∃ fault after, exchange.run memory input output state = (.error fault, state, after)) ∨
    (input = 0 ∧
      exchange.run memory input output state =
        (.ok (), state, exchange.store memory output state)) ∨
    ∃ after, input ≠ 0 ∧
      exchange.update state (exchange.codec.read (exchange.store memory output state).bytes input) =
        .ok after ∧
      exchange.run memory input output state =
        (.ok (), after, exchange.store memory output state) := by
  unfold run
  dsimp only
  split
  · exact Or.inl ⟨_, _, rfl⟩
  · split
    · exact Or.inl ⟨_, _, rfl⟩
    · next read =>
        have null := UserMemory.nullable_eq_ok_none.mp read
        exact Or.inr (Or.inl ⟨null, rfl⟩)
    · next slice read =>
        have given : input ≠ 0 := by
          intro null
          rw [UserMemory.nullable_eq_ok_none.mpr null] at read
          cases read
        split
        · exact Or.inl ⟨_, _, rfl⟩
        · next after updated =>
            exact Or.inr (Or.inr ⟨after, given, updated, rfl⟩)

theorem run_keepsOnError : KeepsOnError state (exchange.run memory input output state) := by
  intro fault failed
  rcases @run_cases κ α exchange memory input output state with
    ⟨_, after, ran⟩ | ⟨-, ran⟩ | ⟨after, -, -, ran⟩
  · rw [ran]
  · rw [ran]
  · rw [ran] at failed
    cases failed

theorem granted_of_run_ok (given : input ≠ 0) (asked : output ≠ 0)
    (succeeds : (exchange.run memory input output state).1 = .ok ()) :
    exchange.Granted memory input output := by
  have sameAccess :
      (exchange.store memory output state).getElement UserConstPtr.accessFlags exchange.elem input =
        memory.getElement UserConstPtr.accessFlags exchange.elem input := by
    rw [store, if_neg asked]
    rfl
  simp only [run, UserMemory.nullable, if_neg given, if_neg asked, sameAccess] at succeeds
  cases outputAccess : memory.getElement UserPtr.accessFlags exchange.elem output with
  | error fault =>
      rw [outputAccess] at succeeds
      cases succeeds
  | ok slice =>
      rw [outputAccess] at succeeds
      cases inputAccess : memory.getElement UserConstPtr.accessFlags exchange.elem input with
      | error fault =>
          rw [inputAccess] at succeeds
          cases succeeds
      | ok other => exact ⟨⟨slice, outputAccess⟩, other, inputAccess⟩

theorem read_store_eq_overlaid (asked : output ≠ 0) :
    exchange.codec.read (exchange.store memory output state).bytes input =
      exchange.overlaid memory input output state := by
  rw [store, if_neg asked]
  rfl

theorem run_of_granted (given : input ≠ 0) (asked : output ≠ 0)
    (granted : exchange.Granted memory input output) :
    let ran := exchange.run memory input output state
    (ran.1, ran.2.1) = exchange.outcome state (exchange.overlaid memory input output state) := by
  obtain ⟨⟨slice, outputAccess⟩, other, inputAccess⟩ := granted
  have stored :
      UserMemory.nullable output (memory.getElement UserPtr.accessFlags exchange.elem output) =
        .ok (some slice) := by
    rw [UserMemory.nullable, if_neg asked, outputAccess]
    rfl
  have isGiven :
      UserMemory.nullable input
          ((exchange.store memory output state).getElement
            UserConstPtr.accessFlags exchange.elem input) =
        .ok (some other) := by
    rw [UserMemory.nullable, if_neg given, store, if_neg asked]
    exact congrArg (Except.map some) inputAccess
  refine (run_of_given stored isGiven).trans ?_
  rw [read_store_eq_overlaid asked]

theorem run_usesInput_iff :
    exchange.UsesInput memory input output state (exchange.run memory input output state) ↔
      exchange.Unharmed memory input output state (exchange.SameUpdate state) := by
  constructor
  · intro uses given asked granted after updated
    have ran := @run_of_granted _ _ exchange memory input output state given asked granted
    rw [outcome, updated] at ran
    obtain ⟨succeeds, isAfter⟩ := Prod.mk.inj ran
    rw [uses.fromInput succeeds given, isAfter]
  · intro unharmed
    have granted := @granted_of_run_ok _ _ exchange memory input output state
    rcases @run_cases κ α exchange memory input output state with
      ⟨_, after, ran⟩ | ⟨null, ran⟩ | ⟨after, given, updated, ran⟩
    · rw [ran]
      exact ⟨nofun, nofun, nofun⟩
    · rw [ran]
      refine ⟨fun _ given => (given null).elim, fun _ _ => rfl, ?_⟩
      exact fun _ asked => toOutput_store asked
    · rw [ran] at granted ⊢
      refine ⟨?_, fun _ null => (given null).elim, ?_⟩
      · intro succeeds _
        by_cases asked : output = 0
        · rw [store, if_pos asked] at updated
          exact updated
        · rw [read_store_eq_overlaid asked] at updated
          exact unharmed given asked (granted given asked succeeds) after updated
      · exact fun _ asked => toOutput_store asked

end Exchange

/-! ## The three calls -/

/-- `SignalSet` and the three ways of `sys_rt_sigprocmask` to use it. -/
def maskExchange (how : BitVec 32) : Exchange SignalSet SignalSet where
  elem := .pointer
  codec := leCodec 8
  shown blocked := blocked
  update blocked set :=
    if how = sigBlock then .ok (blocked ||| set)
    else if how = sigUnblock then .ok (blocked &&& ~~~set)
    else if how = sigSetmask then .ok set
    else .error (.err .EINVAL)

/-- `sys_rt_sigprocmask` on the memory of the caller. -/
def Buffered.sysRtSigprocmask (memory : UserMemory) (how : BitVec 32) (set oldset sigsetsize : Nat)
    (blocked : SignalSet) :
    Except (Fault LinuxError) Unit × SignalSet × UserMemory :=
  if sigsetsize ≠ sigsetBytes then (.error (.err .EINVAL), blocked, memory)
  else (maskExchange how).run memory set oldset blocked

/-- `kernel_sigaction` as the architecture lays it out, and its conversions by
`axsignal`. -/
structure ActionCrates (Action KernelSigaction : Type) where
  elem : ElemType
  codec : Memory.Codec UInt8 KernelSigaction
  toCtype : Action → KernelSigaction
  tryInto : KernelSigaction → LinuxResult Action

def actionExchange {Action KernelSigaction : Type}
    (crates : ActionCrates Action KernelSigaction) (signo : Nat) :
    Exchange (Nat → Action) KernelSigaction where
  elem := crates.elem
  codec := crates.codec
  shown actions := crates.toCtype (actions signo)
  update actions act :=
    match crates.tryInto act with
    | .error error => .error (.err error)
    | .ok action => .ok (Function.update actions signo action)

/-- The checks of `sys_rt_sigaction` before it looks at the buffers. -/
def actionSigno (signo sigsetsize : Nat) : LinuxResult Nat :=
  if sigsetsize ≠ sigsetBytes then .error .EINVAL
  else
    match parseSigno signo with
    | .error error => .error error
    | .ok signo =>
        if signo = sigkill ∨ signo = sigstop then .error .EINVAL
        else .ok signo

/-- `sys_rt_sigaction` on the memory of the caller. -/
def Buffered.sysRtSigaction {Action KernelSigaction : Type}
    (crates : ActionCrates Action KernelSigaction) (memory : UserMemory)
    (signo act oldact sigsetsize : Nat) (actions : Nat → Action) :
    Except (Fault LinuxError) Unit × (Nat → Action) × UserMemory :=
  match actionSigno signo sigsetsize with
  | .error error => (.error (.err error), actions, memory)
  | .ok signo =>
      (actionExchange crates signo).run memory act oldact actions

/-- `axsignal::SignalStack`. -/
structure SignalStack where
  sp : BitVec 64
  flags : BitVec 32
  size : BitVec 64
  deriving DecidableEq

def stackCodec : Memory.Codec UInt8 SignalStack :=
  ((leCodec 8).pair ((leCodec 4).pair ((leCodec 8).padded 0 4))).via
    (fun stack => (stack.sp, stack.flags, stack.size))
    (fun fields => ⟨fields.1, fields.2.1, fields.2.2⟩) fun _ => rfl

def stackElem : ElemType where
  size := 24
  align := 8
  alignPower := ElemType.pointer.alignPower
  alignDivides := ⟨3, rfl⟩
  sizeFits := by decide

/-- The stack of `sys_sigaltstack`, which must be large enough and
accessible. -/
def stackExchange (memory : UserMemory) : Exchange SignalStack SignalStack where
  elem := stackElem
  codec := stackCodec
  shown stack := stack
  update _ ss :=
    if ss.size.toNat ≤ minsigstksz then .error (.err .ENOMEM)
    else
      match memory.getElements UserConstPtr.accessFlags .byte ss.sp.toNat ss.size.toNat
      with
      | .error fault => .error fault
      | .ok _ => .ok ss

/-- `sys_sigaltstack` on the memory of the caller. -/
def Buffered.sysSigaltstack (memory : UserMemory) (ss oldSs : Nat) (stack : SignalStack) :
    Except (Fault LinuxError) Unit × SignalStack × UserMemory :=
  (stackExchange memory).run memory ss oldSs stack

/-! ## What makes no difference to the calls -/

structure MaskAlike (how : BitVec 32) (blocked found given : SignalSet) : Prop where
  block : how = sigBlock → found &&& ~~~blocked = given &&& ~~~blocked
  unblock : how = sigUnblock → found &&& blocked = given &&& blocked
  setmask : how = sigSetmask → found = given

theorem or_eq_or_iff (blocked found given : SignalSet) :
    blocked ||| found = blocked ||| given ↔ found &&& ~~~blocked = given &&& ~~~blocked := by
  simp only [BitVec.eq_of_getElem_eq_iff, BitVec.getElem_or, BitVec.getElem_and, BitVec.getElem_not]
  refine forall₂_congr fun index within => ?_
  cases blocked[index] <;> simp

theorem and_not_eq_and_not_iff (blocked found given : SignalSet) :
    blocked &&& ~~~found = blocked &&& ~~~given ↔ found &&& blocked = given &&& blocked := by
  simp only [BitVec.eq_of_getElem_eq_iff, BitVec.getElem_and, BitVec.getElem_not]
  refine forall₂_congr fun index within => ?_
  cases blocked[index] <;> simp

theorem maskExchange_sameUpdate_iff {how : BitVec 32} {blocked found given : SignalSet} :
    (maskExchange how).SameUpdate blocked found given ↔
      MaskAlike how blocked found given := by
  have sameOk {first second : SignalSet} :
      (∀ after, Except.ok first = (.ok after : Except (Fault LinuxError) _) →
        Except.ok second = (.ok after : Except (Fault LinuxError) _)) ↔
      first = second := by
    constructor
    · intro same
      exact (Except.ok.inj (same first rfl)).symm
    · rintro rfl after isAfter
      exact isAfter
  unfold Exchange.SameUpdate maskExchange
  by_cases blocks : how = sigBlock
  · simp only [if_pos blocks, sameOk, or_eq_or_iff]
    constructor
    · intro same
      exact ⟨fun _ => same, fun other => absurd (blocks.symm.trans other) (by decide),
          fun other => absurd (blocks.symm.trans other) (by decide)⟩
    · exact fun alike => alike.block blocks
  · by_cases unblocks : how = sigUnblock
    · simp only [if_neg blocks, if_pos unblocks, sameOk, and_not_eq_and_not_iff]
      constructor
      · intro same
        exact ⟨fun other => absurd other blocks, fun _ => same,
            fun other => absurd (unblocks.symm.trans other) (by decide)⟩
      · exact fun alike => alike.unblock unblocks
    · by_cases sets : how = sigSetmask
      · simp only [if_neg blocks, if_neg unblocks, if_pos sets, sameOk]
        constructor
        · intro same
          exact
            ⟨fun other => absurd other blocks, fun other => absurd other unblocks, fun _ => same⟩
        · exact fun alike => alike.setmask sets
      · simp only [if_neg blocks, if_neg unblocks, if_neg sets]
        refine iff_of_true nofun ?_
        exact ⟨fun other => absurd other blocks, fun other => absurd other unblocks,
            fun other => absurd other sets⟩

def ActionAlike {Action KernelSigaction : Type} (crates : ActionCrates Action KernelSigaction)
    (found given : KernelSigaction) : Prop :=
  ∀ action, crates.tryInto found = .ok action → crates.tryInto given = .ok action

theorem actionExchange_sameUpdate_iff {Action KernelSigaction : Type}
    {crates : ActionCrates Action KernelSigaction} {signo : Nat}
    {actions : Nat → Action} {found given : KernelSigaction} :
    (actionExchange crates signo).SameUpdate actions found given ↔
      ActionAlike crates found given := by
  unfold Exchange.SameUpdate ActionAlike
  dsimp only [actionExchange]
  cases crates.tryInto found with
  | error error => exact iff_of_true nofun nofun
  | ok action =>
      cases crates.tryInto given with
      | error error =>
          refine iff_of_false ?_ ?_
          · intro same
            cases same _ rfl
          · intro same
            cases same _ rfl
      | ok other =>
          constructor
          · intro same found isFound
            obtain rfl := Except.ok.inj isFound
            have updated := congrFun (Except.ok.inj (same _ rfl)) signo
            rw [Function.update_self, Function.update_self] at updated
            rw [updated]
          · intro same after isAfter
            rw [Except.ok.inj (same action rfl)]
            exact isAfter

def Usable (memory : UserMemory) (stack : SignalStack) : Prop := minsigstksz < stack.size.toNat ∧
    ∃ slice,
      memory.getElements UserConstPtr.accessFlags .byte stack.sp.toNat stack.size.toNat = .ok slice

theorem stackExchange_sameUpdate_iff {memory : UserMemory} {stack found given : SignalStack} :
    (stackExchange memory).SameUpdate stack found given ↔
      (Usable memory found → found = given) := by
  have updates (operand : SignalStack) :
      Usable memory operand ∧ (stackExchange memory).update stack operand = .ok operand ∨
        ¬ Usable memory operand ∧
          ∀ after, (stackExchange memory).update stack operand ≠ .ok after := by
    unfold Usable
    dsimp only [stackExchange]
    by_cases small : operand.size.toNat ≤ minsigstksz
    · refine .inr ⟨fun usable => by omega, ?_⟩
      simp only [if_pos small]
      nofun
    · simp only [if_neg small]
      cases memory.getElements UserConstPtr.accessFlags .byte
          operand.sp.toNat operand.size.toNat with
      | error fault =>
          refine .inr ⟨?_, nofun⟩
          rintro ⟨-, slice, impossible⟩
          cases impossible
      | ok slice => exact .inl ⟨⟨by omega, slice, rfl⟩, rfl⟩
  unfold Exchange.SameUpdate
  rcases updates found with ⟨usable, updated⟩ | ⟨unusable, refused⟩
  · constructor
    · intro same _
      have updatedGiven := same found updated
      rcases updates given with ⟨-, again⟩ | ⟨-, refusedGiven⟩
      · exact Except.ok.inj (updatedGiven.symm.trans again)
      · exact absurd updatedGiven (refusedGiven found)
    · intro same after isAfter
      rw [← same usable]
      exact isAfter
  · exact iff_of_true (fun after isAfter => absurd isAfter (refused after))
        fun usable => absurd usable unusable

section Calls

open Exchange (KeepsOnError)

variable {Action KernelSigaction : Type}
  {crates : ActionCrates Action KernelSigaction} {memory : UserMemory}

theorem Buffered.sysRtSigprocmask_usesInput_iff
    (how : BitVec 32) (set oldset sigsetsize : Nat) (blocked : SignalSet) :
    (maskExchange how).UsesInput memory set oldset blocked
        (Buffered.sysRtSigprocmask memory how set oldset sigsetsize blocked) ↔
      (sigsetsize = sigsetBytes →
        (maskExchange how).Unharmed memory set oldset blocked (MaskAlike how blocked)) := by
  have alike : (maskExchange how).SameUpdate blocked = MaskAlike how blocked := by
    funext found given
    exact propext maskExchange_sameUpdate_iff
  unfold Buffered.sysRtSigprocmask
  split
  · next wrongSize =>
      exact iff_of_true ⟨nofun, nofun, nofun⟩ fun size => absurd size wrongSize
  · next size =>
      rw [Exchange.run_usesInput_iff, alike]
      exact ⟨fun unharmed _ => unharmed, fun unharmed =>
        unharmed (not_not.mp size)⟩

theorem Buffered.sysRtSigprocmask_keepsOnError
    (how : BitVec 32) (set oldset sigsetsize : Nat) (blocked : SignalSet) :
    KeepsOnError blocked (Buffered.sysRtSigprocmask memory how set oldset sigsetsize blocked) := by
  unfold Buffered.sysRtSigprocmask
  split
  · exact fun _ _ => rfl
  · exact Exchange.run_keepsOnError

theorem Buffered.sysRtSigaction_usesInput_iff
    (signo act oldact sigsetsize : Nat) (actions : Nat → Action) :
    ((Buffered.sysRtSigaction crates memory signo act oldact sigsetsize actions).1 = .ok () →
      ∃ number, actionSigno signo sigsetsize = .ok number ∧
        (actionExchange crates number).UsesInput memory act oldact actions
          (Buffered.sysRtSigaction crates memory signo act oldact sigsetsize actions)) ↔
    ∀ number, actionSigno signo sigsetsize = .ok number →
      (actionExchange crates number).Unharmed memory act oldact actions (ActionAlike crates) := by
  unfold Buffered.sysRtSigaction
  cases actionSigno signo sigsetsize with
  | error error => exact iff_of_true nofun nofun
  | ok number =>
      have alike :
          (actionExchange crates number).SameUpdate actions =
            ActionAlike crates := by
        funext found given
        exact propext actionExchange_sameUpdate_iff
      have uses :=
        @Exchange.run_usesInput_iff _ _ (actionExchange crates number) memory act oldact actions
      rw [alike] at uses
      simp only [Except.ok.injEq, exists_eq_left', forall_eq']
      rw [← uses]
      refine ⟨fun whenOk => ?_, fun usesInput _ => usesInput⟩
      exact ⟨fun succeeds => (whenOk succeeds).fromInput succeeds,
          fun succeeds => (whenOk succeeds).kept succeeds,
          fun succeeds => (whenOk succeeds).toOutput succeeds⟩

theorem Buffered.sysRtSigaction_keepsOnError
    (signo act oldact sigsetsize : Nat) (actions : Nat → Action) :
    KeepsOnError actions
      (Buffered.sysRtSigaction crates memory signo act oldact sigsetsize actions) := by
  unfold Buffered.sysRtSigaction
  split
  · exact fun _ _ => rfl
  · exact Exchange.run_keepsOnError

theorem Buffered.sysSigaltstack_usesInput_iff (ss oldSs : Nat) (stack : SignalStack) :
    (stackExchange memory).UsesInput memory ss oldSs stack
        (Buffered.sysSigaltstack memory ss oldSs stack) ↔
      (stackExchange memory).Unharmed memory ss oldSs stack
        fun found given => Usable memory found → found = given := by
  have alike :
      (stackExchange memory).SameUpdate stack =
        fun found given => Usable memory found → found = given := by
    funext found given
    exact propext stackExchange_sameUpdate_iff
  rw [← alike]
  exact Exchange.run_usesInput_iff

end Calls

/-! ## The mask as a single word -/

/-- The call in the terms of `Vegar.Task.SignalMask`. -/
def Buffered.sigprocmaskCall (memory : UserMemory) (how : BitVec 32) (set oldset sigsetsize : Nat)
    (setAccess oldsetAccess : LinuxResult Unit) : SigprocmaskCall where
  how := how
  set :=
    if set = 0 then .ok none
    else
      setAccess.map fun _ =>
        some ((maskExchange how).codec.read memory.bytes set)
  oldset :=
    if oldset = 0 then .ok false else oldsetAccess.map fun _ => true
  sameWord := decide (set = oldset)
  sigsetsize := sigsetsize

theorem read_store_mask {memory : UserMemory} {how : BitVec 32} {set oldset : Nat}
    {blocked : SignalSet} (given : set ≠ 0)
    (placed : set = oldset ∨ set + 8 ≤ oldset ∨ oldset + 8 ≤ set) :
    (maskExchange how).codec.read ((maskExchange how).store memory oldset blocked).bytes set =
      if decide (oldset ≠ 0) && decide (set = oldset) then blocked
      else (maskExchange how).codec.read memory.bytes set := by
  by_cases same : set = oldset
  · subst same
    rw [Exchange.toOutput_store given]
    simp [given, maskExchange]
  · have apart := placed.resolve_left same
    rw [Exchange.read_store_of_apart apart]
    simp [same]

def maskOutcome (how : BitVec 32) (blocked : SignalSet) :
    LinuxResult (Option SignalSet) → Except (Fault LinuxError) Unit × SignalSet
  | .error error => (.error (.err error), blocked)
  | .ok none => (.ok (), blocked)
  | .ok (some operand) => (maskExchange how).outcome blocked operand

section Placed

variable {memory : UserMemory} {how : BitVec 32} {set oldset : Nat}
  {setAccess oldsetAccess : LinuxResult Unit}
  (setChecked :
    memory.check set (Layout.new .pointer) UserConstPtr.accessFlags = setAccess.mapError .err)
  (oldsetChecked :
    memory.check oldset (Layout.new .pointer) UserPtr.accessFlags = oldsetAccess.mapError .err)
  (placed : set = oldset ∨ set + 8 ≤ oldset ∨ oldset + 8 ≤ set)

include setChecked oldsetChecked placed

/-- Where the buffers are the same or apart, the exchange uses the operand of
`Vegar.Task.SignalMask`. -/
theorem run_of_operand (sigsetsize : Nat) (blocked : SignalSet) :
    let ran := (maskExchange how).run memory set oldset blocked
    (ran.1, ran.2.1) =
      maskOutcome how blocked
        ((Buffered.sigprocmaskCall memory how set oldset sigsetsize setAccess
          oldsetAccess).operand blocked) := by
  have storedChecked :
      ((maskExchange how).store memory oldset blocked).check set
          (Layout.new (maskExchange how).elem) UserConstPtr.accessFlags =
        setAccess.mapError .err := by
    rw [← setChecked]
    unfold Exchange.store
    split <;> rfl
  have oldsetElem :
      memory.check oldset (Layout.new (maskExchange how).elem) UserPtr.accessFlags =
        oldsetAccess.mapError .err :=
    oldsetChecked
  rcases UserMemory.nullable_getElement_cases oldsetElem with
    ⟨error, asked, rfl, output⟩ | ⟨granted, output⟩
  · simp only [Exchange.run, output, SigprocmaskCall.operand,
      Buffered.sigprocmaskCall, if_neg asked]
    rfl
  · have isStored :
        (if oldset = 0 then .ok false
          else oldsetAccess.map fun _ => true : LinuxResult Bool) =
          .ok (decide (oldset ≠ 0)) := by
      by_cases notAsked : oldset = 0
      · simp [notAsked]
      · rw [if_neg notAsked, granted.resolve_left notAsked]
        simp [notAsked, Except.map]
    simp only [SigprocmaskCall.operand, Buffered.sigprocmaskCall, isStored]
    rcases UserMemory.nullable_getElement_cases storedChecked with
      ⟨error, given, rfl, input⟩ | ⟨readable, input⟩
    · simp only [Exchange.run, output, input, if_neg given]
      rfl
    · by_cases null : set = 0
      · rw [if_pos null] at input
        simp only [Exchange.run, output, input, if_pos null]
        rfl
      · have isRead := @read_store_mask memory how set oldset blocked null placed
        rw [if_neg null] at input
        refine (Exchange.run_of_given output input).trans ?_
        rw [isRead, readable.resolve_left null, if_neg null]
        rfl

/-- Where the buffers are the same or apart, the call on memory is the call of
`Vegar.Task.SignalMask`. -/
theorem Buffered.sysRtSigprocmask_refines (sigsetsize : Nat) (blocked : SignalSet) :
    let buffered := Buffered.sysRtSigprocmask memory how set oldset sigsetsize blocked
    let abstract := Task.sysRtSigprocmask blocked
        (Buffered.sigprocmaskCall memory how set oldset sigsetsize setAccess oldsetAccess)
    (buffered.1, buffered.2.1) = ((abstract.1.map fun _ => ()).mapError .err, abstract.2) := by
  unfold Buffered.sysRtSigprocmask Task.sysRtSigprocmask
  by_cases size : sigsetsize ≠ sigsetBytes
  · have sameSize :
        (Buffered.sigprocmaskCall memory how set oldset sigsetsize setAccess
          oldsetAccess).sigsetsize ≠ sigsetBytes := size
    simp only [if_pos size, if_pos sameSize]
    rfl
  · have sameSize :
        ¬(Buffered.sigprocmaskCall memory how set oldset sigsetsize setAccess
          oldsetAccess).sigsetsize ≠ sigsetBytes := size
    have ran := @run_of_operand memory how set oldset setAccess oldsetAccess setChecked
        oldsetChecked placed sigsetsize blocked
    simp only [if_neg size, if_neg sameSize]
    refine ran.trans ?_
    generalize (Buffered.sigprocmaskCall memory how set oldset sigsetsize
      setAccess oldsetAccess).operand blocked = operand
    match operand with
    | .error error => rfl
    | .ok none => rfl
    | .ok (some operand) =>
        simp only [maskOutcome, Exchange.outcome, maskExchange, Buffered.sigprocmaskCall]
        by_cases blocks : how = sigBlock
        · simp only [eq_true blocks, if_true]
          rfl
        · by_cases unblocks : how = sigUnblock
          · simp only [blocks, if_false, eq_true unblocks, if_true]
            rfl
          · by_cases sets : how = sigSetmask
            · simp only [blocks, unblocks, if_false, eq_true sets, if_true]
              rfl
            · simp only [blocks, unblocks, sets, if_false]
              rfl

end Placed

/-! ## The values that are exchanged -/

/-- `sys_rt_sigprocmask`, `sys_rt_sigaction` and `sys_sigaltstack` make the new
value of what the input held when the call was made and store the old value,
exactly if what storing the old value leaves in the input is as good as that;
and a failing one never changes the value in the kernel. -/
theorem signal_buffers_exchanged_iff {Action KernelSigaction : Type}
    (crates : ActionCrates Action KernelSigaction) (memory : UserMemory) :
    (∀ how set oldset sigsetsize blocked,
      ((maskExchange how).UsesInput memory set oldset blocked
          (Buffered.sysRtSigprocmask memory how set oldset sigsetsize blocked) ↔
        (sigsetsize = sigsetBytes →
          (maskExchange how).Unharmed memory set oldset blocked (MaskAlike how blocked))) ∧
      Exchange.KeepsOnError blocked
        (Buffered.sysRtSigprocmask memory how set oldset sigsetsize blocked)) ∧
    (∀ signo act oldact sigsetsize actions,
      (((Buffered.sysRtSigaction crates memory signo act oldact sigsetsize actions).1 = .ok () →
          ∃ number, actionSigno signo sigsetsize = .ok number ∧
            (actionExchange crates number).UsesInput memory act oldact actions
              (Buffered.sysRtSigaction crates memory signo act oldact sigsetsize actions)) ↔
        ∀ number, actionSigno signo sigsetsize = .ok number →
          (actionExchange crates number).Unharmed memory act oldact actions (ActionAlike crates)) ∧
      Exchange.KeepsOnError actions
        (Buffered.sysRtSigaction crates memory signo act oldact sigsetsize actions)) ∧
    ∀ ss oldSs stack,
      ((stackExchange memory).UsesInput memory ss oldSs stack
          (Buffered.sysSigaltstack memory ss oldSs stack) ↔
        (stackExchange memory).Unharmed memory ss oldSs stack
          fun found given => Usable memory found → found = given) ∧
      Exchange.KeepsOnError stack (Buffered.sysSigaltstack memory ss oldSs stack) := by
  refine ⟨?_, ?_, ?_⟩
  · intro how set oldset sigsetsize blocked
    exact ⟨Buffered.sysRtSigprocmask_usesInput_iff how set oldset sigsetsize blocked,
        Buffered.sysRtSigprocmask_keepsOnError how set oldset sigsetsize blocked⟩
  · intro signo act oldact sigsetsize actions
    exact ⟨Buffered.sysRtSigaction_usesInput_iff signo act oldact sigsetsize actions,
        Buffered.sysRtSigaction_keepsOnError signo act oldact sigsetsize actions⟩
  · intro ss oldSs stack
    exact ⟨Buffered.sysSigaltstack_usesInput_iff ss oldSs stack, Exchange.run_keepsOnError⟩

/-- Accessible memory with the mask 2 at `0x1000`. -/
def maskMemory : UserMemory where
  bytes addr := if addr = 0x1000 then 2 else 0
  check _ _ _ := .ok ()

/-- With one buffer for both, the mask stays 1. -/
theorem sysRtSigprocmask_aliased :
    (Buffered.sysRtSigprocmask maskMemory sigSetmask 0x1000 0x1000 8 1).1 = .ok () ∧
      (Buffered.sysRtSigprocmask maskMemory sigSetmask 0x1000 0x1000 8 1).2.1 = 1 ∧
      ¬ (maskExchange sigSetmask).UsesInput maskMemory 0x1000 0x1000 1
        (Buffered.sysRtSigprocmask maskMemory sigSetmask 0x1000 0x1000 8 1) := by
  have succeeds :
      (Buffered.sysRtSigprocmask maskMemory sigSetmask 0x1000 0x1000 8 1).1 = .ok () := by
    decide +kernel
  have stays : (Buffered.sysRtSigprocmask maskMemory sigSetmask 0x1000 0x1000 8 1).2.1 = 1 := by
    decide +kernel
  refine ⟨succeeds, stays, ?_⟩
  intro usesInput
  have updated := usesInput.fromInput succeeds (by decide)
  rw [stays] at updated
  revert updated
  decide +kernel

end Vegar.Task
