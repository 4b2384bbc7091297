import Mathlib.Data.List.Sort
import Vegar.Task.Kill
import Vegar.Task.SignalMask

/-!
# Who sent a signal

All calls of `api/src/imp/signal.rs` that send a signal, over runs in which
tasks are born and die.  `sys_rt_sigqueueinfo` and `sys_rt_tgsigqueueinfo`
take the information from the caller, and `make_queue_signal_info` refuses the
codes that speak for others.
-/

namespace Vegar.Task

open Vegar.Lib

def siKernel : Int := 0x80

/-! ## Signals with information of the caller -/

namespace SignalEnv

variable (env : SignalEnv)

def callerPid : Nat := env.tables.processes.keyOf (env.tables.chain env.current).process

/-- `make_queue_signal_info`, with what reading the record of the caller
gives. -/
def makeQueueSignalInfo (tgid signo : BitVec 32) (sig : Except (Fault LinuxError) SignalInfo) :
    Except (Fault LinuxError) SignalInfo := do
  let signo ← (parseSigno signo.toNat).mapError .err
  let sig ← sig
  let sig := { sig with signo := signo }
  if env.callerPid ≠ tgid.toNat ∧ (0 ≤ sig.code ∨ sig.code = siTkill) then
    throw (.err .EPERM)
  return sig

def withQueueInfo (tgid signo : BitVec 32) (sig : Except (Fault LinuxError) SignalInfo)
    (sigsetsize : Nat) (deliver : SignalInfo → KillResult) : KillResult :=
  if sigsetsize ≠ sigsetBytes then (.error (.err .EINVAL), [])
  else
    match env.makeQueueSignalInfo tgid signo sig with
    | .error fault => (.error fault, [])
    | .ok sig => deliver sig

/-- `send_signal_process` to the process that was looked up. -/
def deliverProcess (found : LinuxResult Nat) (sig : SignalInfo) :
    KillResult :=
  match found with
  | .error error => (.error (.err error), [])
  | .ok proc =>
      match env.sendSignalProcess proc sig with
      | (.error error, sent) => (.error (.err error), sent)
      | (.ok _, sent) => (.ok 0, sent)

def sysRtSigqueueinfo (tgid signo : BitVec 32) (sig : Except (Fault LinuxError) SignalInfo)
    (sigsetsize : Nat) : KillResult :=
  env.withQueueInfo tgid signo sig sigsetsize
    (env.deliverProcess (env.tables.getProcess tgid.toNat))

def sysRtTgsigqueueinfo (tgid tid signo : BitVec 32)
    (sig : Except (Fault LinuxError) SignalInfo) (sigsetsize : Nat) :
    KillResult :=
  env.withQueueInfo tgid signo sig sigsetsize (env.deliverThread (env.findThreadInGroup tgid tid))

end SignalEnv

inductive SignalCall where
  | kill (pid signo : BitVec 32)
  | tkill (tid signo : BitVec 32)
  | tgkill (tgid tid signo : BitVec 32)
  | sigqueueinfo (tgid signo : BitVec 32)
      (sig : Except (Fault LinuxError) SignalInfo) (sigsetsize : Nat)
  | tgsigqueueinfo (tgid tid signo : BitVec 32)
      (sig : Except (Fault LinuxError) SignalInfo) (sigsetsize : Nat)

def SignalEnv.run (env : SignalEnv) : SignalCall → KillResult
  | .kill pid signo => env.sysKill pid signo
  | .tkill tid signo => env.sysTkill tid signo
  | .tgkill tgid tid signo => env.sysTgkill tgid tid signo
  | .sigqueueinfo tgid signo sig sigsetsize =>
      env.sysRtSigqueueinfo tgid signo sig sigsetsize
  | .tgsigqueueinfo tgid tid signo sig sigsetsize =>
      env.sysRtTgsigqueueinfo tgid tid signo sig sigsetsize

/-! ## Runs -/

structure SignalData where
  hasThreadData : Nat → Bool
  hasProcessData : Nat → Bool
  isInit : Nat → Bool

namespace TaskTables

def groupMembers (tables : TaskTables) (group : Nat) : List Nat :=
  (List.range tables.processes.objects.length).filter fun process =>
    tables.processes.isAlive process && tables.processes.ownerOf process == group

/-- `processes`: the values of the process table, in the order of the keys. -/
def listed (tables : TaskTables) : List Nat :=
  ((List.range tables.processes.objects.length).filter fun process =>
      tables.processes.get (tables.processes.keyOf process) == some process).mergeSort
    fun left right =>
      decide (tables.processes.keyOf left ≤ tables.processes.keyOf right)

theorem mem_groupMembers {tables : TaskTables} {group process : Nat} :
    process ∈ tables.groupMembers group ↔
      tables.processes.isAlive process = true ∧ tables.processes.ownerOf process = group := by
  rw [groupMembers, List.mem_filter, List.mem_range, Bool.and_eq_true, beq_iff_eq]
  refine and_iff_right_of_imp ?_
  intro member
  obtain ⟨object, found, -⟩ := Registry.isAlive_iff.mp member.1
  exact (List.getElem?_eq_some_iff.mp found).1

theorem lookup_eq_ok_iff {table : Registry} {id number : Nat} :
    lookup table id = .ok number ↔ table.get id = some number := by
  unfold lookup
  cases table.get id with
  | none => simp
  | some found => simp

theorem mem_listed {tables : TaskTables} {process : Nat} :
    process ∈ tables.listed ↔ tables.getProcess (tables.processes.keyOf process) = .ok process := by
  rw [listed, List.mem_mergeSort, List.mem_filter, List.mem_range,
    beq_iff_eq, getProcess, lookup_eq_ok_iff]
  refine and_iff_right_of_imp ?_
  intro got
  obtain ⟨object, found, -⟩ := (Registry.alive_of_get got).2
  exact (List.getElem?_eq_some_iff.mp found).1

end TaskTables

def signalEnv (data : SignalData) (tables : TaskTables) (thread : Nat) : SignalEnv where
  tables := tables
  hasThreadData := data.hasThreadData
  hasProcessData := data.hasProcessData
  isInit := data.isInit
  members := tables.groupMembers
  processes := tables.listed
  current := thread
  mem_members _ _ := TaskTables.mem_groupMembers
  mem_processes _ := TaskTables.mem_listed

inductive Sender where
  | kernel
  | caller (thread : Nat) (call : SignalCall)

structure Posted where
  sender : Sender
  recipient : Recipient
  info : SignalInfo

structure SendWorld where
  tasks : TaskTableState
  posted : List Posted

/-- The tasks change, a thread makes a call, or the kernel sends a signal of
its own: `do_exit` tells the parent and kills the other threads. -/
inductive SendAction where
  | tasks (action : TaskTableAction)
  | call (thread : Nat) (call : SignalCall)
  | kernel (recipient : Recipient) (signo : Nat)

def sendNext (data : SignalData) (world : SendWorld) : SendAction → Option SendWorld
  | .tasks action =>
      (taskTableNext world.tasks action).map fun tasks =>
        { world with tasks := tasks }
  | .call thread call =>
      if thread ∈ world.tasks.added ∧ world.tasks.tables.threads.isAlive thread = true then
        let sent := (signalEnv data world.tasks.tables thread).run call
        if sent.1 = .error .panicked then none
        else
          some
            { world with
              posted := world.posted ++ sent.2.map fun sending =>
                ⟨.caller thread call, sending.recipient, sending.info⟩ }
      else none
  | .kernel recipient signo =>
      if 1 ≤ signo ∧ signo ≤ 64 then
        some
          { world with
            posted := world.posted ++ [⟨.kernel, recipient, ⟨signo, siKernel⟩⟩] }
      else none

def sendMachine (data : SignalData) : Machine SendWorld SendAction where
  start world := world = ⟨⟨.new, []⟩, []⟩
  next := sendNext data

/-! ## What the recipient can rely on -/

section Truth

variable (data : SignalData) (tables : TaskTables)

def BelongsTo (process : Nat) : Recipient → Prop
  | .process number => number = process
  | .thread number => tables.threads.HasOwner number process

def IsThreadOf (tgid tid : BitVec 32) (recipient : Recipient) : Prop :=
  ∃ thread process, recipient = .thread thread ∧ tables.threads.HasKey thread tid.toNat ∧
    tables.threads.HasOwner thread process ∧
    tables.processes.HasKey process tgid.toNat

def Named (caller : Nat) (recipient : Recipient) : SignalCall → Prop
  | .kill pid _ =>
      ∃ process, recipient = .process process ∧
        if 1 ≤ pid.toInt then tables.processes.HasKey process pid.toNat
        else if pid = 0 then
          ∃ own group, tables.threads.HasOwner caller own ∧ tables.processes.HasOwner own group ∧
            tables.processes.HasOwner process group
        else if pid = -1 then data.isInit process = false
        else
          ∃ group, tables.processes.HasOwner process group ∧ tables.groups.HasKey group (-pid).toNat
  | .tkill tid _ =>
      ∃ thread, recipient = .thread thread ∧ tables.threads.HasKey thread tid.toNat
  | .tgkill tgid tid _ => IsThreadOf tables tgid tid recipient
  | .sigqueueinfo tgid _ _ _ =>
      ∃ process, recipient = .process process ∧ tables.processes.HasKey process tgid.toNat
  | .tgsigqueueinfo tgid tid _ _ _ => IsThreadOf tables tgid tid recipient

/-- What the code says of the sender: the kernel, `sys_kill`, `sys_tkill` or
`sys_tgkill`, or a call with information of the caller, which can use a code
of the others only inside its own process. -/
def CodeTells (posted : Posted) : Prop :=
  match posted.sender with
  | .kernel => posted.info.code = siKernel
  | .caller _ (.kill _ _) => posted.info.code = siUser
  | .caller _ (.tkill _ _) => posted.info.code = siTkill
  | .caller _ (.tgkill _ _ _) => posted.info.code = siTkill
  | .caller thread (.sigqueueinfo _ _ _ _) =>
      0 ≤ posted.info.code ∨ posted.info.code = siTkill →
        ∃ own, tables.threads.HasOwner thread own ∧ BelongsTo tables own posted.recipient
  | .caller thread (.tgsigqueueinfo _ _ _ _ _) =>
      0 ≤ posted.info.code ∨ posted.info.code = siTkill →
        ∃ own, tables.threads.HasOwner thread own ∧ BelongsTo tables own posted.recipient

structure Truthful (posted : Posted) : Prop where
  number : 1 ≤ posted.info.signo ∧ posted.info.signo ≤ 64
  named :
    ∀ thread call, posted.sender = .caller thread call →
      Named data tables thread posted.recipient call
  code : CodeTells tables posted

end Truth

/-! ## One call -/

section Call

theorem bounds_of_parseSigno {signo number : Nat} (parsed : parseSigno signo = .ok number) :
    1 ≤ number ∧ number ≤ 64 := by
  unfold parseSigno at parsed
  dsimp only at parsed
  split at parsed
  · next valid =>
      obtain rfl := Except.ok.inj parsed
      exact valid
  · cases parsed

theorem sent_of_withSiginfo {code : Int} {deliver : SignalInfo → KillResult} {signo : BitVec 32}
    {sending : Sending}
    (isSent : sending ∈ (withSiginfo code deliver signo).2) :
    ∃ number, (1 ≤ number ∧ number ≤ 64) ∧ sending ∈ (deliver ⟨number, code⟩).2 := by
  unfold withSiginfo makeSiginfo at isSent
  by_cases zero : signo = 0
  · rw [if_pos zero] at isSent
    cases isSent
  · rw [if_neg zero] at isSent
    cases parsed : parseSigno signo.toNat with
    | error error =>
        rw [parsed] at isSent
        cases isSent
    | ok number =>
        rw [parsed] at isSent
        exact ⟨number, bounds_of_parseSigno parsed, isSent⟩

namespace SignalEnv

variable {env : SignalEnv} {sig : SignalInfo} {sending : Sending}

theorem sent_of_sendSignalProcess
    {proc : Nat} (isSent : sending ∈ (env.sendSignalProcess proc sig).2) :
    sending = ⟨.process proc, sig⟩ := by
  unfold sendSignalProcess at isSent
  split at isSent
  · exact List.mem_singleton.mp isSent
  · cases isSent

theorem sent_of_sendSignalThread {thr : Nat} (isSent : sending ∈ (env.sendSignalThread thr sig).2) :
    sending = ⟨.thread thr, sig⟩ := by
  unfold sendSignalThread at isSent
  split at isSent
  · exact List.mem_singleton.mp isSent
  · cases isSent

theorem sent_of_deliverThread {found : LinuxResult Nat}
    (isSent : sending ∈ (env.deliverThread found sig).2) :
    ∃ thr, found = .ok thr ∧ sending = ⟨.thread thr, sig⟩ := by
  cases found with
  | error error => cases isSent
  | ok thr =>
      refine ⟨thr, rfl, @sent_of_sendSignalThread env sig sending thr ?_⟩
      revert isSent
      dsimp only [deliverThread]
      rcases env.sendSignalThread thr sig with ⟨_ | _, sent⟩ <;> exact id

theorem sent_of_deliverProcess {found : LinuxResult Nat}
    (isSent : sending ∈ (env.deliverProcess found sig).2) :
    ∃ proc, found = .ok proc ∧ sending = ⟨.process proc, sig⟩ := by
  cases found with
  | error error => cases isSent
  | ok proc =>
      refine ⟨proc, rfl, @sent_of_sendSignalProcess env sig sending proc ?_⟩
      revert isSent
      dsimp only [deliverProcess]
      rcases env.sendSignalProcess proc sig with ⟨_ | _, sent⟩ <;> exact id

/-- Information of the caller is sent with a number of its own, and with a
code of the other calls only to the pid of the caller. -/
theorem sent_of_withQueueInfo
    {tgid signo : BitVec 32} {given : Except (Fault LinuxError) SignalInfo}
    {sigsetsize : Nat} {deliver : SignalInfo → KillResult}
    (isSent : sending ∈ (env.withQueueInfo tgid signo given sigsetsize deliver).2) :
    ∃ info, (1 ≤ info.signo ∧ info.signo ≤ 64) ∧
      (0 ≤ info.code ∨ info.code = siTkill → env.callerPid = tgid.toNat) ∧
      sending ∈ (deliver info).2 := by
  unfold withQueueInfo at isSent
  split at isSent
  · cases isSent
  · split at isSent
    · cases isSent
    · next info made =>
        obtain ⟨number, parsed, made⟩ := bind_eq_ok_iff.mp made
        obtain ⟨record, -, made⟩ := bind_eq_ok_iff.mp made
        have isNumber : parseSigno signo.toNat = .ok number := by
          cases isParsed : parseSigno signo.toNat with
          | error error =>
              rw [isParsed] at parsed
              cases parsed
          | ok other =>
              rw [isParsed] at parsed
              exact congrArg _ (Except.ok.inj parsed)
        by_cases foreign : env.callerPid ≠ tgid.toNat ∧ (0 ≤ record.code ∨ record.code = siTkill)
        · simp only [if_pos foreign] at made
          cases made
        · simp only [if_neg foreign] at made
          obtain rfl := Except.ok.inj made
          refine ⟨_, bounds_of_parseSigno isNumber, ?_, isSent⟩
          intro speaks
          by_contra other
          exact foreign ⟨other, speaks⟩

theorem findThreadInGroup_eq_ok {tgid tid : BitVec 32} {thr : Nat}
    (found : env.findThreadInGroup tgid tid = .ok thr) :
    env.tables.getThread tid.toNat = .ok thr ∧
      env.tables.processes.keyOf (env.tables.chain thr).process =
        tgid.toNat := by
  obtain ⟨thread, got, found⟩ := bind_eq_ok_iff.mp found
  by_cases foreign : env.tables.processes.keyOf (env.tables.chain thread).process ≠ tgid.toNat
  · simp only [if_pos foreign] at found
    cases found
  · simp only [if_neg foreign] at found
    obtain rfl := Except.ok.inj found
    exact ⟨got, not_not.mp foreign⟩

end SignalEnv

end Call

section Named

variable {data : SignalData} {tasks : TaskTableState} {caller : Nat}
  {sending : Sending} {sig : SignalInfo}

theorem lookup_spec {table : Registry} {id number : Nat}
    (found : TaskTables.lookup table id = .ok number) :
    table.isAlive number = true ∧ table.HasKey number id :=
  Registry.alive_of_get (TaskTables.lookup_eq_ok_iff.mp found)

theorem sent_of_group {pg : Nat}
    (isSent : sending ∈ ((signalEnv data tasks.tables caller).sendSignalProcessGroup pg sig).2) :
    ∃ process, sending = ⟨.process process, sig⟩ ∧
      tasks.tables.processes.HasOwner process pg := by
  rw [SignalEnv.sendSignalProcessGroup, SignalEnv.sendToAll_eq] at isSent
  obtain ⟨process, receives, rfl⟩ := List.mem_map.mp isSent
  have member := (List.mem_filter.mp receives).1
  obtain ⟨alive, isGroup⟩ := TaskTables.mem_groupMembers.mp member
  refine ⟨process, rfl, ?_⟩
  rw [← isGroup]
  exact Registry.hasOwner_ownerOf alive

theorem sent_of_killAll
    (isSent : sending ∈
      ((signalEnv data tasks.tables caller).killAll sig tasks.tables.listed 0).2) :
    ∃ process, sending = ⟨.process process, sig⟩ ∧ data.isInit process = false := by
  rw [SignalEnv.killAll_eq] at isSent
  obtain ⟨process, reached, rfl⟩ := List.mem_map.mp isSent
  have other := (List.mem_filter.mp (List.takeWhile_subset _ reached)).2
  exact ⟨process, rfl, Bool.not_eq_true' _ |>.mp other⟩

section Holds

variable (holds : TaskTableInvariant tasks) (alive : tasks.tables.threads.isAlive caller = true)

include holds alive

theorem named_of_deliverKill {pid signo : BitVec 32}
    (isSent : sending ∈ ((signalEnv data tasks.tables caller).deliverKill pid sig).2) :
    sending.info = sig ∧ Named data tasks.tables caller sending.recipient (.kill pid signo) := by
  unfold Named
  unfold SignalEnv.deliverKill at isSent
  split_ifs at isSent with single ownGroup everyone least
  · simp only [if_pos single]
    split at isSent
    · cases isSent
    · next proc found =>
        have isSending : sending = ⟨.process proc, sig⟩ := by
          apply @SignalEnv.sent_of_sendSignalProcess (signalEnv data tasks.tables caller)
          revert isSent
          rcases (signalEnv data tasks.tables caller).sendSignalProcess proc
            sig with ⟨_ | _, sent⟩ <;> exact id
        rw [isSending]
        exact ⟨rfl, proc, rfl, (lookup_spec found).2⟩
  · simp only [if_neg single, if_pos ownGroup]
    obtain ⟨process, rfl, inGroup⟩ := sent_of_group isSent
    have ownAlive := (holds.live caller alive).1
    exact ⟨rfl, process, rfl, _, _, Registry.hasOwner_ownerOf alive,
        Registry.hasOwner_ownerOf ownAlive, inGroup⟩
  · simp only [if_neg single, if_neg ownGroup, if_pos everyone]
    obtain ⟨process, rfl, notFirst⟩ := sent_of_killAll isSent
    exact ⟨rfl, process, rfl, notFirst⟩
  · cases isSent
  · simp only [if_neg single, if_neg ownGroup, if_neg everyone]
    split at isSent
    · cases isSent
    · next pg found =>
        obtain ⟨process, rfl, inGroup⟩ := sent_of_group isSent
        exact ⟨rfl, process, rfl, pg, inGroup, (lookup_spec found).2⟩

omit alive in
theorem isThreadOf_of_found {tgid tid : BitVec 32} {thr : Nat}
    (found : (signalEnv data tasks.tables caller).findThreadInGroup tgid tid = .ok thr) :
    IsThreadOf tasks.tables tgid tid (.thread thr) ∧ tasks.tables.threads.isAlive thr = true := by
  obtain ⟨got, isGroup⟩ := SignalEnv.findThreadInGroup_eq_ok found
  obtain ⟨threadAlive, isTid⟩ := lookup_spec got
  have processAlive := (holds.live thr threadAlive).1
  have isPid := Registry.hasKey_keyOf processAlive
  rw [show tasks.tables.processes.keyOf (tasks.tables.chain thr).process =
    tgid.toNat from isGroup] at isPid
  exact ⟨⟨thr, _, rfl, isTid, Registry.hasOwner_ownerOf threadAlive, isPid⟩, threadAlive⟩

theorem eq_own_of_callerPid {tgid : BitVec 32} {process : Nat}
    (isPid : (signalEnv data tasks.tables caller).callerPid = tgid.toNat)
    (processAlive : tasks.tables.processes.isAlive process = true)
    (isKey : tasks.tables.processes.HasKey process tgid.toNat) :
    process = tasks.tables.threads.ownerOf caller := by
  have ownAlive := (holds.live caller alive).1
  have ownKey := Registry.hasKey_keyOf ownAlive
  rw [show tasks.tables.processes.keyOf (tasks.tables.chain caller).process =
    tgid.toNat from isPid] at ownKey
  exact Registry.eq_of_hasKey processAlive ownAlive isKey ownKey

omit holds alive in
theorem truthful_of_named {call : SignalCall}
    (number : 1 ≤ sending.info.signo ∧ sending.info.signo ≤ 64)
    (named : Named data tasks.tables caller sending.recipient call)
    (code : CodeTells tasks.tables ⟨.caller caller call, sending.recipient, sending.info⟩) :
    Truthful data tasks.tables ⟨.caller caller call, sending.recipient, sending.info⟩ := by
  refine ⟨number, ?_, code⟩
  rintro thread other ⟨⟩
  exact named

theorem truthful_of_run {call : SignalCall}
    (isSent : sending ∈ ((signalEnv data tasks.tables caller).run call).2) :
    Truthful data tasks.tables ⟨.caller caller call, sending.recipient, sending.info⟩ := by
  have ownProcess := Registry.hasOwner_ownerOf alive
  cases call with
  | kill pid signo =>
      obtain ⟨number, isNumber, isSent⟩ := sent_of_withSiginfo isSent
      obtain ⟨isInfo, named⟩ :=
        @named_of_deliverKill data tasks caller sending _ holds alive pid signo isSent
      refine truthful_of_named ?_ named (congrArg SignalInfo.code isInfo)
      rw [isInfo]
      exact isNumber
  | tkill tid signo =>
      obtain ⟨number, isNumber, isSent⟩ := sent_of_withSiginfo isSent
      obtain ⟨thr, found, rfl⟩ := SignalEnv.sent_of_deliverThread isSent
      exact truthful_of_named isNumber ⟨thr, rfl, (lookup_spec found).2⟩ rfl
  | tgkill tgid tid signo =>
      obtain ⟨number, isNumber, isSent⟩ := sent_of_withSiginfo isSent
      obtain ⟨thr, found, rfl⟩ := SignalEnv.sent_of_deliverThread isSent
      exact truthful_of_named isNumber (isThreadOf_of_found holds found).1 rfl
  | sigqueueinfo tgid signo given sigsetsize =>
      obtain ⟨info, isNumber, own, isSent⟩ := SignalEnv.sent_of_withQueueInfo isSent
      obtain ⟨proc, found, rfl⟩ := SignalEnv.sent_of_deliverProcess isSent
      obtain ⟨procAlive, isPid⟩ := lookup_spec found
      refine truthful_of_named isNumber ⟨proc, rfl, isPid⟩ ?_
      intro speaks
      exact ⟨_, ownProcess, eq_own_of_callerPid holds alive (own speaks) procAlive isPid⟩
  | tgsigqueueinfo tgid tid signo given sigsetsize =>
      obtain ⟨info, isNumber, own, isSent⟩ := SignalEnv.sent_of_withQueueInfo isSent
      obtain ⟨thr, found, rfl⟩ := SignalEnv.sent_of_deliverThread isSent
      obtain ⟨isThread, thrAlive⟩ := isThreadOf_of_found holds found
      refine truthful_of_named isNumber isThread ?_
      intro speaks
      have thrProcess := (holds.live thr thrAlive).1
      have thrPid := Registry.hasKey_keyOf thrProcess
      rw [show tasks.tables.processes.keyOf (tasks.tables.chain thr).process =
        tgid.toNat from (SignalEnv.findThreadInGroup_eq_ok found).2] at thrPid
      refine ⟨_, ownProcess, ?_⟩
      rw [← eq_own_of_callerPid holds alive (own speaks) thrProcess thrPid]
      exact Registry.hasOwner_ownerOf thrAlive

end Holds

end Named

/-! ## Later states -/

structure TaskTables.Preserved (before after : TaskTables) : Prop where
  threads : Registry.Preserves before.threads after.threads
  processes : Registry.Preserves before.processes after.processes
  groups : Registry.Preserves before.groups after.groups

section Later

variable {data : SignalData} {before after : TaskTables}

theorem IsThreadOf.later (preserved : before.Preserved after) {tgid tid : BitVec 32}
    {recipient : Recipient}
    (isThread : IsThreadOf before tgid tid recipient) :
    IsThreadOf after tgid tid recipient := by
  obtain ⟨thread, process, isRecipient, isTid, owned, isPid⟩ := isThread
  exact ⟨thread, process, isRecipient, preserved.threads.hasKey isTid,
      preserved.threads.hasOwner owned, preserved.processes.hasKey isPid⟩

theorem Named.later (preserved : before.Preserved after) {caller : Nat}
    {recipient : Recipient} {call : SignalCall}
    (named : Named data before caller recipient call) :
    Named data after caller recipient call := by
  cases call with
  | kill pid signo =>
      obtain ⟨process, isRecipient, named⟩ := named
      refine ⟨process, isRecipient, ?_⟩
      split_ifs at named ⊢
      · exact preserved.processes.hasKey named
      · obtain ⟨own, group, isOwn, ownIn, otherIn⟩ := named
        exact ⟨own, group, preserved.threads.hasOwner isOwn, preserved.processes.hasOwner ownIn,
            preserved.processes.hasOwner otherIn⟩
      · exact named
      · obtain ⟨group, inGroup, isPgid⟩ := named
        exact ⟨group, preserved.processes.hasOwner inGroup, preserved.groups.hasKey isPgid⟩
  | tkill tid signo =>
      obtain ⟨thread, isRecipient, isTid⟩ := named
      exact ⟨thread, isRecipient, preserved.threads.hasKey isTid⟩
  | tgkill tgid tid signo => exact IsThreadOf.later preserved named
  | sigqueueinfo tgid signo given sigsetsize =>
      obtain ⟨process, isRecipient, isPid⟩ := named
      exact ⟨process, isRecipient, preserved.processes.hasKey isPid⟩
  | tgsigqueueinfo tgid tid signo given sigsetsize =>
      exact IsThreadOf.later preserved named

theorem belongs_later (preserved : before.Preserved after) {thread : Nat} {recipient : Recipient}
    (belongs : ∃ own, before.threads.HasOwner thread own ∧ BelongsTo before own recipient) :
    ∃ own, after.threads.HasOwner thread own ∧
      BelongsTo after own recipient := by
  obtain ⟨own, isOwn, belongs⟩ := belongs
  refine ⟨own, preserved.threads.hasOwner isOwn, ?_⟩
  cases recipient with
  | process number => exact belongs
  | thread number => exact preserved.threads.hasOwner belongs

theorem CodeTells.later (preserved : before.Preserved after) {posted : Posted}
    (tells : CodeTells before posted) : CodeTells after posted := by
  obtain ⟨sender, recipient, info⟩ := posted
  cases sender with
  | kernel => exact tells
  | caller thread call =>
      cases call with
      | kill pid signo => exact tells
      | tkill tid signo => exact tells
      | tgkill tgid tid signo => exact tells
      | sigqueueinfo tgid signo given sigsetsize =>
          exact fun speaks => belongs_later preserved (tells speaks)
      | tgsigqueueinfo tgid tid signo given sigsetsize =>
          exact fun speaks => belongs_later preserved (tells speaks)

theorem Truthful.later (preserved : before.Preserved after) {posted : Posted}
    (truthful : Truthful data before posted) :
    Truthful data after posted where
  number := truthful.number
  named thread call isSender := (truthful.named thread call isSender).later preserved
  code := truthful.code.later preserved

open Registry in
theorem preserved_of_next {source target : TaskTableState} {action : TaskTableAction}
    (holds : TaskTableInvariant source)
    (stepped : taskTableNext source action = some target) :
    source.tables.Preserved target.tables := by
  cases action with
  | newSession sid =>
      obtain ⟨free, stepped⟩ := Option.dite_none_right_eq_some.mp stepped
      cases stepped
      exact ⟨preserves_refl, preserves_refl, preserves_refl⟩
  | newGroup pgid session =>
      simp only [taskTableNext, Option.dite_none_right_eq_some,
        Option.ite_none_right_eq_some] at stepped
      obtain ⟨free, -, ⟨⟩⟩ := stepped
      exact ⟨preserves_refl, preserves_refl, preserves_create free⟩
  | newProcess pid group =>
      simp only [taskTableNext, Option.dite_none_right_eq_some,
        Option.ite_none_right_eq_some] at stepped
      obtain ⟨free, -, ⟨⟩⟩ := stepped
      exact ⟨preserves_refl, preserves_create free, preserves_refl⟩
  | newThread tid process =>
      simp only [taskTableNext, Option.dite_none_right_eq_some,
        Option.ite_none_right_eq_some] at stepped
      obtain ⟨free, -, ⟨⟩⟩ := stepped
      exact ⟨preserves_create free, preserves_refl, preserves_refl⟩
  | addThread thread =>
      simp only [taskTableNext, Option.ite_none_right_eq_some] at stepped
      obtain ⟨alive, ⟨⟩⟩ := stepped
      have adds := (TaskTables.addThreadToTable_spec holds.closed alive (holds.live thread alive)).1
      exact ⟨adds.threads.preserves, adds.processes.preserves, adds.groups.preserves⟩
  | threadDies thread =>
      cases stepped
      exact ⟨preserves_kill, preserves_refl, preserves_refl⟩
  | processDies process =>
      obtain ⟨-, stepped⟩ := Option.ite_none_left_eq_some.mp stepped
      cases stepped
      exact ⟨preserves_refl, preserves_kill, preserves_refl⟩
  | groupDies group =>
      obtain ⟨-, stepped⟩ := Option.ite_none_left_eq_some.mp stepped
      cases stepped
      exact ⟨preserves_refl, preserves_refl, preserves_kill⟩
  | sessionDies session =>
      obtain ⟨-, stepped⟩ := Option.ite_none_left_eq_some.mp stepped
      cases stepped
      exact ⟨preserves_refl, preserves_refl, preserves_refl⟩

end Later

/-! ## Whole runs -/

structure SendersKnown (data : SignalData) (world : SendWorld) : Prop where
  tasks : TaskTableInvariant world.tasks
  truthful : ∀ posted ∈ world.posted, Truthful data world.tasks.tables posted

theorem SendersKnown.step {data : SignalData} {source target : SendWorld} {action : SendAction}
    (known : SendersKnown data source)
    (stepped : sendNext data source action = some target) :
    SendersKnown data target := by
  cases action with
  | tasks action =>
      obtain ⟨tasks, tasksStepped, rfl⟩ := Option.map_eq_some_iff.mp stepped
      have preserved := preserved_of_next known.tasks tasksStepped
      refine ⟨known.tasks.step tasksStepped, ?_⟩
      intro posted isPosted
      exact (known.truthful posted isPosted).later preserved
  | call thread call =>
      obtain ⟨⟨-, alive⟩, stepped⟩ := Option.ite_none_right_eq_some.mp stepped
      obtain ⟨-, stepped⟩ := Option.ite_none_left_eq_some.mp stepped
      cases stepped
      refine ⟨known.tasks, ?_⟩
      intro posted isPosted
      rcases List.mem_append.mp isPosted with old | new
      · exact known.truthful posted old
      · obtain ⟨sending, isSent, rfl⟩ := List.mem_map.mp new
        exact truthful_of_run known.tasks alive isSent
  | kernel recipient signo =>
      obtain ⟨isNumber, stepped⟩ := Option.ite_none_right_eq_some.mp stepped
      cases stepped
      refine ⟨known.tasks, ?_⟩
      intro posted isPosted
      rcases List.mem_append.mp isPosted with old | new
      · exact known.truthful posted old
      · obtain rfl := List.mem_singleton.mp new
        refine ⟨isNumber, ?_, rfl⟩
        rintro thread call ⟨⟩

theorem SendersKnown.of_reachable {data : SignalData} {world : SendWorld}
    (reached : (sendMachine data).Reachable world) :
    SendersKnown data world := by
  apply Machine.Reachable.invariant _ _ reached
  · rintro start rfl
    refine ⟨TaskTableInvariant.initial, ?_⟩
    intro posted isPosted
    cases isPosted
  · intro source action target _ known stepped
    exact known.step stepped

/-- Over every run in which tasks are born, enter the tables, send signals and
die, every signal handed over has a valid number, went to the process or
thread that the arguments of the call name, and carries a code that tells its
sender: a code from zero on, or that of `tkill`, comes from the kernel or from
the call the code stands for, or from the recipient's own process. -/
theorem signal_code_tells_sender (data : SignalData) (world : SendWorld)
    (reached : (sendMachine data).Reachable world) (posted : Posted)
    (isPosted : posted ∈ world.posted) :
    Truthful data world.tasks.tables posted :=
  (SendersKnown.of_reachable reached).truthful posted isPosted

def twoProcesses : List SendAction := [.tasks (.newSession 1), .tasks (.newGroup 1 0),
    .tasks (.newProcess 1 0), .tasks (.newThread 1 0),
    .tasks (.addThread 0), .tasks (.newProcess 2 0),
    .tasks (.newThread 2 1), .tasks (.addThread 1)]

def forgedSignal : List SendAction := [.call 1 (.sigqueueinfo 1 15 (.ok ⟨15, siKernel⟩) 8),
    .call 1 (.sigqueueinfo 1 15 (.ok ⟨15, -1⟩) 8)]

theorem signal_code_tells_sender_refused :
    ∃ world,
      (sendMachine ⟨fun _ => true, fun _ => true, fun _ => false⟩).Reachable world ∧
        world.posted.map (fun posted => (posted.recipient, posted.info)) =
          [(.process 0, ⟨15, -1⟩)] ∧
        ∀ posted ∈ world.posted,
          Truthful ⟨fun _ => true, fun _ => true, fun _ => false⟩
            world.tasks.tables posted := by
  obtain ⟨world, reached, observed⟩ :=
    (sendMachine ⟨fun _ => true, fun _ => true, fun _ => false⟩).exists_reachable_of_exec
      (twoProcesses ++ forgedSignal)
      (fun world =>
        decide
          (world.posted.map (fun posted => (posted.recipient, posted.info)) =
            [(.process 0, ⟨15, -1⟩)]))
      rfl (by decide +kernel)
  exact ⟨world, reached, of_decide_eq_true observed, fun posted isPosted =>
        signal_code_tells_sender _ world reached posted isPosted⟩

end Vegar.Task
