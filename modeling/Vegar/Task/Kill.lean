import Mathlib.Data.List.TakeWhile
import Vegar.Task.ExecAddresses
import Vegar.Task.TaskTable

/-!
# Sending signals

`sys_kill`, `sys_tkill` and `sys_tgkill` of `api/src/imp/signal.rs`, with the
functions of `api/src/signal.rs` they send by.  `parse_signo` keeps the low
eight bits of the number only, and a call with the number zero returns before
it looks for its target.
-/

namespace Vegar.Task

open Vegar.Lib

/-! ## Sending -/

def siUser : Int := 0

def siTkill : Int := -6

/-- `SignalInfo::new`. -/
structure SignalInfo where
  signo : Nat
  code : Int
  deriving DecidableEq, Repr

inductive Recipient where
  | thread (number : Nat)
  | process (number : Nat)
  deriving DecidableEq, Repr

/-- One call of `send_signal` of a signal manager. -/
structure Sending where
  recipient : Recipient
  info : SignalInfo
  deriving DecidableEq, Repr

def sendings (sig : SignalInfo) (processes : List Nat) : List Sending :=
  processes.map fun proc => ⟨.process proc, sig⟩

/-- What the calls look at: the tables, the members of each group, the
processes in their table, which objects carry the data of the kernel, and the
calling thread. -/
structure SignalEnv where
  tables : TaskTables
  hasThreadData : Nat → Bool
  hasProcessData : Nat → Bool
  isInit : Nat → Bool
  members : Nat → List Nat
  processes : List Nat
  current : Nat
  mem_members :
    ∀ group process, process ∈ members group ↔
      tables.processes.isAlive process = true ∧ tables.processes.ownerOf process = group
  mem_processes :
    ∀ process, process ∈ processes ↔
      tables.getProcess (tables.processes.keyOf process) = .ok process

namespace SignalEnv

variable (env : SignalEnv)

/-- `send_signal_thread`. -/
def sendSignalThread (thr : Nat) (sig : SignalInfo) :
    LinuxResult Unit × List Sending :=
  if env.hasThreadData thr then (.ok (), [⟨.thread thr, sig⟩])
  else (.error .EPERM, [])

/-- `send_signal_process`. -/
def sendSignalProcess (proc : Nat) (sig : SignalInfo) :
    LinuxResult Unit × List Sending :=
  if env.hasProcessData proc then (.ok (), [⟨.process proc, sig⟩])
  else (.error .EPERM, [])

/-- The loop of `send_signal_process_group`. -/
def sendToAll (sig : SignalInfo) : List Nat → Nat → Nat × List Sending
  | [], count => (count, [])
  | proc :: rest, count =>
      match env.sendSignalProcess proc sig with
      | (.ok _, sent) =>
          let others := sendToAll sig rest (count + 1)
          (others.1, sent ++ others.2)
      | (.error _, sent) =>
          let others := sendToAll sig rest count
          (others.1, sent ++ others.2)

/-- `send_signal_process_group`. -/
def sendSignalProcessGroup (pg : Nat) (sig : SignalInfo) :
    Nat × List Sending :=
  env.sendToAll sig (env.members pg) 0

/-- The loop of `sys_kill` over all processes. -/
def killAll (sig : SignalInfo) : List Nat → Nat → LinuxResult Nat × List Sending
  | [], count => (.ok count, [])
  | proc :: rest, count =>
      if env.isInit proc then killAll sig rest count
      else
        match env.sendSignalProcess proc sig with
        | (.error error, sent) => (.error error, sent)
        | (.ok _, sent) =>
            let others := killAll sig rest (count + 1)
            (others.1, sent ++ others.2)

def receivers (processes : List Nat) : List Nat := processes.filter env.hasProcessData

/-- The processes that `sys_kill` sends to for the pid -1. -/
def others (processes : List Nat) : List Nat := processes.filter fun proc => !env.isInit proc

theorem sendToAll_eq (sig : SignalInfo) (processes : List Nat) (count : Nat) :
    env.sendToAll sig processes count =
      (count + (env.receivers processes).length, sendings sig (env.receivers processes)) := by
  induction processes generalizing count with
  | nil => rfl
  | cons proc rest ih =>
      by_cases data : env.hasProcessData proc = true
      · have receivesCons : env.receivers (proc :: rest) = proc :: env.receivers rest :=
          List.filter_cons_of_pos data
        rw [sendToAll, sendSignalProcess, if_pos data]
        simp only [ih, receivesCons, List.length_cons,
          sendings, List.map_cons, List.singleton_append]
        rw [Nat.add_right_comm, Nat.add_assoc]
      · have receivesCons : env.receivers (proc :: rest) = env.receivers rest :=
          List.filter_cons_of_neg data
        rw [sendToAll, sendSignalProcess, if_neg data]
        simp only [ih, receivesCons, List.nil_append]

theorem killAll_eq (sig : SignalInfo) (processes : List Nat) (count : Nat) :
    env.killAll sig processes count =
      (if (env.others processes).all env.hasProcessData then
          .ok (count + (env.others processes).length)
        else .error .EPERM,
        sendings sig ((env.others processes).takeWhile env.hasProcessData)) := by
  induction processes generalizing count with
  | nil => rfl
  | cons proc rest ih =>
      by_cases init : env.isInit proc = true
      · have skipped : env.others (proc :: rest) = env.others rest :=
          List.filter_cons_of_neg (by simp [init])
        rw [killAll, if_pos init, skipped]
        exact ih count
      · have kept : env.others (proc :: rest) = proc :: env.others rest :=
          List.filter_cons_of_pos (by simp [init])
        rw [killAll, if_neg init, kept, sendSignalProcess]
        by_cases data : env.hasProcessData proc = true
        · rw [if_pos data]
          simp only [ih, List.all_cons, data, Bool.true_and,
            List.length_cons, List.takeWhile_cons_of_pos data, sendings,
            List.map_cons, List.singleton_append]
          rw [Nat.add_right_comm, Nat.add_assoc]
        · rw [if_neg data, List.takeWhile_cons_of_neg data]
          simp [data, sendings]

variable {env}

theorem takeWhile_others (all : (env.others env.processes).all env.hasProcessData = true) :
    (env.others env.processes).takeWhile env.hasProcessData =
      env.others env.processes :=
  List.takeWhile_eq_self_iff.mpr (List.all_eq_true.mp all)

end SignalEnv

/-! ## The three calls -/

abbrev KillResult := Except (Fault LinuxError) Int × List Sending

/-- `make_siginfo`. -/
def makeSiginfo (signo : BitVec 32) (code : Int) : LinuxResult (Option SignalInfo) :=
  if signo = 0 then .ok none
  else
    match parseSigno signo.toNat with
    | .error error => .error error
    | .ok signo => .ok (some ⟨signo, code⟩)

def withSiginfo (code : Int) (deliver : SignalInfo → KillResult) (signo : BitVec 32) : KillResult :=
  match makeSiginfo signo code with
  | .error error => (.error (.err error), [])
  | .ok none => (.ok 0, [])
  | .ok (some sig) => deliver sig

namespace SignalEnv

variable (env : SignalEnv)

/-- `sys_kill` behind `make_siginfo`.  The negation of the least `i32`
overflows. -/
def deliverKill (pid : BitVec 32) (sig : SignalInfo) : KillResult :=
  if 1 ≤ pid.toInt then
    match env.tables.getProcess pid.toNat with
    | .error error => (.error (.err error), [])
    | .ok proc =>
        match env.sendSignalProcess proc sig with
        | (.error error, sent) => (.error (.err error), sent)
        | (.ok _, sent) => (.ok 1, sent)
  else if pid = 0 then
    let sent := env.sendSignalProcessGroup (env.tables.chain env.current).group sig
    (.ok sent.1, sent.2)
  else if pid = -1 then
    let sent := env.killAll sig env.processes 0
    ((sent.1.mapError .err).map fun count => (count : Int), sent.2)
  else if pid = BitVec.intMin 32 then (.error .panicked, [])
  else
    match env.tables.getProcessGroup (-pid).toNat with
    | .error error => (.error (.err error), [])
    | .ok pg =>
        let sent := env.sendSignalProcessGroup pg sig
        (.ok sent.1, sent.2)

def sysKill (pid : BitVec 32) : BitVec 32 → KillResult := withSiginfo siUser (env.deliverKill pid)

/-- `send_signal_thread` to the thread that was looked up. -/
def deliverThread (found : LinuxResult Nat) (sig : SignalInfo) :
    KillResult :=
  match found with
  | .error error => (.error (.err error), [])
  | .ok thr =>
      match env.sendSignalThread thr sig with
      | (.error error, sent) => (.error (.err error), sent)
      | (.ok _, sent) => (.ok 0, sent)

def sysTkill (tid : BitVec 32) : BitVec 32 → KillResult :=
  withSiginfo siTkill (env.deliverThread (env.tables.getThread tid.toNat))

/-- `find_thread_in_group`. -/
def findThreadInGroup (tgid tid : BitVec 32) : LinuxResult Nat := do
  let thr ← env.tables.getThread tid.toNat
  if env.tables.processes.keyOf (env.tables.chain thr).process ≠ tgid.toNat
  then throw .ESRCH
  return thr

def sysTgkill (tgid tid : BitVec 32) : BitVec 32 → KillResult :=
  withSiginfo siTkill (env.deliverThread (env.findThreadInGroup tgid tid))

end SignalEnv

/-! ## Targets -/

def IsErr (result : KillResult) : Prop := ∃ error, result.1 = .error (.err error)

/-- What a call does with a signal: it sends that signal only, it does not
find fault with its number, and it fails where it does not find its target. -/
structure Delivers (target : Prop) (sig : SignalInfo) (result : KillResult) : Prop where
  same : ∀ sent ∈ result.2, sent.info = sig
  notInvalid : result.1 ≠ .error (.err .EINVAL)
  fails : IsErr result ↔ ¬ target

/-- A success is the number of signals sent, as `sys_kill` returns it. -/
structure DeliversCounted (target : Prop) (sig : SignalInfo) (result : KillResult) : Prop
    extends Delivers target sig result where
  counts : ∀ count, result.1 = .ok count → count = result.2.length

namespace SignalEnv

variable (env : SignalEnv)

/-- The target of `sys_kill` is there and has its data. -/
def KillTarget (pid : BitVec 32) : Prop :=
  if 1 ≤ pid.toInt then
    ∃ proc, env.tables.getProcess pid.toNat = .ok proc ∧ env.hasProcessData proc = true
  else if pid = 0 then True
  else if pid = -1 then
    ∀ proc ∈ env.processes, env.isInit proc = false → env.hasProcessData proc = true
  else if pid = BitVec.intMin 32 then True
  else ∃ pg, env.tables.getProcessGroup (-pid).toNat = .ok pg

def ThreadTarget (found : LinuxResult Nat) : Prop :=
  ∃ thr, found = .ok thr ∧ env.hasThreadData thr = true

end SignalEnv

variable {error : LinuxError}

theorem TaskTables.lookup_eq_error {table : Registry} {id : Nat}
    (missing : TaskTables.lookup table id = .error error) :
    error = .ESRCH := by
  unfold TaskTables.lookup at missing
  split at missing
  · cases missing
  · exact (Except.error.inj missing).symm

variable {target : Prop} {sig : SignalInfo}

theorem Delivers.of_error {sent : List Sending} (same : ∀ sending ∈ sent, sending.info = sig)
    (valid : error ≠ .EINVAL) (missing : ¬ target) :
    Delivers target sig (.error (.err error), sent) where
  same := same
  notInvalid isInvalid := by
    injection isInvalid with sameFault
    injection sameFault with sameError
    exact valid sameError
  fails := iff_of_true ⟨error, rfl⟩ missing

theorem Delivers.of_ok {count : Int} {sent : List Sending}
    (same : ∀ sending ∈ sent, sending.info = sig) (found : target) :
    Delivers target sig (.ok count, sent) where
  same := same
  notInvalid := nofun
  fails := iff_of_false (fun ⟨_, impossible⟩ => nomatch impossible) (not_not.mpr found)

theorem info_of_mem_sendings {processes : List Nat} :
    ∀ sending ∈ sendings sig processes, sending.info = sig := by
  intro sending isSent
  obtain ⟨proc, -, rfl⟩ := List.mem_map.mp isSent
  rfl

theorem DeliversCounted.of_error
    (reached : List Nat) (valid : error ≠ .EINVAL) (missing : ¬ target) :
    DeliversCounted target sig (.error (.err error), sendings sig reached) :=
  ⟨.of_error info_of_mem_sendings valid missing, nofun⟩

theorem DeliversCounted.of_ok (reached : List Nat) (found : target) :
    DeliversCounted target sig (.ok reached.length, sendings sig reached) := by
  refine ⟨.of_ok info_of_mem_sendings found, ?_⟩
  intro count isCount
  rw [sendings, List.length_map]
  exact (Except.ok.inj isCount).symm

namespace SignalEnv

variable (env : SignalEnv)

theorem delivers_group (found : target) (pg : Nat) (sig : SignalInfo) :
    DeliversCounted target sig
      (.ok (env.sendSignalProcessGroup pg sig).1, (env.sendSignalProcessGroup pg sig).2) := by
  rw [sendSignalProcessGroup, sendToAll_eq, Nat.zero_add]
  exact .of_ok _ found

theorem delivers_everyone (sig : SignalInfo) :
    DeliversCounted
      (∀ proc ∈ env.processes, env.isInit proc = false → env.hasProcessData proc = true)
      sig
      (((env.killAll sig env.processes 0).1.mapError .err).map fun count => (count : Int),
        (env.killAll sig env.processes 0).2) := by
  have allHave :
      (env.others env.processes).all env.hasProcessData = true ↔
        ∀ proc ∈ env.processes, env.isInit proc = false → env.hasProcessData proc = true := by
    simp only [others, List.all_eq_true, List.mem_filter, Bool.not_eq_true', and_imp]
  rw [killAll_eq, Nat.zero_add]
  by_cases all : (env.others env.processes).all env.hasProcessData = true
  · rw [if_pos all, takeWhile_others all]
    exact .of_ok _ (allHave.mp all)
  · rw [if_neg all]
    exact .of_error _ nofun (mt allHave.mpr all)

theorem deliverKill_delivers (pid : BitVec 32) (sig : SignalInfo) :
    DeliversCounted (env.KillTarget pid) sig (env.deliverKill pid sig) := by
  unfold KillTarget deliverKill
  by_cases single : 1 ≤ pid.toInt
  · rw [if_pos single, if_pos single]
    cases found : env.tables.getProcess pid.toNat with
    | error error =>
        have isMissing := TaskTables.lookup_eq_error found
        refine .of_error [] (by rw [isMissing]; nofun) ?_
        rintro ⟨proc, impossible, -⟩
        cases impossible
    | ok proc =>
        dsimp only
        unfold sendSignalProcess
        by_cases data : env.hasProcessData proc = true
        · rw [if_pos data]
          exact .of_ok [proc] ⟨proc, rfl, data⟩
        · rw [if_neg data]
          refine .of_error [] nofun ?_
          rintro ⟨other, same, otherData⟩
          cases same
          exact data otherData
  · rw [if_neg single, if_neg single]
    by_cases ownGroup : pid = 0
    · rw [if_pos ownGroup, if_pos ownGroup]
      exact env.delivers_group trivial _ sig
    · rw [if_neg ownGroup, if_neg ownGroup]
      by_cases everyone : pid = -1
      · rw [if_pos everyone, if_pos everyone]
        exact env.delivers_everyone sig
      · rw [if_neg everyone, if_neg everyone]
        by_cases least : pid = BitVec.intMin 32
        · rw [if_pos least, if_pos least]
          refine ⟨⟨nofun, nofun, ?_⟩, nofun⟩
          exact iff_of_false (fun ⟨_, impossible⟩ => nomatch impossible) (not_not.mpr trivial)
        · rw [if_neg least, if_neg least]
          cases found : env.tables.getProcessGroup (-pid).toNat with
          | error error =>
              have isMissing := TaskTables.lookup_eq_error found
              refine .of_error [] (by rw [isMissing]; nofun) ?_
              rintro ⟨pg, impossible⟩
              cases impossible
          | ok pg => exact env.delivers_group ⟨pg, rfl⟩ pg sig

theorem deliverThread_delivers {found : LinuxResult Nat} (sig : SignalInfo)
    (missing : ∀ error, found = .error error → error = .ESRCH) :
    Delivers (env.ThreadTarget found) sig (env.deliverThread found sig) := by
  unfold ThreadTarget deliverThread
  cases found with
  | error error =>
      refine .of_error nofun (by rw [missing error rfl]; nofun) ?_
      rintro ⟨thr, impossible, -⟩
      cases impossible
  | ok thr =>
      dsimp only
      unfold sendSignalThread
      by_cases data : env.hasThreadData thr = true
      · rw [if_pos data]
        exact .of_ok (by simp) ⟨thr, rfl, data⟩
      · rw [if_neg data]
        refine .of_error nofun nofun ?_
        rintro ⟨other, same, otherData⟩
        cases same
        exact data otherData

theorem findThreadInGroup_eq_error {tgid tid : BitVec 32}
    (missing : env.findThreadInGroup tgid tid = .error error) :
    error = .ESRCH := by
  unfold findThreadInGroup at missing
  cases found : env.tables.getThread tid.toNat with
  | error other =>
      rw [found] at missing
      cases missing
      exact TaskTables.lookup_eq_error found
  | ok thr =>
      rw [found] at missing
      by_cases foreign : env.tables.processes.keyOf (env.tables.chain thr).process ≠ tgid.toNat
      · simp only [bind, Except.bind, if_pos foreign] at missing
        cases missing
        rfl
      · simp only [bind, Except.bind, if_neg foreign] at missing
        cases missing

end SignalEnv

/-! ## Numbers of signals -/

/-- The number is taken for another one by `parse_signo`. -/
def Truncated (signo : BitVec 32) : Prop :=
  64 < signo.toNat ∧ 1 ≤ signo.toNat % 256 ∧ signo.toNat % 256 ≤ 64

def ValidSigno (signo : BitVec 32) : Prop := 1 ≤ signo.toNat ∧ signo.toNat ≤ 64

/-- The number is taken at face value: a number above 64 is refused, only a
signal of this number is sent, and zero sends nothing but fails as every valid
number does. -/
structure FaceValue (call : BitVec 32 → KillResult) (signo : BitVec 32) : Prop where
  refused : 64 < signo.toNat → call signo = (.error (.err .EINVAL), [])
  exactly : ValidSigno signo → ∀ sent ∈ (call signo).2, sent.info.signo = signo.toNat
  probes :
    signo = 0 →
      (call signo).2 = [] ∧ ∀ valid, ValidSigno valid → (IsErr (call signo) ↔ IsErr (call valid))

section FaceValue

variable {signo : BitVec 32} {code : Int} {deliver : SignalInfo → KillResult} {target : Prop}

theorem withSiginfo_of_parsed {number : Nat} (parsed : parseSigno signo.toNat = .ok number)
    (positive : signo ≠ 0) :
    withSiginfo code deliver signo = deliver ⟨number, code⟩ := by
  rw [withSiginfo, makeSiginfo, if_neg positive, parsed]

theorem withSiginfo_of_valid (valid : ValidSigno signo) :
    withSiginfo code deliver signo = deliver ⟨signo.toNat, code⟩ := by
  obtain ⟨positive, bounded⟩ := valid
  have small : signo.toNat % 256 = signo.toNat := Nat.mod_eq_of_lt (by omega)
  have parsed : parseSigno signo.toNat = .ok signo.toNat := by
    rw [parseSigno, small]
    exact if_pos ⟨positive, bounded⟩
  refine withSiginfo_of_parsed parsed ?_
  rintro rfl
  exact absurd positive (by decide)

theorem withSiginfo_of_truncated (truncated : Truncated signo) :
    withSiginfo code deliver signo = deliver ⟨signo.toNat % 256, code⟩ := by
  obtain ⟨large, accepted⟩ := truncated
  refine withSiginfo_of_parsed (if_pos accepted) ?_
  rintro rfl
  exact absurd large (by decide)

theorem withSiginfo_of_refused (large : 64 < signo.toNat) (notTruncated : ¬ Truncated signo) :
    withSiginfo code deliver signo = (.error (.err .EINVAL), []) := by
  have positive : signo ≠ 0 := by
    rintro rfl
    exact absurd large (by decide)
  have parsed : parseSigno signo.toNat = .error .EINVAL :=
    if_neg fun accepted => notTruncated ⟨large, accepted⟩
  rw [withSiginfo, makeSiginfo, if_neg positive, parsed]

/-- A call that delivers what it is given takes a number at face value unless
`parse_signo` truncates it to another one, or it is zero and there is no
target. -/
theorem faceValue_withSiginfo_iff (delivers : ∀ sig, Delivers target sig (deliver sig)) :
    FaceValue (withSiginfo code deliver) signo ↔ ¬ Truncated signo ∧ (signo = 0 → target) := by
  constructor
  · intro faceValue
    constructor
    · intro truncated
      have refused := faceValue.refused truncated.1
      rw [withSiginfo_of_truncated truncated] at refused
      exact (delivers _).notInvalid (congrArg Prod.fst refused)
    · rintro rfl
      by_contra missing
      have one : ValidSigno 1 := by unfold ValidSigno; decide
      have same := (faceValue.probes rfl).2 1 one
      rw [withSiginfo_of_valid one, (delivers _).fails] at same
      obtain ⟨error, impossible⟩ := same.mpr missing
      cases impossible
  · rintro ⟨notTruncated, found⟩
    refine ⟨fun large => withSiginfo_of_refused large notTruncated, ?_, ?_⟩
    · intro valid sent isSent
      rw [withSiginfo_of_valid valid] at isSent
      rw [(delivers _).same sent isSent]
    · rintro rfl
      refine ⟨rfl, ?_⟩
      intro valid isValid
      rw [withSiginfo_of_valid isValid, (delivers _).fails]
      exact iff_of_false (fun ⟨_, impossible⟩ => nomatch impossible) (not_not.mpr (found rfl))

end FaceValue

/-- In `sys_kill`, `sys_tkill` and `sys_tgkill` a number counts at face value
exactly if it is not above 64 with low bits from 1 to 64, and, where it is
zero, the target exists. -/
theorem kill_face_value_iff (env : SignalEnv) (signo : BitVec 32) :
    (∀ pid,
      FaceValue (env.sysKill pid) signo ↔ ¬ Truncated signo ∧ (signo = 0 → env.KillTarget pid)) ∧
    (∀ tid,
      FaceValue (env.sysTkill tid) signo ↔
        ¬ Truncated signo ∧ (signo = 0 → env.ThreadTarget (env.tables.getThread tid.toNat))) ∧
    ∀ tgid tid,
      FaceValue (env.sysTgkill tgid tid) signo ↔
        ¬ Truncated signo ∧ (signo = 0 → env.ThreadTarget (env.findThreadInGroup tgid tid)) := by
  refine ⟨fun pid => ?_, fun tid => ?_, fun tgid tid => ?_⟩
  · exact faceValue_withSiginfo_iff fun sig =>
      (env.deliverKill_delivers pid sig).toDelivers
  · refine faceValue_withSiginfo_iff fun sig => ?_
    exact env.deliverThread_delivers sig fun _ =>
      TaskTables.lookup_eq_error
  · refine faceValue_withSiginfo_iff fun sig => ?_
    exact env.deliverThread_delivers sig fun _ =>
      env.findThreadInGroup_eq_error

def soleEntry : Registry := (Registry.new.create 2 0 rfl).insert 0

def soleProcess : SignalEnv where
  tables := ⟨soleEntry, soleEntry, soleEntry, soleEntry⟩
  hasThreadData _ := true
  hasProcessData _ := true
  isInit _ := false
  members group := if group = 0 then [0] else []
  processes := [0]
  current := 0
  mem_members group process := by
    rcases process with _ | process
    · by_cases isGroup : group = 0
      · subst isGroup
        decide
      · rw [if_neg isGroup]
        exact iff_of_false nofun fun ⟨_, owned⟩ => isGroup owned.symm
    · refine iff_of_false ?_ fun ⟨alive, _⟩ => nomatch alive
      split
      · simp
      · nofun
  mem_processes process := by
    rcases process with _ | process
    · decide
    · refine iff_of_false (by simp) fun found => ?_
      nomatch found

/-- `kill(2, 265)` kills the process, and `kill(3, 0)` finds a process 3. -/
theorem sysKill_truncates :
    soleProcess.sysKill 2 265 = (.ok 1, [⟨.process 0, ⟨sigkill, siUser⟩⟩]) ∧
      ¬ FaceValue (soleProcess.sysKill 2) 265 ∧
      soleProcess.sysKill 3 0 = (.ok 0, []) ∧
      (soleProcess.sysKill 3 1).1 = .error (.err .ESRCH) ∧
      ¬ FaceValue (soleProcess.sysKill 3) 0 := by
  have killed : soleProcess.sysKill 2 265 = (.ok 1, [⟨.process 0, ⟨sigkill, siUser⟩⟩]) := by
    decide
  have probed : soleProcess.sysKill 3 0 = (.ok 0, []) := by decide
  have missing : (soleProcess.sysKill 3 1).1 = .error (.err .ESRCH) := by
    decide
  refine ⟨killed, ?_, probed, missing, ?_⟩
  · intro faceValue
    have refused := faceValue.refused (by decide)
    rw [killed] at refused
    cases refused
  · intro faceValue
    have one : ValidSigno 1 := by unfold ValidSigno; decide
    have same := (faceValue.probes rfl).2 1 one
    obtain ⟨error, impossible⟩ := same.mpr ⟨_, missing⟩
    rw [probed] at impossible
    cases impossible

end Vegar.Task
