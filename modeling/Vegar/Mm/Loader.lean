import Vegar.Mm.UserString

/-!
# Loading user programs

`map_trampoline`, `map_elf` and `load_user_app` of `core/src/mm.rs`.  A script
or a program with an interpreter makes the loader start over with a longer
argument list, within a bounded number of steps here.
-/

namespace Vegar.Mm

open Vegar.Lib

/-- `axconfig::plat`, the part that describes user space. -/
structure PlatConfig where
  userInterpBase : Nat
  userStackTop : Nat
  userStackSize : Nat
  userHeapBase : Nat
  userHeapSize : Nat
  signalTrampoline : Nat

/-- `configs/x86_64.toml`. -/
def PlatConfig.x86 : PlatConfig where
  userInterpBase := 0x4000000
  userStackTop := 0x7fff00000000
  userStackSize := 0x10000
  userHeapBase := 0x40000000
  userHeapSize := 0x10000
  signalTrampoline := 0x40010000

structure Segment where
  vaddr : Nat
  offset : Nat
  memsz : Nat
  filesz : Nat
  flags : MappingFlags

/-- The data of the first `PT_INTERP` program header. -/
inductive InterpData where
  | undefined (data : List UInt8)
  | otherwise

/-- `xmas_elf::ElfFile`. -/
structure ElfFile where
  input : List UInt8
  interp : Option InterpData

/-- `kernel_elf_parser::ELFParser`. -/
structure ElfParser where
  phLoad : List Segment
  entry : Nat
  auxv : List (Nat × Nat)

structure LoaderCrates extends MmCrates where
  config : PlatConfig
  trampolinePaddr : Nat
  readFile : Str → AxResult (List UInt8)
  canonicalize : Str → AxResult Str
  parseElf : List UInt8 → Option ElfFile
  elfParser : ElfFile → (interpBase uspaceBase : Nat) → Option ElfParser
  appStackRegion :
    List Str → List Str → List (Nat × Nat) → (ustackStart ustackSize : Nat) → List UInt8

section Loader

variable (crates : LoaderCrates)

def addOrPanic (left right : Nat) : AspaceM AxError Nat :=
  match usizeAdd left right with
  | some sum => pure sum
  | none => throw .panicked

/-- `map_trampoline`. -/
def mapTrampoline : AspaceM AxError Unit := .ofAxmm fun aspace =>
    crates.axmm.mapLinear aspace crates.config.signalTrampoline
      crates.trampolinePaddr pageSize4k .userText

/-- `elf.input.get(from..to)`. -/
def subslice (input : List UInt8) (start stop : Nat) : Option (List UInt8) :=
  if start ≤ stop ∧ stop ≤ input.length then
    some ((input.drop start).take (stop - start))
  else none

def mapSegment (elf : ElfFile) (segment : Segment) :
    AspaceM AxError Unit := do
  let segPad := segment.vaddr % pageSize4k
  if segPad ≠ segment.offset % pageSize4k then
    throw .panicked
  let padded ← addOrPanic segment.memsz segPad
  let raised ← addOrPanic padded pageSize4k
  AspaceM.ofAxmm fun aspace =>
    crates.axmm.mapAlloc aspace (alignDown4k segment.vaddr)
      (alignDown4k (raised - 1)) segment.flags true
  let fileEnd ← addOrPanic segment.offset segment.filesz
  match subslice elf.input segment.offset fileEnd with
  | none => throw (.err .InvalidData)
  | some segData =>
      AspaceM.ofAxmm fun aspace =>
        crates.axmm.write aspace segment.vaddr segData

/-- `for segement in elf_parser.ph_load()`. -/
def mapSegments (elf : ElfFile) : List Segment → AspaceM AxError Unit
  | [] => pure ()
  | segment :: rest => do
      mapSegment crates elf segment
      mapSegments elf rest

/-- `map_elf`. -/
def mapElf (elf : ElfFile) : AspaceM AxError (Nat × List (Nat × Nat)) := do
  let uspaceBase := (← get).base
  match crates.elfParser elf crates.config.userInterpBase uspaceBase
  with
  | none => throw (.err .InvalidData)
  | some parser =>
      mapSegments crates elf parser.phLoad
      return (parser.entry, parser.auxv)

/-- The end of `load_user_app`: the segments, the stack with its contents and
the heap of a program without interpreter. -/
def loadImage (elf : ElfFile) (args envs : List Str) : AspaceM AxError (Nat × Nat) := do
  let (entry, auxv) ← mapElf crates elf
  let ustackEnd := crates.config.userStackTop
  let ustackSize := crates.config.userStackSize
  let ustackStart := ustackEnd - ustackSize
  let stackData := crates.appStackRegion args envs auxv ustackStart ustackSize
  AspaceM.ofAxmm fun aspace =>
    crates.axmm.mapAlloc aspace ustackStart ustackSize .userData true
  AspaceM.ofAxmm fun aspace =>
    crates.axmm.mapAlloc aspace crates.config.userHeapBase crates.config.userHeapSize .userData true
  if ustackEnd < stackData.length then
    throw .panicked
  let userSp := ustackEnd - stackData.length
  AspaceM.ofAxmm fun aspace => crates.axmm.write aspace userSp stackData
  return (entry, userSp)

/-- The bytes of `"#!"`. -/
def scriptMagic : List UInt8 := [0x23, 0x21]

/-- The part of a script's first 256 bytes between `#!` and the end of the
line. -/
def scriptLine (fileData : List UInt8) : List UInt8 :=
  ((fileData.take 256).drop 2).takeWhile fun byte => byte != 0x0a

def scriptArgs (line : Str) : List Str :=
  (Str.splitTwo Str.isAsciiWhitespace line).map Str.trimAscii

/-- `CStr::from_bytes_with_nul`: one nul byte, at the end. -/
def fromBytesWithNul (bytes : List UInt8) : Option (List UInt8) :=
  if bytes.getLast? = some 0 ∧ (0 : UInt8) ∉ bytes.dropLast then
    some bytes.dropLast
  else none

def substituteInterp (path : Str) : Str :=
  if path = Str.lit "/lib/ld-linux-riscv64-lp64.so.1" ∨
      path = Str.lit "/lib64/ld-linux-loongarch-lp64d.so.1" ∨
      path = Str.lit "/lib64/ld-linux-x86-64.so.2" ∨
      path = Str.lit "/lib/ld-linux-aarch64.so.1" then
    Str.lit "/musl/lib/libc.so"
  else path

/-- The path in the data of a `PT_INTERP` header. -/
def interpPath (data : List UInt8) : AxResult Str :=
  match (fromBytesWithNul data).bind Str.fromUtf8 with
  | none => .error .InvalidData
  | some path => (crates.canonicalize path).map substituteInterp

/-- `load_user_app`, restarted at most `fuel` times. -/
def loadUserApp : (fuel : Nat) → (args envs : List Str) → AspaceM AxError (Nat × Nat)
  | 0, _, _ => throw .outOfFuel
  | _ + 1, [], _ => throw (.err .InvalidInput)
  | fuel + 1, program :: rest, envs => do
      let fileData ← AspaceM.ofResult (crates.readFile program)
      if fileData.take 2 = scriptMagic then
        match Str.fromUtf8 (scriptLine fileData) with
        | none => throw (.err .InvalidData)
        | some line =>
            loadUserApp fuel (scriptArgs line ++ program :: rest) envs
      else
        match crates.parseElf fileData with
        | none => throw (.err .InvalidData)
        | some elf =>
            match elf.interp with
            | none => loadImage crates elf (program :: rest) envs
            | some .otherwise => throw .panicked
            | some (.undefined data) => do
                let path ← AspaceM.ofResult (interpPath crates data)
                loadUserApp fuel (path :: program :: rest) envs

/-! ## The part that does not touch memory -/

/-- Which program the loader ends up with, and under which arguments: the
restarts of `load_user_app` without the address space. -/
def resolve : (fuel : Nat) → (args : List Str) → Except (Fault AxError) (ElfFile × List Str)
  | 0, _ => .error .outOfFuel
  | _ + 1, [] => .error (.err .InvalidInput)
  | fuel + 1, program :: rest =>
      match crates.readFile program with
      | .error error => .error (.err error)
      | .ok fileData =>
          if fileData.take 2 = scriptMagic then
            match Str.fromUtf8 (scriptLine fileData) with
            | none => .error (.err .InvalidData)
            | some line => resolve fuel (scriptArgs line ++ program :: rest)
          else
            match crates.parseElf fileData with
            | none => .error (.err .InvalidData)
            | some elf =>
                match elf.interp with
                | none => .ok (elf, program :: rest)
                | some .otherwise => .error .panicked
                | some (.undefined data) =>
                    match interpPath crates data with
                    | .error error => .error (.err error)
                    | .ok path => resolve fuel (path :: program :: rest)

/-- The loader first settles which program to load, then builds its image;
an address space is not changed before that is settled. -/
theorem runOn_loadUserApp (fuel : Nat) (args envs : List Str) (aspace : AddrSpace) :
    (loadUserApp crates fuel args envs).runOn aspace =
      match resolve crates fuel args with
      | .error fault => (.error fault, aspace)
      | .ok (elf, finalArgs) =>
          (loadImage crates elf finalArgs envs).runOn aspace := by
  induction fuel generalizing args with
  | zero => rfl
  | succ fuel ih =>
      cases args with
      | nil => rfl
      | cons program rest =>
          simp only [loadUserApp, resolve]
          cases crates.readFile program with
          | error error => rfl
          | ok fileData =>
              simp only [AspaceM.ofResult, pure_bind]
              by_cases script : fileData.take 2 = scriptMagic
              · simp only [if_pos script]
                cases Str.fromUtf8 (scriptLine fileData) with
                | none => rfl
                | some line => exact ih _
              · simp only [if_neg script]
                cases crates.parseElf fileData with
                | none => rfl
                | some elf =>
                    rcases elf with ⟨input, _ | data | _⟩
                    · rfl
                    · simp only
                      cases interpPath crates data with
                      | error error => rfl
                      | ok path => exact ih _
                    · rfl

end Loader

end Vegar.Mm
