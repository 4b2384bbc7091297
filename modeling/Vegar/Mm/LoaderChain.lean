import Mathlib.Data.Set.Finite.Basic
import Mathlib.Data.Set.Finite.Range
import Vegar.Lib.Chain
import Vegar.Mm.Loader

/-!
# Chains of interpreters

`load_user_app` calls itself with the interpreter a script or a program
names.  Nothing counts the calls, so it returns exactly when the interpreters
do not lead back to a file that was there before.
-/

namespace Vegar.Mm

open Vegar.Lib

section Restart

variable (crates : LoaderCrates)

def frontArgs : AxResult (List UInt8) → Option (List Str)
  | .error _ => none
  | .ok fileData =>
      if fileData.take 2 = scriptMagic then
        (Str.fromUtf8 (scriptLine fileData)).map scriptArgs
      else
        match crates.parseElf fileData with
        | some ⟨_, some (.undefined data)⟩ =>
            match interpPath crates data with
            | .ok path => some [path]
            | .error _ => none
        | _ => none

def nextProgram (program : Str) : Option Str :=
  (frontArgs crates (crates.readFile program)).bind List.head?

end Restart

/-! ## Building an image always ends -/

def AspaceM.Returns {ε α : Type} (computation : AspaceM ε α) : Prop :=
  ∀ aspace, (computation.runOn aspace).1 ≠ .error .outOfFuel

namespace AspaceM.Returns

variable {ε α β : Type}

theorem pure (value : α) : (Pure.pure value : AspaceM ε α).Returns := Avoids.pure value

theorem throw {fault : Fault ε} (ends : fault ≠ .outOfFuel) :
    (MonadExcept.throw fault : AspaceM ε α).Returns :=
  Avoids.throw ends

theorem ofAxmm (operation : AddrSpace → AxResult α × AddrSpace) :
    (AspaceM.ofAxmm operation).Returns :=
  Avoids.ofAxmm operation nofun

theorem bind {computation : AspaceM ε α} {next : α → AspaceM ε β}
    (first : computation.Returns) (rest : ∀ value, (next value).Returns) :
    (computation >>= next).Returns :=
  Avoids.bind first rest

theorem check {condition : Prop} [Decidable condition]
    {rest : PUnit → AspaceM ε α} (returns : (rest ⟨⟩).Returns) :
    (if condition then MonadExcept.throw .panicked >>= rest
      else rest ⟨⟩).Returns := by
  have panics : (MonadExcept.throw .panicked : AspaceM ε PUnit).Returns :=
    throw (by simp)
  split
  · exact panics.bind fun _ => returns
  · exact returns

end AspaceM.Returns

section Image

open AspaceM

variable (crates : LoaderCrates)

theorem addOrPanic_returns (left right : Nat) : (addOrPanic left right).Returns := by
  unfold addOrPanic
  split
  · exact .pure _
  · exact .throw nofun

theorem mapSegment_returns (elf : ElfFile) (segment : Segment) :
    (mapSegment crates elf segment).Returns := by
  unfold mapSegment
  refine Returns.check ?_
  refine (addOrPanic_returns _ _).bind fun padded => ?_
  refine (addOrPanic_returns _ _).bind fun raised => ?_
  refine (Returns.ofAxmm _).bind fun _ => ?_
  refine (addOrPanic_returns _ _).bind fun fileEnd => ?_
  split
  · exact .throw nofun
  · exact .ofAxmm _

theorem mapSegments_returns (elf : ElfFile) (segments : List Segment) :
    (mapSegments crates elf segments).Returns := by
  induction segments with
  | nil =>
      exact .pure _
  | cons segment rest ih =>
      exact (mapSegment_returns crates elf segment).bind fun _ => ih

theorem mapElf_returns (elf : ElfFile) : (mapElf crates elf).Returns := by
  unfold mapElf
  have state : (get : AspaceM AxError AddrSpace).Returns := fun _ => nofun
  refine state.bind fun aspace => ?_
  dsimp only
  split
  · exact .throw nofun
  · exact (mapSegments_returns crates elf _).bind fun _ => .pure _

theorem loadImage_returns (elf : ElfFile) (args envs : List Str) :
    (loadImage crates elf args envs).Returns := by
  unfold loadImage
  refine (mapElf_returns crates elf).bind fun loaded => ?_
  refine (Returns.ofAxmm _).bind fun _ => ?_
  refine (Returns.ofAxmm _).bind fun _ => ?_
  refine Returns.check ?_
  exact (Returns.ofAxmm _).bind fun _ => .pure _

end Image

/-! ## The chain of programs -/

/-- `load_user_app` returns, whatever it returns. -/
def LoadReturns (crates : LoaderCrates) (args envs : List Str) (aspace : AddrSpace) : Prop :=
  ∃ fuel, ((loadUserApp crates fuel args envs).runOn aspace).1 ≠ .error .outOfFuel

section Chains

variable {crates : LoaderCrates}

theorem scriptArgs_ne_nil (line : Str) : scriptArgs line ≠ [] := by
  unfold scriptArgs Str.splitTwo
  split <;> simp

theorem frontArgs_ne_nil {result : AxResult (List UInt8)} {front : List Str}
    (restarts : frontArgs crates result = some front) : front ≠ [] := by
  unfold frontArgs at restarts
  split at restarts
  · cases restarts
  · split at restarts
    · obtain ⟨line, -, rfl⟩ := Option.map_eq_some_iff.mp restarts
      exact scriptArgs_ne_nil line
    · split at restarts
      · split at restarts
        · obtain rfl := Option.some.inj restarts
          simp
        · cases restarts
      · cases restarts

theorem resolve_succ (fuel : Nat) (program : Str) (rest : List Str) :
    match frontArgs crates (crates.readFile program) with
    | some front =>
        resolve crates (fuel + 1) (program :: rest) = resolve crates fuel (front ++ program :: rest)
    | none =>
        resolve crates (fuel + 1) (program :: rest) ≠ .error .outOfFuel := by
  simp only [resolve, frontArgs]
  cases crates.readFile program with
  | error error => simp
  | ok fileData =>
      by_cases script : fileData.take 2 = scriptMagic
      · simp only [if_pos script]
        cases Str.fromUtf8 (scriptLine fileData) <;> simp
      · simp only [if_neg script]
        cases crates.parseElf fileData with
        | none => simp
        | some elf =>
            rcases elf with ⟨input, _ | data | _⟩
            · simp
            · simp only
              cases interpPath crates data <;> simp
            · simp

theorem resolve_outOfFuel_iff (fuel : Nat) (program : Str) (rest : List Str) :
    resolve crates fuel (program :: rest) = .error .outOfFuel ↔
      chain (nextProgram crates) fuel program ≠ none := by
  induction fuel generalizing program rest with
  | zero =>
      simp [resolve, chain]
  | succ fuel ih =>
      have once := @resolve_succ crates fuel program rest
      rw [chain, nextProgram]
      cases restarts : frontArgs crates (crates.readFile program) with
      | none =>
          rw [restarts] at once
          simpa using once
      | some front =>
          rw [restarts] at once
          cases front with
          | nil => exact (frontArgs_ne_nil restarts rfl).elim
          | cons first more =>
              rw [once]
              exact ih first (more ++ program :: rest)

theorem exists_resolve_returns_iff (program : Str) (rest : List Str) :
    (∃ fuel, resolve crates fuel (program :: rest) ≠ .error .outOfFuel) ↔
      ChainEnds (nextProgram crates) program := by
  apply exists_congr
  intro fuel
  rw [Ne, resolve_outOfFuel_iff, not_not]

theorem loadReturns_iff_resolve {args envs : List Str} {aspace : AddrSpace} :
    LoadReturns crates args envs aspace ↔ ∃ fuel, resolve crates fuel args ≠ .error .outOfFuel := by
  apply exists_congr
  intro fuel
  rw [runOn_loadUserApp]
  cases resolve crates fuel args with
  | error fault => simp
  | ok resolved =>
      have built := loadImage_returns crates resolved.1 resolved.2 envs
      simp only [ne_eq, reduceCtorEq, not_false_eq_true, iff_true]
      exact built aspace

theorem loadReturns_iff {args envs : List Str} {aspace : AddrSpace} :
    LoadReturns crates args envs aspace ↔
      ∀ program ∈ args.head?, ChainEnds (nextProgram crates) program := by
  rw [loadReturns_iff_resolve]
  cases args with
  | nil =>
      simp only [List.head?_nil, Option.mem_def, reduceCtorEq,
        false_implies, implies_true, iff_true]
      exact ⟨1, by simp [resolve]⟩
  | cons program rest =>
      rw [exists_resolve_returns_iff]
      simp

theorem finite_nextProgram (finite : (Set.range crates.readFile).Finite) :
    {value | ∃ program, nextProgram crates program = some value}.Finite := by
  let named := fun result => (frontArgs crates result).bind List.head?
  have images : (named '' Set.range crates.readFile).Finite := finite.image named
  have inImage :
      some '' {value | ∃ program, nextProgram crates program = some value} ⊆
        named '' Set.range crates.readFile := by
    rintro - ⟨value, ⟨program, isNext⟩, rfl⟩
    exact ⟨crates.readFile program, ⟨program, rfl⟩, isNext⟩
  exact (images.subset inImage).of_finite_image (Option.some_injective Str).injOn

end Chains

/-- With finitely many file contents, `load_user_app` returns exactly when the
chain of interpreters comes to no file name twice. -/
theorem loadUserApp_returns_iff
    (crates : LoaderCrates) (finite : (Set.range crates.readFile).Finite)
    (args envs : List Str) (aspace : AddrSpace) :
    LoadReturns crates args envs aspace ↔
      ∀ program ∈ args.head?, ¬ ChainRevisits (nextProgram crates) program := by
  rw [loadReturns_iff]
  apply forall₂_congr
  intro program _
  exact chainEnds_iff (finite_nextProgram finite)

/-- A disk with one file `/s`, the script `#!/s`. -/
def selfScript : LoaderCrates where
  toMmCrates := .reference
  config := .x86
  trampolinePaddr := 0
  readFile path :=
    if path = Str.lit "/s" then .ok [0x23, 0x21, 0x2f, 0x73, 0x0a]
    else .error .NotFound
  canonicalize path := .ok path
  parseElf _ := none
  elfParser _ _ _ := none
  appStackRegion _ _ _ _ _ := []

def freshAspace : AddrSpace := ⟨0x1000, 0x10000, fun _ => none⟩

/-- A disk with the scripts `#!/b` under `/a` and `#!/c` under `/b`. -/
def twoScripts : LoaderCrates :=
  { selfScript with
    readFile := fun path =>
      if path = Str.lit "/a" then .ok [0x23, 0x21, 0x2f, 0x62, 0x0a]
      else if path = Str.lit "/b" then .ok [0x23, 0x21, 0x2f, 0x63, 0x0a]
      else .error .NotFound }

theorem finite_twoScripts : (Set.range twoScripts.readFile).Finite := by
  apply (Set.toFinite
      {.ok [0x23, 0x21, 0x2f, 0x62, 0x0a],
        .ok [0x23, 0x21, 0x2f, 0x63, 0x0a], .error .NotFound}).subset
  rintro - ⟨path, rfl⟩
  by_cases isFirst : path = Str.lit "/a"
  · left
    exact if_pos isFirst
  · by_cases isSecond : path = Str.lit "/b"
    · right
      left
      exact (if_neg isFirst).trans (if_pos isSecond)
    · right
      right
      exact (if_neg isFirst).trans (if_neg isSecond)

/-- From `/a` the loader goes on to `/b` and `/c`, and returns. -/
theorem loadUserApp_returns_iff_twoScripts :
    nextProgram twoScripts (Str.lit "/a") = some (Str.lit "/b") ∧
      nextProgram twoScripts (Str.lit "/b") = some (Str.lit "/c") ∧
      LoadReturns twoScripts [Str.lit "/a"] [] freshAspace := by
  refine ⟨by decide +kernel, by decide +kernel, ?_⟩
  apply (loadUserApp_returns_iff twoScripts finite_twoScripts [Str.lit "/a"] [] freshAspace).mpr
  intro program isFirst revisits
  obtain rfl := Option.some.inj isFirst
  exact not_chainEnds_of_revisits revisits ⟨3, by decide +kernel⟩

/-- A script that names itself as interpreter makes the loader run for
ever. -/
theorem selfScript_never_returns : ¬ LoadReturns selfScript [Str.lit "/s"] [] freshAspace := by
  rw [loadReturns_iff]
  intro ends
  have again : nextProgram selfScript (Str.lit "/s") = some (Str.lit "/s") := by
    decide +kernel
  refine not_chainEnds_of_revisits ⟨0, 1, Str.lit "/s", Nat.zero_lt_one, rfl, ?_⟩ (ends _ rfl)
  rw [chain, again]
  rfl

end Vegar.Mm
