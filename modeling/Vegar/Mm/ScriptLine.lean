import Vegar.Lib.Blanks
import Vegar.Mm.LoaderChain

/-!
# The first line of a script

A script names its interpreter after `#!`, with blanks allowed in front, and
at most one argument after it.  `load_user_app` cuts the line at its first
whitespace and trims the two parts.
-/

namespace Vegar.Str

open Vegar.Lib

/-! ## The bytes of a text -/

/-- `str::as_bytes`. -/
def asBytes (text : Str) : List UInt8 := text.flatMap String.utf8EncodeChar

/-- `u8::is_ascii_whitespace`. -/
def isAsciiWhitespaceByte (byte : UInt8) : Bool :=
  byte == 0x20 || byte == 0x09 || byte == 0x0a || byte == 0x0c || byte == 0x0d

theorem fromUtf8_eq_some_iff {bytes : List UInt8} {text : Str} :
    fromUtf8 bytes = some text ↔ text.asBytes = bytes := by
  have encoded (chars : Str) : fromUtf8 chars.asBytes = some chars := by
    have isEncoding : ByteArray.mk chars.asBytes.toArray = chars.utf8Encode :=
      ByteArray.ext List.data_toByteArray.symm
    rw [fromUtf8, isEncoding, List.utf8Decode?_utf8Encode]
    rfl
  constructor
  · intro decoded
    have valid : (ByteArray.mk bytes.toArray).IsValidUTF8 := by
      rw [← ByteArray.isSome_utf8Decode?_iff]
      rw [fromUtf8] at decoded
      obtain ⟨chars, found, -⟩ := Option.map_eq_some_iff.mp decoded
      rw [found]
      rfl
    obtain ⟨chars, isBytes⟩ := valid
    have sameBytes : bytes = asBytes chars := by
      have sameData := congrArg ByteArray.data isBytes
      rw [List.utf8Encode, List.data_toByteArray] at sameData
      exact List.toArray_inj sameData
    rw [sameBytes, encoded] at decoded
    rw [sameBytes, Option.some.inj decoded]
  · rintro rfl
    exact encoded text

theorem isAsciiWhitespace_iff {char : Char} :
    isAsciiWhitespace char = true ↔
      char.val.toNat ∈ [32, 9, 10, 12, 13] := by
  have isChar (other : Char) : char = other ↔ char.val.toNat = other.val.toNat := by
    rw [Char.ext_iff, UInt32.toNat_inj]
  simp only [isAsciiWhitespace, Bool.or_eq_true, beq_iff_eq, isChar]
  simp [or_assoc]

theorem isAsciiWhitespaceByte_iff {byte : UInt8} :
    isAsciiWhitespaceByte byte = true ↔
      byte.toNat ∈ [32, 9, 10, 12, 13] := by
  have isByte (other : UInt8) : byte = other ↔ byte.toNat = other.toNat := UInt8.toNat_inj.symm
  simp only [isAsciiWhitespaceByte, Bool.or_eq_true, beq_iff_eq, isByte]
  simp [or_assoc]

theorem isAsciiWhitespaceByte_of_le {byte : UInt8} (high : 128 ≤ byte.toNat) :
    isAsciiWhitespaceByte byte = false := by
  rw [Bool.eq_false_iff, ne_eq, isAsciiWhitespaceByte_iff]
  simp
  omega

theorem keepsBlanks_utf8 :
    Blanks.KeepsBlanks isAsciiWhitespace isAsciiWhitespaceByte String.utf8EncodeChar where
  ofBlank char isBlank := by
    simp only [isAsciiWhitespace, Bool.or_eq_true, beq_iff_eq] at isBlank
    rcases isBlank with (((rfl | rfl) | rfl) | rfl) | rfl
    · exact ⟨0x20, by decide, by decide⟩
    · exact ⟨0x09, by decide, by decide⟩
    · exact ⟨0x0a, by decide, by decide⟩
    · exact ⟨0x0c, by decide, by decide⟩
    · exact ⟨0x0d, by decide, by decide⟩
  ofOther char notBlank := by
    have high (number : Nat) (atLeast : 128 ≤ number) (below : number < 256) :
        isAsciiWhitespaceByte (UInt8.ofNat number) = false := by
      apply isAsciiWhitespaceByte_of_le
      rw [UInt8.toNat_ofNat_of_lt' below]
      exact atLeast
    rw [Bool.eq_false_iff, ne_eq, isAsciiWhitespace_iff] at notBlank
    unfold String.utf8EncodeChar
    dsimp only
    split
    · next small =>
        refine ⟨List.cons_ne_nil _ _, ?_⟩
        intro byte isIn
        obtain rfl := List.mem_singleton.mp isIn
        rw [Bool.eq_false_iff, ne_eq, isAsciiWhitespaceByte_iff,
          UInt8.toNat_ofNat_of_lt' (Nat.lt_of_le_of_lt small (by decide))]
        exact notBlank
    · split
      · refine ⟨List.cons_ne_nil _ _, ?_⟩
        unfold Blanks.Unbroken
        simp only [List.forall_mem_cons]
        refine ⟨high _ ?_ ?_, high _ ?_ ?_, nofun⟩ <;> omega
      · split
        · refine ⟨List.cons_ne_nil _ _, ?_⟩
          unfold Blanks.Unbroken
          simp only [List.forall_mem_cons]
          refine ⟨high _ ?_ ?_, high _ ?_ ?_, high _ ?_ ?_, nofun⟩ <;> omega
        · refine ⟨List.cons_ne_nil _ _, ?_⟩
          unfold Blanks.Unbroken
          simp only [List.forall_mem_cons]
          refine ⟨high _ ?_ ?_, high _ ?_ ?_, high _ ?_ ?_, high _ ?_ ?_, nofun⟩ <;> omega

end Vegar.Str

namespace Vegar.Mm

open Vegar.Lib
open Str (isAsciiWhitespaceByte)

/-! ## The grammar -/

/-- The line behind `#!`: spaces and tabs, the path of the interpreter, and
what follows its first whitespace. -/
structure ScriptHeader where
  blanks : List UInt8
  interp : List UInt8
  tail : List UInt8
  onlyBlanks : ∀ byte ∈ blanks, byte = 0x20 ∨ byte = 0x09
  named : interp ≠ []
  unbroken : Blanks.Unbroken isAsciiWhitespaceByte interp
  separated : ∀ byte ∈ tail.head?, isAsciiWhitespaceByte byte = true

namespace ScriptHeader

def line (header : ScriptHeader) : List UInt8 := header.blanks ++ header.interp ++ header.tail

def argument (header : ScriptHeader) : List UInt8 := Blanks.trim isAsciiWhitespaceByte header.tail

def args (header : ScriptHeader) : List (List UInt8) :=
  header.interp :: if header.argument.isEmpty then [] else [header.argument]

def Tight (header : ScriptHeader) : Prop :=
  header.blanks = [] ∧ (header.tail = [] ∨ header.argument ≠ [])

end ScriptHeader

theorem scriptArgs_eq_trimmedParts (text : Str) :
    scriptArgs text =
      Blanks.trimmedParts Str.isAsciiWhitespace text := by
  have sameCut :
      Str.splitTwo Str.isAsciiWhitespace text =
        Blanks.splitTwo Str.isAsciiWhitespace text := by
    unfold Str.splitTwo Blanks.splitTwo
    cases text.dropWhile fun char => !Str.isAsciiWhitespace char <;> rfl
  rw [scriptArgs, sameCut]
  rfl

theorem scriptArgs_line_iff
    (header : ScriptHeader) {text : Str} (isLine : text.asBytes = header.line) :
    (scriptArgs text).map Str.asBytes = header.args ↔ header.Tight := by
  have parts := Str.keepsBlanks_utf8.trimmedParts_flatMap text
  have onBytes :
      (scriptArgs text).map Str.asBytes =
        Blanks.trimmedParts isAsciiWhitespaceByte header.line := by
    rw [← isLine, scriptArgs_eq_trimmedParts]
    exact parts.symm
  rw [onBytes]
  apply Blanks.trimmedParts_eq_word_iff _ header.named header.unbroken header.separated
  intro byte isIn
  rcases header.onlyBlanks byte isIn with rfl | rfl <;> decide

/-! ## The restart of the loader -/

/-- The argument list with which `load_user_app` calls itself. -/
def nextArgs (crates : LoaderCrates) : List Str → Option (List Str)
  | [] => none
  | program :: rest =>
      (frontArgs crates (crates.readFile program)).map (· ++ program :: rest)

/-- `load_user_app` goes on with the given arguments. -/
def ContinuesWith (crates : LoaderCrates) (args newArgs : List Str) : Prop :=
  nextArgs crates args = some newArgs ∧
    ∀ fuel envs, loadUserApp crates (fuel + 1) args envs = loadUserApp crates fuel newArgs envs

section Restart

variable {crates : LoaderCrates} {program : Str} {fileData : List UInt8} {line : Str}

theorem frontArgs_of_script (magic : fileData.take 2 = scriptMagic)
    (decoded : Str.fromUtf8 (scriptLine fileData) = some line) :
    frontArgs crates (.ok fileData) = some (scriptArgs line) := by
  simp only [frontArgs, if_pos magic, decoded, Option.map_some]

theorem loadUserApp_of_script (isRead : crates.readFile program = .ok fileData)
    (magic : fileData.take 2 = scriptMagic)
    (decoded : Str.fromUtf8 (scriptLine fileData) = some line)
    (rest : List Str) (fuel : Nat) (envs : List Str) :
    loadUserApp crates (fuel + 1) (program :: rest) envs =
      loadUserApp crates fuel (scriptArgs line ++ program :: rest) envs := by
  simp only [loadUserApp, isRead, AspaceM.ofResult, pure_bind, if_pos magic, decoded]

theorem continuesWith_of_script_iff (isRead : crates.readFile program = .ok fileData)
    (magic : fileData.take 2 = scriptMagic)
    (decoded : Str.fromUtf8 (scriptLine fileData) = some line)
    (rest front : List Str) :
    ContinuesWith crates (program :: rest) (front ++ program :: rest) ↔
      scriptArgs line = front := by
  have next : nextArgs crates (program :: rest) = some (scriptArgs line ++ program :: rest) := by
    rw [nextArgs, isRead, frontArgs_of_script magic decoded, Option.map_some]
  constructor
  · intro continues
    have same := next.symm.trans continues.1
    exact List.append_cancel_right (Option.some.inj same)
  · intro same
    rw [← same]
    exact ⟨next, loadUserApp_of_script isRead magic decoded rest⟩

end Restart

/-- A script whose first line follows the grammar is continued with its
interpreter, its argument and the arguments of the script, exactly if the line
is UTF-8, nothing stands in front of the interpreter and not only whitespace
behind it. -/
theorem loadUserApp_script_header_iff
    (crates : LoaderCrates) (header : ScriptHeader) (program : Str)
    (rest : List Str) (fileData : List UInt8)
    (isRead : crates.readFile program = .ok fileData)
    (magic : fileData.take 2 = scriptMagic)
    (isLine : scriptLine fileData = header.line) :
    (∃ front, front.map Str.asBytes = header.args ∧
      ContinuesWith crates (program :: rest) (front ++ program :: rest)) ↔
    (Str.fromUtf8 header.line).isSome ∧ header.Tight := by
  cases decoded : Str.fromUtf8 header.line with
  | none =>
      have stops : nextArgs crates (program :: rest) = none := by
        simp only [nextArgs, isRead, frontArgs, if_pos magic, isLine, decoded, Option.map_none]
      constructor
      · rintro ⟨front, -, continues⟩
        cases stops.symm.trans continues.1
      · rintro ⟨isText, -⟩
        cases isText
  | some text =>
      have tight := scriptArgs_line_iff header (Str.fromUtf8_eq_some_iff.mp decoded)
      rw [← isLine] at decoded
      have continues := @continuesWith_of_script_iff _ _ _ _ isRead magic decoded rest
      constructor
      · rintro ⟨front, sameBytes, goesOn⟩
        rw [← (continues front).mp goesOn] at sameBytes
        exact ⟨rfl, tight.mp sameBytes⟩
      · rintro ⟨-, isTight⟩
        exact ⟨scriptArgs text, tight.mpr isTight, (continues _).mpr rfl⟩

def uniformDisk (fileData : List UInt8) : LoaderCrates :=
  { selfScript with readFile := fun _ => .ok fileData }

def ascii (text : String) : List UInt8 := Str.asBytes (Str.lit text)

/-- The interpreter `/s` with the argument `-x`, and a carriage return at the
end. -/
def optionHeader : ScriptHeader where
  blanks := []
  interp := ascii "/s"
  tail := ascii " -x\r"
  onlyBlanks := nofun
  named := by decide
  unbroken byte member := by
    have inside : byte ∈ [0x2f, 0x73] := member
    rcases List.mem_pair.mp inside with rfl | rfl <;> rfl
  separated byte isHead := by
    obtain rfl := Option.some.inj isHead
    rfl

theorem loadUserApp_script_header_iff_option :
    ∃ front, front.map Str.asBytes = [ascii "/s", ascii "-x"] ∧
      ContinuesWith (uniformDisk (ascii "#!/s -x\r\n"))
        [Str.lit "/t", Str.lit "y"] (front ++ [Str.lit "/t", Str.lit "y"]) :=
  (loadUserApp_script_header_iff (uniformDisk (ascii "#!/s -x\r\n"))
    optionHeader (Str.lit "/t") [Str.lit "y"] _ rfl (by decide)
    (by decide +kernel)).mpr
    ⟨by decide +kernel, rfl, Or.inr (by decide)⟩

/-- With a blank in front the interpreter is the empty path, and a line with a
byte that is not UTF-8 is refused. -/
theorem blankScript_empty_interpreter :
    (ContinuesWith (uniformDisk (ascii "#! /s\n")) [Str.lit "/t"] [[], Str.lit "/s", Str.lit "/t"] ∧
      ¬ ContinuesWith (uniformDisk (ascii "#! /s\n")) [Str.lit "/t"] [Str.lit "/s", Str.lit "/t"]) ∧
    ∀ fuel envs aspace,
      ((loadUserApp (uniformDisk (ascii "#!/s " ++ [0xff])) (fuel + 1)
        [Str.lit "/t"] envs).runOn aspace).1 = .error (.err .InvalidData) := by
  have decoded : Str.fromUtf8 (scriptLine (ascii "#! /s\n")) = some (Str.lit " /s") := by
    decide +kernel
  have continues (front : List Str) :
      ContinuesWith (uniformDisk (ascii "#! /s\n")) [Str.lit "/t"] (front ++ [Str.lit "/t"]) ↔
        scriptArgs (Str.lit " /s") = front :=
    continuesWith_of_script_iff rfl (by decide) decoded [] front
  refine ⟨⟨(continues [[], Str.lit "/s"]).mpr (by decide), ?_⟩, ?_⟩
  · intro asDocumented
    have wrong := (continues [Str.lit "/s"]).mp asDocumented
    exact absurd wrong (by decide)
  · intro fuel envs aspace
    have refused : Str.fromUtf8 (scriptLine (ascii "#!/s " ++ [0xff])) = none := by
      decide +kernel
    have magic : (ascii "#!/s " ++ [0xff]).take 2 = scriptMagic := by
      decide
    simp only [loadUserApp, uniformDisk, AspaceM.ofResult, pure_bind, if_pos magic, refused]
    rfl

end Vegar.Mm
