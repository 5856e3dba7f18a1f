import SchemaCodegen.Proofs.Text.LineEnding
import SchemaCodegen.Schema.Source

/-!
# Reading schemas with other line endings

However the lines of a schema file end, the same text is read from it.  Nothing that a
schema asks for or declares depends on the line endings, not even behind bytes that spell
no character.
-/

namespace SchemaCodegen

namespace Utf8

/-- The bytes that end a line. -/
inductive LineEnding where
  /-- A newline. -/
  | newline
  /-- A carriage return and a newline. -/
  | returnNewline
  /-- A carriage return alone. -/
  | carriageReturn
deriving DecidableEq, Repr

namespace LineEnding

/-- The spelling of a line ending. -/
def bytes : LineEnding → List UInt8
  | .newline => [0x0A]
  | .returnNewline => [0x0D, 0x0A]
  | .carriageReturn => [0x0D]

/-- Puts the line ending in place of every newline. -/
def respell (ending : LineEnding) (bytes : List UInt8) : List UInt8 :=
  bytes.flatMap fun byte => if byte = 0x0A then ending.bytes else [byte]

@[simp] theorem respell_nil (ending : LineEnding) : ending.respell [] = [] := rfl

@[simp] theorem respell_newline_cons (ending : LineEnding) (rest : List UInt8) :
    ending.respell (0x0A :: rest) = ending.bytes ++ ending.respell rest := rfl

theorem respell_cons_of_ne
    {byte : UInt8}
    (different : byte ≠ 0x0A)
    (ending : LineEnding)
    (rest : List UInt8) :
    ending.respell (byte :: rest) = byte :: ending.respell rest := by
  simp [respell, different]

/-- Where carriage returns alone end the lines, no newline is left to follow one of them. -/
theorem head?_carriageReturn_respell (bytes : List UInt8) :
    (carriageReturn.respell bytes).head? ≠ some 0x0A := by
  cases bytes with
  | nil => simp
  | cons byte rest =>
      by_cases ends : byte = 0x0A
      · rw [ends, respell_newline_cons]
        simp [LineEnding.bytes]
      · rw [respell_cons_of_ne ends]
        simpa using ends

/-- Bytes without carriage returns come back from every respelling. -/
theorem normalizeLineEndings_respell
    {bytes : List UInt8}
    (noReturn : 0x0D ∉ bytes)
    (ending : LineEnding) :
    normalizeLineEndings (ending.respell bytes) = bytes := by
  induction bytes with
  | nil => rfl
  | cons byte rest inductionHypothesis =>
      rw [List.mem_cons, not_or] at noReturn
      have rest_eq := inductionHypothesis noReturn.2
      by_cases ends : byte = 0x0A
      · subst ends
        rw [respell_newline_cons]
        cases ending with
        | newline =>
            rw [bytes, List.singleton_append, normalizeLineEndings_cons (by decide), rest_eq]
        | returnNewline =>
            rw [bytes, List.cons_append, List.singleton_append, normalizeLineEndings_crlf,
              normalizeLineEndings_cons (by decide), rest_eq]
        | carriageReturn =>
            rw [bytes, List.singleton_append,
              normalizeLineEndings_return (head?_carriageReturn_respell rest), rest_eq]
      · rw [respell_cons_of_ne ends, normalizeLineEndings_cons (Ne.symm noReturn.1), rest_eq]

theorem decode_respell
    {bytes : List UInt8}
    (noReturn : 0x0D ∉ bytes)
    (ending : LineEnding) :
    (decode (ending.respell bytes)).normalizeLineEndings = decode bytes := by
  rw [← decode_normalizeLineEndings, normalizeLineEndings_respell noReturn]

end LineEnding
end Utf8

namespace Schema

open Utf8 (LineEnding)

theorem Source.read_eq_ok
    {tree : FileTree}
    {path : Path}
    {bytes : List UInt8}
    (held : tree.read path = .ok bytes) :
    Source.read tree path = .ok ⟨path, (Utf8.decode bytes).normalizeLineEndings⟩ := by
  rw [Source.read, held]

/--
Three files hold the same bytes but for their line endings.  The same text is read from
all of them, which spells the bytes with newlines, and so they ask for the same codecs and
declare the same names.
-/
theorem Source.read_respelled
    {bytes : List UInt8}
    (noReturn : 0x0D ∉ bytes)
    {tree : LineEnding → FileTree}
    {path : LineEnding → Path}
    (held : ∀ ending, (tree ending).read (path ending) = .ok (ending.respell bytes)) :
    ∃ text, Utf8.encode text = bytes ∧ ∀ ending, ∃ source,
      Source.read (tree ending) (path ending) = .ok source ∧
      source.text = text ∧
      source.directives = .ofText text ∧
      source.typeNames = Schema.typeNames text := by
  refine ⟨Utf8.decode bytes, Utf8.encode_decode bytes, fun ending => ?_⟩
  refine ⟨⟨path ending, Utf8.decode bytes⟩, ?_, rfl, rfl, rfl⟩
  rw [Source.read_eq_ok (held ending), ending.decode_respell noReturn]

/-- A sequence that breaks off before two line ends is read alike in all three files. -/
theorem Source.read_respelled_brokenOff :
    let bytes := [0x23, 0xE2, 0x82, 0x0A, 0x0A] ++ Utf8.bytesOf "$Codec.msgp;\nstruct A"
    let tree (ending : LineEnding) : FileTree :=
      ⟨["work"], [(["work", "m.capnp"], .file (ending.respell bytes))]⟩
    let path := Path.ofText "m.capnp"
    0x0D ∉ bytes ∧
      (∀ ending, (tree ending).read path = .ok (ending.respell bytes)) ∧
      ∃ text, Utf8.encode text = bytes ∧ ∀ ending, ∃ source,
        Source.read (tree ending) path = .ok source ∧
        source.text = text ∧
        source.directives = .ofText text ∧
        source.typeNames = Schema.typeNames text := by
  intro bytes tree path
  have noReturn : 0x0D ∉ bytes := by decide +kernel
  have held : ∀ ending, (tree ending).read path = .ok (ending.respell bytes) := by
    intro ending
    cases ending <;> rfl
  exact ⟨noReturn, held, @Source.read_respelled bytes noReturn tree (fun _ => path) held⟩

end Schema
end SchemaCodegen
