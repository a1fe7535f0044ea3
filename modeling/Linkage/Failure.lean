import Linkage.Settings
import Linkage.Diagnostic
import Linkage.Numeral
import Linkage.Section
import Linkage.Text.Quoted

/-!
# Failures — why an operation stopped

A `LinkError` says what is wrong with a program: a cause, the location of the token at fault and the
index of the module being processed.  Its wording is a diagnostic (`LinkError.diagnostic`).

A `Misuse` is an operation applied in the wrong state, a `Fault` a value that an operation cannot
work on, a `FileError` a path that cannot be read or written.  `Failure` gathers them with the
errors of settings and numerals.
-/

namespace Linkage

/-! ### Errors of a program -/

/-- What is wrong with a program. -/
inductive Cause where
  /-- A count is not a numeral. -/
  | invalidCount (token : String)
  /-- The offset of a definition is not a numeral. -/
  | invalidLocation (token : String)
  /-- An instruction type does not begin with a classification letter. -/
  | invalidType (token : String)
  /-- A word has fewer than two characters. -/
  | shortWord (token : String)
  /-- A word holds something other than digits. -/
  | nonDigitWord (token : String)
  /-- The input ends where a token of the given role is due, the first of `missing` tokens. -/
  | endOfInput (role : Role) (missing : Int)
  /-- A symbol is defined again; `earlier` is the module of the earlier definition. -/
  | duplicate (symbol : String) (earlier : Int)
  /-- An external instruction picks an entry beyond a use list of `uses` entries. -/
  | useOutOfRange (useIndex : Int) (instruction : Nat) (uses : Nat)
  /-- An external instruction refers to a symbol that nobody defines. -/
  | undefinedSymbol (symbol : String) (useIndex : Int) (instruction : Nat) (similar : List String)
  /-- An address of the machine is not below `limit`; `instruction` is the one that holds it. -/
  | addressOutOfRange (address limit : Int) (instruction : Option Nat)
  deriving DecidableEq, Repr

/-- What is wrong with a program, and where. -/
structure LinkError where
  cause : Cause
  location : Option Location
  moduleIndex : Int
  deriving DecidableEq, Repr

/-- The hint that offers similar names, when there are any. -/
def suggestion : List String → Option String
  | []    => none
  | names => some ("did you mean " ++ ", ".intercalate (names.map fun n => s!"'{n}'") ++ "?")

/-- The wording of an error of a program. -/
def LinkError.diagnostic (e : LinkError) : Diagnostic :=
  let malformed (message : String) (token hint : Option String) : Diagnostic :=
    .malformed message token e.location (some e.moduleIndex) hint
  match e.cause with
  | .invalidCount token =>
    malformed "invalid count" (some token) (some "expected a non-negative integer")
  | .invalidLocation token =>
    malformed "invalid definition location" (some token) (some "expected a non-negative integer")
  | .invalidType token =>
    malformed "invalid instruction type" (some token) (some "expected one of I, A, R, E")
  | .shortWord token =>
    malformed "instruction word too short" (some token)
      (some "expected an opcode digit followed by address digits")
  | .nonDigitWord token =>
    malformed "instruction word must be all digits" (some token) none
  | .endOfInput role missing =>
    malformed s!"unexpected end of input while reading {role.name}" none
      (some s!"{missing} more token(s) expected")
  | .duplicate symbol earlier =>
    .duplicate symbol (some e.moduleIndex) (some earlier) e.location
  | .useOutOfRange useIndex instruction uses =>
    .unresolved s!"use index {useIndex} out of range" none (some useIndex) (some instruction)
      (some e.moduleIndex) e.location (some s!"module {e.moduleIndex} lists {uses} use(s)")
  | .undefinedSymbol symbol useIndex instruction similar =>
    .unresolved s!"undefined symbol '{symbol}'" (some symbol) (some useIndex) (some instruction)
      (some e.moduleIndex) e.location (suggestion similar)
  | .addressOutOfRange address limit instruction =>
    .outOfRange address limit (instruction.map Int.ofNat) (some e.moduleIndex) e.location

/-- The error in full. -/
def LinkError.text (e : LinkError) : String := e.diagnostic.text

/-! ### Other failures -/

/-- An operation applied in a state that does not allow it. -/
inductive Misuse where
  /-- A definition is added to a frozen table. -/
  | frozenTable (name : String)
  /-- Words are relocated with a table that is not frozen. -/
  | unfrozenTable
  /-- An instruction that has been relocated, and is now `word`, is relocated again. -/
  | relocatedTwice (word : Int)
  deriving DecidableEq, Repr

/-- The wording of a misuse. -/
def Misuse.message : Misuse → String
  | .frozenTable name    => s!"cannot define '{name}': symbol table is frozen"
  | .unfrozenTable       => "second pass requires a frozen symbol table"
  | .relocatedTwice word => s!"instruction {word} relocated twice"

/-- A value that an operation cannot work on. -/
inductive Fault where
  /-- An instruction type without a first character. -/
  | emptyType
  /-- A position outside a list. -/
  | noSuchPosition
  /-- A position that no list can have. -/
  | positionTooLarge
  /-- A value that names no classification. -/
  | unknownClassification (value : GivenValue)
  /-- A value that names no duplicate policy. -/
  | unknownPolicy (value : GivenValue)
  /-- The word is asked for of a setting that is no policy. -/
  | noPolicyWord (value : GivenValue)
  /-- A definition without an offset is to be placed. -/
  | noOffsetToPlace
  /-- A definition without an offset is to be compared with its module's length. -/
  | noOffsetToCompare
  deriving DecidableEq, Repr

/-- The wording of a fault. -/
def Fault.message : Fault → String
  | .emptyType                   => "string index out of range"
  | .noSuchPosition              => "list index out of range"
  | .positionTooLarge            => "cannot fit 'int' into an index-sized integer"
  | .unknownClassification value => s!"{value.shown} is not a valid InstructionType"
  | .unknownPolicy value         => s!"{value.shown} is not a valid DuplicatePolicy"
  | .noPolicyWord value          => s!"'{value.kind}' object has no attribute 'value'"
  | .noOffsetToPlace             => "unsupported operand type(s) for +: 'NoneType' and 'int'"
  | .noOffsetToCompare           => "'>=' not supported between instances of 'NoneType' and 'int'"

/-- Why a sequence of bytes is not the encoding of a text. -/
inductive EncodingFault where
  | invalidStart
  | invalidContinuation
  | unexpectedEnd
  deriving DecidableEq, Repr

/-- A path that cannot be read or written. -/
inductive FileError where
  | notFound (path : String)
  | isDirectory (path : String)
  | notDirectory (path : String)
  | denied (path : String)
  | nameTooLong (path : String)
  /-- The path holds the character U+0000. -/
  | nulInPath
  /-- The `width` bytes from `position` on, the first of which is `byte`, encode no character. -/
  | undecodable (byte : UInt8) (position width : Nat) (fault : EncodingFault)
  deriving DecidableEq, Repr

/-- The reason as it stands at the end of a message. -/
def EncodingFault.reason : EncodingFault → String
  | .invalidStart        => "invalid start byte"
  | .invalidContinuation => "invalid continuation byte"
  | .unexpectedEnd       => "unexpected end of data"

/-- The wording of a file error. -/
def FileError.message : FileError → String
  | .notFound path     => s!"[Errno 2] No such file or directory: {quoted path}"
  | .isDirectory path  => s!"[Errno 21] Is a directory: {quoted path}"
  | .notDirectory path => s!"[Errno 20] Not a directory: {quoted path}"
  | .denied path       => s!"[Errno 13] Permission denied: {quoted path}"
  | .nameTooLong path  => s!"[Errno 36] File name too long: {quoted path}"
  | .nulInPath         => "embedded null byte"
  | .undecodable byte position width fault =>
    let place :=
      if width = 1 then
        s!"byte 0x{String.ofList (Quoted.hexDigits 2 byte.toNat)} in position {position}"
      else s!"bytes in position {position}-{position + width - 1}"
    s!"'utf-8' codec can't decode {place}: {fault.reason}"

/-- Why an operation stopped. -/
inductive Failure where
  | settings (error : SettingsError)
  | link (error : LinkError)
  | misuse (error : Misuse)
  | numeral (error : NumeralError)
  | fault (error : Fault)
  | file (error : FileError)
  deriving DecidableEq, Repr

/-- The wording of a failure. -/
def Failure.message : Failure → String
  | .settings e => e.message
  | .link e     => e.text
  | .misuse e   => e.message
  | .numeral e  => e.message
  | .fault e    => e.message
  | .file e     => e.message

end Linkage
