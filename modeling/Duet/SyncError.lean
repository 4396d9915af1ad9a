import Duet.Lib.Text
import Mathlib.Data.List.Infix

/-!
# Structured errors

An error crosses the connection as a text: a line for the version, one for each of its fields, and
its message, which may have lines of its own. Its kind is read off the message, in lower case.
-/

namespace Duet

open Lib

structure StructuredSyncError where
  version : UInt8
  side : Text
  operation : Text
  path : Option Text
  kind : Text
  sources : List Text
  message : Text
deriving DecidableEq

/-! ## Kinds -/

/-- The codes of `libc` on Linux. -/
def edquot : Nat := 122

def enospc : Nat := 28

def osError (code : Nat) : Text := "os error ".toList ++ digitsOf code

/-- The order of the tests decides. `toLowercase` is `str::to_lowercase`. -/
def classifyErrorMessage (toLowercase : Text → Text) (message : Text) : Text :=
  let message := toLowercase message
  if contains message "disk quota exceeded".toList || contains message "quota exceeded".toList ||
      contains message (osError edquot) then
    "quota_exceeded".toList
  else if contains message "no space left on device".toList ||
      contains message "no space left".toList || contains message (osError enospc) then
    "no_space".toList
  else if contains message "permission denied".toList ||
      contains message "permissiondenied".toList || contains message "os error 13".toList then
    "permission_denied".toList
  else if contains message "no such file or directory".toList ||
      contains message "os error 2".toList then
    "not_found".toList
  else if contains message "not a directory".toList || contains message "os error 20".toList then
    "not_directory".toList
  else
    "other".toList

namespace StructuredSyncError

/-! ## Constructors -/

section Constructors

variable (toLowercase : Text → Text)

/-- The text that the kind is read off. -/
def classificationText (message : Text) (sources : List Text) : Text :=
  if sources.isEmpty then message else message ++ '\n' :: joinLines sources

def fromMessageAndSources (side operation : Text) (path : Option Text) (message : Text)
    (sources : List Text) : StructuredSyncError where
  version := 1
  side := side
  operation := operation
  path := path
  kind := classifyErrorMessage toLowercase (classificationText message sources)
  sources := sources
  message := message

def fromMessage (side operation : Text) (path : Option Text) (message : Text) :
    StructuredSyncError :=
  fromMessageAndSources toLowercase side operation path message []

/-- `debug` is how the error prints itself. -/
def new (side operation : Text) (path : Option Text) (debug : Text) : StructuredSyncError :=
  fromMessage toLowercase side operation path debug

def remote (operation : Text) (path : Option Text) (debug : Text) : StructuredSyncError :=
  new toLowercase "remote".toList operation path debug

/-- The first error of a report is its message and the errors that caused it are the sources. -/
def fromReport (side operation : Text) (path : Option Text) (report : Text) (causes : List Text) :
    StructuredSyncError :=
  fromMessageAndSources toLowercase side operation path report causes

end Constructors

/-! ## The text of an error -/

/-- The lines before the message. -/
def header (e : StructuredSyncError) : List Text :=
  ["duet-sync-error-v".toList ++ digitsOf e.version.toNat,
    "side: ".toList ++ escapeControlChars e.side,
    "operation: ".toList ++ escapeControlChars e.operation] ++
  e.path.toList.map (fun path => "path: ".toList ++ escapeControlChars path) ++
  ["kind: ".toList ++ escapeControlChars e.kind] ++
  e.sources.map (fun source => "source: ".toList ++ escapeControlChars source)

/-- `to_string` -/
def display (e : StructuredSyncError) : Text :=
  unlines '\n' e.header ++ ("message: ".toList ++ e.message)

/-- `value.parse::<u8>()` -/
def parseU8 (value : Text) : Option UInt8 :=
  let digits := (stripFront value ['+']).getD value
  if digits = [] ∨ ¬ digits.all Char.isDigit then none
  else
    let number := Nat.ofDigitChars 10 digits 0
    if number < UInt8.size then some (UInt8.ofNat number) else none

/-- The fields that the lines so far have given. -/
structure Fields where
  side : Option Text := none
  operation : Option Text := none
  path : Option Text := none
  kind : Option Text := none
  sources : List Text := []
  message : Option Text := none

/-- The loop over the lines after the first one. What follows the first line of the message belongs
to the message. -/
def parseFields : List Text → Fields → Fields
  | [], fields => fields
  | line :: lines, fields =>
    match stripFront line "side: ".toList with
    | some value => parseFields lines { fields with side := some value }
    | none =>
    match stripFront line "operation: ".toList with
    | some value => parseFields lines { fields with operation := some value }
    | none =>
    match stripFront line "path: ".toList with
    | some value => parseFields lines { fields with path := some value }
    | none =>
    match stripFront line "kind: ".toList with
    | some value => parseFields lines { fields with kind := some value }
    | none =>
    match stripFront line "source: ".toList with
    | some value => parseFields lines { fields with sources := fields.sources ++ [value] }
    | none =>
    match stripFront line "message: ".toList with
    | some value => { fields with message := some (value ++ lines.flatMap ('\n' :: ·)) }
    | none => parseFields lines fields

def parse (message : Text) : Option StructuredSyncError :=
  match textLines message with
  | [] => none
  | first :: lines => do
    let version ← parseU8 (← stripFront first "duet-sync-error-v".toList)
    let fields := parseFields lines {}
    let side ← fields.side
    let operation ← fields.operation
    let kind ← fields.kind
    let message ← fields.message
    some { version, side, operation, path := fields.path, kind, sources := fields.sources, message }

end StructuredSyncError

end Duet
