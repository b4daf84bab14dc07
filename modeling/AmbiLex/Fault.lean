import AmbiLex.Fault.Class
import AmbiLex.Plain

/-!
# Faults

Everything that can stop the work is a `Fault`: a definition that cannot be used, a read that
failed, an engine that gave up. A fault is a *cause*; its class and its message are computed from
it.
-/

namespace AmbiLex

/-- **A fault raised by a part the library does not own**: a stream, an engine, a callback. It
carries arguments, from which its message is made. -/
structure Raised where
  /-- The class of the fault. -/
  cls : FaultClass
  /-- What was said about it. -/
  args : List Plain

namespace Raised

/-- **A fault of a class with arguments.** A system failure that has a number and a reason is put
into the class of its number. -/
def ofArgs (cls : FaultClass) (args : List Plain) : Raised :=
  match cls, args with
  | .system, .int number :: _ :: more =>
    if more.length ≤ 3 then ⟨(FaultClass.ofSystemNumber? number).getD .system, args⟩
    else ⟨.system, args⟩
  | _, _ => ⟨cls, args⟩

/-- The files that a system failure names behind its number and its reason. The first argument is
a file, the third one another; a failure for which one would have to wait may give a number instead
of a file. -/
def shownFiles (cls : FaultClass) : List Plain → String
  | [] => ""
  | file :: more =>
    if file.isNull || cls = .blocked && file.number?.isSome then ""
    else match more with
      | [_, other] =>
        ": " ++ file.shown ++ (if other.isNull then "" else " -> " ++ other.shown)
      | _ => ": " ++ file.shown

/-- **The message of a raised fault.** One argument is spoken and several are shown as a tuple;
but a missing key is quoted, and a system failure of two to five arguments has a number, a reason
and files. -/
def message (r : Raised) : String :=
  match r.args with
  | [] => ""
  | [arg] => if r.cls = .key then arg.shown else arg.spoken
  | a :: b :: more =>
    if r.cls.under .system && more.length ≤ 3 then
      "[Errno " ++ a.spoken ++ "] " ++ b.spoken ++ shownFiles r.cls more
    else Plain.shownTuple (r.args.map Plain.shown)

end Raised

/-- **What can go wrong**, by cause. Where a cause is about a value that is no longer needed, the
value is kept as it was shown. -/
inductive Fault where
  /-- A token definition in dictionary form does not say what to match. -/
  | noMatchEntry (token : String)
  /-- A token is defined by something that is neither a string nor a pattern. -/
  | notMatchable (token : String) (shown : String)
  /-- A token is defined by the empty string. -/
  | emptyLiteral (token : String)
  /-- The pattern of a token matched the empty string. -/
  | emptyMatch (token : String)
  /-- A store mode is unknown. -/
  | unknownStore (shown : String)
  /-- A buffer size is not a natural number. -/
  | badMinBuffer (shown : String)
  /-- A token is of no known kind. -/
  | unknownKind (spoken : String)
  /-- An encoder's mode is none of the known ones. -/
  | unknownMode (spoken : String)
  /-- A recognizer answered with an advance of no known kind. -/
  | unknownAdvance (shown : String)
  /-- An encoder should call back but has nothing to call. -/
  | noCallback
  /-- A token is not in the table. -/
  | unknownToken (token : String)
  /-- The file to read does not exist. -/
  | fileMissing
  /-- The file to read is a directory. -/
  | fileIsDirectory
  /-- The file to read is not text. -/
  | undecodable
  /-- A fault raised elsewhere. -/
  | raised (r : Raised)

namespace Fault

/-- The class of a fault. -/
def cls : Fault → FaultClass
  | noMatchEntry _ | notMatchable _ _ | emptyLiteral _ | emptyMatch _ => .tokenSpec
  | unknownStore _ => .storeMode
  | badMinBuffer _ | unknownKind _ | unknownMode _ | unknownAdvance _ => .value
  | noCallback => .type
  | unknownToken _ => .key
  | fileMissing => .fileMissing
  | fileIsDirectory => .directory
  | undecodable => .decoding
  | raised r => r.cls

/-- **The message of a fault.** -/
def message : Fault → String
  | noMatchEntry token => "Token " ++ Text.quoted token ++ " has no 'match' entry"
  | notMatchable token shown =>
    "Token " ++ Text.quoted token ++ " must be a string or compiled pattern, got " ++ shown
  | emptyLiteral token => "Token " ++ Text.quoted token ++ " matches the empty string"
  | emptyMatch token =>
    "Token " ++ Text.quoted token ++ " matched empty string. This is not supported."
  | unknownStore shown => "Unknown store variant - " ++ shown
  | badMinBuffer shown => "min_buffer has to be a non-negative int, got " ++ shown
  | unknownKind spoken => "Unknown token kind " ++ spoken
  | unknownMode spoken => "Unexpected store mode " ++ spoken
  | unknownAdvance shown => "Unexpected advance " ++ shown
  | noCallback => "'NoneType' object is not callable"
  | unknownToken token => Text.quoted token
  | fileMissing => "No such file or directory"
  | fileIsDirectory => "Is a directory"
  | undecodable => "not valid UTF-8"
  | raised r => r.message

/-- Whether a fault falls under one of some classes. -/
def underAny (f : Fault) (classes : List FaultClass) : Bool :=
  classes.any f.cls.under

end Fault

end AmbiLex
