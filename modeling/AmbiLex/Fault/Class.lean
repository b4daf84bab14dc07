/-!
# Classes of faults

Faults are sorted into classes, and the classes form a tree. What matters about the tree is the
question whether a fault **falls under** a class, which is how an engine's adapter decides whether
a fault means that the parse failed or that something is broken. Two classes stand apart: `abort`
does not fall under `ordinary`, so asking for ordinary failures does not catch it.

Failures that the operating system reports have a number, and the common numbers have classes of
their own.
-/

namespace AmbiLex

/-- **The classes of faults.** -/
inductive FaultClass where
  /-- The root of the tree. -/
  | any
  /-- A demand to stop, which is not an ordinary failure. -/
  | abort
  /-- The root of the ordinary failures. -/
  | ordinary
  /-- A parsing engine cannot go on. -/
  | engine
  /-- A special case of an engine that cannot go on. -/
  | engineDetail
  /-- A value is unsuitable. -/
  | value
  /-- Bytes are not text in the expected encoding. -/
  | decoding
  /-- Something was not found. -/
  | lookup
  /-- A key was not found. -/
  | key
  /-- Something went wrong while running. -/
  | runtime
  /-- A thing is used as what it is not. -/
  | type
  /-- The operating system reports a failure. -/
  | system
  /-- Waiting would be needed. -/
  | blocked
  /-- There is no child process. -/
  | childProcess
  /-- A connection does not work. -/
  | connection
  /-- Nobody reads what is written. -/
  | brokenPipe
  /-- A connection was given up. -/
  | connectionAborted
  /-- A connection was not accepted. -/
  | connectionRefused
  /-- A connection was closed by the other side. -/
  | connectionReset
  /-- A file exists already. -/
  | fileExists
  /-- A file does not exist. -/
  | fileMissing
  /-- A signal came in between. -/
  | interrupted
  /-- A directory stands where a file should. -/
  | directory
  /-- Something else stands where a directory should. -/
  | notDirectory
  /-- It is not allowed. -/
  | permission
  /-- There is no such process. -/
  | processMissing
  /-- It took too long. -/
  | timeout
  /-- The root of the errors in token definitions. -/
  | configuration
  /-- A token definition cannot be used for matching. -/
  | tokenSpec
  /-- A store mode is not one of the known ones. -/
  | storeMode
  deriving DecidableEq, Repr

namespace FaultClass

/-- **The classes a class falls under**, from itself up to the root. -/
def lineage : FaultClass → List FaultClass
  | any => [any]
  | abort => [abort, any]
  | ordinary => [ordinary, any]
  | engine => [engine, ordinary, any]
  | engineDetail => [engineDetail, engine, ordinary, any]
  | value => [value, ordinary, any]
  | decoding => [decoding, value, ordinary, any]
  | lookup => [lookup, ordinary, any]
  | key => [key, lookup, ordinary, any]
  | runtime => [runtime, ordinary, any]
  | type => [type, ordinary, any]
  | system => [system, ordinary, any]
  | blocked => [blocked, system, ordinary, any]
  | childProcess => [childProcess, system, ordinary, any]
  | connection => [connection, system, ordinary, any]
  | brokenPipe => [brokenPipe, connection, system, ordinary, any]
  | connectionAborted => [connectionAborted, connection, system, ordinary, any]
  | connectionRefused => [connectionRefused, connection, system, ordinary, any]
  | connectionReset => [connectionReset, connection, system, ordinary, any]
  | fileExists => [fileExists, system, ordinary, any]
  | fileMissing => [fileMissing, system, ordinary, any]
  | interrupted => [interrupted, system, ordinary, any]
  | directory => [directory, system, ordinary, any]
  | notDirectory => [notDirectory, system, ordinary, any]
  | permission => [permission, system, ordinary, any]
  | processMissing => [processMissing, system, ordinary, any]
  | timeout => [timeout, system, ordinary, any]
  | configuration => [configuration, ordinary, any]
  | tokenSpec => [tokenSpec, configuration, ordinary, any]
  | storeMode => [storeMode, configuration, ordinary, any]

/-- **Whether a class falls under another.** -/
def under (c d : FaultClass) : Bool :=
  c.lineage.contains d

/-- **The class of a system failure with a number**, as far as numbers have classes of their own. -/
def ofSystemNumber? (number : Int) : Option FaultClass :=
  match number with
  | 1 | 13 => some permission
  | 2 => some fileMissing
  | 3 => some processMissing
  | 4 => some interrupted
  | 10 => some childProcess
  | 11 | 114 | 115 => some blocked
  | 17 => some fileExists
  | 20 => some notDirectory
  | 21 => some directory
  | 32 | 108 => some brokenPipe
  | 103 => some connectionAborted
  | 104 => some connectionReset
  | 110 => some timeout
  | 111 => some connectionRefused
  | _ => none

@[simp] theorem under_self (c : FaultClass) : c.under c = true := by
  cases c <;> rfl

end FaultClass

end AmbiLex
