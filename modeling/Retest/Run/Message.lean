import Retest.Run.Shift
import Retest.Text.Blank
import Retest.Text.Line
import Retest.Text.Utf8

/-! What passes between the engine and a worker process. Test names go in one per line, and a blank
line ends them. Messages come out one per line; every other line is plain output. -/

namespace Retest

inductive Message where
  | tells (news : WorkerNews)
  | batchComplete
  deriving Repr, DecidableEq

namespace Message

/-- The outcomes that a worker may report. -/
def reportable : List Outcome := [.pass, .fail, .error]

def reportableWord? (s : List Char) : Option Outcome :=
  reportable.find? fun o => o.word.toList = s

/-- The outcome under a key of a message: its word, or an object whose only entry has the word as
its key and nothing as its value. -/
def outcome? : Json → Option Outcome
  | .string (some s) => reportableWord? s
  | .object [(some key, .null)] => reportableWord? key
  | .object [(some key, .object [])] => reportableWord? key
  | _ => none

def optional? : List Json → Option (Option String)
  | [] => some none
  | [v] => Diagnostic.optionalText? v
  | _ => none

def test? (entries : List (Option (List Char) × Json)) : Option String :=
  match Json.valuesOf entries "test" with
  | [v] => Diagnostic.text? v
  | _ => none

def finished? (entries : List (Option (List Char) × Json)) : Option WorkerNews := do
  let test ← test? entries
  let outcome ← match Json.valuesOf entries "outcome" with
    | [v] => outcome? v
    | _ => none
  let message ← optional? (Json.valuesOf entries "message")
  let stack ← optional? (Json.valuesOf entries "stack")
  return .finished test outcome (message.map fun message => { message, stack })

/-- The message that the entries of an object make. Its kind stands under the key `event`, which
occurs once; the keys that the kind needs occur once each, and other keys are passed over. -/
def ofEntries? (entries : List (Option (List Char) × Json)) : Option Message :=
  match Json.valuesOf entries "event" with
  | [.string (some kind)] =>
    match String.ofList kind with
    | "started" => (test? entries).map fun test => .tells (.started test)
    | "finished" => (finished? entries).map .tells
    | "batch_complete" => some .batchComplete
    | _ => none
  | _ => none

def maxDepth : Nat := 127

/-- The message on a line, if it is one. White space around it does not matter. -/
def ofText? (line : List Char) : Option Message :=
  match trimBlank line with
  | '{' :: rest =>
    match Json.ofText? ('{' :: rest) with
    | some (.object entries) =>
      if Json.isReadable maxDepth (.object entries) then ofEntries? entries else none
    | _ => none
  | _ => none

def ofBytes? (line : List UInt8) : Option Message := ofText? (Utf8.decodeLossy line)

def lineFeed : UInt8 := 10

structure Report where
  news : List WorkerNews
  complete : Bool
  bytes : Nat
  deriving Repr, DecidableEq

def readReport : List (List UInt8) → Report
  | [] => ⟨[], false, 0⟩
  | line :: rest =>
    match ofBytes? line with
    | some .batchComplete => ⟨[], true, line.length⟩
    | some (.tells news) =>
      let r := readReport rest
      ⟨news :: r.news, r.complete, line.length + r.bytes⟩
    | none =>
      let r := readReport rest
      { r with bytes := line.length + r.bytes }

/-- The lines of a stream. A last line without its end counts only if the stream has ended. -/
def linesOf (ended : Bool) (stream : List UInt8) : List (List UInt8) :=
  (splitAfter lineFeed stream).filter fun line => ended || line.getLast? = some lineFeed

end Message

def batchBytes (tests : List String) : List UInt8 :=
  tests.flatMap (fun t => Utf8.encodeString t ++ [Message.lineFeed]) ++ [Message.lineFeed]

/-- The lines before the first blank one, and what comes after that; nothing if no line is blank. -/
def readBatch : List (List UInt8) → Option (List (List UInt8) × List (List UInt8))
  | [] => none
  | line :: rest =>
    if line = [Message.lineFeed] then some ([], rest)
    else (readBatch rest).map fun r => (line :: r.1, r.2)

end Retest
