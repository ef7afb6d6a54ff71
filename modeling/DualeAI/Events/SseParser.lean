import DualeAI.Events.Bridge
import DualeAI.Foundation.LineBuffer

/-!
The SSE parser, `parse_sse_stream`.

A generator over byte chunks: it buffers, splits at LF, and folds the decoded
lines into the state of the current block. A blank line dispatches the block and
clears that state. CRC32, `json.loads` and the validation of an event's payload
are parameters; a decoder's failure is the one the parser catches (`rejected`) or
an exception of another class, which it lets through (`raised`).
-/
namespace DualeAI.Sse
open Foundation

inductive DecodeFailure where
  | rejected
  | raised (className : String)

structure Decoders where
  crc32 : Bytes → Nat
  loads : Text → Except DecodeFailure Json
  validateData : Json → Except DecodeFailure BridgeEventData

def maxSseEventBytes : Nat := 8 * 1024 * 1024

def crc32HexLength : Nat := 8

def crcTag : Text := "crc=".toList
def idField : Text := "id".toList
def eventField : Text := "event".toList
def dataField : Text := "data".toList

def defaultEventType : Text := "message".toList

structure ParserState where
  eventId : Text := []
  eventType : Text := defaultEventType
  dataLines : List Text := []
  dataBytes : Nat := 0
  pendingChecksum : Option Text := none
deriving DecidableEq, Repr

/-- An asynchronous byte source: its chunks, then its end or its exception. -/
structure Content where
  chunks : List Bytes
  failure : Option Exc

def joinLines (ls : List Text) : Text := ['\n'].intercalate ls

variable (D : Decoders)

def computeChecksum (eventType dataStr : Text) : Text :=
  hex08 (D.crc32 (encodeUtf8 (eventType ++ ':' :: dataStr)) &&& 0xFFFFFFFF)

def bridgeSseEvent (id : Text) (data : Json) : Except DecodeFailure BridgeSSEEvent :=
  if isCursor id then
    match D.validateData data with
    | .ok d => .ok ⟨id, d⟩
    | .error e => .error e
  else .error .rejected

/-- The body of a blank line, without the reset that follows it. -/
def dispatchBlock (s : ParserState) : Gen Exc BridgeSSEEvent Unit :=
  let dataStr := joinLines s.dataLines
  if strip dataStr = [] then pure ()
  else
    match s.pendingChecksum with
    | none => Gen.raise (.sse .missingChecksum)
    | some expected =>
        let actual := computeChecksum D s.eventType dataStr
        if actual ≠ expected then
          Gen.raise (.sse (.checksum s.eventId expected actual s.eventType))
        else
          match D.loads dataStr with
          | .error .rejected => Gen.raise (.sse (.invalidJson dataStr))
          | .error (.raised className) => Gen.raise (.other className)
          | .ok data =>
              if data.carriesType s.eventType then
                match bridgeSseEvent D s.eventId data with
                | .ok event => Gen.emit event
                | .error .rejected => Gen.raise (.sse (.invalidEvent dataStr))
                | .error (.raised className) => Gen.raise (.other className)
              else Gen.raise (.sse (.typeMismatch s.eventType dataStr))

/-- A comment line, its colon dropped. -/
def processComment (s : ParserState) (rest : Text) : Except SSEParseError ParserState :=
  let comment := lstrip rest
  if comment.take 4 = crcTag then
    let checksum := comment.drop 4
    if checksum.length ≠ crc32HexLength ∨ checksum.any (· ∉ hexDigits) then
      .error (.invalidChecksum checksum)
    else .ok { s with pendingChecksum := some checksum }
  else .ok s

def splitField (line : Text) : Text × Text :=
  if ':' ∈ line then
    let (field, value) := partition ':' line
    (field, dropOneSpace value)
  else (line, [])

def processField (s : ParserState) (field value : Text) : Except SSEParseError ParserState :=
  if field = idField then
    if Char.ofNat 0 ∉ value then .ok { s with eventId := value } else .ok s
  else if field = eventField then .ok { s with eventType := value }
  else if field = dataField then
    let nextDataBytes :=
      s.dataBytes + (encodeUtf8 value).length + (if s.dataLines = [] then 0 else 1)
    if nextDataBytes > maxSseEventBytes then .error .dataTooLong
    else .ok { s with dataLines := s.dataLines ++ [value], dataBytes := nextDataBytes }
  else .ok s

def processTextLine (s : ParserState) (line : Text) : Except SSEParseError ParserState :=
  if line.head? = some ':' then processComment s line.tail
  else processField s (splitField line).1 (splitField line).2

def processLine (s : ParserState) (line : Text) : Gen Exc BridgeSSEEvent ParserState :=
  if line = [] then do
    dispatchBlock D s
    pure {}
  else
    match processTextLine s line with
    | .ok s' => pure s'
    | .error e => Gen.raise (.sse e)

def decodeLine (lineBytes : Bytes) : Option Text := (decodeUtf8 lineBytes).map (rstripChar '\r')

def processByteLine (s : ParserState) (lineBytes : Bytes) : Gen Exc BridgeSSEEvent ParserState :=
  match decodeLine lineBytes with
  | none => Gen.raise .unicodeDecodeError
  | some line => processLine D s line

def lf : UInt8 := 10

/-- `buffer.extend(chunk)`, the line loop and the bound on what remains. -/
def processChunk :
    ParserState × Bytes → Bytes → Gen Exc BridgeSSEEvent (ParserState × Bytes) :=
  LineBuffer.feed lf maxSseEventBytes (.sse .lineTooLong) (processByteLine D)

def parseSseStream (content : Content) : Gen Exc BridgeSSEEvent Unit := do
  let _ ← content.chunks.foldlM (processChunk D) ({}, [])
  match content.failure with
  | none => pure ()
  | some e => Gen.raise e

/-! ## The frozen event

The one wire event the test suite pins byte for byte, with decoders that act on
it as the real ones do. -/

/-- CRC-32 as zlib computes it, one bit at a time. -/
def zlibCrc32 (b : Bytes) : Nat :=
  let bit (crc : Nat) (_ : Nat) : Nat :=
    if crc % 2 = 1 then (crc / 2) ^^^ 0xEDB88320 else crc / 2
  b.foldl (fun crc byte => (List.range 8).foldl bit (crc ^^^ byte.toNat)) 0xFFFFFFFF ^^^ 0xFFFFFFFF

def frozenType : Text := "content.delta".toList

def frozenText : Text :=
  "\x7b\"type\":\"content.delta\",\"timestamp\":\"2025-01-01T00:00:00Z\",".toList ++
    "\"delta\":\"hello\"\x7d".toList

def frozenDelta : Text := "hello".toList

def frozenJson : Json :=
  .obj [("type".toList, .str frozenType), ("timestamp".toList, .str "2025-01-01T00:00:00Z".toList),
    ("delta".toList, .str frozenDelta)]

def frozenDecoders : Decoders where
  crc32 := zlibCrc32
  loads t := if t = frozenText then .ok frozenJson else .error .rejected
  validateData
    | .obj [_, _, (_, .str delta)] => .ok (.contentDelta delta)
    | _ => .error .rejected

def frozenWire : Bytes :=
  encodeUtf8 (": crc=18fd7226\nid: 1:1\nevent: content.delta\ndata: ".toList ++ frozenText ++
    "\n\n".toList)

example : computeChecksum frozenDecoders frozenType frozenText = "18fd7226".toList := by
  decide +kernel

end DualeAI.Sse
