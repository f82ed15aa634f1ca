import HkuRest.Core.ChunkedCoding
import HkuRest.Httpd.Beast

/-! `HttpHandle` and the `BeastContext` it shares with its connection. A handler is
what it calls in each stage and how the stage ends; `invoke` is the coroutine
`operator()` that runs the stages and turns failures into responses. Everything
sent is logged with the stream it was written to. -/

namespace Hku

/-- The stream object a write goes through: `m_ssl_stream`, or the `tcp::socket`
beneath it. -/
inductive Layer
  | tls
  | tcp
  deriving DecidableEq, Repr

inductive Output
  | header (response : Response)
  | raw (bytes : Bytes)
  | message (response : Response)
  | upgrade
  | frame (payload : Bytes)
  deriving DecidableEq, Repr

structure Write where
  layer : Layer
  output : Output
  deriving DecidableEq, Repr

structure BeastContext where
  req : Request
  res : Response
  buffer : Bytes
  keepAlive : Bool
  responseSent : Bool
  deriving DecidableEq, Repr

def Request.empty : Request := ⟨[], [], 11, [], []⟩

/-- `getReqHeader(name)`: the first field spelled exactly so, or nothing. -/
def Request.getReqHeader (request : Request) (name : Bytes) : Bytes :=
  ((List.find? (fun field => field.1 = name) request.fields).map Prod.snd).getD []

/-- `getReqData()`; a decompressor that throws leaves no data. -/
def Request.getReqData (decompress : Bytes → Option Bytes) (request : Request) : Bytes :=
  if request.getReqHeader (Bytes.ascii "Content-Encoding") = Bytes.ascii "gzip" then
    (decompress request.body).getD []
  else request.body

def BeastContext.create : BeastContext := ⟨.empty, .empty, [], true, false⟩

/-- A handler object at work on its context, and what it has written. -/
structure Exchange where
  context : BeastContext
  chunkedTransfer : Bool
  headersSent : Bool
  writes : List Write
  deriving DecidableEq, Repr

namespace Exchange

/-- A handler object fresh from its constructor. -/
def start (context : BeastContext) : Exchange := ⟨context, false, false, []⟩

def respond (exchange : Exchange) (change : Response → Response) : Exchange :=
  { exchange with context := { exchange.context with res := change exchange.context.res } }

def markSent (exchange : Exchange) : Exchange :=
  { exchange with context := { exchange.context with responseSent := true } }

/-- One write, with its verdict: the n-th write of a turn succeeds if `sendOk n`. -/
def send (sendOk : Nat → Bool) (exchange : Exchange) (layer : Layer) (output : Output) :
    Exchange × Bool :=
  ({ exchange with writes := exchange.writes ++ [⟨layer, output⟩] }, sendOk exchange.writes.length)

def enableChunkedTransfer (exchange : Exchange) : Exchange :=
  { exchange with chunkedTransfer := true, headersSent := false }.respond
    (·.set Field.transferEncoding (Bytes.ascii "chunked"))

variable (sendOk : Nat → Bool)

/-- `writeChunk` and `writeChunkSync`, which differ in how they prepare the header.
Both write to `ctx->socket`, a `tcp::socket`. -/
def writeChunkVia (prepare : Response → Response) (exchange : Exchange) (data : Bytes) :
    Exchange × Bool :=
  if exchange.chunkedTransfer then
    if exchange.headersSent then exchange.send sendOk .tcp (.raw (ChunkedCoding.chunk data))
    else
      let prepared := { exchange with headersSent := true }.respond prepare
      let (opened, delivered) := prepared.send sendOk .tcp (.header prepared.context.res)
      if delivered then opened.send sendOk .tcp (.raw (ChunkedCoding.chunk data)) else (opened, false)
  else (exchange, false)

def writeChunk : Exchange → Bytes → Exchange × Bool := writeChunkVia sendOk (·.setBody [])

def writeChunkSync : Exchange → Bytes → Exchange × Bool :=
  writeChunkVia sendOk fun response =>
    (response.set Field.transferEncoding (Bytes.ascii "chunked")).setBody []

/-- `finishChunkedTransfer` and `finishChunkedTransferSync`; the first throws when its
write fails, and then leaves the handler's own flags alone. -/
def finishChunkedTransferVia (throws : Bool) (exchange : Exchange) : Exchange × Bool :=
  if exchange.chunkedTransfer then
    let (closed, delivered) := exchange.send sendOk .tcp (.raw (Bytes.ascii "0\r\n\r\n"))
    if throws && !delivered then (closed.markSent, false)
    else ({ closed with chunkedTransfer := false, headersSent := false }.markSent, delivered)
  else (exchange, false)

def finishChunkedTransfer : Exchange → Exchange × Bool := finishChunkedTransferVia sendOk true

def finishChunkedTransferSync : Exchange → Exchange × Bool := finishChunkedTransferVia sendOk false

end Exchange

/-- What the code of a handler can do to its exchange. -/
inductive HandleCall
  | respond (change : Response → Response)
  | enableChunkedTransfer
  | writeChunk (data : Bytes)
  | writeChunkSync (data : Bytes)
  | finishChunkedTransfer
  | finishChunkedTransferSync

def HandleCall.perform (sendOk : Nat → Bool) (exchange : Exchange) : HandleCall → Exchange
  | .respond change => exchange.respond change
  | .enableChunkedTransfer => exchange.enableChunkedTransfer
  | .writeChunk data => (exchange.writeChunk sendOk data).1
  | .writeChunkSync data => (exchange.writeChunkSync sendOk data).1
  | .finishChunkedTransfer => (exchange.finishChunkedTransfer sendOk).1
  | .finishChunkedTransferSync => (exchange.finishChunkedTransferSync sendOk).1

def bizOk : Int := 0

def makeErr (bizMod bizCode : Int) : Int := bizMod * 10000 + bizCode

def bizBaseFailed : Int := makeErr 1 0

/-- How a stage ends: it returns a result code, or throws. -/
inductive Outcome
  | returned (code : Int)
  | bizException (errcode : Int)
  | exception
  deriving DecidableEq, Repr

structure Script where
  calls : List HandleCall
  outcome : Outcome

/-- The stages of `operator()`. The two hooks are `noexcept` and only return. -/
structure Handle where
  filters : List Script
  beforeRun : List HandleCall × Int
  run : Script
  afterRun : List HandleCall × Int

namespace Handle

def hook (stage : List HandleCall × Int) : Script := ⟨stage.1, .returned stage.2⟩

def stages (handle : Handle) : List Script :=
  handle.filters ++ [hook handle.beforeRun, handle.run, hook handle.afterRun]

/-- A handler whose hooks do nothing. -/
def ofRun (run : Script) : Handle := ⟨[], ([], bizOk), run, ([], bizOk)⟩

/-- The calls of the stages up to the first that does not succeed. -/
def executed : List Script → List HandleCall
  | [] => []
  | stage :: rest =>
      if stage.outcome = .returned bizOk then stage.calls ++ executed rest else stage.calls

def calls (handle : Handle) : List HandleCall := executed handle.stages

def runStages (sendOk : Nat → Bool) : List Script → Exchange → Exchange × Outcome
  | [], exchange => (exchange, .returned bizOk)
  | stage :: rest, exchange =>
      let after := stage.calls.foldl (HandleCall.perform sendOk) exchange
      if stage.outcome = .returned bizOk then runStages sendOk rest after else (after, stage.outcome)

end Handle

def signedDecimal (value : Int) : Bytes :=
  if value < 0 then Bytes.ascii "-" ++ Bytes.decimal value.natAbs else Bytes.decimal value.natAbs

namespace Exchange

/-- The JSON text with which every failure is reported. -/
def failureText (code : Int) (message : Bytes) : Bytes :=
  Bytes.ascii "\x7b\"ret\":" ++ signedDecimal code ++ Bytes.ascii ",\"errmsg\":\"" ++ message ++
    Bytes.ascii "\"\x7d"

/-- The response that reports a failure, whatever was there before. -/
def failure (status : Nat) (text : Bytes) (response : Response) : Response :=
  let failed := ((response.result status).set Field.contentType
    (Bytes.ascii "application/json; charset=UTF-8")).setBody text
  failed.preparePayload.getD failed

def processError (bizErrMsg : Int → Bytes) (err : Int) (exchange : Exchange) : Exchange :=
  exchange.respond (failure 200 (failureText err (bizErrMsg err)))

def processBizException (errcode : Int) (exchange : Exchange) : Exchange :=
  exchange.respond (failure 200 (failureText errcode (Bytes.ascii "biz exception")))

def processException (exchange : Exchange) : Exchange :=
  exchange.respond (failure 500 (failureText bizBaseFailed (Bytes.ascii "internal error")))

end Exchange

/-- `operator()`. -/
def Handle.invoke (bizErrMsg : Int → Bytes) (sendOk : Nat → Bool) (handle : Handle)
    (exchange : Exchange) : Exchange :=
  let (after, outcome) := runStages sendOk handle.stages exchange
  match outcome with
  | .returned code =>
      if code = bizOk then
        if after.chunkedTransfer then after
        else
          match after.context.res.preparePayload with
          | some prepared => after.respond fun _ => prepared
          | none => after.processException
      else after.processError bizErrMsg code
  | .bizException errcode => after.processBizException errcode
  | .exception => after.processException

end Hku
